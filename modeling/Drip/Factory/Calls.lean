import Drip.Stream.Runs
import Drip.Factory.Creation

/-!
# Factory — Calls

The other entry points of `contracts/factory/src/lib.rs`, and the factory as a machine.  A `Call` is
an entry point with its arguments, and `exec` the world it leaves.  Between the calls to the factory
its streams are called directly and tokens move (`Step`).  Every call brings the answers the host and
the other contracts give at that time, and time may pass as it likes: nothing below depends on it.

`upgrade_self` replaces the code modelled here, so that no run goes on after it: it is no `Call`.
-/

namespace Drip.Factory
open Chain

/-! ### Setup -/

/-- `initialize`. -/
def initializeFactory (streamWasmHash : Hash) (governor : Address) (w : World) : Result World := do
  reject (w.factory.streamCount.isSome = true) (err .alreadyInitialized)
  reject (streamWasmHash = 0) (err .invalidWasmHash)
  reject (isZeroAddress governor = true) (err .invalidGovernor)
  return { w with factory := { w.factory with
    streamWasmHash := some streamWasmHash
    governorAddress := some governor
    streamCount := some (.lit 0)
    aggregate := some ⟨.lit 0, .lit 0⟩
    factoryStorageVersion := some currentStorageVersion } }

/-! ### Reads -/

def streamCount (st : Storage) : U64 := st.streamCount.getD (.lit 0)

/-- The read of one key; the extension of its lifetime is left out. -/
def deployedStreamCountByToken (st : Storage) (token : Address) : U64 :=
  (st.tokenStreamCount token).getD (.lit 0)

def aggregate (st : Storage) : Aggregate := st.aggregate.getD ⟨.lit 0, .lit 0⟩

/-! ### Cancellation -/

/-- A stream's state after a call to it. -/
def World.withStream (w : World) (stream : Address) (s : Stream.State) : World :=
  { w with
    tokens := s.tokens
    streams := Function.update w.streams stream (some ⟨s.store, s.events, s.transfers⟩) }

/-- `DripStreamClient::cancel`: the call to the contract at the address, whichever it is.  A failure
traps, and so does a call to the factory itself. -/
def callCancel (host : Host) (env : Env) (sender stream : Address) (w : World) : Result World :=
  if stream = env.contract then .error .trap
  else
    match w.streams stream with
    | some d =>
        match Stream.cancel (env.invoke stream) sender (w.streamState d) with
        | .error _ => .error .trap
        | .ok (_, s) => .ok (w.withStream stream s)
    | none => do
        let (tokens, become) ←
          okOr (host.cancelForeign env stream sender w.tokens w.streams) .trap
        return { w with tokens := tokens, streams := fun a => (w.streams a).map (become a) }

/-- The marker of a cancellation, and its decrement of the active streams. -/
def recordCancellation (stream : Address) (st : Storage) : Storage :=
  { st with
    cancelledStream := Function.update st.cancelledStream stream (some true)
    aggregate := some { aggregate st with
      activeStreams := (aggregate st).activeStreams.saturatingSub (.lit 1) } }

/-- One turn of the loop of `cancel_batch_streams`. -/
def cancelTurn (host : Host) (env : Env) (sender : Address) (w : World) (stream : Address) :
    Result World := do
  let w ← callCancel host env sender stream w
  let alreadyRecorded := (w.factory.cancelledStream stream).getD false
  if alreadyRecorded then return w
  else return { w with factory := recordCancellation stream w.factory }

def cancelBatchStreams (host : Host) (env : Env) (sender : Address)
    (streamAddresses : List Address) (w : World) : Result World := do
  requireAuth env sender
  reject (streamAddresses = []) (err .emptyBatch)
  reject (maxBatchSize < streamAddresses.length) (err .batchTooLarge)
  reject (¬ streamAddresses.Nodup) (err .duplicateStreamId)
  streamAddresses.foldlM (cancelTurn host env sender) w

/-- `DripStreamClient::info`. -/
def streamInfo (w : World) (stream : Address) : Result Stream.StreamInfo := do
  let d ← okOr (w.streams stream) .trap
  okOr d.store.config .trap

def recordCancel (stream : Address) (w : World) : Result World :=
  if (w.factory.isKnownStream stream).getD false = false then .ok w
  else if (w.factory.cancelledStream stream).getD false = true then .ok w
  else do
    let info ← streamInfo w stream
    if info.isCancelled = false then return w
    else return { w with factory := recordCancellation stream w.factory }

/-! ### Maintenance -/

/-- `ttl::BATCH_LIMIT`. -/
def batchLimit : Nat := 8

/-- `ttl::bump_persistent_bucket`: the cursor after a window of `BATCH_LIMIT` ids. -/
def bumpPersistentBucket (st : Storage) : Storage :=
  let count := st.streamCount.getD (.lit 0)
  if count.val = 0 then st
  else
    let cursor := st.lastBumpedId.getD (.lit 0)
    let newLast := (List.range batchLimit).foldl (fun (_ : U64) (i : Nat) =>
      let next := (cursor.saturatingAdd (.lit 1)).saturatingAdd (.clamp i (by decide))
      .clamp (next.val % count.val) (by decide)) cursor
    { st with lastBumpedId := some newLast }

/-- The governor's authorization, asked for by the maintenance calls. -/
def requireGovernor (env : Env) (w : World) : Result Address := do
  let governor ← okOr w.factory.governorAddress (err .notInitialized)
  requireAuth env governor
  return governor

/-- `pause::is_paused`, which may rewrite the flag. -/
def isPaused (env : Env) (w : World) : Bool × World :=
  let (paused, stored) := Pause.isPaused env.timestamp w.factory.paused
  (paused, { w with factory := { w.factory with paused := stored } })

/-- `pause::set_paused`: a refusal by the shared helper is ignored, a trap is not. -/
def setPaused (env : Env) (paused : Bool) (w : World) : Result World :=
  match Pause.setPaused env.timestamp w.factory.paused paused with
  | .ok stored => .ok { w with factory := { w.factory with paused := stored } }
  | .error (.contract _) => .ok w
  | .error .trap => .error .trap

def pause (env : Env) (w : World) : Result World := do
  let governor ← requireGovernor env w
  let (paused, w) := isPaused env w
  reject (paused = true) (err .alreadyPaused)
  let w := { w with factory := bumpPersistentBucket w.factory }
  let w ← setPaused env true w
  return { w with events := w.events ++ [.paused governor env.timestamp] }

def unpause (env : Env) (w : World) : Result World := do
  let governor ← requireGovernor env w
  let (paused, w) := isPaused env w
  reject (paused = false) (err .notPaused)
  let w := { w with factory := bumpPersistentBucket w.factory }
  let w ← setPaused env false w
  return { w with events := w.events ++ [.unpaused governor env.timestamp] }

/-- `upgrade_stream_wasm`. -/
def upgradeStreamWasm (env : Env) (newWasmHash : Hash) (w : World) : Result World := do
  let _ ← requireGovernor env w
  reject (newWasmHash = 0) (err .invalidWasmHash)
  let w ← requireNotPaused env w
  let oldWasmHash ← okOr w.factory.streamWasmHash (err .notInitialized)
  let w := { w with factory := bumpPersistentBucket w.factory }
  if oldWasmHash = newWasmHash then return w
  else
    return { w with
      factory := { w.factory with streamWasmHash := some newWasmHash }
      events := w.events ++ [.streamContractUpgraded oldWasmHash newWasmHash] }

/-- `upgrade_self`; the code it installs is not modelled. -/
def upgradeSelf (env : Env) (newWasmHash : Hash) (expectedStorageVersion : U32) (w : World) : Result World := do
  let governor ← requireGovernor env w
  reject (newWasmHash = 0) (err .invalidWasmHash)
  let w ← requireNotPaused env w
  let storedVersion ← okOr w.factory.factoryStorageVersion (err .notInitialized)
  reject (expectedStorageVersion ≠ storedVersion) (err .storageVersionMismatch)
  return { w with events := w.events ++ [.upgraded governor env.timestamp] }

/-! ### The factory as a machine -/

inductive Call where
  | initializeFactory (streamWasmHash : Hash) (governor : Address)
  | createStream (p : StreamInitParams) (description : Option Bytes)
  | batchCreateStreams (configs : List StreamInitParams)
  | createBatchStreams (sender : Address) (requests : List BatchStreamRequest) (clawback : Bool)
  | cancelBatchStreams (sender : Address) (streamAddresses : List Address)
  | recordCancel (stream : Address)
  | pause
  | unpause
  | isPaused
  | upgradeStreamWasm (newWasmHash : Hash)
  | migrateSenderIndex (sender : Address) (maxPages : Nat)
  | migrateRecipientIndex (recipient : Address) (maxPages : Nat)

/-- The world after a result whose value is not looked at. -/
def after {α : Type} (r : Result (α × World)) : Result World := do
  let (_, w) ← r
  return w

/-- A call that writes the factory's storage only. -/
def onStorage {α : Type} (w : World) (r : Result (α × Storage)) : Result World := do
  let (_, st) ← r
  return { w with factory := st }

/-- The world a call leaves. -/
def exec (host : Host) (env : Env) (w : World) : Call → Result World
  | .initializeFactory hash governor => initializeFactory hash governor w
  | .createStream p description => after (createStream host env p description w)
  | .batchCreateStreams configs => after (batchCreateStreams host env configs w)
  | .createBatchStreams sender requests clawback =>
      after (createBatchStreams host env sender requests clawback w)
  | .cancelBatchStreams sender streamAddresses =>
      cancelBatchStreams host env sender streamAddresses w
  | .recordCancel stream => recordCancel stream w
  | .pause => pause env w
  | .unpause => unpause env w
  | .isPaused => .ok (isPaused env w).2
  | .upgradeStreamWasm newWasmHash => upgradeStreamWasm env newWasmHash w
  | .migrateSenderIndex sender maxPages =>
      onStorage w (migrateSenderIndex w.factory sender maxPages)
  | .migrateRecipientIndex recipient maxPages =>
      onStorage w (migrateRecipientIndex w.factory recipient maxPages)

inductive Action where
  | call (host : Host) (env : Env) (c : Call)
  | failed (host : Host) (env : Env) (c : Call)
  | direct (env : Env) (stream : Address) (c : Stream.Call)
  | outside (tokens : Ledger)

/-- A step of the world of the factory at `here`. -/
inductive Step (here : Address) : World → Action → World → Prop where
  | call {w w' : World} {host : Host} {env : Env} {c : Call} (henv : env.contract = here)
      (h : exec host env w c = .ok w') : Step here w (.call host env c) w'
  /-- a call that fails is rolled back -/
  | failed {w : World} {host : Host} {env : Env} {c : Call} {e : Failure Error}
      (henv : env.contract = here) (h : exec host env w c = .error e) :
      Step here w (.failed host env c) w
  /-- a stream is called directly -/
  | direct {w : World} {env : Env} {d : Deployed} {c : Stream.Call} {s : Stream.State}
      (hd : w.streams env.contract = some d) (h : Stream.exec env (w.streamState d) c = .ok s) :
      Step here w (.direct env env.contract c) (w.withStream env.contract s)
  | outside {w : World} {tokens : Ledger} : Step here w (.outside tokens) { w with tokens := tokens }

/-- A factory that has been initialized, and nothing else. -/
def Fresh (w : World) : Prop :=
  ∃ hash governor tokens, initializeFactory hash governor
    { factory := {}, tokens := tokens, streams := fun _ => none } = .ok w

end Drip.Factory
