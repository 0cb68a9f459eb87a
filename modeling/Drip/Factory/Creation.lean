import Drip.Stream.Payments
import Drip.Factory.Index

/-!
# Factory — Creation

The creation of streams: `contracts/factory/src/lib.rs` from `create_stream` to
`create_batch_streams`, `governance.rs` and `deploy.rs`.

A `World` is what the factory's calls read and write: its own storage, the token balances, the
streams it has deployed and the events it has published.  What the host and other contracts
compute for the factory is a parameter (`Host`): the salt of a stream id, the address a salt deploys
to, whether a WASM hash is that of the uploaded stream contract, the governor's answer to `config`,
and the `cancel` of a contract that is none of the factory's streams.
-/

namespace Drip

/-- The fields of `GovernorConfig` that the factory reads. -/
structure GovernorConfig where
  feeBps : U32
  feeRecipient : Address
  minDurationSeconds : U64
  maxDurationSeconds : U64
  maxRatePerSecond : I128
  forceCancelPauseSecs : U64
deriving DecidableEq

/-- The environment of a call the contract makes to `callee`, which sees it as its invoker. -/
def Env.invoke (env : Env) (callee : Address) : Env where
  contract := callee
  timestamp := env.timestamp
  sequence := env.sequence
  authorized := fun a => a != callee && (a == env.contract || env.authorized a)
  self_unauthorized := by simp

end Drip

namespace Drip.Factory
open Chain

/-- A deployed stream contract: its storage, and what it has published and transferred. -/
structure Deployed where
  store : Stream.Storage
  events : List Stream.Published
  transfers : List Stream.Transfer

structure Host where
  /-- `compute_salt`: the SHA-256 of the stream id -/
  computeSalt : U64 → Hash
  /-- the address a deployer's salt deploys to -/
  deployedAddress : Address → Hash → Address
  /-- the hash is that of the uploaded `DripStream` contract -/
  isStreamWasm : Hash → Bool
  /-- `DripGovernorClient::try_config`; `none` when the call fails -/
  governorConfig : Address → Option GovernorConfig
  /-- `cancel(sender)` of a contract that is none of the factory's streams: the balances it leaves,
  and what has become of each stream; `none` when the call fails.  It cannot enter the factory
  again. -/
  cancelForeign : Env → Address → Address → Ledger → (Address → Option Deployed) →
    Option (Ledger × (Address → Deployed → Deployed)) := fun _ _ _ _ _ => none

inductive Event where
  | protocolFeeCharged (feeRecipient : Address) (fee : I128)
  | streamCreated (creator recipient streamAddress : Address) (salt wasmHash : Hash)
  | paused (governor : Address) (pausedAt : U64)
  | unpaused (governor : Address) (resumedAt : U64)
  | streamContractUpgraded (oldWasmHash newWasmHash : Hash)
  | upgraded (governor : Address) (upgradedAt : U64)
deriving DecidableEq

structure World where
  factory : Storage
  tokens : Ledger
  streams : Address → Option Deployed
  events : List Event := []

namespace World

def balance (w : World) (token holder : Address) : I128 := (w.tokens.balance token holder).widen

/-- `token::Client::transfer`; a failed token call traps. -/
def transfer (w : World) (token src dst : Address) (amount : I128) : Result World := do
  let tokens ← okOr (w.tokens.transfer token src dst amount) .trap
  return { w with tokens := tokens }

/-- A transfer whose arrival the factory checks against the destination's balance before it. -/
def transferChecked (w : World) (token src dst : Address) (amount : I128) (e : Error) :
    Result World := do
  let balanceBefore := w.balance token dst
  let w ← w.transfer token src dst amount
  let expected ← okOr (balanceBefore.checkedAdd amount) .trap
  reject (w.balance token dst ≠ expected) (err e)
  return w

/-- The state a stream's own calls run in. -/
def streamState (w : World) (d : Deployed) : Stream.State :=
  { store := d.store, tokens := w.tokens, events := d.events, transfers := d.transfers }

end World

/-! ### Requests -/

/-- `StreamInitParams`: the parameters of a new stream.  `create_stream` takes the same fields as
arguments, and a description. -/
structure StreamInitParams where
  sender : Address
  recipient : Address
  token : Address
  deposit : I128
  ratePerSec : I128
  startTime : U64
  endTime : U64
  clawback : Bool
deriving DecidableEq

structure BatchStreamRequest where
  recipient : Address
  token : Address
  deposit : I128
  ratePerSec : I128
  startTime : U64
  endTime : U64
deriving DecidableEq

/-- The funding check of `validate_stream_request`: a bounded stream is paid for in full. -/
def validateFunding (p : StreamInitParams) : Result Unit :=
  if 0 < p.endTime.val then do
    let duration ← okOr (p.endTime.checkedSub p.startTime) .trap
    let required ← okOr (p.ratePerSec.checkedMul duration.widen) (err .arithmeticOverflow)
    reject (p.deposit < required) (err .insufficientDeposit)
  else .ok ()

def validateStreamRequest (env : Env) (p : StreamInitParams) : Result U64 := do
  reject (isZeroAddress p.recipient = true ∨ p.recipient = p.sender) (err .invalidRecipient)
  reject (isZeroAddress p.token = true) (err .invalidToken)
  reject (0 < p.endTime.val ∧ p.endTime ≤ p.startTime) (err .invalidDuration)
  reject (0 < p.endTime.val ∧ p.endTime.val - p.startTime.val < Stream.minStreamDuration)
    (err .durationTooShort)
  reject (p.deposit.val ≤ 0) (err .invalidDeposit)
  reject (p.ratePerSec.val ≤ 0) (err .invalidRate)
  reject (p.deposit < p.ratePerSec) (err .insufficientDeposit)
  let now := env.timestamp
  reject (p.startTime < now) (err .backdatedStream)
  validateFunding p
  return now

/-- The duration bounds of `governance::enforce_bounds`. -/
def enforceDuration (config : GovernorConfig) (startTime endTime : U64) : Result Unit :=
  if 0 < endTime.val then do
    let duration ← okOr (endTime.checkedSub startTime) (err .arithmeticOverflow)
    reject (duration < config.minDurationSeconds) (err .durationTooShort)
    reject (config.maxDurationSeconds < duration) (err .durationExceedsMax)
  else .ok ()

/-- `governance::enforce_bounds`. -/
def enforceBounds (config : GovernorConfig) (ratePerSec : I128) (startTime endTime now : U64) :
    Result Unit := do
  reject (config.maxRatePerSecond < ratePerSec) (err .rateExceedsMax)
  let startOffset := startTime.saturatingSub now
  reject (config.maxDurationSeconds < startOffset) (err .startTimeTooFarInFuture)
  enforceDuration config startTime endTime

/-! ### Deployment -/

/-- `deploy::deploy_stream`: deploys the contract and calls its `initialize`, whose failure traps. -/
def deployStream (host : Host) (env : Env) (wasmHash : Hash) (streamId : U64)
    (initArgs : Stream.InitArgs) (w : World) : Result (Address × World) := do
  let salt := host.computeSalt streamId
  reject ((w.factory.saltUsed salt).isSome = true) (err .saltAlreadyUsed)
  let addr := host.deployedAddress env.contract salt
  reject (host.isStreamWasm wasmHash = false ∨ (w.streams addr).isSome = true ∨ addr = env.contract)
    .trap
  match Stream.initializeStream (env.invoke addr) initArgs (.fresh w.tokens) with
  | .error _ => .error .trap
  | .ok (_, s) =>
      return (addr, { w with
        factory := { w.factory with
          saltUsed := Function.update w.factory.saltUsed salt (some true) }
        streams := Function.update w.streams addr (some ⟨s.store, s.events, s.transfers⟩) })

/-- The registry writes of `create_stream_with_config`: the address, the counters, the indices. -/
def register (p : StreamInitParams) (streamId : U64) (streamAddr : Address) (st : Storage) :
    Result Storage := do
  let streamCount ← okOr (streamId.checkedAdd (.lit 1)) .trap
  let aggregate := st.aggregate.getD ⟨.lit 0, .lit 0⟩
  let totalSupply ← okOr (aggregate.totalSupply.checkedAdd (.lit 1)) .trap
  let activeStreams ← okOr (aggregate.activeStreams.checkedAdd (.lit 1)) .trap
  let st := { st with
    streamAddr := Function.update st.streamAddr streamId (some streamAddr)
    isKnownStream := Function.update st.isKnownStream streamAddr (some true)
    streamCount := some streamCount
    aggregate := some ⟨totalSupply, activeStreams⟩ }
  let st ← appendSenderIndex st p.sender streamId
  appendRecipientIndex st p.recipient streamId

/-- The arguments the factory initializes a stream with. -/
def initArgs (config : GovernorConfig) (p : StreamInitParams) (description : Option Bytes) :
    Stream.InitArgs where
  sender := p.sender
  recipient := p.recipient
  token := p.token
  ratePerSecond := p.ratePerSec
  startTime := p.startTime
  endTime := p.endTime
  clawbackEnabled := p.clawback
  forceCancelPauseSecs := config.forceCancelPauseSecs
  isRegulatedAsset := false
  description := description

/-! ### Creation -/

/-- The protocol fee on a deposit, in basis points rounded towards zero. -/
def protocolFee (config : GovernorConfig) (deposit : I128) : Result I128 := do
  let product ← okOr (deposit.checkedMul config.feeBps.widen) (err .arithmeticOverflow)
  okOr (Ranged.ofInt? (product.val.tdiv 10000)) (err .arithmeticOverflow)

/-- The fee's way to its recipient, under `if fee > 0`. -/
def payFee (env : Env) (config : GovernorConfig) (token : Address) (fee : I128) (w : World) :
    Result World :=
  if 0 < fee.val then w.transfer token env.contract config.feeRecipient fee else .ok w

def createStreamWithConfig (host : Host) (env : Env) (config : GovernorConfig) (now : U64)
    (p : StreamInitParams) (description : Option Bytes) (w : World) : Result (U64 × World) := do
  enforceBounds config p.ratePerSec p.startTime p.endTime now
  let fee ← protocolFee config p.deposit
  let totalFunding ← okOr (p.deposit.checkedAdd fee) (err .arithmeticOverflow)
  reject (w.factory.createLock.getD false = true) (err .createLocked)
  let w := { w with factory := { w.factory with createLock := some true } }
  let w ← w.transferChecked p.token p.sender env.contract totalFunding .depositTransferFailed
  let w ← payFee env config p.token fee w
  let w := { w with events := w.events ++ [Event.protocolFeeCharged config.feeRecipient fee] }
  let streamId := w.factory.streamCount.getD (.lit 0)
  let wasmHash ← okOr w.factory.streamWasmHash (err .notInitialized)
  let (streamAddr, w) ← deployStream host env wasmHash streamId (initArgs config p description) w
  let w ← w.transferChecked p.token env.contract streamAddr p.deposit .streamFundingFailed
  let w := { w with events := w.events ++
    [Event.streamCreated p.sender p.recipient streamAddr (host.computeSalt streamId) wasmHash] }
  let st ← register p streamId streamAddr w.factory
  return (streamId, { w with factory := { st with createLock := some false } })

/-- `pause::require_not_paused`. -/
def requireNotPaused (env : Env) (w : World) : Result World := do
  let (paused, stored) := Pause.isPaused env.timestamp w.factory.paused
  reject (paused = true) (err .contractPaused)
  return { w with factory := { w.factory with paused := stored } }

/-- The governor's configuration, read with `governance::config`. -/
def readConfig (host : Host) (w : World) : Result GovernorConfig := do
  let governor ← okOr w.factory.governorAddress (err .notInitialized)
  okOr (host.governorConfig governor) (err .governorNotResponding)

def createStream (host : Host) (env : Env) (p : StreamInitParams) (description : Option Bytes)
    (w : World) : Result (U64 × World) := do
  requireAuth env p.sender
  let w ← requireNotPaused env w
  let now ← validateStreamRequest env p
  reject (∃ d ∈ description, Stream.maxDescriptionLen < d.length) (err .descriptionTooLong)
  let config ← readConfig host w
  createStreamWithConfig host env config now p description w

/-- `MAX_BATCH_SIZE`. -/
def maxBatchSize : Nat := 10

/-- One turn of the loop of `batch_create_streams`. -/
def createFromConfig (host : Host) (env : Env) (config : GovernorConfig)
    (acc : List Address × World) (p : StreamInitParams) : Result (List Address × World) := do
  let (deployed, w) := acc
  requireAuth env p.sender
  let now ← validateStreamRequest env p
  let (streamId, w) ← createStreamWithConfig host env config now p none w
  let addr ← okOr (w.factory.streamAddr streamId) .trap
  return (deployed ++ [addr], w)

def batchCreateStreams (host : Host) (env : Env) (configs : List StreamInitParams) (w : World) :
    Result (List Address × World) := do
  reject (configs = []) (err .emptyBatch)
  reject (maxBatchSize < configs.length) (err .batchTooLarge)
  let w ← requireNotPaused env w
  let config ← readConfig host w
  configs.foldlM (createFromConfig host env config) ([], w)

/-- A request of a batch, with the sender and the clawback flag of the batch. -/
def BatchStreamRequest.params (r : BatchStreamRequest) (sender : Address) (clawback : Bool) :
    StreamInitParams where
  sender := sender
  recipient := r.recipient
  token := r.token
  deposit := r.deposit
  ratePerSec := r.ratePerSec
  startTime := r.startTime
  endTime := r.endTime
  clawback := clawback

/-- One turn of the loop of `create_batch_streams`. -/
def createFromRequest (host : Host) (env : Env) (config : GovernorConfig) (sender : Address)
    (clawback : Bool) (acc : List U64 × World) (r : BatchStreamRequest) :
    Result (List U64 × World) := do
  let (streamIds, w) := acc
  let p := r.params sender clawback
  let now ← validateStreamRequest env p
  let (streamId, w) ← createStreamWithConfig host env config now p none w
  return (streamIds ++ [streamId], w)

def createBatchStreams (host : Host) (env : Env) (sender : Address)
    (requests : List BatchStreamRequest) (clawback : Bool) (w : World) :
    Result (List U64 × World) := do
  reject (requests = []) (err .emptyBatch)
  reject (maxBatchSize < requests.length) (err .batchTooLarge)
  requireAuth env sender
  let w ← requireNotPaused env w
  let config ← readConfig host w
  requests.foldlM (createFromRequest host env config sender clawback) ([], w)

end Drip.Factory
