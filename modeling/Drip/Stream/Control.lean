import Drip.Stream.Payments

/-!
# Stream — Control

The entry points of `contracts/stream/src/lib.rs` that change a stream's schedule, its parties or
its settings: pausing, the rate, the cliff, the recipient, the operator, the split, the emergency
freeze and the descriptive texts.
-/

namespace Drip.Stream
open Chain

/-- `ttl::MAX_PAUSE_SECS`: thirty days. -/
def maxPauseSecs : U64 := .lit 2592000

/-! ### Pause and resume -/

def pauseBody (env : Env) (caller : Address) (s : State) : Result (Unit × State) := do
  let info ← load s
  assertNotCancelled info
  reject (info.isPaused = true) (err .alreadyPaused)
  requireSenderOrOperator env s caller info.sender
  let now := env.timestamp
  reject (now < info.startTime) (err .streamNotStarted)
  reject (0 < info.endTime.val ∧ info.endTime < now) (err .streamEnded)
  let w ← withdrawable env s info
  let s := s.save { info.markPaused with pausedAt := now }
  let s ← publish s (.paused caller now w)
  return ((), s)

def pause (env : Env) (caller : Address) (s : State) : Result (Unit × State) :=
  withGuard s (pauseBody env caller)

/-- The checkpoint shift of `_resume`: a checkpoint already active at the pause moves forward by
the paused duration, a later one stays. -/
def shiftCheckpoint (s : State) (info : StreamInfo) (pausedDuration : U64) : Result State :=
  match s.store.rateCheckpoint with
  | some checkpoint =>
      if checkpoint.at ≤ info.pausedAt then do
        let newAt ← okOr (checkpoint.at.checkedAdd pausedDuration) (err .arithmeticOverflow)
        return { s with store := { s.store with
          rateCheckpoint := some { checkpoint with «at» := newAt } } }
      else .ok s
  | none => .ok s

/-- `end_time` after a resume: shifted when the stream is bounded. -/
def shiftEndTime (info : StreamInfo) (pausedDuration : U64) : Result U64 :=
  if 0 < info.endTime.val then
    okOr (info.endTime.checkedAdd pausedDuration) (err .arithmeticOverflow)
  else .ok info.endTime

def resumeBody (env : Env) (caller : Address) (s : State) : Result (Unit × State) := do
  let info ← load s
  assertNotCancelled info
  reject (info.isPaused = false) (err .notPaused)
  requireSenderOrOperator env s caller info.sender
  let now := env.timestamp
  let pausedDuration ← okOr (now.checkedSub info.pausedAt) (err .arithmeticOverflow)
  let s ← shiftCheckpoint s info pausedDuration
  reject (maxPauseSecs < pausedDuration) (err .pauseThresholdNotMet)
  let newStart ← okOr (info.startTime.checkedAdd pausedDuration) (err .arithmeticOverflow)
  let newEnd ← shiftEndTime info pausedDuration
  let s := s.save
    { info.markResumed with startTime := newStart, pausedAt := .lit 0, endTime := newEnd }
  let s ← publish s (.resumed caller now)
  return ((), s)

def resume (env : Env) (caller : Address) (s : State) : Result (Unit × State) :=
  withGuard s (resumeBody env caller)

/-! ### The rate and the cliff -/

/-- The checkpoint `_change_rate` writes: at the cliff or the start when that is still ahead of the
change, otherwise at the change with the value accrued so far. -/
def checkpointFor (s : State) (info : StreamInfo) (effectiveChangeTime : U64) (accrued : I128) :
    RateCheckpoint :=
  match s.store.cliffConfig with
  | some cfg =>
      if effectiveChangeTime < cfg.cliffTime then ⟨cfg.cliffUnlockAmount, cfg.cliffTime⟩
      else ⟨accrued, effectiveChangeTime⟩
  | none =>
      if effectiveChangeTime < info.startTime then ⟨.lit 0, info.startTime⟩
      else ⟨accrued, effectiveChangeTime⟩

/-- The overflow guard of `_change_rate` on what is still to accrue up to `end_time`. -/
def checkObligation (info : StreamInfo) (checkpoint : RateCheckpoint) (newRate : I128) :
    Result Unit :=
  if 0 < info.endTime.val ∧ checkpoint.at < info.endTime then do
    let remaining ← okOr (info.endTime.checkedSub checkpoint.at) (err .arithmeticOverflow)
    let future ← okOr (newRate.checkedMul remaining.widen) (err .arithmeticOverflow)
    let _ ← okOr (checkpoint.accrued.checkedAdd future) (err .arithmeticOverflow)
    return ()
  else .ok ()

def changeRateBody (env : Env) (caller : Address) (newRatePerSecond : I128) (s : State) :
    Result (Unit × State) := do
  reject (newRatePerSecond.val ≤ 0) (err .invalidAmount)
  let info ← load s
  assertNotCancelled info
  requireSenderOrOperator env s caller info.sender
  let now := env.timestamp
  reject (0 < info.endTime.val ∧ info.endTime ≤ now) (err .streamEnded)
  let accrued ← streamedAmount env s info
  let effectiveChangeTime := if info.isPaused then info.pausedAt else now
  let checkpoint := checkpointFor s info effectiveChangeTime accrued
  checkObligation info checkpoint newRatePerSecond
  let oldRate := info.ratePerSecond
  let s := s.save { info with ratePerSecond := newRatePerSecond }
  let s := { s with store := { s.store with rateCheckpoint := some checkpoint } }
  let s ← publish s (.rateChanged caller oldRate newRatePerSecond)
  return ((), s)

def changeRate (env : Env) (caller : Address) (newRatePerSecond : I128) (s : State) :
    Result (Unit × State) :=
  withGuard s (changeRateBody env caller newRatePerSecond)

def setCliffBody (env : Env) (caller : Address) (cliffTime : U64) (cliffUnlockAmount : I128)
    (s : State) : Result (Unit × State) := do
  let info ← load s
  assertNotCancelled info
  requireSenderOrOperator env s caller info.sender
  reject (cliffUnlockAmount.val < 0) (err .invalidAmount)
  reject (cliffTime < info.startTime ∨ (0 < info.endTime.val ∧ info.endTime < cliffTime))
    (err .invalidTimeRange)
  let s := { s with store := { s.store with
    cliffConfig := some ⟨cliffTime, cliffUnlockAmount⟩ } }
  let s ← publish s (.cliffConfigured caller cliffTime cliffUnlockAmount)
  return ((), s)

def setCliff (env : Env) (caller : Address) (cliffTime : U64) (cliffUnlockAmount : I128)
    (s : State) : Result (Unit × State) :=
  withGuard s (setCliffBody env caller cliffTime cliffUnlockAmount)

/-! ### The recipient side -/

def transferRecipientBody (env : Env) (newRecipient : Address) (s : State) :
    Result (Unit × State) := do
  let info ← load s
  assertNotCancelled info
  requireAuth env info.recipient
  reject (isZeroAddress newRecipient = true ∨ newRecipient = info.recipient) (err .invalidRecipient)
  reject (0 < info.endTime.val ∧ info.endTime ≤ env.timestamp) (err .streamEnded)
  let s := s.save { info with recipient := newRecipient }
  let s := { s with store := { s.store with autoForwardAddress := none } }
  let s ← publish s (.recipientTransferred info.recipient newRecipient)
  return ((), s)

def transferRecipient (env : Env) (newRecipient : Address) (s : State) : Result (Unit × State) :=
  withGuard s (transferRecipientBody env newRecipient)

def setAutoForwardAddressBody (env : Env) (address : Address) (s : State) :
    Result (Unit × State) := do
  let info ← load s
  assertNotCancelled info
  requireAuth env info.recipient
  reject (isZeroAddress address = true) (err .invalidRecipient)
  let forward := if address = info.recipient then none else some address
  return ((), { s with store := { s.store with autoForwardAddress := forward } })

def setAutoForwardAddress (env : Env) (address : Address) (s : State) : Result (Unit × State) :=
  withGuard s (setAutoForwardAddressBody env address)

/-- The caller check of `_set_split_recipient` and `_remove_split_recipient`: the sender, the
operator or the recipient. -/
def requireParty (env : Env) (s : State) (info : StreamInfo) (caller : Address) : Result Unit := do
  reject (caller ≠ info.sender ∧ s.store.operator ≠ some caller ∧ caller ≠ info.recipient)
    (err .notAuthorized)
  requireAuth env caller

def setSplitRecipientBody (env : Env) (caller secondaryRecipient : Address) (splitBps : U32)
    (s : State) : Result (Unit × State) := do
  let info ← load s
  assertNotCancelled info
  requireParty env s info caller
  reject (splitBps.val = 0 ∨ 10000 ≤ splitBps.val) (err .invalidAmount)
  reject (isZeroAddress secondaryRecipient = true ∨ secondaryRecipient = info.sender
    ∨ secondaryRecipient = info.recipient) (err .invalidRecipient)
  let s := { s with store := { s.store with
    splitConfig := some ⟨secondaryRecipient, splitBps⟩ } }
  let s ← publish s (.splitRecipientSet caller secondaryRecipient splitBps)
  return ((), s)

def setSplitRecipient (env : Env) (caller secondaryRecipient : Address) (splitBps : U32)
    (s : State) : Result (Unit × State) :=
  withGuard s (setSplitRecipientBody env caller secondaryRecipient splitBps)

def removeSplitRecipientBody (env : Env) (caller : Address) (s : State) :
    Result (Unit × State) := do
  let info ← load s
  assertNotCancelled info
  requireParty env s info caller
  let s := { s with store := { s.store with splitConfig := none } }
  let s ← publish s (.splitRecipientRemoved caller)
  return ((), s)

def removeSplitRecipient (env : Env) (caller : Address) (s : State) : Result (Unit × State) :=
  withGuard s (removeSplitRecipientBody env caller)

/-! ### The operator and the settings -/

/-- The opening checks of the entry points only the sender may call. -/
def requireSender (env : Env) (s : State) (caller : Address) : Result StreamInfo := do
  let info ← load s
  assertNotCancelled info
  reject (caller ≠ info.sender) (err .notAuthorized)
  requireAuth env caller
  return info

/-- `set_operator`: setting the present operator again does nothing; replacing one publishes its
revocation first. -/
def setOperator (env : Env) (caller operator : Address) (s : State) : Result (Unit × State) := do
  let _ ← requireSender env s caller
  if s.store.operator = some operator then return ((), s)
  else do
    let s ← if s.store.operator.isSome then publish s (.operatorRevoked caller) else .ok s
    let s := { s with store := { s.store with operator := some operator } }
    let s ← publish s (.operatorSet caller operator)
    return ((), s)

def revokeOperator (env : Env) (caller : Address) (s : State) : Result (Unit × State) := do
  let _ ← requireSender env s caller
  let s := { s with store := { s.store with operator := none } }
  let s ← publish s (.operatorRevoked caller)
  return ((), s)

/-- The body of the four text setters: a write of the sender's to one key. -/
def setText (env : Env) (caller : Address) (write : Storage → Storage) (s : State) :
    Result (Unit × State) := do
  let _ ← requireSender env s caller
  return ((), { s with store := write s.store })

def setStreamTitle (env : Env) (caller : Address) (title : Bytes) (s : State) :
    Result (Unit × State) :=
  setText env caller (fun st => { st with streamTitle := some title }) s

def setReferenceTag (env : Env) (caller : Address) (tag : Bytes) (s : State) :
    Result (Unit × State) :=
  setText env caller (fun st => { st with referenceTag := some tag }) s

def setInvoiceMetadataUri (env : Env) (caller : Address) (uri : Bytes) (s : State) :
    Result (Unit × State) :=
  setText env caller (fun st => { st with invoiceMetadataUri := some uri }) s

def setMilestoneMetadataUri (env : Env) (caller : Address) (uri : Bytes) (s : State) :
    Result (Unit × State) :=
  setText env caller (fun st => { st with milestoneMetadataUri := some uri }) s

def setMinWithdrawalIntervalBody (env : Env) (caller : Address) (intervalSeconds : U64)
    (s : State) : Result (Unit × State) := do
  let info ← load s
  assertNotCancelled info
  requireSenderOrOperator env s caller info.sender
  let s := { s with store := { s.store with minWithdrawalInterval := some intervalSeconds } }
  let s ← publish s (.minWithdrawalIntervalSet caller intervalSeconds)
  return ((), s)

def setMinWithdrawalInterval (env : Env) (caller : Address) (intervalSeconds : U64) (s : State) :
    Result (Unit × State) :=
  withGuard s (setMinWithdrawalIntervalBody env caller intervalSeconds)

def setStreamConfigBody (env : Env) (caller : Address) (config : StreamConfig) (s : State) :
    Result (Unit × State) := do
  let info ← load s
  assertNotCancelled info
  requireSenderOrOperator env s caller info.sender
  return ((), { s with store := { s.store with streamConfig := some config } })

/-- `set_stream_config`, and `set_cancelable` at `⟨isCancelable⟩`. -/
def setStreamConfig (env : Env) (caller : Address) (config : StreamConfig) (s : State) :
    Result (Unit × State) :=
  withGuard s (setStreamConfigBody env caller config)

/-! ### The emergency freeze -/

/-- `is_emergency_paused`: a read that may rewrite the stored flag. -/
def isEmergencyPaused (env : Env) (s : State) : Bool × State :=
  let (paused, stored) := Pause.isPaused env.timestamp s.store.emergencyPaused
  (paused, { s with store := { s.store with emergencyPaused := stored } })

/-- `let _ = set_paused(..)`: a refusal by the shared helper is ignored, a trap is not. -/
def setEmergencyPaused (env : Env) (paused : Bool) (s : State) : Result State :=
  match Pause.setPaused env.timestamp s.store.emergencyPaused paused with
  | .ok stored => .ok { s with store := { s.store with emergencyPaused := stored } }
  | .error (.contract _) => .ok s
  | .error .trap => .error .trap

def emergencyPause (env : Env) (caller : Address) (s : State) : Result (Unit × State) := do
  requireAuth env caller
  let (paused, s) := isEmergencyPaused env s
  reject (paused = true) (err .alreadyPaused)
  let s ← setEmergencyPaused env true s
  let s ← publish s (.emergencyPaused caller env.timestamp)
  return ((), s)

def emergencyUnpause (env : Env) (caller : Address) (s : State) : Result (Unit × State) := do
  requireAuth env caller
  let (paused, s) := isEmergencyPaused env s
  reject (paused = false) (err .notPaused)
  let s ← setEmergencyPaused env false s
  let s ← publish s (.emergencyUnpaused caller env.timestamp)
  return ((), s)

end Drip.Stream
