import Drip.Stream.Math

/-!
# Stream — Payments

The entry points of `contracts/stream/src/lib.rs` that move the stream token: `initialize`,
`withdraw`, `cancel`, `force_cancel`, `clawback`, `top_up`, `extend_duration` and
`top_up_and_extend`.
-/

namespace Drip.Stream
open Chain

/-- `MIN_STREAM_DURATION`. -/
def minStreamDuration : Int := 60

/-- `MAX_STREAM_DURATION`. -/
def maxStreamDuration : Int := 3155760000

/-- `MAX_DESCRIPTION_LEN`. -/
def maxDescriptionLen : Nat := 128

/-! ### Shared checks and reads -/

/-- `require_sender_or_operator`. -/
def requireSenderOrOperator (env : Env) (s : State) (caller sender : Address) : Result Unit := do
  reject (caller ≠ sender ∧ s.store.operator ≠ some caller) (err .notAuthorized)
  requireAuth env caller

/-- `auto_forward_address`: where the recipient's payouts go. -/
def payoutAddress (s : State) (recipient : Address) : Address :=
  s.store.autoForwardAddress.getD recipient

/-- `cumulative_deposited`. -/
def cumulativeDeposited (env : Env) (s : State) (info : StreamInfo) : Result I128 :=
  match s.store.cumulativeDeposited with
  | some total => .ok total
  | none =>
      okOr ((s.balance info.token env.contract).checkedAdd info.withdrawn) (err .arithmeticOverflow)

/-- `add_cumulative_deposit`. -/
def addCumulativeDeposit (env : Env) (s : State) (info : StreamInfo) (amount : I128) :
    Result State := do
  let total ← cumulativeDeposited env s info
  let total ← okOr (total.checkedAdd amount) (err .arithmeticOverflow)
  return { s with store := { s.store with cumulativeDeposited := some total } }

/-! ### Creation -/

structure InitArgs where
  sender : Address
  recipient : Address
  token : Address
  ratePerSecond : I128
  startTime : U64
  endTime : U64
  clawbackEnabled : Bool
  forceCancelPauseSecs : U64
  isRegulatedAsset : Bool
  description : Option Bytes
deriving DecidableEq

/-- The overflow guard of `initialize`: the total obligation, of a bounded stream. -/
def totalObligation (args : InitArgs) : Result (Option I128) :=
  if 0 < args.endTime.val then do
    let duration ← okOr (args.endTime.checkedSub args.startTime) .trap
    let total ← okOr (args.ratePerSecond.checkedMul duration.widen) (err .arithmeticOverflow)
    return some total
  else return none

/-- `initialize`.  `balanceOf` is what the contracts behind the token addresses answer to `balance`:
nothing, where there is no token. -/
def initializeReading (balanceOf : Address → Address → Option I128) (env : Env) (args : InitArgs)
    (s : State) : Result (Unit × State) := do
  reject (s.store.config.isSome = true) (err .alreadyInitialized)
  reject (args.ratePerSecond.val ≤ 0) (err .invalidAmount)
  reject (args.forceCancelPauseSecs.val = 0) (err .invalidAmount)
  reject (isZeroAddress args.recipient = true ∨ args.recipient = args.sender)
    (err .invalidRecipient)
  reject (0 < args.endTime.val ∧ args.endTime ≤ args.startTime) (err .invalidTimeRange)
  reject (0 < args.endTime.val ∧ args.endTime.val - args.startTime.val < minStreamDuration)
    (err .streamDurationTooShort)
  reject (0 < args.endTime.val ∧ maxStreamDuration < args.endTime.val - args.startTime.val)
    (err .invalidTimeRange)
  reject (∃ d ∈ args.description, maxDescriptionLen < d.length) (err .descriptionTooLong)
  let total ← totalObligation args
  reject (args.startTime < env.timestamp) (err .backdatedStream)
  -- what an open-ended stream holds already; the read traps where there is no answer
  let deposit ← okOr (total <|> balanceOf args.token env.contract) .trap
  let flags := (if args.clawbackEnabled then flagClawbackEnabled else 0)
    ||| (if args.isRegulatedAsset then flagRegulatedAsset else 0)
  let s := { s with store := { s.store with
    streamDescription := args.description <|> s.store.streamDescription
    storageVersion := some currentStorageVersion
    forceCancelPauseThresholdSecs := some args.forceCancelPauseSecs
    immutableConfig := some
      { startTime := args.startTime, stopTime := args.endTime, token := args.token
        ratePerSecond := args.ratePerSecond, sender := args.sender, recipient := args.recipient }
    cumulativeDeposited := some deposit } }
  let s := s.save
    { sender := args.sender, recipient := args.recipient, token := args.token
      ratePerSecond := args.ratePerSecond, startTime := args.startTime, endTime := args.endTime
      withdrawn := .lit 0, pausedAt := .lit 0, flags := flags
      eventSequence := .lit 0, cumulativeFees := .lit 0 }
  let s ← publish s (.created args.sender args.recipient args.token args.ratePerSecond
    args.startTime args.endTime currentStorageVersion)
  return ((), s)

/-- `initialize` among conforming tokens, which answer with the balance. -/
def initializeStream (env : Env) (args : InitArgs) (s : State) : Result (Unit × State) :=
  initializeReading (fun token holder => some (s.balance token holder)) env args s

/-! ### Payouts -/

/-- A transfer of the stream token out of the contract. -/
def pay (env : Env) (s : State) (info : StreamInfo) (dst : Address) (amount : I128)
    (purpose : Purpose) : Result State :=
  transfer s ⟨info.token, env.contract, dst, amount, purpose⟩

/-- As `pay`, for the call sites under `if amount > 0`. -/
def payPositive (env : Env) (s : State) (info : StreamInfo) (dst : Address) (amount : I128)
    (purpose : Purpose) : Result State :=
  if 0 < amount.val then pay env s info dst amount purpose else .ok s

/-- The payout block of `_withdraw`, `_cancel` and `_force_cancel`: the recipient's share, less the
split share rounded down, then the split share. -/
def payRecipient (env : Env) (s : State) (info : StreamInfo) (amount : I128) : Result State :=
  match s.store.splitConfig with
  | some split => do
      let secondary ← mulDiv amount split.splitBps.widen (.lit 10000)
      let primary ← okOr (amount.checkedSub secondary) (err .arithmeticOverflow)
      let s₁ ← payPositive env s info (payoutAddress s info.recipient) primary .payout
      payPositive env s₁ info split.secondaryRecipient secondary .payout
  | none => pay env s info (payoutAddress s info.recipient) amount .payout

/-- The minimum-interval check of `_withdraw` and `validate_withdraw`. -/
def checkWithdrawalInterval (env : Env) (s : State) : Result Unit :=
  let minInterval := s.store.minWithdrawalInterval.getD (.lit 0)
  let lastWithdrawal := s.store.lastWithdrawalTime.getD (.lit 0)
  reject (0 < minInterval.val ∧ 0 < lastWithdrawal.val
    ∧ env.timestamp < lastWithdrawal.saturatingAdd minInterval) (err .withdrawalTooFrequent)

/-- The one-shot `cliff_reached` event of `_withdraw`. -/
def markCliffReached (env : Env) (s : State) (info : StreamInfo) : Result State :=
  match s.store.cliffConfig with
  | some cliff =>
      if cliff.cliffTime ≤ env.timestamp ∧ s.store.cliffReached = none then
        publish { s with store := { s.store with cliffReached := some true } }
          (.cliffReached info.recipient env.timestamp cliff.cliffUnlockAmount)
      else .ok s
  | none => .ok s

/-- The one-shot `stream_completed` event of `_withdraw`. -/
def markCompleted (s : State) (info : StreamInfo) (balance remaining newWithdrawn : I128) :
    Result State :=
  if remaining.val = 0 ∧ (0 < info.endTime.val ∨ 0 < balance.val) ∧ s.store.streamCompleted = none
  then
    publish { s with store := { s.store with streamCompleted := some true } }
      (.streamCompleted info.recipient newWithdrawn)
  else .ok s

def withdrawBody (env : Env) (amount : I128) (s : State) : Result (I128 × State) := do
  reject (amount.val ≤ 0) (err .invalidAmount)
  let info ← load s
  assertNotCancelled info
  requireAuth env info.recipient
  checkWithdrawalInterval env s
  let available ← withdrawable env s info
  reject (available.val = 0) (err .nothingToWithdraw)
  let balance := s.balance info.token env.contract
  let toSend := min (min amount available) balance
  reject (toSend.val = 0) (err .streamUnderfunded)
  let newWithdrawn ← okOr (info.withdrawn.checkedAdd toSend) (err .arithmeticOverflow)
  let s := s.save { info with withdrawn := newWithdrawn }
  let s ← payRecipient env s info toSend
  let s := { s with store := { s.store with lastWithdrawalTime := some env.timestamp } }
  let remaining ← okOr (balance.checkedSub toSend) (err .arithmeticOverflow)
  let s ← publish s (.withdrawn info.recipient toSend newWithdrawn remaining)
  let s ← markCliffReached env s info
  let s ← markCompleted s info balance remaining newWithdrawn
  return (toSend, s)

def withdraw (env : Env) (amount : I128) (s : State) : Result (I128 × State) :=
  withGuard s (withdrawBody env amount)

/-! ### Settlement -/

/-- The recipient's part of a settlement, under `if owed_to_recipient > 0`. -/
def payOwed (env : Env) (s : State) (info : StreamInfo) (owedToRecipient : I128) : Result State :=
  if 0 < owedToRecipient.val then payRecipient env s info owedToRecipient else .ok s

/-- The settlement block of `_cancel` and `_force_cancel`, with the event the caller publishes:
the recipient's earned part up to the balance, the rest to the sender. -/
def settle (env : Env) (info : StreamInfo) (event : Address → I128 → I128 → I128 → Event)
    (s : State) : Result (Unit × State) := do
  let balance := s.balance info.token env.contract
  let streamed ← streamedAmount env s info
  let owed ← okOr (streamed.checkedSub info.withdrawn) .trap
  let owedToRecipient := min (max owed (.lit 0)) balance
  let rest ← okOr (balance.checkedSub owedToRecipient) .trap
  let refundToSender := max rest (.lit 0)
  let totalWithdrawn ← okOr (info.withdrawn.checkedAdd owedToRecipient) (err .arithmeticOverflow)
  let s := s.save { info.markCancelled with withdrawn := totalWithdrawn }
  let s ← payOwed env s info owedToRecipient
  let s ← payPositive env s info info.sender refundToSender .refund
  let s ← publish s (event info.sender refundToSender totalWithdrawn refundToSender)
  return ((), s)

def cancelBody (env : Env) (caller : Address) (s : State) : Result (Unit × State) := do
  let info ← load s
  assertNotCancelled info
  reject (∃ cfg ∈ s.store.streamConfig, cfg.isCancelable = false) (err .streamNotCancelable)
  requireSenderOrOperator env s caller info.sender
  settle env info .cancelled s

def cancel (env : Env) (caller : Address) (s : State) : Result (Unit × State) :=
  withGuard s (cancelBody env caller)

/-- `DEFAULT_PAUSE_THRESHOLD_SECS`: thirty days. -/
def defaultPauseThresholdSecs : U64 := .lit 2592000

def forceCancelBody (env : Env) (s : State) : Result (Unit × State) := do
  let pauseThresholdSecs := s.store.forceCancelPauseThresholdSecs.getD defaultPauseThresholdSecs
  let info ← load s
  assertNotCancelled info
  reject (info.isPaused = false) (err .notPaused)
  let pausedSecs := env.timestamp.saturatingSub info.pausedAt
  reject (pausedSecs < pauseThresholdSecs) (err .pauseThresholdNotMet)
  requireAuth env info.recipient
  settle env info .forceCancelled s

def forceCancel (env : Env) (s : State) : Result (Unit × State) :=
  withGuard s (forceCancelBody env)

def clawbackBody (env : Env) (caller : Address) (s : State) : Result (I128 × State) := do
  let info ← load s
  assertNotCancelled info
  reject (info.isPaused = true) (err .notPaused)
  reject (info.isClawbackEnabled = false) (err .clawbackDisabled)
  requireSenderOrOperator env s caller info.sender
  let streamed ← streamedAmount env s info
  let unpaid ← okOr (streamed.checkedSub info.withdrawn) .trap
  let owed := max unpaid (.lit 0)
  let balance := s.balance info.token env.contract
  let rest ← okOr (balance.checkedSub owed) .trap
  let amount := max rest (.lit 0)
  let s ← payPositive env s info info.sender amount .clawback
  let s ← publish s (.clawback caller amount)
  return (amount, s)

def clawback (env : Env) (caller : Address) (s : State) : Result (I128 × State) :=
  withGuard s (clawbackBody env caller)

/-! ### Funding -/

/-- The deposit block of the three funding entry points. -/
def deposit (env : Env) (s : State) (info : StreamInfo) (caller : Address) (amount : I128) :
    Result State := do
  let s ← addCumulativeDeposit env s info amount
  transfer s ⟨info.token, caller, env.contract, amount, .deposit⟩

def topUpBody (env : Env) (caller : Address) (amount : I128) (s : State) :
    Result (Unit × State) := do
  reject (amount.val ≤ 0) (err .invalidAmount)
  let info ← load s
  requireAuth env caller
  assertNotCancelled info
  reject (0 < info.endTime.val ∧ info.endTime ≤ env.timestamp) (err .streamEnded)
  let s ← deposit env s info caller amount
  let s ← publish s (.toppedUp caller amount (s.balance info.token env.contract))
  return ((), s)

def topUp (env : Env) (caller : Address) (amount : I128) (s : State) : Result (Unit × State) :=
  withGuard s (topUpBody env caller amount)

def extendDurationBody (env : Env) (caller : Address) (extraTimeSeconds : U64) (s : State) :
    Result (Unit × State) := do
  reject (extraTimeSeconds.val = 0) (err .invalidTimeRange)
  let info ← load s
  assertNotCancelled info
  requireSenderOrOperator env s caller info.sender
  reject (info.endTime.val = 0) (err .invalidTimeRange)
  let extra : I128 := extraTimeSeconds.widen
  let requiredDeposit ← okOr (extra.checkedMul info.ratePerSecond) (err .arithmeticOverflow)
  let s ← deposit env s info caller requiredDeposit
  let endTime ← okOr (info.endTime.checkedAdd extraTimeSeconds) (err .arithmeticOverflow)
  let s := s.save { info with endTime := endTime }
  let s ← publish s (.toppedUp caller requiredDeposit (s.balance info.token env.contract))
  return ((), s)

def extendDuration (env : Env) (caller : Address) (extraTimeSeconds : U64) (s : State) :
    Result (Unit × State) :=
  withGuard s (extendDurationBody env caller extraTimeSeconds)

def topUpAndExtendBody (env : Env) (caller : Address) (amount : I128) (extraTimeSeconds : U64)
    (s : State) : Result (Unit × State) := do
  reject (amount.val ≤ 0) (err .invalidAmount)
  reject (extraTimeSeconds.val = 0) (err .invalidTimeRange)
  let info ← load s
  requireSenderOrOperator env s caller info.sender
  assertNotCancelled info
  reject (info.endTime.val = 0) (err .invalidTimeRange)
  let oldBalance := s.balance info.token env.contract
  let s ← deposit env s info caller amount
  let newEndTime ← okOr (info.endTime.checkedAdd extraTimeSeconds) (err .arithmeticOverflow)
  let s := s.save { info with endTime := newEndTime }
  let newBalance := s.balance info.token env.contract
  let s ← publish s (.toppedUpAndExtended caller oldBalance newBalance info.endTime newEndTime)
  return ((), s)

def topUpAndExtend (env : Env) (caller : Address) (amount : I128) (extraTimeSeconds : U64)
    (s : State) : Result (Unit × State) :=
  withGuard s (topUpAndExtendBody env caller amount extraTimeSeconds)

end Drip.Stream
