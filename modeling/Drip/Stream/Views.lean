import Drip.Stream.Payments

/-!
# Stream — Views

The read-only entry points of `contracts/stream/src/lib.rs` that repeat a computation of the others:
`validate_withdraw` runs the checks of `withdraw`, and `get_summary` sums the schedule up.
-/

namespace Drip.Stream
open Chain

/-- The split arithmetic at the end of `validate_withdraw`. -/
def checkSplit (s : State) (toSend : I128) : Result Unit :=
  match s.store.splitConfig with
  | some split => do
      let secondary ← mulDiv toSend split.splitBps.widen (.lit 10000)
      let _ ← okOr (toSend.checkedSub secondary) (err .arithmeticOverflow)
      return ()
  | none => .ok ()

def validateWithdraw (env : Env) (amount : I128) (s : State) : Result Unit := do
  reject (amount.val ≤ 0) (err .invalidAmount)
  let info ← load s
  assertNotCancelled info
  checkWithdrawalInterval env s
  let available ← withdrawable env s info
  reject (available.val = 0) (err .nothingToWithdraw)
  let balance := s.balance info.token env.contract
  let toSend := min (min amount available) balance
  reject (toSend.val = 0) (err .streamUnderfunded)
  let _newWithdrawn ← okOr (info.withdrawn.checkedAdd toSend) (err .arithmeticOverflow)
  checkSplit s toSend

/-! ### The summary -/

inductive StreamStatus where
  | pending | active | paused | cancelled | completed
deriving DecidableEq

structure StreamSummary where
  sender : Address
  recipient : Address
  token : Address
  totalAmount : I128
  streamedAmount : I128
  status : StreamStatus
  startTime : U64
  stopTime : U64
deriving DecidableEq

/-- The status of `get_summary`. -/
def statusAt (now : U64) (info : StreamInfo) : StreamStatus :=
  if info.isCancelled then .cancelled
  else if info.isPaused then .paused
  else if now < info.startTime then .pending
  else if 0 < info.endTime.val ∧ info.endTime ≤ now then .completed
  else .active

/-- `streamed_total`. -/
def streamedTotal (env : Env) (s : State) : Result I128 := do
  let info ← load s
  if info.isCancelled then return .lit 0 else streamedAmount env s info

/-- `.unwrap_or(0)`; a trap is no error to unwrap. -/
def unwrapOrZero (r : Result I128) : Result I128 :=
  match r with
  | .ok v => .ok v
  | .error (.contract _) => .ok (.lit 0)
  | .error .trap => .error .trap

/-- `total_amount`, in plain arithmetic: overflow traps. -/
def totalAmount (env : Env) (s : State) (info : StreamInfo) : Result I128 :=
  if info.startTime < info.endTime then do
    let duration ← okOr (info.endTime.checkedSub info.startTime) .trap
    let duration : I128 := duration.widen
    okOr (duration.checkedMul info.ratePerSecond) .trap
  else okOr ((s.balance info.token env.contract).checkedAdd info.withdrawn) .trap

def getSummary (env : Env) (s : State) : Result StreamSummary := do
  let info ← load s
  let streamed ← unwrapOrZero (streamedTotal env s)
  let total ← totalAmount env s info
  return { sender := info.sender, recipient := info.recipient, token := info.token
           totalAmount := total, streamedAmount := streamed, status := statusAt env.timestamp info
           startTime := info.startTime, stopTime := info.endTime }

end Drip.Stream
