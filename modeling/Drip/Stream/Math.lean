import Drip.Stream.State

/-!
# Stream — Math

`contracts/stream/src/math.rs`: the accrual formula.
-/

namespace Drip.Stream
open Chain

/-- `mul_div`: `value * multiplier / divisor` through a `U256` intermediate, whose multiplication
traps past `2^256`. -/
def mulDiv (value : I128) (multiplier divisor : U128) : Result I128 := do
  reject (value.val < 0 ∨ divisor.val = 0) (err .arithmeticOverflow)
  let product : U256 ← okOr (Ranged.ofInt? (value.val * multiplier.val)) .trap
  let quotient : U128 ← okOr (Ranged.ofInt? (product.val / divisor.val)) (err .arithmeticOverflow)
  okOr (Ranged.ofInt? quotient.val) (err .arithmeticOverflow)

/-- The "effective now" of `streamed_amount`: the pause is applied before the `end_time` clamp. -/
def effectiveNow (now : U64) (info : StreamInfo) : U64 :=
  if info.isPaused then
    if 0 < info.endTime.val ∧ info.endTime < info.pausedAt then info.endTime else info.pausedAt
  else if 0 < info.endTime.val ∧ info.endTime < now then info.endTime
  else now

/-- The tail shared by the checkpoint and the cliff branch: nothing before `since`, then `base` and
the linear accrual from `since` on. -/
def accrueSince (rate : I128) (now since : U64) (base : I128) : Result I128 :=
  if now < since then .ok (.lit 0)
  else do
    let elapsed ← okOr (now.checkedSub since) (err .arithmeticOverflow)
    let linear ← mulDiv rate elapsed.widen (.lit 1)
    okOr (base.checkedAdd linear) (err .arithmeticOverflow)

/-- `streamed_amount`. -/
def streamedAmount (env : Env) (s : State) (info : StreamInfo) : Result I128 :=
  let now := env.timestamp
  if now < info.startTime then .ok (.lit 0)
  else
    let effective := effectiveNow now info
    match s.store.rateCheckpoint with
    | some checkpoint =>
        accrueSince info.ratePerSecond effective checkpoint.at checkpoint.accrued
    | none =>
        match s.store.cliffConfig with
        | some cfg => accrueSince info.ratePerSecond effective cfg.cliffTime cfg.cliffUnlockAmount
        | none => do
            let elapsed ← okOr (effective.checkedSub info.startTime) (err .arithmeticOverflow)
            mulDiv info.ratePerSecond elapsed.widen (.lit 1)

/-- `calculate_streamed_amount`: the elapsed time is cast to `i128`. -/
def calculateStreamedAmount (ratePerSecond : I128) (elapsed : U64) : Result I128 :=
  if ratePerSecond.val = 0 ∨ elapsed.val = 0 then .ok (.lit 0)
  else okOr (ratePerSecond.checkedMul elapsed.widen) (err .arithmeticOverflow)

/-- `withdrawable`. -/
def withdrawable (env : Env) (s : State) (info : StreamInfo) : Result I128 := do
  let streamed ← streamedAmount env s info
  return max (streamed.saturatingSub info.withdrawn) (.lit 0)

end Drip.Stream
