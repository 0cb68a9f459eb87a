import Drip.Stream.Schedule
import Drip.Stream.State

/-!
# Stream — Escrow

The escrow of a stream as a machine of its own: the accrual schedule, what the contract holds, and
the running totals of what it paid, returned and received, by purpose.  Over unbounded integers,
without accounts, splits or storage.

* `Escrow.apply now op` is the escrow after the operation `op` at `now`; `Escrow.Allows` are the
  checks it passed.
* A payout or a settlement has a `kept` part: what was sent to the contract's own address and so
  did not leave it.  `kept = 0` whenever no payee is the contract.

`Effects.lean` shows that each entry point of the contract performs one of these operations.
-/

namespace Drip.Stream

@[ext]
structure Escrow where
  schedule : Schedule
  cancelled : Bool
  withdrawn : Int
  balance : Int
  /-- what was transferred so far, by purpose -/
  totals : Purpose → Int

/-- The totals with `x` more for the purpose `p`. -/
def book (totals : Purpose → Int) (p : Purpose) (x : Int) : Purpose → Int :=
  fun q => totals q + if p = q then x else 0

/-- An operation on the escrow. -/
inductive Op where
  | withdraw (amount kept : Int)
  | settle (kept : Int)
  | clawback
  | adjust (deposit : Int) (m : Move)

/-- The move of the schedule an operation makes. -/
def Op.move : Op → Move
  | .adjust _ m => m
  | .withdraw .. | .settle _ | .clawback => .idle

namespace Escrow

variable {e : Escrow} {max now : Int}

/-- What the recipient has earned and not been paid. -/
def owed (e : Escrow) (now : Int) : Int := Max.max (e.schedule.value now - e.withdrawn) 0

/-- What a withdrawal of `amount` pays. -/
def payout (e : Escrow) (now amount : Int) : Int := min (min amount (e.owed now)) e.balance

/-- What a settlement pays the recipient. -/
def share (e : Escrow) (now : Int) : Int := min (e.owed now) e.balance

/-- What an operation pays the recipient. -/
def pays (e : Escrow) (now : Int) : Op → Int
  | .withdraw amount _ => e.payout now amount
  | .settle _ => e.share now
  | .clawback | .adjust .. => 0

/-- What a clawback returns. -/
def surplus (e : Escrow) (now : Int) : Int := Max.max (e.balance - e.owed now) 0

def apply (e : Escrow) (now : Int) : Op → Escrow
  | .withdraw amount kept =>
      { e with
        withdrawn := e.withdrawn + e.payout now amount
        balance := e.balance - e.payout now amount + kept
        totals := book e.totals .payout (e.payout now amount) }
  | .settle kept =>
      { e with
        cancelled := true
        withdrawn := e.withdrawn + e.share now
        balance := kept
        totals := book (book e.totals .payout (e.share now)) .refund (e.balance - e.share now) }
  | .clawback =>
      { e with
        balance := e.balance - e.surplus now
        totals := book e.totals .clawback (e.surplus now) }
  | .adjust deposit m =>
      { e with
        schedule := e.schedule.move now m
        balance := e.balance + deposit
        totals := book e.totals .deposit deposit }

/-- The checks an operation passed. -/
def Allows (e : Escrow) (max now : Int) : Op → Prop
  | .withdraw amount kept =>
      e.schedule.value now ≤ max ∧ 0 < e.payout now amount ∧ 0 ≤ kept ∧ kept ≤ e.payout now amount
  | .settle kept => e.schedule.value now ≤ max ∧ 0 ≤ kept ∧ kept ≤ e.share now
  | .clawback => e.schedule.pausedAt = none ∧ e.schedule.value now ≤ max
  | .adjust deposit m => 0 ≤ deposit ∧ e.schedule.Allows max now m

/-! ### What every operation preserves -/

theorem schedule_apply (e : Escrow) (now : Int) (op : Op) :
    (e.apply now op).schedule = e.schedule.move now op.move := by
  cases op <;> rfl

theorem schedule_allows {op : Op} (ha : e.Allows max now op) :
    e.schedule.Allows max now op.move := by
  cases op with
  | adjust deposit m => exact ha.2
  | withdraw amount kept => trivial
  | settle kept => trivial
  | clawback => trivial

theorem valid_apply {op : Op} (hq : e.schedule.Valid now) (ha : e.Allows max now op) :
    (e.apply now op).schedule.Valid now := by
  rw [schedule_apply]
  exact Schedule.valid_move hq (schedule_allows ha)

theorem withdrawn_le_apply {op : Op} (hb : 0 ≤ e.balance) (ha : e.Allows max now op) :
    e.withdrawn ≤ (e.apply now op).withdrawn := by
  cases op with
  | withdraw amount kept =>
      have := ha.2.1
      show e.withdrawn ≤ e.withdrawn + e.payout now amount
      omega
  | settle kept =>
      have : 0 ≤ e.share now := le_min (le_max_right _ _) hb
      show e.withdrawn ≤ e.withdrawn + e.share now
      omega
  | clawback => exact le_refl _
  | adjust deposit m => exact le_refl _

/-! ### Earnings

`share now` is what the recipient could claim at `now`: the part of the earnings not yet paid, up to
the balance. -/

theorem withdrawn_le_value {op : Op} (hw : e.withdrawn ≤ e.schedule.value now)
    (hv : e.schedule.value now ≤ (e.apply now op).schedule.value now) :
    (e.apply now op).withdrawn ≤ (e.apply now op).schedule.value now := by
  refine le_trans ?_ hv
  have howed : e.owed now = e.schedule.value now - e.withdrawn := max_eq_left (by omega)
  cases op with
  | withdraw amount kept =>
      have : e.payout now amount ≤ e.owed now := (min_le_left _ _).trans (min_le_right _ _)
      show e.withdrawn + e.payout now amount ≤ _
      omega
  | settle kept =>
      have : e.share now ≤ e.owed now := min_le_left _ _
      show e.withdrawn + e.share now ≤ _
      omega
  | clawback => exact hw
  | adjust deposit m => exact hw

end Escrow

end Drip.Stream
