import Mathlib.Order.Lattice
import Mathlib.Algebra.Order.Group.Int

/-!
# Support — Leases

Entries that a host keeps for a limited time.  Who uses an entry renews it: when little enough of its time
is left, its end is moved on.

* `le_renew`, `covers_renew`: a renewal takes no time away, and leaves at least the threshold.
* `renewAll_cons`: of several renewals with one threshold at one time, only the first does anything.
* `lives_of_renew`: how long an entry lives from a renewal that was due.
-/

namespace Lease

/-- What a host does: the longest time it keeps an entry for, and whether an entry with exactly the
threshold left is renewed. -/
structure Host where
  cap : Int
  inclusive : Bool

variable {host : Host} {threshold target now stop : Int} {targets : List Int}

/-- Little enough time is left. -/
def Host.Due (host : Host) (threshold left : Int) : Prop :=
  left < threshold ∨ host.inclusive = true ∧ left = threshold

instance (host : Host) (threshold left : Int) : Decidable (host.Due threshold left) :=
  inferInstanceAs (Decidable (_ ∨ _ ∧ _))

/-- The end after a renewal at `now`. -/
def Host.renew (host : Host) (threshold now : Int) (stop target : Int) : Int :=
  if host.Due threshold (stop - now) then max stop (now + min target host.cap) else stop

/-- The end after several of them, one after the other. -/
def Host.renewAll (host : Host) (threshold now : Int) (stop : Int) (targets : List Int) : Int :=
  targets.foldl (host.renew threshold now) stop

theorem le_renew : stop ≤ host.renew threshold now stop target := by
  unfold Host.renew
  split
  · exact le_max_left _ _
  · exact le_refl _

theorem le_renewAll : stop ≤ host.renewAll threshold now stop targets := by
  induction targets generalizing stop with
  | nil => exact le_refl _
  | cons target rest ih => exact le_renew.trans ih

theorem renew_le : host.renew threshold now stop target ≤ max stop (now + target) := by
  unfold Host.renew
  split
  · have hmin : min target host.cap ≤ target := min_le_left _ _
    omega
  · exact le_max_left _ _

/-- From a renewal that was due, the entry lives for the target, or as long as the host keeps it. -/
theorem lives_of_renew (h : host.Due threshold (stop - now)) :
    now + min target host.cap ≤ host.renew threshold now stop target := by
  unfold Host.renew
  rw [if_pos h]
  exact le_max_right _ _

/-- Due or not, the threshold is left. -/
theorem covers_renew (htarget : threshold ≤ target) (hcap : threshold ≤ host.cap) :
    now + threshold ≤ host.renew threshold now stop target := by
  by_cases h : host.Due threshold (stop - now)
  · have hmin : threshold ≤ min target host.cap := le_min htarget hcap
    have hlives : now + min target host.cap ≤ host.renew threshold now stop target := lives_of_renew h
    omega
  · unfold Host.renew
    rw [if_neg h]
    have hlong : ¬ stop - now < threshold := fun hlt => h (.inl hlt)
    omega

/-- A second renewal finds nothing due. -/
theorem not_due_renew (htarget : threshold < target) (hcap : threshold < host.cap) :
    ¬ host.Due threshold (host.renew threshold now stop target - now) := by
  by_cases h : host.Due threshold (stop - now)
  · have hmin : threshold < min target host.cap := lt_min htarget hcap
    have hlives : now + min target host.cap ≤ host.renew threshold now stop target := lives_of_renew h
    rintro (hlt | ⟨-, heq⟩)
    · omega
    · omega
  · unfold Host.renew
    rwa [if_neg h]

theorem renewAll_eq_self (h : ¬ host.Due threshold (stop - now)) :
    host.renewAll threshold now stop targets = stop := by
  induction targets with
  | nil => rfl
  | cons target rest ih =>
      have hfirst : host.renew threshold now stop target = stop := if_neg h
      show host.renewAll threshold now (host.renew threshold now stop target) rest = stop
      rw [hfirst]
      exact ih

/-- Only the first of several renewals does anything. -/
theorem renewAll_cons (htarget : threshold < target) (hcap : threshold < host.cap) :
    host.renewAll threshold now stop (target :: targets) = host.renew threshold now stop target :=
  renewAll_eq_self (not_due_renew htarget hcap)

end Lease
