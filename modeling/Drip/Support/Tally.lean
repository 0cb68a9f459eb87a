import Mathlib.Algebra.BigOperators.Group.Finset.Basic
import Mathlib.Algebra.BigOperators.Intervals
import Mathlib.Algebra.BigOperators.Ring.Finset
import Mathlib.Tactic.Ring

/-!
# Support — Tally

The sum of a quantity over the integer instants of `[a, b)`, for quantities that are constant from
some instant on.

* `tally_split`: the sum up to an instant and from it on.
* `tally_linear`: past the instant from which the quantity is the constant `r`, the sum grows by `r`
  each instant.
-/

/-- The sum of `f` over the instants of `[a, b)`. -/
def tally (f : Int → Int) (a b : Int) : Int := ∑ i ∈ Finset.range (b - a).toNat, f (a + i)

variable {f g : Int → Int} {a b c r : Int}

theorem tally_empty (h : b ≤ a) : tally f a b = 0 := by
  unfold tally
  rw [Int.toNat_of_nonpos (by omega), Finset.range_zero, Finset.sum_empty]

theorem tally_split (hab : a ≤ b) (hbc : b ≤ c) : tally f a c = tally f a b + tally f b c := by
  unfold tally
  have hlen : (c - a).toNat = (b - a).toNat + (c - b).toNat := by omega
  rw [hlen, Finset.sum_range_add]
  congr 1
  refine Finset.sum_congr rfl fun i _ => ?_
  congr 1
  omega

theorem tally_congr (h : ∀ s, a ≤ s → s < b → f s = g s) : tally f a b = tally g a b := by
  refine Finset.sum_congr rfl fun i hi => ?_
  rw [Finset.mem_range] at hi
  exact h _ (by omega) (by omega)

theorem tally_const (hab : a ≤ b) (h : ∀ s, a ≤ s → s < b → f s = r) :
    tally f a b = r * (b - a) := by
  have hc : tally f a b = tally (fun _ => r) a b := tally_congr h
  rw [hc]
  unfold tally
  rw [Finset.sum_const, Finset.card_range, nsmul_eq_mul, Int.toNat_of_nonneg (by omega)]
  ring

/-- From `b` on the quantity is `r`. -/
theorem tally_linear (hab : a ≤ b) (hbc : b ≤ c) (h : ∀ s, b ≤ s → f s = r) :
    tally f a c = tally f a b + r * (c - b) := by
  rw [tally_split hab hbc, tally_const hbc fun s hs _ => h s hs]
