import Mathlib.Algebra.BigOperators.Group.Finset.Piecewise

/-!
# Support — Cover

`Covers b f`: the funds `b` are enough for the claims `f`, whichever of them are made.  When one claim
changes, the funds may change by as much (`Covers.update`).
-/

variable {ι : Type} {b b' v : Int} {f : ι → Int} {a : ι}

/-- Any finite number of the claims sums to at most `b`. -/
def Covers (b : Int) (f : ι → Int) : Prop := ∀ F : Finset ι, ∑ i ∈ F, f i ≤ b

namespace Covers

theorem zero (h : 0 ≤ b) : Covers b fun _ : ι => 0 := fun F => by
  rw [Finset.sum_const_zero]
  exact h

theorem mono (h : Covers b f) (hle : b ≤ b') : Covers b' f := fun F => (h F).trans hle

theorem update [DecidableEq ι] (h : Covers b f) (hv : 0 ≤ v) :
    Covers (b + v - f a) (Function.update f a v) := by
  intro F
  have hrest : ∑ i ∈ F \ {a}, f i + f a ≤ b := by
    have hall := h (insert a (F \ {a}))
    rw [Finset.sum_insert (by simp)] at hall
    omega
  by_cases ha : a ∈ F
  · rw [Finset.sum_update_of_mem ha]
    omega
  · have hsame : F \ {a} = F := Finset.sdiff_eq_self_of_disjoint (Finset.disjoint_singleton_right.mpr ha)
    rw [hsame] at hrest
    rw [Finset.sum_update_of_notMem ha]
    omega

end Covers
