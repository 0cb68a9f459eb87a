import Mathlib.Algebra.BigOperators.Group.List.Basic
import Mathlib.Algebra.Order.Group.Defs

/-!
# Support — Clamped

A queue of payers.  Each of them in turn pays what is due, up to what it has; a part of a payment may
go to those who come after.

* `sum_le`: no more is paid than is due.
* `sum_eq_iff`: all of it is paid where every payer has what is due when its turn comes, the payers
  before it having paid in full.
-/

namespace Clamped

variable {ι M : Type} [AddCommGroup M] [LinearOrder M]
variable {due : ι → M} {flow : ι → M → ι → M} {funds funds' : ι → M} {a : ι} {queue rest : List ι}
variable {paid : List M}

/-- What the payers of a queue pay, one after the other.  A payment of `x` by `a` adds `flow a x b` to
what `b` has. -/
inductive Pays (due : ι → M) (flow : ι → M → ι → M) : (ι → M) → List ι → List M → Prop
  | nil (funds : ι → M) : Pays due flow funds [] []
  | cons {funds funds' : ι → M} {a : ι} {rest : List ι} {paid : List M}
      (hfunds : ∀ b ∈ rest, funds' b = funds b + flow a (min (due a) (funds a)) b)
      (hrest : Pays due flow funds' rest paid) :
      Pays due flow funds (a :: rest) (min (due a) (funds a) :: paid)

/-- Every payer has what is due when its turn comes, if those before it have paid in full. -/
def Covered (due : ι → M) (flow : ι → M → ι → M) (funds : ι → M) (queue : List ι) : Prop :=
  ∀ pre a post, queue = pre ++ a :: post → due a ≤ funds a + (pre.map fun b => flow b (due b) a).sum

theorem covered_nil : Covered due flow funds [] :=
  fun _ _ _ h => absurd h (List.append_ne_nil_of_right_ne_nil _ (List.cons_ne_nil _ _)).symm

/-- The first pays in full, and the others go on with what it leaves them. -/
theorem covered_cons (hfunds : ∀ b ∈ rest, funds' b = funds b + flow a (due a) b) :
    Covered due flow funds (a :: rest) ↔ due a ≤ funds a ∧ Covered due flow funds' rest := by
  constructor
  · intro h
    refine ⟨by simpa using h [] a rest rfl, ?_⟩
    rintro pre b post rfl
    have hb := h (a :: pre) b post rfl
    rw [List.map_cons, List.sum_cons] at hb
    rw [hfunds b (by simp), add_assoc]
    exact hb
  · rintro ⟨hfirst, hrest⟩ pre b post heq
    rcases List.cons_eq_append_iff.mp heq with ⟨rfl, hcons⟩ | ⟨pre', rfl, rfl⟩
    · obtain ⟨rfl, -⟩ := List.cons.inj hcons
      simpa using hfirst
    · have hb := hrest pre' b post rfl
      rw [hfunds b (by simp), add_assoc] at hb
      rw [List.map_cons, List.sum_cons]
      exact hb

variable [IsOrderedAddMonoid M]

theorem sum_le (h : Pays due flow funds queue paid) : paid.sum ≤ (queue.map due).sum := by
  induction h with
  | nil => exact le_rfl
  | cons _ _ ih =>
      rw [List.map_cons, List.sum_cons, List.sum_cons]
      exact add_le_add (min_le_left _ _) ih

/-- **All is paid** exactly if every payer has what is due in its turn. -/
theorem sum_eq_iff (h : Pays due flow funds queue paid) :
    paid.sum = (queue.map due).sum ↔ Covered due flow funds queue := by
  induction h with
  | nil => exact iff_of_true rfl covered_nil
  | @cons funds funds' a rest paid hfunds hrest ih =>
      rw [List.map_cons, List.sum_cons, List.sum_cons,
        add_eq_add_iff_eq_and_eq (min_le_left _ _) (sum_le hrest), min_eq_left_iff, ih]
      constructor
      · rintro ⟨hfirst, hcovered⟩
        rw [min_eq_left hfirst] at hfunds
        exact (covered_cons hfunds).mpr ⟨hfirst, hcovered⟩
      · intro hcovered
        have hfirst : due a ≤ funds a := by simpa using hcovered [] a rest rfl
        rw [min_eq_left hfirst] at hfunds
        exact (covered_cons hfunds).mp hcovered

end Clamped
