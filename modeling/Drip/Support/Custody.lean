import Mathlib.Algebra.BigOperators.Group.Finset.Piecewise
import Mathlib.Algebra.Order.Ring.Int
import Mathlib.Data.Fintype.Basic

/-!
# Support — Custody

Holdings of any assets, and transfers between the holders.  `Moves p b b'` says that transfers make `b'`
of `b`, and that each of them comes from a holder that `p` names.

* `Moves.trans`, `Moves.mono`: transfers one after the other, and a larger set of names.
* `Moves.le`: nobody else has less afterwards.
* `Moves.supply`: each asset adds up to the same.
-/

namespace Custody

variable {K A : Type}

/-- What each holder has of each asset. -/
abbrev Holdings (K A : Type) := K → A → Int

structure Transfer (K A : Type) where
  asset : K
  src : A
  dst : A
  amount : Int

section

variable [DecidableEq K] [DecidableEq A] {b b₁ b' : Holdings K A} {ts us : List (Transfer K A)}
variable {t : Transfer K A} {p q : A → Prop} {k : K} {a src dst : A} {x : Int}

/-- What the transfers take from the holder. -/
def taken (k : K) (a : A) (ts : List (Transfer K A)) : Int :=
  (ts.map fun t => if k = t.asset ∧ a = t.src then t.amount else 0).sum

/-- What they bring to the holder. -/
def brought (k : K) (a : A) (ts : List (Transfer K A)) : Int :=
  (ts.map fun t => if k = t.asset ∧ a = t.dst then t.amount else 0).sum

@[simp] theorem taken_nil : taken k a [] = 0 := rfl
@[simp] theorem brought_nil : brought k a [] = 0 := rfl

@[simp]
theorem taken_cons : taken k a (t :: ts) =
    (if k = t.asset ∧ a = t.src then t.amount else 0) + taken k a ts := rfl

@[simp]
theorem brought_cons : brought k a (t :: ts) =
    (if k = t.asset ∧ a = t.dst then t.amount else 0) + brought k a ts := rfl

@[simp]
theorem taken_append : taken k a (ts ++ us) = taken k a ts + taken k a us := by
  simp [taken]

@[simp]
theorem brought_append : brought k a (ts ++ us) = brought k a ts + brought k a us := by
  simp [brought]

theorem taken_eq_zero (h : ∀ t ∈ ts, t.src ≠ a) : taken k a ts = 0 := by
  induction ts with
  | nil => rfl
  | cons t ts ih =>
      have hne : t.src ≠ a := h t List.mem_cons_self
      rw [taken_cons, if_neg fun heq => hne heq.2.symm, ih fun u hu => h u (List.mem_cons_of_mem t hu)]
      rfl

theorem brought_nonneg (h : ∀ t ∈ ts, 0 ≤ t.amount) : 0 ≤ brought k a ts := by
  induction ts with
  | nil => exact Int.le_refl 0
  | cons t ts ih =>
      have ht : 0 ≤ t.amount := h t List.mem_cons_self
      have hrest := ih fun u hu => h u (List.mem_cons_of_mem t hu)
      rw [brought_cons]
      split <;> omega

/-- The transfers make `b'` of `b`, and `p` names where each comes from. -/
structure Explains (p : A → Prop) (ts : List (Transfer K A)) (b b' : Holdings K A) : Prop where
  balance : ∀ k a, b' k a = b k a - taken k a ts + brought k a ts
  source : ∀ t ∈ ts, p t.src
  amount : ∀ t ∈ ts, 0 ≤ t.amount

def Moves (p : A → Prop) (b b' : Holdings K A) : Prop := ∃ ts, Explains p ts b b'

namespace Moves

theorem refl (p : A → Prop) (b : Holdings K A) : Moves p b b := by
  refine ⟨[], fun k a => by simp, fun t ht => ?_, fun t ht => ?_⟩
  · cases ht
  · cases ht

theorem trans (h : Moves p b b₁) (h' : Moves p b₁ b') : Moves p b b' := by
  obtain ⟨ts, hts⟩ := h
  obtain ⟨us, hus⟩ := h'
  refine ⟨ts ++ us, fun k a => ?_, fun t ht => ?_, fun t ht => ?_⟩
  · rw [hus.balance, hts.balance, taken_append, brought_append]
    omega
  · exact (List.mem_append.mp ht).elim (hts.source t) (hus.source t)
  · exact (List.mem_append.mp ht).elim (hts.amount t) (hus.amount t)

theorem mono (h : Moves p b b') (hle : ∀ a, p a → q a) : Moves q b b' := by
  obtain ⟨ts, hts⟩ := h
  exact ⟨ts, hts.balance, fun t ht => hle _ (hts.source t ht), hts.amount⟩

/-- One transfer. -/
theorem single (hp : p src) (hx : 0 ≤ x) (h : ∀ k' a, b' k' a = b k' a
    - (if k' = k ∧ a = src then x else 0) + (if k' = k ∧ a = dst then x else 0)) : Moves p b b' := by
  refine ⟨[⟨k, src, dst, x⟩], fun k' a => ?_, fun t ht => ?_, fun t ht => ?_⟩
  · rw [h, taken_cons, brought_cons, taken_nil, brought_nil, Int.add_zero, Int.add_zero]
  · rw [List.mem_singleton.mp ht]
    exact hp
  · rw [List.mem_singleton.mp ht]
    exact hx

/-- A holder that is not named loses nothing. -/
theorem le (h : Moves p b b') (ha : ¬ p a) (k : K) : b k a ≤ b' k a := by
  obtain ⟨ts, hts⟩ := h
  have htaken : taken k a ts = 0 := taken_eq_zero fun t ht heq => ha (heq ▸ hts.source t ht)
  have hbrought : 0 ≤ brought k a ts := brought_nonneg hts.amount
  rw [hts.balance, htaken]
  omega

end Moves

/-- What all holders together lose of an asset, and gain. -/
theorem sum_taken [Fintype A] (k : K) (ts : List (Transfer K A)) :
    ∑ a, taken k a ts = ∑ a, brought k a ts := by
  induction ts with
  | nil => rfl
  | cons t ts ih =>
      simp only [taken_cons, brought_cons, Finset.sum_add_distrib, ih]
      by_cases hk : k = t.asset
      · simp [hk]
      · simp [hk]

/-- Transfers neither make nor destroy anything. -/
theorem Moves.supply [Fintype A] (h : Moves p b b') (k : K) : ∑ a, b' k a = ∑ a, b k a := by
  obtain ⟨ts, hts⟩ := h
  simp only [hts.balance, Finset.sum_add_distrib, Finset.sum_sub_distrib, sum_taken]
  omega

end

end Custody
