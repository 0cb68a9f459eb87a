import Mathlib.Data.Multiset.Sort
import Mathlib.Data.Rat.Floor

/-!
# Support — Ranks

The entries of a multiset by rank, counted from the least, and the median of a multiset of integers.

* `holds_iff_lt_countP`: a property that passes downwards holds of the entry of rank `k` exactly when
  more than `k` entries have it.
* `entry_mono`, `entry_mem_of_majority`: what follows by counting, when the values grow, and when most
  of them lie in an interval and the rank is next to the middle.
* `IsMedian`: the entry in the middle, or the average of two rounded down; `IsMedian.mono`,
  `IsMedian.unique` and `IsMedian.mem_of_majority`.
-/

namespace Ranks

variable {α : Type} [LinearOrder α] {s xs : List α} {m m' : Multiset α} {a a' b lo hi : α} {k : Nat}

/-- The entry of rank `k`. -/
def entry (m : Multiset α) (k : Nat) : Option α := (m.sort (· ≤ ·))[k]?

/-! ### Entries and counts -/

/-- An ascending list has the entries in their places. -/
theorem entry_coe (hs : s.Pairwise (· ≤ ·)) (h : s.Perm xs) : entry (xs : Multiset α) k = s[k]? := by
  have hperm : ((xs : Multiset α).sort (· ≤ ·)).Perm s := by
    rw [← Multiset.coe_eq_coe, Multiset.sort_eq, Multiset.coe_eq_coe]
    exact h.symm
  unfold entry
  rw [hperm.eq_of_pairwise (fun _ _ _ _ => le_antisymm) (Multiset.pairwise_sort _ _) hs]

theorem getElem?_holds_iff {p : α → Prop} [DecidablePred p] (hp : ∀ a b, a ≤ b → p b → p a)
    (hs : s.Pairwise (· ≤ ·)) (hk : s[k]? = some a) : p a ↔ k < s.countP (p ·) := by
  induction s generalizing k with
  | nil => cases hk
  | cons x s ih =>
      obtain ⟨hx, hs⟩ := List.pairwise_cons.mp hs
      by_cases hpx : p x
      · rw [List.countP_cons_of_pos (by simpa using hpx)]
        cases k with
        | zero =>
            obtain rfl := Option.some.inj hk
            exact ⟨fun _ => Nat.succ_pos _, fun _ => hpx⟩
        | succ k => exact (ih hs hk).trans Nat.succ_lt_succ_iff.symm
      · -- nothing above has it either
        have hnone : ∀ y ∈ x :: s, ¬ p y := by
          intro y hy hpy
          rcases List.mem_cons.mp hy with rfl | hy
          · exact hpx hpy
          · exact hpx (hp x y (hx y hy) hpy)
        rw [List.countP_eq_zero.mpr fun y hy => by simpa using hnone y hy]
        exact ⟨fun hpa => absurd hpa (hnone a (List.mem_of_getElem? hk)), fun h => absurd h (by simp)⟩

theorem holds_iff_lt_countP {p : α → Prop} [DecidablePred p] (hp : ∀ a b, a ≤ b → p b → p a)
    (h : entry m k = some a) : p a ↔ k < m.countP p := by
  rw [getElem?_holds_iff hp (Multiset.pairwise_sort _ _) h, ← Multiset.coe_countP, Multiset.sort_eq]

theorem le_iff (h : entry m k = some a) : a ≤ b ↔ k < m.countP (· ≤ b) :=
  holds_iff_lt_countP (p := (· ≤ b)) (fun _ _ hle hb => hle.trans hb) h

theorem lt_iff (h : entry m k = some a) : a < b ↔ k < m.countP (· < b) :=
  holds_iff_lt_countP (p := (· < b)) (fun _ _ hle hb => hle.trans_lt hb) h

/-! ### Larger values -/

theorem countP_le_of_rel (h : Multiset.Rel (· ≤ ·) m m') : m'.countP (· ≤ b) ≤ m.countP (· ≤ b) := by
  induction h with
  | zero => exact le_refl _
  | @cons x y m m' hxy _ ih =>
      rw [Multiset.countP_cons, Multiset.countP_cons]
      by_cases hy : y ≤ b
      · rw [if_pos hy, if_pos (hxy.trans hy)]
        exact Nat.succ_le_succ ih
      · rw [if_neg hy]
        exact ih.trans (Nat.le_add_right _ _)

/-- When every value grows, so does the entry of every rank. -/
theorem entry_mono (h : Multiset.Rel (· ≤ ·) m m') (ha : entry m k = some a)
    (ha' : entry m' k = some a') : a ≤ a' :=
  (le_iff ha).mpr (((le_iff ha').mp (le_refl a')).trans_le (countP_le_of_rel h))

theorem rel_of_forall₂ {xs ys : List α} (h : List.Forall₂ (· ≤ ·) xs ys) :
    Multiset.Rel (· ≤ ·) (xs : Multiset α) ys := by
  induction h with
  | nil => exact .zero
  | cons hxy _ ih => exact .cons hxy ih

/-! ### A majority -/

theorem countP_le_countP {β : Type} {m : Multiset β} {p q : β → Prop} [DecidablePred p]
    [DecidablePred q] (h : ∀ a, p a → q a) : m.countP p ≤ m.countP q := by
  induction m using Quotient.inductionOn with
  | h xs =>
      show (xs : Multiset β).countP p ≤ (xs : Multiset β).countP q
      rw [Multiset.coe_countP, Multiset.coe_countP]
      exact List.countP_mono_left fun a _ ha => by simpa using h a (by simpa using ha)

/-- An entry next to the middle is where more than half of the values are. -/
theorem entry_mem_of_majority (hlow : m.card ≤ 2 * (k + 1)) (hhigh : 2 * k ≤ m.card)
    (h : entry m k = some a) (hmaj : m.card < 2 * m.countP fun x => lo ≤ x ∧ x ≤ hi) :
    lo ≤ a ∧ a ≤ hi := by
  constructor
  · rw [← not_lt, lt_iff h]
    -- what is below `lo` is outside the interval
    have hout : m.countP (· < lo) ≤ m.countP fun x => ¬ (lo ≤ x ∧ x ≤ hi) :=
      countP_le_countP fun x hx hin => absurd hin.1 (not_le.mpr hx)
    have hall := m.card_eq_countP_add_countP fun x => lo ≤ x ∧ x ≤ hi
    omega
  · rw [le_iff h]
    have hin : m.countP (fun x => lo ≤ x ∧ x ≤ hi) ≤ m.countP (· ≤ hi) :=
      countP_le_countP fun x hx => hx.2
    omega

/-! ### The median -/

variable {n n' : Multiset Int} {v v' : Int}

/-- The entry in the middle, or the average of the two entries there, rounded down. -/
structure IsMedian (n : Multiset Int) (v : Int) : Prop where
  odd : n.card % 2 = 1 → entry n (n.card / 2) = some v
  even : n.card % 2 = 0 → ∃ a b, entry n (n.card / 2 - 1) = some a ∧ entry n (n.card / 2) = some b ∧
    v = ⌊((a + b : Int) : Rat) / 2⌋

/-- Either way it is the average of the entries on the two sides of the middle. -/
theorem isMedian_iff : IsMedian n v ↔
    ∃ a b, entry n ((n.card - 1) / 2) = some a ∧ entry n (n.card / 2) = some b ∧ v = (a + b) / 2 := by
  have hfloor : ∀ x : Int, ⌊(x : Rat) / 2⌋ = x / 2 := fun x => by
    exact_mod_cast Rat.floor_intCast_div_natCast x 2
  constructor
  · intro h
    rcases Nat.mod_two_eq_zero_or_one n.card with heven | hodd
    · obtain ⟨a, b, ha, hb, hv⟩ := h.even heven
      rw [hfloor] at hv
      rw [show (n.card - 1) / 2 = n.card / 2 - 1 by omega]
      exact ⟨a, b, ha, hb, hv⟩
    · rw [show (n.card - 1) / 2 = n.card / 2 by omega]
      exact ⟨v, v, h.odd hodd, h.odd hodd, by omega⟩
  · rintro ⟨a, b, ha, hb, hv⟩
    constructor
    · intro hodd
      rw [show (n.card - 1) / 2 = n.card / 2 by omega, hb] at ha
      obtain rfl := Option.some.inj ha
      rw [hb, hv]
      exact congrArg some (by omega)
    · intro heven
      rw [show (n.card - 1) / 2 = n.card / 2 - 1 by omega] at ha
      exact ⟨a, b, ha, hb, by rw [hfloor]; exact hv⟩

theorem IsMedian.mono (h : IsMedian n v) (h' : IsMedian n' v') (hle : Multiset.Rel (· ≤ ·) n n') :
    v ≤ v' := by
  obtain ⟨a, b, ha, hb, rfl⟩ := isMedian_iff.mp h
  obtain ⟨a', b', ha', hb', rfl⟩ := isMedian_iff.mp h'
  rw [← Multiset.card_eq_card_of_rel hle] at ha' hb'
  exact Int.ediv_le_ediv (by decide) (add_le_add (entry_mono hle ha ha') (entry_mono hle hb hb'))

theorem IsMedian.unique (h : IsMedian n v) (h' : IsMedian n v') : v = v' := by
  have hrefl : Multiset.Rel (· ≤ ·) n n := Multiset.rel_refl_of_refl_on fun x _ => le_refl x
  exact le_antisymm (h.mono h' hrefl) (h'.mono h hrefl)

theorem IsMedian.mem_of_majority {lo hi : Int} (h : IsMedian n v)
    (hmaj : n.card < 2 * n.countP fun x => lo ≤ x ∧ x ≤ hi) : lo ≤ v ∧ v ≤ hi := by
  obtain ⟨a, b, ha, hb, rfl⟩ := isMedian_iff.mp h
  obtain ⟨ha₁, ha₂⟩ := entry_mem_of_majority (by omega) (by omega) ha hmaj
  obtain ⟨hb₁, hb₂⟩ := entry_mem_of_majority (by omega) (by omega) hb hmaj
  omega

end Ranks
