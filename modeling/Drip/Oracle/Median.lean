import Drip.Host.Basic
import Drip.Support.Ranks

/-!
# Oracle — Median

`median` and `median_u128` of `contracts/oracle/src/lib.rs`.  Both sort a copy by insertion, from the
back of the part that is sorted already, and take the entry in the middle or the average of two.

An average of two of the values is what their callers use of a median: it is zero for no list of
nonzero values.
-/

namespace Drip.Oracle

variable {lo hi : Int} {key x : Ranged lo hi} {values : List (Ranged lo hi)}

/-- One turn of the insertion sort.  The sorted part is listed from its last entry, where the search
for the place of `key` starts. -/
def insertKey (key : Ranged lo hi) : List (Ranged lo hi) → List (Ranged lo hi)
  | [] => [key]
  | prev :: rest => if prev ≤ key then key :: prev :: rest else prev :: insertKey key rest

/-- The values in ascending order. -/
def sorted (values : List (Ranged lo hi)) : List (Ranged lo hi) :=
  (values.foldl (fun part key => insertKey key part) []).reverse

/-- The entries around the middle, the same one twice for an odd length; `none` where the code
panics, for the empty list. -/
def middle (values : List (Ranged lo hi)) : Option (Ranged lo hi × Ranged lo hi) :=
  let mid := values.length / 2
  if values.length % 2 = 0 then do
    let a ← (sorted values)[mid - 1]?
    let b ← (sorted values)[mid]?
    return (a, b)
  else do
    let a ← (sorted values)[mid]?
    return (a, a)

/-- `median`: the sum is taken as a `u128`, and half of it fits. -/
def median (prices : List U64) : Option U64 := do
  let (a, b) ← middle prices
  return ⟨(a.val + b.val) / 2, by have := a.ge; have := b.ge; omega,
    by have := a.le; have := b.le; omega⟩

def U128.half (a : U128) : U128 := ⟨a.val / 2, by have := a.ge; omega, by have := a.le; omega⟩

/-- The carry of two remainders. -/
def U128.carry (a b : U128) : U128 := ⟨(a.val % 2 + b.val % 2) / 2, by omega, by omega⟩

/-- `median_u128`: the average without the sum. -/
def medianU128 (values : List U128) : Option U128 := do
  let (a, b) ← middle values
  if values.length % 2 = 0 then
    return ((U128.half a).saturatingAdd (U128.half b)).saturatingAdd (U128.carry a b)
  else return a

/-! ### What a median is made of -/

theorem insertKey_perm (key : Ranged lo hi) (part : List (Ranged lo hi)) :
    (insertKey key part).Perm (key :: part) := by
  induction part with
  | nil => exact .refl _
  | cons prev rest ih =>
      unfold insertKey
      split
      · exact .refl _
      · exact (ih.cons prev).trans (.swap key prev rest)

theorem sorted_perm (values : List (Ranged lo hi)) : (sorted values).Perm values := by
  have hfold : ∀ part, (values.foldl (fun part key => insertKey key part) part).Perm
      (values ++ part) := by
    induction values with
    | nil => exact fun part => .refl _
    | cons key values ih =>
        intro part
        refine (ih _).trans ?_
        exact ((insertKey_perm key part).append_left values).trans List.perm_middle
  exact (List.reverse_perm _).trans (by simpa using hfold [])

theorem mem_sorted : x ∈ sorted values ↔ x ∈ values := (sorted_perm values).mem_iff

theorem length_sorted : (sorted values).length = values.length := (sorted_perm values).length_eq

theorem middle_mem {m : Ranged lo hi × Ranged lo hi} (h : middle values = some m) :
    m.1 ∈ values ∧ m.2 ∈ values := by
  have hmem : ∀ {i : Nat} {a : Ranged lo hi}, (sorted values)[i]? = some a → a ∈ values :=
    fun h => mem_sorted.mp (List.mem_of_getElem? h)
  unfold middle at h
  dsimp only at h
  split at h
  · simp only [Option.bind_eq_bind, Option.bind_eq_some_iff, Option.pure_def,
      Option.some.injEq] at h
    obtain ⟨a, ha, b, hb, rfl⟩ := h
    exact ⟨hmem ha, hmem hb⟩
  · simp only [Option.bind_eq_bind, Option.bind_eq_some_iff, Option.pure_def,
      Option.some.injEq] at h
    obtain ⟨a, ha, rfl⟩ := h
    exact ⟨hmem ha, hmem ha⟩

theorem middle_singleton (x : Ranged lo hi) : middle [x] = some (x, x) := by
  have hsorted : sorted [x] = [x] := rfl
  unfold middle
  rw [hsorted]
  simp

theorem medianU128_singleton (price : U128) : medianU128 [price] = some price := by
  unfold medianU128
  rw [middle_singleton]
  simp

theorem exists_middle (h : values ≠ []) : ∃ m, middle values = some m := by
  have hpos : 0 < values.length := List.length_pos_iff.mpr h
  have hget : ∀ i, i < values.length → ∃ a, (sorted values)[i]? = some a := fun i hi =>
    ⟨_, List.getElem?_eq_getElem (by rw [length_sorted]; exact hi)⟩
  obtain ⟨b, hb⟩ := hget (values.length / 2) (by omega)
  unfold middle
  dsimp only
  rw [hb]
  split
  · obtain ⟨a, ha⟩ := hget (values.length / 2 - 1) (by omega)
    rw [ha]
    exact ⟨_, rfl⟩
  · exact ⟨_, rfl⟩

theorem exists_median {prices : List U64} (h : prices ≠ []) : ∃ m, median prices = some m := by
  obtain ⟨m, hm⟩ := exists_middle h
  unfold median
  rw [hm]
  exact ⟨_, rfl⟩

/-- The median of nonzero prices is not zero. -/
theorem median_ne_zero {prices : List U64} {m : U64} (h : median prices = some m)
    (hpos : ∀ p ∈ prices, p.val ≠ 0) : m.val ≠ 0 := by
  simp only [median, Option.bind_eq_bind, Option.bind_eq_some_iff, Option.pure_def,
    Option.some.injEq] at h
  obtain ⟨⟨a, b⟩, hmid, rfl⟩ := h
  obtain ⟨ha, hb⟩ := middle_mem hmid
  have h₁ := hpos a ha
  have h₂ := hpos b hb
  have := a.ge
  have := b.ge
  show (a.val + b.val) / 2 ≠ 0
  omega

/-! ### A majority decides -/

theorem insertKey_sorted (key : Ranged lo hi) {part : List (Ranged lo hi)}
    (h : part.Pairwise fun a b => b ≤ a) : (insertKey key part).Pairwise fun a b => b ≤ a := by
  induction part with
  | nil => exact List.pairwise_singleton _ _
  | cons prev rest ih =>
      obtain ⟨hprev, hrest⟩ := List.pairwise_cons.mp h
      unfold insertKey
      split
      · rename_i hle
        refine List.pairwise_cons.mpr ⟨fun x hx => ?_, h⟩
        rcases List.mem_cons.mp hx with rfl | hx
        · exact hle
        · exact le_trans (a := x.val) (hprev x hx) hle
      · rename_i hlt
        refine List.pairwise_cons.mpr ⟨fun x hx => ?_, ih hrest⟩
        rcases List.mem_cons.mp ((insertKey_perm key rest).mem_iff.mp hx) with rfl | hx
        · exact Int.le_of_lt (Ranged.not_le.mp hlt)
        · exact hprev x hx

theorem sorted_sorted (values : List (Ranged lo hi)) :
    (sorted values).Pairwise fun a b => a ≤ b := by
  have hfold : ∀ part : List (Ranged lo hi), (part.Pairwise fun a b => b ≤ a) →
      (values.foldl (fun part key => insertKey key part) part).Pairwise fun a b => b ≤ a := by
    induction values with
    | nil => exact fun part h => h
    | cons key values ih => exact fun part h => ih _ (insertKey_sorted key h)
  exact List.pairwise_reverse.mpr (hfold [] List.Pairwise.nil)

/-- The values from `a` to `b`. -/
def between (a b : Int) (values : List (Ranged lo hi)) : Nat :=
  values.countP fun x => decide (a ≤ x.val ∧ x.val ≤ b)

/-- The values as integers. -/
def asMultiset (values : List (Ranged lo hi)) : Multiset Int := (values.map (·.val) : List Int)

@[simp]
theorem card_asMultiset : (asMultiset values).card = values.length := by
  simp [asMultiset]

theorem countP_asMultiset {a b : Int} :
    ((asMultiset values).countP fun x => a ≤ x ∧ x ≤ b) = between a b values := by
  unfold asMultiset between
  rw [Multiset.coe_countP, List.countP_map]
  rfl

/-- The sorted list has the entries of every rank in their places. -/
theorem entry_asMultiset {i : Nat} (hx : (sorted values)[i]? = some x) :
    Ranks.entry (asMultiset values) i = some x.val := by
  have hsorted : ((sorted values).map (·.val)).Pairwise (· ≤ ·) :=
    List.pairwise_map.mpr (sorted_sorted values)
  unfold asMultiset
  rw [Ranks.entry_coe hsorted ((sorted_perm values).map _), List.getElem?_map, hx]
  rfl

/-- An entry around the middle of a sorted list is where the majority is. -/
theorem mem_of_majority {a b : Int} {i : Nat} (hlo : values.length ≤ 2 * (i + 1))
    (hhi : 2 * i ≤ values.length) (hx : (sorted values)[i]? = some x)
    (hmaj : values.length < 2 * between a b values) : a ≤ x.val ∧ x.val ≤ b := by
  refine Ranks.entry_mem_of_majority ?_ ?_ (entry_asMultiset hx) ?_
  · rw [card_asMultiset]
    exact hlo
  · rw [card_asMultiset]
    exact hhi
  · rw [card_asMultiset, countP_asMultiset]
    exact hmaj

theorem middle_between {a b : Int} (hmaj : values.length < 2 * between a b values)
    {m : Ranged lo hi × Ranged lo hi} (h : middle values = some m) :
    (a ≤ m.1.val ∧ m.1.val ≤ b) ∧ a ≤ m.2.val ∧ m.2.val ≤ b := by
  unfold middle at h
  dsimp only at h
  split at h
  · simp only [Option.bind_eq_bind, Option.bind_eq_some_iff, Option.pure_def,
      Option.some.injEq] at h
    obtain ⟨x, hx, y, hy, rfl⟩ := h
    exact ⟨mem_of_majority (by omega) (by omega) hx hmaj, mem_of_majority (by omega) (by omega) hy hmaj⟩
  · simp only [Option.bind_eq_bind, Option.bind_eq_some_iff, Option.pure_def,
      Option.some.injEq] at h
    obtain ⟨x, hx, rfl⟩ := h
    have hin := mem_of_majority (by omega) (by omega) hx hmaj
    exact ⟨hin, hin⟩

/-- The average without the sum is the average. -/
theorem val_average (a b : U128) :
    (((U128.half a).saturatingAdd (U128.half b)).saturatingAdd (U128.carry a b)).val =
      (a.val + b.val) / 2 := by
  have ha := a.ge
  have hb := b.ge
  have ha' := a.le
  have hb' := b.le
  unfold Ranged.saturatingAdd
  rw [Ranged.val_clamp, Ranged.val_clamp]
  show max 0 (min (max 0 (min (a.val / 2 + b.val / 2) _) + (a.val % 2 + b.val % 2) / 2) _) = _
  omega

theorem medianU128_ne_zero {values : List U128} {m : U128} (h : medianU128 values = some m)
    (hpos : ∀ x ∈ values, x.val ≠ 0) : m.val ≠ 0 := by
  simp only [medianU128, Option.bind_eq_bind, Option.bind_eq_some_iff] at h
  obtain ⟨⟨a, b⟩, hmid, h⟩ := h
  obtain ⟨ha, hb⟩ := middle_mem hmid
  have h₁ := hpos a ha
  have h₂ := hpos b hb
  have := a.ge
  have := b.ge
  split at h
  · cases h
    rw [val_average]
    dsimp only
    omega
  · cases h
    exact h₁

end Drip.Oracle
