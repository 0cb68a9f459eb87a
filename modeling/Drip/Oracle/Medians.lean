import Drip.Oracle.Median

/-!
# Oracle — Medians

`median` and `median_u128` as the source runs them: one vector sorted in place, by index, each with a
loop of its own.  The indices are the positions of a vector, which has at most `u32::MAX` entries, so
no index wraps.

* `shift_spec`: the inner loop makes room where `insertKey` puts the key.
* `sort_eq`: the outer loop leaves `sorted`, whatever way the inner one is written.
* `median_eq`, `medianU128_eq`: so both functions are those of `Median`.
* `medians_exact`: both are the exact median of the multiset of the values.
-/

namespace Drip.Oracle

variable {lo hi : Int} {values values' pre post : List (Ranged lo hi)} {key hole x m : Ranged lo hi}

namespace InPlace

/-- `Vec::set`, which traps past the end. -/
def put (values : List (Ranged lo hi)) (i : Nat) (x : Ranged lo hi) : Option (List (Ranged lo hi)) :=
  if i < values.length then some (values.set i x) else none

/-- The inner loop from `j` on: entries move up until `stops` says that the place of `key` is found. -/
def shift (stops : Ranged lo hi → Ranged lo hi → Bool) (key : Ranged lo hi) :
    Nat → List (Ranged lo hi) → Option (Nat × List (Ranged lo hi))
  | 0, values => some (0, values)
  | j + 1, values => do
      let prev ← values[j]?
      if stops prev key then return (j + 1, values)
      else
        let values ← put values (j + 1) prev
        shift stops key j values

/-- One turn of the outer loop. -/
def turn (stops : Ranged lo hi → Ranged lo hi → Bool) (values : List (Ranged lo hi)) (i : Nat) :
    Option (List (Ranged lo hi)) := do
  let key ← values[i]?
  let (j, values) ← shift stops key i values
  put values j key

/-- The outer loop, `while i < len` from one. -/
def sort (stops : Ranged lo hi → Ranged lo hi → Bool) (values : List (Ranged lo hi)) :
    Option (List (Ranged lo hi)) :=
  (List.range' 1 (values.length - 1)).foldlM (turn stops) values

/-- `n as u64`: the low 64 bits. -/
def lowU64 (n : U128) : U64 := ⟨n.val % 18446744073709551616, by omega, by omega⟩

/-- `median`: the inner loop goes on `if prev > key` and breaks `else`. -/
def median (prices : List U64) : Option U64 := do
  let len := prices.length
  let sorted ← sort (fun prev key => !decide (key < prev)) prices
  let mid := len / 2
  if len % 2 = 0 then
    let a ← sorted[mid - 1]?
    let b ← sorted[mid]?
    let sum : U128 ← Ranged.checkedAdd a.widen b.widen
    return lowU64 (U128.half sum)
  else sorted[mid]?

/-- `median_u128`: the inner loop breaks `if prev <= key`. -/
def medianU128 (values : List U128) : Option U128 := do
  let len := values.length
  let sorted ← sort (fun prev key => decide (prev ≤ key)) values
  let mid := len / 2
  if len % 2 = 0 then
    let a ← sorted[mid - 1]?
    let b ← sorted[mid]?
    return ((U128.half a).saturatingAdd (U128.half b)).saturatingAdd (U128.carry a b)
  else sorted[mid]?

/-! ### The loops -/

theorem put_append : put (pre ++ hole :: post) pre.length x = some (pre ++ x :: post) := by
  simp [put]

variable {stops : Ranged lo hi → Ranged lo hi → Bool}

/-- The free place moves down past what is larger than the key.  The part before it is listed from its
last entry, as for `insertKey`. -/
theorem shift_spec (hstops : ∀ prev key, stops prev key = decide (prev ≤ key))
    (part : List (Ranged lo hi)) (hole : Ranged lo hi) (post : List (Ranged lo hi)) :
    ∃ j values, shift stops key part.length (part.reverse ++ hole :: post) = some (j, values) ∧
      put values j key = some ((insertKey key part).reverse ++ post) := by
  induction part generalizing hole post with
  | nil => exact ⟨0, hole :: post, rfl, rfl⟩
  | cons prev rest ih =>
      have hget : ((prev :: rest).reverse ++ hole :: post)[rest.length]? = some prev := by simp
      have hput : ∀ x, put ((prev :: rest).reverse ++ hole :: post) (rest.length + 1) x =
          some ((prev :: rest).reverse ++ x :: post) := by
        intro x
        have hplace : (prev :: rest).reverse.length = rest.length + 1 := by simp
        rw [← hplace]
        exact put_append
      by_cases hle : prev ≤ key
      · refine ⟨rest.length + 1, (prev :: rest).reverse ++ hole :: post, ?_, ?_⟩
        · simp only [List.length_cons, shift, hget, hstops, Option.bind_eq_bind, Option.bind_some,
            if_pos (decide_eq_true hle), Option.pure_def]
        · rw [hput, insertKey, if_pos hle]
          simp
      · -- the entry moves up and leaves its place free
        obtain ⟨j, values, hshift, hkey⟩ := ih prev (prev :: post)
        refine ⟨j, values, ?_, ?_⟩
        · simp only [List.length_cons, shift, hget, hput, hstops, Option.bind_eq_bind,
            Option.bind_some, decide_eq_true_iff, if_neg hle]
          simpa using hshift
        · rw [hkey, insertKey, if_neg hle]
          simp

theorem turn_spec (hstops : ∀ prev key, stops prev key = decide (prev ≤ key))
    (part post : List (Ranged lo hi)) :
    turn stops (part.reverse ++ key :: post) part.length =
      some ((insertKey key part).reverse ++ post) := by
  obtain ⟨j, values, hshift, hkey⟩ : ∃ j values,
      shift stops key part.length (part.reverse ++ key :: post) = some (j, values) ∧
        put values j key = some ((insertKey key part).reverse ++ post) :=
    shift_spec hstops part key post
  have hget : (part.reverse ++ key :: post)[part.length]? = some key := by simp
  simp only [turn, hget, Option.bind_eq_bind, Option.bind_some, hshift]
  exact hkey

/-- After `i` turns the first `i + 1` entries are sorted and the others are where they were. -/
theorem foldlM_turn (hstops : ∀ prev key, stops prev key = decide (prev ≤ key))
    (part post : List (Ranged lo hi)) :
    (List.range' part.length post.length).foldlM (turn stops) (part.reverse ++ post) =
      some (post.foldl (fun part key => insertKey key part) part).reverse := by
  induction post generalizing part with
  | nil => simp
  | cons key post ih =>
      have hlen : (insertKey key part).length = part.length + 1 := (insertKey_perm key part).length_eq
      rw [List.length_cons, List.range'_succ, List.foldlM_cons, turn_spec hstops, ← hlen]
      exact ih (insertKey key part)

theorem sort_eq (hstops : ∀ prev key, stops prev key = decide (prev ≤ key))
    (values : List (Ranged lo hi)) : sort stops values = some (sorted values) := by
  cases values with
  | nil => rfl
  | cons x values => exact foldlM_turn hstops [x] values

/-- The two conditions are one. -/
theorem not_lt_eq (prev key : Ranged lo hi) : (!decide (key < prev)) = decide (prev ≤ key) := by
  rw [← decide_not]
  exact decide_eq_decide.mpr Ranged.not_lt

/-! ### The functions -/

/-- The sum of two `u64` fits a `u128`, and half of it fits a `u64`. -/
theorem lowU64_half {a b : U64} {sum : U128} (h : Ranged.checkedAdd a.widen b.widen = some sum) :
    (lowU64 (U128.half sum)).val = (a.val + b.val) / 2 := by
  have hsum : sum.val = a.val + b.val := Ranged.checkedAdd_eq_some.mp h
  have ha := a.ge
  have hb := b.ge
  have ha' := a.le
  have hb' := b.le
  show sum.val / 2 % 18446744073709551616 = _
  rw [hsum]
  exact Int.emod_eq_of_lt (by omega) (by omega)

theorem median_eq (prices : List U64) : median prices = Oracle.median prices := by
  simp only [median, Oracle.median, middle, sort_eq not_lt_eq, Option.bind_eq_bind, Option.bind_some]
  split
  · simp only [Option.bind_assoc, Option.pure_def, Option.bind_some]
    refine Option.bind_congr fun a _ => Option.bind_congr fun b _ => ?_
    have ha := a.le
    have hb := b.le
    obtain ⟨sum, hsum⟩ : ∃ sum : U128, Ranged.checkedAdd a.widen b.widen = some sum :=
      ⟨⟨a.val + b.val, add_nonneg a.ge b.ge, by omega⟩, Ranged.checkedAdd_eq_some.mpr rfl⟩
    rw [hsum, Option.bind_some]
    exact congrArg some (Ranged.ext (lowU64_half hsum))
  · simp only [Option.bind_assoc, Option.pure_def, Option.bind_some]
    cases (sorted prices)[prices.length / 2]? with
    | none => rfl
    | some a => exact congrArg some (Ranged.ext (by show a.val = (a.val + a.val) / 2; omega))

theorem medianU128_eq (values : List U128) : medianU128 values = Oracle.medianU128 values := by
  simp only [medianU128, Oracle.medianU128, middle, sort_eq fun _ _ => rfl, Option.bind_eq_bind,
    Option.bind_some]
  split <;> simp [Option.bind_assoc]

end InPlace

/-! ### The exact median -/

/-- Both averages of the entries around the middle are the median of the values. -/
theorem isMedian_of_middle {a b : Ranged lo hi} (h : middle values = some (a, b)) :
    Ranks.IsMedian (asMultiset values) ((a.val + b.val) / 2) := by
  rw [Ranks.isMedian_iff]
  simp only [middle, Option.bind_eq_bind, Option.pure_def] at h
  split at h
  · rename_i heven
    simp only [Option.bind_eq_some_iff, Option.some.injEq, Prod.mk.injEq] at h
    obtain ⟨a, ha, b, hb, rfl, rfl⟩ := h
    have hbelow : (values.length - 1) / 2 = values.length / 2 - 1 := by omega
    refine ⟨a.val, b.val, ?_, ?_, rfl⟩
    · rw [card_asMultiset, hbelow]
      exact entry_asMultiset ha
    · rw [card_asMultiset]
      exact entry_asMultiset hb
  · rename_i hodd
    simp only [Option.bind_eq_some_iff, Option.some.injEq, Prod.mk.injEq] at h
    obtain ⟨a, ha, rfl, rfl⟩ := h
    have hbelow : (values.length - 1) / 2 = values.length / 2 := by omega
    refine ⟨a.val, a.val, ?_, ?_, rfl⟩
    · rw [card_asMultiset, hbelow]
      exact entry_asMultiset ha
    · rw [card_asMultiset]
      exact entry_asMultiset ha

theorem exists_isMedian {prices : List U64} (h : prices ≠ []) :
    ∃ m, median prices = some m ∧ Ranks.IsMedian (asMultiset prices) m.val := by
  obtain ⟨⟨a, b⟩, hmid⟩ := exists_middle h
  unfold median
  rw [hmid]
  exact ⟨_, rfl, isMedian_of_middle hmid⟩

theorem exists_isMedianU128 {values : List U128} (h : values ≠ []) :
    ∃ m, medianU128 values = some m ∧ Ranks.IsMedian (asMultiset values) m.val := by
  obtain ⟨⟨a, b⟩, hmid⟩ := exists_middle h
  have hmedian := isMedian_of_middle hmid
  unfold medianU128
  rw [hmid]
  by_cases heven : values.length % 2 = 0
  · refine ⟨_, if_pos heven, ?_⟩
    rw [val_average]
    exact hmedian
  · -- both entries are the one in the middle
    refine ⟨a, if_neg heven, ?_⟩
    have hsame : a = b := by
      simp only [middle, if_neg heven, Option.bind_eq_bind, Option.pure_def, Option.bind_eq_some_iff,
        Option.some.injEq, Prod.mk.injEq] at hmid
      obtain ⟨c, -, rfl, rfl⟩ := hmid
      rfl
    rw [← hsame] at hmedian
    rw [show a.val = (a.val + a.val) / 2 by omega]
    exact hmedian

/-- What makes `f` a median: it is exact, does not depend on the order, grows with the values, and lies
where more than half of them do. -/
structure IsMedianFunction (f : List (Ranged lo hi) → Option (Ranged lo hi)) : Prop where
  exact : ∀ values, values ≠ [] → ∃ m, f values = some m ∧ Ranks.IsMedian (asMultiset values) m.val
  perm : ∀ values values', values.Perm values' → f values = f values'
  mono : ∀ values values' m m', List.Forall₂ (· ≤ ·) values values' → f values = some m →
    f values' = some m' → m ≤ m'
  majority : ∀ values a b, values.length < 2 * between a b values →
    ∃ m, f values = some m ∧ a ≤ m.val ∧ m.val ≤ b

/-- Exactness gives the rest. -/
theorem isMedianFunction_of_exact {f : List (Ranged lo hi) → Option (Ranged lo hi)} (hnil : f [] = none)
    (hf : ∀ values, values ≠ [] → ∃ m, f values = some m ∧ Ranks.IsMedian (asMultiset values) m.val) :
    IsMedianFunction f := by
  have hexact : ∀ {values m}, f values = some m → Ranks.IsMedian (asMultiset values) m.val := by
    intro values m h
    obtain ⟨m', h', hmedian⟩ := hf values (by rintro rfl; rw [hnil] at h; cases h)
    obtain rfl := Option.some.inj (h.symm.trans h')
    exact hmedian
  refine ⟨hf, fun values values' hperm => ?_, fun values values' m m' hle h h' => ?_,
    fun values a b hmaj => ?_⟩
  · rcases eq_or_ne values [] with rfl | hne
    · rw [List.nil_perm.mp hperm]
    · obtain ⟨m, h, hmedian⟩ := hf values hne
      obtain ⟨m', h', hmedian'⟩ := hf values' fun hnil => hne (List.perm_nil.mp (hnil ▸ hperm))
      have hsame : asMultiset values = asMultiset values' := Multiset.coe_eq_coe.mpr (hperm.map _)
      rw [← hsame] at hmedian'
      rw [h, h', Ranged.ext (hmedian.unique hmedian')]
  · refine (hexact h).mono (hexact h') (Ranks.rel_of_forall₂ ?_)
    rw [List.forall₂_map_left_iff, List.forall₂_map_right_iff]
    exact hle
  · obtain ⟨m, h, hmedian⟩ := hf values (by rintro rfl; exact absurd hmaj (by simp [between]))
    refine ⟨m, h, hmedian.mem_of_majority ?_⟩
    rw [card_asMultiset, countP_asMultiset]
    exact hmaj

/-- **Both median helpers are exact.**  For every nonempty list they return the middle element of the
sorted multiset, or the average of the two in the middle rounded down, without an overflow; they do not
depend on the order of the list, they grow with every element, and the majority decides. -/
theorem medians_exact : IsMedianFunction InPlace.median ∧ IsMedianFunction InPlace.medianU128 := by
  constructor
  · refine isMedianFunction_of_exact (InPlace.median_eq []) fun prices hne => ?_
    rw [InPlace.median_eq]
    exact exists_isMedian hne
  · refine isMedianFunction_of_exact (InPlace.medianU128_eq []) fun values hne => ?_
    rw [InPlace.medianU128_eq]
    exact exists_isMedianU128 hne

/-- The average of the two largest values. -/
example : InPlace.medianU128 [.lit 340282366920938463463374607431768211455,
    .lit 340282366920938463463374607431768211454] =
      some (.lit 340282366920938463463374607431768211454) := by decide

end Drip.Oracle
