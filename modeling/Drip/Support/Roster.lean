import Mathlib.Data.List.Nodup
import Mathlib.Data.Set.Card

/-!
# Support — Roster

A set that is stored as a list without duplicates: `Roster p xs` says that `xs` lists the elements
that satisfy `p`, each once.

* `Roster.push` and `Roster.drop`: an element added at the end, and one filtered out.
* `Roster.ncard`: the list is as long as the set is large.
* `Roster.fibre_push`, `fibre_drop`, `fibre_keep`: the lists of the arguments at which a partial
  function takes each value, when its value at one argument changes.
-/

variable {α : Type} {p q : α → Prop} {xs : List α} {a b : α}

/-- `xs` lists the elements that satisfy `p`, each once. -/
structure Roster (p : α → Prop) (xs : List α) : Prop where
  nodup : xs.Nodup
  mem : ∀ a, a ∈ xs ↔ p a

namespace Roster

theorem nil (h : ∀ a, ¬ p a) : Roster p [] :=
  ⟨List.nodup_nil, fun a => ⟨fun hin => absurd hin List.not_mem_nil, fun ha => absurd ha (h a)⟩⟩

theorem congr (h : Roster p xs) (hpq : ∀ a, p a ↔ q a) : Roster q xs :=
  ⟨h.nodup, fun a => (h.mem a).trans (hpq a)⟩

theorem push (h : Roster p xs) (ha : ¬ p a) : Roster (fun b => p b ∨ b = a) (xs ++ [a]) := by
  constructor
  · rw [← List.concat_eq_append]
    exact h.nodup.concat fun hin => ha ((h.mem a).mp hin)
  · intro b
    rw [List.mem_append, List.mem_singleton, h.mem]

theorem drop [DecidableEq α] (h : Roster p xs) :
    Roster (fun b => p b ∧ b ≠ a) (xs.filter fun b => b ≠ a) := by
  refine ⟨h.nodup.filter _, fun b => ?_⟩
  rw [List.mem_filter, h.mem, decide_eq_true_iff]

theorem length_drop [DecidableEq α] (h : Roster p xs) (ha : p a) :
    (xs.filter fun b => b ≠ a).length + 1 = xs.length := by
  have hin : a ∈ xs := (h.mem a).mpr ha
  have herase : xs.erase a = xs.filter fun b => b ≠ a := by
    rw [h.nodup.erase_eq_filter]
    refine List.filter_congr fun b _ => ?_
    rw [Bool.eq_iff_iff, bne_iff_ne, decide_eq_true_iff]
  have := List.length_pos_of_mem hin
  rw [← herase, List.length_erase_of_mem hin]
  omega

theorem length_pos (h : Roster p xs) (ha : p a) : 0 < xs.length :=
  List.length_pos_of_mem ((h.mem a).mpr ha)

theorem ncard (h : Roster p xs) : {a | p a}.ncard = xs.length := by
  classical
  have hset : {a | p a} = (xs.toFinset : Set α) := by
    ext a
    rw [Finset.mem_coe, List.mem_toFinset, h.mem]
    rfl
  rw [hset, Set.ncard_coe_finset, List.toFinset_card_of_nodup h.nodup]

section

variable {β : Type} [DecidableEq α] {f f' : α → Option β} {y z : β}

/-- The argument joins the list of its new value. -/
theorem fibre_push (h : Roster (fun i => f i = some y) xs)
    (hf : ∀ i, f' i = if i = a then some y else f i) (ha : f a ≠ some y) :
    Roster (fun i => f' i = some y) (xs ++ [a]) := by
  refine (h.push ha).congr fun i => ?_
  rw [hf]
  by_cases hi : i = a
  · rw [if_pos hi]
    exact iff_of_true (.inr hi) rfl
  · rw [if_neg hi]
    exact or_iff_left hi

/-- It leaves the list of its old value. -/
theorem fibre_drop (h : Roster (fun i => f i = some y) xs)
    (hf : ∀ i, f' i = if i = a then some z else f i) (hz : z ≠ y) :
    Roster (fun i => f' i = some y) (xs.filter fun i => i ≠ a) := by
  refine (h.drop (a := a)).congr fun i => ?_
  rw [hf]
  by_cases hi : i = a
  · rw [if_pos hi]
    exact iff_of_false (fun h => h.2 hi) fun h => hz (Option.some.inj h)
  · rw [if_neg hi]
    exact and_iff_left hi

/-- The other lists stay as they are. -/
theorem fibre_keep (h : Roster (fun i => f i = some y) xs)
    (hf : ∀ i, f' i = if i = a then some z else f i) (hz : z ≠ y) (ha : f a ≠ some y) :
    Roster (fun i => f' i = some y) xs := by
  refine h.congr fun i => ?_
  rw [hf]
  by_cases hi : i = a
  · rw [if_pos hi, hi]
    exact iff_of_false ha fun h => hz (Option.some.inj h)
  · rw [if_neg hi]

end

end Roster
