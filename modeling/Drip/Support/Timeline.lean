import Mathlib.Data.List.Basic
import Mathlib.Order.Lattice

/-!
# Support — Timeline

A list of entries with keys of a linear order, read as a history: the entry in force at `k` is the
last one with a key of at most `k`.

* `Timeline key xs`: the keys strictly increase.
* `put key xs x`: `x` comes last, in the place of a last entry that is not older.
* `upTo key k xs`: the entry in force at `k`; `Timeline.upTo_eq`: a search that stops at the first
  later entry finds it.
* `upTo_put`: an entry put in at `k` changes nothing before `k`.
-/

variable {α κ : Type} [LinearOrder κ] {key : α → κ} {xs : List α} {x y : α} {k : κ}

/-- The keys of `xs` strictly increase. -/
def Timeline (key : α → κ) (xs : List α) : Prop := xs.Pairwise fun a b => key a < key b

namespace Timeline

/-- `x` at the end; a last entry that is not older gives way to it. -/
def put (key : α → κ) (xs : List α) (x : α) : List α :=
  match xs.getLast? with
  | some last => if key x ≤ key last then xs.dropLast ++ [x] else xs ++ [x]
  | none => xs ++ [x]

/-- The last entry with a key of at most `k`. -/
def upTo (key : α → κ) (k : κ) (xs : List α) : Option α := (xs.filter fun x => key x ≤ k).getLast?

theorem upTo_concat : upTo key k (xs ++ [x]) = if key x ≤ k then some x else upTo key k xs := by
  unfold upTo
  rw [List.filter_append]
  by_cases h : key x ≤ k
  · have hkept : [x].filter (fun x => decide (key x ≤ k)) = [x] :=
      List.filter_cons_of_pos (by rw [decide_eq_true_iff]; exact h)
    rw [if_pos h, hkept, List.getLast?_concat]
  · have hdropped : [x].filter (fun x => decide (key x ≤ k)) = [] :=
      List.filter_cons_of_neg (by rw [decide_eq_true_iff]; exact h)
    rw [if_neg h, hdropped, List.append_nil]

/-- Entries put in at the end: with and without a last entry that gives way. -/
theorem put_cases (key : α → κ) (xs : List α) (x : α) :
    put key xs x = xs ++ [x] ∧ (∀ y, xs.getLast? = some y → key y < key x) ∨
      ∃ ys y, xs = ys ++ [y] ∧ key x ≤ key y ∧ put key xs x = ys ++ [x] := by
  unfold put
  cases hlast : xs.getLast? with
  | none => exact .inl ⟨rfl, nofun⟩
  | some y =>
      dsimp only
      split
      · rename_i hle
        refine .inr ⟨xs.dropLast, y, ?_, hle, rfl⟩
        exact (List.dropLast_append_getLast? y hlast).symm
      · rename_i hlt
        refine .inl ⟨rfl, fun z hz => ?_⟩
        cases hz
        exact not_le.mp hlt

theorem mem_put (h : y ∈ put key xs x) : y ∈ xs ∨ y = x := by
  obtain ⟨heq, -⟩ | ⟨ys, z, rfl, -, heq⟩ := put_cases key xs x
  · rw [heq, List.mem_append, List.mem_singleton] at h
    exact h
  · rw [heq, List.mem_append, List.mem_singleton] at h
    exact h.imp_left (List.mem_append_left _)

theorem nil : Timeline key [] := List.Pairwise.nil

theorem concat (h : Timeline key xs) (hx : ∀ y ∈ xs, key y < key x) : Timeline key (xs ++ [x]) := by
  refine List.pairwise_append.mpr ⟨h, List.pairwise_singleton _ _, fun y hy z hz => ?_⟩
  rw [List.mem_singleton.mp hz]
  exact hx y hy

theorem lt_last {ys : List α} (h : Timeline key (ys ++ [x])) (hy : y ∈ ys) : key y < key x :=
  (List.pairwise_append.mp h).2.2 y hy x (List.mem_singleton.mpr rfl)

theorem init {ys : List α} (h : Timeline key (ys ++ [x])) : Timeline key ys :=
  (List.pairwise_append.mp h).1

/-- An entry that is not older than the others keeps the order. -/
theorem putLast (h : Timeline key xs) (hx : ∀ y ∈ xs, key y ≤ key x) : Timeline key (put key xs x) := by
  obtain ⟨heq, hlast⟩ | ⟨ys, z, rfl, hle, heq⟩ := put_cases key xs x
  · rw [heq]
    refine h.concat fun y hy => ?_
    obtain ⟨ys, z, rfl⟩ := List.eq_nil_or_concat xs |>.resolve_left (List.ne_nil_of_mem hy)
    rw [List.concat_eq_append] at h hy hlast
    have hz := hlast z List.getLast?_concat
    rcases List.mem_append.mp hy with hy | hy
    · exact (h.lt_last hy).trans hz
    · rw [List.mem_singleton.mp hy]
      exact hz
  · rw [heq]
    have hz : key z = key x := le_antisymm (hx z (List.mem_append_right _ (List.mem_singleton.mpr rfl))) hle
    exact h.init.concat fun y hy => hz ▸ h.lt_last hy

/-- What is in force after an entry that is not older than the others. -/
theorem upTo_put (hx : ∀ y ∈ xs, key y ≤ key x) :
    upTo key k (put key xs x) = if key x ≤ k then some x else upTo key k xs := by
  obtain ⟨heq, -⟩ | ⟨ys, z, rfl, hle, heq⟩ := put_cases key xs x
  · rw [heq, upTo_concat]
  · rw [heq, upTo_concat, upTo_concat]
    split
    · rfl
    · rename_i hlt
      rw [if_neg fun hz => hlt (hle.trans hz)]

/-- The search that stops at the first entry after `k`. -/
theorem upTo_eq (h : Timeline key xs) :
    upTo key k xs = (xs.takeWhile fun x => key x ≤ k).getLast? := by
  unfold upTo
  congr 1
  induction xs with
  | nil => rfl
  | cons x xs ih =>
      obtain ⟨hx, h⟩ := List.pairwise_cons.mp h
      by_cases hle : key x ≤ k
      · rw [List.filter_cons_of_pos (by rwa [decide_eq_true_iff]),
          List.takeWhile_cons_of_pos (by rwa [decide_eq_true_iff]), ih h]
      · rw [List.filter_cons_of_neg (by rwa [decide_eq_true_iff]),
          List.takeWhile_cons_of_neg (by rwa [decide_eq_true_iff]), List.filter_eq_nil_iff]
        intro y hy hyk
        exact hle ((hx y hy).le.trans (of_decide_eq_true hyk))

end Timeline
