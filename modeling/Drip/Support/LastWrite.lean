import Mathlib.Data.List.Induction
import Mathlib.Logic.Function.Basic
import Drip.Support.Chain

/-!
# Support — Last write

What a loop leaves behind that writes to cells over and over: the last write stands.

* `lastOf rel xs`: the last element of `xs` that `rel` holds of.
* `foldlM_last`: what such an element brings about, and only another such element undoes, holds at the end.
* `writes`: a table written entry by entry; `writes_writes`: to write the same entries again changes
  nothing.
-/

namespace Chain

variable {ε α β κ γ : Type} {rel : α → Prop} [DecidablePred rel] {xs : List α} {x y : α}

/-- The last element that `rel` holds of. -/
def lastOf (rel : α → Prop) [DecidablePred rel] (xs : List α) : Option α := (xs.filter rel).getLast?

@[simp]
theorem lastOf_nil : lastOf rel [] = none := rfl

theorem lastOf_snoc : lastOf rel (xs ++ [x]) = if rel x then some x else lastOf rel xs := by
  unfold lastOf
  rw [List.filter_append]
  by_cases h : rel x
  · simp [h]
  · simp [h]

theorem lastOf_eq_none : lastOf rel xs = none ↔ ∀ x ∈ xs, ¬ rel x := by
  simp [lastOf]

theorem lastOf_mem (h : lastOf rel xs = some x) : x ∈ xs ∧ rel x := by
  have hmem := List.mem_of_getLast? h
  simpa using hmem

theorem exists_lastOf (hx : x ∈ xs) (h : rel x) : ∃ y, lastOf rel xs = some y := by
  cases hl : lastOf rel xs with
  | none => exact absurd h (lastOf_eq_none.mp hl x hx)
  | some y => exact ⟨y, rfl⟩

/-- What each element that `rel` holds of brings about, and the others keep, holds of the last one. -/
theorem foldlM_last {R : α → β → Prop} {f : β → α → Except ε β} {b b' : β}
    (hwrite : ∀ b b' x, rel x → f b x = .ok b' → R x b')
    (hkeep : ∀ b b' x y, rel x → ¬ rel y → f b y = .ok b' → R x b → R x b')
    (h : xs.foldlM f b = .ok b') (hx : lastOf rel xs = some x) : R x b' := by
  induction xs using List.reverseRecOn generalizing b' with
  | nil => cases hx
  | append_singleton xs y ih =>
      rw [List.foldlM_append, bind_eq_ok] at h
      obtain ⟨b₁, h₁, h⟩ := h
      rw [List.foldlM_cons, bind_eq_ok] at h
      obtain ⟨b₂, h₂, h⟩ := h
      cases h
      rw [lastOf_snoc] at hx
      by_cases hy : rel y
      · rw [if_pos hy] at hx
        cases hx
        exact hwrite b₁ b' x hy h₂
      · rw [if_neg hy] at hx
        exact hkeep b₁ b' x y (lastOf_mem hx).2 hy h₂ (ih h₁ hx)

/-- A loop whose turns all go through. -/
theorem exists_foldlM {P : β → Prop} {f : β → α → Except ε β} {b : β}
    (hturn : ∀ x ∈ xs, ∀ b, P b → ∃ b', f b x = .ok b' ∧ P b') (hb : P b) :
    ∃ b', xs.foldlM f b = .ok b' ∧ P b' := by
  induction xs generalizing b with
  | nil => exact ⟨b, rfl, hb⟩
  | cons x xs ih =>
      obtain ⟨b₁, h₁, hb₁⟩ := hturn x List.mem_cons_self b hb
      obtain ⟨b', h', hb'⟩ := ih (fun y hy => hturn y (List.mem_cons_of_mem x hy)) hb₁
      refine ⟨b', ?_, hb'⟩
      rw [List.foldlM_cons, h₁]
      exact h'

/-! ### Tables -/

variable [DecidableEq κ] {table : κ → Option γ} {k : κ} {entries : List (κ × γ)}

/-- The entries written to the table, one after the other. -/
def writes (table : κ → Option γ) (entries : List (κ × γ)) : κ → Option γ :=
  entries.foldl (fun t x => Function.update t x.1 (some x.2)) table

theorem writes_snoc (x : κ × γ) :
    writes table (entries ++ [x]) = Function.update (writes table entries) x.1 (some x.2) := by
  unfold writes
  rw [List.foldl_append]
  rfl

theorem writes_append {others : List (κ × γ)} :
    writes table (entries ++ others) = writes (writes table entries) others := List.foldl_append

theorem writes_apply : writes table entries k =
    ((lastOf (fun x => x.1 = k) entries).map Prod.snd).or (table k) := by
  induction entries using List.reverseRecOn with
  | nil => rfl
  | append_singleton entries x ih =>
      rw [writes_snoc, lastOf_snoc]
      by_cases hk : x.1 = k
      · rw [if_pos hk, ← hk, Function.update_self]
        rfl
      · rw [if_neg hk, Function.update_of_ne (Ne.symm hk), ih]

/-- **To write the same entries again changes nothing.** -/
theorem writes_writes : writes (writes table entries) entries = writes table entries := by
  funext k
  rw [writes_apply, writes_apply]
  cases lastOf (fun x : κ × γ => x.1 = k) entries with
  | none => rfl
  | some x => rfl

/-- Every entry is there at the end exactly where no two entries differ under one key. -/
theorem writes_iff : (∀ x ∈ entries, writes table entries x.1 = some x.2) ↔
    ∀ x ∈ entries, ∀ y ∈ entries, x.1 = y.1 → x.2 = y.2 := by
  constructor
  · intro hall x hx y hy hk
    have hxy := hall y hy
    rw [← hk, hall x hx] at hxy
    exact Option.some.inj hxy
  · intro hsame x hx
    obtain ⟨y, hy⟩ : ∃ y, lastOf (fun y : κ × γ => y.1 = x.1) entries = some y := exists_lastOf hx rfl
    obtain ⟨hmem, hk⟩ := lastOf_mem hy
    rw [writes_apply, hy, hsame x hx y hmem hk.symm]
    rfl

end Chain
