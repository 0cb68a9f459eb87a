import Mathlib.Data.List.Nodup

/-!
# Support — Keyed rows

A table that takes no second row under a key it holds: the first row stands.

* `insertNew`, `inserted`: one row offered, and a list of them.
* `inserted_keyed`: the keys of the table stay distinct.
* `inserted_iff`: every row offered is there at the end, if and only if no two of the rows, offered or there
  before, share a key.
-/

namespace Chain

variable {α κ : Type} [DecidableEq κ] {key : α → κ} {rows xs : List α} {x y : α}

/-- `ON CONFLICT (key) DO NOTHING`. -/
def insertNew (key : α → κ) (rows : List α) (x : α) : List α :=
  if ∃ r ∈ rows, key r = key x then rows else rows ++ [x]

def inserted (key : α → κ) (rows xs : List α) : List α := xs.foldl (insertNew key) rows

theorem insertNew_keyed (h : (rows.map key).Nodup) : ((insertNew key rows x).map key).Nodup := by
  unfold insertNew
  split
  · exact h
  · rename_i hnew
    rw [List.map_append, List.nodup_append]
    refine ⟨h, List.nodup_singleton _, fun k hk k' hk' heq => hnew ?_⟩
    obtain ⟨r, hr, rfl⟩ := List.mem_map.mp hk
    obtain rfl := List.mem_singleton.mp hk'
    exact ⟨r, hr, heq⟩

theorem inserted_keyed (h : (rows.map key).Nodup) : ((inserted key rows xs).map key).Nodup := by
  induction xs generalizing rows with
  | nil => exact h
  | cons x xs ih => exact ih (insertNew_keyed h)

theorem mem_insertNew : y ∈ insertNew key rows x → y ∈ rows ∨ y = x := by
  unfold insertNew
  split
  · exact Or.inl
  · intro hy
    simpa using hy

/-- What was there stays. -/
theorem mem_insertNew_of_mem (h : y ∈ rows) : y ∈ insertNew key rows x := by
  unfold insertNew
  split
  · exact h
  · exact List.mem_append_left _ h

theorem mem_inserted_of_mem (h : y ∈ rows) : y ∈ inserted key rows xs := by
  induction xs generalizing rows with
  | nil => exact h
  | cons x xs ih => exact ih (mem_insertNew_of_mem h)

theorem mem_inserted (h : y ∈ inserted key rows xs) : y ∈ rows ∨ y ∈ xs := by
  induction xs generalizing rows with
  | nil => exact .inl h
  | cons x xs ih =>
      rcases ih h with h | h
      · rcases mem_insertNew h with h | rfl
        · exact .inl h
        · exact .inr List.mem_cons_self
      · exact .inr (List.mem_cons_of_mem x h)

/-- The key of every row offered is taken. -/
theorem exists_inserted (h : x ∈ xs) : ∃ y ∈ inserted key rows xs, key y = key x := by
  induction xs generalizing rows with
  | nil => cases h
  | cons z xs ih =>
      rcases List.mem_cons.mp h with rfl | h
      · have htaken : ∃ y ∈ insertNew key rows x, key y = key x := by
          unfold insertNew
          split
          · assumption
          · exact ⟨x, List.mem_append_right _ (List.mem_singleton_self x), rfl⟩
        obtain ⟨y, hy, hk⟩ := htaken
        have hstays : y ∈ inserted key (insertNew key rows x) xs := mem_inserted_of_mem hy
        exact ⟨y, hstays, hk⟩
      · exact ih h

/-- **The first row stands**, so each is there exactly where no other comes before it under its key. -/
theorem inserted_iff (hrows : (rows.map key).Nodup) :
    (∀ x ∈ xs, x ∈ inserted key rows xs) ↔ ∀ x ∈ xs, ∀ y ∈ rows ++ xs, key y = key x → y = x := by
  constructor
  · intro hall x hx y hy hk
    have hyin : y ∈ inserted key rows xs := by
      rcases List.mem_append.mp hy with hy | hy
      · exact mem_inserted_of_mem hy
      · exact hall y hy
    exact List.inj_on_of_nodup_map (inserted_keyed hrows) hyin (hall x hx) hk
  · intro happart x hx
    have hkeyed : ∃ y ∈ inserted key rows xs, key y = key x := exists_inserted hx
    obtain ⟨y, hy, hk⟩ := hkeyed
    obtain rfl := happart x hx y (List.mem_append.mpr (mem_inserted hy)) hk
    exact hy

end Chain
