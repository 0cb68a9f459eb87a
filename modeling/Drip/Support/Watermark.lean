import Mathlib.Data.List.Basic
import Mathlib.Order.Lattice

/-!
# Support — Watermark

A list in the order of a key, read page by page by a reader that remembers a key only: what it has
`reached` are the entries up to that key, what is `pending` are the others.

* `reached_append_pending`: nothing falls between the two.
* `reached_page_iff`: a reader that moves on to the last key of a page has reached what it read
  exactly if the page leaves out no entry with that key.
* `rising`: the entries that a reader counts who passes over those at or below its mark.
-/

namespace Watermark

variable {α κ : Type} [LinearOrder κ] {key : α → κ} {xs ys page : List α} {c d : κ}

/-- The keys of `xs` never decrease. -/
def Ordered (key : α → κ) (xs : List α) : Prop := xs.Pairwise fun x y => key x ≤ key y

/-- The entries with a key of at most `c`. -/
def reached (key : α → κ) (c : κ) (xs : List α) : List α := xs.filter fun x => key x ≤ c

/-- The entries with a key above `c`. -/
def pending (key : α → κ) (c : κ) (xs : List α) : List α := xs.filter fun x => c < key x

/-- The entries with the key `c`. -/
def withKey (key : α → κ) (c : κ) (xs : List α) : List α := xs.filter fun x => key x = c

theorem mem_reached {x : α} : x ∈ reached key c xs ↔ x ∈ xs ∧ key x ≤ c := by
  simp [reached]

theorem mem_pending {x : α} : x ∈ pending key c xs ↔ x ∈ xs ∧ c < key x := by
  simp [pending]

theorem reached_append : reached key c (xs ++ ys) = reached key c xs ++ reached key c ys :=
  List.filter_append xs ys

theorem pending_append : pending key c (xs ++ ys) = pending key c xs ++ pending key c ys :=
  List.filter_append xs ys

theorem withKey_append : withKey key c (xs ++ ys) = withKey key c xs ++ withKey key c ys :=
  List.filter_append xs ys

theorem reached_eq_self (h : ∀ x ∈ xs, key x ≤ c) : reached key c xs = xs :=
  List.filter_eq_self.mpr fun x hx => decide_eq_true (h x hx)

theorem reached_eq_nil (h : ∀ x ∈ xs, c < key x) : reached key c xs = [] :=
  List.filter_eq_nil_iff.mpr fun x hx => by simpa using h x hx

theorem withKey_eq_nil (h : ∀ x ∈ xs, key x < c) : withKey key c xs = [] :=
  List.filter_eq_nil_iff.mpr fun x hx => by simpa using (h x hx).ne

/-- An ordered list is what it has reached, and then what is pending. -/
theorem reached_append_pending (h : Ordered key xs) : reached key c xs ++ pending key c xs = xs := by
  induction xs with
  | nil => rfl
  | cons x xs ih =>
      obtain ⟨hx, hxs⟩ := List.pairwise_cons.mp h
      by_cases hle : key x ≤ c
      · simpa [reached, pending, hle] using ih hxs
      · have hall : ∀ y ∈ x :: xs, c < key y := by
          intro y hy
          rcases List.mem_cons.mp hy with rfl | hy
          · exact not_le.mp hle
          · exact (not_le.mp hle).trans_le (hx y hy)
        have hpending : pending key c (x :: xs) = x :: xs :=
          List.filter_eq_self.mpr fun y hy => decide_eq_true (hall y hy)
        rw [reached_eq_nil hall, hpending, List.nil_append]

/-- Nothing is pending: all is reached. -/
theorem reached_eq_of_pending (h : pending key c xs = []) : reached key c xs = xs := by
  refine reached_eq_self fun x hx => ?_
  by_contra hlt
  have hmem : x ∈ pending key c xs := mem_pending.mpr ⟨hx, not_le.mp hlt⟩
  rw [h] at hmem
  cases hmem

/-- The greatest key of a page. -/
def IsLast (key : α → κ) (page : List α) (d : κ) : Prop :=
  (∃ x ∈ page, key x = d) ∧ ∀ x ∈ page, key x ≤ d

theorem reached_page_iff (h : Ordered key xs) (hpage : page <+: pending key c xs)
    (hlast : IsLast key page d) :
    reached key d xs = reached key c xs ++ page ↔
      (withKey key d xs).length = (withKey key d page).length := by
  obtain ⟨rest, hrest⟩ := hpage
  obtain ⟨⟨x, hx, hxd⟩, hle⟩ := hlast
  have hcd : c < d := by
    have hmem : x ∈ pending key c xs := hrest ▸ List.mem_append_left rest hx
    exact hxd ▸ (mem_pending.mp hmem).2
  have hsplit : xs = reached key c xs ++ (page ++ rest) := by
    rw [hrest, reached_append_pending h]
  -- the entries after the page are not before its last key
  have hafter : ∀ y ∈ rest, d ≤ key y := by
    intro y hy
    have hordered := h
    rw [hsplit] at hordered
    have hpending := (List.pairwise_append.mp hordered).2.1
    exact hxd ▸ (List.pairwise_append.mp hpending).2.2 x hx y hy
  have hbefore : ∀ y ∈ reached key c xs, key y < d := fun y hy => (mem_reached.mp hy).2.trans_lt hcd
  have hreached : reached key d xs = reached key c xs ++ page ++ withKey key d rest := by
    conv_lhs => rw [hsplit]
    rw [reached_append, reached_append, reached_eq_self fun y hy => (hbefore y hy).le,
      reached_eq_self hle, List.append_assoc]
    congr 2
    refine List.filter_congr fun y hy => ?_
    exact decide_eq_decide.mpr ⟨fun hyd => le_antisymm hyd (hafter y hy), fun hyd => hyd.le⟩
  have hwith : withKey key d xs = withKey key d page ++ withKey key d rest := by
    conv_lhs => rw [hsplit]
    rw [withKey_append, withKey_append, withKey_eq_nil hbefore, List.nil_append]
  rw [hreached, hwith, List.length_append]
  constructor
  · intro heq
    have hnil : withKey key d rest = [] := List.self_eq_append_right.mp heq.symm
    rw [hnil]
    rfl
  · intro hlen
    have hnil : withKey key d rest = [] := List.length_eq_zero_iff.mp (by omega)
    rw [hnil, List.append_nil]

/-! ### Entries above all before them -/

/-- The entries with a key above the keys of all entries before them, and above `c` if there is one. -/
def rising (key : α → κ) : Option κ → List α → List α
  | _, [] => []
  | c, x :: xs =>
      if ∀ d ∈ c, d < key x then x :: rising key (some (key x)) xs else rising key c xs

theorem rising_none {x : α} : rising key none (x :: xs) = x :: rising key (some (key x)) xs :=
  if_pos nofun

theorem rising_of_lt {x : α} (h : c < key x) :
    rising key (some c) (x :: xs) = x :: rising key (some (key x)) xs :=
  if_pos fun _ hd => Option.mem_some_iff.mp hd ▸ h

theorem rising_of_le {x : α} (h : key x ≤ c) : rising key (some c) (x :: xs) = rising key (some c) xs :=
  if_neg fun hlt => absurd (hlt c rfl) (not_lt.mpr h)

theorem mem_of_rising {c : Option κ} {x : α} (h : x ∈ rising key c xs) : x ∈ xs := by
  induction xs generalizing c with
  | nil => cases h
  | cons y xs ih =>
      unfold rising at h
      split at h
      · rcases List.mem_cons.mp h with rfl | h
        · exact List.mem_cons_self
        · exact List.mem_cons_of_mem y (ih h)
      · exact List.mem_cons_of_mem y (ih h)

end Watermark
