import Mathlib.Logic.Basic

/-!
# Support — Chain

Computations that return a value or fail, written as a chain of binds.  A check is itself a step
of the chain (`reject`), and so is the unwrapping of an optional value (`okOr`); a program is then
a sequence of binds, and what a successful run did is read off by rewriting with `bind_eq_ok`,
`reject_eq_ok` and `okOr_eq_ok`.

`Alike R x y` relates computations that fail together, in the same way, and `Matched R x y` those that
fail together in whatever way.  `Avoids e x` says that `x` does not fail with
`e`, and `Only p x` that it fails, if at all, in a way that `p` allows.  All of them are shown step
by step along the chain.
-/

namespace Chain

variable {ε α β : Type}

/-- Fail with `e` when `c` holds. -/
def reject (c : Prop) [Decidable c] (e : ε) : Except ε Unit :=
  if c then .error e else .ok ()

/-- The value of `o`, or the failure `e`. -/
def okOr (o : Option α) (e : ε) : Except ε α :=
  match o with
  | some a => .ok a
  | none => .error e

@[simp]
theorem bind_eq_ok {x : Except ε α} {f : α → Except ε β} {b : β} :
    (x >>= f) = .ok b ↔ ∃ a, x = .ok a ∧ f a = .ok b := by
  cases x with
  | error e => exact ⟨nofun, fun ⟨_, h, _⟩ => nomatch h⟩
  | ok a => exact ⟨fun h => ⟨a, rfl, h⟩, fun ⟨_, h, h'⟩ => by cases h; exact h'⟩

@[simp]
theorem reject_eq_ok {c : Prop} [Decidable c] {e : ε} {u : Unit} :
    reject c e = .ok u ↔ ¬ c := by
  unfold reject
  split
  · rename_i h; exact ⟨nofun, fun h' => absurd h h'⟩
  · rename_i h; exact ⟨fun _ => h, fun _ => rfl⟩

@[simp]
theorem okOr_eq_ok {o : Option α} {e : ε} {a : α} : okOr o e = .ok a ↔ o = some a := by
  cases o with
  | none => exact ⟨nofun, nofun⟩
  | some b => simp [okOr]

@[simp]
theorem pure_eq_ok {a b : α} : (pure a : Except ε α) = .ok b ↔ a = b := by
  show (Except.ok a : Except ε α) = .ok b ↔ _
  rw [Except.ok.injEq]

@[simp]
theorem map_eq_ok {x : Except ε α} {f : α → β} {b : β} :
    f <$> x = .ok b ↔ ∃ a, x = .ok a ∧ f a = b := by
  cases x with
  | error e => exact ⟨nofun, fun ⟨_, h, _⟩ => nomatch h⟩
  | ok a =>
      show Except.ok (f a) = .ok b ↔ _
      simp

@[simp]
theorem mapError_eq_ok {ε' : Type} {f : ε → ε'} {x : Except ε α} {a : α} :
    x.mapError f = .ok a ↔ x = .ok a := by
  cases x with
  | error e => exact ⟨nofun, nofun⟩
  | ok b =>
      show Except.ok b = .ok a ↔ _
      rw [Except.ok.injEq, Except.ok.injEq]

@[simp]
theorem toOption_eq_some {x : Except ε α} {a : α} : x.toOption = some a ↔ x = .ok a := by
  cases x with
  | error e => exact ⟨nofun, nofun⟩
  | ok b =>
      show some b = some a ↔ _
      rw [Option.some.injEq, Except.ok.injEq]

/-- A chain whose first step is `.ok a` goes on from `a`. -/
theorem ok_bind (a : α) (f : α → Except ε β) : ((Except.ok a : Except ε α) >>= f) = f a := rfl

theorem bind_of_ok {x : Except ε α} {f : α → Except ε β} {a : α} (h : x = .ok a) :
    (x >>= f) = f a := by
  rw [h]
  rfl

theorem bind_of_error {x : Except ε α} {f : α → Except ε β} {e : ε} (h : x = .error e) :
    (x >>= f) = .error e := by
  rw [h]
  rfl

section

variable {α' β' : Type} {x : Except ε α} {f : α → Except ε β} {h : β → β'}

/-- Where the first step gives the image of its value, and the rest goes on alike, so does the chain. -/
theorem bind_of_map {x' : Except ε α'} {f' : α' → Except ε β'} {g : α → α'} (hx : x' = g <$> x)
    (hf : ∀ a, f' (g a) = h <$> f a) : (x' >>= f') = h <$> (x >>= f) := by
  subst hx
  cases x with
  | error e => rfl
  | ok a => exact hf a

theorem bind_of_same {f' : α → Except ε β'} (hf : ∀ a, f' a = h <$> f a) :
    (x >>= f') = h <$> (x >>= f) := by
  cases x with
  | error e => rfl
  | ok a => exact hf a

end

/-! ### Two computations alike -/

/-- Both fail, in the same way, or both succeed, with values that `R` relates. -/
inductive Alike (R : α → β → Prop) : Except ε α → Except ε β → Prop where
  | error (e : ε) : Alike R (.error e) (.error e)
  | ok {a : α} {b : β} (h : R a b) : Alike R (.ok a) (.ok b)

section

variable {α' β' : Type} {R : α → β → Prop} {R' : α' → β' → Prop} {x : Except ε α} {y : Except ε β}

theorem alike_bind {f : α → Except ε α'} {g : β → Except ε β'} (hxy : Alike R x y)
    (hfg : ∀ a b, R a b → Alike R' (f a) (g b)) : Alike R' (x >>= f) (y >>= g) := by
  cases hxy with
  | error e => exact .error e
  | ok h => exact hfg _ _ h

/-- A check that both run. -/
theorem alike_reject {c : Prop} [Decidable c] {e : ε} {f : Unit → Except ε α} {g : Unit → Except ε β}
    (h : ¬ c → Alike R (f ()) (g ())) : Alike R (reject c e >>= f) (reject c e >>= g) := by
  unfold reject
  split
  · exact .error e
  · rename_i hc
    exact h hc

/-- What every success of the second brings about. -/
theorem alike_right {Q : β → Prop} (h : Alike R x y) (hQ : ∀ b, y = .ok b → Q b) :
    Alike (fun _ b => Q b) x y := by
  cases h with
  | error e => exact .error e
  | ok h => exact .ok (hQ _ rfl)

/-- One more step of the second, which does not fail. -/
theorem alike_then {g : β → Except ε β'} (h : Alike R x y) (hg : ∀ b, ∃ b', g b = .ok b') :
    Alike (fun _ _ => True) x (y >>= g) := by
  cases h with
  | error e => exact .error e
  | ok h =>
      obtain ⟨b', hb'⟩ := hg _
      rw [ok_bind, hb']
      exact .ok trivial

theorem alike_of_map {f : α → β} (hf : ∀ a, x = .ok a → R a (f a)) : Alike R x (f <$> x) := by
  cases x with
  | error e => exact .error e
  | ok a => exact .ok (hf a rfl)

theorem alike_refl {R : α → α → Prop} (h : ∀ a, R a a) : Alike R x x := by
  cases x with
  | error e => exact .error e
  | ok a => exact .ok (h a)

end

/-- Both fail, or both succeed, with values that `R` relates. -/
inductive Matched (R : α → β → Prop) : Except ε α → Except ε β → Prop where
  | error (e e' : ε) : Matched R (.error e) (.error e')
  | ok {a : α} {b : β} (h : R a b) : Matched R (.ok a) (.ok b)

section

variable {α' β' : Type} {R : α → β → Prop} {R' : α' → β' → Prop} {x : Except ε α} {y : Except ε β}

theorem Alike.matched (h : Alike R x y) : Matched R x y := by
  cases h with
  | error e => exact .error e e
  | ok h => exact .ok h

theorem matched_bind {f : α → Except ε α'} {g : β → Except ε β'} (hxy : Matched R x y)
    (hfg : ∀ a b, x = .ok a → y = .ok b → R a b → Matched R' (f a) (g b)) :
    Matched R' (x >>= f) (y >>= g) := by
  cases hxy with
  | error e e' => exact .error e e'
  | ok h => exact hfg _ _ rfl rfl h

/-- Where one succeeds exactly when the other does. -/
theorem matched_of_iff (hiff : (∃ a, x = .ok a) ↔ ∃ b, y = .ok b)
    (hR : ∀ a b, x = .ok a → y = .ok b → R a b) : Matched R x y := by
  cases x with
  | error e =>
      cases y with
      | error e' => exact .error e e'
      | ok b =>
          obtain ⟨a, ha⟩ := hiff.mpr ⟨b, rfl⟩
          cases ha
  | ok a =>
      obtain ⟨b, rfl⟩ := hiff.mp ⟨a, rfl⟩
      exact .ok (hR a b rfl rfl)

theorem matched_of_isOk (h : x.isOk = y.isOk) : Matched (fun _ _ => True) x y := by
  cases x with
  | error e =>
      cases y with
      | error e' => exact .error e e'
      | ok b => cases h
  | ok a =>
      cases y with
      | error e' => cases h
      | ok b => exact .ok trivial

end

theorem exists_of_isOk {x : Except ε α} (h : x.isOk = true) : ∃ a, x = .ok a := by
  cases x with
  | error e => cases h
  | ok a => exact ⟨a, rfl⟩

theorem reject_of {c : Prop} [Decidable c] (e : ε) (h : c) : reject c e = .error e := if_pos h

/-- A list is mapped where each of its elements is. -/
theorem exists_mapM {f : α → Except ε β} {xs : List α} :
    (∃ ys, xs.mapM f = .ok ys) ↔ ∀ x ∈ xs, ∃ y, f x = .ok y := by
  induction xs with
  | nil => exact iff_of_true ⟨[], rfl⟩ (List.forall_mem_nil _)
  | cons x xs ih =>
      simp only [List.mapM_cons, bind_eq_ok, pure_eq_ok, List.forall_mem_cons, ← ih]
      constructor
      · rintro ⟨_, y, hy, ys, hys, -⟩
        exact ⟨⟨y, hy⟩, ys, hys⟩
      · rintro ⟨⟨y, hy⟩, ys, hys⟩
        exact ⟨_, y, hy, ys, hys, rfl⟩

/-- In a loop that does not fail, no turn fails. -/
theorem turn_of_foldlM {f : β → α → Except ε β} {xs : List α} {b b' : β}
    (h : xs.foldlM f b = .ok b') {x : α} (hx : x ∈ xs) : ∃ b₁ b₂, f b₁ x = .ok b₂ := by
  induction xs generalizing b with
  | nil => cases hx
  | cons y ys ih =>
      rw [List.foldlM_cons, bind_eq_ok] at h
      obtain ⟨b₁, hy, h⟩ := h
      cases hx with
      | head => exact ⟨b, b₁, hy⟩
      | tail _ hx => exact ih h hx

/-- What each turn of a loop keeps, the loop keeps. -/
theorem foldlM_invariant {P : β → Prop} {f : β → α → Except ε β} {xs : List α} {b b' : β}
    (hturn : ∀ x ∈ xs, ∀ b b', f b x = .ok b' → P b → P b') (h : xs.foldlM f b = .ok b')
    (hb : P b) : P b' := by
  induction xs generalizing b with
  | nil =>
      cases h
      exact hb
  | cons x xs ih =>
      rw [List.foldlM_cons, bind_eq_ok] at h
      obtain ⟨b₁, hx, h⟩ := h
      exact ih (fun y hy => hturn y (List.mem_cons_of_mem x hy)) h
        (hturn x List.mem_cons_self b b₁ hx hb)

/-- Two loops whose turns agree where `I` holds. -/
theorem foldlM_congr {I : β → Prop} {f g : β → α → Except ε β} {xs : List α} {b : β}
    (hkeep : ∀ x ∈ xs, ∀ b b', f b x = .ok b' → I b → I b')
    (hturn : ∀ x ∈ xs, ∀ b, I b → f b x = g b x) (hb : I b) : xs.foldlM f b = xs.foldlM g b := by
  induction xs generalizing b with
  | nil => rfl
  | cons x xs ih =>
      rw [List.foldlM_cons, List.foldlM_cons, ← hturn x List.mem_cons_self b hb]
      cases hx : f b x with
      | error e => rfl
      | ok b₁ =>
          exact ih (fun y hy => hkeep y (List.mem_cons_of_mem x hy))
            (fun y hy => hturn y (List.mem_cons_of_mem x hy)) (hkeep x List.mem_cons_self b b₁ hx hb)

/-- A loop follows another whose turns it can follow. -/
theorem foldlM_simulates {γ : Type} {R : β → γ → Prop} {f : β → α → Except ε β}
    {g : γ → α → Except ε γ} {xs : List α} {b b' : β} {c : γ}
    (hturn : ∀ x b b' c, R b c → f b x = .ok b' → ∃ c', g c x = .ok c' ∧ R b' c')
    (hbc : R b c) (h : xs.foldlM f b = .ok b') : ∃ c', xs.foldlM g c = .ok c' ∧ R b' c' := by
  induction xs generalizing b c with
  | nil =>
      cases h
      exact ⟨c, rfl, hbc⟩
  | cons x xs ih =>
      rw [List.foldlM_cons, bind_eq_ok] at h
      obtain ⟨b₁, hx, h⟩ := h
      obtain ⟨c₁, hc₁, hbc₁⟩ := hturn x b b₁ c hbc hx
      obtain ⟨c', hc', hbc'⟩ := ih hbc₁ h
      refine ⟨c', ?_, hbc'⟩
      rw [List.foldlM_cons, hc₁]
      exact hc'

/-- What each turn brings about for its element, and the later turns keep. -/
theorem foldlM_forall {Q : α → β → Prop} {f : β → α → Except ε β} {xs : List α} {b b' : β}
    (hturn : ∀ x b b', f b x = .ok b' → Q x b') (hkeep : ∀ x y b b', f b y = .ok b' → Q x b → Q x b')
    (h : xs.foldlM f b = .ok b') : ∀ x ∈ xs, Q x b' := by
  induction xs generalizing b with
  | nil => exact fun x hx => absurd hx List.not_mem_nil
  | cons y ys ih =>
      rw [List.foldlM_cons, bind_eq_ok] at h
      obtain ⟨b₁, hy, h⟩ := h
      intro x hx
      rcases List.mem_cons.mp hx with rfl | hx
      · exact foldlM_invariant (P := Q x) (fun z _ b b' => hkeep x z b b') h (hturn x b b₁ hy)
      · exact ih h x hx

/-! ### Failures that do not happen -/

/-- `x` does not fail with `e`. -/
def Avoids (e : ε) (x : Except ε α) : Prop := x ≠ .error e

variable {e e' : ε}

theorem avoids_ok (a : α) : Avoids e (.ok a : Except ε α) := nofun

theorem avoids_bind {x : Except ε α} {f : α → Except ε β} (hx : Avoids e x)
    (hf : ∀ a, x = .ok a → Avoids e (f a)) : Avoids e (x >>= f) := by
  cases x with
  | error e' => exact fun h => hx (by cases h; rfl)
  | ok a => exact hf a rfl

/-- A check that fails with `e` only where it passes. -/
theorem avoids_reject {c : Prop} [Decidable c] (h : c → e' ≠ e) : Avoids e (reject c e') := by
  unfold reject
  split
  · rename_i hc
    exact fun he => h hc (by cases he; rfl)
  · exact avoids_ok ()

theorem avoids_okOr {o : Option α} (h : e' ≠ e) : Avoids e (okOr o e') := by
  cases o with
  | none => exact fun he => h (by cases he; rfl)
  | some a => exact avoids_ok a

theorem avoids_foldlM {f : β → α → Except ε β} (h : ∀ b x, Avoids e (f b x)) (xs : List α) (b : β) :
    Avoids e (xs.foldlM f b) := by
  induction xs generalizing b with
  | nil => exact avoids_ok b
  | cons x xs ih =>
      rw [List.foldlM_cons]
      exact avoids_bind (h b x) fun b' _ => ih b'

/-! ### Failures that may happen -/

/-- `x` fails, if at all, in a way that `p` allows. -/
def Only (p : ε → Prop) (x : Except ε α) : Prop := ∀ e, x = .error e → p e

variable {p : ε → Prop}

theorem only_ok (a : α) : Only p (.ok a : Except ε α) := fun _ h => by cases h

theorem only_bind {x : Except ε α} {f : α → Except ε β} (hx : Only p x)
    (hf : ∀ a, x = .ok a → Only p (f a)) : Only p (x >>= f) := by
  cases x with
  | error e => exact fun e' h => hx e' (by cases h; rfl)
  | ok a => exact hf a rfl

theorem only_reject {c : Prop} [Decidable c] (h : c → p e) : Only p (reject c e) := by
  unfold reject
  split
  · rename_i hc
    exact fun e' he => by cases he; exact h hc
  · exact only_ok ()

theorem only_okOr {o : Option α} (h : o = none → p e) : Only p (okOr o e) := by
  cases o with
  | none => exact fun e' he => by cases he; exact h rfl
  | some a => exact only_ok a

theorem only_foldlM {f : β → α → Except ε β} (h : ∀ b x, Only p (f b x)) (xs : List α) (b : β) :
    Only p (xs.foldlM f b) := by
  induction xs generalizing b with
  | nil => exact only_ok b
  | cons x xs ih =>
      rw [List.foldlM_cons]
      exact only_bind (h b x) fun b' _ => ih b'

end Chain
