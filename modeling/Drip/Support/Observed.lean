import Mathlib.Order.Defs.PartialOrder
import Drip.Support.Runs

/-!
# Support — Observed

A machine that answers inputs, each of which comes at a time, and what can be told from its answers.

* `Alike t s s'`: no inputs from `t` on are answered differently in `s` and in `s'`.  It is an
  equivalence, and inputs keep it (`Alike.act`).
* `Joint.Step`: two histories of one machine, side by side.  They share inputs, and each may have extra
  ones, on which the other one stays as it is.
* `alike_of_run`: where the extra inputs that leave a state alike are known, the two histories cannot be
  told apart exactly as long as their extra inputs are of this kind.
-/

/-- A machine with states `σ`, inputs `ι`, answers `ω` and times `τ`. -/
structure Machine (σ ι ω τ : Type) where
  act : σ → ι → ω × σ
  time : ι → τ

namespace Machine

variable {σ ι ω τ : Type} {M : Machine σ ι ω τ} {s s' s₁ s₂ : σ} {i : ι} {is : List ι}

/-- The answers to `is`, one after the other. -/
def answers (M : Machine σ ι ω τ) : σ → List ι → List ω
  | _, [] => []
  | s, i :: is => (M.act s i).1 :: M.answers (M.act s i).2 is

variable [Preorder τ] {t t' : τ}

/-- The inputs come in the order of their times, from `t` on. -/
def Timed (M : Machine σ ι ω τ) : τ → List ι → Prop
  | _, [] => True
  | t, i :: is => t ≤ M.time i ∧ M.Timed (M.time i) is

/-- No inputs from `t` on tell the states apart. -/
def Alike (M : Machine σ ι ω τ) (t : τ) (s s' : σ) : Prop :=
  ∀ is, M.Timed t is → M.answers s is = M.answers s' is

theorem Timed.earlier (h : t ≤ t') (hi : M.Timed t' is) : M.Timed t is := by
  cases is with
  | nil => trivial
  | cons i is => exact ⟨le_trans h hi.1, hi.2⟩

theorem Alike.refl (M : Machine σ ι ω τ) (t : τ) (s : σ) : M.Alike t s s := fun _ _ => rfl

theorem Alike.symm (h : M.Alike t s s') : M.Alike t s' s := fun is hi => (h is hi).symm

theorem Alike.trans (h : M.Alike t s s₁) (h' : M.Alike t s₁ s') : M.Alike t s s' :=
  fun is hi => (h is hi).trans (h' is hi)

theorem Alike.later (hle : t ≤ t') (h : M.Alike t s s') : M.Alike t' s s' :=
  fun is hi => h is (hi.earlier hle)

/-- The same input gets the same answer, and leaves the states alike. -/
theorem Alike.act (h : M.Alike t s s') (hi : t ≤ M.time i) :
    (M.act s i).1 = (M.act s' i).1 ∧ M.Alike (M.time i) (M.act s i).2 (M.act s' i).2 := by
  have hcons : ∀ is, M.Timed (M.time i) is →
      (M.act s i).1 :: M.answers (M.act s i).2 is = (M.act s' i).1 :: M.answers (M.act s' i).2 is :=
    fun is his => h (i :: is) ⟨hi, his⟩
  exact ⟨(List.cons.inj (hcons [] trivial)).1, fun is his => (List.cons.inj (hcons is his)).2⟩

/-- An input that is answered differently. -/
theorem not_alike_of_answer (hi : t ≤ M.time i) (h : (M.act s i).1 ≠ (M.act s' i).1) :
    ¬ M.Alike t s s' := fun hs => h (hs.act hi).1

/-! ### Two histories -/

/-- Two histories of one machine, up to a time. -/
structure Joint (σ τ : Type) where
  left : σ
  right : σ
  clock : τ

/-- An input both histories have, or one of them only. -/
inductive Place (ι : Type) where
  | both (i : ι)
  | left (i : ι)
  | right (i : ι)

/-- Only inputs in `extra` come alone. -/
inductive Joint.Step (M : Machine σ ι ω τ) (extra : ι → Prop) :
    Joint σ τ → Place ι → Joint σ τ → Prop where
  | both {p : Joint σ τ} {i : ι} (hi : p.clock ≤ M.time i) :
      Joint.Step M extra p (.both i) ⟨(M.act p.left i).2, (M.act p.right i).2, M.time i⟩
  | left {p : Joint σ τ} {i : ι} (hi : p.clock ≤ M.time i) (he : extra i) :
      Joint.Step M extra p (.left i) ⟨(M.act p.left i).2, p.right, M.time i⟩
  | right {p : Joint σ τ} {i : ι} (hi : p.clock ≤ M.time i) (he : extra i) :
      Joint.Step M extra p (.right i) ⟨p.left, (M.act p.right i).2, M.time i⟩

/-- The two histories are alike from now on. -/
def Joint.IsAlike (M : Machine σ ι ω τ) (p : Joint σ τ) : Prop := M.Alike p.clock p.left p.right

/-- An input that comes alone is quiet where it comes. -/
def Joint.Harmless (quiet : σ → ι → Prop) (p : Joint σ τ) : Place ι → Prop
  | .both _ => True
  | .left i => quiet p.left i
  | .right i => quiet p.right i

variable {extra : ι → Prop} {quiet : σ → ι → Prop} {p q : Joint σ τ} {a : Place ι}
variable {as : List (Place ι)}

/-- One step: alike states stay alike exactly when the input that comes alone is quiet. -/
theorem alike_of_step (hquiet : ∀ s i, extra i → (M.Alike (M.time i) s (M.act s i).2 ↔ quiet s i))
    (h : Joint.Step M extra p a q) (hp : p.IsAlike M) : q.IsAlike M ↔ p.Harmless quiet a := by
  cases h with
  | both hi => exact iff_of_true (hp.act hi).2 trivial
  | left hi he =>
      have hp := hp.later hi
      refine Iff.trans ?_ (hquiet _ _ he)
      exact ⟨fun hq => hp.trans hq.symm, fun hq => hq.symm.trans hp⟩
  | right hi he =>
      have hp := hp.later hi
      refine Iff.trans ?_ (hquiet _ _ he)
      exact ⟨fun hq => hp.symm.trans hq, fun hq => hp.trans hq⟩

/-- Two histories from alike states are alike throughout exactly when all extra inputs are quiet, and
then they are alike at the end. -/
theorem alike_of_run (hquiet : ∀ s i, extra i → (M.Alike (M.time i) s (M.act s i).2 ↔ quiet s i))
    (hp : p.IsAlike M) :
    (Run (fun p a q => Joint.Step M extra p a q ∧ q.IsAlike M) p as q ↔
      Run (fun p a q => Joint.Step M extra p a q ∧ p.Harmless quiet a) p as q) ∧
    (Run (fun p a q => Joint.Step M extra p a q ∧ p.Harmless quiet a) p as q → q.IsAlike M) :=
  Run.keeps_spec (Q := fun _ => True) (fun _ _ _ _ _ => trivial)
    (fun _ _ _ h _ hp => alike_of_step hquiet h hp) trivial hp

end Machine
