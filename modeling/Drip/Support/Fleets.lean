import Mathlib.Logic.Function.Basic
import Drip.Support.Runs

/-!
# Support — Fleets

Processes over a state that they share, and a lock that each of them takes when it starts and keeps until
it ends; where the lock is held already, a process ends at once.  A lock can be lost: its session ends
before the process does.

* `exclusive_of_run`: as long as no lock is lost, only the holder runs.
* `follows`: the fleet then does what a single process does that starts over from time to time.
* `rely`: what every turn keeps, for the process that takes it and for those beside it, holds in any run.
-/

namespace Fleet

/-- How a process starts, when it may end, what it does in a turn, alone or beside others, and what goes on
outside. -/
structure Program (σ π α ε : Type) where
  start : π
  Done : π → Prop
  Turn : σ → π → α → σ → π → Prop
  Beside : σ → π → α → σ → π → Prop
  Outside : σ → ε → σ → Prop

/-- The shared state, who holds the lock, and who runs. -/
structure Crew (ω σ π : Type) where
  shared : σ
  holder : Option ω
  procs : ω → Option π

inductive Move (ω α ε : Type) where
  | enter (w : ω)
  | refused (w : ω)
  | turn (w : ω) (a : α)
  | leave (w : ω)
  | die (w : ω)
  | lose (w : ω)
  | outside (e : ε)

variable {ω σ π α ε : Type} {prog : Program σ π α ε}
variable {f f' : Crew ω σ π} {ms : List (Move ω α ε)} {m : Move ω α ε}

/-- Nobody else runs. -/
def Crew.Alone (f : Crew ω σ π) (w : ω) : Prop := ∀ u, u ≠ w → f.procs u = none

/-- Nobody runs yet. -/
def Crew.off (s : σ) : Crew ω σ π where
  shared := s
  holder := none
  procs := fun _ => none

/-- Who holds the lock runs, and nobody else does. -/
def Crew.Exclusive (f : Crew ω σ π) : Prop := ∀ w, (f.procs w).isSome = true ↔ f.holder = some w

theorem exclusive_off (s : σ) : (Crew.off s : Crew ω σ π).Exclusive :=
  fun _ => iff_of_false Bool.false_ne_true (Option.some_ne_none _ ∘ Eq.symm)

theorem Crew.Exclusive.holds (h : f.Exclusive) {w : ω} {p : π} (hon : f.procs w = some p) :
    f.holder = some w := (h w).mp (Option.isSome_iff_exists.mpr ⟨p, hon⟩)

theorem Crew.Exclusive.alone (h : f.Exclusive) {w : ω} {p : π} (hon : f.procs w = some p) :
    f.Alone w := by
  intro u hne
  by_contra hu
  have hholder := (h u).mp (Option.isSome_iff_ne_none.mpr hu)
  exact hne (Option.some.inj (hholder.symm.trans (h.holds hon)))

/-- The one process that runs, or the next one. -/
def Crew.only (prog : Program σ π α ε) (f : Crew ω σ π) : σ × π :=
  (f.shared, (f.holder.bind f.procs).getD prog.start)

theorem Crew.Exclusive.only_eq (h : f.Exclusive) {w : ω} {p : π} (hon : f.procs w = some p) :
    f.only prog = (f.shared, p) := by
  unfold Crew.only
  rw [h.holds hon, Option.bind_some, hon, Option.getD_some]

section

variable [DecidableEq ω]

/-- The end of a process: of its lock too, if it has it. -/
def Crew.ended (f : Crew ω σ π) (w : ω) : Crew ω σ π where
  shared := f.shared
  holder := if f.holder = some w then none else f.holder
  procs := Function.update f.procs w none

inductive Step (prog : Program σ π α ε) : Crew ω σ π → Move ω α ε → Crew ω σ π → Prop where
  | enter {f : Crew ω σ π} {w : ω} (hoff : f.procs w = none) (hfree : f.holder = none) :
      Step prog f (.enter w)
        { f with holder := some w, procs := Function.update f.procs w (some prog.start) }
  | refused {f : Crew ω σ π} {w : ω} (hoff : f.procs w = none) (hheld : f.holder ≠ none) :
      Step prog f (.refused w) f
  | turn {f : Crew ω σ π} {w : ω} {a : α} {p p' : π} {s' : σ} (hon : f.procs w = some p)
      (halone : f.Alone w → prog.Turn f.shared p a s' p')
      (hbeside : ¬ f.Alone w → prog.Beside f.shared p a s' p') :
      Step prog f (.turn w a)
        { f with shared := s', procs := Function.update f.procs w (some p') }
  | leave {f : Crew ω σ π} {w : ω} {p : π} (hon : f.procs w = some p) (hdone : prog.Done p) :
      Step prog f (.leave w) (f.ended w)
  | die {f : Crew ω σ π} {w : ω} {p : π} (hon : f.procs w = some p) :
      Step prog f (.die w) (f.ended w)
  | lose {f : Crew ω σ π} {w : ω} (hheld : f.holder = some w) :
      Step prog f (.lose w) { f with holder := none }
  | outside {f : Crew ω σ π} {e : ε} {s' : σ} (h : prog.Outside f.shared e s') :
      Step prog f (.outside e) { f with shared := s' }

theorem step_alone {w : ω} {a : α} {p p' : π} {s' : σ} (hon : f.procs w = some p) (halone : f.Alone w)
    (h : prog.Turn f.shared p a s' p') :
    Step prog f (.turn w a) { f with shared := s', procs := Function.update f.procs w (some p') } :=
  .turn hon (fun _ => h) fun hnot => absurd halone hnot

theorem step_beside {u w : ω} {a : α} {p p' : π} {s' : σ} (hon : f.procs w = some p) (hne : u ≠ w)
    (hu : f.procs u ≠ none) (h : prog.Beside f.shared p a s' p') :
    Step prog f (.turn w a) { f with shared := s', procs := Function.update f.procs w (some p') } :=
  .turn hon (fun halone => absurd (halone u hne) hu) fun _ => h

/-! ### While no lock is lost -/

def Move.Loses : Move ω α ε → Prop
  | .lose _ => True
  | _ => False

theorem Crew.Exclusive.ended (h : f.Exclusive) {w : ω} {p : π} (hon : f.procs w = some p) :
    (f.ended w).Exclusive := by
  intro u
  have hnone : (f.ended w).holder = none := if_pos (h.holds hon)
  rw [hnone]
  refine iff_of_false (fun hu => ?_) (Option.some_ne_none u ∘ Eq.symm)
  unfold Crew.ended at hu
  dsimp only at hu
  by_cases hne : u = w
  · rw [hne, Function.update_self] at hu
    cases hu
  · rw [Function.update_of_ne hne, h.alone hon u hne] at hu
    cases hu

theorem exclusive_of_step (h : Step prog f m f') (hm : ¬ m.Loses) (hf : f.Exclusive) : f'.Exclusive := by
  cases h with
  | @enter w hoff hfree =>
      intro u
      dsimp only
      by_cases hne : u = w
      · rw [hne, Function.update_self]
        exact iff_of_true rfl rfl
      · rw [Function.update_of_ne hne, hf u, hfree]
        exact iff_of_false (Option.some_ne_none u ∘ Eq.symm) fun heq => hne (Option.some.inj heq).symm
  | refused _ _ => exact hf
  | @turn w a p p' s' hon _ _ =>
      intro u
      dsimp only
      by_cases hne : u = w
      · rw [hne, Function.update_self]
        exact iff_of_true rfl (hf.holds hon)
      · rw [Function.update_of_ne hne]
        exact hf u
  | leave hon _ => exact hf.ended hon
  | die hon => exact hf.ended hon
  | lose _ => exact absurd trivial hm
  | outside _ => exact hf

theorem exclusive_of_run (h : Run (fun f m f' => Step prog f m f' ∧ ¬ m.Loses) f ms f')
    (hf : f.Exclusive) : f'.Exclusive :=
  h.invariant (fun {_ _ _} _ hstep hf => exclusive_of_step hstep.1 hstep.2 hf) hf

/-! ### A single process -/

inductive Single (α ε : Type) where
  | turn (a : α)
  /-- the process ends, and starts over -/
  | restart
  | outside (e : ε)

/-- The turns that are taken are `ok`. -/
def Crew.Ok (ok : σ → π → α → Prop) (f : Crew ω σ π) : Move ω α ε → Prop
  | .turn w a => ∀ p ∈ f.procs w, ok f.shared p a
  | _ => True

/-- The same, for a single process. -/
def Single.Ok (ok : σ → π → α → Prop) (x : σ × π) : Single α ε → Prop
  | .turn a => ok x.1 x.2 a
  | _ => True

inductive Program.Goes (prog : Program σ π α ε) : σ × π → Single α ε → σ × π → Prop where
  | turn {s s' : σ} {p p' : π} {a : α} (h : prog.Turn s p a s' p') : prog.Goes (s, p) (.turn a) (s', p')
  | restart {s : σ} {p : π} : prog.Goes (s, p) .restart (s, prog.start)
  | outside {s s' : σ} {p : π} {e : ε} (h : prog.Outside s e s') : prog.Goes (s, p) (.outside e) (s', p)

/-- What of a move a single process notices. -/
def Move.single : Move ω α ε → Option (Single α ε)
  | .enter _ | .refused _ | .lose _ => none
  | .turn _ a => some (.turn a)
  | .leave _ | .die _ => some .restart
  | .outside e => some (.outside e)

theorem Crew.Exclusive.only_ended (h : f.Exclusive) {w : ω} {p : π} (hon : f.procs w = some p) :
    (f.ended w).only prog = (f.shared, prog.start) := by
  have hnone : (f.ended w).holder = none := if_pos (h.holds hon)
  unfold Crew.only
  rw [hnone, Option.bind_none, Option.getD_none]
  rfl

theorem goes_of_step {b : Single α ε} (h : Step prog f m f') (hb : m.single = some b)
    (hf : f.Exclusive) : prog.Goes (f.only prog) b (f'.only prog) := by
  cases h with
  | enter _ _ | refused _ _ | lose _ => cases hb
  | @turn w a p p' s' hon halone _ =>
      obtain rfl := Option.some.inj hb
      have hturn := halone (hf.alone hon)
      rw [hf.only_eq hon]
      unfold Crew.only
      dsimp only
      rw [hf.holds hon, Option.bind_some, Function.update_self, Option.getD_some]
      exact .turn hturn
  | leave hon _ =>
      obtain rfl := Option.some.inj hb
      rw [hf.only_eq hon, hf.only_ended hon]
      exact .restart
  | die hon =>
      obtain rfl := Option.some.inj hb
      rw [hf.only_eq hon, hf.only_ended hon]
      exact .restart
  | outside h =>
      obtain rfl := Option.some.inj hb
      exact .outside h

theorem only_of_step (h : Step prog f m f') (hb : m.single = none) (hm : ¬ m.Loses) :
    f'.only prog = f.only prog := by
  cases h with
  | enter _ hfree =>
      unfold Crew.only
      dsimp only
      rw [hfree, Option.bind_some, Option.bind_none, Function.update_self, Option.getD_some,
        Option.getD_none]
  | refused _ _ => rfl
  | turn _ _ _ | leave _ _ | die _ | outside _ => cases hb
  | lose _ => exact absurd trivial hm

theorem ok_of_step {ok : σ → π → α → Prop} {b : Single α ε} (h : Step prog f m f') (hok : f.Ok ok m)
    (hb : m.single = some b) (hf : f.Exclusive) : b.Ok ok (f.only prog) := by
  cases h with
  | enter _ _ | refused _ _ | lose _ => cases hb
  | turn hon _ _ =>
      obtain rfl := Option.some.inj hb
      rw [hf.only_eq hon]
      exact hok _ hon
  | leave _ _ | die _ | outside _ =>
      obtain rfl := Option.some.inj hb
      trivial

/-- While no lock is lost, the fleet is one process. -/
theorem follows {ok : σ → π → α → Prop}
    (h : Run (fun f m f' => Step prog f m f' ∧ ¬ m.Loses ∧ f.Ok ok m) f ms f') (hf : f.Exclusive) :
    Run (fun x b x' => prog.Goes x b x' ∧ b.Ok ok x) (f.only prog) (ms.filterMap Move.single)
      (f'.only prog) := by
  have hfollow : ∃ x, Run (fun x b x' => prog.Goes x b x' ∧ b.Ok ok x) (f.only prog)
      (ms.filterMap Move.single) x ∧ f'.Exclusive ∧ x = f'.only prog := by
    refine h.follow (R := fun f x => f.Exclusive ∧ x = f.only prog) ?_ ?_ ⟨hf, rfl⟩
    · rintro f m f' x ⟨hstep, hm, -⟩ hb ⟨hf, rfl⟩
      exact ⟨exclusive_of_step hstep hm hf, (only_of_step hstep hb hm).symm⟩
    · rintro f m f' x b ⟨hstep, hm, hok⟩ hb ⟨hf, rfl⟩
      exact ⟨_, ⟨goes_of_step hstep hb hf, ok_of_step hstep hok hb hf⟩,
        exclusive_of_step hstep hm hf, rfl⟩
  obtain ⟨x, hrun, -, rfl⟩ := hfollow
  exact hrun

/-! ### Whatever the others do -/

/-- What holds of the shared state, and beside it of each process. -/
def Crew.Holds (I : σ → Prop) (J : σ → π → Prop) (f : Crew ω σ π) : Prop :=
  I f.shared ∧ ∀ w, ∀ p ∈ f.procs w, J f.shared p

theorem Crew.Holds.ended {I : σ → Prop} {J : σ → π → Prop} (h : f.Holds I J) (w : ω) :
    (f.ended w).Holds I J := by
  refine ⟨h.1, fun u p hp => ?_⟩
  unfold Crew.ended at hp
  dsimp only at hp
  by_cases hne : u = w
  · rw [hne, Function.update_self] at hp
    cases hp
  · rw [Function.update_of_ne hne] at hp
    exact h.2 u p hp

/-- Every turn keeps `I`, and `J` of the process that takes it and of any other. -/
theorem rely {I : σ → Prop} {J : σ → π → Prop} {ok : σ → π → α → Prop}
    (hstart : ∀ s, I s → J s prog.start)
    (hturn : ∀ s p a s' p', prog.Turn s p a s' p' ∨ prog.Beside s p a s' p' → ok s p a → I s → J s p →
      I s' ∧ J s' p' ∧ ∀ q, J s q → J s' q)
    (hout : ∀ s e s', prog.Outside s e s' → I s → I s' ∧ ∀ q, J s q → J s' q)
    (h : Run (fun f m f' => Step prog f m f' ∧ f.Ok ok m) f ms f') (hf : f.Holds I J) :
    f'.Holds I J := by
  refine h.invariant ?_ hf
  rintro f m f' - ⟨hstep, hok⟩ hf
  obtain ⟨hI, hJ⟩ := hf
  cases hstep with
  | @enter w _ _ =>
      refine ⟨hI, fun u p hp => ?_⟩
      dsimp only at hp
      by_cases hne : u = w
      · rw [hne, Function.update_self] at hp
        obtain rfl := Option.some.inj hp
        exact hstart _ hI
      · rw [Function.update_of_ne hne] at hp
        exact hJ u p hp
  | refused _ _ => exact ⟨hI, hJ⟩
  | @turn w a p p' s' hon halone hbeside =>
      have hdone : prog.Turn f.shared p a s' p' ∨ prog.Beside f.shared p a s' p' :=
        (em (f.Alone w)).imp halone hbeside
      obtain ⟨hI', hp', hkeep⟩ := hturn _ _ _ _ _ hdone (hok p hon) hI (hJ w p hon)
      refine ⟨hI', fun u q hq => ?_⟩
      dsimp only at hq
      by_cases hne : u = w
      · rw [hne, Function.update_self] at hq
        obtain rfl := Option.some.inj hq
        exact hp'
      · rw [Function.update_of_ne hne] at hq
        exact hkeep q (hJ u q hq)
  | leave _ _ => exact Crew.Holds.ended ⟨hI, hJ⟩ _
  | die _ => exact Crew.Holds.ended ⟨hI, hJ⟩ _
  | lose _ => exact ⟨hI, hJ⟩
  | outside h =>
      obtain ⟨hI', hkeep⟩ := hout _ _ _ h hI
      exact ⟨hI', fun u q hq => hkeep q (hJ u q hq)⟩

end

end Fleet
