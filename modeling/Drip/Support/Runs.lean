import Mathlib.Data.List.Forall2
import Drip.Support.Chain

/-!
# Support — Runs

Runs of a labelled transition system: `Run step s as t` says that the steps labelled `as`, oldest
first, lead from `s` to `t`.  A run grows at its end, so that what its labels record so far is a
prefix of what they record later.

* `Run.invariant`: what each step preserves holds at the end of a run that starts with it.
* `Run.mono`, `Run.relabel`, `Run.trans`: systems that allow the steps taken, under the same labels or
  others, and runs one after the other.
* `Run.of_snoc`, `Run.of_append`: the last step of a run, and a run in two parts.
* `Run.follow`: a system that follows another one step by step, or stays where it is.
* `Run.exists_last`: the last step that wrote what is recorded now.
* `Run.side_by_side`: what two runs with related labels keep between them.
* `Run.reached`: the end of a run that a function computes; `Run.exists_of_foldlM`: a loop whose turns
  are steps.
* `Run.does_spec`, `Run.steps_iff`: two conditions on the steps that agree along every run.
* `Run.keeps_spec`: where a step keeps `P` exactly when it is `ok`, the runs that keep `P` throughout
  are the runs of `ok` steps, and these end with `P`; `Run.keeps_and_spec`, for steps that have to do
  something besides.
-/

variable {σ α : Type} {step step' : σ → α → σ → Prop} {s t u : σ} {as bs : List α}

inductive Run (step : σ → α → σ → Prop) : σ → List α → σ → Prop where
  | nil (s : σ) : Run step s [] s
  | snoc {s t u : σ} {as : List α} {a : α} (h : Run step s as t) (ha : step t a u) :
      Run step s (as ++ [a]) u

namespace Run

theorem invariant {P : σ → Prop} (hstep : ∀ {s a t}, a ∈ as → step s a t → P s → P t)
    (h : Run step s as t) (hs : P s) : P t := by
  induction h with
  | nil => exact hs
  | snoc _ ha ih =>
      refine hstep (List.mem_append_right _ List.mem_cons_self) ha (ih fun hin => ?_)
      exact hstep (List.mem_append_left _ hin)

theorem mono (hle : ∀ {s a t}, a ∈ as → step s a t → step' s a t) (h : Run step s as t) :
    Run step' s as t := by
  induction h with
  | nil => exact .nil _
  | snoc _ ha ih =>
      refine (ih fun hin => hle (List.mem_append_left _ hin)).snoc ?_
      exact hle (List.mem_append_right _ List.mem_cons_self) ha

/-- The steps under other labels. -/
theorem relabel {β : Type} {step' : σ → β → σ → Prop} {f : α → β}
    (hf : ∀ {s a t}, step s a t → step' s (f a) t) (h : Run step s as t) :
    Run step' s (as.map f) t := by
  induction h with
  | nil => exact .nil _
  | snoc _ ha ih =>
      rw [List.map_append]
      exact ih.snoc (hf ha)

theorem trans (h : Run step s as t) (h' : Run step t bs u) : Run step s (as ++ bs) u := by
  induction h' with
  | nil => rw [List.append_nil]; exact h
  | snoc _ ha ih =>
      rw [← List.append_assoc]
      exact ih.snoc ha

/-- The last step of a run. -/
theorem of_snoc {a : α} (h : Run step s (as ++ [a]) u) : ∃ t, Run step s as t ∧ step t a u := by
  generalize hl : as ++ [a] = l at h
  cases h with
  | nil => simp at hl
  | snoc h ha =>
      obtain ⟨rfl, hlast⟩ := List.append_inj' hl rfl
      obtain rfl := List.singleton_inj.mp hlast
      exact ⟨_, h, ha⟩

/-- A run in two parts. -/
theorem of_append (h : Run step s (as ++ bs) u) : ∃ t, Run step s as t ∧ Run step t bs u := by
  induction bs generalizing as with
  | nil =>
      rw [List.append_nil] at h
      exact ⟨u, h, .nil u⟩
  | cons b bs ih =>
      rw [List.append_cons] at h
      obtain ⟨v, hv, hrest⟩ := ih h
      obtain ⟨t, hfirst, hb⟩ := hv.of_snoc
      have step : Run step t [b] v := Run.snoc (.nil t) hb
      exact ⟨t, hfirst, step.trans hrest⟩

/-- Another system follows, step by step; where the label is `none` it stays. -/
theorem follow {τ β : Type} {step' : τ → β → τ → Prop} {f : α → Option β} {R : σ → τ → Prop} {t' : τ}
    (hstay : ∀ {s a u s'}, step s a u → f a = none → R s s' → R u s')
    (hstep : ∀ {s a u s' b}, step s a u → f a = some b → R s s' → ∃ u', step' s' b u' ∧ R u u')
    (h : Run step s as t) (hs : R s t') : ∃ u', Run step' t' (as.filterMap f) u' ∧ R t u' := by
  induction h with
  | nil => exact ⟨t', .nil t', hs⟩
  | snoc _ ha ih =>
      rename_i a _
      obtain ⟨s', hrun, hR⟩ := ih
      rw [List.filterMap_append]
      cases hf : f a with
      | none =>
          rw [List.filterMap_cons_none hf, List.filterMap_nil, List.append_nil]
          exact ⟨s', hrun, hstay ha hf hR⟩
      | some b =>
          obtain ⟨u', hb, hR'⟩ := hstep ha hf hR
          rw [List.filterMap_cons_some hf, List.filterMap_nil]
          exact ⟨u', hrun.snoc hb, hR'⟩

/-- The last of two lists related one by one. -/
theorem forall₂_concat {β : Type} {R : α → β → Prop} {a : α} {bs : List β}
    (h : List.Forall₂ R (as ++ [a]) bs) : ∃ bs' b, bs = bs' ++ [b] ∧ List.Forall₂ R as bs' ∧ R a b := by
  rw [← List.forall₂_reverse_iff, List.reverse_append, List.reverse_singleton,
    List.singleton_append, List.forall₂_cons_left_iff] at h
  obtain ⟨b, rest, hab, hrest, heq⟩ := h
  refine ⟨rest.reverse, b, ?_, ?_, hab⟩
  · rw [← List.reverse_cons, ← heq, List.reverse_reverse]
  · rw [← List.forall₂_reverse_iff, List.reverse_reverse]
    exact hrest

/-- Two runs whose labels are related one by one. -/
theorem side_by_side {τ β : Type} {step' : τ → β → τ → Prop} {s' t' : τ} {cs : List β}
    {R : α → β → Prop} {P : List α → σ → List β → τ → Prop} (hnil : P [] s [] s')
    (hsnoc : ∀ {as t a u cs t' b u'}, Run step s as t → step t a u → Run step' s' cs t' →
      step' t' b u' → R a b → P as t cs t' → P (as ++ [a]) u (cs ++ [b]) u')
    (h : Run step s as t) (h' : Run step' s' cs t') (hab : List.Forall₂ R as cs) : P as t cs t' := by
  induction h generalizing cs t' with
  | nil =>
      obtain rfl := List.forall₂_nil_left_iff.mp hab
      generalize hl : ([] : List β) = l at h'
      cases h' with
      | nil => exact hnil
      | snoc => simp at hl
  | snoc hrun ha ih =>
      obtain ⟨cs, b, rfl, hcs, hb⟩ := forall₂_concat hab
      obtain ⟨u', hrun', hb'⟩ := h'.of_snoc
      exact hsnoc hrun ha hrun' hb' hb (ih hrun' hcs)

/-- The last step that wrote the record `f`, which is there now: only steps with a label in `w` write
it. -/
theorem exists_last {ρ : Type} {f : σ → Option ρ} {w : α → Prop} {r : ρ}
    (hkeep : ∀ {s a t}, step s a t → ¬ w a → f t = f s) (h : Run step s as t)
    (hs : f s = none) (ht : f t = some r) :
    ∃ before a later u v, as = before ++ a :: later ∧ step u a v ∧ w a ∧ f v = some r ∧
      Run step v later t ∧ ∀ b ∈ later, ¬ w b := by
  induction h with
  | nil => cases hs.symm.trans ht
  | snoc h ha ih =>
      rename_i t u before a
      by_cases hw : w a
      · exact ⟨before, a, [], t, u, rfl, ha, hw, ht, .nil u, fun b hb => by cases hb⟩
      · obtain ⟨before, a', later, u', v, rfl, ha', hw', hv, hlater, hnone⟩ :=
          ih ((hkeep ha hw).symm.trans ht)
        refine ⟨before, a', later ++ [a], u', v, List.append_assoc .., ha', hw', hv, hlater.snoc ha, ?_⟩
        intro b hb
        rcases List.mem_append.mp hb with hb | hb
        · exact hnone b hb
        · obtain rfl := List.mem_singleton.mp hb
          exact hw

/-! ### Computed runs -/

/-- The state after the actions `as`, each carried out by `f`; `s` itself where one is refused. -/
def reached (f : σ → α → Option σ) (s : σ) (as : List α) : σ := (as.foldlM f s).getD s

theorem of_foldlM {f : σ → α → Option σ} (hf : ∀ {s a t}, a ∈ as → f s a = some t → step s a t)
    (h : as.foldlM f s = some t) : Run step s as t := by
  induction as generalizing s with
  | nil =>
      cases h
      exact .nil _
  | cons a as ih =>
      rw [List.foldlM_cons, Option.bind_eq_bind, Option.bind_eq_some_iff] at h
      obtain ⟨u, ha, h⟩ := h
      have first : Run step s [a] u := Run.snoc (.nil s) (hf List.mem_cons_self ha)
      exact first.trans (ih (fun hin => hf (List.mem_cons_of_mem a hin)) h)

theorem run_reached {f : σ → α → Option σ} (hf : ∀ {s a t}, a ∈ as → f s a = some t → step s a t)
    (h : (as.foldlM f s).isSome = true) : Run step s as (reached f s as) := by
  obtain ⟨t, ht⟩ := Option.isSome_iff_exists.mp h
  unfold reached
  rw [ht]
  exact of_foldlM hf ht

/-- A loop each turn of which is a step with a label for its element. -/
theorem exists_of_foldlM {ε β γ δ : Type} {f : β → γ → Except ε β} {state : β → σ} {element : α → δ}
    {given : γ → δ} (hf : ∀ x b b', f b x = .ok b' → ∃ a, element a = given x ∧
      step (state b) a (state b')) {xs : List γ} {b b' : β} (h : xs.foldlM f b = .ok b') :
    ∃ as, as.map element = xs.map given ∧ Run step (state b) as (state b') := by
  induction xs generalizing b with
  | nil =>
      cases h
      exact ⟨[], rfl, .nil _⟩
  | cons x xs ih =>
      rw [List.foldlM_cons, Chain.bind_eq_ok] at h
      obtain ⟨b₁, hx, h⟩ := h
      obtain ⟨a, ha, hstep⟩ := hf x b b₁ hx
      obtain ⟨as, has, hrun⟩ := ih h
      have first : Run step (state b) [a] (state b₁) := Run.snoc (.nil _) hstep
      exact ⟨a :: as, by rw [List.map_cons, List.map_cons, ha, has], first.trans hrun⟩

/-! ### Conditions on the steps -/

/-- A step from a state with `P` that does `C` does `C'`, and keeps `P`. -/
theorem does_mono {P : σ → Prop} {C C' : σ → α → σ → Prop}
    (hdo : ∀ s a t, step s a t → P s → C s a t → C' s a t ∧ P t) (hs : P s)
    (h : Run (fun s a t => step s a t ∧ C s a t) s as t) :
    Run (fun s a t => step s a t ∧ C' s a t) s as t ∧ P t := by
  induction h with
  | nil => exact ⟨.nil _, hs⟩
  | snoc _ ha ih =>
      obtain ⟨hrun, hPt⟩ := ih
      obtain ⟨hdone, hPu⟩ := hdo _ _ _ ha.1 hPt ha.2
      exact ⟨hrun.snoc ⟨ha.1, hdone⟩, hPu⟩

/-- Where a step from a state with `P` does `C` exactly when it does `C'`, and then keeps `P`: the runs that
do `C` are those that do `C'`, and they end with `P`. -/
theorem does_spec {P : σ → Prop} {C C' : σ → α → σ → Prop}
    (hiff : ∀ s a t, step s a t → P s → (C s a t ↔ C' s a t))
    (hkeep : ∀ s a t, step s a t → P s → C' s a t → P t) (hs : P s) :
    (Run (fun s a t => step s a t ∧ C s a t) s as t ↔
      Run (fun s a t => step s a t ∧ C' s a t) s as t) ∧
    (Run (fun s a t => step s a t ∧ C' s a t) s as t → P t) := by
  have hto : ∀ s a t, step s a t → P s → C s a t → C' s a t ∧ P t := by
    intro s a t hstep hP hC
    have hC' := (hiff s a t hstep hP).mp hC
    exact ⟨hC', hkeep s a t hstep hP hC'⟩
  have hfrom : ∀ s a t, step s a t → P s → C' s a t → C s a t ∧ P t := by
    intro s a t hstep hP hC'
    exact ⟨(hiff s a t hstep hP).mpr hC', hkeep s a t hstep hP hC'⟩
  exact ⟨⟨fun h => (does_mono hto hs h).1, fun h => (does_mono hfrom hs h).1⟩,
    fun h => (does_mono hfrom hs h).2⟩

/-- Where `Q` and `Q'` agree on the steps from states with `P`, so do the runs. -/
theorem steps_iff {P : σ → Prop} {Q Q' : σ → α → σ → Prop}
    (hP : ∀ s a t, step s a t → P s → P t) (hiff : ∀ s a t, step s a t → P s → (Q s a t ↔ Q' s a t))
    (hs : P s) :
    Run (fun s a t => step s a t ∧ Q s a t) s as t ↔
      Run (fun s a t => step s a t ∧ Q' s a t) s as t :=
  (does_spec hiff (fun s a t hstep h _ => hP s a t hstep h) hs).1

section

variable {P Q : σ → Prop} {C : σ → α → σ → Prop} {ok : σ → α → Prop}

/-- Where a step from a state with `P` keeps it, and does `C`, exactly when it is `ok`: the runs that
keep `P` and do `C` at each step are the runs of `ok` steps; and such a run ends with `P`. -/
theorem keeps_and_spec (hQ : ∀ s a t, step s a t → Q s → Q t)
    (hok : ∀ s a t, step s a t → Q s → P s → (P t ∧ C s a t ↔ ok s a)) (hs : Q s) (hP : P s) :
    (Run (fun s a t => step s a t ∧ P t ∧ C s a t) s as t ↔
      Run (fun s a t => step s a t ∧ ok s a) s as t) ∧
    (Run (fun s a t => step s a t ∧ ok s a) s as t → P t) := by
  have hiff : ∀ s a t, step s a t → Q s ∧ P s → (P t ∧ C s a t ↔ ok s a) :=
    fun s a t hstep h => hok s a t hstep h.1 h.2
  have hkeep : ∀ s a t, step s a t → Q s ∧ P s → ok s a → Q t ∧ P t :=
    fun s a t hstep h hdone => ⟨hQ s a t hstep h.1, ((hiff s a t hstep h).mpr hdone).1⟩
  have hspec : (Run (fun s a t => step s a t ∧ P t ∧ C s a t) s as t ↔ _) ∧
      (_ → Q t ∧ P t) := does_spec (P := fun s => Q s ∧ P s) hiff hkeep ⟨hs, hP⟩
  exact ⟨hspec.1, fun h => (hspec.2 h).2⟩

theorem keeps_spec (hQ : ∀ s a t, step s a t → Q s → Q t)
    (hok : ∀ s a t, step s a t → Q s → P s → (P t ↔ ok s a)) (hs : Q s) (hP : P s) :
    (Run (fun s a t => step s a t ∧ P t) s as t ↔ Run (fun s a t => step s a t ∧ ok s a) s as t) ∧
    (Run (fun s a t => step s a t ∧ ok s a) s as t → P t) := by
  have h : (Run (fun s a t => step s a t ∧ P t ∧ True) s as t ↔ _) ∧ _ :=
    keeps_and_spec (C := fun _ _ _ => True) hQ
      (fun s a t hstep hs hP => (and_iff_left trivial).trans (hok s a t hstep hs hP)) hs hP
  simpa only [and_true] using h

end

end Run
