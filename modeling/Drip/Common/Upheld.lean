import Drip.Common.Reading

/-!
# Common — Upheld

What a pause flag says, over whole histories of calls.  The stored value is rewritten by reads as well as
by writes; the answers go by the accepted writes alone.

* `upUntil`: the time up to which the last accepted write holds the flag up.
* `Upholds`: what the stored value says about it, kept by every call (`upholds_of_step`).
* `answers_of_run`: after any history a read answers `true` exactly before that time.
-/

namespace Drip.Pause

variable {now t t₀ t' : U64} {v v₀ v' : Option Stored} {u : Option U64} {c : Call} {b : Bool}

/-- A key that nothing has been written to, or a legacy `false`. -/
def Clear : Option Stored → Prop
  | none | some (.flag false) => True
  | some (.flag true) | some (.state _) => False

/-- A call at its time, with what it answers. -/
inductive KeyStep : Option Stored × U64 → Call × Bool → Option Stored × U64 → Prop where
  | call {v : Option Stored} {t : U64} {c : Call} (htime : t ≤ c.time) :
      KeyStep (v, t) (c, (answer v c).1) ((answer v c).2, c.time)

/-- One more call: an accepted pause holds the flag up for its maximum duration, and fourteen days at most;
an accepted unpause lets it down. -/
def note (u : Option U64) : Call × Bool → Option U64
  | (.set now paused maxDuration _, true) =>
      if paused then
        some (now.saturatingAdd (min (maxDuration.getD defaultMaxPauseDuration) defaultMaxPauseDuration))
      else none
  | _ => u

/-- The time up to which the flag is held up. -/
def upUntil (as : List (Call × Bool)) : Option U64 := as.foldl note none

/-- What is stored at time `t` for a flag that is held up until `u`. -/
def Upholds (t : U64) (u : Option U64) : Option Stored → Prop
  | none => u = none
  | some (.flag b) => b = false ∧ u = none
  | some (.state st) =>
      if st.paused then
        ∃ maxDur, st.maxDuration = some maxDur ∧ u = some (st.pausedAt.saturatingAdd maxDur)
      -- let down by a write, or by a read that came late enough
      else ∀ e ∈ u, e ≤ t

theorem upholds_of_clear (h : Clear v) : Upholds t none v := by
  rcases v with _ | b | st
  · rfl
  · cases b with
    | false => exact ⟨rfl, rfl⟩
    | true => exact h.elim
  · exact h.elim

theorem Upholds.later (h : Upholds t u v) (hle : t ≤ t') : Upholds t' u v := by
  rcases v with _ | b | ⟨paused, pausedAt, maxDuration, unpausedAt, cooldown⟩
  · exact h
  · exact h
  · cases paused with
    | true => exact h
    | false => exact fun e he => Int.le_trans (h e he) hle

/-- What a read answers. -/
theorem Upholds.reads (h : Upholds t u v) (hle : t ≤ now) :
    (Pause.isPaused now v).1 = true ↔ ∃ e ∈ u, now < e := by
  rcases v with _ | b | ⟨paused, pausedAt, maxDuration, unpausedAt, cooldown⟩
  · obtain rfl : u = none := h
    exact iff_of_false Bool.false_ne_true fun ⟨_, he, _⟩ => Option.not_mem_none _ he
  · obtain ⟨rfl, rfl⟩ := h
    exact iff_of_false Bool.false_ne_true fun ⟨_, he, _⟩ => Option.not_mem_none _ he
  · cases paused with
    | false =>
        refine iff_of_false Bool.false_ne_true ?_
        rintro ⟨e, he, hlt⟩
        exact absurd (Int.le_trans (h e he) hle) (Int.not_le.mpr hlt)
    | true =>
        obtain ⟨maxDur, rfl, rfl⟩ := h
        unfold Pause.isPaused
        dsimp only
        rw [if_pos rfl]
        split
        · rename_i hout
          refine iff_of_false Bool.false_ne_true ?_
          rintro ⟨e, he, hlt⟩
          obtain rfl := Option.mem_some_iff.mp he
          exact absurd hout (Ranged.not_le.mpr hlt)
        · rename_i hin
          exact iff_of_true rfl ⟨_, rfl, Ranged.not_le.mp hin⟩

/-- A read leaves the same behind. -/
theorem Upholds.read (h : Upholds t u v) (hle : t ≤ now) : Upholds now u (Pause.isPaused now v).2 := by
  by_cases hflag : v = some (.flag true)
  · rw [hflag] at h
    cases h.1
  · by_cases hrun : RunOut now v
    · -- the pause has run out, and the read clears it
      obtain ⟨st, cooldown, rfl, hp, hread⟩ := isPaused_runOut hrun
      obtain ⟨_, maxDur', heq, -, hmax', hout⟩ := hrun
      obtain rfl := Stored.state.inj (Option.some.inj heq)
      have hu := h
      unfold Upholds at hu
      dsimp only at hu
      rw [if_pos hp] at hu
      obtain ⟨maxDur, hmax, rfl⟩ := hu
      obtain rfl := Option.some.inj (hmax.symm.trans hmax')
      rw [hread]
      intro e he
      obtain rfl := Option.mem_some_iff.mp he
      exact hout
    · rw [isPaused_keeps hflag hrun]
      exact h.later hle

/-- A write that is accepted is what the flag is held up by. -/
theorem upholds_of_set {paused : Bool} {maxDuration cooldown : Option U64}
    (h : setPausedWithCooldown now v paused maxDuration cooldown = .ok v') :
    Upholds now (note u (.set now paused maxDuration cooldown, true)) v' := by
  simp only [setPausedWithCooldown, Chain.bind_eq_ok, Chain.pure_eq_ok] at h
  obtain ⟨current, -, -, -, rfl⟩ := h
  cases paused with
  | true => exact ⟨_, rfl, rfl⟩
  | false => exact fun e he => absurd he (Option.not_mem_none e)

/-- Every read answers as `is_paused`, and leaves what it leaves, or nothing where the call has failed. -/
theorem answer_of_read (v : Option Stored) (hc : c.IsRead) :
    (answer v c).1 = (Pause.isPaused c.time v).1 ∧
      ((answer v c).2 = (Pause.isPaused c.time v).2 ∨ (answer v c).2 = v) := by
  cases c with
  | set => exact hc.elim
  | isPaused now => exact ⟨rfl, .inl rfl⟩
  | getPauseState now =>
      obtain ⟨st, hget, -, hst⟩ := Legacy.getPauseState_reads now v
      have hanswer : answer v (.getPauseState now) =
          ((st.map (·.paused)).getD false, (Pause.isPaused now v).2) := by
        simp only [answer, hget]
      rw [hanswer]
      exact ⟨hst.trans Legacy.isPaused_eq.symm, .inl rfl⟩
  | requireNotPaused now handled =>
      cases hp : (Pause.isPaused now v).1 with
      | false =>
          have hanswer : answer v (.requireNotPaused now handled) = (false, (Pause.isPaused now v).2) := by
            simp only [answer, Pause.requireNotPaused, hp, Chain.reject]
            rfl
          rw [hanswer]
          exact ⟨hp.symm, .inl rfl⟩
      | true =>
          have hanswer : answer v (.requireNotPaused now handled) =
              (true, if handled then (Pause.isPaused now v).2 else v) := by
            simp only [answer, Pause.requireNotPaused, hp, Chain.reject]
            rfl
          rw [hanswer]
          refine ⟨hp.symm, ?_⟩
          cases handled with
          | true => exact .inl rfl
          | false => exact .inr rfl

theorem note_of_read (hc : c.IsRead) : note u (c, b) = u := by
  cases c with
  | set => exact hc.elim
  | _ => rfl

/-- Every call leaves what upholds the flag as noted. -/
theorem upholds_of_step {as : List (Call × Bool)} (h : Upholds t (upUntil as) v)
    (hstep : KeyStep (v, t) (c, b) (v', t')) : Upholds t' (upUntil (as ++ [(c, b)])) v' := by
  have hnote : upUntil (as ++ [(c, b)]) = note (upUntil as) (c, b) := List.foldl_concat ..
  rw [hnote]
  cases hstep with
  | call htime =>
      by_cases hc : c.IsRead
      · rw [note_of_read hc]
        rcases (answer_of_read v hc).2 with hleft | hleft
        · rw [hleft]
          exact h.read htime
        · rw [hleft]
          exact h.later htime
      · cases c with
        | set now paused maxDuration cooldown =>
            cases hset : setPausedWithCooldown now v paused maxDuration cooldown with
            | ok v' =>
                have hanswer : answer v (.set now paused maxDuration cooldown) = (true, v') := by
                  simp only [answer, hset]
                rw [hanswer]
                exact upholds_of_set hset
            | error e =>
                have hanswer : answer v (.set now paused maxDuration cooldown) = (false, v) := by
                  simp only [answer, hset]
                rw [hanswer]
                exact h.later htime
        | _ => exact absurd trivial hc

theorem upholds_of_run {as : List (Call × Bool)} (hclear : Clear v₀)
    (h : Run KeyStep (v₀, t₀) as (v, t)) : Upholds t (upUntil as) v := by
  generalize hend : (v, t) = x at h
  induction h generalizing v t with
  | nil =>
      obtain ⟨rfl, rfl⟩ := Prod.mk.inj hend
      exact upholds_of_clear hclear
  | @snoc x y as a _ hstep ih =>
      subst hend
      exact upholds_of_step (ih rfl) hstep

/-- **The answers go by the accepted writes alone.**  After any history of calls on a key that did not hold
a legacy `true`, and at any later time, each of the three reads finds the flag up exactly if the last write
that was accepted is a pause whose maximum duration, fourteen days at most, is not over. -/
theorem answers_of_run {as : List (Call × Bool)} (hclear : Clear v₀)
    (h : Run KeyStep (v₀, t₀) as (v, t)) (hc : c.IsRead) (hle : t ≤ c.time) :
    (answer v c).1 = true ↔ ∃ e ∈ upUntil as, c.time < e := by
  rw [(answer_of_read v hc).1]
  exact (upholds_of_run hclear h).reads hle

/-- A pause for a hundred seconds, read after fifty and after two hundred of them. -/
theorem answers_of_run_paused :
    let v := some (Stored.state ⟨true, .lit 1000, some (.lit 100), none, none⟩)
    (answer v (.isPaused (.lit 1050))).1 = true ∧ (answer v (.isPaused (.lit 1200))).1 = false := by
  have hrun : Run KeyStep (none, .lit 0)
      [(.set (.lit 1000) true (some (.lit 100)) none, true)]
      (some (Stored.state ⟨true, .lit 1000, some (.lit 100), none, none⟩), .lit 1000) :=
    (Run.nil _).snoc (.call (c := .set (.lit 1000) true (some (.lit 100)) none) (by decide))
  have hclear : Clear none := trivial
  have hanswers := fun c => answers_of_run (c := c) hclear hrun
  refine ⟨(hanswers (.isPaused (.lit 1050)) trivial (by decide)).mpr ⟨.lit 1100, rfl, by decide⟩, ?_⟩
  refine Bool.eq_false_iff.mpr fun hup => ?_
  obtain ⟨e, he, hlt⟩ := (hanswers (.isPaused (.lit 1200)) trivial (by decide)).mp hup
  obtain rfl := Option.some.inj he
  exact absurd hlt (by decide)

end Drip.Pause
