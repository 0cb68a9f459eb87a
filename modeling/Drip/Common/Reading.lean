import Drip.Support.Observed
import Drip.Common.Legacy

/-!
# Common — Reading

Whether a read of the pause flag can be noticed later on.  A read writes in two places: it turns a
legacy `true` into a state, and it clears a pause that has run out.  `set_paused_with_cooldown` makes a
difference between what is there before and after either: it traps on the legacy flag, and it goes by
the stored flag, so that a pause that has run out unread is no unpause for the cooldown.

* `quiet_iff`: nothing later notices a read exactly when it finds neither.
* `unobserved_of_run`: two histories that differ in reads only answer alike exactly as long as each of
  these reads is quiet.
-/

namespace Drip.Pause
open Machine

/-- The calls on a pause key.  The error of `require_not_paused` either ends the call of the contract, and
what it wrote is undone, or is handled, and stays written. -/
inductive Call where
  | set (now : U64) (paused : Bool) (maxDuration unpauseCooldown : Option U64)
  | isPaused (now : U64)
  | getPauseState (now : U64)
  | requireNotPaused (now : U64) (handled : Bool)

/-- The ledger time of a call. -/
def Call.time : Call → U64
  | .set now _ _ _ | .isPaused now | .getPauseState now | .requireNotPaused now _ => now

/-- The calls that only read. -/
def Call.IsRead : Call → Prop
  | .set _ _ _ _ => False
  | .isPaused _ | .getPauseState _ | .requireNotPaused _ _ => True

/-- What a call answers, and the value it leaves: a write whether it was accepted, a read whether the flag
is up.  A call that fails leaves nothing. -/
def answer (v : Option Stored) : Call → Bool × Option Stored
  | .set now paused maxDuration unpauseCooldown =>
      match setPausedWithCooldown now v paused maxDuration unpauseCooldown with
      | .ok v' => (true, v')
      | .error _ => (false, v)
  | .isPaused now => Pause.isPaused now v
  | .getPauseState now =>
      match Pause.getPauseState now v with
      | .ok (st, v') => ((st.map (·.paused)).getD false, v')
      | .error _ => (false, v)
  | .requireNotPaused now handled =>
      match Pause.requireNotPaused now v with
      | (.ok _, v') => (false, v')
      | (.error _, v') => (true, if handled then v' else v)

/-- The pause key as a machine. -/
def key : Machine (Option Stored) Call Bool U64 := ⟨answer, Call.time⟩

/-- Ledger times in their order. -/
local instance timeOrder : Preorder U64 where
  le_refl t := Int.le_refl t.val
  le_trans _ _ _ h h' := Int.le_trans h h'
  lt_iff_le_not_ge _ _ := Int.lt_iff_le_and_not_ge

variable {now : U64} {v v₀ : Option Stored} {c : Call}

/-! ### What a read leaves -/

/-- A pause whose maximum duration is over. -/
def RunOut (now : U64) (v : Option Stored) : Prop :=
  ∃ st maxDur, v = some (.state st) ∧ st.paused = true ∧ st.maxDuration = some maxDur ∧
    st.pausedAt.saturatingAdd maxDur ≤ now

/-- A read that comes neither to a legacy `true` nor to a pause that has run out. -/
def Quiet (v : Option Stored) : Call → Prop
  | .set _ _ _ _ => True
  | .isPaused now | .getPauseState now => v ≠ some (.flag true) ∧ ¬ RunOut now v
  | .requireNotPaused now handled => (handled = true → v ≠ some (.flag true)) ∧ ¬ RunOut now v

theorem isPaused_keeps (hflag : v ≠ some (.flag true)) (hrun : ¬ RunOut now v) :
    (Pause.isPaused now v).2 = v := by
  rcases v with _ | b | ⟨paused, pausedAt, maxDuration, unpausedAt, cooldown⟩
  · rfl
  · cases b with
    | false => rfl
    | true => exact absurd rfl hflag
  · cases paused with
    | false => rfl
    | true =>
        cases maxDuration with
        | none => rfl
        | some maxDur =>
            have hin : ¬ pausedAt.saturatingAdd maxDur ≤ now :=
              fun hout => hrun ⟨_, maxDur, rfl, rfl, rfl, hout⟩
            simp only [Pause.isPaused, if_neg hin, if_true]

theorem isPaused_runOut (h : RunOut now v) : ∃ st cooldown, v = some (.state st) ∧ st.paused = true ∧
    Pause.isPaused now v = (false, some (.state ⟨false, .lit 0, none, some now, cooldown⟩)) := by
  obtain ⟨st, maxDur, rfl, hp, hmax, hout⟩ := h
  refine ⟨st, st.unpauseCooldown, rfl, hp, ?_⟩
  simp only [Pause.isPaused, hp, hmax, if_pos hout, if_true]

/-! ### What can be noticed -/

/-- Unpausing traps on the flag and goes through on the state. -/
theorem not_alike_of_flag :
    ¬ key.Alike now (some (.flag true)) (Pause.isPaused now (some (.flag true))).2 := by
  refine not_alike_of_answer (i := .set now false none none) (le_refl _) ?_
  intro h
  cases h

/-- Pausing again right away goes through while the pause that has run out is still there; once it is
cleared, even a cooldown of no time at all is not over. -/
theorem not_alike_of_runOut (h : RunOut now v) : ¬ key.Alike now v (Pause.isPaused now v).2 := by
  obtain ⟨st, cooldown, rfl, hp, hread⟩ := isPaused_runOut h
  rw [hread]
  refine not_alike_of_answer (i := .set now true none (some (.lit 0))) (le_refl _) ?_
  have hcooling : inCooldown now true (some ⟨false, .lit 0, none, some now, cooldown⟩) (some (.lit 0)) =
      true := by
    refine decide_eq_true ?_
    rw [Ranged.le_def, Ranged.saturatingAdd, Ranged.val_clamp]
    have hge := now.ge
    have hle := now.le
    show now.val ≤ max 0 (min (now.val + 0) _)
    omega
  have hafter : (answer (some (.state ⟨false, .lit 0, none, some now, cooldown⟩))
      (.set now true none (some (.lit 0)))).1 = false := by
    simp only [answer, setPausedWithCooldown, readState, Chain.ok_bind, Chain.reject, hcooling, if_true]
    rfl
  have hbefore : (answer (some (.state st)) (.set now true none (some (.lit 0)))).1 = true := by
    simp only [answer, setPausedWithCooldown, readState, Chain.ok_bind, inCooldown, hp]
    rfl
  show (answer _ _).1 ≠ (answer _ _).1
  rw [hafter, hbefore]
  exact Bool.false_ne_true.symm

theorem isPaused_alike_iff : key.Alike now v (Pause.isPaused now v).2 ↔
    v ≠ some (.flag true) ∧ ¬ RunOut now v := by
  refine ⟨fun h => ⟨?_, fun hrun => not_alike_of_runOut hrun h⟩, fun h => ?_⟩
  · rintro rfl
    exact not_alike_of_flag h
  · rw [isPaused_keeps h.1 h.2]
    exact .refl key _ v

/-- A read is noticed later on exactly when it comes to a legacy `true` or to a pause that has run out. -/
theorem quiet_iff (hc : c.IsRead) : key.Alike (key.time c) v (key.act v c).2 ↔ Quiet v c := by
  cases c with
  | set => exact absurd hc id
  | isPaused now => exact isPaused_alike_iff
  | getPauseState now =>
      obtain ⟨st, hget, -⟩ := Legacy.getPauseState_reads now v
      have hleft : (key.act v (.getPauseState now)).2 = (Pause.isPaused now v).2 := by
        show (answer v _).2 = _
        simp only [answer, hget]
      rw [hleft]
      exact isPaused_alike_iff
  | requireNotPaused now handled =>
      cases hp : (Pause.isPaused now v).1 with
      | false =>
          have hleft : (key.act v (.requireNotPaused now handled)).2 = (Pause.isPaused now v).2 := by
            show (answer v _).2 = _
            simp only [answer, Pause.requireNotPaused, hp, Chain.reject]
            rfl
          have hflag : v ≠ some (.flag true) := by
            rintro rfl
            cases hp
          rw [hleft]
          exact isPaused_alike_iff.trans (and_congr_left fun _ => iff_of_true hflag fun _ => hflag)
      | true =>
          have hleft : (key.act v (.requireNotPaused now handled)).2 =
              if handled then (Pause.isPaused now v).2 else v := by
            show (answer v _).2 = _
            simp only [answer, Pause.requireNotPaused, hp, Chain.reject]
            rfl
          cases handled with
          | true =>
              rw [hleft, if_pos rfl]
              exact isPaused_alike_iff.trans (and_congr_left fun _ => ⟨fun h _ => h, fun h => h rfl⟩)
          | false =>
              -- the error undoes the read
              rw [hleft, if_neg Bool.false_ne_true]
              refine iff_of_true (.refl key _ v) ⟨fun h => absurd h Bool.false_ne_true, fun hrun => ?_⟩
              obtain ⟨st, cooldown, -, -, hread⟩ := isPaused_runOut hrun
              rw [hread] at hp
              cases hp

/-! ### Two histories -/

/-- **Reads are not observed exactly as long as they are quiet.**  Two histories of calls on one pause key,
whatever it holds at first, that share all their writes and differ in reads only: at every point of time
so far, all later reads answer alike and all later writes are accepted or rejected alike, if and only if
no read that only one of them has comes to a legacy `true` or to a pause that has run out. -/
theorem unobserved_of_run {t : U64} {as : List (Place Call)} {p : Joint (Option Stored) U64} :
    (Run (fun p a q => Joint.Step key Call.IsRead p a q ∧ q.IsAlike key) ⟨v₀, v₀, t⟩ as p ↔
      Run (fun p a q => Joint.Step key Call.IsRead p a q ∧ p.Harmless Quiet a) ⟨v₀, v₀, t⟩ as p) ∧
    (Run (fun p a q => Joint.Step key Call.IsRead p a q ∧ p.Harmless Quiet a) ⟨v₀, v₀, t⟩ as p →
      p.IsAlike key) :=
  alike_of_run (fun _ _ hc => quiet_iff hc) (.refl key _ v₀)

/-- A pause from 1000 on runs out after fourteen days.  When it is read after that, pausing again within a
cooldown of 300 seconds is rejected; unread, it is accepted.  And a legacy `true` can be unpaused once it
was read; one that was never read traps. -/
theorem read_noticed :
    let v := (answer none (.set (.lit 1000) true none none)).2
    let again := Call.set (.lit 1300100) true none (some (.lit 300))
    let off := Call.set (.lit 200) false none none
    ((answer v again).1 = true ∧ (answer (answer v (.isPaused (.lit 1300000))).2 again).1 = false) ∧
      (answer (some (.flag true)) off).1 = false ∧
        (answer (answer (some (.flag true)) (.isPaused (.lit 100))).2 off).1 = true := by
  decide

end Drip.Pause
