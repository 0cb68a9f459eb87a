import Drip.Host.Basic

/-!
# Common — Pause

`drip_common::pause`: the emergency-pause flag a contract keeps under one instance key.

The key holds nothing, a legacy `bool`, or the current `PauseState`.  A read may write: it turns a
legacy `true` into a state that starts now, and it clears a pause whose maximum duration has
passed.  Each function takes the stored value and returns the value left behind.
-/

namespace Drip.Pause

/-- `DEFAULT_MAX_PAUSE_DURATION`: fourteen days. -/
def defaultMaxPauseDuration : U64 := .lit 1209600

inductive PausedError where
  | contractPaused
deriving DecidableEq

structure PauseState where
  paused : Bool
  pausedAt : U64
  maxDuration : Option U64
  unpausedAt : Option U64
  unpauseCooldown : Option U64
deriving DecidableEq

/-- What the key can hold. -/
inductive Stored where
  | flag (b : Bool)
  | state (st : PauseState)
deriving DecidableEq

/-- `is_paused`: the answer, and the value left under the key. -/
def isPaused (now : U64) : Option Stored → Bool × Option Stored
  | none => (false, none)
  | some (.flag b) =>
      if b then
        (true, some (.state ⟨true, now, some defaultMaxPauseDuration, none, none⟩))
      else (false, some (.flag b))
  | some (.state st) =>
      if st.paused then
        match st.maxDuration with
        | some maxDur =>
            if st.pausedAt.saturatingAdd maxDur ≤ now then
              (false, some (.state ⟨false, .lit 0, none, some now, st.unpauseCooldown⟩))
            else (true, some (.state st))
        | none => (true, some (.state st))
      else (false, some (.state st))

/-- What a read that answers `false` leaves, the next read at that time leaves alone. -/
theorem isPaused_idem {now : U64} {v : Option Stored} (h : (isPaused now v).1 = false) :
    isPaused now (isPaused now v).2 = (false, (isPaused now v).2) := by
  rcases v with _ | b | st
  · rfl
  · cases b with
    | false => rfl
    | true => cases h
  · rcases st with ⟨paused, pausedAt, maxDuration, unpausedAt, cooldown⟩
    cases paused with
    | false => rfl
    | true =>
        cases maxDuration with
        | none => cases h
        | some maxDur =>
            unfold isPaused at h
            dsimp only at h
            rw [if_pos rfl] at h
            split at h
            · -- the pause has run out, and the read has cleared it
              rename_i hout
              have hread : isPaused now (some (.state ⟨true, pausedAt, some maxDur, unpausedAt,
                  cooldown⟩)) = (false, some (.state ⟨false, .lit 0, none, some now, cooldown⟩)) := by
                unfold isPaused
                dsimp only
                rw [if_pos rfl, if_pos hout]
              rw [hread]
              rfl
            · cases h

/-- `storage.get::<_, PauseState>`: a typed read, which traps on a value of another type. -/
def readState : Option Stored → Outcome PausedError (Option PauseState)
  | none => .ok none
  | some (.flag _) => .error .trap
  | some (.state st) => .ok (some st)

/-- `get_pause_state`: the stored value is read raw first, and an answer from the storage is read again
after `is_paused` has gone over it. -/
def getPauseState (now : U64) (v : Option Stored) :
    Outcome PausedError (Option PauseState × Option Stored) :=
  match v with
  | none => .ok (none, none)
  | some (.state st) => do
      let v := (isPaused now (some (.state st))).2
      let st ← readState v
      return (st, v)
  | some (.flag b) =>
      if b then do
        let v := (isPaused now (some (.flag b))).2
        let st ← readState v
        return (st, v)
      else .ok (some ⟨false, .lit 0, none, none, none⟩, some (.flag b))

/-- `require_not_paused`: the gate, and the value left under the key either way. -/
def requireNotPaused (now : U64) (v : Option Stored) : Outcome PausedError Unit × Option Stored :=
  let (paused, v) := isPaused now v
  (Chain.reject (paused = true) (.contract .contractPaused), v)

/-- The re-pause check of `set_paused_with_cooldown`: pausing again within the cooldown of the
last unpause. -/
def inCooldown (now : U64) (paused : Bool) (current : Option PauseState)
    (unpauseCooldown : Option U64) : Bool :=
  match paused, current, unpauseCooldown with
  | true, some st, some cooldown =>
      match st.paused, st.unpausedAt with
      | false, some lastUnpaused => decide (now ≤ lastUnpaused.saturatingAdd cooldown)
      | _, _ => false
  | _, _, _ => false

/-- `set_paused_with_cooldown`. -/
def setPausedWithCooldown (now : U64) (v : Option Stored) (paused : Bool)
    (maxDuration unpauseCooldown : Option U64) : Outcome PausedError (Option Stored) := do
  let current ← readState v
  Chain.reject (inCooldown now paused current unpauseCooldown = true) (.contract .contractPaused)
  return some (.state
    { paused := paused
      pausedAt := if paused then now else .lit 0
      maxDuration :=
        if paused then
          some (min (maxDuration.getD defaultMaxPauseDuration) defaultMaxPauseDuration)
        else none
      unpausedAt := if !paused && current.isSome then some now else none
      unpauseCooldown := unpauseCooldown })

/-- `set_paused`: the default maximum duration, no cooldown. -/
def setPaused (now : U64) (v : Option Stored) (paused : Bool) :
    Outcome PausedError (Option Stored) :=
  setPausedWithCooldown now v paused none none

end Drip.Pause
