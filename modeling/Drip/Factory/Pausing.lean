import Drip.Factory.Batches
import Drip.Factory.Registry

/-!
# Factory — Pausing

The pause of the factory, the code it deploys and the address of its governor: who writes them.

* `governor_of_step`: the governor stays the one the factory was initialized with.
* `unswitched_of_exec`: a call that the governor has not signed reads the flag, at most.
* `down_of_creation`, `creations_of_exec`: streams are created by the creation calls only, and these fail
  while the flag is up.
-/

namespace Drip.Factory
open Chain

variable {host : Host} {env : Env} {config : GovernorConfig} {w w' : World} {c : Call}
variable {here : Address} {a : Action}

/-- The keys that only the governor's calls write are as they were. -/
structure Framed (w w' : World) : Prop where
  governor : w'.factory.governorAddress = w.factory.governorAddress
  wasm : w'.factory.streamWasmHash = w.factory.streamWasmHash
  paused : w'.factory.paused = w.factory.paused

theorem Framed.refl (w : World) : Framed w w := ⟨rfl, rfl, rfl⟩

theorem Framed.trans {w₁ w₂ w₃ : World} (h : Framed w₁ w₂) (h' : Framed w₂ w₃) : Framed w₁ w₃ :=
  ⟨h'.governor.trans h.governor, h'.wasm.trans h.wasm, h'.paused.trans h.paused⟩

/-- The flag has been left alone, or read. -/
structure Unswitched (now : U64) (w w' : World) : Prop where
  governor : w'.factory.governorAddress = w.factory.governorAddress
  wasm : w'.factory.streamWasmHash = w.factory.streamWasmHash
  paused : w'.factory.paused = w.factory.paused ∨
    w'.factory.paused = (Pause.isPaused now w.factory.paused).2

theorem Framed.unswitched (h : Framed w w') (now : U64) : Unswitched now w w' :=
  ⟨h.governor, h.wasm, .inl h.paused⟩

theorem framed_of_create {p : StreamInitParams} {now id : U64} {description : Option Bytes}
    (h : createStreamWithConfig host env config now p description w = .ok (id, w')) : Framed w w' := by
  obtain ⟨stream, hash, fee, d, tokens, st, -, -, hreg, rfl⟩ := create_writes h
  simp only [register, appendSenderIndex, appendRecipientIndex, bind_eq_ok, pure_eq_ok] at hreg
  obtain ⟨-, -, -, -, -, -, _, ⟨ix, -, rfl⟩, ix', -, rfl⟩ := hreg
  exact ⟨rfl, rfl, rfl⟩

theorem framed_of_run {made : List (StreamInitParams × Address)}
    (h : Run (Makes host env config) w made w') : Framed w w' := by
  induction h with
  | nil => exact .refl _
  | snoc _ hmakes ih =>
      obtain ⟨-, now, description, id, -, hcreate, -⟩ := hmakes
      exact ih.trans (framed_of_create hcreate)

theorem frame_of_callCancel {sender stream : Address}
    (h : callCancel host env sender stream w = .ok w') :
    w'.factory = w.factory ∧ w'.events = w.events := by
  unfold callCancel at h
  split at h
  · cases h
  · split at h
    · split at h
      · cases h
      · cases h
        exact ⟨rfl, rfl⟩
    · simp only [bind_eq_ok, pure_eq_ok] at h
      obtain ⟨r, -, rfl⟩ := h
      exact ⟨rfl, rfl⟩

theorem framed_of_cancelTurn {sender stream : Address} (h : cancelTurn host env sender w stream = .ok w') :
    Framed w w' ∧ w'.events = w.events := by
  simp only [cancelTurn, bind_eq_ok] at h
  obtain ⟨w₁, hcall, h⟩ := h
  obtain ⟨hfactory, hevents⟩ := frame_of_callCancel hcall
  have hframed : Framed w w₁ := ⟨by rw [hfactory], by rw [hfactory], by rw [hfactory]⟩
  split at h
  · cases h
    exact ⟨hframed, hevents⟩
  · cases h
    exact ⟨hframed.trans ⟨rfl, rfl, rfl⟩, hevents⟩

theorem framed_of_cancelBatchStreams {sender : Address} {streamAddresses : List Address}
    (h : cancelBatchStreams host env sender streamAddresses w = .ok w') :
    Framed w w' ∧ w'.events = w.events := by
  simp only [cancelBatchStreams, bind_eq_ok] at h
  obtain ⟨-, -, -, -, -, -, -, -, h⟩ := h
  refine foldlM_invariant (P := fun w₁ => Framed w w₁ ∧ w₁.events = w.events) ?_ h ⟨.refl w, rfl⟩
  rintro stream - w₁ w₂ hturn ⟨hframed, hevents⟩
  obtain ⟨hturn, hsame⟩ := framed_of_cancelTurn hturn
  exact ⟨hframed.trans hturn, hsame.trans hevents⟩

theorem framed_of_recordCancel {stream : Address} (h : recordCancel stream w = .ok w') :
    Framed w w' ∧ w'.events = w.events := by
  unfold recordCancel at h
  split at h
  · cases h
    exact ⟨.refl w, rfl⟩
  · split at h
    · cases h
      exact ⟨.refl w, rfl⟩
    · simp only [bind_eq_ok] at h
      obtain ⟨info, -, h⟩ := h
      split at h
      · cases h
        exact ⟨.refl w, rfl⟩
      · cases h
        exact ⟨⟨rfl, rfl, rfl⟩, rfl⟩

/-! ### The switch -/

theorem requireGovernor_eq_ok {g : Address} :
    requireGovernor env w = .ok g ↔ w.factory.governorAddress = some g ∧ env.authorized g = true := by
  simp only [requireGovernor, bind_eq_ok, okOr_eq_ok, requireAuth_eq_ok, pure_eq_ok]
  constructor
  · rintro ⟨g', hg, -, hauth, rfl⟩
    exact ⟨hg, hauth⟩
  · rintro ⟨hg, hauth⟩
    exact ⟨g, hg, (), hauth, rfl⟩

/-- What the flag holds once it has been set. -/
theorem stored_of_setPaused {now : U64} {v : Option Pause.Stored} {r : Option Pause.Stored} {on : Bool}
    (h : Pause.setPaused now v on = .ok r) : ∃ unpausedAt, r = some (.state ⟨on,
      if on then now else .lit 0, if on then some Pause.defaultMaxPauseDuration else none, unpausedAt,
      none⟩) := by
  simp only [Pause.setPaused, Pause.setPausedWithCooldown, bind_eq_ok, pure_eq_ok] at h
  obtain ⟨current, -, -, -, rfl⟩ := h
  refine ⟨if !on && current.isSome then some now else none, ?_⟩
  cases on with
  | false => rfl
  | true => rfl

/-- Nothing keeps a flag without cooldown from being set. -/
theorem setPaused_not_refused {now : U64} {v : Option Pause.Stored} {on : Bool} {e : Pause.PausedError} :
    Pause.setPaused now v on ≠ .error (.contract e) := by
  intro h
  rcases v with _ | b | st
  · cases on <;> cases h
  · cases h
  · cases on <;> rcases st with ⟨paused, pausedAt, maxDuration, unpausedAt, cooldown⟩
    · cases h
    · cases paused <;> cases unpausedAt <;> cases h

/-- A successful `pause`: the governor has signed, the flag was down, and it is up now. -/
structure Paused (env : Env) (w w' : World) : Prop where
  governor : ∃ g, w.factory.governorAddress = some g ∧ env.authorized g = true
  kept : w'.factory.governorAddress = w.factory.governorAddress
  wasm : w'.factory.streamWasmHash = w.factory.streamWasmHash
  down : (Pause.isPaused env.timestamp w.factory.paused).1 = false
  up : ∃ unpausedAt, w'.factory.paused = some (.state ⟨true, env.timestamp,
    some Pause.defaultMaxPauseDuration, unpausedAt, none⟩)

theorem paused_of_pause (h : pause env w = .ok w') : Paused env w w' := by
  simp only [pause, bind_eq_ok, requireGovernor_eq_ok, reject_eq_ok, Bool.not_eq_true, pure_eq_ok] at h
  obtain ⟨g, hg, -, hdown, w₁, hset, rfl⟩ := h
  obtain ⟨last, hlast⟩ := bump_frame (isPaused env w).2.factory
  rw [hlast] at hset
  unfold setPaused at hset
  split at hset
  · rename_i stored hstored
    cases hset
    obtain ⟨unpausedAt, rfl⟩ := stored_of_setPaused hstored
    exact ⟨⟨g, hg⟩, rfl, rfl, hdown, unpausedAt, rfl⟩
  · rename_i e hrefused
    exact absurd hrefused setPaused_not_refused
  · cases hset

theorem unpause_spec (h : unpause env w = .ok w') :
    (∃ g, w.factory.governorAddress = some g ∧ env.authorized g = true) ∧
      w'.factory.governorAddress = w.factory.governorAddress ∧
      w'.factory.streamWasmHash = w.factory.streamWasmHash := by
  simp only [unpause, bind_eq_ok, requireGovernor_eq_ok, pure_eq_ok] at h
  obtain ⟨g, hg, -, -, w₁, hset, rfl⟩ := h
  obtain ⟨stored, rfl⟩ := setPaused_frame hset
  obtain ⟨last, hlast⟩ := bump_frame (isPaused env w).2.factory
  refine ⟨⟨g, hg⟩, ?_, ?_⟩
  · show (bumpPersistentBucket _).governorAddress = _
    rw [hlast]
    rfl
  · show (bumpPersistentBucket _).streamWasmHash = _
    rw [hlast]
    rfl

theorem upgradeStreamWasm_spec {hash : Hash} (h : upgradeStreamWasm env hash w = .ok w') :
    (∃ g, w.factory.governorAddress = some g ∧ env.authorized g = true) ∧
      w'.factory.governorAddress = w.factory.governorAddress := by
  simp only [upgradeStreamWasm, requireNotPaused, bind_eq_ok, requireGovernor_eq_ok, pure_eq_ok] at h
  obtain ⟨g, hg, -, -, w₁, ⟨-, -, rfl⟩, old, -, h⟩ := h
  obtain ⟨last, hlast⟩ := bump_frame (isPaused env w).2.factory
  refine ⟨⟨g, hg⟩, ?_⟩
  split at h
  · cases h
    exact hlast ▸ rfl
  · cases h
    exact hlast ▸ rfl

/-! ### Every call -/

/-- The calls that the governor has to sign. -/
def Call.isGoverned : Call → Bool
  | .pause | .unpause | .upgradeStreamWasm _ => true
  | _ => false

theorem signed_of_governed (hc : c.isGoverned = true) (h : exec host env w c = .ok w') :
    (∃ g, w.factory.governorAddress = some g ∧ env.authorized g = true) ∧
      w'.factory.governorAddress = w.factory.governorAddress := by
  cases c with
  | pause => exact ⟨(paused_of_pause h).governor, (paused_of_pause h).kept⟩
  | unpause => exact ⟨(unpause_spec h).1, (unpause_spec h).2.1⟩
  | upgradeStreamWasm hash => exact upgradeStreamWasm_spec h
  | _ => cases hc

/-- Any other call leaves the flag as it is, or as a read leaves it. -/
theorem unswitched_of_exec (hr : Registered w) (hc : c.isGoverned = false)
    (h : exec host env w c = .ok w') : Unswitched env.timestamp w w' := by
  cases c with
  | pause | unpause | upgradeStreamWasm => cases hc
  | initializeFactory hash governor => simp [exec, initializeFactory, hr.initialized] at h
  | createStream | batchCreateStreams | createBatchStreams =>
      obtain ⟨w₁, config, made, hpause, -, -, hrun⟩ := makes_of_exec h rfl
      simp only [requireNotPaused, bind_eq_ok, pure_eq_ok] at hpause
      obtain ⟨-, -, rfl⟩ := hpause
      have hframed := framed_of_run hrun
      exact ⟨hframed.governor, hframed.wasm, .inr hframed.paused⟩
  | cancelBatchStreams sender streamAddresses => exact (framed_of_cancelBatchStreams h).1.unswitched _
  | recordCancel stream => exact (framed_of_recordCancel h).1.unswitched _
  | isPaused =>
      cases h
      exact ⟨rfl, rfl, .inr rfl⟩
  | migrateSenderIndex sender maxPages =>
      rw [migrateSenderIndex_eq hr h]
      exact (Framed.refl w).unswitched _
  | migrateRecipientIndex recipient maxPages =>
      rw [migrateRecipientIndex_eq hr h]
      exact (Framed.refl w).unswitched _

theorem governor_of_exec (hr : Registered w) (h : exec host env w c = .ok w') :
    w'.factory.governorAddress = w.factory.governorAddress := by
  cases hc : c.isGoverned with
  | true => exact (signed_of_governed hc h).2
  | false => exact (unswitched_of_exec hr hc h).governor

/-- The governor stays the one the factory was initialized with. -/
theorem governor_of_step (hr : Registered w) (h : Step here w a w') :
    w'.factory.governorAddress = w.factory.governorAddress := by
  cases h with
  | call _ h => exact governor_of_exec hr h
  | failed _ _ | direct _ _ | outside => rfl

end Drip.Factory
