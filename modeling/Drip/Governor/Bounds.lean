import Drip.Governor.Effects

/-!
# Governor — Bounds

The configuration that the factory checks a stream against.  Each setter checks its argument against
the other parameters as they stand, so `Params.Bounded` survives them in any order; and each setter
asks for the pause flag first.
-/

namespace Drip.Governor
open Chain

variable {here : Address} {host : Host} {env : Env} {s s' : State} {c : Call} {a : Action}
variable {tokens : Ledger} {as : List Action}

structure GovernorConfig.Bounded (g : GovernorConfig) : Prop where
  duration_pos : 0 < g.minDurationSeconds.val
  duration_le : g.minDurationSeconds.val ≤ g.maxDurationSeconds.val
  rate_pos : 0 < g.maxRatePerSecond.val
  rate_fits : g.maxRatePerSecond.val * g.minDurationSeconds.val ≤ i128Max
  fee_le : g.feeBps.val ≤ 10000
  quorum_le : g.minQuorumBps.val ≤ 10000
  threshold_pos : 0 < g.forceCancelPauseSecs.val

/-- The same of the stored parameters, each read with its default. -/
structure Params.Bounded (p : Params) : Prop where
  sound : p.Sound
  duration_pos : 0 < p.minDurationOr.val
  duration_le : p.minDurationOr.val ≤ p.maxDurationOr.val
  rate_pos : 0 < p.maxRateOr.val
  rate_fits : p.maxRateOr.val * p.minDurationOr.val ≤ i128Max
  fee_le : p.feeBpsOr.val ≤ 10000
  recipient : p.factoryAddress.isSome = true → p.feeRecipient.isSome = true

theorem Params.Bounded.initial : ({} : Params).Bounded := by
  refine ⟨⟨?_, ?_⟩, ?_, ?_, ?_, ?_, ?_, ?_⟩ <;> decide

theorem Setting.bounded {p p' : Params} (h : Setting p p') (hp : p.Bounded) : p'.Bounded := by
  have hsound := h.sound hp.sound
  cases h with
  | initial feeRecipient factoryAddress =>
      refine ⟨hsound, ?_, ?_, ?_, ?_, ?_, fun _ => rfl⟩
      · exact (by decide : (0 : Int) < 3600)
      · exact (by decide : (3600 : Int) ≤ 315360000)
      · exact (by decide : (0 : Int) < 1000000000000000)
      · exact (by decide : (1000000000000000 : Int) * 3600 ≤ i128Max)
      · exact (by decide : (30 : Int) ≤ 10000)
  | feeBps v hle =>
      exact ⟨hsound, hp.duration_pos, hp.duration_le, hp.rate_pos, hp.rate_fits, hle, hp.recipient⟩
  | feeRecipient a =>
      exact ⟨hsound, hp.duration_pos, hp.duration_le, hp.rate_pos, hp.rate_fits, hp.fee_le,
        fun _ => rfl⟩
  | minDuration v hpos hle hfits =>
      have hge := v.ge
      have hpos' : 0 < v.val := by omega
      have hmax : p.maxRateOr.val * v.val ≤ i128Max := hfits ▸ Ranged.le _
      exact ⟨hsound, hpos', hle, hp.rate_pos, hmax, hp.fee_le, hp.recipient⟩
  | maxRate v hpos hfits =>
      have hmax : v.val * p.minDurationOr.val ≤ i128Max := hfits ▸ Ranged.le _
      exact ⟨hsound, hp.duration_pos, hp.duration_le, hpos, hmax, hp.fee_le, hp.recipient⟩
  | maxDuration v hle =>
      exact ⟨hsound, hp.duration_pos, hle, hp.rate_pos, hp.rate_fits, hp.fee_le, hp.recipient⟩
  | forceCancelPauseSecs | minQuorumBps | governanceSupply | proposalStake =>
      exact ⟨hsound, hp.duration_pos, hp.duration_le, hp.rate_pos, hp.rate_fits, hp.fee_le,
        hp.recipient⟩

theorem Step.bounded (h : Step here s a s') (hp : s.store.params.Bounded) :
    s'.store.params.Bounded := by
  cases h with
  | call _ h =>
      rcases (effect_of_exec h).params with heq | hset
      · rwa [heq]
      · exact hset.bounded hp
  | failed _ _ | ballot _ | outside _ => exact hp

theorem bounded_of_run (h : Run (Step here) (State.fresh tokens) as s) : s.store.params.Bounded :=
  h.invariant (P := fun s => s.store.params.Bounded) (fun _ => Step.bounded) .initial

theorem Params.Bounded.load (h : s.store.params.Bounded) (hinit : Initialized s) :
    ∃ config, loadConfig s = .ok config ∧ config.Bounded := by
  obtain ⟨factory, hfactory⟩ := Option.isSome_iff_exists.mp hinit
  obtain ⟨recipient, hrecipient⟩ := Option.isSome_iff_exists.mp (h.recipient hinit)
  unfold loadConfig
  dsimp only
  rw [hfactory, hrecipient]
  refine ⟨_, rfl, h.duration_pos, h.duration_le, h.rate_pos, h.rate_fits, h.fee_le, h.sound.quorum, ?_⟩
  exact lt_of_le_of_ne (Ranged.ge _) (Ne.symm h.sound.threshold)

/-! ### While paused -/

/-- The calls on proposals leave the parameters alone. -/
theorem Effect.params_kept (h : Effect env s c s') (hc : c.IsProposal = true) :
    s'.store.params = s.store.params := by
  cases h with
  | administers hno _ | sets hno _ _ =>
      rw [hc] at hno
      cases hno
  | initializes => cases hc
  | checkpoints => rfl
  | proposes _ _ _ h =>
      obtain ⟨tokens, -, rfl⟩ := transfer_eq_ok h
      rfl
  | executes _ h =>
      obtain ⟨-, rfl⟩ | ⟨amount, token, tokens, -, -, -, rfl⟩ := refund_eq_ok h
      · rfl
      · rfl
  | cancels _ _ _ => rfl

/-- No call changes a parameter while the governor is paused. -/
theorem params_of_paused (hinit : Initialized s) (hpaused : (isPaused env s).1 = true)
    (h : exec host env s c = .ok s') : s'.store.params = s.store.params := by
  have hset : c.sets = false := by
    rw [← Bool.not_eq_true]
    intro hset
    have hnot := (sets_of_exec hset h).1
    rw [hpaused] at hnot
    cases hnot
  by_cases hadm : c.administers = true
  · exact (administers_of_exec hadm h).params
  by_cases hprop : c.IsProposal = true
  · exact (effect_of_exec h).params_kept hprop
  cases c with
  | initializeGovernor authority feeRecipient factoryAddress =>
      simp only [exec, initializeGovernor, bind_eq_ok, reject_eq_ok] at h
      obtain ⟨-, hnew, -⟩ := h
      exact absurd hinit hnew
  | checkpointBalance caller voter weight =>
      simp only [exec, checkpointBalance, bind_eq_ok, pure_eq_ok] at h
      obtain ⟨-, -, rfl⟩ := h
      rfl
  | _ => first | exact absurd rfl hadm | exact absurd rfl hprop | cases hset

/-- **The configuration.**  From `initialize` on it can be loaded and is within its bounds, whatever
calls are made, and no call made while the governor is paused changes a parameter. -/
theorem config_of_run (h : Run (Step here) (State.fresh tokens) as s) (hinit : Initialized s) :
    (∃ config, loadConfig s = .ok config ∧ config.Bounded) ∧
    ∀ host env c s', (isPaused env s).1 = true → exec host env s c = .ok s' →
      s'.store.params = s.store.params :=
  ⟨(bounded_of_run h).load hinit, fun _ _ _ _ hpaused hexec => params_of_paused hinit hpaused hexec⟩

/-- The longest streams shortened to an hour, the least rate, and a pause. -/
theorem config_of_run_paused :
    let s := Sample.reached [(.lit 110, .setMaxDuration (.account 1) (.lit 3600)),
      (.lit 120, .setMaxRate (.account 1) (.lit 1)), (.lit 130, .governorPause (.account 1))]
    (∃ config, loadConfig s = .ok config ∧ config.Bounded) ∧
      (Sample.next s (Sample.envAt (.lit 140)) (.grantRole (.account 1) .executor (.account 4))).store.params
        = s.store.params := by
  intro s
  have hrun : Run (Step Sample.address) (State.fresh Sample.tokens) _ s :=
    Sample.run_reached (by decide)
  obtain ⟨hconfig, hkept⟩ := config_of_run hrun (by decide)
  exact ⟨hconfig, hkept Sample.host (Sample.envAt (.lit 140)) _ _ (by decide)
    (Sample.exec_next (by decide))⟩

end Drip.Governor
