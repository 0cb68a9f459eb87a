import Drip.Stream.Settlement
import Drip.Stream.Issued

/-!
# Stream — Freeze

What the emergency freeze stops.  `emergency_pause` stores a flag of its own, beside the pause of the
schedule, and no entry point that pays reads it.

* `outflow_of_exec`: what each call sends out of the contract, frozen or not.
* `withheld_of_run`: while the freeze is on, the stream token stays in the contract exactly in the
  runs whose calls have nothing to pay anyway.
-/

namespace Drip.Stream
open Chain

variable {env : Env} {here : Address} {m m' m₀ : Moment} {a : Action} {as : List Action}
variable {s s' : State} {info info' : StreamInfo} {c : Call} {ts us : List Transfer}

/-- The freeze is on at `now`: what `is_emergency_paused` answers. -/
def Frozen (now : U64) (s : State) : Prop := (Pause.isPaused now s.store.emergencyPaused).1 = true

/-- A call that has nothing to pay: a withdrawal always has, a settlement the balance, a clawback
the balance beyond what is owed. -/
def Call.PaysNothing (c : Call) (env : Env) (s : State) (info : StreamInfo) : Prop :=
  match c with
  | .withdraw _ => False
  | .cancel _ | .forceCancel => (s.tokens.balance info.token env.contract).val = 0
  | .clawback _ => ∀ v, streamedAmount env s info = .ok v →
      (s.tokens.balance info.token env.contract).val ≤ max (v.val - info.withdrawn.val) 0
  | _ => True

/-! ### What a call sends -/

theorem outflow_append {token holder : Address} :
    outflow token holder (ts ++ us) = outflow token holder ts + outflow token holder us := by
  simp [outflow]

theorem Paid.outflow {token : Address} (h : Paid here token s ts s') :
    outflow token here s'.transfers = outflow token here s.transfers + sent ts := by
  rw [h.transfers, outflow_append]
  congr 1
  refine congrArg List.sum (List.map_congr_left fun t ht => ?_)
  obtain ⟨htoken, hsrc, -⟩ := h.outgoing t ht
  exact if_pos ⟨htoken, hsrc⟩

/-- A settlement sends the whole balance. -/
theorem outflow_of_settlement (hs : Sound env.contract s info env.timestamp.val)
    (hc : c.IsSettlement = true) (h : exec env s c = .ok s') :
    outflow info.token env.contract s'.transfers = outflow info.token env.contract s.transfers +
      (s.tokens.balance info.token env.contract).val := by
  obtain ⟨event, s₁, u, hset, rfl⟩ := settle_of_exec hc hs.config h
  obtain ⟨v, w, n, ts, us, -, -, -, -, hpaid, -, hre⟩ := settle_spec hset hs.split_le
  have hre : sent us = (s.tokens.balance info.token env.contract).val - sent ts := hre.sent
  have hout : outflow info.token env.contract s₁.released.transfers =
    outflow info.token env.contract s.transfers + sent (ts ++ us) := hpaid.outflow
  rw [hout, sent_append, hre]
  omega

/-- The calls that pay the stream token. -/
def Call.IsPaying : Call → Bool
  | .withdraw _ | .cancel _ | .forceCancel | .clawback _ => true
  | _ => false

/-- Deposits, the keeper's calls and the settings send none of the stream token. -/
theorem outflow_of_other (hs : Sound env.contract s info env.timestamp.val)
    (hc : c.IsPaying = false) (h : exec env s c = .ok s') :
    outflow info.token env.contract s'.transfers = outflow info.token env.contract s.transfers := by
  obtain ⟨ts, ⟨htr, -⟩, hissues⟩ := issued_of_exec hs h
  rw [htr, outflow_append]
  suffices houtflow : outflow info.token env.contract ts = 0 by omega
  cases c with
  | withdraw | cancel | forceCancel | clawback => cases hc
  | topUp | topUpAndExtend =>
      obtain ⟨hne, rfl⟩ := hissues
      simp [outflow, hne]
  | extendDuration =>
      obtain ⟨d, -, hne, rfl⟩ := hissues
      simp [outflow, hne]
  | fundKeeperRewardPool | withdrawKeeperRewardPool | keeperPing =>
      obtain ⟨pool, hpool, rfl⟩ := hissues
      simp [outflow, hs.pool_token pool hpool]
  | _ =>
      obtain rfl := hissues
      rfl

theorem outflow_of_exec (hs : Sound env.contract s info env.timestamp.val)
    (h : exec env s c = .ok s') :
    outflow info.token env.contract s'.transfers = outflow info.token env.contract s.transfers ↔
      c.PaysNothing env s info := by
  cases hc : c.IsPaying with
  | false =>
      refine ⟨fun _ => ?_, fun _ => outflow_of_other hs hc h⟩
      cases c <;> first | exact trivial | cases hc
  | true =>
      cases c with
      | withdraw amount =>
          obtain ⟨x, h⟩ := after_eq_ok.mp h
          obtain ⟨v, w, n, ts, -, -, -, -, hpaid, -, hpos, -⟩ :=
            withdraw_spec hs.config hs.withdrawn_nonneg hs.split_le h
          rw [hpaid.outflow]
          exact ⟨fun h => absurd hpos (by omega), False.elim⟩
      | cancel | forceCancel =>
          rw [outflow_of_settlement hs rfl h]
          exact ⟨fun h => by unfold Call.PaysNothing; omega, fun h => by
            unfold Call.PaysNothing at h; omega⟩
      | clawback caller =>
          obtain ⟨-, -, -, v, n, ts, hv, -, -, hpaid, hre⟩ := clawback_spec hs.config h
          rw [hpaid.outflow, hre.sent]
          unfold reclaimable
          constructor
          · intro hzero v' hv'
            obtain rfl := Except.ok.inj (hv.symm.trans hv')
            omega
          · intro hle
            have := hle v hv
            omega
      | _ => cases hc

/-! ### While the freeze is on -/

/-- A step taken while the freeze is on. -/
def FrozenStep (here : Address) (m : Moment) (a : Action) (m' : Moment) : Prop :=
  Step here m a m' ∧ ∀ env c, a = .call env c → Frozen env.timestamp m.state

/-- The calls that have nothing to pay. -/
def PaysNothing (m : Moment) (a : Action) : Prop :=
  ∀ env c info, a = .call env c → m.state.store.config = some info → c.PaysNothing env m.state info

/-- Since `m`, none of the stream token has been sent out of the contract. -/
def Withheld (here : Address) (m : Moment) (info : StreamInfo) (m' : Moment) : Prop :=
  outflow info.token here m'.state.transfers = outflow info.token here m.state.transfers

theorem withheld_of_step {m₁ : Moment} (hs : Sound here m.state info m.clock.val)
    (hs' : Sound here m'.state info' m'.clock.val) (hw : Withheld here m₁ info m)
    (hstep : Step here m a m') : Withheld here m₁ info' m' ↔ PaysNothing m a := by
  unfold Withheld at hw ⊢
  cases hstep with
  | outside h =>
      obtain rfl := Option.some.inj (hs.config.symm.trans hs'.config)
      exact ⟨fun _ env c info₁ ha => (by cases ha), fun _ => hw⟩
  | call henv hclock h =>
      subst henv
      obtain ⟨info₁, kept, hc⟩ := called_of_exec hs rfl hclock h
      obtain rfl := Option.some.inj (hs'.config.symm.trans hc.effect.sound.config)
      rw [hc.effect.token, ← hw]
      refine (outflow_of_exec hc.sound h).trans ⟨?_, ?_⟩
      · rintro hk env c info₂ ⟨⟩ hi
        obtain rfl := Option.some.inj (hs.config.symm.trans hi)
        exact hk
      · exact fun hk => hk _ _ info rfl hs.config

/-- **While the freeze is on, the stream token stays in the contract exactly in the runs whose calls
have nothing to pay.**  No entry point asks whether the freeze is on. -/
theorem withheld_of_run (hr : Reachable here m) :
    (Run (fun m a m' => FrozenStep here m a m' ∧ PaysNothing m a) m as m' →
      Holds (Withheld here m) m') ∧
    (Run (fun m₁ a m₂ => FrozenStep here m₁ a m₂ ∧ Holds (Withheld here m) m₂) m as m' ↔
      Run (fun m a m' => FrozenStep here m a m' ∧ PaysNothing m a) m as m') := by
  obtain ⟨info, hs⟩ := sound_of_reachable hr
  refine Sound.keeps (fun _ _ _ h => h.1) ?_ hs rfl
  intro m₁ a m₂ info₁ info₂ hstep hs₁ hs₂ hw
  exact withheld_of_step hs₁ hs₂ hw hstep.1

/-- The sample stream under the freeze. -/
def Sample.frozen : Moment := reached Sample.args [(.lit 200, .emergencyPause sender)]

theorem Sample.reachable_frozen : Reachable address frozen :=
  reachable_reached (by decide +kernel) (by decide +kernel)

/-- A deposit is no payment. -/
theorem withheld_of_run_frozen :
    Frozen (.lit 300) Sample.frozen.state ∧ Holds (Withheld Sample.address Sample.frozen)
      (Sample.next Sample.frozen (.lit 300) (.topUp Sample.sender (.lit 50))) := by
  have hfrozen : Frozen (.lit 300) Sample.frozen.state := by
    unfold Frozen
    decide +kernel
  have hstep : Step Sample.address Sample.frozen
      (.call (Sample.envAt (.lit 300)) (.topUp Sample.sender (.lit 50)))
      (Sample.next Sample.frozen (.lit 300) (.topUp Sample.sender (.lit 50))) :=
    Sample.step_next (by decide +kernel) (by decide +kernel)
  refine ⟨hfrozen, (withheld_of_run Sample.reachable_frozen).1 ((Run.nil _).snoc ⟨⟨hstep, ?_⟩, ?_⟩)⟩
  · rintro env c ⟨⟩
    exact hfrozen
  · rintro env c info ⟨⟩ -
    exact trivial

/-- Under the freeze, the recipient withdraws five hundred tokens. -/
theorem frozen_withdraws :
    ∃ m s' info, Reachable Sample.address m ∧ m.state.store.config = some info ∧
      (isEmergencyPaused (Sample.envAt (.lit 300)) m.state).1 = true ∧
      exec (Sample.envAt (.lit 300)) m.state (.withdraw (.lit 500)) = .ok s' ∧
      outflow info.token Sample.address s'.transfers =
        outflow info.token Sample.address m.state.transfers + 500 :=
  ⟨Sample.frozen, (Sample.next Sample.frozen (.lit 300) (.withdraw (.lit 500))).state,
    Sample.infoOf Sample.frozen.state, Sample.reachable_frozen, by decide +kernel, by decide +kernel,
    Sample.exec_next (by decide +kernel), by decide +kernel⟩

end Drip.Stream
