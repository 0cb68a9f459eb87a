import Drip.Stream.Footprint

/-!
# Stream — Announced

The log of a stream by its events alone, as its readers see it: `State.log`.

* `Call.Announces c env s info es`: the events a successful call publishes, in order.
* `announced_of_exec`: every successful call adds to the log what it announces.
* `withdrew_of_exec`: a withdrawal, with the flag it leaves about the completion.
-/

namespace Drip.Stream
open Chain

variable {env : Env} {here : Address} {s s₁ s' : State} {info : StreamInfo} {c : Call} {e : Event}
variable {es : List Event} {amount balance remaining total x : I128}

/-- The events published, oldest first. -/
def State.log (s : State) : List Event := s.events.map Published.event

theorem publish_log (hp : publish s₁ e = .ok s') (he : s₁.events = s.events) :
    s'.log = s.log ++ [e] := by
  obtain ⟨-, info₁, n, -, -, rfl⟩ := publish_eq_ok.mp hp
  show (s₁.events ++ [Published.mk n e]).map Published.event = _
  rw [he, List.map_append]
  rfl

/-- A new stream has announced its creation, and nothing else. -/
theorem log_of_born {args : InitArgs} {m : Moment} (h : Born here args m) :
    m.state.log = [.created args.sender args.recipient args.token args.ratePerSecond args.startTime
      args.endTime currentStorageVersion] ∧ m.state.store.streamCompleted = none := by
  obtain ⟨env, tokens, s₀, -, -, h₀, hm⟩ := h
  simp [initializeStream, initializeReading, State.fresh, publish_eq_ok] at h₀
  obtain ⟨-, -, -, -, -, -, -, d, -, -, -, n, hn, rfl⟩ := h₀
  rw [hm]
  exact ⟨rfl, rfl⟩

/-! ### What each call announces -/

/-- The announcement of the cliff, at the first withdrawal past it. -/
def cliffNotice (env : Env) (s : State) (info : StreamInfo) : List Event :=
  match s.store.cliffConfig with
  | some cliff =>
      if cliff.cliffTime ≤ env.timestamp ∧ s.store.cliffReached = none then
        [.cliffReached info.recipient env.timestamp cliff.cliffUnlockAmount]
      else []
  | none => []

/-- The announcement of the completion, at the first withdrawal that leaves nothing. -/
def completionNotice (s : State) (info : StreamInfo) (balance remaining total : I128) :
    List Event :=
  if remaining.val = 0 ∧ (0 < info.endTime.val ∨ 0 < balance.val) ∧ s.store.streamCompleted = none
  then [.streamCompleted info.recipient total]
  else []

/-- The figures of a withdrawal: what it paid, the total so far, and what it left. -/
structure Drawn (env : Env) (s : State) (info : StreamInfo) (amount x total remaining : I128) :
    Prop where
  paid : ∃ v, streamedAmount env s info = .ok v ∧ x.val = payable v.val info.withdrawn.val amount.val
    (s.balance info.token env.contract).val
  pos : 0 < x.val
  sum : total.val = info.withdrawn.val + x.val
  rest : remaining.val = (s.balance info.token env.contract).val - x.val

def Call.Announces (c : Call) (env : Env) (s : State) (info : StreamInfo) (es : List Event) : Prop :=
  match c with
  | .initializeStream _ => False
  | .withdraw amount => ∃ x total remaining, Drawn env s info amount x total remaining ∧
      es = .withdrawn info.recipient x total remaining :: (cliffNotice env s info ++
        completionNotice s info (s.balance info.token env.contract) remaining total)
  | .cancel _ => ∃ refund total, es = [.cancelled info.sender refund total refund]
  | .forceCancel => ∃ refund total, es = [.forceCancelled info.sender refund total refund]
  | .clawback caller => ∃ x, es = [.clawback caller x]
  | .topUp caller amount => ∃ b, es = [.toppedUp caller amount b]
  | .extendDuration caller _ => ∃ amount b, es = [.toppedUp caller amount b]
  | .topUpAndExtend caller _ _ => ∃ b b' e, es = [.toppedUpAndExtended caller b b' info.endTime e]
  | .pause caller => ∃ w, es = [.paused caller env.timestamp w]
  | .resume caller => es = [.resumed caller env.timestamp]
  | .changeRate caller rate => es = [.rateChanged caller info.ratePerSecond rate]
  | .setCliff caller time amount => es = [.cliffConfigured caller time amount]
  | .transferRecipient r => es = [.recipientTransferred info.recipient r]
  | .setSplitRecipient caller secondary bps => es = [.splitRecipientSet caller secondary bps]
  | .removeSplitRecipient caller => es = [.splitRecipientRemoved caller]
  | .setOperator caller op =>
      es = if s.store.operator = some op then []
        else (if s.store.operator.isSome then [.operatorRevoked caller] else []) ++
          [.operatorSet caller op]
  | .revokeOperator caller => es = [.operatorRevoked caller]
  | .setMinWithdrawalInterval caller secs => es = [.minWithdrawalIntervalSet caller secs]
  | .emergencyPause caller => es = [.emergencyPaused caller env.timestamp]
  | .emergencyUnpause caller => es = [.emergencyUnpaused caller env.timestamp]
  | .configureKeeperRewardPool caller token reward =>
      es = [.keeperRewardPoolConfigured caller token reward]
  | .fundKeeperRewardPool caller amount => ∃ token, es = [.keeperRewardPoolFunded caller token amount]
  | .withdrawKeeperRewardPool caller amount =>
      ∃ token, es = [.keeperRewardPoolWithdrawn caller token amount]
  | .keeperPing keeper => ∃ bounty, es = [.keeperPing keeper bounty]
  | .setAutoForwardAddress _ | .setStreamTitle .. | .setReferenceTag .. | .setInvoiceMetadataUri ..
  | .setMilestoneMetadataUri .. | .setStreamConfig .. | .isEmergencyPaused => es = []

/-! ### A withdrawal -/

theorem cliffNotice_congr (hc : s₁.store.cliffConfig = s.store.cliffConfig)
    (hr : s₁.store.cliffReached = s.store.cliffReached) :
    cliffNotice env s₁ info = cliffNotice env s info := by
  unfold cliffNotice
  rw [hc, hr]

theorem completionNotice_congr (h : s₁.store.streamCompleted = s.store.streamCompleted) :
    completionNotice s₁ info balance remaining total =
      completionNotice s info balance remaining total := by
  unfold completionNotice
  rw [h]

theorem markCliffReached_log (h : markCliffReached env s info = .ok s') :
    s'.log = s.log ++ cliffNotice env s info ∧
      s'.store.streamCompleted = s.store.streamCompleted := by
  unfold markCliffReached at h
  unfold cliffNotice
  cases hc : s.store.cliffConfig with
  | none =>
      rw [hc] at h
      cases h
      exact ⟨(List.append_nil _).symm, rfl⟩
  | some cliff =>
      rw [hc] at h
      by_cases hr : cliff.cliffTime ≤ env.timestamp ∧ s.store.cliffReached = none
      · simp only [if_pos hr] at h ⊢
        refine ⟨publish_log h rfl, ?_⟩
        obtain ⟨-, info₁, n, -, -, rfl⟩ := publish_eq_ok.mp h
        rfl
      · simp only [if_neg hr] at h ⊢
        cases h
        exact ⟨(List.append_nil _).symm, rfl⟩

theorem markCompleted_log (h : markCompleted s info balance remaining total = .ok s') :
    s'.log = s.log ++ completionNotice s info balance remaining total ∧
      (s'.store.streamCompleted = none ↔ s.store.streamCompleted = none ∧
        completionNotice s info balance remaining total = []) := by
  unfold markCompleted at h
  unfold completionNotice
  split at h
  · rename_i hr
    refine ⟨by rw [if_pos hr]; exact publish_log h rfl, ?_⟩
    obtain ⟨-, info₁, n, -, -, rfl⟩ := publish_eq_ok.mp h
    rw [if_pos hr]
    simp [State.published]
  · rename_i hr
    cases h
    simp [if_neg hr]

/-- A withdrawal: its figures, what it announced, and the flag it left. -/
structure Withdrew (env : Env) (s : State) (info : StreamInfo) (amount : I128) (s' : State)
    (x total remaining : I128) : Prop extends Drawn env s info amount x total remaining where
  log : s'.log = s.log ++ .withdrawn info.recipient x total remaining :: (cliffNotice env s info ++
    completionNotice s info (s.balance info.token env.contract) remaining total)
  flag : s'.store.streamCompleted = none ↔ s.store.streamCompleted = none ∧
    completionNotice s info (s.balance info.token env.contract) remaining total = []

theorem withdrew_of_exec (hi : s.store.config = some info) (hw : 0 ≤ info.withdrawn.val)
    (h : exec env s (.withdraw amount) = .ok s') :
    ∃ x total remaining, Withdrew env s info amount s' x total remaining := by
  obtain ⟨x, h⟩ := after_eq_ok.mp h
  obtain ⟨d⟩ := exists_withdrawing hi h
  obtain ⟨v, hv, hval⟩ := withdrawable_val hw d.computes
  obtain ⟨hs₂, he₂⟩ := payRecipient_silent d.pays
  have hx : x.val =
      payable v.val info.withdrawn.val amount.val (s.balance info.token env.contract).val := by
    rw [d.sends, Ranged.val_min, Ranged.val_min, hval]
    rfl
  -- three events at most: the withdrawal, then the cliff, then the completion
  have hlog₃ := publish_log (s := s) d.publishes he₂
  obtain ⟨hlog₄, hflag₄⟩ := markCliffReached_log d.marks
  obtain ⟨hlog₅, hflag₅⟩ := markCompleted_log d.completes
  obtain ⟨hconfig, hreached, hcompleted⟩ : d.published.store.cliffConfig = s.store.cliffConfig ∧
      d.published.store.cliffReached = s.store.cliffReached ∧
      d.published.store.streamCompleted = s.store.streamCompleted := by
    obtain ⟨-, info₁, n, -, -, hpub⟩ := publish_eq_ok.mp d.publishes
    rw [hpub]
    show d.paid.store.cliffConfig = _ ∧ d.paid.store.cliffReached = _ ∧ d.paid.store.streamCompleted = _
    rw [hs₂]
    exact ⟨rfl, rfl, rfl⟩
  have hflag : d.marked.store.streamCompleted = s.store.streamCompleted := hflag₄.trans hcompleted
  rw [cliffNotice_congr hconfig hreached] at hlog₄
  rw [completionNotice_congr hflag] at hlog₅ hflag₅
  rw [hflag] at hflag₅
  have hlog : d.done.released.log = s.log ++ .withdrawn info.recipient x d.total d.remaining ::
      (cliffNotice env s info ++ completionNotice s info (s.balance info.token env.contract)
        d.remaining d.total) := by
    show d.done.log = _
    rw [hlog₅, hlog₄, hlog₃]
    simp only [List.append_assoc, List.singleton_append]
    rfl
  have hflag' : d.done.released.store.streamCompleted = none ↔ _ := hflag₅
  rw [← d.releases] at hlog hflag'
  exact ⟨x, d.total, d.remaining, ⟨⟨v, hv, hx⟩, d.positive, d.adds, d.leaves⟩, hlog, hflag'⟩

/-! ### Every call -/

/-- A call that publishes one event, after writes and payments that publish nothing. -/
theorem announced_of_publish_unguarded (hp : publish s₁ e = .ok s') (he : s₁.events = s.events)
    (ha : c.Announces env s info [e]) : ∃ es, s'.log = s.log ++ es ∧ c.Announces env s info es :=
  ⟨[e], publish_log hp he, ha⟩

/-- The same under the guard. -/
theorem announced_of_publish (hp : publish s₁ e = .ok s') (he : s₁.events = s.events)
    (ha : c.Announces env s info [e]) :
    ∃ es, s'.released.log = s.log ++ es ∧ c.Announces env s info es := by
  have hlog : s'.log = s.log ++ [e] := publish_log hp he
  exact ⟨[e], hlog, ha⟩

/-- A call that publishes nothing. -/
theorem announced_of_silent (he : s'.events = s.events) (ha : c.Announces env s info []) :
    ∃ es, s'.log = s.log ++ es ∧ c.Announces env s info es := by
  refine ⟨[], ?_, ha⟩
  unfold State.log
  rw [he, List.append_nil]

theorem announced_of_settle {event : Address → I128 → I128 → I128 → Event} {u : Unit}
    (h : settle env info event s.locked = .ok (u, s₁))
    (ha : ∀ refund total, c.Announces env s info [event info.sender refund total refund]) :
    ∃ es, s₁.released.log = s.log ++ es ∧ c.Announces env s info es := by
  obtain ⟨d⟩ := exists_settling h
  obtain ⟨-, he₂⟩ := payOwed_silent d.pays
  obtain ⟨-, he₃⟩ := payPositive_silent d.refunds
  exact announced_of_publish d.publishes (he₃.trans he₂) (ha _ d.total)

/-- The freeze is written without a word. -/
theorem setEmergencyPaused_events {paused : Bool}
    (h : setEmergencyPaused env paused (isEmergencyPaused env s).2 = .ok s') :
    s'.events = s.events := by
  obtain ⟨v, rfl⟩ := setEmergencyPaused_store h
  rfl

theorem announced_of_setText {caller : Address} {f : Storage → Storage} {x : Unit}
    (h : setText env caller f s = .ok (x, s')) (ha : c.Announces env s info []) :
    ∃ es, s'.log = s.log ++ es ∧ c.Announces env s info es := by
  simp only [setText, bind_eq_ok, pure_eq_ok, Prod.mk.injEq] at h
  obtain ⟨_, -, -, rfl⟩ := h
  exact announced_of_silent rfl ha

theorem announced_of_exec (hi : s.store.config = some info) (hw : 0 ≤ info.withdrawn.val)
    (h : exec env s c = .ok s') : ∃ es, s'.log = s.log ++ es ∧ c.Announces env s info es := by
  cases c with
  | initializeStream args => simp [exec, initializeStream, initializeReading, hi] at h
  | withdraw amount =>
      obtain ⟨x, total, remaining, hwd⟩ := withdrew_of_exec hi hw h
      exact ⟨_, hwd.log, x, total, remaining, hwd.toDrawn, rfl⟩
  | cancel caller =>
      obtain ⟨-, -, s₁, u, hset, rfl⟩ := settle_of_cancel hi h
      exact announced_of_settle hset fun refund total => ⟨refund, total, rfl⟩
  | forceCancel =>
      obtain ⟨-, s₁, u, hset, rfl⟩ := settle_of_forceCancel hi h
      exact announced_of_settle hset fun refund total => ⟨refund, total, rfl⟩
  | clawback caller =>
      simp [exec, clawback, clawbackBody, hi] at h
      obtain ⟨-, s₂, ⟨-, -, -, -, _, -, _, -, _, -, s₁, h₁, h₂⟩, rfl⟩ := h
      obtain ⟨-, he₁⟩ := payPositive_silent h₁
      exact announced_of_publish h₂ he₁ ⟨_, rfl⟩
  | topUp caller amount =>
      simp [exec, topUp, topUpBody, hi] at h
      obtain ⟨-, s₂, ⟨-, -, -, -, s₁, h₁, h₂⟩, rfl⟩ := h
      obtain ⟨d, -, he₁⟩ := deposit_silent h₁
      exact announced_of_publish h₂ he₁ ⟨_, rfl⟩
  | extendDuration caller extra =>
      simp [exec, extendDuration, extendDurationBody, hi] at h
      obtain ⟨-, s₂, ⟨-, -, -, -, _, -, s₁, h₁, e, -, h₂⟩, rfl⟩ := h
      obtain ⟨d, -, he₁⟩ := deposit_silent h₁
      exact announced_of_publish h₂ he₁ ⟨_, _, rfl⟩
  | topUpAndExtend caller amount extra =>
      simp [exec, topUpAndExtend, topUpAndExtendBody, hi] at h
      obtain ⟨-, s₂, ⟨-, -, -, -, -, s₁, h₁, e, -, h₂⟩, rfl⟩ := h
      obtain ⟨d, -, he₁⟩ := deposit_silent h₁
      exact announced_of_publish h₂ he₁ ⟨_, _, _, rfl⟩
  | pause caller =>
      simp [exec, pause, pauseBody, hi] at h
      obtain ⟨-, s₁, ⟨-, -, -, -, -, _, -, h₁⟩, rfl⟩ := h
      exact announced_of_publish h₁ rfl ⟨_, rfl⟩
  | resume caller =>
      simp [exec, resume, resumeBody, hi] at h
      obtain ⟨-, s₂, ⟨-, -, -, _, -, s₁, h₁, -, _, -, _, -, h₂⟩, rfl⟩ := h
      obtain ⟨k, rfl, -⟩ := shiftCheckpoint_spec h₁
      exact announced_of_publish h₂ rfl rfl
  | changeRate caller rate =>
      simp [exec, changeRate, changeRateBody, hi] at h
      obtain ⟨-, s₁, ⟨-, -, -, -, _, -, -, h₁⟩, rfl⟩ := h
      exact announced_of_publish h₁ rfl rfl
  | setCliff caller time amount =>
      simp [exec, setCliff, setCliffBody, hi] at h
      obtain ⟨-, s₁, ⟨-, -, -, -, h₁⟩, rfl⟩ := h
      exact announced_of_publish h₁ rfl rfl
  | transferRecipient r =>
      simp [exec, transferRecipient, transferRecipientBody, hi] at h
      obtain ⟨-, s₁, ⟨-, -, -, -, h₁⟩, rfl⟩ := h
      exact announced_of_publish h₁ rfl rfl
  | setAutoForwardAddress a =>
      simp [exec, setAutoForwardAddress, setAutoForwardAddressBody, hi] at h
      obtain ⟨-, -, rfl⟩ := h
      exact announced_of_silent rfl rfl
  | setSplitRecipient caller secondary bps =>
      simp [exec, setSplitRecipient, setSplitRecipientBody, hi] at h
      obtain ⟨-, s₁, ⟨-, -, -, -, h₁⟩, rfl⟩ := h
      exact announced_of_publish h₁ rfl rfl
  | removeSplitRecipient caller =>
      simp [exec, removeSplitRecipient, removeSplitRecipientBody, hi] at h
      obtain ⟨-, s₁, ⟨-, -, h₁⟩, rfl⟩ := h
      exact announced_of_publish h₁ rfl rfl
  | setOperator caller op =>
      simp [exec, setOperator, hi] at h
      obtain ⟨-, h⟩ := h
      by_cases hop : s.store.operator = some op
      · -- the same operator again: nothing is written, and nothing said
        simp [hop] at h
        subst h
        exact announced_of_silent rfl (if_pos hop).symm
      · simp [hop] at h
        by_cases hsome : s.store.operator.isSome = true
        · simp [hsome] at h
          obtain ⟨s₁, h₁, h₂⟩ := h
          have hlog₁ : s₁.log = s.log ++ [.operatorRevoked caller] := publish_log h₁ rfl
          have hlog₂ : s'.log = s₁.log ++ [.operatorSet caller op] := publish_log h₂ rfl
          rw [hlog₁, List.append_assoc] at hlog₂
          refine ⟨_, hlog₂, ?_⟩
          simp [Call.Announces, hop, hsome]
        · simp [hsome] at h
          refine announced_of_publish_unguarded h rfl ?_
          simp [Call.Announces, hop, hsome]
  | revokeOperator caller =>
      simp only [exec, after_eq_ok, revokeOperator, bind_eq_ok, requireSender_eq_ok, pure_eq_ok,
        Prod.mk.injEq] at h
      obtain ⟨-, _, -, s₁, h₁, -, rfl⟩ := h
      exact announced_of_publish_unguarded h₁ rfl rfl
  | setStreamTitle caller title =>
      obtain ⟨x, h⟩ := after_eq_ok.mp h
      exact announced_of_setText h rfl
  | setReferenceTag caller tag =>
      obtain ⟨x, h⟩ := after_eq_ok.mp h
      exact announced_of_setText h rfl
  | setInvoiceMetadataUri caller uri =>
      obtain ⟨x, h⟩ := after_eq_ok.mp h
      exact announced_of_setText h rfl
  | setMilestoneMetadataUri caller uri =>
      obtain ⟨x, h⟩ := after_eq_ok.mp h
      exact announced_of_setText h rfl
  | setMinWithdrawalInterval caller secs =>
      simp [exec, setMinWithdrawalInterval, setMinWithdrawalIntervalBody, hi] at h
      obtain ⟨-, s₁, ⟨-, -, h₁⟩, rfl⟩ := h
      exact announced_of_publish h₁ rfl rfl
  | setStreamConfig caller config =>
      simp [exec, setStreamConfig, setStreamConfigBody, hi] at h
      obtain ⟨-, -, rfl⟩ := h
      exact announced_of_silent rfl rfl
  | isEmergencyPaused =>
      cases h
      exact announced_of_silent rfl rfl
  | emergencyPause caller =>
      simp only [exec, after_eq_ok, emergencyPause, bind_eq_ok, pure_eq_ok, Prod.mk.injEq] at h
      obtain ⟨-, -, -, -, -, s₁, h₁, s₂, h₂, -, rfl⟩ := h
      exact announced_of_publish_unguarded h₂ (setEmergencyPaused_events h₁) rfl
  | emergencyUnpause caller =>
      simp only [exec, after_eq_ok, emergencyUnpause, bind_eq_ok, pure_eq_ok, Prod.mk.injEq] at h
      obtain ⟨-, -, -, -, -, s₁, h₁, s₂, h₂, -, rfl⟩ := h
      exact announced_of_publish_unguarded h₂ (setEmergencyPaused_events h₁) rfl
  | configureKeeperRewardPool caller token reward =>
      simp [exec, configureKeeperRewardPool, configureKeeperRewardPoolBody, hi] at h
      obtain ⟨-, s₁, ⟨-, -, -, -, -, h₁⟩, rfl⟩ := h
      exact announced_of_publish h₁ rfl rfl
  | fundKeeperRewardPool caller amount =>
      simp [exec, fundKeeperRewardPool, fundKeeperRewardPoolBody, hi] at h
      obtain ⟨-, s₂, ⟨-, -, -, pool, -, b, -, s₁, -, h₁, h₂⟩, rfl⟩ := h
      obtain ⟨-, he₁⟩ := transfer_silent h₁
      exact announced_of_publish h₂ he₁ ⟨_, rfl⟩
  | withdrawKeeperRewardPool caller amount =>
      simp [exec, withdrawKeeperRewardPool, withdrawKeeperRewardPoolBody, hi] at h
      obtain ⟨-, s₂, ⟨-, -, pool, -, b, -, s₁, h₁, h₂⟩, rfl⟩ := h
      obtain ⟨-, he₁⟩ := payFromPool_silent h₁
      exact announced_of_publish h₂ he₁ ⟨_, rfl⟩
  | keeperPing keeper =>
      simp [exec, keeperPing, keeperPingBody, hi] at h
      obtain ⟨-, s₂, ⟨-, -, pool, -, -, -, b, -, s₁, h₁, h₂⟩, rfl⟩ := h
      obtain ⟨-, he₁⟩ := payFromPool_silent h₁
      exact announced_of_publish h₂ he₁ ⟨_, rfl⟩

end Drip.Stream
