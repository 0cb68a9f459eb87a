import Drip.Stream.Keeper

/-!
# Stream — Inversion

What a successful step of an entry point did.  Each check, write, publication and transfer that the
entry points are made of has one lemma that says when it succeeds and which state it leaves; the
lemmas are simp lemmas, so the run of an entry point is read off by
`simp [exec, after, …, …Body] at h`.  The two that pay, `withdraw` and `settle`, are read off once, into
`Withdrawing` and `Settling`.
-/

namespace Drip.Stream
open Chain

variable {env : Env} {s s' : State} {info : StreamInfo} {u : Unit}

/-! ### Checks -/

@[simp]
theorem load_eq_ok : load s = .ok info ↔ s.store.config = some info := okOr_eq_ok

@[simp]
theorem assertNotCancelled_eq_ok : assertNotCancelled info = .ok u ↔ info.isCancelled = false := by
  rw [assertNotCancelled, reject_eq_ok, Bool.not_eq_true]

@[simp]
theorem requireSenderOrOperator_eq_ok {caller sender : Address} :
    requireSenderOrOperator env s caller sender = .ok u ↔
      (caller = sender ∨ s.store.operator = some caller) ∧ env.authorized caller = true := by
  simp [requireSenderOrOperator]
  tauto

@[simp]
theorem requireParty_eq_ok {caller : Address} :
    requireParty env s info caller = .ok u ↔
      (caller = info.sender ∨ s.store.operator = some caller ∨ caller = info.recipient) ∧
        env.authorized caller = true := by
  simp [requireParty]
  tauto

@[simp]
theorem requireSender_eq_ok {caller : Address} :
    requireSender env s caller = .ok info ↔
      s.store.config = some info ∧ info.isCancelled = false ∧ caller = info.sender ∧
        env.authorized caller = true := by
  simp only [requireSender, bind_eq_ok, load_eq_ok, assertNotCancelled_eq_ok, reject_eq_ok,
    requireAuth_eq_ok, pure_eq_ok, ne_eq, not_not]
  constructor
  · rintro ⟨_, hi, -, hc, -, hs, -, ha, rfl⟩
    exact ⟨hi, hc, hs, ha⟩
  · rintro ⟨hi, hc, hs, ha⟩
    exact ⟨info, hi, (), hc, (), hs, (), ha, rfl⟩

/-! ### Publications -/

/-- `s` with the event `e` published under the sequence number `n`. -/
def State.published (s : State) (info : StreamInfo) (n : U64) (e : Event) : State :=
  { s with
    store := { s.store with config := some { info with eventSequence := n } }
    events := s.events ++ [⟨n, e⟩] }

theorem publish_eq_ok {e : Event} :
    publish s e = .ok s' ↔
      (∀ a ∈ e.amounts, 0 ≤ a.val) ∧ ∃ info n, s.store.config = some info ∧
        n.val = info.eventSequence.val + 1 ∧ s' = s.published info n e := by
  simp only [publish, bind_eq_ok, reject_eq_ok, load_eq_ok, okOr_eq_ok, pure_eq_ok,
    Ranged.checkedAdd_eq_some, not_exists, not_and, not_lt]
  constructor
  · rintro ⟨-, ha, info, hi, n, hn, rfl⟩
    exact ⟨ha, info, n, hi, hn, rfl⟩
  · rintro ⟨ha, info, n, hi, hn, rfl⟩
    exact ⟨(), ha, info, hi, n, hn, rfl⟩

/-! ### The guard -/

/-- The guard is free. -/
def State.Free (s : State) : Prop := (s.store.guard.getD (.lit 0)).val = 0

/-- `s` inside the guard. -/
def State.locked (s : State) : State :=
  { s with store := { s.store with guard := some (.lit 1) } }

/-- `s` with the guard released. -/
def State.released (s : State) : State :=
  { s with store := { s.store with guard := (unlock s).store.guard } }

theorem unlock_eq (s : State) : unlock s = s.released := by
  unfold State.released unlock
  split <;> rfl

theorem lock_eq_ok : lock s = .ok s' ↔ s.Free ∧ s' = s.locked := by
  have h0 := (s.store.guard.getD (.lit 0)).ge
  simp only [lock, bind_eq_ok, reject_eq_ok, okOr_eq_ok, pure_eq_ok, Ranged.checkedAdd_eq_some,
    maxReentrancyDepth, Ranged.le_def, State.Free]
  constructor
  · rintro ⟨-, hd, n, hn, rfl⟩
    have hfree : (s.store.guard.getD (.lit 0)).val = 0 := by omega
    rw [hfree] at hn
    exact ⟨hfree, by rw [show n = .lit 1 from Ranged.ext hn]; rfl⟩
  · rintro ⟨hfree, rfl⟩
    exact ⟨(), by omega, .lit 1, by rw [hfree]; rfl, rfl⟩

@[simp]
theorem withGuard_eq_ok {α : Type} {f : State → Result (α × State)} {a : α} :
    withGuard s f = .ok (a, s') ↔ s.Free ∧ ∃ s₁, f s.locked = .ok (a, s₁) ∧ s' = s₁.released := by
  simp only [withGuard, bind_eq_ok, lock_eq_ok, pure_eq_ok, Prod.mk.injEq, Prod.exists, unlock_eq]
  constructor
  · rintro ⟨_, ⟨hfree, rfl⟩, b, s₁, hf, rfl, rfl⟩
    exact ⟨hfree, s₁, hf, rfl⟩
  · rintro ⟨hfree, s₁, hf, rfl⟩
    exact ⟨_, ⟨hfree, rfl⟩, a, s₁, hf, rfl, rfl⟩

@[simp]
theorem after_eq_ok {α : Type} {r : Result (α × State)} :
    after r = .ok s' ↔ ∃ a, r = .ok (a, s') := by
  simp only [after, bind_eq_ok, pure_eq_ok, Prod.exists]
  constructor
  · rintro ⟨a, _, h, rfl⟩
    exact ⟨a, h⟩
  · rintro ⟨a, h⟩
    exact ⟨a, s', h, rfl⟩

/-! ### What the bookkeeping leaves alone -/

@[simp] theorem locked_config : s.locked.store.config = s.store.config := rfl
@[simp] theorem save_config : (s.save info).store.config = some info := rfl

/-! ### Bookkeeping

`Noted s s'`: the two states differ in nothing but the guard, the events and their sequence number,
and the keys no result below looks at. -/

/-- The keys that every payment leaves alone. -/
structure Frame (s s' : State) : Prop where
  rateCheckpoint : s'.store.rateCheckpoint = s.store.rateCheckpoint
  cliffConfig : s'.store.cliffConfig = s.store.cliffConfig
  pool : s'.store.keeperRewardPool = s.store.keeperRewardPool
  splitConfig : s'.store.splitConfig = s.store.splitConfig
  operator : s'.store.operator = s.store.operator

structure Noted (s s' : State) : Prop extends Frame s s' where
  config : ∀ {info}, s.store.config = some info →
    ∃ n, s'.store.config = some { info with eventSequence := n }
  tokens : s'.tokens = s.tokens
  transfers : s'.transfers = s.transfers

theorem Frame.trans {s₁ : State} (h : Frame s s₁) (h' : Frame s₁ s') : Frame s s' :=
  ⟨h'.rateCheckpoint.trans h.rateCheckpoint, h'.cliffConfig.trans h.cliffConfig,
    h'.pool.trans h.pool, h'.splitConfig.trans h.splitConfig, h'.operator.trans h.operator⟩

theorem locked_frame (s : State) : Frame s s.locked := ⟨rfl, rfl, rfl, rfl, rfl⟩

theorem save_frame (s : State) (info : StreamInfo) : Frame s (s.save info) :=
  ⟨rfl, rfl, rfl, rfl, rfl⟩

theorem Noted.trans {s₁ : State} (h : Noted s s₁) (h' : Noted s₁ s') : Noted s s' := by
  refine ⟨h.toFrame.trans h'.toFrame, fun hi => ?_, h'.tokens.trans h.tokens,
    h'.transfers.trans h.transfers⟩
  obtain ⟨n, hn⟩ := h.config hi
  obtain ⟨m, hm⟩ := h'.config hn
  exact ⟨m, hm⟩

theorem Noted.of_config (hf : Frame s s') (hc : s'.store.config = s.store.config)
    (ht : s'.tokens = s.tokens) (hx : s'.transfers = s.transfers) : Noted s s' :=
  ⟨hf, fun {info} hi => ⟨info.eventSequence, hc.trans hi⟩, ht, hx⟩

theorem Noted.refl (s : State) : Noted s s := .of_config ⟨rfl, rfl, rfl, rfl, rfl⟩ rfl rfl rfl

theorem released_noted (s : State) : Noted s s.released :=
  .of_config ⟨rfl, rfl, rfl, rfl, rfl⟩ rfl rfl rfl

theorem publish_noted {e : Event} (h : publish s e = .ok s') : Noted s s' := by
  obtain ⟨-, info, n, hi, -, rfl⟩ := publish_eq_ok.mp h
  refine ⟨⟨rfl, rfl, rfl, rfl, rfl⟩, fun hi' => ?_, rfl, rfl⟩
  obtain rfl := Option.some.inj (hi.symm.trans hi')
  exact ⟨n, rfl⟩

theorem markCliffReached_noted (h : markCliffReached env s info = .ok s') : Noted s s' := by
  unfold markCliffReached at h
  split at h
  · split at h
    · refine Noted.trans ?_ (publish_noted h)
      exact .of_config ⟨rfl, rfl, rfl, rfl, rfl⟩ rfl rfl rfl
    · cases h; exact .refl s
  · cases h; exact .refl s

theorem markCompleted_noted {balance remaining newWithdrawn : I128}
    (h : markCompleted s info balance remaining newWithdrawn = .ok s') : Noted s s' := by
  unfold markCompleted at h
  split at h
  · refine Noted.trans ?_ (publish_noted h)
    exact .of_config ⟨rfl, rfl, rfl, rfl, rfl⟩ rfl rfl rfl
  · cases h; exact .refl s

theorem isEmergencyPaused_noted (env : Env) (s : State) : Noted s (isEmergencyPaused env s).2 :=
  .of_config ⟨rfl, rfl, rfl, rfl, rfl⟩ rfl rfl rfl

theorem setEmergencyPaused_noted {paused : Bool} (h : setEmergencyPaused env paused s = .ok s') :
    Noted s s' := by
  unfold setEmergencyPaused at h
  split at h
  · cases h
    exact .of_config ⟨rfl, rfl, rfl, rfl, rfl⟩ rfl rfl rfl
  · cases h
    exact .refl s
  · cases h

/-- The calls of the emergency freeze. -/
def Call.IsEmergency : Call → Bool
  | .isEmergencyPaused | .emergencyPause _ | .emergencyUnpause _ => true
  | _ => false

/-- Freezing only takes notes. -/
theorem noted_of_emergency {c : Call} (hc : c.IsEmergency = true) (h : exec env s c = .ok s') :
    Noted s s' := by
  cases c with
  | isEmergencyPaused =>
      cases h
      exact isEmergencyPaused_noted env s
  | emergencyPause caller =>
      simp only [exec, after_eq_ok, emergencyPause, bind_eq_ok, pure_eq_ok, Prod.mk.injEq] at h
      obtain ⟨-, -, -, -, -, s₁, h₁, s₂, h₂, -, rfl⟩ := h
      exact (isEmergencyPaused_noted env s).trans
        ((setEmergencyPaused_noted h₁).trans (publish_noted h₂))
  | emergencyUnpause caller =>
      simp only [exec, after_eq_ok, emergencyUnpause, bind_eq_ok, pure_eq_ok, Prod.mk.injEq] at h
      obtain ⟨-, -, -, -, -, s₁, h₁, s₂, h₂, -, rfl⟩ := h
      exact (isEmergencyPaused_noted env s).trans
        ((setEmergencyPaused_noted h₁).trans (publish_noted h₂))
  | _ => cases hc

/-! ### Failures -/

/-- A token call does not fail with a contract error. -/
theorem avoids_transfer {e : Error} {t : Transfer} : Avoids (err e) (transfer s t) :=
  avoids_bind (avoids_okOr fun h => by cases h) fun _ _ => avoids_ok _

theorem avoids_publish {e : Error} {ev : Event} (ha : .invalidAmount ≠ e) (hn : .notInitialized ≠ e)
    (ho : .arithmeticOverflow ≠ e) : Avoids (err e) (publish s ev) :=
  avoids_bind (avoids_reject fun _ h => ha (Failure.contract.inj h)) fun _ _ =>
    avoids_bind (avoids_okOr fun h => hn (Failure.contract.inj h)) fun _ _ =>
      avoids_bind (avoids_okOr fun h => ho (Failure.contract.inj h)) fun _ _ => avoids_ok _

theorem avoids_withGuard {α : Type} {e : Error} {f : State → Result (α × State)}
    (hr : .reentrancyForbidden ≠ e) (h : Avoids (err e) (f s.locked)) :
    Avoids (err e) (withGuard s f) := by
  refine avoids_bind ?_ fun s₁ hlock => ?_
  · exact avoids_bind (avoids_reject fun _ h => hr (Failure.contract.inj h)) fun _ _ =>
      avoids_bind (avoids_okOr fun h => by cases h) fun _ _ => avoids_ok _
  · obtain ⟨-, rfl⟩ := lock_eq_ok.mp hlock
    exact avoids_bind h fun _ _ => avoids_ok _

/-! ### Calls on a cancelled stream -/

/-- The calls a cancelled stream still answers. -/
def Call.OutlivesCancellation : Call → Bool
  | .withdrawKeeperRewardPool .. | .isEmergencyPaused | .emergencyPause _ | .emergencyUnpause _ => true
  | _ => false

theorem not_cancelled_of_exec {c : Call} (hi : s.store.config = some info)
    (hc : c.OutlivesCancellation = false) (h : exec env s c = .ok s') : info.isCancelled = false := by
  rw [Bool.eq_false_iff]
  intro hx
  cases c <;> simp [exec, hi, hx, initializeStream, initializeReading, withdraw, withdrawBody, cancel,
    cancelBody, forceCancel, forceCancelBody, clawback, clawbackBody, topUp, topUpBody, extendDuration,
    extendDurationBody, topUpAndExtend, topUpAndExtendBody, pause, pauseBody, resume, resumeBody,
    changeRate, changeRateBody, setCliff, setCliffBody, transferRecipient, transferRecipientBody,
    setAutoForwardAddress, setAutoForwardAddressBody, setSplitRecipient, setSplitRecipientBody,
    removeSplitRecipient, removeSplitRecipientBody, setOperator, revokeOperator, setStreamTitle,
    setReferenceTag, setInvoiceMetadataUri, setMilestoneMetadataUri, setText,
    setMinWithdrawalInterval, setMinWithdrawalIntervalBody, setStreamConfig, setStreamConfigBody,
    configureKeeperRewardPool, configureKeeperRewardPoolBody, fundKeeperRewardPool,
    fundKeeperRewardPoolBody, keeperPing, keeperPingBody, Call.OutlivesCancellation] at h hc

/-! ### Settings -/

/-- The calls that only write settings. -/
def Call.IsSetting : Call → Bool
  | .transferRecipient _ | .setAutoForwardAddress _ | .setSplitRecipient .. | .removeSplitRecipient _
  | .setOperator .. | .revokeOperator _ | .setStreamTitle .. | .setReferenceTag ..
  | .setInvoiceMetadataUri .. | .setMilestoneMetadataUri .. | .setMinWithdrawalInterval ..
  | .setStreamConfig .. | .isEmergencyPaused | .emergencyPause _ | .emergencyUnpause _ => true
  | _ => false

/-- What a settings call leaves alone. -/
structure Settings (env : Env) (s : State) (info : StreamInfo) (s' : State) : Prop where
  config : ∃ r n, s'.store.config = some { info with recipient := r, eventSequence := n }
  rateCheckpoint : s'.store.rateCheckpoint = s.store.rateCheckpoint
  cliffConfig : s'.store.cliffConfig = s.store.cliffConfig
  pool : s'.store.keeperRewardPool = s.store.keeperRewardPool
  tokens : s'.tokens = s.tokens
  transfers : s'.transfers = s.transfers
  operator : s'.store.operator = s.store.operator ∨ env.authorized info.sender = true
  split : ∀ sc ∈ s'.store.splitConfig, sc ∈ s.store.splitConfig ∨ sc.splitBps.val ≤ 10000

theorem Settings.of_noted (hi : s.store.config = some info) (h : Noted s s') :
    Settings env s info s' := by
  obtain ⟨n, hn⟩ := h.config hi
  refine ⟨⟨info.recipient, n, hn⟩, h.rateCheckpoint, h.cliffConfig, h.pool, h.tokens, h.transfers,
    .inl h.operator, fun sc hsc => .inl ?_⟩
  rw [← h.splitConfig]
  exact hsc

theorem settings_of_exec {c : Call} (hi : s.store.config = some info) (hc : c.IsSetting = true)
    (h : exec env s c = .ok s') : Settings env s info s' := by
  cases c with
  | transferRecipient r =>
      simp [exec, transferRecipient, transferRecipientBody, publish_eq_ok, hi] at h
      obtain ⟨-, n, -, rfl⟩ := h
      exact ⟨⟨r, n, rfl⟩, rfl, rfl, rfl, rfl, rfl, .inl rfl, fun _ => .inl⟩
  | setAutoForwardAddress a =>
      simp [exec, setAutoForwardAddress, setAutoForwardAddressBody, hi] at h
      obtain ⟨-, -, rfl⟩ := h
      exact ⟨⟨info.recipient, info.eventSequence, rfl⟩, rfl, rfl, rfl, rfl, rfl, .inl rfl, fun _ => .inl⟩
  | setSplitRecipient caller secondary bps =>
      simp [exec, setSplitRecipient, setSplitRecipientBody, publish_eq_ok, hi] at h
      obtain ⟨-, n, ⟨-, -, ⟨-, hbps⟩, -⟩, rfl⟩ := h
      refine ⟨⟨_, n, rfl⟩, rfl, rfl, rfl, rfl, rfl, .inl rfl, ?_⟩
      rintro sc ⟨⟩
      exact .inr hbps.le
  | removeSplitRecipient caller =>
      simp [exec, removeSplitRecipient, removeSplitRecipientBody, publish_eq_ok, hi] at h
      obtain ⟨-, n, -, rfl⟩ := h
      exact ⟨⟨_, n, rfl⟩, rfl, rfl, rfl, rfl, rfl, .inl rfl, nofun⟩
  | setOperator caller op =>
      simp [exec, setOperator, hi] at h
      obtain ⟨⟨-, rfl, ha⟩, h⟩ := h
      split at h
      · simp at h
        subst h
        exact ⟨⟨info.recipient, info.eventSequence, hi⟩, rfl, rfl, rfl, rfl, rfl, .inr ha, fun _ => .inl⟩
      · split at h
        · simp [publish_eq_ok, hi, State.published] at h
          obtain ⟨n, -, -, m, -, rfl⟩ := h
          exact ⟨⟨_, m, rfl⟩, rfl, rfl, rfl, rfl, rfl, .inr ha, fun _ => .inl⟩
        · simp [publish_eq_ok, hi] at h
          obtain ⟨-, n, -, rfl⟩ := h
          exact ⟨⟨_, n, rfl⟩, rfl, rfl, rfl, rfl, rfl, .inr ha, fun _ => .inl⟩
  | revokeOperator caller =>
      simp [exec, revokeOperator, publish_eq_ok, hi] at h
      obtain ⟨⟨-, rfl, ha⟩, -, n, -, rfl⟩ := h
      exact ⟨⟨_, n, rfl⟩, rfl, rfl, rfl, rfl, rfl, .inr ha, fun _ => .inl⟩
  | setStreamTitle caller title =>
      simp [exec, setStreamTitle, setText, hi] at h
      obtain ⟨-, rfl⟩ := h
      exact ⟨⟨info.recipient, info.eventSequence, rfl⟩, rfl, rfl, rfl, rfl, rfl, .inl rfl, fun _ => .inl⟩
  | setReferenceTag caller tag =>
      simp [exec, setReferenceTag, setText, hi] at h
      obtain ⟨-, rfl⟩ := h
      exact ⟨⟨info.recipient, info.eventSequence, rfl⟩, rfl, rfl, rfl, rfl, rfl, .inl rfl, fun _ => .inl⟩
  | setInvoiceMetadataUri caller uri =>
      simp [exec, setInvoiceMetadataUri, setText, hi] at h
      obtain ⟨-, rfl⟩ := h
      exact ⟨⟨info.recipient, info.eventSequence, rfl⟩, rfl, rfl, rfl, rfl, rfl, .inl rfl, fun _ => .inl⟩
  | setMilestoneMetadataUri caller uri =>
      simp [exec, setMilestoneMetadataUri, setText, hi] at h
      obtain ⟨-, rfl⟩ := h
      exact ⟨⟨info.recipient, info.eventSequence, rfl⟩, rfl, rfl, rfl, rfl, rfl, .inl rfl, fun _ => .inl⟩
  | setMinWithdrawalInterval caller secs =>
      simp [exec, setMinWithdrawalInterval, setMinWithdrawalIntervalBody, publish_eq_ok, hi] at h
      obtain ⟨-, n, -, rfl⟩ := h
      exact ⟨⟨_, n, rfl⟩, rfl, rfl, rfl, rfl, rfl, .inl rfl, fun _ => .inl⟩
  | setStreamConfig caller config =>
      simp [exec, setStreamConfig, setStreamConfigBody, hi] at h
      obtain ⟨-, -, rfl⟩ := h
      exact ⟨⟨info.recipient, info.eventSequence, rfl⟩, rfl, rfl, rfl, rfl, rfl, .inl rfl, fun _ => .inl⟩
  | isEmergencyPaused | emergencyPause | emergencyUnpause =>
      exact .of_noted hi (noted_of_emergency rfl h)
  | _ => cases hc

/-! ### Withdrawals and settlements -/

section

variable {amount x : I128} {event : Address → I128 → I128 → I128 → Event}

/-- A withdrawal of `x`, stage by stage. -/
structure Withdrawing (env : Env) (s : State) (info : StreamInfo) (amount x : I128) (s' : State) where
  available : I128
  total : I128
  remaining : I128
  paid : State
  published : State
  marked : State
  done : State
  computes : withdrawable env s info = .ok available
  sends : x = min (min amount available) (s.balance info.token env.contract)
  positive : 0 < x.val
  adds : total.val = info.withdrawn.val + x.val
  leaves : remaining.val = (s.balance info.token env.contract).val - x.val
  pays : payRecipient env (s.locked.save { info with withdrawn := total }) info x = .ok paid
  publishes : publish { paid with store := { paid.store with lastWithdrawalTime := some env.timestamp } }
    (.withdrawn info.recipient x total remaining) = .ok published
  marks : markCliffReached env published info = .ok marked
  completes : markCompleted marked info (s.balance info.token env.contract) remaining total = .ok done
  releases : s' = done.released

theorem withdrawable_nonneg (h : withdrawable env s info = .ok x) : 0 ≤ x.val := by
  simp only [withdrawable, bind_eq_ok, pure_eq_ok] at h
  obtain ⟨v, -, rfl⟩ := h
  rw [Ranged.val_max]
  exact le_max_right _ _

theorem exists_withdrawing (hi : s.store.config = some info)
    (h : withdraw env amount s = .ok (x, s')) : Nonempty (Withdrawing env s info amount x s') := by
  simp [withdraw, withdrawBody, hi] at h
  obtain ⟨-, done, ⟨hamount, -, -, -, available, hav, -, hx, total, hadd, paid, hpay, remaining, hrem,
    published, hpub, marked, hmark, hdone, rfl⟩, rfl⟩ := h
  have hnonneg : 0 ≤ available.val := withdrawable_nonneg hav
  have hbal : 0 ≤ (s.locked.balance info.token env.contract).val := Ranged.ge _
  have hpos : 0 < (min (min amount available) (s.locked.balance info.token env.contract)).val := by
    rw [Ranged.val_min, Ranged.val_min] at hx ⊢
    omega
  exact ⟨available, total, remaining, paid, published, marked, done, hav, rfl, hpos, hadd, hrem, hpay,
    hpub, hmark, hdone, rfl⟩

/-- What follows the payment only takes notes. -/
theorem Withdrawing.noted (w : Withdrawing env s info amount x s') : Noted w.paid s' := by
  have hstamp : Noted w.paid
      { w.paid with store := { w.paid.store with lastWithdrawalTime := some env.timestamp } } :=
    .of_config ⟨rfl, rfl, rfl, rfl, rfl⟩ rfl rfl rfl
  have hall : Noted w.paid w.done.released :=
    hstamp.trans ((publish_noted w.publishes).trans ((markCliffReached_noted w.marks).trans
      ((markCompleted_noted w.completes).trans (released_noted w.done))))
  rwa [← w.releases] at hall

/-- A settlement, stage by stage. -/
structure Settling (env : Env) (info : StreamInfo) (event : Address → I128 → I128 → I128 → Event)
    (s s' : State) where
  streamed : I128
  owed : I128
  rest : I128
  total : I128
  paid : State
  refunded : State
  computes : streamedAmount env s info = .ok streamed
  owes : owed.val = streamed.val - info.withdrawn.val
  leaves : rest.val = (s.balance info.token env.contract).val -
    (min (max owed (.lit 0)) (s.balance info.token env.contract)).val
  adds : total.val = info.withdrawn.val +
    (min (max owed (.lit 0)) (s.balance info.token env.contract)).val
  pays : payOwed env (s.save { info.markCancelled with withdrawn := total }) info
    (min (max owed (.lit 0)) (s.balance info.token env.contract)) = .ok paid
  refunds : payPositive env paid info info.sender (max rest (.lit 0)) .refund = .ok refunded
  publishes : publish refunded (event info.sender (max rest (.lit 0)) total (max rest (.lit 0))) = .ok s'

theorem exists_settling (h : settle env info event s = .ok (u, s')) :
    Nonempty (Settling env info event s s') := by
  simp only [settle, bind_eq_ok, okOr_eq_ok, pure_eq_ok, Ranged.checkedSub_eq_some,
    Ranged.checkedAdd_eq_some, Prod.mk.injEq, true_and] at h
  obtain ⟨streamed, hv, owed, ho, rest, hr, total, hw, paid, h₁, refunded, h₂, s', h₃, rfl⟩ := h
  exact ⟨streamed, owed, rest, total, paid, refunded, hv, ho, hr, hw, h₁, h₂, h₃⟩

end

end Drip.Stream
