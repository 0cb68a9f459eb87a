import Drip.Stream.Runs

/-!
# Stream — Footprint

What each entry point writes, and in which order it publishes.

* `Call.write c old new` takes the keys of `c` from `new` and every other key from `old`;
  `Call.rewrite` does the same for the fields of the config.
* `Logged n es n' es'`: the log `es` has grown to `es'`, numbered from `n + 1` on, and the counter
  from `n` to `n'`.
* `Wrote`: a call wrote its own keys and fields, logged its events and released the guard.
  `wrote_of_exec` says that every successful call did; what a call leaves alone is then read off
  `Call.write` and `Call.rewrite`.
-/

namespace Drip.Stream
open Chain

variable {env : Env} {here : Address} {s s₁ s₂ s' : State} {info info' info₁ : StreamInfo} {c : Call}

/-! ### The keys and the fields of a call -/

/-- The keys a call writes are those of `new`, the others those of `old`; the guard apart. -/
def Call.write (c : Call) (old new : Storage) : Storage :=
  match c with
  | .initializeStream _ => { new with guard := old.guard }
  | .withdraw _ =>
      { old with
        config := new.config, lastWithdrawalTime := new.lastWithdrawalTime
        cliffReached := new.cliffReached, streamCompleted := new.streamCompleted }
  | .cancel _ | .forceCancel | .clawback _ | .pause _ => { old with config := new.config }
  | .topUp .. | .extendDuration .. | .topUpAndExtend .. =>
      { old with config := new.config, cumulativeDeposited := new.cumulativeDeposited }
  | .resume _ | .changeRate .. =>
      { old with config := new.config, rateCheckpoint := new.rateCheckpoint }
  | .setCliff .. => { old with config := new.config, cliffConfig := new.cliffConfig }
  | .transferRecipient _ | .setAutoForwardAddress _ =>
      { old with config := new.config, autoForwardAddress := new.autoForwardAddress }
  | .setSplitRecipient .. | .removeSplitRecipient _ =>
      { old with config := new.config, splitConfig := new.splitConfig }
  | .setOperator .. | .revokeOperator _ =>
      { old with config := new.config, operator := new.operator }
  | .setStreamTitle .. => { old with config := new.config, streamTitle := new.streamTitle }
  | .setReferenceTag .. => { old with config := new.config, referenceTag := new.referenceTag }
  | .setInvoiceMetadataUri .. =>
      { old with config := new.config, invoiceMetadataUri := new.invoiceMetadataUri }
  | .setMilestoneMetadataUri .. =>
      { old with config := new.config, milestoneMetadataUri := new.milestoneMetadataUri }
  | .setMinWithdrawalInterval .. =>
      { old with config := new.config, minWithdrawalInterval := new.minWithdrawalInterval }
  | .setStreamConfig .. => { old with config := new.config, streamConfig := new.streamConfig }
  | .isEmergencyPaused | .emergencyPause _ | .emergencyUnpause _ =>
      { old with config := new.config, emergencyPaused := new.emergencyPaused }
  | .configureKeeperRewardPool .. | .fundKeeperRewardPool .. | .withdrawKeeperRewardPool .. =>
      { old with config := new.config, keeperRewardPool := new.keeperRewardPool }
  | .keeperPing _ =>
      { old with
        config := new.config, keeperRewardPool := new.keeperRewardPool
        lastKeeperPingLedger := new.lastKeeperPingLedger }

/-- The fields of the config a call writes; the event counter apart.  The fields that a call
computes are those of `new`. -/
def Call.rewrite (c : Call) (env : Env) (old new : StreamInfo) : StreamInfo :=
  match c with
  | .initializeStream _ => new
  | .withdraw _ => { old with withdrawn := new.withdrawn }
  | .cancel _ | .forceCancel => { old.markCancelled with withdrawn := new.withdrawn }
  | .extendDuration .. | .topUpAndExtend .. => { old with endTime := new.endTime }
  | .pause _ => { old.markPaused with pausedAt := env.timestamp }
  | .resume _ =>
      { old.markResumed with
        startTime := new.startTime, pausedAt := .lit 0, endTime := new.endTime }
  | .changeRate _ rate => { old with ratePerSecond := rate }
  | .transferRecipient r => { old with recipient := r }
  | _ => old

theorem write_config (c : Call) (old new : Storage) (i : Option StreamInfo) :
    { c.write old new with config := i } = c.write old { new with config := i } := by
  cases c <;> rfl

theorem write_guard (c : Call) (old new : Storage) : (c.write old new).guard = old.guard := by
  cases c <;> rfl

theorem write_locked (c : Call) (s : State) (new : Storage) (g : Option U32) :
    { c.write s.locked.store new with guard := g } =
      { c.write s.store { new with guard := g } with guard := g } := by
  cases c <;> rfl

/-! ### The log -/

/-- The log `es` has grown to `es'`, numbered from `n + 1` on, and its counter from `n` to `n'`. -/
def Logged (n : U64) (es : List Published) (n' : U64) (es' : List Published) : Prop :=
  ∃ new, es' = es ++ new ∧ n'.val = n.val + new.length ∧
    ∀ i (h : i < new.length), new[i].sequence.val = n.val + i + 1

theorem Logged.refl (n : U64) (es : List Published) : Logged n es n es :=
  ⟨[], (List.append_nil es).symm, (add_zero _).symm, fun i h => absurd h (Nat.not_lt_zero i)⟩

/-- One more event, under the next number. -/
theorem Logged.snoc {n n₁ n' : U64} {es es₁ : List Published} {e : Event} (h : Logged n es n₁ es₁)
    (hn : n'.val = n₁.val + 1) : Logged n es n' (es₁ ++ [⟨n', e⟩]) := by
  obtain ⟨new, rfl, hlen, hnum⟩ := h
  refine ⟨new ++ [⟨n', e⟩], List.append_assoc .., ?_, fun i hi => ?_⟩
  · rw [List.length_append, List.length_singleton]
    push_cast
    omega
  · rw [List.length_append, List.length_singleton] at hi
    by_cases hlt : i < new.length
    · rw [List.getElem_append_left hlt]
      exact hnum i hlt
    · obtain rfl : i = new.length := by omega
      rw [List.getElem_concat_length rfl]
      show n'.val = _
      omega

/-- No event of the log has a negative amount. -/
def Natural (es : List Published) : Prop := ∀ p ∈ es, ∀ a ∈ p.event.amounts, 0 ≤ a.val

theorem Natural.snoc {es : List Published} {n : U64} {e : Event} (h : Natural es)
    (he : ∀ a ∈ e.amounts, 0 ≤ a.val) : Natural (es ++ [⟨n, e⟩]) :=
  List.forall_mem_append.mpr ⟨h, List.forall_mem_singleton.mpr he⟩

/-! ### Along the body of a call

`Recorded env c s info s' info'`: on the way from `s`, whose config is `info`, to `s'` the call has
written nothing but its own keys and fields, and numbered what it published. -/

structure Recorded (env : Env) (c : Call) (s : State) (info : StreamInfo) (s' : State)
    (info' : StreamInfo) : Prop where
  config : s'.store.config = some info'
  rewrite : info' = { c.rewrite env info info' with eventSequence := info'.eventSequence }
  logged : Logged info.eventSequence s.events info'.eventSequence s'.events
  natural : Natural s.events → Natural s'.events
  write : s'.store = c.write s.store s'.store

/-- The writes of a call before it publishes. -/
theorem Recorded.start (hi : s'.store.config = some info')
    (hr : info' = c.rewrite env info info') (hn : info'.eventSequence = info.eventSequence)
    (he : s'.events = s.events) (hw : s'.store = c.write s.store s'.store) :
    Recorded env c s info s' info' := by
  refine ⟨hi, ?_, ?_, ?_, hw⟩
  · rw [← hr]
  · rw [he, hn]
    exact .refl _ _
  · rw [he]
    exact id

/-- Payments write nothing and publish nothing. -/
theorem Recorded.silent (h : Recorded env c s info s₁ info') (hs : s'.store = s₁.store)
    (he : s'.events = s₁.events) : Recorded env c s info s' info' := by
  refine ⟨?_, h.rewrite, ?_, ?_, ?_⟩
  · rw [hs]; exact h.config
  · rw [he]; exact h.logged
  · rw [he]; exact h.natural
  · rw [hs]; exact h.write

theorem rewrite_sequence (c : Call) (env : Env) (old new : StreamInfo) (n m : U64) :
    { c.rewrite env old { new with eventSequence := m } with eventSequence := n } =
      { c.rewrite env old new with eventSequence := n } := by
  cases c <;> rfl

theorem Recorded.publish {e : Event} (h : Recorded env c s info s₁ info₁)
    (hp : publish s₁ e = .ok s₂) : ∃ n, Recorded env c s info s₂ { info₁ with eventSequence := n } := by
  obtain ⟨hamounts, info₂, n, hi, hn, rfl⟩ := publish_eq_ok.mp hp
  obtain rfl := Option.some.inj (h.config.symm.trans hi)
  refine ⟨n, rfl, ?_, h.logged.snoc hn, fun hnat => (h.natural hnat).snoc hamounts, ?_⟩
  · show { info₁ with eventSequence := n } = { c.rewrite env info { info₁ with
      eventSequence := n } with eventSequence := n }
    rw [rewrite_sequence]
    exact congrArg (fun i => { i with eventSequence := n }) h.rewrite
  · exact (congrArg (fun st : Storage => { st with config := some { info₁ with
      eventSequence := n } }) h.write).trans (write_config c s.store s₁.store _)

/-! ### Every call -/

/-- What a successful call did to the stream's own storage and to its log. -/
structure Wrote (env : Env) (c : Call) (s : State) (info : StreamInfo) (s' : State)
    (info' : StreamInfo) : Prop where
  config : s'.store.config = some info'
  rewrite : info' = { c.rewrite env info info' with eventSequence := info'.eventSequence }
  logged : Logged info.eventSequence s.events info'.eventSequence s'.events
  natural : Natural s.events → Natural s'.events
  write : s'.store = { c.write s.store s'.store with guard := s'.store.guard }
  /-- the guard is free between calls -/
  free : s.Free → s'.Free

theorem Recorded.guard (h : Recorded env c s info s' info') : s'.store.guard = s.store.guard := by
  rw [h.write, write_guard]

/-- An entry point without the guard. -/
theorem Wrote.of_recorded (h : Recorded env c s info s' info') : Wrote env c s info s' info' := by
  refine ⟨h.config, h.rewrite, h.logged, h.natural, ?_, fun hfree => ?_⟩
  · exact congrArg (fun st : Storage => { st with guard := s'.store.guard }) h.write
  · unfold State.Free
    rw [h.guard]
    exact hfree

/-- The body keeps the guard, `with_guard` releases it. -/
theorem Wrote.of_guarded (h : Recorded env c s.locked info s' info') :
    Wrote env c s info s'.released info' := by
  have hg : s'.released.store.guard = some (.lit 0) := by
    show (unlock s').store.guard = _
    unfold unlock
    rw [h.guard]
    rfl
  refine ⟨h.config, h.rewrite, h.logged, h.natural, ?_, fun _ => ?_⟩
  · refine (congrArg (fun st : Storage => { st with guard := s'.released.store.guard })
      h.write).trans ?_
    exact write_locked c s s'.store _
  · unfold State.Free
    rw [hg]
    rfl

/-- The body writes, then publishes one event. -/
theorem wrote_of_publish {e : Event} (hp : publish s₁ e = .ok s₂)
    (h : Recorded env c s.locked info s₁ info₁) : ∃ info', Wrote env c s info s₂.released info' := by
  obtain ⟨n, h⟩ := h.publish hp
  exact ⟨_, .of_guarded h⟩

/-- The same in an entry point without the guard. -/
theorem wrote_of_publish_unguarded {e : Event} (hp : publish s₁ e = .ok s')
    (h : Recorded env c s info s₁ info₁) : ∃ info', Wrote env c s info s' info' := by
  obtain ⟨n, h⟩ := h.publish hp
  exact ⟨_, .of_recorded h⟩

/-! Payments. -/

theorem transfer_silent {t : Transfer} (h : transfer s t = .ok s') :
    s'.store = s.store ∧ s'.events = s.events := by
  obtain ⟨l, -, rfl⟩ := transfer_eq_ok.mp h
  exact ⟨rfl, rfl⟩

theorem payPositive_silent {dst : Address} {amount : I128} {purpose : Purpose}
    (h : payPositive env s info dst amount purpose = .ok s') :
    s'.store = s.store ∧ s'.events = s.events := by
  unfold payPositive at h
  split at h
  · exact transfer_silent h
  · cases h; exact ⟨rfl, rfl⟩

theorem payRecipient_silent {amount : I128} (h : payRecipient env s info amount = .ok s') :
    s'.store = s.store ∧ s'.events = s.events := by
  unfold payRecipient at h
  split at h
  · simp only [bind_eq_ok, okOr_eq_ok] at h
    obtain ⟨_, -, _, -, s₁, h₁, h₂⟩ := h
    obtain ⟨hs₁, he₁⟩ := payPositive_silent h₁
    obtain ⟨hs₂, he₂⟩ := payPositive_silent h₂
    exact ⟨hs₂.trans hs₁, he₂.trans he₁⟩
  · exact transfer_silent h

theorem payOwed_silent {amount : I128} (h : payOwed env s info amount = .ok s') :
    s'.store = s.store ∧ s'.events = s.events := by
  unfold payOwed at h
  split at h
  · exact payRecipient_silent h
  · cases h; exact ⟨rfl, rfl⟩

theorem wrote_of_settle {event : Address → I128 → I128 → I128 → Event} {u : Unit}
    (hc : c = .forceCancel ∨ ∃ caller, c = .cancel caller)
    (h : settle env info event s.locked = .ok (u, s₁)) :
    ∃ info', Wrote env c s info s₁.released info' := by
  obtain ⟨d⟩ := exists_settling h
  obtain ⟨hs₂, he₂⟩ := payOwed_silent d.pays
  obtain ⟨hs₃, he₃⟩ := payPositive_silent d.refunds
  have hstart : Recorded env c s.locked info
      (s.locked.save { info.markCancelled with withdrawn := d.total })
      { info.markCancelled with withdrawn := d.total } := by
    rcases hc with rfl | ⟨caller, rfl⟩ <;> exact .start rfl rfl rfl rfl rfl
  exact wrote_of_publish d.publishes ((hstart.silent hs₂ he₂).silent hs₃ he₃)

/-- A deposit writes the running total. -/
theorem deposit_silent {caller : Address} {amount : I128}
    (h : deposit env s info caller amount = .ok s') :
    ∃ d, s'.store = { s.store with cumulativeDeposited := some d } ∧ s'.events = s.events := by
  simp only [deposit, addCumulativeDeposit, bind_eq_ok, okOr_eq_ok, pure_eq_ok] at h
  obtain ⟨_, ⟨_, -, d, -, rfl⟩, h⟩ := h
  obtain ⟨hs, he⟩ := transfer_silent h
  exact ⟨d, hs, he⟩

/-- A write of one of the call's own keys. -/
theorem Recorded.put {f : Storage → Storage} (h : Recorded env c s info s₁ info₁)
    (hc : ∀ st, (f st).config = st.config)
    (hw : ∀ old new, f (c.write old new) = c.write old (f new)) :
    Recorded env c s info { s₁ with store := f s₁.store } info₁ :=
  ⟨(hc _).trans h.config, h.rewrite, h.logged, h.natural, (congrArg f h.write).trans (hw _ _)⟩

theorem Recorded.markCliffReached {amount : I128} {i : StreamInfo}
    (h : Recorded env (.withdraw amount) s info s₁ info₁)
    (hm : markCliffReached env s₁ i = .ok s₂) :
    ∃ n, Recorded env (.withdraw amount) s info s₂ { info₁ with eventSequence := n } := by
  unfold Stream.markCliffReached at hm
  split at hm
  · split at hm
    · exact (h.put (f := fun st => { st with cliffReached := some true }) (fun _ => rfl)
        fun _ _ => rfl).publish hm
    · cases hm
      exact ⟨_, h⟩
  · cases hm
    exact ⟨_, h⟩

theorem Recorded.markCompleted {amount balance remaining newWithdrawn : I128} {i : StreamInfo}
    (h : Recorded env (.withdraw amount) s info s₁ info₁)
    (hm : markCompleted s₁ i balance remaining newWithdrawn = .ok s₂) :
    ∃ n, Recorded env (.withdraw amount) s info s₂ { info₁ with eventSequence := n } := by
  unfold Stream.markCompleted at hm
  split at hm
  · exact (h.put (f := fun st => { st with streamCompleted := some true }) (fun _ => rfl)
      fun _ _ => rfl).publish hm
  · cases hm
    exact ⟨_, h⟩

theorem wrote_of_withdraw {amount : I128} (hi : s.store.config = some info)
    (h : exec env s (.withdraw amount) = .ok s') :
    ∃ info', Wrote env (.withdraw amount) s info s' info' := by
  obtain ⟨x, h⟩ := after_eq_ok.mp h
  obtain ⟨d⟩ := exists_withdrawing hi h
  obtain ⟨hs₂, he₂⟩ := payRecipient_silent d.pays
  have hstart : Recorded env (.withdraw amount) s.locked info
      (s.locked.save { info with withdrawn := d.total }) { info with withdrawn := d.total } :=
    .start rfl rfl rfl rfl rfl
  obtain ⟨n, h₃⟩ := ((hstart.silent hs₂ he₂).put
    (f := fun st => { st with lastWithdrawalTime := some env.timestamp }) (fun _ => rfl)
    fun _ _ => rfl).publish d.publishes
  obtain ⟨n', h₄⟩ := h₃.markCliffReached d.marks
  obtain ⟨n'', h₅⟩ := h₄.markCompleted d.completes
  have hwrote := Wrote.of_guarded h₅
  rw [← d.releases] at hwrote
  exact ⟨_, hwrote⟩

theorem payFromPool_silent {token payee : Address} {amount : I128}
    (h : payFromPool env token payee amount s = .ok s') :
    s'.store = s.store ∧ s'.events = s.events := by
  simp only [payFromPool, bind_eq_ok, okOr_eq_ok, pure_eq_ok] at h
  obtain ⟨_, -, _, -, s₁, h₁, -, -, rfl⟩ := h
  exact transfer_silent h₁

/-- The freeze is one key. -/
theorem setEmergencyPaused_store {paused : Bool}
    (h : setEmergencyPaused env paused (isEmergencyPaused env s).2 = .ok s') :
    ∃ v, s' = { s with store := { s.store with emergencyPaused := v } } := by
  unfold setEmergencyPaused at h
  split at h
  · cases h
    exact ⟨_, rfl⟩
  · cases h
    exact ⟨_, rfl⟩
  · cases h

/-- A flip of the freeze publishes one event. -/
theorem wrote_of_freeze {paused : Bool} {e : Event} (hi : s.store.config = some info)
    (hc : ∃ caller, c = .emergencyPause caller ∨ c = .emergencyUnpause caller)
    (h₁ : setEmergencyPaused env paused (isEmergencyPaused env s).2 = .ok s₁)
    (h₂ : publish s₁ e = .ok s') : ∃ info', Wrote env c s info s' info' := by
  obtain ⟨v, rfl⟩ := setEmergencyPaused_store h₁
  have hstart : Recorded env c s info
      { s with store := { s.store with emergencyPaused := v } } info := by
    rcases hc with ⟨caller, rfl | rfl⟩ <;> exact .start hi rfl rfl rfl rfl
  exact wrote_of_publish_unguarded h₂ hstart

/-- A text is written under its own key and publishes nothing. -/
theorem wrote_of_setText {caller : Address} {f : Storage → Storage} {x : Unit}
    (hi : s.store.config = some info) (h : setText env caller f s = .ok (x, s'))
    (hc : (f s.store).config = s.store.config) (hr : info = c.rewrite env info info)
    (hw : f s.store = c.write s.store (f s.store)) : ∃ info', Wrote env c s info s' info' := by
  simp only [setText, bind_eq_ok, pure_eq_ok, Prod.mk.injEq] at h
  obtain ⟨_, -, -, rfl⟩ := h
  exact ⟨info, .of_recorded (.start (hc.trans hi) hr rfl rfl hw)⟩

theorem wrote_of_exec (hi : s.store.config = some info) (h : exec env s c = .ok s') :
    ∃ info', Wrote env c s info s' info' := by
  cases c with
  | initializeStream args => simp [exec, initializeStream, initializeReading, hi] at h
  | withdraw amount => exact wrote_of_withdraw hi h
  | cancel caller =>
      obtain ⟨-, -, s₁, u, hset, rfl⟩ := settle_of_cancel hi h
      exact wrote_of_settle (.inr ⟨caller, rfl⟩) hset
  | forceCancel =>
      obtain ⟨-, s₁, u, hset, rfl⟩ := settle_of_forceCancel hi h
      exact wrote_of_settle (.inl rfl) hset
  | clawback caller =>
      simp [exec, clawback, clawbackBody, hi] at h
      obtain ⟨-, s₂, ⟨-, -, -, -, _, -, _, -, _, -, s₁, h₁, h₂⟩, rfl⟩ := h
      obtain ⟨hs₁, he₁⟩ := payPositive_silent h₁
      have hstart : Recorded env (.clawback caller) s.locked info s.locked info :=
        .start hi rfl rfl rfl rfl
      exact wrote_of_publish h₂ (hstart.silent hs₁ he₁)
  | topUp caller amount =>
      simp [exec, topUp, topUpBody, hi] at h
      obtain ⟨-, s₂, ⟨-, -, -, -, s₁, h₁, h₂⟩, rfl⟩ := h
      obtain ⟨d, hs₁, he₁⟩ := deposit_silent h₁
      exact wrote_of_publish h₂ (.start (by rw [hs₁]; exact hi) rfl rfl he₁ (by rw [hs₁]; rfl))
  | extendDuration caller x =>
      simp [exec, extendDuration, extendDurationBody, hi] at h
      obtain ⟨-, s₂, ⟨-, -, -, -, _, -, s₁, h₁, e, -, h₂⟩, rfl⟩ := h
      obtain ⟨d, hs₁, he₁⟩ := deposit_silent h₁
      refine wrote_of_publish h₂ (.start rfl rfl rfl he₁ ?_)
      rw [State.save, hs₁]
      rfl
  | topUpAndExtend caller amount x =>
      simp [exec, topUpAndExtend, topUpAndExtendBody, hi] at h
      obtain ⟨-, s₂, ⟨-, -, -, -, -, s₁, h₁, e, -, h₂⟩, rfl⟩ := h
      obtain ⟨d, hs₁, he₁⟩ := deposit_silent h₁
      refine wrote_of_publish h₂ (.start rfl rfl rfl he₁ ?_)
      rw [State.save, hs₁]
      rfl
  | pause caller =>
      simp [exec, pause, pauseBody, hi] at h
      obtain ⟨-, s₁, ⟨-, -, -, -, -, _, -, h₁⟩, rfl⟩ := h
      exact wrote_of_publish h₁ (.start rfl rfl rfl rfl rfl)
  | resume caller =>
      simp [exec, resume, resumeBody, hi] at h
      obtain ⟨-, s₂, ⟨-, -, -, _, -, s₁, h₁, -, _, -, _, -, h₂⟩, rfl⟩ := h
      obtain ⟨k, rfl, -⟩ := shiftCheckpoint_spec h₁
      exact wrote_of_publish h₂ (.start rfl rfl rfl rfl rfl)
  | changeRate caller r =>
      simp [exec, changeRate, changeRateBody, hi] at h
      obtain ⟨-, s₁, ⟨-, -, -, -, _, -, -, h₁⟩, rfl⟩ := h
      exact wrote_of_publish h₁ (.start rfl rfl rfl rfl rfl)
  | setCliff caller time amount =>
      simp [exec, setCliff, setCliffBody, hi] at h
      obtain ⟨-, s₁, ⟨-, -, -, -, h₁⟩, rfl⟩ := h
      exact wrote_of_publish h₁ (.start rfl rfl rfl rfl rfl)
  | transferRecipient r =>
      simp [exec, transferRecipient, transferRecipientBody, hi] at h
      obtain ⟨-, s₁, ⟨-, -, -, -, h₁⟩, rfl⟩ := h
      exact wrote_of_publish h₁ (.start rfl rfl rfl rfl rfl)
  | setAutoForwardAddress a =>
      simp [exec, setAutoForwardAddress, setAutoForwardAddressBody, hi] at h
      obtain ⟨-, -, rfl⟩ := h
      exact ⟨info, .of_guarded (.start rfl rfl rfl rfl rfl)⟩
  | setSplitRecipient caller secondary bps =>
      simp [exec, setSplitRecipient, setSplitRecipientBody, hi] at h
      obtain ⟨-, s₁, ⟨-, -, -, -, h₁⟩, rfl⟩ := h
      exact wrote_of_publish h₁ (.start rfl rfl rfl rfl rfl)
  | removeSplitRecipient caller =>
      simp [exec, removeSplitRecipient, removeSplitRecipientBody, hi] at h
      obtain ⟨-, s₁, ⟨-, -, h₁⟩, rfl⟩ := h
      exact wrote_of_publish h₁ (.start rfl rfl rfl rfl rfl)
  | setOperator caller op =>
      simp [exec, setOperator, hi] at h
      obtain ⟨-, h⟩ := h
      have hstart : Recorded env (.setOperator caller op) s info s info := .start hi rfl rfl rfl rfl
      have hput {s₁ : State} {info₁ : StreamInfo}
          (h₁ : Recorded env (.setOperator caller op) s info s₁ info₁) :=
        h₁.put (f := fun st => { st with operator := some op }) (fun _ => rfl) fun _ _ => rfl
      split at h
      · simp at h
        subst h
        exact ⟨info, .of_recorded hstart⟩
      · split at h
        · simp at h
          obtain ⟨s₁, h₁, h₂⟩ := h
          obtain ⟨n, hr₁⟩ := hstart.publish h₁
          exact wrote_of_publish_unguarded h₂ (hput hr₁)
        · simp at h
          exact wrote_of_publish_unguarded h (hput hstart)
  | revokeOperator caller =>
      simp only [exec, after_eq_ok, revokeOperator, bind_eq_ok, requireSender_eq_ok, pure_eq_ok,
        Prod.mk.injEq] at h
      obtain ⟨-, _, -, s₁, h₁, -, rfl⟩ := h
      have hstart : Recorded env (.revokeOperator caller) s info
          { s with store := { s.store with operator := none } } info := .start hi rfl rfl rfl rfl
      exact wrote_of_publish_unguarded h₁ hstart
  | setStreamTitle caller title =>
      obtain ⟨x, h⟩ := after_eq_ok.mp h
      exact wrote_of_setText hi h rfl rfl rfl
  | setReferenceTag caller tag =>
      obtain ⟨x, h⟩ := after_eq_ok.mp h
      exact wrote_of_setText hi h rfl rfl rfl
  | setInvoiceMetadataUri caller uri =>
      obtain ⟨x, h⟩ := after_eq_ok.mp h
      exact wrote_of_setText hi h rfl rfl rfl
  | setMilestoneMetadataUri caller uri =>
      obtain ⟨x, h⟩ := after_eq_ok.mp h
      exact wrote_of_setText hi h rfl rfl rfl
  | setMinWithdrawalInterval caller secs =>
      simp [exec, setMinWithdrawalInterval, setMinWithdrawalIntervalBody, hi] at h
      obtain ⟨-, s₁, ⟨-, -, h₁⟩, rfl⟩ := h
      exact wrote_of_publish h₁ (.start rfl rfl rfl rfl rfl)
  | setStreamConfig caller config =>
      simp [exec, setStreamConfig, setStreamConfigBody, hi] at h
      obtain ⟨-, -, rfl⟩ := h
      exact ⟨info, .of_guarded (.start rfl rfl rfl rfl rfl)⟩
  | isEmergencyPaused =>
      cases h
      exact ⟨info, .of_recorded (.start hi rfl rfl rfl rfl)⟩
  | emergencyPause caller =>
      simp only [exec, after_eq_ok, emergencyPause, bind_eq_ok, pure_eq_ok, Prod.mk.injEq] at h
      obtain ⟨-, -, -, -, -, s₁, h₁, s₂, h₂, -, rfl⟩ := h
      exact wrote_of_freeze hi ⟨caller, .inl rfl⟩ h₁ h₂
  | emergencyUnpause caller =>
      simp only [exec, after_eq_ok, emergencyUnpause, bind_eq_ok, pure_eq_ok, Prod.mk.injEq] at h
      obtain ⟨-, -, -, -, -, s₁, h₁, s₂, h₂, -, rfl⟩ := h
      exact wrote_of_freeze hi ⟨caller, .inr rfl⟩ h₁ h₂
  | configureKeeperRewardPool caller token reward =>
      simp [exec, configureKeeperRewardPool, configureKeeperRewardPoolBody, hi] at h
      obtain ⟨-, s₁, ⟨-, -, -, -, -, h₁⟩, rfl⟩ := h
      exact wrote_of_publish h₁ (.start hi rfl rfl rfl rfl)
  | fundKeeperRewardPool caller amount =>
      simp [exec, fundKeeperRewardPool, fundKeeperRewardPoolBody, hi] at h
      obtain ⟨-, s₂, ⟨-, -, -, pool, -, b, -, s₁, -, h₁, h₂⟩, rfl⟩ := h
      obtain ⟨hs₁, he₁⟩ := transfer_silent h₁
      exact wrote_of_publish h₂ (.start (by rw [hs₁]; exact hi) rfl rfl he₁ (by rw [hs₁]; rfl))
  | withdrawKeeperRewardPool caller amount =>
      simp [exec, withdrawKeeperRewardPool, withdrawKeeperRewardPoolBody, hi] at h
      obtain ⟨-, s₂, ⟨-, -, pool, -, b, -, s₁, h₁, h₂⟩, rfl⟩ := h
      obtain ⟨hs₁, he₁⟩ := payFromPool_silent h₁
      exact wrote_of_publish h₂ (.start (by rw [hs₁]; exact hi) rfl rfl he₁ (by rw [hs₁]; rfl))
  | keeperPing keeper =>
      simp [exec, keeperPing, keeperPingBody, hi] at h
      obtain ⟨-, s₂, ⟨-, -, pool, -, -, -, b, -, s₁, h₁, h₂⟩, rfl⟩ := h
      obtain ⟨hs₁, he₁⟩ := payFromPool_silent h₁
      exact wrote_of_publish h₂ (.start (by rw [hs₁]; exact hi) rfl rfl he₁ (by rw [hs₁]; rfl))

end Drip.Stream
