import Drip.Stream.Settlement
import Drip.Stream.Footprint

/-!
# Stream — Exits

The ways out of a pause: `resume` for thirty days, `force_cancel` from a configured threshold on, and
`cancel` unless it has been switched off.

* `Admitted`: no check of an entry point refuses the call; what may still go wrong is a missing
  signature, a token call or arithmetic.
* `admitted_resume`, `admitted_cancel`, `admitted_forceCancel`: when each way is open; and
  `refused_resume`, `refused_cancel`, `refused_forceCancel`: when it is not.
* `exit_iff`: when one of them is open at every time.
* `cancel_twin`: `cancel` and `force_cancel` settle alike.
-/

namespace Drip.Stream
open Chain

variable {env env₁ env₂ : Env} {here : Address} {args : InitArgs} {m m₀ : Moment}
variable {as : List Action} {s s' : State} {info : StreamInfo}

/-! ### The guard between calls -/

theorem free_of_reachable (hr : Reachable here m) : m.state.Free := by
  obtain ⟨args, m₀, as, hborn, hrun⟩ := hr
  have hall : ∃ info, Sound here m.state info m.clock.val ∧ m.state.Free := by
    refine Sound.along (P := fun _ m => m.state.Free) id (fun _ hstep hc hfree => ?_)
      (fun _ _ _ hfree => hfree) hrun (sound_of_born hborn) ?_
    · cases hstep with
      | call henv hclock h =>
          obtain ⟨info', hw⟩ := wrote_of_exec hc.before.config h
          exact hw.free hfree
    · obtain ⟨env, tokens, s₀, -, -, h₀, hm⟩ := hborn
      simp [initializeStream, initializeReading, State.fresh, publish_eq_ok] at h₀
      obtain ⟨-, -, -, -, -, -, -, d, -, -, -, n, -, rfl⟩ := h₀
      rw [hm]
      rfl
  obtain ⟨info, -, hfree⟩ := hall
  exact hfree

/-! ### Calls that no check refuses -/

/-- The call goes through, or fails for want of a signature, in a token call or in arithmetic. -/
def Admitted {α : Type} (r : Result α) : Prop :=
  Only (fun f => f = .trap ∨ f = err .arithmeticOverflow) r

theorem admitted_withGuard {α : Type} {f : State → Result (α × State)} (hfree : s.Free)
    (h : Admitted (f s.locked)) : Admitted (withGuard s f) := by
  have hlock : lock s = .ok s.locked := lock_eq_ok.mpr ⟨hfree, rfl⟩
  refine only_bind (by rw [hlock]; exact only_ok _) fun s₁ h₁ => ?_
  obtain rfl := Except.ok.inj (hlock.symm.trans h₁)
  exact only_bind h fun _ _ => only_ok _

theorem admitted_load (hi : s.store.config = some info) : Admitted (load s) :=
  only_okOr fun h => by rw [hi] at h; cases h

theorem admitted_publish {e : Event} (hi : s.store.config = some info)
    (ha : ∀ x ∈ e.amounts, 0 ≤ x.val) : Admitted (publish s e) := by
  refine only_bind (only_reject ?_) fun _ _ => ?_
  · rintro ⟨x, hx, hneg⟩
    have := ha x hx
    omega
  · refine only_bind (admitted_load hi) fun _ _ => ?_
    exact only_bind (only_okOr fun _ => .inr rfl) fun _ _ => only_ok _

theorem admitted_transfer {t : Transfer} : Admitted (transfer s t) :=
  only_bind (only_okOr fun _ => .inl rfl) fun _ _ => only_ok _

theorem admitted_mulDiv {v : I128} {a d : U128} : Admitted (mulDiv v a d) :=
  only_bind (only_reject fun _ => .inr rfl) fun _ _ =>
    only_bind (only_okOr fun _ => .inl rfl) fun _ _ =>
      only_bind (only_okOr fun _ => .inr rfl) fun _ _ => only_okOr fun _ => .inr rfl

theorem admitted_accrueSince {rate base : I128} {x since : U64} :
    Admitted (accrueSince rate x since base) := by
  unfold accrueSince
  split
  · exact only_ok _
  · refine only_bind (only_okOr fun _ => .inr rfl) fun _ _ => ?_
    exact only_bind admitted_mulDiv fun _ _ => only_okOr fun _ => .inr rfl

theorem admitted_streamedAmount : Admitted (streamedAmount env s info) := by
  unfold streamedAmount
  dsimp only
  split
  · exact only_ok _
  · cases s.store.rateCheckpoint with
    | some checkpoint => exact admitted_accrueSince
    | none =>
        cases s.store.cliffConfig with
        | some cfg => exact admitted_accrueSince
        | none => exact only_bind (only_okOr fun _ => .inr rfl) fun _ _ => admitted_mulDiv

theorem admitted_payPositive {dst : Address} {amount : I128} {p : Purpose} :
    Admitted (payPositive env s info dst amount p) := by
  unfold payPositive
  split
  · exact admitted_transfer
  · exact only_ok s

theorem admitted_payOwed {amount : I128} : Admitted (payOwed env s info amount) := by
  unfold payOwed payRecipient
  split
  · split
    · refine only_bind admitted_mulDiv fun _ _ => ?_
      refine only_bind (only_okOr fun _ => .inr rfl) fun _ _ => ?_
      exact only_bind admitted_payPositive fun _ _ => admitted_payPositive
    · exact admitted_transfer
  · exact only_ok s

/-- A settlement is refused by no check of its own. -/
theorem admitted_settle {event : Address → I128 → I128 → I128 → Event}
    (hev : ∀ a x y z, (event a x y z).amounts = [x, y, z]) (hw : 0 ≤ info.withdrawn.val) :
    Admitted (settle env info event s) := by
  refine only_bind admitted_streamedAmount fun streamed _ => ?_
  refine only_bind (only_okOr fun _ => .inl rfl) fun owed _ => ?_
  refine only_bind (only_okOr fun _ => .inl rfl) fun rest _ => ?_
  refine only_bind (only_okOr fun _ => .inr rfl) fun total htotal => ?_
  refine only_bind admitted_payOwed fun s₁ h₁ => ?_
  refine only_bind admitted_payPositive fun s₂ h₂ => ?_
  have hconfig : s₂.store.config = some { info.markCancelled with withdrawn := total } := by
    rw [(payPositive_silent h₂).1, (payOwed_silent h₁).1]
    rfl
  refine only_bind (admitted_publish hconfig ?_) fun _ _ => only_ok _
  have htotal := Ranged.checkedAdd_eq_some.mp (okOr_eq_ok.mp htotal)
  have hshare : 0 ≤ (min (max owed (.lit 0)) (s.balance info.token env.contract)).val := by
    have hbal : 0 ≤ (s.balance info.token env.contract).val :=
      (s.tokens.balance info.token env.contract).ge
    rw [Ranged.val_min, Ranged.val_max]
    exact le_min (le_max_right _ _) hbal
  have hrefund : 0 ≤ (max rest (.lit 0)).val := by
    rw [Ranged.val_max]
    exact le_max_right _ _
  intro x hx
  rw [hev] at hx
  simp only [List.mem_cons, List.not_mem_nil, or_false] at hx
  rcases hx with rfl | rfl | rfl
  · exact hrefund
  · omega
  · exact hrefund

/-- A failure inside the guard is the call's. -/
theorem withGuard_eq_error {α : Type} {f : State → Result (α × State)} {e : Failure Error}
    (hfree : s.Free) (h : f s.locked = .error e) : withGuard s f = .error e :=
  (bind_of_ok (lock_eq_ok.mpr ⟨hfree, rfl⟩)).trans (bind_of_error h)

/-- A guarded call on a stream that is not cancelled. -/
theorem admitted_active {α : Type} {f : StreamInfo → State → Result (α × State)} (hfree : s.Free)
    (hi : s.store.config = some info) (hx : info.isCancelled = false)
    (h : Admitted (f info s.locked)) :
    Admitted (withGuard s fun s => do
      let info ← load s
      assertNotCancelled info
      f info s) := by
  refine admitted_withGuard hfree ?_
  refine only_bind (admitted_load hi) fun info₁ h₁ => ?_
  obtain rfl := Option.some.inj (hi.symm.trans (load_eq_ok.mp h₁))
  refine only_bind (only_reject fun h => ?_) fun _ _ => h
  rw [hx] at h
  cases h

/-- A guarded call refused after these two checks. -/
theorem refused_active {α : Type} {f : StreamInfo → State → Result (α × State)} {e : Failure Error}
    (hfree : s.Free) (hi : s.store.config = some info) (hx : info.isCancelled = false)
    (h : f info s.locked = .error e) :
    (withGuard s fun s => do
      let info ← load s
      assertNotCancelled info
      f info s) = .error e := by
  refine withGuard_eq_error hfree ?_
  refine (bind_of_ok (load_eq_ok.mpr hi)).trans ?_
  exact (bind_of_ok (a := ()) (assertNotCancelled_eq_ok.mpr hx)).trans h

/-! ### The three ways out -/

/-- A paused stream passes the check that it is. -/
theorem admitted_paused (hp : info.isPaused = true) :
    Admitted (reject (info.isPaused = false) (err .notPaused)) :=
  only_reject fun h => by rw [hp] at h; cases h

theorem admitted_cancel (hfree : s.Free) (hi : s.store.config = some info)
    (hw : 0 ≤ info.withdrawn.val) (hx : info.isCancelled = false)
    (hc : ∀ cfg ∈ s.store.streamConfig, cfg.isCancelable = true) :
    Admitted (cancel env info.sender s) := by
  refine admitted_active hfree hi hx ?_
  refine only_bind (only_reject fun ⟨cfg, hcfg, h⟩ => ?_) fun _ _ => ?_
  · rw [hc cfg hcfg] at h
    cases h
  refine only_bind (only_bind (only_reject fun h => absurd rfl h.1) fun _ _ =>
    only_reject fun _ => .inl rfl) fun _ _ => ?_
  exact admitted_settle (fun _ _ _ _ => rfl) hw

theorem refused_cancel {caller : Address} {cfg : StreamConfig} (hfree : s.Free)
    (hi : s.store.config = some info) (hx : info.isCancelled = false)
    (hcfg : s.store.streamConfig = some cfg) (hc : cfg.isCancelable = false) :
    cancel env caller s = .error (err .streamNotCancelable) := by
  refine refused_active hfree hi hx ?_
  exact bind_of_error (reject_of _ ⟨cfg, hcfg, hc⟩)

/-- How long the stream has been paused. -/
theorem pausedSecs_val {now : U64} (h : info.pausedAt.val ≤ now.val) :
    (now.saturatingSub info.pausedAt).val = now.val - info.pausedAt.val := by
  have h0 := info.pausedAt.ge
  have hn := now.le
  rw [Ranged.saturatingSub, Ranged.val_clamp]
  omega

/-- `force_cancel_pause_secs` as stored. -/
def State.threshold (s : State) : U64 :=
  s.store.forceCancelPauseThresholdSecs.getD defaultPauseThresholdSecs

theorem admitted_forceCancel (hfree : s.Free) (hi : s.store.config = some info)
    (hw : 0 ≤ info.withdrawn.val) (hx : info.isCancelled = false) (hp : info.isPaused = true)
    (hle : info.pausedAt.val ≤ env.timestamp.val)
    (ht : s.threshold.val ≤ env.timestamp.val - info.pausedAt.val) : Admitted (forceCancel env s) := by
  refine admitted_active hfree hi hx ?_
  refine only_bind (admitted_paused hp) fun _ _ => ?_
  refine only_bind (only_reject fun h => ?_) fun _ _ => ?_
  · have h : (env.timestamp.saturatingSub info.pausedAt).val < s.threshold.val := h
    rw [pausedSecs_val hle] at h
    omega
  refine only_bind (only_reject fun _ => .inl rfl) fun _ _ => ?_
  exact admitted_settle (fun _ _ _ _ => rfl) hw

theorem refused_forceCancel (hfree : s.Free) (hi : s.store.config = some info)
    (hx : info.isCancelled = false) (hp : info.isPaused = true)
    (hle : info.pausedAt.val ≤ env.timestamp.val)
    (ht : env.timestamp.val - info.pausedAt.val < s.threshold.val) :
    forceCancel env s = .error (err .pauseThresholdNotMet) := by
  refine refused_active hfree hi hx ?_
  refine (bind_of_ok (a := ()) (reject_eq_ok.mpr (by simp [hp]))).trans ?_
  refine bind_of_error (reject_of _ ?_)
  show (env.timestamp.saturatingSub info.pausedAt).val < s.threshold.val
  rw [pausedSecs_val hle]
  exact ht

/-- The checkpoint of a paused stream that is not pending moves to a time not past now. -/
theorem shiftCheckpoint_ok {d : U64} (hle : info.pausedAt.val ≤ env.timestamp.val)
    (hd : d.val = env.timestamp.val - info.pausedAt.val) :
    ∃ s', shiftCheckpoint s info d = .ok s' := by
  unfold shiftCheckpoint
  cases s.store.rateCheckpoint with
  | none => exact ⟨s, rfl⟩
  | some cp =>
      dsimp only
      split
      · rename_i hcp
        have hcp : cp.at.val ≤ info.pausedAt.val := hcp
        have h0 := cp.at.ge
        have hn := env.timestamp.le
        have hd0 := d.ge
        have hsum : cp.at.checkedAdd d = some ⟨cp.at.val + d.val, by omega, by omega⟩ :=
          Ranged.checkedAdd_eq_some.mpr rfl
        exact ⟨_, bind_of_ok (okOr_eq_ok.mpr hsum)⟩
      · exact ⟨s, rfl⟩

theorem admitted_resume (hfree : s.Free) (hi : s.store.config = some info)
    (hx : info.isCancelled = false) (hp : info.isPaused = true)
    (ht : env.timestamp.val - info.pausedAt.val ≤ maxPauseSecs.val) :
    Admitted (resume env info.sender s) := by
  refine admitted_active hfree hi hx ?_
  refine only_bind (admitted_paused hp) fun _ _ => ?_
  refine only_bind (only_bind (only_reject fun h => absurd rfl h.1) fun _ _ =>
    only_reject fun _ => .inl rfl) fun _ _ => ?_
  refine only_bind (only_okOr fun _ => .inr rfl) fun d hd => ?_
  have hd := Ranged.checkedSub_eq_some.mp (okOr_eq_ok.mp hd)
  refine only_bind ?_ fun s₁ _ => ?_
  · unfold shiftCheckpoint
    split
    · split
      · exact only_bind (only_okOr fun _ => .inr rfl) fun _ _ => only_ok _
      · exact only_ok _
    · exact only_ok _
  refine only_bind (only_reject fun h => ?_) fun _ _ => ?_
  · have h : maxPauseSecs.val < d.val := h
    omega
  refine only_bind (only_okOr fun _ => .inr rfl) fun _ _ => ?_
  refine only_bind ?_ fun _ _ => ?_
  · unfold shiftEndTime
    split
    · exact only_okOr fun _ => .inr rfl
    · exact only_ok _
  refine only_bind (admitted_publish rfl fun x hx => ?_) fun _ _ => only_ok _
  cases hx

theorem refused_resume (hfree : s.Free) (hi : s.store.config = some info)
    (hx : info.isCancelled = false) (hp : info.isPaused = true)
    (ha : env.authorized info.sender = true) (hle : info.pausedAt.val ≤ env.timestamp.val)
    (ht : maxPauseSecs.val < env.timestamp.val - info.pausedAt.val) :
    resume env info.sender s = .error (err .pauseThresholdNotMet) := by
  have h0 := info.pausedAt.ge
  have hn := env.timestamp.le
  obtain ⟨d, hd⟩ : ∃ d : U64, d.val = env.timestamp.val - info.pausedAt.val :=
    ⟨⟨env.timestamp.val - info.pausedAt.val, by omega, by omega⟩, rfl⟩
  obtain ⟨s₁, hs₁⟩ := shiftCheckpoint_ok (s := s.locked) hle hd
  refine refused_active hfree hi hx ?_
  refine (bind_of_ok (a := ()) (reject_eq_ok.mpr (by simp [hp]))).trans ?_
  refine (bind_of_ok (a := ()) (requireSenderOrOperator_eq_ok.mpr ⟨.inl rfl, ha⟩)).trans ?_
  refine (bind_of_ok (okOr_eq_ok.mpr (Ranged.checkedSub_eq_some.mpr hd))).trans ?_
  refine (bind_of_ok hs₁).trans ?_
  exact bind_of_error (reject_of _ (by rw [Ranged.lt_def, hd]; exact ht))

/-! ### Whether there is always one -/

/-- `u64::MAX`. -/
abbrev lastTime : Int := 18446744073709551615

/-- **When a paused stream can always be left.**  One of the three ways is open at every time since
the pause exactly when `cancel` has not been switched off, or the threshold of `force_cancel` is met
as soon as `resume` expires, or time ends before that. -/
theorem exit_iff (hr : Reachable here m) (hi : m.state.store.config = some info)
    (hx : info.isCancelled = false) (hp : info.isPaused = true) :
    (∀ env, env.contract = here → info.pausedAt.val ≤ env.timestamp.val →
      env.authorized info.sender = true →
      (info.recipient ≠ here → env.authorized info.recipient = true) →
      Admitted (resume env info.sender m.state) ∨ Admitted (cancel env info.sender m.state) ∨
        Admitted (forceCancel env m.state)) ↔
    (∀ cfg ∈ m.state.store.streamConfig, cfg.isCancelable = true) ∨
      m.state.threshold.val ≤ maxPauseSecs.val + 1 ∨
      lastTime < info.pausedAt.val + maxPauseSecs.val + 1 := by
  have hfree := free_of_reachable hr
  obtain ⟨info₁, hs⟩ := sound_of_reachable hr
  obtain rfl : info₁ = info := Option.some.inj (hs.config.symm.trans hi)
  have hw := hs.withdrawn_nonneg
  constructor
  · intro hall
    by_contra hno
    push Not at hno
    obtain ⟨⟨cfg, hcfg, hc⟩, hth, htime⟩ := hno
    have hne : info₁.sender ≠ here := fun h => by
      rw [(hs.sender_here h).2] at hp
      cases hp
    -- the first second after `resume` has expired
    have h0 := info₁.pausedAt.ge
    have hmax : maxPauseSecs.val = 2592000 := rfl
    let env : Env :=
      { contract := here
        timestamp := ⟨info₁.pausedAt.val + maxPauseSecs.val + 1, by omega, htime⟩
        sequence := .lit 0
        authorized := fun a => a != here
        self_unauthorized := by simp }
    have hnow : env.timestamp.val = info₁.pausedAt.val + maxPauseSecs.val + 1 := rfl
    have ha : env.authorized info₁.sender = true := bne_iff_ne.mpr hne
    have hle : info₁.pausedAt.val ≤ env.timestamp.val := by omega
    rcases hall env rfl hle ha (fun h => bne_iff_ne.mpr h) with h | h | h
    · have hr := h _ (refused_resume hfree hi hx hp ha hle (by omega))
      rcases hr with hr | hr <;> cases hr
    · have hr := h _ (refused_cancel hfree hi hx hcfg (Bool.not_eq_true _ ▸ hc))
      rcases hr with hr | hr <;> cases hr
    · have hr := h _ (refused_forceCancel hfree hi hx hp hle (by omega))
      rcases hr with hr | hr <;> cases hr
  · intro hcond env _ hle _ _
    by_cases hearly : env.timestamp.val - info₁.pausedAt.val ≤ maxPauseSecs.val
    · exact .inl (admitted_resume hfree hi hx hp hearly)
    · rcases hcond with hc | hth | htime
      · exact .inr (.inl (admitted_cancel hfree hi hw hx hc))
      · exact .inr (.inr (admitted_forceCancel hfree hi hw hx hp hle (by omega)))
      · have hlast : env.timestamp.val ≤ lastTime := env.timestamp.le
        omega

/-- The sample stream paused at 200. -/
def Sample.paused : Moment := reached Sample.args [(.lit 200, .pause sender)]

theorem exit_iff_paused :
    (Sample.infoOf Sample.paused.state).isPaused = true ∧
      (Admitted (resume (Sample.envAt (.lit 3000000)) Sample.sender Sample.paused.state) ∨
        Admitted (cancel (Sample.envAt (.lit 3000000)) Sample.sender Sample.paused.state) ∨
        Admitted (forceCancel (Sample.envAt (.lit 3000000)) Sample.paused.state)) := by
  have hr : Reachable Sample.address Sample.paused :=
    Sample.reachable_reached (by decide +kernel) (by decide +kernel)
  have hi : Sample.paused.state.store.config = some (Sample.infoOf Sample.paused.state) := by
    decide +kernel
  have hsender : (Sample.infoOf Sample.paused.state).sender = Sample.sender := by decide +kernel
  have hexit := (exit_iff hr hi (by decide +kernel) (by decide +kernel)).mpr
    (.inr (.inl (by decide +kernel))) (Sample.envAt (.lit 3000000)) rfl (by decide +kernel)
    (by decide +kernel) fun _ => by decide +kernel
  rw [hsender] at hexit
  exact ⟨by decide +kernel, hexit⟩

/-- The sample stream with a threshold of forty days, not cancelable, paused at 200. -/
def Sample.stuck : Moment := reached { Sample.args with forceCancelPauseSecs := .lit 3456000 }
  [(.lit 150, .setStreamConfig sender ⟨false⟩), (.lit 200, .pause sender)]

/-- For ten days from the thirtieth on, it can be neither resumed nor settled. -/
theorem stuck_has_no_exit :
    ∃ m info, Reachable Sample.address m ∧ m.state.store.config = some info ∧
      info.isCancelled = false ∧ info.isPaused = true ∧
      resume (Sample.envAt (.lit 2592201)) info.sender m.state = .error (err .pauseThresholdNotMet) ∧
      cancel (Sample.envAt (.lit 2592201)) info.sender m.state = .error (err .streamNotCancelable) ∧
      forceCancel (Sample.envAt (.lit 2592201)) m.state = .error (err .pauseThresholdNotMet) := by
  have hr : Reachable Sample.address Sample.stuck :=
    Sample.reachable_reached (by decide +kernel) (by decide +kernel)
  have hfree := free_of_reachable hr
  have hi : Sample.stuck.state.store.config = some (Sample.infoOf Sample.stuck.state) := by
    decide +kernel
  refine ⟨Sample.stuck, Sample.infoOf Sample.stuck.state, hr, hi, by decide +kernel,
    by decide +kernel, ?_, ?_, ?_⟩
  · exact refused_resume hfree hi (by decide +kernel) (by decide +kernel) (by decide +kernel)
      (by decide +kernel) (by decide +kernel)
  · exact refused_cancel hfree hi (by decide +kernel)
      (show _ = some (StreamConfig.mk false) by decide +kernel) rfl
  · exact refused_forceCancel hfree hi (by decide +kernel) (by decide +kernel) (by decide +kernel)
      (by decide +kernel)

/-! ### Two settlements -/

/-- Both fail in the same way, or both succeed and leave the same storage, the same balances and the
same transfers. -/
def Twin {α : Type} (r₁ r₂ : Result (α × State)) : Prop :=
  (∃ f, r₁ = .error f ∧ r₂ = .error f) ∨
    ∃ a s₁ s₂, r₁ = .ok (a, s₁) ∧ r₂ = .ok (a, s₂) ∧ s₁.store = s₂.store ∧ s₁.tokens = s₂.tokens ∧
      s₁.transfers = s₂.transfers

theorem twin_bind {α β : Type} {x : Result α} {f g : α → Result (β × State)}
    (h : ∀ a, Twin (f a) (g a)) : Twin (x >>= f) (x >>= g) := by
  cases x with
  | error e => exact .inl ⟨e, rfl, rfl⟩
  | ok a => exact h a

/-- Two events with the same amounts are published alike. -/
theorem twin_publish {e₁ e₂ : Event} (h : e₁.amounts = e₂.amounts) :
    Twin (publish s e₁ >>= fun s => pure ((), s)) (publish s e₂ >>= fun s => pure ((), s)) := by
  unfold publish
  rw [h]
  simp only [bind_assoc]
  refine twin_bind fun _ => twin_bind fun info => twin_bind fun n => ?_
  exact .inr ⟨(), _, _, rfl, rfl, rfl, rfl, rfl⟩

/-- A settlement looks at the contract and the time of its environment only. -/
theorem settle_congr {event : Address → I128 → I128 → I128 → Event}
    (hc : env₁.contract = env₂.contract) (ht : env₁.timestamp = env₂.timestamp) :
    settle env₁ info event s = settle env₂ info event s := by
  unfold settle payOwed payRecipient payPositive pay streamedAmount
  rw [hc, ht]

theorem twin_settle (s : State) :
    Twin (settle env info .cancelled s) (settle env info .forceCancelled s) := by
  unfold settle
  refine twin_bind fun _ => twin_bind fun _ => twin_bind fun _ => twin_bind fun _ => ?_
  refine twin_bind fun _ => twin_bind fun _ => ?_
  exact twin_publish rfl

theorem unlock_store {s₁ s₂ : State} (h : s₁.store = s₂.store) :
    (unlock s₁).store = (unlock s₂).store := by
  unfold unlock
  rw [h]
  split <;> simp only [h]

theorem twin_withGuard {α : Type} {f g : State → Result (α × State)}
    (h : Twin (f s.locked) (g s.locked)) : Twin (withGuard s f) (withGuard s g) := by
  cases hl : lock s with
  | error e => exact .inl ⟨e, bind_of_error hl, bind_of_error hl⟩
  | ok s₁ =>
      obtain ⟨-, rfl⟩ := lock_eq_ok.mp hl
      rcases h with ⟨e, hf, hg⟩ | ⟨a, t₁, t₂, hf, hg, hs, ht, hx⟩
      · exact .inl ⟨e, (bind_of_ok hl).trans (bind_of_error hf),
          (bind_of_ok hl).trans (bind_of_error hg)⟩
      · refine .inr ⟨a, unlock t₁, unlock t₂, (bind_of_ok hl).trans (bind_of_ok hf),
          (bind_of_ok hl).trans (bind_of_ok hg), unlock_store hs, ?_, ?_⟩
        · rw [unlock_eq, unlock_eq]
          exact ht
        · rw [unlock_eq, unlock_eq]
          exact hx

theorem cancelBody_eq (hi : s.store.config = some info) (hx : info.isCancelled = false)
    (hc : ∀ cfg ∈ s.store.streamConfig, cfg.isCancelable = true)
    (ha : env.authorized info.sender = true) :
    cancelBody env info.sender s = settle env info .cancelled s := by
  refine (bind_of_ok (load_eq_ok.mpr hi)).trans ?_
  refine (bind_of_ok (a := ()) (assertNotCancelled_eq_ok.mpr hx)).trans ?_
  refine (bind_of_ok (a := ()) (reject_eq_ok.mpr ?_)).trans ?_
  · rintro ⟨cfg, hcfg, h⟩
    rw [hc cfg hcfg] at h
    cases h
  exact bind_of_ok (a := ()) (requireSenderOrOperator_eq_ok.mpr ⟨.inl rfl, ha⟩)

theorem forceCancelBody_eq (hi : s.store.config = some info) (hx : info.isCancelled = false)
    (hp : info.isPaused = true) (hle : info.pausedAt.val ≤ env.timestamp.val)
    (ht : s.threshold.val ≤ env.timestamp.val - info.pausedAt.val)
    (ha : env.authorized info.recipient = true) :
    forceCancelBody env s = settle env info .forceCancelled s := by
  refine (bind_of_ok (load_eq_ok.mpr hi)).trans ?_
  refine (bind_of_ok (a := ()) (assertNotCancelled_eq_ok.mpr hx)).trans ?_
  refine (bind_of_ok (a := ()) (reject_eq_ok.mpr (by simp [hp]))).trans ?_
  refine (bind_of_ok (a := ()) (reject_eq_ok.mpr ?_)).trans ?_
  · show ¬ (env.timestamp.saturatingSub info.pausedAt).val < s.threshold.val
    rw [pausedSecs_val hle]
    omega
  exact bind_of_ok (a := ()) (requireAuth_eq_ok.mpr ha)

/-- **`cancel` and `force_cancel` are one settlement.**  In every reachable paused state and at every
time at which the sender may cancel and the recipient may force the cancellation, both calls fail
alike, or both leave the same storage, the same balances and the same list of transfers. -/
theorem cancel_twin (hr : Reachable here m) (hi : m.state.store.config = some info)
    (hx : info.isCancelled = false) (hp : info.isPaused = true)
    (hcancelable : ∀ cfg ∈ m.state.store.streamConfig, cfg.isCancelable = true)
    (hc₁ : env₁.contract = here) (hc₂ : env₂.contract = here)
    (hclock : m.clock.val ≤ env₁.timestamp.val) (htime : env₂.timestamp = env₁.timestamp)
    (hthreshold : m.state.threshold.val ≤ env₁.timestamp.val - info.pausedAt.val)
    (hsender : env₁.authorized info.sender = true)
    (hrecipient : env₂.authorized info.recipient = true) :
    Twin (cancel env₁ info.sender m.state) (forceCancel env₂ m.state) := by
  obtain ⟨info₁, hs⟩ := sound_of_reachable hr
  obtain rfl : info₁ = info := Option.some.inj (hs.config.symm.trans hi)
  have hpaused : (scheduleOf info₁ m.state.store).pausedAt = some info₁.pausedAt.val :=
    pausedAt_eq_some.mpr ⟨hp, rfl⟩
  have hle : info₁.pausedAt.val ≤ env₁.timestamp.val :=
    (hs.valid.paused_le_now _ hpaused).trans hclock
  have hcancel : cancelBody env₁ info₁.sender m.state.locked =
      settle env₁ info₁ .cancelled m.state.locked := cancelBody_eq hi hx hcancelable hsender
  have hforce : forceCancelBody env₂ m.state.locked =
      settle env₁ info₁ .forceCancelled m.state.locked := by
    rw [← htime] at hle hthreshold
    have hbody : forceCancelBody env₂ m.state.locked =
        settle env₂ info₁ .forceCancelled m.state.locked :=
      forceCancelBody_eq hi hx hp hle hthreshold hrecipient
    exact hbody.trans (settle_congr (hc₂.trans hc₁.symm) htime)
  have htwin : Twin (cancelBody env₁ info₁.sender m.state.locked)
      (forceCancelBody env₂ m.state.locked) := by
    rw [hcancel, hforce]
    exact twin_settle m.state.locked
  exact twin_withGuard htwin

/-- The sample stream with a split, paused at 600. -/
def Sample.splitPaused : Moment := reached Sample.args
  [(.lit 500, .setSplitRecipient sender (.account 3) (.lit 2500)), (.lit 600, .pause sender)]

theorem cancel_twin_splitPaused :
    Twin (cancel (Sample.envAt (.lit 1700)) (Sample.infoOf Sample.splitPaused.state).sender
        Sample.splitPaused.state)
      (forceCancel (Sample.envAt (.lit 1700)) Sample.splitPaused.state) := by
  have hr : Reachable Sample.address Sample.splitPaused :=
    Sample.reachable_reached (by decide +kernel) (by decide +kernel)
  have hi : Sample.splitPaused.state.store.config =
      some (Sample.infoOf Sample.splitPaused.state) := by decide +kernel
  refine cancel_twin hr hi (by decide +kernel) (by decide +kernel) ?_ rfl rfl (by decide +kernel) rfl
    (by decide +kernel) (by decide +kernel) (by decide +kernel)
  have hconfig : Sample.splitPaused.state.store.streamConfig = none := by decide +kernel
  intro cfg hcfg
  rw [hconfig] at hcfg
  cases hcfg

end Drip.Stream
