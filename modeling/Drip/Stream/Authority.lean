import Drip.Stream.Footprint

/-!
# Stream — Authority

Whose signature a call consumes.  A call consumes the authorization of an address when it succeeds
and would not have succeeded without it (`Consumes`).  Every entry point but `initialize`, `top_up`,
`keeper_ping` and those of the emergency freeze asks for the sender, the operator or the recipient;
`emergency_pause` and `emergency_unpause` ask for any caller's own signature, and
`is_emergency_paused` rewrites an expired freeze for anyone.
-/

namespace Drip.Stream
open Chain

variable {env : Env} {here : Address} {m m' m₀ : Moment} {a : Action} {as : List Action}
variable {s s' : State} {info info' : StreamInfo} {c : Call}

/-- The sender, the operator or the recipient. -/
def IsParty (s : State) (info : StreamInfo) (a : Address) : Prop :=
  a = info.sender ∨ s.store.operator = some a ∨ a = info.recipient

/-- The call succeeds, and fails without the authorization of `a`. -/
def Consumes (env : Env) (s : State) (c : Call) (a : Address) : Prop :=
  (∃ s', exec env s c = .ok s') ∧ ∀ s', exec (env.without a) s c ≠ .ok s'

/-! ### The signer of a call -/

/-- The address whose `require_auth` a call runs. -/
def Call.signer (info : StreamInfo) : Call → Option Address
  | .initializeStream _ | .isEmergencyPaused => none
  | .withdraw _ | .forceCancel | .transferRecipient _ | .setAutoForwardAddress _ =>
      some info.recipient
  | .cancel caller | .clawback caller | .topUp caller _ | .extendDuration caller _
  | .topUpAndExtend caller _ _ | .pause caller | .resume caller | .changeRate caller _
  | .setCliff caller _ _ | .setSplitRecipient caller _ _ | .removeSplitRecipient caller
  | .setOperator caller _ | .revokeOperator caller | .setStreamTitle caller _
  | .setReferenceTag caller _ | .setInvoiceMetadataUri caller _ | .setMilestoneMetadataUri caller _
  | .setMinWithdrawalInterval caller _ | .setStreamConfig caller _ | .emergencyPause caller
  | .emergencyUnpause caller | .configureKeeperRewardPool caller _ _ | .fundKeeperRewardPool caller _
  | .withdrawKeeperRewardPool caller _ | .keeperPing caller => some caller

/-- The calls that anyone may make. -/
def Call.IsOpen : Call → Bool
  | .initializeStream _ | .topUp .. | .keeperPing _ | .isEmergencyPaused | .emergencyPause _
  | .emergencyUnpause _ => true
  | _ => false

/-- An entry point of the recipient. -/
theorem signed_recipient (ha : env.authorized info.recipient = true) :
    ∃ a, some info.recipient = some a ∧ IsParty s info a ∧ env.authorized a = true :=
  ⟨_, rfl, .inr (.inr rfl), ha⟩

/-- An entry point of the sender and the operator. -/
theorem signed_manager {caller : Address}
    (h : (caller = info.sender ∨ s.store.operator = some caller) ∧ env.authorized caller = true) :
    ∃ a, some caller = some a ∧ IsParty s info a ∧ env.authorized a = true :=
  ⟨caller, rfl, h.1.imp_right .inl, h.2⟩

/-- An entry point of the sender alone. -/
theorem signed_sender {caller : Address} (h : caller = info.sender ∧ env.authorized caller = true) :
    ∃ a, some caller = some a ∧ IsParty s info a ∧ env.authorized a = true :=
  ⟨caller, rfl, .inl h.1, h.2⟩

/-- A call that not everyone may make has the authorization of a party, its signer. -/
theorem party_of_exec (hi : s.store.config = some info) (hc : c.IsOpen = false)
    (h : exec env s c = .ok s') :
    ∃ a, c.signer info = some a ∧ IsParty s info a ∧ env.authorized a = true := by
  cases c with
  | initializeStream | topUp | keeperPing | isEmergencyPaused | emergencyPause | emergencyUnpause =>
      cases hc
  | withdraw amount =>
      simp only [exec, after_eq_ok, withdraw, withGuard_eq_ok, withdrawBody, bind_eq_ok, reject_eq_ok,
        load_eq_ok, locked_config, hi, Option.some.injEq, assertNotCancelled_eq_ok,
        requireAuth_eq_ok] at h
      obtain ⟨-, -, s₁, ⟨-, -, _, rfl, -, -, -, ha, -⟩, -⟩ := h
      exact signed_recipient ha
  | cancel caller =>
      simp [exec, cancel, cancelBody, hi] at h
      obtain ⟨-, _, _, ⟨-, -, hm, -⟩, -⟩ := h
      exact signed_manager hm
  | forceCancel =>
      simp [exec, forceCancel, forceCancelBody, hi] at h
      obtain ⟨-, _, _, ⟨-, -, -, ha, -⟩, -⟩ := h
      exact signed_recipient ha
  | clawback caller =>
      simp [exec, clawback, clawbackBody, hi] at h
      obtain ⟨-, _, ⟨-, -, -, hm, -⟩, -⟩ := h
      exact signed_manager hm
  | extendDuration caller extra =>
      simp [exec, extendDuration, extendDurationBody, hi] at h
      obtain ⟨-, _, ⟨-, -, hm, -⟩, -⟩ := h
      exact signed_manager hm
  | topUpAndExtend caller amount extra =>
      simp only [exec, after_eq_ok, topUpAndExtend, withGuard_eq_ok, topUpAndExtendBody, bind_eq_ok,
        reject_eq_ok, load_eq_ok, locked_config, hi, Option.some.injEq, assertNotCancelled_eq_ok,
        requireSenderOrOperator_eq_ok] at h
      obtain ⟨-, -, s₁, ⟨-, -, -, -, _, rfl, -, hm, -⟩, -⟩ := h
      exact signed_manager hm
  | pause caller =>
      simp [exec, pause, pauseBody, hi] at h
      obtain ⟨-, _, ⟨-, -, hm, -⟩, -⟩ := h
      exact signed_manager hm
  | resume caller =>
      simp [exec, resume, resumeBody, hi] at h
      obtain ⟨-, _, ⟨-, -, hm, -⟩, -⟩ := h
      exact signed_manager hm
  | changeRate caller rate =>
      simp [exec, changeRate, changeRateBody, hi] at h
      obtain ⟨-, _, ⟨-, -, hm, -⟩, -⟩ := h
      exact signed_manager hm
  | setCliff caller time amount =>
      simp [exec, setCliff, setCliffBody, hi] at h
      obtain ⟨-, _, ⟨-, hm, -⟩, -⟩ := h
      exact signed_manager hm
  | transferRecipient recipient =>
      simp [exec, transferRecipient, transferRecipientBody, hi] at h
      obtain ⟨-, _, ⟨-, ha, -⟩, -⟩ := h
      exact signed_recipient ha
  | setAutoForwardAddress dst =>
      simp [exec, setAutoForwardAddress, setAutoForwardAddressBody, hi] at h
      obtain ⟨-, ⟨-, ha, -⟩, -⟩ := h
      exact signed_recipient ha
  | setSplitRecipient caller secondary bps =>
      -- the split is the one setting that all three may change
      simp [exec, setSplitRecipient, setSplitRecipientBody, hi] at h
      obtain ⟨-, _, ⟨-, ⟨hparty, ha⟩, -⟩, -⟩ := h
      exact ⟨caller, rfl, hparty, ha⟩
  | removeSplitRecipient caller =>
      simp [exec, removeSplitRecipient, removeSplitRecipientBody, hi] at h
      obtain ⟨-, _, ⟨-, ⟨hparty, ha⟩, -⟩, -⟩ := h
      exact ⟨caller, rfl, hparty, ha⟩
  | setOperator caller operator =>
      simp [exec, setOperator, hi] at h
      exact signed_sender h.1.2
  | revokeOperator caller =>
      simp [exec, revokeOperator, hi] at h
      exact signed_sender h.1.2
  | setStreamTitle caller text =>
      simp [exec, setStreamTitle, setText, hi] at h
      exact signed_sender h.1.2
  | setReferenceTag caller text =>
      simp [exec, setReferenceTag, setText, hi] at h
      exact signed_sender h.1.2
  | setInvoiceMetadataUri caller text =>
      simp [exec, setInvoiceMetadataUri, setText, hi] at h
      exact signed_sender h.1.2
  | setMilestoneMetadataUri caller text =>
      simp [exec, setMilestoneMetadataUri, setText, hi] at h
      exact signed_sender h.1.2
  | setMinWithdrawalInterval caller secs =>
      simp [exec, setMinWithdrawalInterval, setMinWithdrawalIntervalBody, hi] at h
      obtain ⟨-, _, ⟨-, hm, -⟩, -⟩ := h
      exact signed_manager hm
  | setStreamConfig caller config =>
      simp [exec, setStreamConfig, setStreamConfigBody, hi] at h
      obtain ⟨-, ⟨-, hm⟩, -⟩ := h
      exact signed_manager hm
  | configureKeeperRewardPool caller token reward =>
      simp [exec, configureKeeperRewardPool, configureKeeperRewardPoolBody, hi] at h
      obtain ⟨-, _, ⟨hm, -⟩, -⟩ := h
      exact signed_manager hm
  | fundKeeperRewardPool caller amount =>
      simp [exec, fundKeeperRewardPool, fundKeeperRewardPoolBody, hi] at h
      obtain ⟨-, _, ⟨hm, -⟩, -⟩ := h
      exact signed_manager hm
  | withdrawKeeperRewardPool caller amount =>
      simp [exec, withdrawKeeperRewardPool, withdrawKeeperRewardPoolBody, hi] at h
      obtain ⟨-, _, ⟨hm, -⟩, -⟩ := h
      exact signed_manager hm

/-- A call of a party consumes that party's authorization. -/
theorem consumes_of_exec (hi : s.store.config = some info) (hc : c.IsOpen = false)
    (h : exec env s c = .ok s') : ∃ a, IsParty s info a ∧ Consumes env s c a := by
  obtain ⟨a, hsigner, hparty, -⟩ := party_of_exec hi hc h
  refine ⟨a, hparty, ⟨s', h⟩, fun s₁ h₁ => ?_⟩
  obtain ⟨b, hsigner', -, hb⟩ := party_of_exec hi hc h₁
  obtain rfl : a = b := Option.some.inj (hsigner.symm.trans hsigner')
  rw [Env.without_authorized] at hb
  cases hb

/-! ### The emergency freeze -/

/-- The calls that set or lift the freeze. -/
def Call.freezer : Call → Option Address
  | .emergencyPause caller | .emergencyUnpause caller => some caller
  | _ => none

theorem authorized_of_freezer {caller : Address} (hc : c.freezer = some caller)
    (h : exec env s c = .ok s') : env.authorized caller = true := by
  cases c with
  | emergencyPause b =>
      obtain rfl := Option.some.inj hc
      simp only [exec, after_eq_ok, emergencyPause, bind_eq_ok, requireAuth_eq_ok] at h
      obtain ⟨-, -, ha, -⟩ := h
      exact ha
  | emergencyUnpause b =>
      obtain rfl := Option.some.inj hc
      simp only [exec, after_eq_ok, emergencyUnpause, bind_eq_ok, requireAuth_eq_ok] at h
      obtain ⟨-, -, ha, -⟩ := h
      exact ha
  | _ => cases hc

/-- Only the caller's own authorization is asked for. -/
theorem exec_without_of_freezer {caller b : Address} (hc : c.freezer = some caller) (hne : caller ≠ b) :
    exec (env.without b) s c = exec env s c := by
  have ha : (env.without b).authorized caller = env.authorized caller := Env.without_of_ne hne
  cases c with
  | emergencyPause a =>
      obtain rfl := Option.some.inj hc
      show after (emergencyPause (env.without b) a s) = after (emergencyPause env a s)
      unfold emergencyPause requireAuth
      rw [ha]
      rfl
  | emergencyUnpause a =>
      obtain rfl := Option.some.inj hc
      show after (emergencyUnpause (env.without b) a s) = after (emergencyUnpause env a s)
      unfold emergencyUnpause requireAuth
      rw [ha]
      rfl
  | _ => cases hc

theorem consumes_freezer {caller b : Address} (hc : c.freezer = some caller)
    (h : exec env s c = .ok s') : Consumes env s c b ↔ b = caller := by
  constructor
  · intro hcons
    by_contra hne
    exact hcons.2 s' ((exec_without_of_freezer hc (Ne.symm hne)).trans h)
  · rintro rfl
    refine ⟨⟨s', h⟩, fun s₁ h₁ => ?_⟩
    have ha := authorized_of_freezer hc h₁
    rw [Env.without_authorized] at ha
    cases ha

/-! ### The authority of a call -/

/-- The entry points that the rule does not speak of. -/
def Call.IsExempt : Call → Bool
  | .initializeStream _ | .topUp .. | .keeperPing _ => true
  | _ => false

/-- The freeze is set and lifted by a party, and is not rewritten by a read. -/
def Call.Sanctioned (c : Call) (env : Env) (s : State) (info : StreamInfo) : Prop :=
  match c with
  | .emergencyPause caller | .emergencyUnpause caller => IsParty s info caller
  | .isEmergencyPaused =>
      (Pause.isPaused env.timestamp s.store.emergencyPaused).2 = s.store.emergencyPaused
  | _ => True

/-- The call consumed a party's authorization, or is a read that wrote nothing. -/
def Attested (env : Env) (s : State) (info : StreamInfo) (c : Call) (s' : State) : Prop :=
  (∃ a, IsParty s info a ∧ Consumes env s c a) ∨ (c = .isEmergencyPaused ∧ s'.store = s.store)

/-- The freeze is asked for by its caller, whoever that is. -/
theorem attested_freezer {caller : Address} (hc : c.freezer = some caller)
    (h : exec env s c = .ok s') : Attested env s info c s' ↔ IsParty s info caller := by
  constructor
  · rintro (⟨a, hparty, hcons⟩ | ⟨rfl, -⟩)
    · obtain rfl := (consumes_freezer hc h).mp hcons
      exact hparty
    · cases hc
  · exact fun hparty => .inl ⟨caller, hparty, (consumes_freezer hc h).mpr rfl⟩

/-- Nobody signs a read. -/
theorem attested_read (h : exec env s .isEmergencyPaused = .ok s') :
    Attested env s info .isEmergencyPaused s' ↔
      (Pause.isPaused env.timestamp s.store.emergencyPaused).2 = s.store.emergencyPaused := by
  have hstore : s'.store = { s.store with emergencyPaused :=
      (Pause.isPaused env.timestamp s.store.emergencyPaused).2 } := by
    cases h
    rfl
  constructor
  · rintro (⟨a, -, hcons⟩ | ⟨-, hsame⟩)
    · exact absurd h (hcons.2 s')
    · exact congrArg Storage.emergencyPaused (hstore.symm.trans hsame)
  · intro hsame
    refine .inr ⟨rfl, ?_⟩
    rw [hstore, hsame]

theorem attested_iff (hi : s.store.config = some info) (hc : c.IsExempt = false)
    (h : exec env s c = .ok s') : Attested env s info c s' ↔ c.Sanctioned env s info := by
  cases ho : c.IsOpen with
  | false =>
      refine ⟨fun _ => ?_, fun _ => .inl (consumes_of_exec hi ho h)⟩
      cases c <;> first | exact trivial | cases ho
  | true =>
      cases c with
      | isEmergencyPaused => exact attested_read h
      | emergencyPause caller => exact attested_freezer rfl h
      | emergencyUnpause caller => exact attested_freezer rfl h
      | initializeStream | topUp | keeperPing => cases hc
      | _ => cases ho

/-! ### Strangers -/

/-- A step that no party of the stream has authorized, and that meets the condition of the rule. -/
def StrangerStep (here : Address) (m : Moment) (a : Action) (m' : Moment) : Prop :=
  Step here m a m' ∧ ∀ env c info, a = .call env c → m.state.store.config = some info →
    c.IsExempt = false ∧ c.Sanctioned env m.state info ∧
      ∀ b, IsParty m.state info b → env.authorized b = false

/-- A call consumes only an authorization it has. -/
theorem authorized_of_consumes {b : Address} (h : Consumes env s c b) : env.authorized b = true := by
  rw [← Bool.not_eq_false]
  intro hb
  obtain ⟨⟨s', hs'⟩, hno⟩ := h
  rw [Env.without_eq hb] at hno
  exact hno s' hs'

theorem store_of_stranger (hi : m.state.store.config = some info) (h : StrangerStep here m a m') :
    m'.state.store = m.state.store := by
  obtain ⟨hstep, hcall⟩ := h
  cases hstep with
  | outside h => rfl
  | call henv hclock h =>
      obtain ⟨hex, hsan, hno⟩ := hcall _ _ info rfl hi
      rcases (attested_iff hi hex h).mpr hsan with ⟨b, hparty, hcons⟩ | ⟨-, hsame⟩
      · have ha := authorized_of_consumes hcons
        rw [hno b hparty] at ha
        cases ha
      · exact hsame

theorem store_of_strangers (hi : m.state.store.config = some info)
    (h : Run (StrangerStep here) m as m') : m'.state.store = m.state.store := by
  refine h.invariant (P := fun m₁ => m₁.state.store = m.state.store) ?_ rfl
  intro m₁ a m₂ _ hstep hsame
  have hi₁ : m₁.state.store.config = some info := by rw [hsame]; exact hi
  exact (store_of_stranger hi₁ hstep).trans hsame

/-- **Who may change a stream.**  In every reachable state, a successful call other than `initialize`,
`top_up` and `keeper_ping` has consumed the authorization of the sender, the operator or the
recipient exactly when the freeze is not set or lifted by someone else nor rewritten by a read.  A
run of calls of this kind that none of the three has authorized leaves the whole storage as it was. -/
theorem authority_of_reachable (hr : Reachable here m) :
    ∃ info, m.state.store.config = some info ∧
      (∀ env c s', env.contract = here → m.clock.val ≤ env.timestamp.val → c.IsExempt = false →
        exec env m.state c = .ok s' →
        (Attested env m.state info c s' ↔ c.Sanctioned env m.state info)) ∧
      ∀ as m', Run (StrangerStep here) m as m' → m'.state.store = m.state.store := by
  obtain ⟨info, hs⟩ := sound_of_reachable hr
  refine ⟨info, hs.config, fun env c s' _ _ hc h => attested_iff hs.config hc h, ?_⟩
  exact fun as m' hrun => store_of_strangers hs.config hrun

/-- The sample stream with an operator. -/
def Sample.operated : Moment := reached Sample.args [(.lit 200, .setOperator sender (.account 3))]

theorem authority_of_reachable_operated :
    ∃ info, Sample.operated.state.store.config = some info ∧
      Attested (Sample.envAt (.lit 300)) Sample.operated.state info (.pause (.account 3))
        (Sample.next Sample.operated (.lit 300) (.pause (.account 3))).state := by
  have hr : Reachable Sample.address Sample.operated :=
    Sample.reachable_reached (by decide +kernel) (by decide +kernel)
  obtain ⟨info, hi, h, -⟩ := authority_of_reachable hr
  refine ⟨info, hi, (h _ _ _ rfl (by decide +kernel) rfl ?_).mpr trivial⟩
  exact Sample.exec_next (by decide +kernel)

/-- An invocation that only a stranger has signed. -/
def Sample.strangerEnv (t : U64) : Env := ⟨address, t, .lit 1, fun a => a == .account 5, by decide⟩

/-- The freeze of the sample stream by that stranger. -/
def Sample.freezing : Result (Unit × State) :=
  emergencyPause (strangerEnv (.lit 300)) (.account 5) (reached Sample.args []).state

/-- A stranger freezes the sample stream, with no signature but its own. -/
theorem stranger_freezes :
    ∃ m info s', Reachable Sample.address m ∧ m.state.store.config = some info ∧
      exec (Sample.strangerEnv (.lit 300)) m.state (.emergencyPause (.account 5)) = .ok s' ∧
      s'.store ≠ m.state.store ∧ ∀ a, IsParty m.state info a →
        ¬ Consumes (Sample.strangerEnv (.lit 300)) m.state (.emergencyPause (.account 5)) a := by
  refine ⟨Sample.reached Sample.args [], initialInfo Sample.args, Sample.left Sample.freezing,
    Sample.reachable_reached (by decide +kernel) (by decide +kernel), by decide +kernel,
    after_eq_ok.mpr ⟨(), Sample.eq_ok_left (by decide +kernel)⟩, fun h => ?_, fun a hparty hcons => ?_⟩
  · have hset : (Sample.left Sample.freezing).store.emergencyPaused.isSome = true := by decide +kernel
    have hunset : (Sample.reached Sample.args []).state.store.emergencyPaused.isSome = false := by
      decide +kernel
    rw [h, hunset] at hset
    cases hset
  · have ha := authorized_of_consumes hcons
    have hop : (Sample.reached Sample.args []).state.store.operator = none := by decide +kernel
    rcases hparty with rfl | hparty | rfl
    · revert ha
      decide +kernel
    · rw [hop] at hparty
      cases hparty
    · revert ha
      decide +kernel

end Drip.Stream
