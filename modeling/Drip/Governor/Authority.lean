import Drip.Governor.StatusIndex

/-!
# Governor — Authority

Whose signature a call of the governor consumes, and whether that address was entitled to the call.
Each entry point has a gate (`Call.gate`, `Entitled`): a role or `Admin`, the pending authority, the
author of the proposal.  All of them check it but two: `cancel_proposal` compares its caller with the
author and asks nobody for a signature, and `governor_is_paused` rewrites an expired pause for anyone.
-/

namespace Drip.Governor
open Chain

variable {here : Address} {host : Host} {env : Env} {s s' : State} {c : Call} {a : Address}
variable {role : Role} {as : List Action}

/-! ### Entitlements -/

/-- The role that opens an entry point, besides `Admin`. -/
def Call.gate : Call → Role
  | .governorPause _ | .governorUnpause _ | .pauseFactory _ | .unpauseFactory _ => .pauser
  | .setFeeBps .. | .setFeeRecipient .. => .feeManager
  | .setMinDuration .. | .setMaxRate .. | .setMaxDuration .. | .setForceCancelPauseThreshold .. =>
      .rateManager
  | .executeProposal .. => .executor
  | _ => .admin

/-- `a` may make the call at this moment. -/
def Entitled (env : Env) (s : State) (c : Call) (a : Address) : Prop :=
  match c with
  | .initializeGovernor .. | .governorIsPaused => False
  | .acceptAuthority _ | .claimAdmin _ => s.store.pendingAuthority = some a
  | .executeProposal .. => Rbac.Holds s.store.roles env.timestamp .executor a
  | .cancelProposal _ id => ∃ p, s.store.proposals.proposal id = some p ∧ p.author = a
  | c => Rbac.Holds s.store.roles env.timestamp .admin a ∨
      Rbac.Holds s.store.roles env.timestamp c.gate a

/-- The call succeeds, and fails without the authorization of `a`. -/
def Consumes (host : Host) (env : Env) (s : State) (c : Call) (a : Address) : Prop :=
  (∃ s', exec host env s c = .ok s') ∧ ∀ s', exec host (env.without a) s c ≠ .ok s'

/-- A call consumes only an authorization it has. -/
theorem authorized_of_consumes (h : Consumes host env s c a) : env.authorized a = true := by
  rw [← Bool.not_eq_false]
  intro ha
  obtain ⟨⟨s', hs'⟩, hno⟩ := h
  rw [Env.without_eq ha] at hno
  exact hno s' hs'

/-! ### The signer of a call -/

/-- The address whose `require_auth` a call runs. -/
def Call.signer : Call → Option Address
  | .initializeGovernor .. | .governorIsPaused | .cancelProposal .. => none
  | .governorPause caller | .governorUnpause caller | .pauseFactory caller | .unpauseFactory caller
  | .grantRoleWithExpiration caller .. | .grantRole caller .. | .revokeRole caller ..
  | .grantRoleBatch caller .. | .revokeRoleBatch caller .. | .transferAuthority caller _
  | .proposeAuthority caller _ | .revokeProposeAuthority caller | .acceptAuthority caller
  | .proposeAdmin caller _ | .claimAdmin caller | .revokeProposeAdmin caller | .upgrade caller _
  | .setFeeBps caller _ | .setFeeRecipient caller _ | .setMinDuration caller _ | .setMaxRate caller _
  | .setMaxDuration caller _ | .setForceCancelPauseThreshold caller _ | .setMinQuorumBps caller _
  | .setGovernanceSupply caller _ | .setProposalStakeConfig caller .. | .checkpointBalance caller ..
  | .propose caller _ | .executeProposal caller _ | .cancelProposalByAdmin caller .. => some caller

/-- A signature with a role. -/
theorem signed_role (h : Signed env s .admin a ∨ Signed env s role a) :
    (Rbac.Holds s.store.roles env.timestamp .admin a ∨ Rbac.Holds s.store.roles env.timestamp role a) ∧
      env.authorized a = true := by
  rcases h with h | h
  · exact ⟨.inl h.2, h.1⟩
  · exact ⟨.inr h.2, h.1⟩

theorem signed_accept {caller : Address} (h : acceptAuthority env caller s = .ok s') :
    s.store.pendingAuthority = some caller ∧ env.authorized caller = true := by
  simp only [acceptAuthority, bind_eq_ok, okOr_eq_ok, reject_eq_ok, requireAuth_eq_ok, not_not] at h
  obtain ⟨pending, hpending, -, rfl, -, hauth, -⟩ := h
  exact ⟨hpending, hauth⟩

theorem signed_revokePropose {caller : Address} (h : revokeProposeAuthority env caller s = .ok s') :
    Signed env s .admin caller := by
  simp only [revokeProposeAuthority, bind_eq_ok, requireRole_eq_ok] at h
  obtain ⟨-, hsigned, -⟩ := h
  exact hsigned

/-- A call that asks for a signature has that of an entitled address, its signer. -/
theorem entitled_of_exec (hc : c.signer.isSome = true) (h : exec host env s c = .ok s') :
    ∃ a, c.signer = some a ∧ Entitled env s c a ∧ env.authorized a = true := by
  cases c with
  | initializeGovernor | governorIsPaused | cancelProposal => cases hc
  | governorPause caller =>
      simp only [exec, governorPause, bind_eq_ok] at h
      obtain ⟨u, hrole, -⟩ := h
      exact ⟨caller, rfl, signed_role (signed_of_requireRoleOrAdmin hrole)⟩
  | governorUnpause caller =>
      simp only [exec, governorUnpause, bind_eq_ok] at h
      obtain ⟨u, hrole, -⟩ := h
      exact ⟨caller, rfl, signed_role (signed_of_requireRoleOrAdmin hrole)⟩
  | pauseFactory caller =>
      simp only [exec, pauseFactory, bind_eq_ok] at h
      obtain ⟨u, hrole, -⟩ := h
      exact ⟨caller, rfl, signed_role (signed_of_requireRoleOrAdmin hrole)⟩
  | unpauseFactory caller =>
      simp only [exec, unpauseFactory, bind_eq_ok] at h
      obtain ⟨u, hrole, -⟩ := h
      exact ⟨caller, rfl, signed_role (signed_of_requireRoleOrAdmin hrole)⟩
  | grantRoleWithExpiration caller role account expiresAt =>
      simp only [exec, grantRoleWithExpiration, bind_eq_ok, requireRole_eq_ok] at h
      obtain ⟨-, hsigned, -⟩ := h
      exact ⟨caller, rfl, signed_role (.inl hsigned)⟩
  | grantRole caller role account =>
      simp only [exec, grantRole, bind_eq_ok, requireRole_eq_ok] at h
      obtain ⟨-, hsigned, -⟩ := h
      exact ⟨caller, rfl, signed_role (.inl hsigned)⟩
  | revokeRole caller role account =>
      simp only [exec, revokeRole, bind_eq_ok, requireRole_eq_ok] at h
      obtain ⟨-, hsigned, -⟩ := h
      exact ⟨caller, rfl, signed_role (.inl hsigned)⟩
  | grantRoleBatch caller role accounts =>
      simp only [exec, grantRoleBatch, bind_eq_ok, requireRole_eq_ok] at h
      obtain ⟨-, hsigned, -⟩ := h
      exact ⟨caller, rfl, signed_role (.inl hsigned)⟩
  | revokeRoleBatch caller role accounts =>
      simp only [exec, revokeRoleBatch, bind_eq_ok, requireRole_eq_ok] at h
      obtain ⟨-, hsigned, -⟩ := h
      exact ⟨caller, rfl, signed_role (.inl hsigned)⟩
  | transferAuthority caller newAuthority =>
      simp only [exec, transferAuthority, bind_eq_ok, requireRole_eq_ok] at h
      obtain ⟨-, -, -, -, -, -, -, hsigned, -⟩ := h
      exact ⟨caller, rfl, signed_role (.inl hsigned)⟩
  | proposeAuthority caller newAuthority =>
      simp only [exec, proposeAuthority, bind_eq_ok, requireRole_eq_ok] at h
      obtain ⟨-, -, -, -, -, -, -, hsigned, -⟩ := h
      exact ⟨caller, rfl, signed_role (.inl hsigned)⟩
  | revokeProposeAuthority caller =>
      exact ⟨caller, rfl, signed_role (.inl (signed_revokePropose h))⟩
  | acceptAuthority caller =>
      exact ⟨caller, rfl, signed_accept h⟩
  | proposeAdmin caller newAdmin =>
      simp only [exec, proposeAdmin, bind_eq_ok, requireRole_eq_ok] at h
      obtain ⟨-, hsigned, -⟩ := h
      exact ⟨caller, rfl, signed_role (.inl hsigned)⟩
  | claimAdmin caller =>
      exact ⟨caller, rfl, signed_accept h⟩
  | revokeProposeAdmin caller =>
      exact ⟨caller, rfl, signed_role (.inl (signed_revokePropose h))⟩
  | upgrade caller newWasmHash =>
      simp only [exec, upgrade, bind_eq_ok, requireRole_eq_ok] at h
      obtain ⟨-, hsigned, -⟩ := h
      exact ⟨caller, rfl, signed_role (.inl hsigned)⟩
  | setFeeBps caller feeBps =>
      simp only [exec, setFeeBps, bind_eq_ok] at h
      obtain ⟨-, -, s₁, hgate, -⟩ := h
      exact ⟨caller, rfl, signed_role (gate_spec hgate).2⟩
  | setFeeRecipient caller recipient =>
      simp only [exec, setFeeRecipient, bind_eq_ok] at h
      obtain ⟨-, -, s₁, hgate, -⟩ := h
      exact ⟨caller, rfl, signed_role (gate_spec hgate).2⟩
  | setMinDuration caller seconds =>
      simp only [exec, setMinDuration, bind_eq_ok] at h
      obtain ⟨-, -, s₁, hgate, -⟩ := h
      exact ⟨caller, rfl, signed_role (gate_spec hgate).2⟩
  | setMaxRate caller maxRate =>
      simp only [exec, setMaxRate, bind_eq_ok] at h
      obtain ⟨-, -, s₁, hgate, -⟩ := h
      exact ⟨caller, rfl, signed_role (gate_spec hgate).2⟩
  | setMaxDuration caller seconds =>
      simp only [exec, setMaxDuration, bind_eq_ok] at h
      obtain ⟨-, -, s₁, hgate, -⟩ := h
      exact ⟨caller, rfl, signed_role (gate_spec hgate).2⟩
  | setForceCancelPauseThreshold caller seconds =>
      simp only [exec, setForceCancelPauseThreshold, bind_eq_ok] at h
      obtain ⟨-, -, s₁, hgate, -⟩ := h
      exact ⟨caller, rfl, signed_role (gate_spec hgate).2⟩
  | setMinQuorumBps caller minQuorumBps =>
      simp only [exec, setMinQuorumBps, bind_eq_ok] at h
      obtain ⟨-, -, s₁, hgate, -⟩ := h
      exact ⟨caller, rfl, signed_role (gate_spec hgate).2⟩
  | setGovernanceSupply caller supply =>
      simp only [exec, setGovernanceSupply, bind_eq_ok] at h
      obtain ⟨-, -, s₁, hgate, -⟩ := h
      exact ⟨caller, rfl, signed_role (gate_spec hgate).2⟩
  | setProposalStakeConfig caller token minStake =>
      simp only [exec, setProposalStakeConfig, bind_eq_ok, requireRole_eq_ok] at h
      obtain ⟨s₁, hpause, -, hsigned, -⟩ := h
      obtain ⟨stored, rfl⟩ := assertNotPaused_spec hpause
      exact ⟨caller, rfl, signed_role (s := s) (.inl hsigned)⟩
  | checkpointBalance caller voter weight =>
      simp only [exec, checkpointBalance, bind_eq_ok] at h
      obtain ⟨u, hrole, -⟩ := h
      exact ⟨caller, rfl, signed_role (signed_of_requireRoleOrAdmin hrole)⟩
  | propose caller window =>
      simp only [exec, after, propose, bind_eq_ok, requireRole_eq_ok] at h
      obtain ⟨-, ⟨-, hsigned, -⟩, -⟩ := h
      exact ⟨caller, rfl, signed_role (.inl hsigned)⟩
  | executeProposal executor id =>
      simp only [exec, executeProposal, requireExecutor, bind_eq_ok, requireRole_eq_ok] at h
      obtain ⟨-, hsigned, -⟩ := h
      exact ⟨executor, rfl, hsigned.2, hsigned.1⟩
  | cancelProposalByAdmin caller id reasonHash =>
      simp only [exec, cancelProposalByAdmin, bind_eq_ok, requireRole_eq_ok] at h
      obtain ⟨-, hsigned, -⟩ := h
      exact ⟨caller, rfl, signed_role (.inl hsigned)⟩

/-- A call that asks for a signature consumes it. -/
theorem consumes_of_exec (hc : c.signer.isSome = true) (h : exec host env s c = .ok s') :
    ∃ a, Entitled env s c a ∧ Consumes host env s c a := by
  obtain ⟨a, hsigner, hentitled, -⟩ := entitled_of_exec hc h
  refine ⟨a, hentitled, ⟨s', h⟩, fun s₁ h₁ => ?_⟩
  obtain ⟨b, hsigner', -, hb⟩ := entitled_of_exec hc h₁
  obtain rfl : a = b := Option.some.inj (hsigner.symm.trans hsigner')
  rw [Env.without_authorized] at hb
  cases hb

/-! ### The authority of a call -/

/-- The call changed nothing that is stored, or consumed the authorization of an entitled address. -/
def Attested (host : Host) (env : Env) (s : State) (c : Call) (s' : State) : Prop :=
  s'.store = s.store ∨ ∃ a, Entitled env s c a ∧ Consumes host env s c a

/-- Nobody cancels under `cancel_proposal`, and a read does not rewrite the pause. -/
def Call.Sanctioned (c : Call) (env : Env) (s : State) : Prop :=
  match c with
  | .cancelProposal .. => False
  | .governorIsPaused => (Pause.isPaused env.timestamp s.store.paused).2 = s.store.paused
  | _ => True

/-- Nobody signs a read. -/
theorem attested_read (h : exec host env s .governorIsPaused = .ok s') :
    Attested host env s .governorIsPaused s' ↔
      (Pause.isPaused env.timestamp s.store.paused).2 = s.store.paused := by
  have hstore : s'.store =
      { s.store with paused := (Pause.isPaused env.timestamp s.store.paused).2 } := by
    cases h
    rfl
  constructor
  · rintro (hsame | ⟨a, hentitled, -⟩)
    · exact congrArg Storage.paused (hstore.symm.trans hsame)
    · exact hentitled.elim
  · intro hsame
    left
    rw [hstore, hsame]

/-- Nobody is asked for a signature by `cancel_proposal`, which always writes. -/
theorem not_attested_cancel {caller : Address} {id : U64} (hi : Indexed s.store.proposals)
    (h : exec host env s (.cancelProposal caller id) = .ok s') :
    ¬ Attested host env s (.cancelProposal caller id) s' := by
  rintro (hsame | ⟨a, -, hcons⟩)
  · have hstatus := congrArg (fun st : Storage => statusOf st.proposals id) hsame
    simp only [exec, cancelProposal, bind_eq_ok, okOr_eq_ok, reject_eq_ok, pure_eq_ok] at h
    obtain ⟨p, hp, -, -, -, hopen, rfl⟩ := h
    have hold : statusOf s.store.proposals id = some p.status := by
      rw [statusOf, hp]
      rfl
    have hisSome : (statusOf (archiveVoteRecord id p s.store.proposals) id).isSome = true := by
      rw [statusOf_archive, hold]
      rfl
    have hnew : statusOf (setProposalStatus id .cancelled (archiveVoteRecord id p
        s.store.proposals)).2 id = _ := (setProposalStatus_spec hi.archive).2 id
    rw [if_pos ⟨rfl, hisSome⟩] at hnew
    have hcancelled : some p.status = some .cancelled := hold.symm.trans (hstatus.symm.trans hnew)
    exact (open_of_not p hopen).not_terminal (Option.some.inj hcancelled ▸ .inr rfl)
  · exact hcons.2 s' h

theorem attested_iff (hi : Indexed s.store.proposals) (hinit : Initialized s)
    (h : exec host env s c = .ok s') : Attested host env s c s' ↔ c.Sanctioned env s := by
  cases hc : c.signer with
  | some a =>
      refine iff_of_true (.inr (consumes_of_exec (by rw [hc]; rfl) h)) ?_
      cases c <;> first | exact trivial | cases hc
  | none =>
      cases c with
      | governorIsPaused => exact attested_read h
      | cancelProposal caller id => exact iff_of_false (not_attested_cancel hi h) not_false
      | initializeGovernor authority feeRecipient factoryAddress =>
          simp only [exec, initializeGovernor, bind_eq_ok, reject_eq_ok] at h
          obtain ⟨-, hnew, -⟩ := h
          exact absurd hinit hnew
      | _ => cases hc

/-! ### Strangers -/

/-- A step other than a ballot that meets the condition of the rule, and that nobody entitled to the
call has signed. -/
def StrangerStep (here : Address) (s : State) (a : Action) (s' : State) : Prop :=
  Step here s a s' ∧
    match a with
    | .call _ env c =>
        c.Sanctioned env s ∧ ∀ b, Entitled env s c b → env.authorized b = false
    | .failed .. | .outside _ => True
    | .ballot _ => False

theorem store_of_stranger {act : Action} (hi : Indexed s.store.proposals) (hinit : Initialized s)
    (h : StrangerStep here s act s') : s'.store = s.store := by
  obtain ⟨hstep, hcond⟩ := h
  cases hstep with
  | call _ h =>
      obtain ⟨hsan, hno⟩ := hcond
      rcases (attested_iff hi hinit h).mpr hsan with hsame | ⟨b, hentitled, hcons⟩
      · exact hsame
      · have ha := authorized_of_consumes hcons
        rw [hno b hentitled] at ha
        cases ha
  | failed _ _ | outside _ => rfl
  | ballot _ => exact hcond.elim

theorem store_of_strangers (hi : Indexed s.store.proposals) (hinit : Initialized s)
    (h : Run (StrangerStep here) s as s') : s'.store = s.store := by
  refine h.invariant (P := fun s₁ => s₁.store = s.store) ?_ rfl
  intro s₁ act s₂ _ hstep hsame
  have hi₁ : Indexed s₁.store.proposals := by rw [hsame]; exact hi
  have hinit₁ : Initialized s₁ := by
    unfold Initialized
    rw [hsame]
    exact hinit
  exact (store_of_stranger hi₁ hinit₁ hstep).trans hsame

/-- **Who may change the governor.**  In every state reached after `initialize`, a successful call has
changed nothing or consumed the authorization of an address entitled to it, exactly when it is no
`cancel_proposal` and no read that rewrites the pause.  A run of calls of this kind that nobody
entitled has authorized leaves the whole storage as it was. -/
theorem sanctioned_of_reachable (hr : Reachable here s) (hinit : Initialized s) :
    (∀ host env c s', env.contract = here → exec host env s c = .ok s' →
      (Attested host env s c s' ↔ c.Sanctioned env s)) ∧
    ∀ as s', Run (StrangerStep here) s as s' → s'.store = s.store := by
  obtain ⟨tokens, as, hrun⟩ := hr
  have hi := indexed_of_run hrun
  exact ⟨fun host env c s' _ h => attested_iff hi hinit h,
    fun as s' hrun => store_of_strangers hi hinit hrun⟩

/-- The executor of the sample governor executes its proposal. -/
theorem sanctioned_of_reachable_executed :
    let env := Sample.envAt (.lit 604930)
    Attested Sample.host env Sample.proposed (.executeProposal (.account 4) (.lit 1))
      (Sample.next Sample.proposed env (.executeProposal (.account 4) (.lit 1))) := by
  intro env
  have hsanctioned := sanctioned_of_reachable Sample.reachable_proposed (by decide)
  exact (hsanctioned.1 _ env _ _ rfl (Sample.exec_next (by decide))).mpr trivial

/-- A stranger cancels the proposal of account 1, with no signature at all. -/
theorem stranger_cancels :
    let env := Sample.signedBy [] (.lit 200)
    let c : Call := .cancelProposal (.account 1) (.lit 1)
    Reachable Sample.address Sample.proposed ∧ Initialized Sample.proposed ∧
      ∃ s', exec Sample.host env Sample.proposed c = .ok s' ∧
        statusOf Sample.proposed.store.proposals (.lit 1) = some .pending ∧
        statusOf s'.store.proposals (.lit 1) = some .cancelled ∧
        ∀ a, ¬ Consumes Sample.host env Sample.proposed c a := by
  intro env c
  refine ⟨Sample.reachable_proposed, by decide, Sample.next Sample.proposed env c,
    Sample.exec_next (by decide), by decide, by decide, fun a hcons => ?_⟩
  have ha := authorized_of_consumes hcons
  simp [env, Sample.signedBy] at ha

end Drip.Governor
