import Drip.Common.Membership
import Drip.Governor.Calls

/-!
# Governor — Effects

What a successful call did, and on whose authority, said once for every entry point.

* `Signed env s role a`: `a` has signed the invocation and holds the role.
* `Setting p p'`: a write of the parameters, with the check its setter made.
* `Effect env s c s'`: what the call `c` did to `s`.  `effect_of_exec` says so of every successful
  call; the results about runs are case analyses over it.
-/

namespace Drip.Governor
open Chain

variable {host : Host} {env : Env} {s s' : State} {c : Call} {role : Role} {caller : Address}

/-! ### Checks -/

/-- `a` holds the role in `s` at the time of the invocation, and has signed it. -/
def Signed (env : Env) (s : State) (role : Role) (a : Address) : Prop :=
  env.authorized a = true ∧ Rbac.Holds s.store.roles env.timestamp role a

theorem rbac_requireRole {R : Type} {r : R} {st : Rbac.Records R} {u : Unit} :
    Rbac.requireRole env caller r st = .ok u ↔
      env.authorized caller = true ∧ Rbac.Holds st env.timestamp r caller := by
  unfold Rbac.requireRole Rbac.Holds
  simp

@[simp]
theorem requireRole_eq_ok {u : Unit} :
    requireRole env caller role s = .ok u ↔ Signed env s role caller := by
  rw [requireRole, mapError_eq_ok, rbac_requireRole]
  rfl

theorem signed_of_requireRoleOrAdmin {u : Unit} (h : requireRoleOrAdmin env caller role s = .ok u) :
    Signed env s .admin caller ∨ Signed env s role caller := by
  simp only [requireRoleOrAdmin, Rbac.requireRoleOrAdmin, Rbac.hasEither, mapError_eq_ok, bind_eq_ok,
    requireAuth_eq_ok, reject_eq_ok, Bool.not_eq_false] at h
  obtain ⟨-, hauth, held, ⟨isAdmin, hadmin, hheld⟩, rfl⟩ := h
  cases isAdmin with
  | true => exact .inl ⟨hauth, hadmin⟩
  | false => exact .inr ⟨hauth, hheld⟩

@[simp]
theorem hasRole_eq_ok {a : Address} {b : Bool} :
    hasRole env role a s = .ok b ↔
      Rbac.hasRole env.timestamp (s.store.roles.role role a) = .ok b := by
  rw [hasRole, mapError_eq_ok]

theorem assertNotPaused_spec (h : assertNotPaused env s = .ok s') :
    ∃ stored, s' = { s with store := { s.store with paused := stored } } := by
  simp only [assertNotPaused, bind_eq_ok, pure_eq_ok] at h
  obtain ⟨-, -, rfl⟩ := h
  exact ⟨_, rfl⟩

theorem not_paused_of_assert (h : assertNotPaused env s = .ok s') : (isPaused env s).1 = false := by
  simp only [assertNotPaused, bind_eq_ok, reject_eq_ok, Bool.not_eq_true] at h
  obtain ⟨-, hpaused, -⟩ := h
  exact hpaused

theorem not_paused_of_gate (h : gate env caller role s = .ok s') : (isPaused env s).1 = false := by
  simp only [gate, bind_eq_ok] at h
  obtain ⟨s₁, hpause, -⟩ := h
  exact not_paused_of_assert hpause

theorem gate_spec (h : gate env caller role s = .ok s') :
    (∃ stored, s' = { s with store := { s.store with paused := stored } }) ∧
      (Signed env s .admin caller ∨ Signed env s role caller) := by
  simp only [gate, bind_eq_ok, pure_eq_ok] at h
  obtain ⟨s₁, hpause, u, hrole, rfl⟩ := h
  obtain ⟨stored, rfl⟩ := assertNotPaused_spec hpause
  exact ⟨⟨stored, rfl⟩, signed_of_requireRoleOrAdmin hrole⟩

/-! ### Roles -/

/-- The roles, the pending handoff, the pause flag and the log may have changed; nothing else has. -/
structure Administers (s s' : State) : Prop where
  moves : Rbac.Moves .admin s.store.roles s'.store.roles
  store : s'.store = { s.store with
    roles := s'.store.roles
    pendingAuthority := s'.store.pendingAuthority
    pendingAuthorityProposer := s'.store.pendingAuthorityProposer
    paused := s'.store.paused }
  tokens : s'.tokens = s.tokens
  transfers : s'.transfers = s.transfers

theorem Administers.refl (s : State) : Administers s s := ⟨.refl, rfl, rfl, rfl⟩

theorem Administers.trans {s₁ : State} (h : Administers s s₁) (h' : Administers s₁ s') :
    Administers s s' := by
  refine ⟨h.moves.trans h'.moves, ?_, h'.tokens.trans h.tokens, h'.transfers.trans h.transfers⟩
  have hstore := h'.store
  rw [h.store] at hstore
  exact hstore

/-- An event, a pending handoff or the pause flag. -/
theorem Administers.note {stored : Option Pause.Stored} {pending proposer : Option Address}
    {es : List Event} (h : Administers s s') :
    Administers s { s' with
      store := { s'.store with
        paused := stored, pendingAuthority := pending, pendingAuthorityProposer := proposer }
      events := es } := by
  refine ⟨h.moves, ?_, h.tokens, h.transfers⟩
  have hstore := congrArg (fun st : Storage => { st with
    paused := stored, pendingAuthority := pending, pendingAuthorityProposer := proposer }) h.store
  exact hstore

theorem Administers.publish (h : Administers s s') (e : Event) : Administers s (s'.publish e) :=
  h.note

/-- A write of the roles by one grant or revocation. -/
theorem administers_move {roles : Rbac.Records Role} (h : Rbac.Move .admin s.store.roles roles) :
    Administers s (s.withRoles roles) := ⟨.single h, rfl, rfl, rfl⟩

theorem grant_effect {account : Address} {expiresAt : Option U64} {b : Bool}
    (hperm : role = .admin → expiresAt = none)
    (h : grantWithExpiration env role account expiresAt s = .ok (b, s')) :
    Administers s s' ∧ ∃ st, Rbac.grantWithExpiration env.timestamp (decide (role = .admin)) role
      account expiresAt s.store.roles = .ok (b, st) ∧ s' = s.withRoles st := by
  simp only [grantWithExpiration, bind_eq_ok, mapError_eq_ok, pure_eq_ok] at h
  obtain ⟨⟨b', roles⟩, hgrant, h⟩ := h
  cases h
  exact ⟨administers_move (.grant hperm hgrant), roles, hgrant, rfl⟩

theorem revoke_effect {account : Address} {b : Bool} (h : revoke env role account s = .ok (b, s')) :
    Administers s s' ∧ ∃ ev, Rbac.revoke env.timestamp (decide (role = .admin)) role account
      s.store.roles = .ok (ev, s'.store.roles) := by
  simp only [revoke, bind_eq_ok, mapError_eq_ok] at h
  obtain ⟨⟨ev, roles⟩, hrevoke, h⟩ := h
  cases ev with
  | none =>
      cases h
      exact ⟨administers_move (.revoke hrevoke), none, hrevoke⟩
  | some e =>
      cases h
      exact ⟨(administers_move (.revoke hrevoke)).publish _, some e, hrevoke⟩

theorem announceGrant_effect {account : Address} {r : Bool × State} (h : Administers s r.2) :
    Administers s (announceGrant caller role account r) := by
  unfold announceGrant
  split
  · exact h.publish _
  · exact h

theorem announceRevoke_effect {account : Address} {r : Bool × State} (h : Administers s r.2) :
    Administers s (announceRevoke caller role account r) := by
  unfold announceRevoke
  split
  · exact h.publish _
  · exact h

/-! ### Parameters -/

/-- A write of the parameters, with the check its setter made. -/
inductive Setting (p : Params) : Params → Prop where
  | initial (feeRecipient factoryAddress : Address) : Setting p { p with
      feeBps := some (.lit 30)
      feeRecipient := some feeRecipient
      minDurationSeconds := some (.lit 3600)
      maxDurationSeconds := some (.lit 315360000)
      maxRatePerSecond := some (.lit 1000000000000000)
      factoryAddress := some factoryAddress
      forceCancelPauseSecs := some (.lit 2592000)
      minQuorumBps := some (.lit 0)
      minProposalStake := some (.lit 0) }
  | feeBps (v : U32) (h : v.val ≤ 10000) : Setting p { p with feeBps := some v }
  | feeRecipient (a : Address) : Setting p { p with feeRecipient := some a }
  | minDuration (v : U64) (hpos : v.val ≠ 0) (hle : v.val ≤ p.maxDurationOr.val) {product : I128}
      (hfits : product.val = p.maxRateOr.val * v.val) :
      Setting p { p with minDurationSeconds := some v }
  | maxRate (v : I128) (hpos : 0 < v.val) {product : I128}
      (hfits : product.val = v.val * p.minDurationOr.val) :
      Setting p { p with maxRatePerSecond := some v }
  | maxDuration (v : U64) (hle : p.minDurationOr.val ≤ v.val) :
      Setting p { p with maxDurationSeconds := some v }
  | forceCancelPauseSecs (v : U64) (hpos : v.val ≠ 0) :
      Setting p { p with forceCancelPauseSecs := some v }
  | minQuorumBps (v : U32) (h : v.val ≤ 10000) : Setting p { p with minQuorumBps := some v }
  | governanceSupply (v : U64) : Setting p { p with governanceSupply := some v }
  | proposalStake (token : Address) (stake : I128) (hpos : 0 < stake.val) :
      Setting p { p with proposalStakeToken := some token, minProposalStake := some stake }

/-- A parameter, the pause flag and the log may have changed; nothing else has. -/
structure Sets (s s' : State) : Prop where
  setting : Setting s.store.params s'.store.params
  store : s'.store = { s.store with params := s'.store.params, paused := s'.store.paused }
  tokens : s'.tokens = s.tokens
  transfers : s'.transfers = s.transfers

/-- A setter behind the gate. -/
theorem sets_of_setting {stored : Option Pause.Stored} {p : Params} {es : List Event}
    (h : Setting s.store.params p) :
    Sets s { s with store := { s.store with params := p, paused := stored }, events := es } :=
  ⟨h, rfl, rfl, rfl⟩

/-! ### Every call -/

/-- The calls that make, execute or cancel a proposal. -/
def Call.IsProposal : Call → Bool
  | .propose .. | .executeProposal .. | .cancelProposal .. | .cancelProposalByAdmin .. => true
  | _ => false

/-- The proposal a call cancels. -/
def Call.cancels : Call → Option U64
  | .cancelProposal _ id | .cancelProposalByAdmin _ id _ => some id
  | _ => none

/-- The proposal is open: pending or active. -/
def Proposal.Open (p : Proposal) : Prop := p.status = .pending ∨ p.status = .active

/-- The checks of `execute_proposal` on a proposal, the vote's outcome not among them. -/
structure Due (env : Env) (s : State) (id : U64) (p : Proposal) (config : GovernorConfig) : Prop where
  stored : s.store.proposals.proposal id = some p
  opened : p.Open
  delay : ¬ env.timestamp.saturatingSub p.createdAt < minExecutionDelay
  window : ¬ p.executionWindowSecs.saturatingAdd minExecutionDelay <
    env.timestamp.saturatingSub p.createdAt
  loaded : loadConfig s = .ok config
  quorum : ¬ (0 < config.minQuorumBps.val ∧
    totalVotes s id p < quorumThreshold s id config.minQuorumBps)

inductive Effect (env : Env) (s : State) : Call → State → Prop where
  | administers {c : Call} {s' : State} (hc : c.IsProposal = false) (h : Administers s s') :
      Effect env s c s'
  | initializes {authority feeRecipient factoryAddress : Address} {s₁ s₂ s' : State}
      (hnew : ¬ Initialized s) (hset : Sets s s₁) (hinit : Initialized s₁)
      (hfirst : Administers s₁ s₂) (hadmin : (s₂.store.roles.role .admin authority).isSome = true)
      (hrest : Administers s₂ s') :
      Effect env s (.initializeGovernor authority feeRecipient factoryAddress) s'
  | sets {c : Call} {s' : State} (hc : c.IsProposal = false) (h : Sets s s')
      (hinit : s'.store.params.factoryAddress = s.store.params.factoryAddress) : Effect env s c s'
  | checkpoints {caller voter : Address} {weight : U64} :
      Effect env s (.checkpointBalance caller voter weight) (recordCheckpoint env voter weight s)
  | proposes {caller : Address} {window id : U64} {token : Address} {stake : I128} {s₁ : State}
      (hauth : env.authorized caller = true) (hpos : 0 < stake.val)
      (hid : id.val = (s.store.proposals.proposalCounter.getD (.lit 0)).val + 1)
      (h : transfer s ⟨token, caller, env.contract, stake, .stake id⟩ = .ok s₁) :
      Effect env s (.propose caller window) (s₁.withProposals (recordProposal env id caller token
        stake window (governanceSupply s₁) s₁.store.proposals))
  | executes {executor : Address} {id : U64} {p : Proposal} {config : GovernorConfig} {s₁ : State}
      (hdue : Due env s id p config) (h : refundProposalStake env id p.author s = .ok s₁) :
      Effect env s (.executeProposal executor id)
        (s₁.withProposals (setProposalStatus id .executed s₁.store.proposals).2)
  | cancels {c : Call} {id : U64} {p : Proposal} {es : List Event} (hc : c.cancels = some id)
      (hp : s.store.proposals.proposal id = some p) (hopen : p.Open) :
      Effect env s c { s.withProposals (setProposalStatus id .cancelled
        (archiveVoteRecord id p s.store.proposals)).2 with events := es }

/-! ### Transfers -/

theorem transfer_eq_ok {t : Transfer} (h : transfer s t = .ok s') :
    ∃ tokens, s.tokens.transfer t.token t.src t.dst t.amount = some tokens ∧
      s' = { s with tokens := tokens, transfers := s.transfers ++ [t] } := by
  simp only [transfer, bind_eq_ok, okOr_eq_ok, pure_eq_ok] at h
  obtain ⟨tokens, htokens, rfl⟩ := h
  exact ⟨tokens, htokens, rfl⟩

/-- A refund pays the recorded stake back and forgets it. -/
theorem refund_eq_ok {id : U64} {author : Address} (h : refundProposalStake env id author s = .ok s') :
    (s.store.proposals.proposalStake id = none ∧ s' = s) ∨
    ∃ amount token tokens, s.store.proposals.proposalStake id = some amount ∧
      s.store.proposals.proposalStakeTokenByProposal id = some token ∧
      s.tokens.transfer token env.contract author amount = some tokens ∧
      s' = { s with
        store := { s.store with
          proposals := { s.store.proposals with
            proposalStake := Function.update s.store.proposals.proposalStake id none
            proposalStakeTokenByProposal :=
              Function.update s.store.proposals.proposalStakeTokenByProposal id none } }
        tokens := tokens
        transfers := s.transfers ++ [⟨token, env.contract, author, amount, .refund id⟩] } := by
  unfold refundProposalStake at h
  split at h
  · rename_i hnone
    cases h
    exact .inl ⟨hnone, rfl⟩
  · rename_i amount hstake
    simp only [bind_eq_ok, okOr_eq_ok, pure_eq_ok] at h
    obtain ⟨token, htoken, s₁, htransfer, rfl⟩ := h
    obtain ⟨tokens, htokens, rfl⟩ := transfer_eq_ok htransfer
    exact .inr ⟨amount, token, tokens, hstake, htoken, htokens, rfl⟩

/-! ### Each entry point -/

theorem setPaused_effect {paused : Bool} (h : setPaused env paused (isPaused env s).2 = .ok s') :
    Administers s s' := by
  unfold setPaused at h
  split at h
  · cases h
    exact (Administers.refl s).note
  · cases h
    exact (Administers.refl s).note
  · cases h

theorem administers_revokeProposeAuthority (h : revokeProposeAuthority env caller s = .ok s') :
    Administers s s' := by
  simp only [revokeProposeAuthority, bind_eq_ok, pure_eq_ok] at h
  obtain ⟨-, -, pending, -, rfl⟩ := h
  exact (Administers.refl s).note

theorem administers_acceptAuthority (h : acceptAuthority env caller s = .ok s') :
    Administers s s' := by
  simp only [acceptAuthority, grant, bind_eq_ok, pure_eq_ok] at h
  obtain ⟨-, -, -, -, -, -, proposer, -, ⟨b, s₁⟩, h₁, ⟨b', s₂⟩, h₂, rfl⟩ := h
  exact ((grant_effect (fun _ => rfl) h₁).1.trans (revoke_effect h₂).1).note

theorem open_of_not (p : Proposal) (h : ¬ (p.status ≠ .pending ∧ p.status ≠ .active)) : p.Open := by
  unfold Proposal.Open
  by_cases hp : p.status = .pending
  · exact .inl hp
  · exact .inr (not_not.mp fun ha => h ⟨hp, ha⟩)

theorem effect_initialize {authority feeRecipient factoryAddress : Address}
    (h : initializeGovernor env authority feeRecipient factoryAddress s = .ok s') :
    Effect env s (.initializeGovernor authority feeRecipient factoryAddress) s' := by
  simp only [initializeGovernor, grant, bind_eq_ok, reject_eq_ok, pure_eq_ok] at h
  obtain ⟨-, hnew, ⟨b₁, s₁⟩, h₁, ⟨b₂, s₂⟩, h₂, ⟨b₃, s₃⟩, h₃, ⟨b₄, s₄⟩, h₄, rfl⟩ := h
  obtain ⟨hfirst, st, hst, rfl⟩ := grant_effect (fun _ => rfl) h₁
  have hrest := (grant_effect (fun _ => rfl) h₂).1.trans
    ((grant_effect (fun _ => rfl) h₃).1.trans (grant_effect (fun _ => rfl) h₄).1)
  refine .initializes hnew (sets_of_setting (.initial feeRecipient factoryAddress)) rfl hfirst ?_
    (hrest.publish _)
  exact Rbac.isSome_of_grant hst

theorem effect_propose {window id : U64} (h : propose env caller window s = .ok (id, s')) :
    Effect env s (.propose caller window) s' := by
  simp only [propose, bind_eq_ok, okOr_eq_ok, pure_eq_ok, requireRole_eq_ok,
    Ranged.checkedAdd_eq_some] at h
  obtain ⟨-, hsigned, -, -, config, -, ⟨token, stake⟩, hstake, id, hid, s₁, htransfer, h⟩ := h
  cases h
  refine .proposes hsigned.1 ?_ hid htransfer
  simp only [stakeOf, Option.bind_eq_bind, Option.bind_eq_some_iff] at hstake
  obtain ⟨token', -, hstake⟩ := hstake
  split at hstake
  · rename_i hpos
    cases hstake
    exact hpos
  · cases hstake

theorem effect_execute {executor : Address} {id : U64}
    (h : executeProposal env executor id s = .ok s') :
    Effect env s (.executeProposal executor id) s' := by
  simp only [executeProposal, bind_eq_ok, okOr_eq_ok, reject_eq_ok, pure_eq_ok] at h
  obtain ⟨-, -, p, hp, -, hopen, -, hdelay, -, hwindow, config, hconfig, -, hquorum, s₁, hrefund,
    rfl⟩ := h
  exact .executes ⟨hp, open_of_not p hopen, hdelay, hwindow, hconfig, hquorum⟩ hrefund

/-- The calls that set a parameter. -/
def Call.sets : Call → Bool
  | .setFeeBps .. | .setFeeRecipient .. | .setMinDuration .. | .setMaxRate .. | .setMaxDuration ..
  | .setForceCancelPauseThreshold .. | .setMinQuorumBps .. | .setGovernanceSupply ..
  | .setProposalStakeConfig .. => true
  | _ => false

/-- The calls that administer the roles, the handoff and the pause. -/
def Call.administers : Call → Bool
  | .initializeGovernor .. | .checkpointBalance .. => false
  | c => !c.IsProposal && !c.sets

theorem administers_of_exec (hc : c.administers = true) (h : exec host env s c = .ok s') :
    Administers s s' := by
  cases c with
  | governorIsPaused =>
      cases h
      exact (Administers.refl s).note
  | governorPause caller =>
      simp only [exec, governorPause, bind_eq_ok, pure_eq_ok] at h
      obtain ⟨-, -, -, -, s₁, hset, rfl⟩ := h
      exact (setPaused_effect hset).note
  | governorUnpause caller =>
      simp only [exec, governorUnpause, bind_eq_ok, pure_eq_ok] at h
      obtain ⟨-, -, -, -, s₁, hset, rfl⟩ := h
      exact (setPaused_effect hset).note
  | pauseFactory caller =>
      simp only [exec, pauseFactory, bind_eq_ok, pure_eq_ok] at h
      obtain ⟨-, -, factory, -, -, -, rfl⟩ := h
      exact (Administers.refl s).note
  | unpauseFactory caller =>
      simp only [exec, unpauseFactory, bind_eq_ok, pure_eq_ok] at h
      obtain ⟨-, -, factory, -, -, -, rfl⟩ := h
      exact (Administers.refl s).note
  | grantRoleWithExpiration caller role account expiresAt =>
      simp only [exec, grantRoleWithExpiration, bind_eq_ok, reject_eq_ok, pure_eq_ok] at h
      obtain ⟨-, -, -, hexp, ⟨b, s₁⟩, hgrant, rfl⟩ := h
      have hperm := Rbac.permanent_of_check hexp
      exact announceGrant_effect (grant_effect hperm hgrant).1
  | grantRole caller role account =>
      simp only [exec, grantRole, grant, bind_eq_ok, pure_eq_ok] at h
      obtain ⟨-, -, ⟨b, s₁⟩, hgrant, rfl⟩ := h
      exact announceGrant_effect (grant_effect (fun _ => rfl) hgrant).1
  | revokeRole caller role account =>
      simp only [exec, revokeRole, bind_eq_ok, pure_eq_ok] at h
      obtain ⟨-, -, ⟨b, s₁⟩, hrevoke, rfl⟩ := h
      exact announceRevoke_effect (revoke_effect hrevoke).1
  | grantRoleBatch caller role accounts =>
      simp only [exec, grantRoleBatch, bind_eq_ok] at h
      obtain ⟨-, -, h⟩ := h
      refine foldlM_invariant (P := Administers s) ?_ h (Administers.refl s)
      intro account _ s₁ s₂ hturn hs
      simp only [grant, bind_eq_ok, pure_eq_ok] at hturn
      obtain ⟨⟨b, s₃⟩, hgrant, rfl⟩ := hturn
      exact announceGrant_effect (hs.trans (grant_effect (fun _ => rfl) hgrant).1)
  | revokeRoleBatch caller role accounts =>
      simp only [exec, revokeRoleBatch, bind_eq_ok] at h
      obtain ⟨-, -, h⟩ := h
      refine foldlM_invariant (P := Administers s) ?_ h (Administers.refl s)
      intro account _ s₁ s₂ hturn hs
      simp only [bind_eq_ok, pure_eq_ok] at hturn
      obtain ⟨⟨b, s₃⟩, hrevoke, rfl⟩ := hturn
      exact announceRevoke_effect (hs.trans (revoke_effect hrevoke).1)
  | transferAuthority caller newAuthority =>
      simp only [exec, transferAuthority, grant, bind_eq_ok, pure_eq_ok] at h
      obtain ⟨-, -, -, -, -, -, -, -, ⟨b, s₁⟩, h₁, ⟨b', s₂⟩, h₂, rfl⟩ := h
      exact ((grant_effect (fun _ => rfl) h₁).1.trans (revoke_effect h₂).1).note
  | proposeAuthority caller newAuthority =>
      simp only [exec, proposeAuthority, bind_eq_ok, pure_eq_ok] at h
      obtain ⟨-, -, -, -, -, -, -, -, -, -, rfl⟩ := h
      exact (Administers.refl s).note
  | revokeProposeAuthority caller =>
      exact administers_revokeProposeAuthority h
  | acceptAuthority caller => exact administers_acceptAuthority h
  | proposeAdmin caller newAdmin =>
      simp only [exec, proposeAdmin, bind_eq_ok, pure_eq_ok] at h
      obtain ⟨-, -, -, -, -, -, -, -, rfl⟩ := h
      exact (Administers.refl s).note
  | claimAdmin caller => exact administers_acceptAuthority h
  | revokeProposeAdmin caller => exact administers_revokeProposeAuthority h
  | upgrade caller newWasmHash =>
      simp only [exec, upgrade, bind_eq_ok, pure_eq_ok] at h
      obtain ⟨-, -, s₁, hpause, -, -, rfl⟩ := h
      obtain ⟨stored, rfl⟩ := assertNotPaused_spec hpause
      exact (Administers.refl s).note
  | _ => cases hc

/-- A setter is refused while the governor is paused. -/
theorem sets_of_exec (hc : c.sets = true) (h : exec host env s c = .ok s') :
    (isPaused env s).1 = false ∧ Sets s s' ∧
      s'.store.params.factoryAddress = s.store.params.factoryAddress := by
  cases c with
  | setFeeBps caller feeBps =>
      simp only [exec, setFeeBps, bind_eq_ok, reject_eq_ok, pure_eq_ok, not_lt] at h
      obtain ⟨-, hle, s₁, hgate, rfl⟩ := h
      obtain ⟨⟨stored, rfl⟩, -⟩ := gate_spec hgate
      exact ⟨not_paused_of_gate hgate, sets_of_setting (.feeBps feeBps hle), rfl⟩
  | setFeeRecipient caller recipient =>
      simp only [exec, setFeeRecipient, bind_eq_ok, pure_eq_ok] at h
      obtain ⟨-, -, s₁, hgate, old, -, rfl⟩ := h
      obtain ⟨⟨stored, rfl⟩, -⟩ := gate_spec hgate
      exact ⟨not_paused_of_gate hgate, sets_of_setting (.feeRecipient recipient), rfl⟩
  | setMinDuration caller seconds =>
      simp only [exec, setMinDuration, bind_eq_ok, reject_eq_ok, okOr_eq_ok, pure_eq_ok,
        Ranged.checkedMul_eq_some, Ranged.lt_def, Ranged.val_widen, not_lt] at h
      obtain ⟨-, hpos, s₁, hgate, -, hle, product, hfits, rfl⟩ := h
      obtain ⟨⟨stored, rfl⟩, -⟩ := gate_spec hgate
      exact ⟨not_paused_of_gate hgate, sets_of_setting (.minDuration seconds hpos hle hfits), rfl⟩
  | setMaxRate caller maxRate =>
      simp only [exec, setMaxRate, bind_eq_ok, reject_eq_ok, okOr_eq_ok, pure_eq_ok,
        Ranged.checkedMul_eq_some, Ranged.val_widen, not_le] at h
      obtain ⟨-, hpos, s₁, hgate, product, hfits, rfl⟩ := h
      obtain ⟨⟨stored, rfl⟩, -⟩ := gate_spec hgate
      exact ⟨not_paused_of_gate hgate, sets_of_setting (.maxRate maxRate hpos hfits), rfl⟩
  | setMaxDuration caller seconds =>
      simp only [exec, setMaxDuration, bind_eq_ok, reject_eq_ok, pure_eq_ok, Ranged.lt_def,
        not_lt] at h
      obtain ⟨-, -, s₁, hgate, -, hle, rfl⟩ := h
      obtain ⟨⟨stored, rfl⟩, -⟩ := gate_spec hgate
      exact ⟨not_paused_of_gate hgate, sets_of_setting (.maxDuration seconds hle), rfl⟩
  | setForceCancelPauseThreshold caller seconds =>
      simp only [exec, setForceCancelPauseThreshold, bind_eq_ok, reject_eq_ok, pure_eq_ok] at h
      obtain ⟨-, hpos, s₁, hgate, rfl⟩ := h
      obtain ⟨⟨stored, rfl⟩, -⟩ := gate_spec hgate
      exact ⟨not_paused_of_gate hgate, sets_of_setting (.forceCancelPauseSecs seconds hpos), rfl⟩
  | setMinQuorumBps caller minQuorumBps =>
      simp only [exec, setMinQuorumBps, bind_eq_ok, reject_eq_ok, pure_eq_ok, not_lt] at h
      obtain ⟨-, hle, s₁, hgate, rfl⟩ := h
      obtain ⟨⟨stored, rfl⟩, -⟩ := gate_spec hgate
      exact ⟨not_paused_of_gate hgate, sets_of_setting (.minQuorumBps minQuorumBps hle), rfl⟩
  | setGovernanceSupply caller supply =>
      simp only [exec, setGovernanceSupply, bind_eq_ok, pure_eq_ok] at h
      obtain ⟨-, -, s₁, hgate, rfl⟩ := h
      obtain ⟨⟨stored, rfl⟩, -⟩ := gate_spec hgate
      exact ⟨not_paused_of_gate hgate, sets_of_setting (.governanceSupply supply), rfl⟩
  | setProposalStakeConfig caller token minStake =>
      simp only [exec, setProposalStakeConfig, bind_eq_ok, reject_eq_ok, pure_eq_ok, not_or,
        not_le] at h
      obtain ⟨s₁, hpause, -, -, -, hpos, rfl⟩ := h
      obtain ⟨stored, rfl⟩ := assertNotPaused_spec hpause
      exact ⟨not_paused_of_assert hpause, sets_of_setting (.proposalStake token minStake hpos.1), rfl⟩
  | _ => cases hc

theorem effect_of_exec (h : exec host env s c = .ok s') : Effect env s c s' := by
  cases c with
  | initializeGovernor authority feeRecipient factoryAddress => exact effect_initialize h
  | checkpointBalance caller voter weight =>
      simp only [exec, checkpointBalance, bind_eq_ok, pure_eq_ok] at h
      obtain ⟨-, -, rfl⟩ := h
      exact .checkpoints
  | propose caller window =>
      simp only [exec, after, bind_eq_ok, pure_eq_ok] at h
      obtain ⟨⟨id, s₁⟩, h, rfl⟩ := h
      exact effect_propose h
  | executeProposal executor id => exact effect_execute h
  | cancelProposal caller id =>
      simp only [exec, cancelProposal, bind_eq_ok, okOr_eq_ok, reject_eq_ok, pure_eq_ok] at h
      obtain ⟨p, hp, -, -, -, hopen, rfl⟩ := h
      exact .cancels rfl hp (open_of_not p hopen)
  | cancelProposalByAdmin caller id reasonHash =>
      simp only [exec, cancelProposalByAdmin, bind_eq_ok, okOr_eq_ok, reject_eq_ok, pure_eq_ok] at h
      obtain ⟨-, -, p, hp, -, hopen, rfl⟩ := h
      exact .cancels rfl hp (open_of_not p hopen)
  | setFeeBps | setFeeRecipient | setMinDuration | setMaxRate | setMaxDuration
  | setForceCancelPauseThreshold | setMinQuorumBps | setGovernanceSupply | setProposalStakeConfig =>
      obtain ⟨-, hsets, hinit⟩ := sets_of_exec rfl h
      exact .sets rfl hsets hinit
  | governorIsPaused | governorPause | governorUnpause | pauseFactory | unpauseFactory
  | grantRoleWithExpiration | grantRole | revokeRole | grantRoleBatch | revokeRoleBatch
  | transferAuthority | proposeAuthority | revokeProposeAuthority | acceptAuthority | proposeAdmin
  | claimAdmin | revokeProposeAdmin | upgrade => exact .administers rfl (administers_of_exec rfl h)

/-! ### The parameters over a run -/

theorem Administers.params (h : Administers s s') : s'.store.params = s.store.params := by
  rw [h.store]

/-- A call leaves the parameters or makes one setting. -/
theorem Effect.params (h : Effect env s c s') :
    s'.store.params = s.store.params ∨ Setting s.store.params s'.store.params := by
  cases h with
  | administers _ h => exact .inl h.params
  | initializes _ hset _ hfirst _ hrest =>
      rw [hrest.params, hfirst.params]
      exact .inr hset.setting
  | sets _ h _ => exact .inr h.setting
  | checkpoints => exact .inl rfl
  | proposes _ _ _ h =>
      obtain ⟨tokens, -, rfl⟩ := transfer_eq_ok h
      exact .inl rfl
  | executes _ h =>
      obtain ⟨-, rfl⟩ | ⟨amount, token, tokens, -, -, -, rfl⟩ := refund_eq_ok h
      · exact .inl rfl
      · exact .inl rfl
  | cancels _ _ _ => exact .inl rfl

/-- What the setters see to. -/
structure Params.Sound (p : Params) : Prop where
  threshold : p.forceCancelPauseSecsOr.val ≠ 0
  quorum : p.minQuorumBpsOr.val ≤ 10000

theorem Setting.sound {p p' : Params} (h : Setting p p') (hp : p.Sound) : p'.Sound := by
  cases h with
  | initial feeRecipient factoryAddress => exact ⟨nofun, (by decide : (0 : Int) ≤ 10000)⟩
  | forceCancelPauseSecs v hpos => exact ⟨hpos, hp.quorum⟩
  | minQuorumBps v hle => exact ⟨hp.threshold, hle⟩
  | feeBps | feeRecipient | minDuration | maxRate | maxDuration | governanceSupply | proposalStake =>
      exact ⟨hp.threshold, hp.quorum⟩

theorem Step.sound {here : Address} {a : Action} (h : Step here s a s')
    (hp : s.store.params.Sound) : s'.store.params.Sound := by
  cases h with
  | call _ h =>
      rcases (effect_of_exec h).params with heq | hset
      · rwa [heq]
      · exact hset.sound hp
  | failed _ _ | ballot _ | outside _ => exact hp

theorem sound_of_run {here : Address} {tokens : Ledger} {as : List Action}
    (h : Run (Step here) (State.fresh tokens) as s) : s.store.params.Sound :=
  h.invariant (P := fun s => s.store.params.Sound) (fun _ => Step.sound)
    ⟨nofun, (by decide : (0 : Int) ≤ 10000)⟩

end Drip.Governor
