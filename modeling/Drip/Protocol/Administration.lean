import Drip.Governor.Effects
import Drip.Oracle.Roles

/-!
# Protocol — Administration

The roles of the governor and of the oracle, over whole runs.  Both contracts write their role records
by grants and revocations only, so the three copies of a membership agree in every state, and a
contract that has been initialized keeps an admin.
-/

namespace Drip
open Chain

namespace Rbac

/-- What the stored memberships are, `started` saying that the contract has been initialized. -/
structure Administered {R : Type} (admin : R) (started : Prop) (st : Records R) : Prop where
  nodup : ∀ r, (roleMembers st r).Nodup
  members : ∀ r a, a ∈ roleMembers st r ↔ (st.role r a).isSome = true
  counted : ∀ now, (adminCount st).val = {a | Holds st now admin a}.ncard
  staffed : started → 1 ≤ (adminCount st).val

theorem Coherent.administered {R : Type} {admin : R} {started : Prop} {st : Records R}
    (hc : Coherent admin st) (hstaffed : started → 1 ≤ (adminCount st).val) :
    Administered admin started st :=
  ⟨fun r => (hc.lists r).nodup, fun _ _ => hc.mem_members, hc.ncard_admins, hstaffed⟩

end Rbac

/-! ### The governor -/

namespace Governor

variable {host : Host} {env : Env} {s s' : State} {c : Call} {here : Address} {tokens : Ledger}
variable {as : List Action}

/-- The records are coherent, and an initialized governor has an admin. -/
def Staffed (s : State) : Prop :=
  Rbac.Coherent .admin s.store.roles ∧ (Initialized s → 1 ≤ (Rbac.adminCount s.store.roles).val)

theorem Staffed.congr (hs : Staffed s) (hroles : s'.store.roles = s.store.roles)
    (hinit : s'.store.params.factoryAddress = s.store.params.factoryAddress) : Staffed s' := by
  unfold Staffed Initialized at *
  rw [hroles, hinit]
  exact hs

theorem Administers.staffed (h : Administers s s') (hs : Staffed s) : Staffed s' := by
  obtain ⟨hc, hle⟩ := h.moves.keeps hs.1
  refine ⟨hc, fun hinit => hle (hs.2 ?_)⟩
  unfold Initialized at hinit ⊢
  rw [← h.params]
  exact hinit

theorem Effect.staffed (h : Effect env s c s') (hs : Staffed s) : Staffed s' := by
  cases h with
  | administers _ h => exact h.staffed hs
  | initializes hnew hset hinit hfirst hadmin hrest =>
      rename_i authority feeRecipient factoryAddress s₁ s₂
      -- the authority holds `Admin` after the first grant
      have hroles : s₁.store.roles = s.store.roles := by rw [hset.store]
      obtain ⟨hc, -⟩ := hfirst.moves.keeps (hroles ▸ hs.1)
      have hcount := hc.admin_of_count hadmin
      exact hrest.staffed ⟨hc, fun _ => hcount⟩
  | sets _ h hinit => exact hs.congr (by rw [h.store]) hinit
  | checkpoints => exact hs.congr rfl rfl
  | proposes _ _ _ h =>
      obtain ⟨tokens, -, rfl⟩ := transfer_eq_ok h
      exact hs.congr rfl rfl
  | executes _ h =>
      obtain ⟨-, rfl⟩ | ⟨amount, token, tokens, -, -, -, rfl⟩ := refund_eq_ok h
      · exact hs.congr rfl rfl
      · exact hs.congr rfl rfl
  | cancels _ _ _ => exact hs.congr rfl rfl

theorem Effect.initialized (h : Effect env s c s') (hs : Initialized s) : Initialized s' := by
  unfold Initialized at *
  cases h with
  | administers _ h => rwa [h.params]
  | initializes hnew _ _ _ _ _ => exact absurd hs hnew
  | sets _ _ hinit => rwa [hinit]
  | checkpoints => exact hs
  | proposes _ _ _ h =>
      obtain ⟨tokens, -, rfl⟩ := transfer_eq_ok h
      exact hs
  | executes _ h =>
      obtain ⟨-, rfl⟩ | ⟨amount, token, tokens, -, -, -, rfl⟩ := refund_eq_ok h
      · exact hs
      · exact hs
  | cancels _ _ _ => exact hs

theorem Step.staffed {a : Action} (h : Step here s a s') (hs : Staffed s) : Staffed s' := by
  cases h with
  | call _ h => exact (effect_of_exec h).staffed hs
  | failed _ _ => exact hs
  | ballot _ => exact hs.congr rfl rfl
  | outside _ => exact hs.congr rfl rfl

theorem Step.initialized {a : Action} (h : Step here s a s') (hs : Initialized s) :
    Initialized s' := by
  cases h with
  | call _ h => exact (effect_of_exec h).initialized hs
  | failed _ _ | ballot _ | outside _ => exact hs

theorem staffed_fresh (tokens : Ledger) : Staffed (State.fresh tokens) :=
  ⟨Rbac.Coherent.empty, nofun⟩

theorem staffed_of_run (h : Run (Step here) (State.fresh tokens) as s) : Staffed s :=
  h.invariant (fun _ => Step.staffed) (staffed_fresh tokens)

/-- The run has called `initialize`. -/
def Started (as : List Action) : Prop :=
  ∃ host env authority feeRecipient factoryAddress,
    Action.call host env (.initializeGovernor authority feeRecipient factoryAddress) ∈ as

theorem initialized_of_initialize {authority feeRecipient factoryAddress : Address}
    (h : initializeGovernor env authority feeRecipient factoryAddress s = .ok s') :
    Initialized s' := by
  simp only [initializeGovernor, grant, bind_eq_ok, pure_eq_ok] at h
  obtain ⟨-, -, ⟨b₁, s₁⟩, h₁, ⟨b₂, s₂⟩, h₂, ⟨b₃, s₃⟩, h₃, ⟨b₄, s₄⟩, h₄, rfl⟩ := h
  have hgrants := (grant_effect (fun _ => rfl) h₁).1.trans ((grant_effect (fun _ => rfl) h₂).1.trans
    ((grant_effect (fun _ => rfl) h₃).1.trans (grant_effect (fun _ => rfl) h₄).1))
  show s₄.store.params.factoryAddress.isSome = true
  rw [hgrants.params]
  rfl

theorem initialized_of_run (h : Run (Step here) s as s') (hstart : Started as) : Initialized s' := by
  obtain ⟨host, env, authority, feeRecipient, factoryAddress, hin⟩ := hstart
  induction h with
  | nil => cases hin
  | snoc _ ha ih =>
      rcases List.mem_append.mp hin with hin | hin
      · exact ha.initialized (ih hin)
      · obtain rfl := List.mem_singleton.mp hin
        cases ha with
        | call _ h => exact initialized_of_initialize h

end Governor

/-! ### The oracle -/

namespace Oracle

variable {env : Env} {s s' : State} {c : Call} {role : Role} {account : Address} {here : Address}
variable {as : List Action}

/-- The roles have moved by grants and revocations, and the first admin is still on record. -/
structure Administers (s s' : State) : Prop where
  moves : Rbac.Moves .admin s.store.roles s'.store.roles
  admin : s'.store.admin = s.store.admin

theorem Administers.trans {s₁ : State} (h : Administers s s₁) (h' : Administers s₁ s') :
    Administers s s' := ⟨h.moves.trans h'.moves, h'.admin.trans h.admin⟩

/-- An event, where there is one. -/
theorem Administers.announce (h : Administers s s') (b : Bool) (e : Event) :
    Administers s (if b = true then s'.publish e else s') := by
  split
  · exact ⟨h.moves, h.admin⟩
  · exact h

theorem grant_effect {expiresAt : Option U64} {b : Bool} (hperm : role = .admin → expiresAt = none)
    (h : grantRoleWithExpirationInner env role account expiresAt s = .ok (b, s')) :
    Administers s s' ∧ Rbac.grantWithExpiration env.timestamp (decide (role = .admin)) role account
      expiresAt s.store.roles = .ok (b, s'.store.roles) := by
  simp only [grantRoleWithExpirationInner, bind_eq_ok, mapError_eq_ok, pure_eq_ok] at h
  obtain ⟨⟨b', roles⟩, hgrant, h⟩ := h
  cases h
  exact ⟨⟨.single (.grant hperm hgrant), rfl⟩, hgrant⟩

theorem removeSubmitter_admin (account : Address) (st : Storage) :
    (removeSubmitter account st).admin = st.admin ∧ (removeSubmitter account st).roles = st.roles := by
  unfold removeSubmitter
  dsimp only
  split
  · split <;> exact ⟨rfl, rfl⟩
  · exact ⟨rfl, rfl⟩

theorem revoke_effect {b : Bool} (h : revokeRoleInner env role account s = .ok (b, s')) :
    Administers s s' ∧ ∃ ev, Rbac.revoke env.timestamp (decide (role = .admin)) role account
      s.store.roles = .ok (ev, s'.store.roles) := by
  simp only [revokeRoleInner, bind_eq_ok, mapError_eq_ok] at h
  obtain ⟨⟨ev, roles⟩, hrevoke, h⟩ := h
  have hsame : s'.store.admin = s.store.admin ∧ s'.store.roles = roles := by
    cases ev with
    | none =>
        cases h
        exact ⟨rfl, rfl⟩
    | some e =>
        dsimp only at h
        split at h
        · cases h
          exact removeSubmitter_admin account _
        · cases h
          exact ⟨rfl, rfl⟩
  obtain ⟨hadmin, rfl⟩ := hsame
  exact ⟨⟨.single (.revoke hrevoke), hadmin⟩, ev, hrevoke⟩

/-- Every call but `initialize` moves the roles and nothing else of the administration. -/
theorem administers_of_exec (h : exec env s c = .ok s') :
    Administers s s' ∨ ∃ admin, c = .initializeOracle admin ∧ ¬ Initialized s ∧ Initialized s' ∧
      Rbac.Moves .admin s.store.roles s'.store.roles ∧
      (s'.store.roles.role .admin admin).isSome = true := by
  cases c with
  | initializeOracle admin =>
      simp only [exec, initializeOracle, grantRoleInner, bind_eq_ok, reject_eq_ok, pure_eq_ok] at h
      obtain ⟨-, hnew, ⟨b, s₁⟩, hgrant, rfl⟩ := h
      obtain ⟨hmoves, hst⟩ := grant_effect (fun _ => rfl) hgrant
      refine .inr ⟨admin, rfl, hnew, ?_, hmoves.moves, Rbac.isSome_of_grant hst⟩
      unfold Initialized
      rw [hmoves.admin]
      rfl
  | grantRoleWithExpiration caller role account expiresAt =>
      simp only [exec, grantRoleWithExpiration, bind_eq_ok, reject_eq_ok, pure_eq_ok] at h
      obtain ⟨-, -, -, hexp, ⟨b, s₁⟩, hgrant, rfl⟩ := h
      obtain ⟨hmoves, -⟩ := grant_effect (Rbac.permanent_of_check hexp) hgrant
      exact .inl (hmoves.announce b _)
  | grantRole caller role account =>
      simp only [exec, grantRole, grantRoleInner, bind_eq_ok, pure_eq_ok] at h
      obtain ⟨-, -, ⟨b, s₁⟩, hgrant, rfl⟩ := h
      obtain ⟨hmoves, -⟩ := grant_effect (fun _ => rfl) hgrant
      exact .inl (hmoves.announce b _)
  | revokeRole caller role account =>
      simp only [exec, revokeRole, bind_eq_ok, pure_eq_ok] at h
      obtain ⟨-, -, ⟨b, s₁⟩, hrevoke, rfl⟩ := h
      obtain ⟨hmoves, -⟩ := revoke_effect hrevoke
      exact .inl (hmoves.announce b _)
  | purgeSubmitter caller feeder =>
      simp only [exec, purgeSubmitter, bind_eq_ok, pure_eq_ok] at h
      obtain ⟨-, -, rfl⟩ := h
      obtain ⟨hadmin, hroles⟩ := removeSubmitter_admin feeder s.store
      refine .inl ⟨?_, hadmin⟩
      show Rbac.Moves .admin s.store.roles (removeSubmitter feeder s.store).roles
      rw [hroles]
  | transferAdmin caller newAdmin =>
      simp only [exec, transferAdmin, grantRoleInner, bind_eq_ok, pure_eq_ok] at h
      obtain ⟨-, -, ⟨b, s₁⟩, h₁, ⟨b', s₂⟩, h₂, rfl⟩ := h
      exact .inl (((grant_effect (fun _ => rfl) h₁).1.trans (revoke_effect h₂).1).announce true _)

/-- The records are coherent, and an initialized oracle has an admin. -/
def Staffed (s : State) : Prop :=
  Rbac.Coherent .admin s.store.roles ∧ (Initialized s → 1 ≤ (Rbac.adminCount s.store.roles).val)

theorem Step.staffed {a : Action} (h : Step here s a s') (hs : Staffed s) : Staffed s' := by
  cases h with
  | call _ h =>
      rcases administers_of_exec h with h | ⟨admin, -, -, -, hmoves, hadmin⟩
      · obtain ⟨hc, hle⟩ := h.moves.keeps hs.1
        refine ⟨hc, fun hinit => hle (hs.2 ?_)⟩
        unfold Initialized at hinit ⊢
        rwa [← h.admin]
      · obtain ⟨hc, -⟩ := hmoves.keeps hs.1
        exact ⟨hc, fun _ => hc.admin_of_count hadmin⟩
  | failed _ _ => exact hs
  | prices hadmin hroles =>
      unfold Staffed Initialized at *
      rwa [hadmin, hroles]

theorem staffed_fresh : Staffed State.fresh := ⟨Rbac.Coherent.empty, nofun⟩

theorem staffed_of_run (h : Run (Step here) State.fresh as s) : Staffed s :=
  h.invariant (fun _ => Step.staffed) staffed_fresh

/-- The run has called `initialize`. -/
def Started (as : List Action) : Prop :=
  ∃ env admin, Action.call env (.initializeOracle admin) ∈ as

theorem Step.initialized {a : Action} (h : Step here s a s') (hs : Initialized s) :
    Initialized s' := by
  unfold Initialized at *
  cases h with
  | call _ h =>
      rcases administers_of_exec h with h | ⟨admin, -, -, hinit, -, -⟩
      · rwa [h.admin]
      · exact hinit
  | failed _ _ => exact hs
  | prices hadmin _ => rwa [hadmin]

theorem initialized_of_run (h : Run (Step here) s as s') (hstart : Started as) : Initialized s' := by
  obtain ⟨env, admin, hin⟩ := hstart
  induction h with
  | nil => cases hin
  | snoc _ ha ih =>
      rcases List.mem_append.mp hin with hin | hin
      · exact ha.initialized (ih hin)
      · obtain rfl := List.mem_singleton.mp hin
        cases ha with
        | call _ h =>
            simp only [exec, initializeOracle, grantRoleInner, bind_eq_ok, pure_eq_ok] at h
            obtain ⟨-, -, ⟨b, s₁⟩, hgrant, rfl⟩ := h
            unfold Initialized
            rw [(grant_effect (fun _ => rfl) hgrant).1.admin]
            rfl

end Oracle

/-! ### Both -/

/-- In every run of the governor and of the oracle the memberships are what they should be, and from
`initialize` on there is an admin; a failed call leaves them alone. -/
theorem administered_of_run :
    (∀ here tokens as s, Run (Governor.Step here) (Governor.State.fresh tokens) as s →
      Rbac.Administered .admin (Governor.Started as) s.store.roles ∧
      ∀ host env c s', Governor.Step here s (.failed host env c) s' →
        s'.store.roles = s.store.roles) ∧
    (∀ here as s, Run (Oracle.Step here) Oracle.State.fresh as s →
      Rbac.Administered .admin (Oracle.Started as) s.store.roles ∧
      ∀ env c s', Oracle.Step here s (.failed env c) s' → s'.store.roles = s.store.roles) := by
  constructor
  · intro here tokens as s hrun
    obtain ⟨hc, hle⟩ := Governor.staffed_of_run hrun
    refine ⟨hc.administered fun hstart => hle (Governor.initialized_of_run hrun hstart), ?_⟩
    rintro host env c s' hstep
    cases hstep with
    | failed _ _ => rfl
  · intro here as s hrun
    obtain ⟨hc, hle⟩ := Oracle.staffed_of_run hrun
    refine ⟨hc.administered fun hstart => hle (Oracle.initialized_of_run hrun hstart), ?_⟩
    rintro env c s' hstep
    cases hstep with
    | failed _ _ => rfl

/-- Two admins and a pauser whose role ran out before it was renewed; the first admin has handed its
role on.  The oracle's first admin has handed its own on, too. -/
theorem administered_of_run_handedOn :
    let s := Governor.Sample.reached [(.lit 110, .grantRole (.account 1) .admin (.account 2)),
      (.lit 120, .grantRoleWithExpiration (.account 1) .pauser (.account 4) (some (.lit 150))),
      (.lit 200, .grantRole (.account 1) .pauser (.account 4)),
      (.lit 210, .proposeAuthority (.account 1) (.account 7)),
      (.lit 220, .acceptAuthority (.account 7)),
      (.lit 230, .revokeRole (.account 2) .admin (.account 7))]
    let o := Oracle.Sample.reached [(.lit 110, .transferAdmin (.account 1) (.account 2))]
    (Rbac.adminCount s.store.roles).val = 1 ∧
      (Rbac.adminCount s.store.roles).val =
        {a | Rbac.Holds s.store.roles (.lit 300) .admin a}.ncard ∧
      (Rbac.adminCount o.store.roles).val =
        {a | Rbac.Holds o.store.roles (.lit 300) .admin a}.ncard :=
  ⟨by decide,
    (administered_of_run.1 _ _ _ _ (Governor.Sample.run_reached (by decide))).1.counted _,
    (administered_of_run.2 _ _ _ (Oracle.Sample.run_reached (by decide))).1.counted _⟩

end Drip
