import Drip.Protocol.Administration

/-!
# Protocol — Handoff

The admin role passes from one account to another: at once in `transfer_authority` and the oracle's
`transfer_admin`, in two steps in `propose_authority` and `accept_authority` (or `propose_admin` and
`claim_admin`).  Each of them grants the role to the successor and revokes it from the account that
began.

`HandedOver` says that the role has passed and nothing else has changed.  Where the account that began
is an admin, a grant and a revocation do just that if, and only if, the successor was none before;
`transfer_authority` asks for both, the others do not.
-/

namespace Drip
open Chain

namespace Rbac

variable {R : Type} [DecidableEq R] {admin : R} {now : U64} {old new : Address}
variable {st st₁ st' : Records R}

/-- The role passed from `old` to `new`, and nothing else changed. -/
structure HandedOver (admin : R) (now : U64) (st st' : Records R) (old new : Address) : Prop where
  successor : Holds st' now admin new
  initiator : ¬ Holds st' now admin old
  others : ∀ a, a ≠ new → a ≠ old → (Holds st' now admin a ↔ Holds st now admin a)
  counted : (adminCount st').val = (adminCount st).val

/-- A grant to `new` and a revocation from an admin `old` hand the role over exactly when `new` is
not yet an admin. -/
theorem handedOver_iff {b : Bool} {ev : Option RoleRevokedEvent} (hc : Coherent admin st)
    (hold : Holds st now admin old)
    (hgrant : grantWithExpiration now (decide (admin = admin)) admin new none st = .ok (b, st₁))
    (hrevoke : revoke now (decide (admin = admin)) admin old st₁ = .ok (ev, st')) :
    HandedOver admin now st st' old new ↔ ¬ Holds st now admin new := by
  obtain ⟨hc₁, hrole₁, hcount₁⟩ := grant_spec hc (fun _ => rfl) hgrant
  obtain ⟨hc', hrole', hcount', -⟩ := revoke_spec hc₁ hrevoke
  have hold' : (st.role admin old).isSome = true := hc.holds_admin.mp hold
  have hold₁ : (st₁.role admin old).isSome = true := by
    rw [hrole₁]
    split
    · rfl
    · exact hold'
  simp only [true_and, hold₁, if_true] at hcount₁ hcount'
  constructor
  · intro h hnew
    have hnew' := hc.holds_admin.mp hnew
    have hcounted := h.counted
    rw [hcount', hcount₁, hnew'] at hcounted
    simp at hcounted
  · intro hnew
    have hnone : (st.role admin new).isSome = false := by
      rw [hc.holds_admin] at hnew
      exact Bool.eq_false_iff.mpr hnew
    have hne : new ≠ old := by
      rintro rfl
      rw [hnone] at hold'
      cases hold'
    refine ⟨?_, ?_, fun a hanew haold => ?_, ?_⟩
    · rw [hc'.holds_admin, hrole', if_neg fun h => hne h.2, hrole₁, if_pos ⟨rfl, rfl⟩]
      rfl
    · rw [hc'.holds_admin, hrole', if_pos ⟨rfl, rfl⟩]
      exact nofun
    · rw [hc'.holds_admin, hc.holds_admin, hrole', if_neg fun h => haold h.2, hrole₁,
        if_neg fun h => hanew h.2]
    · rw [hcount', hcount₁, hnone]
      simp

end Rbac

/-! ### The governor -/

namespace Governor

variable {here : Address} {env : Env} {s s' : State} {a : Action} {caller newAuthority : Address}
variable {tokens : Ledger} {as : List Action}

/-- A handoff that goes through is a handover from the account that began it, an admin, to the
caller or the account named. -/
def HandsOver (s : State) (a : Action) (s' : State) : Prop :=
  match a with
  | .call _ env (.transferAuthority caller newAuthority) =>
      Rbac.HandedOver .admin env.timestamp s.store.roles s'.store.roles caller newAuthority
  | .call _ env (.acceptAuthority caller) | .call _ env (.claimAdmin caller) =>
      ∃ proposer, s.store.pendingAuthorityProposer = some proposer ∧
        Rbac.Holds s.store.roles env.timestamp .admin proposer ∧
        Rbac.HandedOver .admin env.timestamp s.store.roles s'.store.roles proposer caller
  | _ => True

/-- A handoff is accepted while the proposer is still an admin and the caller is none. -/
def Timely (s : State) (a : Action) : Prop :=
  match a with
  | .call _ env (.acceptAuthority caller) | .call _ env (.claimAdmin caller) =>
      (∀ proposer, s.store.pendingAuthorityProposer = some proposer →
        Rbac.Holds s.store.roles env.timestamp .admin proposer) ∧
      ¬ Rbac.Holds s.store.roles env.timestamp .admin caller
  | _ => True

theorem handedOver_of_transferAuthority (hc : Rbac.Coherent .admin s.store.roles)
    (h : transferAuthority env caller newAuthority s = .ok s') :
    Rbac.HandedOver .admin env.timestamp s.store.roles s'.store.roles caller newAuthority := by
  simp only [transferAuthority, grant, bind_eq_ok, reject_eq_ok, pure_eq_ok, hasRole_eq_ok,
    requireRole_eq_ok] at h
  obtain ⟨-, -, held, hheld, -, hnew, -, hsigned, ⟨b, s₁⟩, h₁, ⟨b', s₂⟩, h₂, rfl⟩ := h
  obtain ⟨-, st, hgrant, rfl⟩ := grant_effect (fun _ => rfl) h₁
  obtain ⟨-, ev, hrevoke⟩ := revoke_effect h₂
  refine (Rbac.handedOver_iff hc hsigned.2 hgrant hrevoke).mpr fun hholds => hnew ?_
  unfold Rbac.Holds at hholds
  rw [hheld] at hholds
  cases hholds
  rfl

theorem handsOver_of_accept (hc : Rbac.Coherent .admin s.store.roles)
    (h : acceptAuthority env caller s = .ok s') :
    (∃ proposer, s.store.pendingAuthorityProposer = some proposer ∧
        Rbac.Holds s.store.roles env.timestamp .admin proposer ∧
        Rbac.HandedOver .admin env.timestamp s.store.roles s'.store.roles proposer caller) ↔
      (∀ proposer, s.store.pendingAuthorityProposer = some proposer →
        Rbac.Holds s.store.roles env.timestamp .admin proposer) ∧
      ¬ Rbac.Holds s.store.roles env.timestamp .admin caller := by
  simp only [acceptAuthority, grant, bind_eq_ok, okOr_eq_ok, pure_eq_ok] at h
  obtain ⟨-, -, -, -, -, -, proposer, hproposer, ⟨b, s₁⟩, h₁, ⟨b', s₂⟩, h₂, rfl⟩ := h
  obtain ⟨-, st, hgrant, rfl⟩ := grant_effect (fun _ => rfl) h₁
  obtain ⟨-, ev, hrevoke⟩ := revoke_effect h₂
  simp only [hproposer, Option.some.injEq, forall_eq', exists_eq_left']
  exact and_congr_right fun hold => Rbac.handedOver_iff hc hold hgrant hrevoke

theorem handsOver_iff (h : Step here s a s') (hc : Rbac.Coherent .admin s.store.roles) :
    HandsOver s a s' ↔ Timely s a := by
  cases h with
  | call _ h =>
      rename_i host env c _
      cases c with
      | transferAuthority caller newAuthority =>
          exact iff_of_true (handedOver_of_transferAuthority hc h) trivial
      | acceptAuthority caller => exact handsOver_of_accept hc h
      | claimAdmin caller => exact handsOver_of_accept hc h
      | _ => exact Iff.rfl
  | failed _ _ | ballot _ | outside _ => exact Iff.rfl

end Governor

/-! ### The oracle -/

namespace Oracle

variable {here : Address} {env : Env} {s s' : State} {a : Action} {caller newAdmin : Address}

/-- A handoff that goes through is a handover. -/
def HandsOver (s : State) (a : Action) (s' : State) : Prop :=
  match a with
  | .call env (.transferAdmin caller newAdmin) =>
      Rbac.HandedOver .admin env.timestamp s.store.roles s'.store.roles caller newAdmin
  | _ => True

/-- A handoff names an account that is not an admin. -/
def Timely (s : State) (a : Action) : Prop :=
  match a with
  | .call env (.transferAdmin _ newAdmin) =>
      ¬ Rbac.Holds s.store.roles env.timestamp .admin newAdmin
  | _ => True

theorem holds_of_requireRoleOrAdmin {u : Unit} (h : requireRoleOrAdmin env caller .admin s = .ok u) :
    Rbac.Holds s.store.roles env.timestamp .admin caller := by
  simp only [requireRoleOrAdmin, Rbac.requireRoleOrAdmin, Rbac.hasEither, mapError_eq_ok, bind_eq_ok,
    reject_eq_ok, Bool.not_eq_false] at h
  obtain ⟨-, -, held, ⟨isAdmin, hadmin, hheld⟩, rfl⟩ := h
  cases isAdmin with
  | true => exact hadmin
  | false => exact hheld

theorem handsOver_iff (h : Step here s a s') (hc : Rbac.Coherent .admin s.store.roles) :
    HandsOver s a s' ↔ Timely s a := by
  cases h with
  | call _ h =>
      rename_i env c _
      cases c with
      | transferAdmin caller newAdmin =>
          simp only [exec, transferAdmin, grantRoleInner, bind_eq_ok, pure_eq_ok] at h
          obtain ⟨u, hrole, ⟨b, s₁⟩, h₁, ⟨b', s₂⟩, h₂, rfl⟩ := h
          obtain ⟨-, hgrant⟩ := grant_effect (fun _ => rfl) h₁
          obtain ⟨-, ev, hrevoke⟩ := revoke_effect h₂
          exact Rbac.handedOver_iff hc (holds_of_requireRoleOrAdmin hrole) hgrant hrevoke
      | _ => exact Iff.rfl
  | failed _ _ | prices _ _ => exact Iff.rfl

end Oracle

/-! ### Both -/

/-- At every state of every run a handoff is a handover exactly when it is timely, so the runs whose
handoffs are all handovers are the runs whose handoffs are all timely. -/
theorem handoffs_of_run (here : Address) :
    (∀ tokens as s, Run (Governor.Step here) (Governor.State.fresh tokens) as s →
      ∀ a s', Governor.Step here s a s' → (Governor.HandsOver s a s' ↔ Governor.Timely s a)) ∧
    (∀ tokens as s,
      Run (fun s a s' => Governor.Step here s a s' ∧ Governor.HandsOver s a s')
        (Governor.State.fresh tokens) as s ↔
      Run (fun s a s' => Governor.Step here s a s' ∧ Governor.Timely s a)
        (Governor.State.fresh tokens) as s) ∧
    (∀ as s, Run (Oracle.Step here) Oracle.State.fresh as s →
      ∀ a s', Oracle.Step here s a s' → (Oracle.HandsOver s a s' ↔ Oracle.Timely s a)) ∧
    (∀ as s,
      Run (fun s a s' => Oracle.Step here s a s' ∧ Oracle.HandsOver s a s') Oracle.State.fresh as s ↔
      Run (fun s a s' => Oracle.Step here s a s' ∧ Oracle.Timely s a) Oracle.State.fresh as s) := by
  refine ⟨fun tokens as s hrun a s' hstep => ?_, fun tokens as s => ?_,
    fun as s hrun a s' hstep => ?_, fun as s => ?_⟩
  · exact Governor.handsOver_iff hstep (Governor.staffed_of_run hrun).1
  · exact Run.steps_iff (P := Governor.Staffed) (fun _ _ _ h => h.staffed)
      (fun _ _ _ h hs => Governor.handsOver_iff h hs.1) (Governor.staffed_fresh tokens)
  · exact Oracle.handsOver_iff hstep (Oracle.staffed_of_run hrun).1
  · exact Run.steps_iff (P := Oracle.Staffed) (fun _ _ _ h => h.staffed)
      (fun _ _ _ h hs => Oracle.handsOver_iff h hs.1) Oracle.staffed_fresh

/-- Account 1 proposes account 7, which accepts while account 1 is still an admin. -/
theorem handoffs_of_run_accepted :
    let s := Governor.Sample.reached [(.lit 110, .proposeAuthority (.account 1) (.account 7))]
    let env := Governor.Sample.envAt (.lit 120)
    Rbac.HandedOver .admin (.lit 120) s.store.roles
      (Governor.Sample.next s env (.acceptAuthority (.account 7))).store.roles
      (.account 1) (.account 7) := by
  intro s env
  have hstep : Governor.Step Governor.Sample.address s
      (.call Governor.Sample.host env (.acceptAuthority (.account 7))) _ :=
    Governor.Sample.step_next rfl (by decide)
  have hiff := (handoffs_of_run _).1 _ _ s (Governor.Sample.run_reached (by decide)) _ _ hstep
  have htimely : Governor.Timely s (.call Governor.Sample.host env (.acceptAuthority (.account 7))) :=
    ⟨fun proposer h => by cases h; rfl, by decide⟩
  obtain ⟨proposer, hproposer, -, hover⟩ := hiff.mpr htimely
  cases hproposer
  exact hover

/-- Account 1 makes account 2 an admin and proposes account 7; account 2 then revokes account 1, and
account 7 still becomes an admin. -/
theorem revoked_proposer_hands_on :
    let s := Governor.Sample.reached [(.lit 110, .grantRole (.account 1) .admin (.account 2)),
      (.lit 120, .proposeAuthority (.account 1) (.account 7)),
      (.lit 130, .revokeRole (.account 2) .admin (.account 1))]
    let env := Governor.Sample.envAt (.lit 140)
    Governor.Reachable Governor.Sample.address s ∧
      ∃ s', Governor.acceptAuthority env (.account 7) s = .ok s' ∧
        s.store.pendingAuthorityProposer = some (.account 1) ∧
        ¬ Rbac.Holds s.store.roles env.timestamp .admin (.account 1) ∧
        ¬ Rbac.Holds s.store.roles env.timestamp .admin (.account 7) ∧
        Rbac.Holds s'.store.roles env.timestamp .admin (.account 7) ∧
        (Rbac.adminCount s.store.roles).val = 1 ∧ (Rbac.adminCount s'.store.roles).val = 2 := by
  intro s env
  refine ⟨Governor.Sample.reachable_reached (by decide),
    Governor.Sample.next s env (.acceptAuthority (.account 7)), ?_, by decide, by decide, by decide,
    rfl, by decide, by decide⟩
  exact Governor.Sample.exec_next (c := .acceptAuthority (.account 7)) (by decide)

end Drip
