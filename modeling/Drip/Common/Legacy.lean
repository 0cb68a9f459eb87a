import Drip.Common.Membership
import Drip.Common.Pause

/-!
# Common — Legacy

Keys written before the structs were introduced hold a `bool`.  The reads of the pause key go by the
raw value and accept both; every other function reads the struct, and that read traps on a `bool`
before any fallback for it is reached.

* `hasRole_iff`, `granted_iff`, `revoked_iff`: what the functions on a role key do, where it holds no
  legacy flag and nowhere else.
* `isPaused_eq`, `getPauseState_reads`: the two reads of the pause key, on every value.
* `switched_iff`: what a write of the pause key does, where it holds no legacy flag.
-/

namespace Drip.Legacy
open Chain

variable {R : Type} {role : R} {account : Address} {now : U64} {e : Option U64}
variable {isAdmin paused : Bool} {st st' : Rbac.Records R} {maxDuration unpauseCooldown : Option U64}

/-! ### Role keys -/

/-- A role key that still holds a `bool`. -/
def IsFlag (v : Option Rbac.Stored) : Prop := ∃ b, v = some (.flag b)

/-- What a role key stands for: a legacy flag for itself. -/
def heldAt (now : U64) : Option Rbac.Stored → Bool
  | none => false
  | some (.flag b) => b
  | some (.assignment a) => a.active now

theorem readAssignment_flag {v : Option Rbac.Stored} (h : IsFlag v) :
    Rbac.readAssignment v = .error .trap := by
  obtain ⟨b, rfl⟩ := h
  rfl

theorem hasRole_flag {v : Option Rbac.Stored} (h : IsFlag v) : Rbac.hasRole now v = .error .trap := by
  unfold Rbac.hasRole
  rw [readAssignment_flag h, bind_of_error rfl]

theorem hasRole_assignment {a : Rbac.RoleAssignment} :
    Rbac.hasRole now (some (.assignment a)) = .ok (a.active now) := rfl

theorem hasRole_eq {v : Option Rbac.Stored} (h : ¬ IsFlag v) :
    Rbac.hasRole now v = .ok (heldAt now v) := by
  rcases v with _ | b | a
  · rfl
  · exact absurd ⟨b, rfl⟩ h
  · rfl

/-- `has_role` answers what the key stands for. -/
theorem hasRole_iff {v : Option Rbac.Stored} :
    Rbac.hasRole now v = .ok (heldAt now v) ↔ ¬ IsFlag v := by
  refine ⟨fun h hv => ?_, hasRole_eq⟩
  rw [hasRole_flag hv] at h
  cases h

/-- An assignment that is not active has expired. -/
theorem hasExpiredAssignment_of_inactive {a : Rbac.RoleAssignment} (h : a.active now = false) :
    Rbac.hasExpiredAssignment now (some a) = true := by
  rcases a with ⟨_ | exp⟩
  · cases h
  · have h : ¬ now < exp := of_decide_eq_false h
    exact decide_eq_true (Ranged.not_lt.mp h)

/-- An error of the contract is no trap. -/
theorem contract_ne_trap {E : Type} (x : E) : Failure.contract x ≠ .trap := by
  intro h
  cases h

/-- The counter is above one where it is lowered. -/
theorem avoids_discountAdmin {active expired : Bool} :
    Avoids .trap (Rbac.discountAdmin isAdmin active expired st) := by
  unfold Rbac.discountAdmin
  split
  · refine avoids_bind (avoids_reject fun _ => contract_ne_trap _) fun u hok => ?_
    have hlast := reject_eq_ok.mp hok
    have hle := (Rbac.adminCount st).le
    have hsub : (Rbac.adminCount st).checkedSub (.lit 1) =
        some ⟨(Rbac.adminCount st).val - 1, by omega, by omega⟩ := Ranged.checkedSub_eq_some.mpr rfl
    rw [hsub]
    exact avoids_ok _
  · split
    · exact avoids_ok _
    · exact avoids_ok _

/-- Counting an admin leaves the role keys alone. -/
theorem exists_countAdmin (h : isAdmin = true → (Rbac.adminCount st).val < 4294967295) :
    ∃ st', Rbac.countAdmin isAdmin st = .ok st' ∧ st'.role = st.role := by
  unfold Rbac.countAdmin
  split
  · rename_i hadmin
    have hlt := h hadmin
    have hge := (Rbac.adminCount st).ge
    have hadd : (Rbac.adminCount st).checkedAdd (.lit 1) =
        some ⟨(Rbac.adminCount st).val + 1, by omega, by omega⟩ := Ranged.checkedAdd_eq_some.mpr rfl
    rw [hadd]
    exact ⟨_, rfl, rfl⟩
  · exact ⟨st, rfl, rfl⟩

section

variable [DecidableEq R]

/-- A grant goes through, answers whether the role was not held before, and writes an assignment that
reads back with its expiry at any time. -/
def Granted (now : U64) (isAdmin : Bool) (role : R) (account : Address) (e : Option U64)
    (st : Rbac.Records R) : Prop :=
  ∃ st', Rbac.grantWithExpiration now isAdmin role account e st =
      .ok (!heldAt now (st.role role account), st') ∧
    st'.role role account = some (.assignment ⟨e⟩) ∧
    ∀ later, Rbac.hasRole later (st'.role role account) =
      .ok (Rbac.RoleAssignment.active later ⟨e⟩)

/-- The counter has room for a new admin. -/
def HasRoom (isAdmin : Bool) (role : R) (account : Address) (st : Rbac.Records R) : Prop :=
  isAdmin = true → st.role role account = none → (Rbac.adminCount st).val < 4294967295

/-- A grant to an account without an assignment counts it and lists it. -/
theorem grant_absent (h : st.role role account = none) :
    Rbac.grantWithExpiration now isAdmin role account e st =
      Rbac.countAdmin isAdmin (st.setRole role account (some (.assignment ⟨e⟩))) >>= fun st' =>
        .ok (true, st'.setMembers role (Rbac.roleMembers st' role ++ [account])) := by
  unfold Rbac.grantWithExpiration
  rw [h]
  rfl

/-- A grant to an account with an assignment replaces it. -/
theorem grant_present {a : Rbac.RoleAssignment} (h : st.role role account = some (.assignment a)) :
    Rbac.grantWithExpiration now isAdmin role account e st =
      .ok (!a.active now, st.setRole role account (some (.assignment ⟨e⟩))) := by
  unfold Rbac.grantWithExpiration
  rw [h, bind_of_ok hasRole_assignment]
  dsimp only
  rw [Option.isSome_some, Bool.or_true, if_pos rfl]
  rfl

theorem grant_flag (h : IsFlag (st.role role account)) :
    Rbac.grantWithExpiration now isAdmin role account e st = .error .trap := by
  unfold Rbac.grantWithExpiration
  rw [bind_of_error (hasRole_flag h)]

theorem granted_of_role {st' : Rbac.Records R}
    (h : Rbac.grantWithExpiration now isAdmin role account e st =
      .ok (!heldAt now (st.role role account), st'))
    (hrole : st'.role role account = some (.assignment ⟨e⟩)) :
    Granted now isAdmin role account e st := by
  refine ⟨st', h, hrole, fun later => ?_⟩
  rw [hrole]
  rfl

theorem granted_of (h : ¬ IsFlag (st.role role account)) (hroom : HasRoom isAdmin role account st) :
    Granted now isAdmin role account e st := by
  have hself : (st.setRole role account (some (.assignment ⟨e⟩))).role role account =
      some (.assignment ⟨e⟩) := by simp
  rcases hv : st.role role account with _ | b | a
  · obtain ⟨st', hcount, hrole⟩ : ∃ st', Rbac.countAdmin isAdmin
        (st.setRole role account (some (.assignment ⟨e⟩))) = .ok st' ∧
        st'.role = (st.setRole role account (some (.assignment ⟨e⟩))).role :=
      exists_countAdmin fun hadmin => hroom hadmin hv
    have hgrant : Rbac.grantWithExpiration now isAdmin role account e st =
        .ok (!heldAt now (st.role role account),
          st'.setMembers role (Rbac.roleMembers st' role ++ [account])) := by
      rw [grant_absent hv, bind_of_ok hcount, hv]
      rfl
    refine granted_of_role hgrant ?_
    rw [Rbac.setMembers_role, hrole]
    exact hself
  · exact absurd ⟨b, hv⟩ h
  · refine granted_of_role ?_ hself
    rw [grant_present hv, hv]
    rfl

/-- `grant_with_expiration` works where no legacy flag is stored and the counter has room. -/
theorem granted_iff : Granted now isAdmin role account e st ↔
    ¬ IsFlag (st.role role account) ∧ HasRoom isAdmin role account st := by
  refine ⟨?_, fun h => granted_of h.1 h.2⟩
  rintro ⟨st', h, -⟩
  refine ⟨fun hv => ?_, fun hadmin hnone => ?_⟩
  · rw [grant_flag hv] at h
    cases h
  · -- the counter of the admins went up by one
    rw [grant_absent hnone] at h
    obtain ⟨st₁, hcount, -⟩ := bind_eq_ok.mp h
    have hnext := (Rbac.countAdmin_spec hcount).2
    rw [if_pos hadmin] at hnext
    have hle := (Rbac.adminCount st₁).le
    have hsame : Rbac.adminCount (st.setRole role account (some (.assignment ⟨e⟩))) =
        Rbac.adminCount st := rfl
    rw [hsame] at hnext
    omega

/-- A revocation does not trap, answers `true` for a role that was held, and leaves the role not held
at any time. -/
structure Revoked (now : U64) (isAdmin : Bool) (role : R) (account : Address)
    (revokedBy : Option Address) (roleName : Bytes) (st : Rbac.Records R) : Prop where
  returns : Avoids .trap (Rbac.revokeWithEvent now isAdmin role account revokedBy roleName st)
  counts : ∀ event st', Rbac.revokeWithEvent now isAdmin role account revokedBy roleName st =
    .ok (event, st') → heldAt now (st.role role account) = true → event.isSome = true
  reads : ∀ event st', Rbac.revokeWithEvent now isAdmin role account revokedBy roleName st =
    .ok (event, st') → ∀ later, Rbac.hasRole later (st'.role role account) = .ok false

variable {revokedBy : Option Address} {roleName : Bytes} {event : Option Rbac.RoleRevokedEvent}

theorem revoke_absent (h : st.role role account = none) :
    Rbac.revokeWithEvent now isAdmin role account revokedBy roleName st = .ok (none, st) := by
  unfold Rbac.revokeWithEvent
  rw [h]
  rfl

/-- An assignment is removed, active or expired, unless it is the last admin's. -/
theorem revoke_present {a : Rbac.RoleAssignment} (h : st.role role account = some (.assignment a)) :
    Rbac.revokeWithEvent now isAdmin role account revokedBy roleName st =
      Rbac.discountAdmin isAdmin (a.active now) (Rbac.hasExpiredAssignment now (some a)) st >>=
        fun st' => .ok (some ⟨account, roleName, revokedBy, now⟩,
          (st'.setRole role account none).setMembers role
            ((Rbac.roleMembers (st'.setRole role account none) role).filter fun m => m ≠ account)) := by
  have hgone : (!a.active now && !Rbac.hasExpiredAssignment now (some a)) = false := by
    cases hactive : a.active now with
    | true => rfl
    | false => rw [hasExpiredAssignment_of_inactive hactive]; rfl
  unfold Rbac.revokeWithEvent
  rw [h, bind_of_ok hasRole_assignment, Rbac.readAssignment, ok_bind]
  dsimp only
  rw [hgone, if_neg Bool.false_ne_true]
  rfl

theorem revoked_of (h : ¬ IsFlag (st.role role account)) :
    Revoked now isAdmin role account revokedBy roleName st := by
  rcases hv : st.role role account with _ | b | a
  · have hr : Rbac.revokeWithEvent now isAdmin role account revokedBy roleName st = .ok (none, st) :=
      revoke_absent hv
    refine ⟨?_, fun event st' hok hheld => ?_, fun event st' hok later => ?_⟩
    · rw [hr]
      exact avoids_ok _
    · rw [hv] at hheld
      cases hheld
    · rw [hr] at hok
      cases hok
      rw [hv]
      rfl
  · exact absurd ⟨b, hv⟩ h
  · refine ⟨?_, fun event st' hok _ => ?_, fun event st' hok later => ?_⟩
    · rw [revoke_present hv]
      exact avoids_bind avoids_discountAdmin fun st' _ => avoids_ok _
    · rw [revoke_present hv] at hok
      obtain ⟨st₁, -, hok⟩ := bind_eq_ok.mp hok
      cases hok
      rfl
    · rw [revoke_present hv] at hok
      obtain ⟨st₁, -, hok⟩ := bind_eq_ok.mp hok
      cases hok
      rw [Rbac.setMembers_role, Rbac.setRole_role, if_pos ⟨rfl, rfl⟩]
      rfl

/-- `revoke_with_event` works where no legacy flag is stored. -/
theorem revoked_iff : Revoked now isAdmin role account revokedBy roleName st ↔
    ¬ IsFlag (st.role role account) := by
  refine ⟨fun h hv => h.returns ?_, revoked_of⟩
  unfold Rbac.revokeWithEvent
  rw [bind_of_error (hasRole_flag hv)]

end

/-! ### Pause keys -/

/-- A pause key that still holds a `bool`. -/
def IsSwitch (v : Option Pause.Stored) : Prop := ∃ b, v = some (.flag b)

/-- A state pauses until its maximum duration is over. -/
def stillPaused (now : U64) (st : Pause.PauseState) : Bool :=
  st.paused && match st.maxDuration with
    | some maxDur => decide (now < st.pausedAt.saturatingAdd maxDur)
    | none => true

/-- What a pause key stands for: a legacy flag for itself. -/
def haltedAt (now : U64) : Option Pause.Stored → Bool
  | none => false
  | some (.flag b) => b
  | some (.state st) => stillPaused now st

/-- `is_paused` answers what the key stands for, on every value. -/
theorem isPaused_eq {v : Option Pause.Stored} : (Pause.isPaused now v).1 = haltedAt now v := by
  rcases v with _ | b | ⟨paused, pausedAt, maxDuration, unpausedAt, cooldown⟩
  · rfl
  · cases b <;> rfl
  · cases paused with
    | false => rfl
    | true =>
        cases maxDuration with
        | none => rfl
        | some maxDur =>
            unfold Pause.isPaused haltedAt stillPaused
            dsimp only
            rw [if_pos rfl, Bool.true_and]
            split
            · rename_i hout
              exact (decide_eq_false (Ranged.not_lt.mpr hout)).symm
            · rename_i hin
              exact (decide_eq_true (Ranged.not_le.mp hin)).symm

/-- A read leaves a state that stands for the same. -/
theorem exists_state_of_read {st : Pause.PauseState} :
    ∃ st', (Pause.isPaused now (some (.state st))).2 = some (.state st') ∧
      st'.paused = (Pause.isPaused now (some (.state st))).1 := by
  rcases st with ⟨paused, pausedAt, maxDuration, unpausedAt, cooldown⟩
  cases paused with
  | false => exact ⟨_, rfl, rfl⟩
  | true =>
      cases maxDuration with
      | none => exact ⟨_, rfl, rfl⟩
      | some maxDur =>
          unfold Pause.isPaused
          dsimp only
          rw [if_pos rfl]
          split
          · exact ⟨_, rfl, rfl⟩
          · exact ⟨_, rfl, rfl⟩

/-- `get_pause_state` does not fail, agrees with `is_paused`, and leaves what that leaves. -/
theorem getPauseState_reads (now : U64) (v : Option Pause.Stored) :
    ∃ st, Pause.getPauseState now v = .ok (st, (Pause.isPaused now v).2) ∧ st.isSome = v.isSome ∧
      (st.map (·.paused)).getD false = haltedAt now v := by
  rw [← isPaused_eq]
  rcases v with _ | b | st
  · exact ⟨none, rfl, rfl, rfl⟩
  · cases b with
    | false => exact ⟨_, rfl, rfl, rfl⟩
    | true => exact ⟨_, rfl, rfl, rfl⟩
  · obtain ⟨st', hst, hp⟩ : ∃ st', (Pause.isPaused now (some (.state st))).2 = some (.state st') ∧
        st'.paused = (Pause.isPaused now (some (.state st))).1 := exists_state_of_read
    refine ⟨some st', ?_, rfl, hp⟩
    unfold Pause.getPauseState
    dsimp only
    rw [hst]
    rfl

/-- How long a pause lasts that is set now. -/
def pausedUntil (now : U64) (maxDuration : Option U64) : U64 :=
  now.saturatingAdd (min (maxDuration.getD Pause.defaultMaxPauseDuration) Pause.defaultMaxPauseDuration)

/-- A write does not trap, and what it stores is a state that both reads give back, until the pause is
over. -/
structure Switched (now : U64) (v : Option Pause.Stored) (paused : Bool)
    (maxDuration unpauseCooldown : Option U64) : Prop where
  returns : Avoids .trap (Pause.setPausedWithCooldown now v paused maxDuration unpauseCooldown)
  stores : ∀ v', Pause.setPausedWithCooldown now v paused maxDuration unpauseCooldown = .ok v' →
    ∃ st, v' = some (.state st) ∧ st.paused = paused
  reads : ∀ v', Pause.setPausedWithCooldown now v paused maxDuration unpauseCooldown = .ok v' →
    ∀ later, (Pause.isPaused later v').1 = (paused && decide (later < pausedUntil now maxDuration)) ∧
      ∃ st v'', Pause.getPauseState later v' = .ok (some st, v'') ∧
        st.paused = (paused && decide (later < pausedUntil now maxDuration))

theorem readState_switch {v : Option Pause.Stored} (h : IsSwitch v) :
    Pause.readState v = .error .trap := by
  obtain ⟨b, rfl⟩ := h
  rfl

theorem exists_readState {v : Option Pause.Stored} (h : ¬ IsSwitch v) :
    ∃ st, Pause.readState v = .ok st := by
  rcases v with _ | b | st
  · exact ⟨none, rfl⟩
  · exact absurd ⟨b, rfl⟩ h
  · exact ⟨some st, rfl⟩

theorem switched_of {v : Option Pause.Stored} (h : ¬ IsSwitch v) :
    Switched now v paused maxDuration unpauseCooldown := by
  obtain ⟨current, hcurrent⟩ := exists_readState h
  have hstate : ∀ v', Pause.setPausedWithCooldown now v paused maxDuration unpauseCooldown = .ok v' →
      ∃ st, v' = some (.state st) ∧ st.paused = paused ∧
        ∀ later, stillPaused later st = (paused && decide (later < pausedUntil now maxDuration)) := by
    intro v' hok
    unfold Pause.setPausedWithCooldown at hok
    rw [bind_of_ok hcurrent] at hok
    obtain ⟨u, -, hok⟩ := bind_eq_ok.mp hok
    cases hok
    refine ⟨_, rfl, rfl, fun later => ?_⟩
    cases paused <;> rfl
  refine ⟨?_, fun v' hok => ?_, fun v' hok later => ?_⟩
  · unfold Pause.setPausedWithCooldown
    rw [bind_of_ok hcurrent]
    exact avoids_bind (avoids_reject fun _ => contract_ne_trap _) fun _ _ => avoids_ok _
  · obtain ⟨st, rfl, hp, -⟩ := hstate v' hok
    exact ⟨st, rfl, hp⟩
  · obtain ⟨st, rfl, -, hlater⟩ := hstate v' hok
    have hread : haltedAt later (some (.state st)) =
        (paused && decide (later < pausedUntil now maxDuration)) := hlater later
    refine ⟨isPaused_eq.trans hread, ?_⟩
    obtain ⟨st', hget, hsome, hp⟩ := getPauseState_reads later (some (.state st))
    obtain ⟨st', rfl⟩ := Option.isSome_iff_exists.mp hsome
    exact ⟨st', _, hget, hp.trans hread⟩

/-- `set_paused_with_cooldown` works where no legacy flag is stored. -/
theorem switched_iff {v : Option Pause.Stored} :
    Switched now v paused maxDuration unpauseCooldown ↔ ¬ IsSwitch v := by
  refine ⟨fun h hv => h.returns ?_, switched_of⟩
  unfold Pause.setPausedWithCooldown
  rw [bind_of_error (readState_switch hv)]

/-- **Legacy flags stay readable on a pause key, and nowhere else.**  For every stored value, `has_role`,
`grant_with_expiration`, `revoke_with_event` and `set_paused_with_cooldown` do what they are for exactly
where the key holds no legacy flag; a new admin also has to fit the counter.  `is_paused` and
`get_pause_state` do so on every value. -/
theorem usable_iff_not_legacy {R : Type} [DecidableEq R] :
    (∀ now v, Rbac.hasRole now v = .ok (heldAt now v) ↔ ¬ IsFlag v) ∧
    (∀ now isAdmin (role : R) account e st, Granted now isAdmin role account e st ↔
      ¬ IsFlag (st.role role account) ∧ HasRoom isAdmin role account st) ∧
    (∀ now isAdmin (role : R) account revokedBy roleName st,
      Revoked now isAdmin role account revokedBy roleName st ↔ ¬ IsFlag (st.role role account)) ∧
    (∀ now v, (Pause.isPaused now v).1 = haltedAt now v) ∧
    (∀ now v, ∃ st, Pause.getPauseState now v = .ok (st, (Pause.isPaused now v).2) ∧
      st.isSome = v.isSome ∧ (st.map (·.paused)).getD false = haltedAt now v) ∧
    ∀ now v paused maxDuration unpauseCooldown,
      Switched now v paused maxDuration unpauseCooldown ↔ ¬ IsSwitch v :=
  ⟨fun _ _ => hasRole_iff, fun _ _ _ _ _ _ => granted_iff, fun _ _ _ _ _ _ _ => revoked_iff,
    fun _ _ => isPaused_eq, getPauseState_reads, fun _ _ _ _ _ => switched_iff⟩

/-- A role held, and a pause set, before the structs were introduced: the check of the role and the
write that should end the pause both trap. -/
theorem legacy_flag_traps :
    Rbac.hasRole (.lit 1000) (some (.flag true)) = .error .trap ∧
      Pause.setPausedWithCooldown (.lit 1000) (some (.flag true)) false none none = .error .trap := by
  decide

end Drip.Legacy
