import Drip.Support.Runs
import Drip.Common.Membership
import Drip.Oracle.Storage

/-!
# Oracle — Roles

The administration of a `TwapOracle`: `contracts/oracle/src/lib.rs` from `initialize` to
`transfer_admin`, with the helpers it shares with the rest of the contract.  A revoked `PriceFeeder`
also loses its submission, and the legacy price is taken from the submissions that remain.

The other entry points write neither the roles nor the first admin.  They are one step here, which
changes the rest of the storage as it likes (`Step.prices`).
-/

namespace Drip.Oracle
open Chain

/-! ### Helpers -/

/-- The contract's own error for one of the shared module. -/
def ofRbac : Failure Rbac.RbacError → Failure Error
  | .contract .lastAdmin => err .lastAdmin
  | .contract .notAuthorized => err .notAuthorized
  | .trap => .trap

/-- The latest of the submissions; of two at one time, the first listed. -/
def latestSubmission (st : Storage) (feeders : List Address) : Option PriceData :=
  feeders.foldl (fun latest feeder =>
    match st.submission feeder, latest with
    | some sub, some cur => if cur.updatedAt < sub.updatedAt then some sub else some cur
    | some sub, none => some sub
    | none, latest => latest) none

def removeSubmitter (account : Address) (st : Storage) : Storage :=
  let st := { st with submission := Function.update st.submission account none }
  let submitters := st.submitters.getD []
  if account ∈ submitters then
    let updated := submitters.filter fun s => s ≠ account
    if updated = [] then { st with submitters := none, price := none }
    else { st with submitters := some updated, price := latestSubmission st updated }
  else st

def grantRoleWithExpirationInner (env : Env) (role : Role) (account : Address)
    (expiresAt : Option U64) (s : State) : Result (Bool × State) := do
  let (granted, roles) ← (Rbac.grantWithExpiration env.timestamp (decide (role = .admin)) role
    account expiresAt s.store.roles).mapError ofRbac
  return (granted, s.withRoles roles)

def grantRoleInner (env : Env) (role : Role) (account : Address) (s : State) :
    Result (Bool × State) :=
  grantRoleWithExpirationInner env role account none s

/-- `revoke_role_inner`: a feeder that loses its role also loses its submission. -/
def revokeRoleInner (env : Env) (role : Role) (account : Address) (s : State) :
    Result (Bool × State) := do
  let (event, roles) ← (Rbac.revoke env.timestamp (decide (role = .admin)) role account
    s.store.roles).mapError ofRbac
  let s := s.withRoles roles
  match event with
  | some e =>
      let s := s.publish (.roleRevoked e)
      if role = .priceFeeder then
        return (true, { s with store := removeSubmitter account s.store })
      else return (true, s)
  | none => return (false, s)

def requireRoleOrAdmin (env : Env) (caller : Address) (role : Role) (s : State) : Result Unit :=
  (Rbac.requireRoleOrAdmin env caller role .admin s.store.roles).mapError ofRbac

/-! ### Entry points -/

/-- `initialize`. -/
def initializeOracle (env : Env) (admin : Address) (s : State) : Result State := do
  reject (s.store.admin.isSome = true) (err .alreadyInitialized)
  let s := { s with store := { s.store with admin := some admin } }
  let (_, s) ← grantRoleInner env .admin admin s
  return s

def grantRoleWithExpiration (env : Env) (caller : Address) (role : Role) (account : Address)
    (expiresAt : Option U64) (s : State) : Result State := do
  requireRoleOrAdmin env caller .admin s
  reject ((role = .admin ∧ expiresAt.isSome = true) ∨ ∃ t ∈ expiresAt, t ≤ env.timestamp)
    (err .invalidRoleExpiration)
  let (granted, s) ← grantRoleWithExpirationInner env role account expiresAt s
  return if granted then s.publish (.grantRole caller role account) else s

def grantRole (env : Env) (caller : Address) (role : Role) (account : Address) (s : State) :
    Result State := do
  requireRoleOrAdmin env caller .admin s
  let (granted, s) ← grantRoleInner env role account s
  return if granted then s.publish (.grantRole caller role account) else s

def revokeRole (env : Env) (caller : Address) (role : Role) (account : Address) (s : State) :
    Result State := do
  requireRoleOrAdmin env caller .admin s
  let (removed, s) ← revokeRoleInner env role account s
  return if removed then s.publish (.revokeRole caller role account) else s

def purgeSubmitter (env : Env) (caller feeder : Address) (s : State) : Result State := do
  requireRoleOrAdmin env caller .admin s
  return { s with store := removeSubmitter feeder s.store }

def transferAdmin (env : Env) (caller newAdmin : Address) (s : State) : Result State := do
  requireRoleOrAdmin env caller .admin s
  let (_, s) ← grantRoleInner env .admin newAdmin s
  let (_, s) ← revokeRoleInner env .admin caller s
  return s.publish (.adminTransferred caller newAdmin)

/-! ### The oracle as a machine -/

inductive Call where
  | initializeOracle (admin : Address)
  | grantRoleWithExpiration (caller : Address) (role : Role) (account : Address)
      (expiresAt : Option U64)
  | grantRole (caller : Address) (role : Role) (account : Address)
  | revokeRole (caller : Address) (role : Role) (account : Address)
  | purgeSubmitter (caller feeder : Address)
  | transferAdmin (caller newAdmin : Address)

/-- The state a call leaves. -/
def exec (env : Env) (s : State) : Call → Result State
  | .initializeOracle admin => initializeOracle env admin s
  | .grantRoleWithExpiration caller role account expiresAt =>
      grantRoleWithExpiration env caller role account expiresAt s
  | .grantRole caller role account => grantRole env caller role account s
  | .revokeRole caller role account => revokeRole env caller role account s
  | .purgeSubmitter caller feeder => purgeSubmitter env caller feeder s
  | .transferAdmin caller newAdmin => transferAdmin env caller newAdmin s

inductive Action where
  | call (env : Env) (c : Call)
  | failed (env : Env) (c : Call)
  | prices (s : State)

inductive Step (here : Address) : State → Action → State → Prop where
  | call {s s' : State} {env : Env} {c : Call} (henv : env.contract = here)
      (h : exec env s c = .ok s') : Step here s (.call env c) s'
  /-- a call that fails is rolled back -/
  | failed {s : State} {env : Env} {c : Call} {e : Failure Error} (henv : env.contract = here)
      (h : exec env s c = .error e) : Step here s (.failed env c) s
  /-- the other entry points, which write neither roles nor the first admin -/
  | prices {s s' : State} (hadmin : s'.store.admin = s.store.admin)
      (hroles : s'.store.roles = s.store.roles) : Step here s (.prices s') s'

def Reachable (here : Address) (s : State) : Prop := ∃ as, Run (Step here) State.fresh as s

/-- `initialize` has been called. -/
def Initialized (s : State) : Prop := s.store.admin.isSome = true

/-! ### A sample oracle

Account 1 is its first admin; the runs below start from its deployment. -/

/-- A call carried out. -/
def perform (s : State) : Action → Option State
  | .call env c => (exec env s c).toOption
  | _ => none

namespace Sample

def address : Address := .contract 7
def admin : Address := .account 1

/-- An invocation at `t` that everyone but the oracle has signed. -/
def envAt (t : U64) : Env := ⟨address, t, .lit 1, fun a => a != address, by decide⟩

def opening : U64 × Call := (.lit 100, .initializeOracle admin)

/-- The initialization and the calls, each at its time. -/
def actions (calls : List (U64 × Call)) : List Action :=
  (opening :: calls).map fun x => .call (envAt x.1) x.2

/-- The oracle after them. -/
def reached (calls : List (U64 × Call)) : State :=
  Run.reached perform State.fresh (actions calls)

theorem run_reached {calls : List (U64 × Call)}
    (h : ((actions calls).foldlM perform State.fresh).isSome = true) :
    Run (Step address) State.fresh (actions calls) (reached calls) := by
  refine Run.run_reached (fun {s a t} hin hperf => ?_) h
  obtain ⟨x, -, rfl⟩ := List.mem_map.mp hin
  exact .call rfl (toOption_eq_some.mp hperf)

end Sample

end Drip.Oracle
