import Drip.Governor.Storage

/-!
# Governor — Roles

`contracts/governor/src/role.rs`, and the entry points of `lib.rs` for role administration, the
handoff of the admin role, and the pause of the governor and of its factory.

`Host` is what a call learns from outside: whether the factory accepts a call.  The host forbids the
factory to enter the governor again.
-/

namespace Drip.Governor
open Chain

structure Host where
  /-- `try_invoke_contract` of the factory's `pause` (`true`) or `unpause`, and whether it succeeds -/
  callFactory : Address → Bool → Bool

/-! ### `role.rs` -/

/-- The contract's own error for one of the shared module. -/
def ofRbac : Failure Rbac.RbacError → Failure Error
  | .contract .lastAdmin => err .lastAdmin
  | .contract .notAuthorized => err .notAuthorized
  | .trap => .trap

def State.withRoles (s : State) (roles : Rbac.Records Role) : State :=
  { s with store := { s.store with roles := roles } }

def hasRole (env : Env) (role : Role) (account : Address) (s : State) : Result Bool :=
  (Rbac.hasRole env.timestamp (s.store.roles.role role account)).mapError ofRbac

def grantWithExpiration (env : Env) (role : Role) (account : Address) (expiresAt : Option U64)
    (s : State) : Result (Bool × State) := do
  let (granted, roles) ← (Rbac.grantWithExpiration env.timestamp (decide (role = .admin)) role
    account expiresAt s.store.roles).mapError ofRbac
  return (granted, s.withRoles roles)

def grant (env : Env) (role : Role) (account : Address) (s : State) : Result (Bool × State) :=
  grantWithExpiration env role account none s

def revoke (env : Env) (role : Role) (account : Address) (s : State) : Result (Bool × State) := do
  let (event, roles) ← (Rbac.revoke env.timestamp (decide (role = .admin)) role account
    s.store.roles).mapError ofRbac
  match event with
  | some e => return (true, (s.withRoles roles).publish (.roleRevoked e))
  | none => return (false, s.withRoles roles)

def requireRole (env : Env) (caller : Address) (role : Role) (s : State) : Result Unit :=
  (Rbac.requireRole env caller role s.store.roles).mapError ofRbac

/-- `require_executor`. -/
def requireExecutor (env : Env) (caller : Address) (s : State) : Result Unit :=
  requireRole env caller .executor s

def requireRoleOrAdmin (env : Env) (caller : Address) (role : Role) (s : State) : Result Unit :=
  (Rbac.requireRoleOrAdmin env caller role .admin s.store.roles).mapError ofRbac

/-! ### The pause flag -/

/-- `is_paused`, which may rewrite the flag. -/
def isPaused (env : Env) (s : State) : Bool × State :=
  let (paused, stored) := Pause.isPaused env.timestamp s.store.paused
  (paused, { s with store := { s.store with paused := stored } })

/-- `set_paused`: a refusal by the shared helper is ignored, a trap is not. -/
def setPaused (env : Env) (paused : Bool) (s : State) : Result State :=
  match Pause.setPaused env.timestamp s.store.paused paused with
  | .ok stored => .ok { s with store := { s.store with paused := stored } }
  | .error (.contract _) => .ok s
  | .error .trap => .error .trap

def assertNotPaused (env : Env) (s : State) : Result State := do
  let (paused, s) := isPaused env s
  reject (paused = true) (err .contractPaused)
  return s

def governorPause (env : Env) (caller : Address) (s : State) : Result State := do
  requireRoleOrAdmin env caller .pauser s
  let (paused, s) := isPaused env s
  reject (paused = true) (err .alreadyPaused)
  let s ← setPaused env true s
  return s.publish (.paused caller env.timestamp)

def governorUnpause (env : Env) (caller : Address) (s : State) : Result State := do
  requireRoleOrAdmin env caller .pauser s
  let (paused, s) := isPaused env s
  reject (paused = false) (err .notPaused)
  let s ← setPaused env false s
  return s.publish (.unpaused caller env.timestamp)

def pauseFactory (host : Host) (env : Env) (caller : Address) (s : State) : Result State := do
  requireRoleOrAdmin env caller .pauser s
  let factory ← okOr s.store.params.factoryAddress (err .notInitialized)
  reject (host.callFactory factory true = false) (err .factoryCallFailed)
  return s.publish (.factoryPaused caller env.timestamp)

def unpauseFactory (host : Host) (env : Env) (caller : Address) (s : State) : Result State := do
  requireRoleOrAdmin env caller .pauser s
  let factory ← okOr s.store.params.factoryAddress (err .notInitialized)
  reject (host.callFactory factory false = false) (err .factoryCallFailed)
  return s.publish (.factoryUnpaused caller env.timestamp)

/-! ### Role administration -/

/-- The event of a role that is newly held. -/
def announceGrant (caller : Address) (role : Role) (account : Address) (r : Bool × State) : State :=
  if r.1 then r.2.publish (.grantRole caller role account) else r.2

/-- The event of a role that has been removed. -/
def announceRevoke (caller : Address) (role : Role) (account : Address) (r : Bool × State) : State :=
  if r.1 then r.2.publish (.revokeRole caller role account) else r.2

def grantRoleWithExpiration (env : Env) (caller : Address) (role : Role) (account : Address)
    (expiresAt : Option U64) (s : State) : Result State := do
  requireRole env caller .admin s
  reject ((role = .admin ∧ expiresAt.isSome = true) ∨ ∃ t ∈ expiresAt, t ≤ env.timestamp)
    (err .invalidParam)
  let r ← grantWithExpiration env role account expiresAt s
  return announceGrant caller role account r

def grantRole (env : Env) (caller : Address) (role : Role) (account : Address) (s : State) :
    Result State := do
  requireRole env caller .admin s
  let r ← grant env role account s
  return announceGrant caller role account r

def revokeRole (env : Env) (caller : Address) (role : Role) (account : Address) (s : State) :
    Result State := do
  requireRole env caller .admin s
  let r ← revoke env role account s
  return announceRevoke caller role account r

def grantRoleBatch (env : Env) (caller : Address) (role : Role) (accounts : List Address)
    (s : State) : Result State := do
  requireRole env caller .admin s
  accounts.foldlM (fun s account => do
    let r ← grant env role account s
    return announceGrant caller role account r) s

def revokeRoleBatch (env : Env) (caller : Address) (role : Role) (accounts : List Address)
    (s : State) : Result State := do
  requireRole env caller .admin s
  accounts.foldlM (fun s account => do
    let r ← revoke env role account s
    return announceRevoke caller role account r) s

/-! ### The handoff of the admin role -/

def transferAuthority (env : Env) (caller newAuthority : Address) (s : State) : Result State := do
  reject (newAuthority = caller ∨ isZeroAddress newAuthority = true) (err .invalidParam)
  let held ← hasRole env .admin newAuthority s
  reject (held = true) (err .invalidParam)
  requireRole env caller .admin s
  let (_, s) ← grant env .admin newAuthority s
  let (_, s) ← revoke env .admin caller s
  return s.publish (.transferAuthority caller newAuthority)

/-- The pending handoff that `propose_authority` and `propose_admin` store. -/
def State.withPending (s : State) (pending proposer : Option Address) : State :=
  { s with store := { s.store with
    pendingAuthority := pending, pendingAuthorityProposer := proposer } }

def proposeAuthority (env : Env) (caller newAuthority : Address) (s : State) : Result State := do
  reject (isZeroAddress newAuthority = true) (err .invalidParam)
  let held ← hasRole env .admin newAuthority s
  reject (held = true) (err .invalidParam)
  requireRole env caller .admin s
  reject (s.store.pendingAuthority.isSome = true) (err .adminTransferAlreadyInProgress)
  return (s.withPending (some newAuthority) (some caller)).publish
    (.proposeAuthority caller newAuthority)

/-- `propose_admin`: as `propose_authority`, with the checks in another order and without the one for
the zero address. -/
def proposeAdmin (env : Env) (proposer newAdmin : Address) (s : State) : Result State := do
  requireRole env proposer .admin s
  reject (s.store.pendingAuthority.isSome = true) (err .adminTransferAlreadyInProgress)
  let held ← hasRole env .admin newAdmin s
  reject (held = true) (err .invalidParam)
  return (s.withPending (some newAdmin) (some proposer)).publish (.proposeAuthority proposer newAdmin)

def revokeProposeAuthority (env : Env) (caller : Address) (s : State) : Result State := do
  requireRole env caller .admin s
  let pending ← okOr s.store.pendingAuthority (err .noPendingAuthority)
  return (s.withPending none none).publish (.revokeProposeAuthority caller pending)

/-- `revoke_propose_admin`, with the same body. -/
def revokeProposeAdmin (env : Env) (caller : Address) (s : State) : Result State :=
  revokeProposeAuthority env caller s

def acceptAuthority (env : Env) (caller : Address) (s : State) : Result State := do
  let pending ← okOr s.store.pendingAuthority (err .noPendingAuthority)
  reject (caller ≠ pending) (err .notPendingAuthority)
  requireAuth env caller
  let proposer ← okOr s.store.pendingAuthorityProposer (err .noPendingAuthority)
  let (_, s) ← grant env .admin caller s
  let (_, s) ← revoke env .admin proposer s
  return (s.withPending none none).publish (.acceptAuthority caller proposer)

/-- `claim_admin`, with the same body. -/
def claimAdmin (env : Env) (claimer : Address) (s : State) : Result State :=
  acceptAuthority env claimer s

/-- `upgrade`; the code it installs is not modelled. -/
def upgrade (env : Env) (caller : Address) (newWasmHash : BitVec 256) (s : State) :
    Result State := do
  requireRole env caller .admin s
  let s ← assertNotPaused env s
  reject (newWasmHash = 0) (err .invalidWasmHash)
  return s.publish (.upgraded caller env.timestamp)

end Drip.Governor
