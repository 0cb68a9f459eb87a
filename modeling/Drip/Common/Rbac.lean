import Mathlib.Logic.Function.Basic
import Drip.Host.Basic

/-!
# Common — Rbac

`drip_common::rbac`: the roles a contract keeps in instance storage.  Membership is stored three
times: under a key for each role and account, in a list of members for each role, and, for the
admins, in a counter.  `Records` gathers the three; the role type is the contract's own.

A role key holds nothing, a legacy `bool`, or a `RoleAssignment`.  Every function first reads the
key as an assignment, and that read traps on a `bool`; the fallback for booleans in `has_role` comes
after it and is never reached.
-/

namespace Drip.Rbac
open Chain

inductive RbacError where
  | notAuthorized | lastAdmin
deriving DecidableEq

abbrev Result (α : Type) := Outcome RbacError α

structure RoleAssignment where
  expiresAt : Option U64
deriving DecidableEq

/-- What a role key can hold. -/
inductive Stored where
  | flag (b : Bool)
  | assignment (a : RoleAssignment)
deriving DecidableEq

structure RoleRevokedEvent where
  account : Address
  role : Bytes
  revokedBy : Option Address
  revokedAt : U64
deriving DecidableEq

structure Records (R : Type) where
  role : R → Address → Option Stored := fun _ _ => none
  adminCount : Option U32 := none
  members : R → Option (List Address) := fun _ => none

variable {R : Type}

/-- `storage.get::<_, RoleAssignment>`: a typed read. -/
def readAssignment : Option Stored → Result (Option RoleAssignment)
  | none => .ok none
  | some (.flag _) => .error .trap
  | some (.assignment a) => .ok (some a)

/-- An assignment without expiry, or one whose expiry has not come. -/
def RoleAssignment.active (now : U64) (a : RoleAssignment) : Bool :=
  match a.expiresAt with
  | some exp => decide (now < exp)
  | none => true

def hasRole (now : U64) (v : Option Stored) : Result Bool := do
  match ← readAssignment v with
  | some a => return a.active now
  | none => return false

def adminCount (st : Records R) : U32 := st.adminCount.getD (.lit 0)

def roleMembers (st : Records R) (role : R) : List Address := (st.members role).getD []

/-- One admin more, under `if is_admin`. -/
def countAdmin (isAdmin : Bool) (st : Records R) : Result (Records R) :=
  if isAdmin then do
    let next ← okOr ((adminCount st).checkedAdd (.lit 1)) .trap
    return { st with adminCount := some next }
  else return st

/-- One admin less; the last active one stays. -/
def discountAdmin (isAdmin isActive hasExpired : Bool) (st : Records R) : Result (Records R) :=
  if isAdmin && isActive then do
    let count := adminCount st
    reject (count.val ≤ 1) (.contract .lastAdmin)
    let count ← okOr (count.checkedSub (.lit 1)) .trap
    return { st with adminCount := some count }
  else if isAdmin && hasExpired then
    return { st with adminCount := some ((adminCount st).saturatingSub (.lit 1)) }
  else return st

/-- An assignment whose expiry has come. -/
def hasExpiredAssignment (now : U64) (a : Option RoleAssignment) : Bool :=
  match a.bind RoleAssignment.expiresAt with
  | some exp => decide (exp ≤ now)
  | none => false

section

variable [DecidableEq R]

/-- A write of one role key. -/
def Records.setRole (st : Records R) (role : R) (account : Address) (v : Option Stored) :
    Records R :=
  { st with role := Function.update st.role role (Function.update (st.role role) account v) }

/-- A write of one member list. -/
def Records.setMembers (st : Records R) (role : R) (members : List Address) : Records R :=
  { st with members := Function.update st.members role (some members) }

/-- `grant_with_expiration`: whether the role is newly held. -/
def grantWithExpiration (now : U64) (isAdmin : Bool) (role : R) (account : Address)
    (expiresAt : Option U64) (st : Records R) : Result (Bool × Records R) := do
  let wasActive ← hasRole now (st.role role account)
  let assignmentExists := (st.role role account).isSome
  let assigned := st.setRole role account (some (.assignment ⟨expiresAt⟩))
  if wasActive || assignmentExists then return (!wasActive, assigned)
  else do
    let st ← countAdmin isAdmin assigned
    return (true, st.setMembers role (roleMembers st role ++ [account]))

def grant (now : U64) (isAdmin : Bool) (role : R) (account : Address) (st : Records R) :
    Result (Bool × Records R) :=
  grantWithExpiration now isAdmin role account none st

/-- `revoke_with_event`: the event it publishes when it removed the role, which is when it answers
`true`. -/
def revokeWithEvent (now : U64) (isAdmin : Bool) (role : R) (account : Address)
    (revokedBy : Option Address) (roleName : Bytes) (st : Records R) :
    Result (Option RoleRevokedEvent × Records R) := do
  let isActive ← hasRole now (st.role role account)
  let assignment ← readAssignment (st.role role account)
  let hasExpired := hasExpiredAssignment now assignment
  if !isActive && !hasExpired then return (none, st)
  else do
    let st ← discountAdmin isAdmin isActive hasExpired st
    let st := st.setRole role account none
    let st := st.setMembers role ((roleMembers st role).filter fun m => m ≠ account)
    return (some ⟨account, roleName, revokedBy, now⟩, st)

def revoke (now : U64) (isAdmin : Bool) (role : R) (account : Address) (st : Records R) :
    Result (Option RoleRevokedEvent × Records R) :=
  revokeWithEvent now isAdmin role account none [] st

end

/-- `require_role`. -/
def requireRole (env : Env) (caller : Address) (role : R) (st : Records R) : Result Unit := do
  requireAuth env caller
  let held ← hasRole env.timestamp (st.role role caller)
  reject (held = false) (.contract .notAuthorized)

/-- `has_role(admin_key) || has_role(role_key)`: the second key is read only where the first does not
decide. -/
def hasEither (now : U64) (admin role : Option Stored) : Result Bool := do
  let isAdmin ← hasRole now admin
  if isAdmin then return true else hasRole now role

/-- `require_role_or_admin`. -/
def requireRoleOrAdmin (env : Env) (caller : Address) (role admin : R) (st : Records R) :
    Result Unit := do
  requireAuth env caller
  let held ← hasEither env.timestamp (st.role admin caller) (st.role role caller)
  reject (held = false) (.contract .notAuthorized)

end Drip.Rbac
