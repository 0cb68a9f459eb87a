import Drip.Vault.Transfers

/-!
# Vault — Control

The other entry points of `contracts/token-vault/src/lib.rs`: who controls the vault, within which
bounds, and the pause.  The lifetimes of storage entries are left out; `bump_all_vault_keys` counts the
entries it would renew.
-/

namespace Drip.Vault
open Chain

variable {W : Type}

/-! ### Setup and limits -/

/-- `initialize`. -/
def initializeVault (env : Env) (owner token : Address) (maxLimit : I128) (s : State W) :
    Result (Reply × State W) := do
  requireAuth env owner
  reject (maxLimit.val ≤ 0) (err .invalidAmount)
  validateSep41Token token
  reject (s.store.settings.owner.isSome = true) (err .alreadyInitialized)
  let settings := { s.store.settings.setTokenApproved token true with
    owner := some owner
    token := some token
    maxLimit := some maxLimit
    ownerProposalTtl := some ownerProposalTtlSeconds }
  return (.done, (s.withSettings settings).publish (.initialized owner token maxLimit))

def setOperatorWithdrawLimit (env : Env) (caller : Address) (newLimit : I128) (s : State W) :
    Result (Reply × State W) := do
  let s ← assertNotPaused env s
  requireOwner env caller s
  reject (newLimit.val ≤ 0) (err .invalidAmount)
  let oldLimit := s.store.settings.operatorWithdrawLimit.getD (.lit 0)
  let s := s.withSettings { s.store.settings with operatorWithdrawLimit := some newLimit }
  return (.done, s.publish (.operatorWithdrawLimitSet caller oldLimit newLimit))

/-- The operator may lower the limit, and only the owner may raise it. -/
def authorizeLimit (env : Env) (caller owner : Address) (oldLimit newLimit : I128) (s : State W) :
    Result Unit :=
  if oldLimit < newLimit then do
    reject (caller ≠ owner) (err .notAuthorized)
    requireAuth env caller
  else requireOwnerOrOperator env caller owner s

def setLimit (env : Env) (caller : Address) (newLimit : I128) (s : State W) :
    Result (Reply × State W) := do
  let s ← assertNotPaused env s
  let owner ← okOr s.store.settings.owner (err .notInitialized)
  reject (newLimit.val ≤ 0) (err .invalidAmount)
  let balance ← vaultBalance env s
  reject (newLimit < balance) (err .limitExceeded)
  let oldLimit ← okOr s.store.settings.maxLimit (err .arithmeticOverflow)
  authorizeLimit env caller owner oldLimit newLimit s
  let s := s.withSettings { s.store.settings with maxLimit := some newLimit }
  return (.done, s.publish (.limitSet caller oldLimit newLimit))

def setTokenMaxLimit (env : Env) (caller token : Address) (limit : I128) (s : State W) :
    Result (Reply × State W) := do
  let s ← assertNotPaused env s
  let owner ← okOr s.store.settings.owner (err .notInitialized)
  requireOwnerOrOperator env caller owner s
  reject (limit.val ≤ 0) (err .invalidAmount)
  let s := s.withSettings (s.store.settings.setTokenMaxLimit token limit)
  return (.done, trackVaultKey (.tokenMaxLimit token) s)

/-- `approve_token`, with `validate_sep41_token` for an approval. -/
def approveToken (env : Env) (caller token : Address) (approved : Bool) (s : State W) :
    Result (Reply × State W) := do
  requireOwner env caller s
  reject (approved = true ∧ isZeroAddress token = true) (err .invalidToken)
  let s := s.withSettings (s.store.settings.setTokenApproved token approved)
  return (.done, s.publish (.tokenApprovalChanged token approved))

/-! ### The operator and the owner -/

def setOperator (env : Env) (caller operator : Address) (s : State W) : Result (Reply × State W) := do
  requireOwner env caller s
  let s := s.withSettings { s.store.settings with operator := some operator }
  return (.done, s.publish (.operatorSet caller operator))

def revokeOperator (env : Env) (caller : Address) (s : State W) : Result (Reply × State W) := do
  requireOwner env caller s
  let s := s.withSettings { s.store.settings with operator := none }
  return (.done, s.publish (.operatorRevoked caller))

def proposeOwner (env : Env) (caller newOwner : Address) (s : State W) :
    Result (Reply × State W) := do
  requireOwner env caller s
  reject (isZeroAddress newOwner = true) (err .invalidParam)
  let s := s.withSettings { s.store.settings with
    pendingOwner := some newOwner
    pendingOwnerProposer := some caller
    pendingOwnerProposedAt := some env.timestamp }
  return (.done, s.publish (.ownerProposed caller newOwner))

def acceptOwner (env : Env) (caller : Address) (s : State W) : Result (Reply × State W) := do
  let pending ← okOr s.store.settings.pendingOwner (err .noPendingOwner)
  reject (caller ≠ pending) (err .notPendingOwner)
  requireAuth env caller
  let proposedAt ← okOr s.store.settings.pendingOwnerProposedAt (err .pendingOwnerExpired)
  let proposalTtl := s.store.settings.ownerProposalTtl.getD ownerProposalTtlSeconds
  let expiresAt ← okOr (proposedAt.checkedAdd proposalTtl) (err .arithmeticOverflow)
  reject (expiresAt ≤ env.timestamp) (err .pendingOwnerExpired)
  let proposer ← okOr s.store.settings.pendingOwnerProposer (err .noPendingOwner)
  let s := s.withSettings { s.store.settings with
    owner := some caller
    pendingOwner := none
    pendingOwnerProposer := none
    pendingOwnerProposedAt := none }
  return (.done, s.publish (.ownerAccepted caller proposer))

def setOwnerProposalTtl (env : Env) (caller : Address) (ttlSeconds : U64) (s : State W) :
    Result (Reply × State W) := do
  requireOwner env caller s
  reject (ttlSeconds.val = 0) (err .invalidAmount)
  let oldTtl := s.store.settings.ownerProposalTtl.getD ownerProposalTtlSeconds
  let s := s.withSettings { s.store.settings with ownerProposalTtl := some ttlSeconds }
  return (.done, s.publish (.ownerProposalTtlSet caller oldTtl ttlSeconds))

/-- `effective_withdraw_limit`, a read that may rewrite the pause flag. -/
def effectiveWithdrawLimit (env : Env) (caller : Address) (s : State W) :
    Result (Reply × State W) := do
  let s ← assertNotPaused env s
  let owner ← okOr s.store.settings.owner (err .notInitialized)
  let cap ← withdrawCap caller owner s
  let balance ← vaultBalance env s
  return (.amount (min balance cap), s)

/-! ### The pause -/

/-- `set_paused`: a refusal by the shared helper is ignored, a trap is not. -/
def setPaused (env : Env) (paused : Bool) (s : State W) : Result (State W) :=
  match Pause.setPaused env.timestamp s.store.paused paused with
  | .ok stored => .ok { s with store := { s.store with paused := stored } }
  | .error (.contract _) => .ok s
  | .error .trap => .error .trap

def pause (env : Env) (caller : Address) (s : State W) : Result (Reply × State W) := do
  requireOwner env caller s
  let (paused, s) := isPaused env s
  reject (paused = true) (err .alreadyPaused)
  let s ← setPaused env true s
  return (.done, s.publish (.paused caller env.timestamp))

def unpause (env : Env) (caller : Address) (s : State W) : Result (Reply × State W) := do
  requireOwner env caller s
  let (paused, s) := isPaused env s
  reject (paused = false) (err .notPaused)
  let s ← setPaused env false s
  return (.done, s.publish (.unpaused caller env.timestamp))

/-! ### Maintenance -/

/-- `TTL_EXTEND_TO`. -/
def ttlExtendTo : U32 := .lit 200000

def keepAlive (s : State W) : Result (Reply × State W) :=
  .ok (.done, s.publish (.keptAlive ttlExtendTo))

/-- `bump_all_vault_keys`: how many of the tracked entries are there. -/
def bumpAllVaultKeys (s : State W) : Result (Reply × State W) := do
  let _ ← okOr s.store.settings.owner (err .notInitialized)
  let keys := s.store.trackedVaultKeys.getD []
  let count ← okOr (Ranged.ofInt? (keys.countP (TrackedKey.present s.store))) .trap
  return (.count count, s.publish (.vaultKeysRefreshed count))

/-- `upgrade`, up to the code that runs afterwards. -/
def upgrade (env : Env) (caller : Address) (newWasmHash : BitVec 256) (s : State W) :
    Result (Reply × State W) := do
  requireOwner env caller s
  let s ← assertNotPaused env s
  reject (newWasmHash = 0) (err .invalidWasmHash)
  return (.done, s.publish (.upgraded caller env.timestamp))

end Drip.Vault
