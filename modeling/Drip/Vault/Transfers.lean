import Drip.Vault.Storage

/-!
# Vault — Transfers

The entry points of `contracts/token-vault/src/lib.rs` that move tokens: deposits, withdrawals, the
withdrawals from streams and the emergency migration.

Tokens conform, so the probe of `validate_sep41_token` always succeeds.  The streams are contracts of
any kind: `Streams` says what their calls do to their own state `W` and to the tokens, or that a call
fails.  The host forbids a contract to enter itself again.
-/

namespace Drip.Vault
open Chain

variable {W : Type}

/-- `OWNER_PROPOSAL_TTL_SECONDS`: seven days. -/
def ownerProposalTtlSeconds : U64 := .lit 604800

/-- `EMERGENCY_MIGRATION_TIMELOCK_SECONDS`: two days. -/
def emergencyMigrationTimelockSeconds : U64 := .lit 172800

def maxVaultDeposit : I128 := .lit 1000000000000000000000000000000
def maxStreamBatchWithdrawals : Nat := 10

/-- What an entry point returns. -/
inductive Reply where
  | done
  | settled (b : Bool)
  | amount (v : I128)
  | count (n : U32)
  | flag (b : Bool)
deriving DecidableEq

/-! ### Guards -/

/-- `non_reentrant!`. -/
def nonReentrant (body : State W → Result (Reply × State W)) (s : State W) :
    Result (Reply × State W) := do
  reject (s.store.reentrancyLock.getD false = true) (err .reentrancyDetected)
  let (reply, s) ← body { s with store := { s.store with reentrancyLock := some true } }
  return (reply, { s with store := { s.store with reentrancyLock := none } })

/-- `is_paused`, which may rewrite the flag. -/
def isPaused (env : Env) (s : State W) : Bool × State W :=
  let (paused, stored) := Pause.isPaused env.timestamp s.store.paused
  (paused, { s with store := { s.store with paused := stored } })

def assertNotPaused (env : Env) (s : State W) : Result (State W) := do
  let (paused, s) := isPaused env s
  reject (paused = true) (err .contractPaused)
  return s

def validateSep41Token (token : Address) : Result Unit :=
  reject (isZeroAddress token = true) (err .invalidToken)

def vaultBalance (env : Env) (s : State W) : Result I128 := do
  let token ← okOr s.store.settings.token (err .notInitialized)
  return s.balance token env.contract

def withdrawCap (caller owner : Address) (s : State W) : Result I128 :=
  if caller = owner then .ok (.lit i128Max)
  else do
    reject (s.store.settings.operator ≠ some caller) (err .notAuthorized)
    okOr s.store.settings.operatorWithdrawLimit (err .limitExceeded)

def requireOwnerOrOperator (env : Env) (caller owner : Address) (s : State W) : Result Unit :=
  if caller = owner ∨ s.store.settings.operator = some caller then requireAuth env caller
  else .error (err .notAuthorized)

/-- `caller == owner`, and its authorization. -/
def requireOwner (env : Env) (caller : Address) (s : State W) : Result Unit := do
  let owner ← okOr s.store.settings.owner (err .notInitialized)
  reject (caller ≠ owner) (err .notAuthorized)
  requireAuth env caller

/-! ### Deposits -/

/-- An entry that would overflow is left as it is. -/
def creditAccount (token account : Address) (amount : I128) (s : State W) : State W :=
  match (s.store.funds.getTokenAccountBalance token account).checkedAdd amount with
  | some credited => setTokenAccountBalance token account credited s
  | none => s

def deposit (env : Env) (src : Address) (amount : I128) : State W → Result (Reply × State W) :=
  nonReentrant fun s => do
    let s ← assertNotPaused env s
    let owner ← okOr s.store.settings.owner (err .notInitialized)
    requireOwnerOrOperator env src owner s
    reject (amount.val ≤ 0) (err .invalidAmount)
    reject (maxVaultDeposit < amount) (err .depositExceedsMax)
    let balance ← vaultBalance env s
    let token ← okOr s.store.settings.token (err .notInitialized)
    reject (s.store.settings.isTokenApproved token = false) (err .tokenNotApproved)
    let max ← okOr s.store.settings.maxLimit (err .notInitialized)
    let expected ← okOr (balance.checkedAdd amount) (err .arithmeticOverflow)
    reject (max < expected) (err .limitExceeded)
    reject (s.store.funds.checkVaultBalance env token balance = false) (err .vaultBalanceChanged)
    let s ← transfer s ⟨token, src, env.contract, amount⟩
    let newBalance := s.balance token env.contract
    reject (max < newBalance) (err .limitExceeded)
    reject (newBalance ≠ expected) (err .depositTransferFailed)
    let s := creditAccount token src amount s
    let s := recordVaultBalance env token newBalance s
    return (.done, s.publish (.deposited src amount newBalance))

def depositWithFee (env : Env) (src : Address) (grossAmount feeAmount : I128) (s : State W) :
    Result (Reply × State W) := do
  reject (feeAmount.val < 0 ∨ grossAmount.val ≤ 0 ∨ grossAmount ≤ feeAmount) (err .invalidAmount)
  reject (maxVaultDeposit < grossAmount) (err .depositExceedsMax)
  let netAmount ← okOr (grossAmount.checkedSub feeAmount) (err .arithmeticOverflow)
  let (_, s) ← deposit env src netAmount s
  return (.done, s.publish (.tokenDeposited src grossAmount feeAmount netAmount))

/-- The checks of one deposit of a batch, and the total so far. -/
def addDeposit (env : Env) (total : I128) (d : DepositSpec) : Result I128 := do
  reject (d.amount.val ≤ 0) (err .invalidAmount)
  reject (maxVaultDeposit < d.amount) (err .depositExceedsMax)
  requireAuth env d.src
  okOr (total.checkedAdd d.amount) (err .arithmeticOverflow)

/-- The transfer of one deposit of a batch. -/
def takeDeposit (env : Env) (token : Address) (s : State W) (d : DepositSpec) : Result (State W) := do
  let s ← transfer s ⟨token, d.src, env.contract, d.amount⟩
  return s.publish (.deposited d.src d.amount (s.balance token env.contract))

def batchDeposit (env : Env) (deposits : List DepositSpec) : State W → Result (Reply × State W) :=
  nonReentrant fun s => do
    let s ← assertNotPaused env s
    reject (deposits = []) (err .invalidAmount)
    let _ ← okOr s.store.settings.owner (err .notInitialized)
    let max ← okOr s.store.settings.maxLimit (err .notInitialized)
    let total ← deposits.foldlM (addDeposit env) (.lit 0)
    let balance ← vaultBalance env s
    let token ← okOr s.store.settings.token (err .notInitialized)
    reject (s.store.settings.isTokenApproved token = false) (err .tokenNotApproved)
    let expected ← okOr (balance.checkedAdd total) (err .arithmeticOverflow)
    reject (max < expected) (err .limitExceeded)
    reject (s.store.funds.checkVaultBalance env token balance = false) (err .vaultBalanceChanged)
    let s ← deposits.foldlM (takeDeposit env token) s
    let finalBalance := s.balance token env.contract
    reject (max < finalBalance) (err .limitExceeded)
    reject (finalBalance ≠ expected) (err .depositTransferFailed)
    return (.done, recordVaultBalance env token finalBalance s)

/-- The check of the token's own limit, where it has one. -/
def checkTokenMaxLimit (token : Address) (balance amount : I128) (s : State W) : Result Unit :=
  match s.store.settings.tokenMaxLimit token with
  | some max => do
      let expected ← okOr (balance.checkedAdd amount) (err .arithmeticOverflow)
      reject (max < expected) (err .limitExceeded)
  | none => .ok ()

def depositToken (env : Env) (src token : Address) (amount : I128) :
    State W → Result (Reply × State W) :=
  nonReentrant fun s => do
    let s ← assertNotPaused env s
    let owner ← okOr s.store.settings.owner (err .notInitialized)
    requireOwnerOrOperator env src owner s
    reject (amount.val ≤ 0) (err .invalidAmount)
    reject (maxVaultDeposit < amount) (err .depositExceedsMax)
    reject (s.store.settings.isTokenApproved token = false) (err .tokenNotApproved)
    let before := s.balance token env.contract
    reject (s.store.funds.checkVaultBalance env token before = false) (err .vaultBalanceChanged)
    checkTokenMaxLimit token before amount s
    let s ← transfer s ⟨token, src, env.contract, amount⟩
    let after := s.balance token env.contract
    let expected ← okOr (before.checkedAdd amount) (err .arithmeticOverflow)
    reject (after ≠ expected) (err .depositTransferFailed)
    let s := recordVaultBalance env token after s
    let credited ← okOr ((s.store.funds.getTokenAccountBalance token src).checkedAdd amount)
      (err .arithmeticOverflow)
    let s := setTokenAccountBalance token src credited s
    return (.done, s.publish (.deposited src amount (s.balance token env.contract)))

/-- `deposit_with_failure_report`: a transfer that fails is reported, and the call goes through. -/
def depositWithFailureReport (env : Env) (src : Address) (amount : I128) :
    State W → Result (Reply × State W) :=
  nonReentrant fun s => do
    let s ← assertNotPaused env s
    let owner ← okOr s.store.settings.owner (err .notInitialized)
    requireOwnerOrOperator env src owner s
    reject (amount.val ≤ 0) (err .invalidAmount)
    reject (maxVaultDeposit < amount) (err .depositExceedsMax)
    let token ← okOr s.store.settings.token (err .notInitialized)
    reject (s.store.settings.isTokenApproved token = false) (err .tokenNotApproved)
    let before := s.balance token env.contract
    let max ← okOr s.store.settings.maxLimit (err .notInitialized)
    let expected ← okOr (before.checkedAdd amount) (err .arithmeticOverflow)
    reject (max < expected) (err .limitExceeded)
    reject (s.store.funds.checkVaultBalance env token before = false) (err .vaultBalanceChanged)
    match transfer s ⟨token, src, env.contract, amount⟩ with
    | .error _ => return (.settled false, s.publish (.vaultDepositFailed src token amount (.lit 1)))
    | .ok s => do
        let after := s.balance token env.contract
        reject (after ≠ expected) (err .depositTransferFailed)
        let credited ← okOr ((s.store.funds.getTokenAccountBalance token src).checkedAdd amount)
          (err .arithmeticOverflow)
        let s := setTokenAccountBalance token src credited s
        let s := recordVaultBalance env token after s
        return (.settled true, s.publish (.deposited src amount after))

/-! ### Withdrawals -/

/-- The check of one payout, and the total so far. -/
def addPayout (total : I128) (p : Address × I128) : Result I128 := do
  reject (p.2.val ≤ 0) (err .invalidAmount)
  okOr (total.checkedAdd p.2) (err .arithmeticOverflow)

/-- One payout, and the balance expected after it. -/
def payOut (env : Env) (caller token : Address) (byOperator : Bool) (x : I128 × State W)
    (p : Address × I128) : Result (I128 × State W) := do
  let expected ← okOr (x.1.checkedSub p.2) (err .arithmeticOverflow)
  let s ← transfer x.2 ⟨token, env.contract, p.1, p.2⟩
  let newBalance ← vaultBalance env s
  reject (newBalance ≠ expected) (err .withdrawTransferFailed)
  let s := recordVaultBalance env token newBalance s
  return (expected, s.publish (.withdrawn caller p.1 p.2 newBalance byOperator))

def withdrawPayouts (env : Env) (caller : Address) (payouts : List (Address × I128)) :
    State W → Result (Reply × State W) :=
  nonReentrant fun s => do
    let s ← assertNotPaused env s
    let owner ← okOr s.store.settings.owner (err .notInitialized)
    requireOwnerOrOperator env caller owner s
    reject (payouts = []) (err .invalidAmount)
    let token ← okOr s.store.settings.token (err .notInitialized)
    validateSep41Token token
    let total ← payouts.foldlM addPayout (.lit 0)
    let cap ← withdrawCap caller owner s
    reject (cap < total) (err .limitExceeded)
    let balance ← vaultBalance env s
    reject (balance < total) (err .limitExceeded)
    let (_, s) ← payouts.foldlM (payOut env caller token (decide (caller ≠ owner))) (balance, s)
    return (.done, s)

def withdraw (env : Env) (caller dst : Address) (amount : I128) :
    State W → Result (Reply × State W) := withdrawPayouts env caller [(dst, amount)]

def withdrawBatch (env : Env) (caller : Address) (payouts : List (Address × I128)) :
    State W → Result (Reply × State W) := withdrawPayouts env caller payouts

/-- An entry that is too small is left as it is. -/
def debitAccount (token account : Address) (amount : I128) (s : State W) : Result (State W) :=
  let held := s.store.funds.getTokenAccountBalance token account
  if amount ≤ held then do
    let debited ← okOr (held.checkedSub amount) .trap
    return setTokenAccountBalance token account debited s
  else .ok s

def withdrawToken (env : Env) (caller token dst : Address) (amount : I128) :
    State W → Result (Reply × State W) :=
  nonReentrant fun s => do
    let s ← assertNotPaused env s
    let owner ← okOr s.store.settings.owner (err .notInitialized)
    requireOwnerOrOperator env caller owner s
    reject (amount.val ≤ 0) (err .invalidAmount)
    let cap ← withdrawCap caller owner s
    reject (cap < amount) (err .limitExceeded)
    let vaultBal := s.balance token env.contract
    reject (vaultBal < amount) (err .limitExceeded)
    let held := s.store.funds.getTokenAccountBalance token caller
    reject (caller ≠ owner ∧ held < amount) (err .limitExceeded)
    let s ← transfer s ⟨token, env.contract, dst, amount⟩
    let s ← debitAccount token caller amount s
    let newVaultBal := s.balance token env.contract
    let expected ← okOr (vaultBal.checkedSub amount) (err .arithmeticOverflow)
    reject (newVaultBal ≠ expected) (err .withdrawTransferFailed)
    let s := recordVaultBalance env token newVaultBal s
    return (.done, s.publish (.withdrawn caller dst amount newVaultBal (decide (caller ≠ owner))))

/-! ### Withdrawals from streams -/

/-- A call of another contract: its value, its state and the tokens after it, or nothing where it
fails. -/
abbrev Visit (W α : Type) := W × Ledger → Option (α × W × Ledger)

/-- The entry points of a stream that the vault calls. -/
structure Streams (W : Type) where
  recipient : Env → Address → Visit W Address
  withdrawable : Env → Address → Visit W I128
  withdraw : Env → Address → I128 → Visit W Unit

/-- A `try_` call, where `f` is what the contract at the address does. -/
def callStream {α : Type} (env : Env) (stream : Address) (f : Visit W α) (s : State W) :
    Result (α × State W) := do
  reject (stream = env.contract) (err .streamCallFailed)
  let (a, world, tokens) ← okOr (f (s.world, s.tokens)) (err .streamCallFailed)
  return (a, { s with world := world, tokens := tokens })

/-- What `vault_batch_withdraw` has found so far. -/
structure Collected (W : Type) where
  seen : List Address := []
  total : I128 := .lit 0
  payouts : List (Address × I128) := []
  state : State W

/-- What one stream has for the recipient. -/
def collect (streams : Streams W) (env : Env) (recipient : Address) (x : Collected W)
    (stream : Address) : Result (Collected W) := do
  reject (stream ∈ x.seen) (err .invalidStreamBatch)
  let (streamRecipient, s) ← callStream env stream (streams.recipient env stream) x.state
  reject (streamRecipient ≠ recipient) (err .notAuthorized)
  let (amount, s) ← callStream env stream (streams.withdrawable env stream) s
  reject (amount.val < 0) (err .invalidAmount)
  if amount.val = 0 then return ⟨x.seen ++ [stream], x.total, x.payouts, s⟩
  else do
    let total ← okOr (x.total.checkedAdd amount) (err .arithmeticOverflow)
    return ⟨x.seen ++ [stream], total, x.payouts ++ [(stream, amount)], s⟩

def withdrawStream (streams : Streams W) (env : Env) (s : State W) (p : Address × I128) :
    Result (State W) := do
  let (_, s) ← callStream env p.1 (streams.withdraw env p.1 p.2) s
  return s

def vaultBatchWithdraw (streams : Streams W) (env : Env) (streamIds : List Address)
    (recipient : Address) (s : State W) : Result (Reply × State W) := do
  reject (streamIds = [] ∨ maxStreamBatchWithdrawals < streamIds.length) (err .invalidStreamBatch)
  let s ← assertNotPaused env s
  nonReentrant (fun s => do
    let x ← streamIds.foldlM (collect streams env recipient) { state := s }
    let s ← x.payouts.foldlM (withdrawStream streams env) x.state
    return (.amount x.total, s)) s

/-! ### Emergency migration -/

def initiateEmergencyMigration (env : Env) (caller destination : Address) (s : State W) :
    Result (Reply × State W) := do
  requireOwner env caller s
  reject (isZeroAddress destination = true) (err .invalidParam)
  let executableAt ← okOr (env.timestamp.checkedAdd emergencyMigrationTimelockSeconds)
    (err .arithmeticOverflow)
  let s := s.withSettings { s.store.settings with
    emergencyMigration := some ⟨destination, env.timestamp, executableAt⟩ }
  return (.done, s.publish (.emergencyMigrationInitiated caller destination executableAt))

/-- A transfer of nothing is left out. -/
def transferPositive (s : State W) (t : Transfer) : Result (State W) :=
  if 0 < t.amount.val then transfer s t else .ok s

/-- `execute_emergency_migration`: all of the vault's balance of its own token. -/
def executeEmergencyMigration (env : Env) (caller : Address) : State W → Result (Reply × State W) :=
  nonReentrant fun s => do
    requireOwner env caller s
    let migration ← okOr s.store.settings.emergencyMigration (err .noMigrationProposed)
    reject (env.timestamp < migration.executableAt) (err .timelockNotExpired)
    let token ← okOr s.store.settings.token (err .notInitialized)
    let balance := s.balance token env.contract
    let s ← transferPositive s ⟨token, env.contract, migration.destination, balance⟩
    let s := s.withSettings { s.store.settings with emergencyMigration := none }
    return (.amount balance,
      s.publish (.emergencyMigrationExecuted caller migration.destination balance))

def cancelEmergencyMigration (env : Env) (caller : Address) (s : State W) :
    Result (Reply × State W) := do
  requireOwner env caller s
  let _ ← okOr s.store.settings.emergencyMigration (err .noMigrationProposed)
  let s := s.withSettings { s.store.settings with emergencyMigration := none }
  return (.done, s.publish (.emergencyMigrationCancelled caller))

end Drip.Vault
