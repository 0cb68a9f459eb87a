import Drip.Common.Pause

/-!
# Vault — Storage

`contracts/token-vault/src/storage.rs`, `errors.rs` and `events.rs`: what a `TokenVault` keeps, the
errors it returns and the events it publishes.  `Storage` has a field for each `DataKey` that some
entry point reads or writes, gathered into the settings and the funds; a key that carries an address is
a function.  `Balance` has no reader, and is left out.  Two of the errors, `TokenNotApproved` and
`VaultBalanceChanged`, are returned in `lib.rs` and expected by `tests.rs`, but not declared in
`errors.rs`.
-/

namespace Drip.Vault
open Chain

inductive Error where
  | invalidAmount | arithmeticOverflow | limitExceeded | notAuthorized | contractPaused | alreadyPaused
  | notPaused | notInitialized | alreadyInitialized | invalidParam | noPendingOwner | notPendingOwner
  | depositTransferFailed | withdrawTransferFailed | invalidWasmHash | pendingOwnerExpired
  | invalidToken | timelockNotExpired | noMigrationProposed | reentrancyDetected | depositExceedsMax
  | invalidStreamBatch | streamCallFailed | tokenNotApproved | vaultBalanceChanged
deriving DecidableEq

/-- The outcome of a vault entry point. -/
abbrev Result (α : Type) := Outcome Error α

/-- `Err(e)`. -/
abbrev err (e : Error) : Failure Error := .contract e

/-! ### Records -/

structure DepositSpec where
  src : Address
  amount : I128
deriving DecidableEq

structure VaultBalanceSnapshot where
  ledger : U32
  expectedBalance : I128
deriving DecidableEq

structure EmergencyMigration where
  destination : Address
  proposedAt : U64
  executableAt : U64
deriving DecidableEq

/-- The keys of persistent storage, which the vault tracks to renew them. -/
inductive TrackedKey where
  | tokenAccountBalance (token account : Address)
  | tokenMaxLimit (token : Address)
deriving DecidableEq

/-- The keys of the owner, its delegate and the bounds they set. -/
structure Settings where
  owner : Option Address := none
  token : Option Address := none
  maxLimit : Option I128 := none
  operator : Option Address := none
  operatorWithdrawLimit : Option I128 := none
  pendingOwner : Option Address := none
  pendingOwnerProposer : Option Address := none
  pendingOwnerProposedAt : Option U64 := none
  ownerProposalTtl : Option U64 := none
  tokenMaxLimit : Address → Option I128 := fun _ => none
  emergencyMigration : Option EmergencyMigration := none
  approvedToken : Address → Option Bool := fun _ => none

/-- The keys of the accounts' balances and of the vault's own. -/
structure Funds where
  tokenAccountBalance : Address → Address → Option I128 := fun _ _ => none
  balanceSnapshot : Address → Option VaultBalanceSnapshot := fun _ => none

structure Storage where
  settings : Settings := {}
  funds : Funds := {}
  paused : Option Pause.Stored := none
  reentrancyLock : Option Bool := none
  trackedVaultKeys : Option (List TrackedKey) := none

/-! ### Events and transfers -/

/-- The payload of each event of `events.rs`, topics first. -/
inductive Event where
  | initialized (owner token : Address) (maxLimit : I128)
  | deposited (src : Address) (amount newBalance : I128)
  | tokenDeposited (src : Address) (grossAmount feeAmount netAmount : I128)
  | withdrawn (caller dst : Address) (amount newBalance : I128) (byOperator : Bool)
  | limitSet (caller : Address) (oldLimit newLimit : I128)
  | operatorWithdrawLimitSet (caller : Address) (oldLimit newLimit : I128)
  | operatorSet (caller operator : Address)
  | operatorRevoked (caller : Address)
  | paused (caller : Address) (pausedAt : U64)
  | unpaused (caller : Address) (resumedAt : U64)
  | upgraded (caller : Address) (upgradedAt : U64)
  | ownerProposed (caller newOwner : Address)
  | ownerAccepted (caller oldOwner : Address)
  | ownerProposalTtlSet (caller : Address) (oldTtl newTtl : U64)
  | emergencyMigrationInitiated (caller destination : Address) (executableAt : U64)
  | emergencyMigrationExecuted (caller destination : Address) (amount : I128)
  | emergencyMigrationCancelled (caller : Address)
  | keptAlive (newTtl : U32)
  | vaultDepositFailed (src token : Address) (amount : I128) (reasonCode : U32)
  | tokenApprovalChanged (token : Address) (approved : Bool)
  | vaultKeysRefreshed (count : U32)
deriving DecidableEq

/-- A transfer the vault issued to a token contract. -/
structure Transfer where
  token : Address
  src : Address
  dst : Address
  amount : I128
deriving DecidableEq

/-! ### The state -/

/-- The vault, the tokens, and the state `W` of the streams. -/
structure State (W : Type) where
  store : Storage
  tokens : Ledger
  world : W
  events : List Event := []
  transfers : List Transfer := []

namespace State

variable {W : Type}

/-- A vault as deployed, before `initialize`. -/
def fresh (tokens : Ledger) (world : W) : State W := { store := {}, tokens := tokens, world := world }

def publish (s : State W) (e : Event) : State W := { s with events := s.events ++ [e] }

def withSettings (s : State W) (settings : Settings) : State W :=
  { s with store := { s.store with settings := settings } }

def withFunds (s : State W) (funds : Funds) : State W :=
  { s with store := { s.store with funds := funds } }

def balance (s : State W) (token holder : Address) : I128 := (s.tokens.balance token holder).widen

end State

variable {W : Type}

/-- `token::Client::transfer`; a failed token call traps. -/
def transfer (s : State W) (t : Transfer) : Result (State W) := do
  let tokens ← okOr (s.tokens.transfer t.token t.src t.dst t.amount) .trap
  return { s with tokens := tokens, transfers := s.transfers ++ [t] }

/-! ### Persistent entries -/

/-- `track_vault_key`. -/
def trackVaultKey (key : TrackedKey) (s : State W) : State W :=
  let keys := s.store.trackedVaultKeys.getD []
  if key ∈ keys then s
  else { s with store := { s.store with trackedVaultKeys := some (keys ++ [key]) } }

namespace Funds

def getTokenAccountBalance (funds : Funds) (token account : Address) : I128 :=
  (funds.tokenAccountBalance token account).getD (.lit 0)

def setTokenAccountBalance (funds : Funds) (token account : Address) (balance : I128) : Funds :=
  let balances := Function.update (funds.tokenAccountBalance token) account (some balance)
  { funds with tokenAccountBalance := Function.update funds.tokenAccountBalance token balances }

/-- `check_vault_balance`: a balance that differs from the one last verified in this ledger is not to be
relied on. -/
def checkVaultBalance (env : Env) (funds : Funds) (token : Address) (balance : I128) : Bool :=
  match funds.balanceSnapshot token with
  | some snapshot =>
      if snapshot.ledger = env.sequence then decide (snapshot.expectedBalance = balance) else true
  | none => true

def recordVaultBalance (env : Env) (funds : Funds) (token : Address) (balance : I128) : Funds :=
  let snapshot : VaultBalanceSnapshot := ⟨env.sequence, balance⟩
  { funds with balanceSnapshot := Function.update funds.balanceSnapshot token (some snapshot) }

end Funds

def setTokenAccountBalance (token account : Address) (balance : I128) (s : State W) : State W :=
  trackVaultKey (.tokenAccountBalance token account)
    (s.withFunds (s.store.funds.setTokenAccountBalance token account balance))

def recordVaultBalance (env : Env) (token : Address) (balance : I128) (s : State W) : State W :=
  s.withFunds (s.store.funds.recordVaultBalance env token balance)

namespace Settings

def isTokenApproved (settings : Settings) (token : Address) : Bool :=
  (settings.approvedToken token).getD false

def setTokenApproved (settings : Settings) (token : Address) (allowed : Bool) : Settings :=
  { settings with approvedToken := Function.update settings.approvedToken token (some allowed) }

def setTokenMaxLimit (settings : Settings) (token : Address) (limit : I128) : Settings :=
  { settings with tokenMaxLimit := Function.update settings.tokenMaxLimit token (some limit) }

end Settings

/-- Whether the entry is there. -/
def TrackedKey.present (st : Storage) : TrackedKey → Bool
  | .tokenAccountBalance token account => (st.funds.tokenAccountBalance token account).isSome
  | .tokenMaxLimit token => (st.settings.tokenMaxLimit token).isSome

end Drip.Vault
