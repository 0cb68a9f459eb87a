import Drip.Governor.Roles

/-!
# Governor — Params

`contracts/governor/src/config.rs`, `initialize`, the setters of the parameters and the checkpoints
of voting weights.

A setter checks its argument, then the pause flag, then the caller's role; a refused call leaves
nothing behind.
-/

namespace Drip.Governor
open Chain

/-! ### `config.rs` -/

/-- `MIN_VOTING_PERIOD_LEDGERS`. -/
def minVotingPeriodLedgers : U32 := .lit 17280

structure GovernorConfig where
  feeBps : U32
  feeRecipient : Address
  minDurationSeconds : U64
  maxDurationSeconds : U64
  maxRatePerSecond : I128
  factoryAddress : Address
  forceCancelPauseSecs : U64
  minQuorumBps : U32
  votingPeriodLedgers : U32
  proposalStakeToken : Option Address
  minProposalStake : I128
deriving DecidableEq

namespace Params

variable (p : Params)

/-! The parameters, each read with its default. -/

def feeBpsOr : U32 := p.feeBps.getD (.lit 30)
def minDurationOr : U64 := p.minDurationSeconds.getD (.lit 3600)
def maxDurationOr : U64 := p.maxDurationSeconds.getD (.lit 315360000)
def maxRateOr : I128 := p.maxRatePerSecond.getD (.lit 1000000000000000)
def forceCancelPauseSecsOr : U64 := p.forceCancelPauseSecs.getD (.lit 2592000)
def minQuorumBpsOr : U32 := p.minQuorumBps.getD (.lit 0)
def minProposalStakeOr : I128 := p.minProposalStake.getD (.lit 0)

end Params

/-- `config::load`. -/
def loadConfig (s : State) : Result GovernorConfig := do
  let p := s.store.params
  let feeRecipient ← okOr p.feeRecipient (err .notInitialized)
  let factoryAddress ← okOr p.factoryAddress (err .notInitialized)
  return {
    feeBps := p.feeBpsOr
    feeRecipient := feeRecipient
    minDurationSeconds := p.minDurationOr
    maxDurationSeconds := p.maxDurationOr
    maxRatePerSecond := p.maxRateOr
    factoryAddress := factoryAddress
    forceCancelPauseSecs := p.forceCancelPauseSecsOr
    minQuorumBps := p.minQuorumBpsOr
    votingPeriodLedgers := p.votingPeriodLedgers.getD minVotingPeriodLedgers
    proposalStakeToken := p.proposalStakeToken
    minProposalStake := p.minProposalStakeOr }

/-- `config`. -/
def config (s : State) : Result GovernorConfig := loadConfig s

/-! ### `initialize` -/

/-- `initialize`: the first parameters, and every role but `Executor` for the authority. -/
def initializeGovernor (env : Env) (authority feeRecipient factoryAddress : Address) (s : State) :
    Result State := do
  reject (s.store.params.factoryAddress.isSome = true) (err .alreadyInitialized)
  let s := s.withParams { s.store.params with
    feeBps := some (.lit 30)
    feeRecipient := some feeRecipient
    minDurationSeconds := some (.lit 3600)
    maxDurationSeconds := some (.lit 315360000)
    maxRatePerSecond := some (.lit 1000000000000000)
    factoryAddress := some factoryAddress
    forceCancelPauseSecs := some (.lit 2592000)
    minQuorumBps := some (.lit 0)
    minProposalStake := some (.lit 0) }
  let (_, s) ← grant env .admin authority s
  let (_, s) ← grant env .feeManager authority s
  let (_, s) ← grant env .rateManager authority s
  let (_, s) ← grant env .pauser authority s
  return s.publish (.initialized authority feeRecipient factoryAddress)

/-! ### Setters -/

/-- The pause flag and the caller's role, as every setter but one asks for them. -/
def gate (env : Env) (caller : Address) (role : Role) (s : State) : Result State := do
  let s ← assertNotPaused env s
  requireRoleOrAdmin env caller role s
  return s

def setFeeBps (env : Env) (caller : Address) (feeBps : U32) (s : State) : Result State := do
  reject (10000 < feeBps.val) (err .invalidParam)
  let s ← gate env caller .feeManager s
  let p := s.store.params
  return (s.withParams { p with feeBps := some feeBps }).publish
    (.setFeeBps caller p.feeBpsOr feeBps)

def setFeeRecipient (env : Env) (caller recipient : Address) (s : State) : Result State := do
  reject (isZeroAddress recipient = true) (err .invalidParam)
  let s ← gate env caller .feeManager s
  let p := s.store.params
  let oldRecipient ← okOr p.feeRecipient (err .notInitialized)
  return (s.withParams { p with feeRecipient := some recipient }).publish
    (.setFeeRecipient caller oldRecipient recipient)

def setMinDuration (env : Env) (caller : Address) (seconds : U64) (s : State) : Result State := do
  reject (seconds.val = 0) (err .invalidParam)
  let s ← gate env caller .rateManager s
  let p := s.store.params
  reject (p.maxDurationOr < seconds) (err .invalidParam)
  let _ ← okOr (p.maxRateOr.checkedMul seconds.widen) (err .invalidParam)
  return (s.withParams { p with minDurationSeconds := some seconds }).publish
    (.setMinDuration caller p.minDurationOr seconds)

def setMaxRate (env : Env) (caller : Address) (maxRate : I128) (s : State) : Result State := do
  reject (maxRate.val ≤ 0) (err .invalidParam)
  let s ← gate env caller .rateManager s
  let p := s.store.params
  let _ ← okOr (maxRate.checkedMul p.minDurationOr.widen) (err .invalidParam)
  return (s.withParams { p with maxRatePerSecond := some maxRate }).publish
    (.setMaxRate caller p.maxRateOr maxRate)

def setMaxDuration (env : Env) (caller : Address) (seconds : U64) (s : State) : Result State := do
  reject (seconds.val = 0) (err .invalidParam)
  let s ← gate env caller .rateManager s
  let p := s.store.params
  reject (seconds < p.minDurationOr) (err .invalidParam)
  return (s.withParams { p with maxDurationSeconds := some seconds }).publish
    (.setMaxDuration caller p.maxDurationOr seconds)

def setForceCancelPauseThreshold (env : Env) (caller : Address) (seconds : U64) (s : State) :
    Result State := do
  reject (seconds.val = 0) (err .invalidParam)
  let s ← gate env caller .rateManager s
  let p := s.store.params
  return (s.withParams { p with forceCancelPauseSecs := some seconds }).publish
    (.setForceCancelPauseThreshold caller seconds)

def setMinQuorumBps (env : Env) (caller : Address) (minQuorumBps : U32) (s : State) :
    Result State := do
  reject (10000 < minQuorumBps.val) (err .invalidParam)
  let s ← gate env caller .admin s
  let p := s.store.params
  return (s.withParams { p with minQuorumBps := some minQuorumBps }).publish
    (.setMinQuorumBps caller p.minQuorumBpsOr minQuorumBps)

/-- `set_governance_supply`, which publishes nothing. -/
def setGovernanceSupply (env : Env) (caller : Address) (supply : U64) (s : State) :
    Result State := do
  reject (supply.val = 0) (err .invalidParam)
  let s ← gate env caller .admin s
  return s.withParams { s.store.params with governanceSupply := some supply }

/-- `governance_supply`: the number of admins where no supply is set. -/
def governanceSupply (s : State) : U64 :=
  s.store.params.governanceSupply.getD (s.store.roles.adminCount.getD (.lit 1)).widen

/-- `set_proposal_stake_config`; the argument is checked after the role. -/
def setProposalStakeConfig (env : Env) (caller token : Address) (minStake : I128) (s : State) :
    Result State := do
  let s ← assertNotPaused env s
  requireRole env caller .admin s
  reject (minStake.val ≤ 0 ∨ isZeroAddress token = true) (err .invalidParam)
  return (s.withParams { s.store.params with
    proposalStakeToken := some token, minProposalStake := some minStake }).publish
    (.setProposalStakeConfig caller token minStake)

/-! ### Checkpoints -/

/-- The checkpoints after one at `ledger`: it replaces the last one, or comes after it. -/
def addCheckpoint (checkpoints : List BalanceCheckpoint) (ledger : U32) (weight : U64) :
    List BalanceCheckpoint :=
  match checkpoints.getLast? with
  | some last =>
      if ledger ≤ last.ledger then checkpoints.dropLast ++ [⟨ledger, weight⟩]
      else checkpoints ++ [⟨ledger, weight⟩]
  | none => checkpoints ++ [⟨ledger, weight⟩]

/-- `storage::record_checkpoint_at`. -/
def recordCheckpointAt (account : Address) (ledger : U32) (weight : U64) (s : State) : State :=
  { s with store := { s.store with
    checkpointingEnabled := some true
    voteCheckpoints := Function.update s.store.voteCheckpoints account
      (some (addCheckpoint ((s.store.voteCheckpoints account).getD []) ledger weight)) } }

/-- `storage::record_checkpoint`. -/
def recordCheckpoint (env : Env) (account : Address) (weight : U64) (s : State) : State :=
  recordCheckpointAt account env.sequence weight s

def checkpointBalance (env : Env) (caller voter : Address) (weight : U64) (s : State) :
    Result State := do
  requireRoleOrAdmin env caller .admin s
  return recordCheckpoint env voter weight s

end Drip.Governor
