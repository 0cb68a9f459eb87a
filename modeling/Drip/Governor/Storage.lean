import Drip.Common.Pause
import Drip.Common.Rbac

/-!
# Governor — Storage

`contracts/governor/src/storage.rs`, `config.rs`, `errors.rs` and `events.rs`: what a `DripGovernor`
keeps, the errors it returns and the events it publishes.  `Storage` has a field for each `DataKey`
that some function reads or writes, gathered into the parameters, the roles and the proposals; a key
that carries a number, an address or a status is a function.

`VoterReceipt` and `ProposalExecutionBytecodeHash` have no reader, and are left out.
-/

namespace Drip.Governor
open Chain

inductive Error where
  | notAuthorized | invalidParam | alreadyInitialized | lastAdmin | notInitialized | contractPaused
  | alreadyPaused | notPaused | factoryCallFailed | noPendingAuthority | notPendingAuthority
  | invalidWasmHash | proposalNotFound | proposalExpired | proposalNotPending | timelockNotMet
  | quorumNotMet | alreadyVoted | insufficientVotingWeight | adminTransferAlreadyInProgress
  | proposalStakeNotConfigured
deriving DecidableEq

/-- The outcome of a governor entry point. -/
abbrev Result (α : Type) := Outcome Error α

/-- `Err(e)`. -/
abbrev err (e : Error) : Failure Error := .contract e

inductive Role where
  | admin | feeManager | rateManager | pauser | executor
deriving DecidableEq

/-! ### Proposals -/

inductive ProposalStatus where
  | pending | executed | cancelled | active | defeated
deriving DecidableEq

structure BalanceCheckpoint where
  ledger : U32
  weight : U64
deriving DecidableEq

structure VoteTallySnapshot where
  proposalId : U64
  snapshotLedger : U32
  forVotes : U64
  againstVotes : U64
  totalSupply : U64
deriving DecidableEq

structure VoteRecord where
  forVotes : U64
  againstVotes : U64
  abstainVotes : U64
deriving DecidableEq

structure Proposal where
  author : Address
  createdAt : U64
  snapshotLedger : U32
  executionWindowSecs : U64
  status : ProposalStatus
  forVotes : U64
  againstVotes : U64
deriving DecidableEq

/-- The keys of the proposals. -/
structure Proposals where
  proposalCounter : Option U64 := none
  proposal : U64 → Option Proposal := fun _ => none
  proposalStake : U64 → Option I128 := fun _ => none
  proposalStakeTokenByProposal : U64 → Option Address := fun _ => none
  proposalSnapshotLedger : U64 → Option U32 := fun _ => none
  proposalVoteSnapshot : U64 → Option VoteTallySnapshot := fun _ => none
  proposalAbstainVotes : U64 → Option U64 := fun _ => none
  proposalsByStatus : ProposalStatus → Option (List U64) := fun _ => none
  voteRecord : U64 → Option VoteRecord := fun _ => none

/-! ### Parameters -/

/-- The keys of the parameters. -/
structure Params where
  feeBps : Option U32 := none
  feeRecipient : Option Address := none
  minDurationSeconds : Option U64 := none
  maxRatePerSecond : Option I128 := none
  maxDurationSeconds : Option U64 := none
  factoryAddress : Option Address := none
  forceCancelPauseSecs : Option U64 := none
  minQuorumBps : Option U32 := none
  votingPeriodLedgers : Option U32 := none
  proposalStakeToken : Option Address := none
  minProposalStake : Option I128 := none
  governanceSupply : Option U64 := none

structure Storage where
  params : Params := {}
  roles : Rbac.Records Role := {}
  paused : Option Pause.Stored := none
  pendingAuthority : Option Address := none
  pendingAuthorityProposer : Option Address := none
  proposals : Proposals := {}
  voteCheckpoints : Address → Option (List BalanceCheckpoint) := fun _ => none
  checkpointingEnabled : Option Bool := none

/-! ### Events and transfers -/

/-- The payload of each event of `events.rs`, topics first, and of the shared revocation event. -/
inductive Event where
  | initialized (authority feeRecipient factoryAddress : Address)
  | grantRole (caller : Address) (role : Role) (account : Address)
  | revokeRole (caller : Address) (role : Role) (account : Address)
  | roleRevoked (e : Rbac.RoleRevokedEvent)
  | transferAuthority (caller newAuthority : Address)
  | proposeAuthority (caller newAuthority : Address)
  | revokeProposeAuthority (caller pendingAuthority : Address)
  | acceptAuthority (caller oldAuthority : Address)
  | setFeeBps (caller : Address) (oldFeeBps newFeeBps : U32)
  | setFeeRecipient (caller oldRecipient newRecipient : Address)
  | setMinDuration (caller : Address) (oldSeconds newSeconds : U64)
  | setMaxRate (caller : Address) (oldMaxRate newMaxRate : I128)
  | setMaxDuration (caller : Address) (oldSeconds newSeconds : U64)
  | setForceCancelPauseThreshold (caller : Address) (seconds : U64)
  | setMinQuorumBps (caller : Address) (oldMinQuorumBps newMinQuorumBps : U32)
  | setProposalStakeConfig (caller token : Address) (minStake : I128)
  | paused (caller : Address) (pausedAt : U64)
  | unpaused (caller : Address) (resumedAt : U64)
  | factoryPaused (caller : Address) (pausedAt : U64)
  | factoryUnpaused (caller : Address) (resumedAt : U64)
  | upgraded (caller : Address) (upgradedAt : U64)
  | proposalCancelledByAdmin (proposalId : U64) (caller : Address) (reasonHash : BitVec 256)
deriving DecidableEq

/-- Why the governor issued a transfer, and for which proposal.  The label is the model's. -/
inductive Purpose where
  | stake (proposalId : U64)
  | refund (proposalId : U64)
deriving DecidableEq

/-- A transfer the governor issued to a token contract. -/
structure Transfer where
  token : Address
  src : Address
  dst : Address
  amount : I128
  purpose : Purpose
deriving DecidableEq

/-! ### The state -/

structure State where
  store : Storage
  tokens : Ledger
  events : List Event := []
  transfers : List Transfer := []

/-- A governor as deployed, before `initialize`. -/
def State.fresh (tokens : Ledger) : State := { store := {}, tokens := tokens }

def State.publish (s : State) (e : Event) : State := { s with events := s.events ++ [e] }

def State.withParams (s : State) (params : Params) : State :=
  { s with store := { s.store with params := params } }

def State.withProposals (s : State) (proposals : Proposals) : State :=
  { s with store := { s.store with proposals := proposals } }

/-- `token::Client::transfer`; a failed token call traps. -/
def transfer (s : State) (t : Transfer) : Result State := do
  let tokens ← okOr (s.tokens.transfer t.token t.src t.dst t.amount) .trap
  return { s with tokens := tokens, transfers := s.transfers ++ [t] }

end Drip.Governor
