import Drip.Governor.Params

/-!
# Governor — Proposals

The proposals: the status index and the vote records of `contracts/governor/src/storage.rs`, and the
entry points of `lib.rs` from `propose` to `cancel_proposal_by_admin`.

The entry points that cast a vote call `cast_ballot`, which is not in the repository; what a ballot
may do is said where the governor is run.
-/

namespace Drip.Governor
open Chain

theorem u64_nonempty : (0 : Int) ≤ 18446744073709551615 := by decide

/-- `n as u64`: the low 64 bits. -/
def truncateU64 (n : Int) : U64 := .clamp (n % 18446744073709551616) u64_nonempty

/-! ### The status index -/

/-- `storage::proposals_by_status`. -/
def proposalsByStatus (ps : Proposals) (status : ProposalStatus) : List U64 :=
  (ps.proposalsByStatus status).getD []

def addProposalToStatusIndex (proposalId : U64) (status : ProposalStatus) (ps : Proposals) :
    Proposals :=
  let ids := proposalsByStatus ps status
  if proposalId ∈ ids then ps
  else
    { ps with
      proposalsByStatus :=
        Function.update ps.proposalsByStatus status (some (ids ++ [proposalId])) }

def removeProposalFromStatusIndex (proposalId : U64) (status : ProposalStatus) (ps : Proposals) :
    Proposals :=
  { ps with
    proposalsByStatus := Function.update ps.proposalsByStatus status
      (some ((proposalsByStatus ps status).filter fun id => id ≠ proposalId)) }

/-- `storage::set_proposal_status`: `false` when there is no such proposal. -/
def setProposalStatus (proposalId : U64) (newStatus : ProposalStatus) (ps : Proposals) :
    Bool × Proposals :=
  match ps.proposal proposalId with
  | none => (false, ps)
  | some proposal =>
      if proposal.status ≠ newStatus then
        let ps := removeProposalFromStatusIndex proposalId proposal.status ps
        let ps := { ps with
          proposal :=
            Function.update ps.proposal proposalId (some { proposal with status := newStatus }) }
        (true, addProposalToStatusIndex proposalId newStatus ps)
      else (true, ps)

/-! ### Votes -/

/-- `storage::get_abstain_votes`. -/
def getAbstainVotes (ps : Proposals) (proposalId : U64) : U64 :=
  (ps.proposalAbstainVotes proposalId).getD (.lit 0)

/-- `storage::archive_vote_record`: the record of a proposal is written once. -/
def archiveVoteRecord (proposalId : U64) (proposal : Proposal) (ps : Proposals) : Proposals :=
  if (ps.voteRecord proposalId).isSome then ps
  else
    { ps with
      voteRecord := Function.update ps.voteRecord proposalId
        (some ⟨proposal.forVotes, proposal.againstVotes, getAbstainVotes ps proposalId⟩) }

/-! ### Entry points -/

/-- The token and the amount of the stake, when both are configured. -/
def stakeOf (config : GovernorConfig) : Option (Address × I128) := do
  let token ← config.proposalStakeToken
  if 0 < config.minProposalStake.val then some (token, config.minProposalStake) else none

/-- What `propose` stores under the new id. -/
def recordProposal (env : Env) (proposalId : U64) (caller token : Address) (stake : I128)
    (executionWindowSecs totalSupply : U64) (ps : Proposals) : Proposals :=
  let ps := { ps with
    proposal := Function.update ps.proposal proposalId (some {
      author := caller
      createdAt := env.timestamp
      snapshotLedger := env.sequence
      executionWindowSecs := executionWindowSecs
      status := .pending
      forVotes := .lit 0
      againstVotes := .lit 0 })
    proposalAbstainVotes := Function.update ps.proposalAbstainVotes proposalId (some (.lit 0))
    proposalCounter := some proposalId
    proposalStake := Function.update ps.proposalStake proposalId (some stake)
    proposalStakeTokenByProposal :=
      Function.update ps.proposalStakeTokenByProposal proposalId (some token) }
  let ps := addProposalToStatusIndex proposalId .pending ps
  { ps with
    proposalSnapshotLedger :=
      Function.update ps.proposalSnapshotLedger proposalId (some env.sequence)
    proposalVoteSnapshot := Function.update ps.proposalVoteSnapshot proposalId
      (some ⟨proposalId, env.sequence, .lit 0, .lit 0, totalSupply⟩) }

/-- `propose`.  The id comes before the transfer here, whose label names it; both fail with a trap. -/
def propose (env : Env) (caller : Address) (executionWindowSecs : U64) (s : State) :
    Result (U64 × State) := do
  requireRole env caller .admin s
  reject (executionWindowSecs.val = 0) (err .invalidParam)
  let stakeConfig ← loadConfig s
  let (token, stake) ← okOr (stakeOf stakeConfig) (err .proposalStakeNotConfigured)
  let counter := s.store.proposals.proposalCounter.getD (.lit 0)
  let proposalId ← okOr (counter.checkedAdd (.lit 1)) .trap
  let s ← transfer s ⟨token, caller, env.contract, stake, .stake proposalId⟩
  return (proposalId, s.withProposals (recordProposal env proposalId caller token stake
    executionWindowSecs (governanceSupply s) s.store.proposals))

/-- `MIN_EXECUTION_DELAY`: seven days. -/
def minExecutionDelay : U64 := .lit 604800

/-- `refund_proposal_stake`. -/
def refundProposalStake (env : Env) (proposalId : U64) (author : Address) (s : State) :
    Result State :=
  match s.store.proposals.proposalStake proposalId with
  | none => .ok s
  | some amount => do
      let ps := s.store.proposals
      let token ← okOr (ps.proposalStakeTokenByProposal proposalId) (err .proposalStakeNotConfigured)
      let s ← transfer s ⟨token, env.contract, author, amount, .refund proposalId⟩
      return s.withProposals { ps with
        proposalStake := Function.update ps.proposalStake proposalId none
        proposalStakeTokenByProposal :=
          Function.update ps.proposalStakeTokenByProposal proposalId none }

/-- The votes a proposal needs, of the supply of its snapshot. -/
def quorumThreshold (s : State) (proposalId : U64) (minQuorumBps : U32) : U64 :=
  let totalSupply := ((s.store.proposals.proposalVoteSnapshot proposalId).map
    VoteTallySnapshot.totalSupply).getD (governanceSupply s)
  truncateU64 (totalSupply.val * minQuorumBps.val / 10000)

/-- The votes cast on a proposal. -/
def totalVotes (s : State) (proposalId : U64) (proposal : Proposal) : U64 :=
  (proposal.forVotes.saturatingAdd proposal.againstVotes).saturatingAdd
    (getAbstainVotes s.store.proposals proposalId)

def executeProposal (env : Env) (executor : Address) (proposalId : U64) (s : State) :
    Result State := do
  requireExecutor env executor s
  let proposal ← okOr (s.store.proposals.proposal proposalId) (err .proposalNotFound)
  reject (proposal.status ≠ .pending ∧ proposal.status ≠ .active) (err .proposalNotPending)
  let elapsed := env.timestamp.saturatingSub proposal.createdAt
  reject (elapsed < minExecutionDelay) (err .timelockNotMet)
  reject (proposal.executionWindowSecs.saturatingAdd minExecutionDelay < elapsed)
    (err .proposalExpired)
  let config ← loadConfig s
  reject (0 < config.minQuorumBps.val ∧
    totalVotes s proposalId proposal < quorumThreshold s proposalId config.minQuorumBps)
    (err .quorumNotMet)
  let s ← refundProposalStake env proposalId proposal.author s
  return s.withProposals (setProposalStatus proposalId .executed s.store.proposals).2

/-- `cancel_proposal`. -/
def cancelProposal (caller : Address) (proposalId : U64) (s : State) : Result State := do
  let proposal ← okOr (s.store.proposals.proposal proposalId) (err .proposalNotFound)
  reject (caller ≠ proposal.author) (err .notAuthorized)
  reject (proposal.status ≠ .pending ∧ proposal.status ≠ .active) (err .proposalNotPending)
  let ps := archiveVoteRecord proposalId proposal s.store.proposals
  return s.withProposals (setProposalStatus proposalId .cancelled ps).2

def cancelProposalByAdmin (env : Env) (caller : Address) (proposalId : U64)
    (reasonHash : BitVec 256) (s : State) : Result State := do
  requireRole env caller .admin s
  let proposal ← okOr (s.store.proposals.proposal proposalId) (err .proposalNotFound)
  reject (proposal.status ≠ .pending ∧ proposal.status ≠ .active) (err .proposalNotPending)
  let ps := archiveVoteRecord proposalId proposal s.store.proposals
  return (s.withProposals (setProposalStatus proposalId .cancelled ps).2).publish
    (.proposalCancelledByAdmin proposalId caller reasonHash)

end Drip.Governor
