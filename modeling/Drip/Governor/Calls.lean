import Drip.Support.Runs
import Drip.Governor.Proposals

/-!
# Governor — Calls

The governor as a machine.  A `Call` is an entry point with its arguments, and `exec` the state it
leaves.  A governor starts empty (`State.fresh`), and between the calls to it the tokens move
(`Step`): nobody takes from its balances, for it authorizes nothing but its own calls.  Time may pass
as it likes.

Ballots are counted by code that is not in the repository.  `Step.ballot` lets them set the tallies
of a proposal to anything and make a pending proposal active, as the documentation of the statuses
says.

`upgrade` is a call like the others here; a run goes on with the code modelled.
-/

namespace Drip.Governor
open Chain

inductive Call where
  | initializeGovernor (authority feeRecipient factoryAddress : Address)
  | governorIsPaused
  | governorPause (caller : Address)
  | governorUnpause (caller : Address)
  | pauseFactory (caller : Address)
  | unpauseFactory (caller : Address)
  | grantRoleWithExpiration (caller : Address) (role : Role) (account : Address)
      (expiresAt : Option U64)
  | grantRole (caller : Address) (role : Role) (account : Address)
  | revokeRole (caller : Address) (role : Role) (account : Address)
  | grantRoleBatch (caller : Address) (role : Role) (accounts : List Address)
  | revokeRoleBatch (caller : Address) (role : Role) (accounts : List Address)
  | transferAuthority (caller newAuthority : Address)
  | proposeAuthority (caller newAuthority : Address)
  | revokeProposeAuthority (caller : Address)
  | acceptAuthority (caller : Address)
  | proposeAdmin (caller newAdmin : Address)
  | claimAdmin (caller : Address)
  | revokeProposeAdmin (caller : Address)
  | upgrade (caller : Address) (newWasmHash : BitVec 256)
  | setFeeBps (caller : Address) (feeBps : U32)
  | setFeeRecipient (caller recipient : Address)
  | setMinDuration (caller : Address) (seconds : U64)
  | setMaxRate (caller : Address) (maxRate : I128)
  | setMaxDuration (caller : Address) (seconds : U64)
  | setForceCancelPauseThreshold (caller : Address) (seconds : U64)
  | setMinQuorumBps (caller : Address) (minQuorumBps : U32)
  | setGovernanceSupply (caller : Address) (supply : U64)
  | setProposalStakeConfig (caller token : Address) (minStake : I128)
  | checkpointBalance (caller voter : Address) (weight : U64)
  | propose (caller : Address) (executionWindowSecs : U64)
  | executeProposal (executor : Address) (proposalId : U64)
  | cancelProposal (caller : Address) (proposalId : U64)
  | cancelProposalByAdmin (caller : Address) (proposalId : U64) (reasonHash : BitVec 256)

/-- The state after a result whose value is not looked at. -/
def after {α : Type} (r : Result (α × State)) : Result State := do
  let (_, s) ← r
  return s

/-- The state a call leaves. -/
def exec (host : Host) (env : Env) (s : State) : Call → Result State
  | .initializeGovernor authority feeRecipient factoryAddress =>
      initializeGovernor env authority feeRecipient factoryAddress s
  | .governorIsPaused => .ok (isPaused env s).2
  | .governorPause caller => governorPause env caller s
  | .governorUnpause caller => governorUnpause env caller s
  | .pauseFactory caller => pauseFactory host env caller s
  | .unpauseFactory caller => unpauseFactory host env caller s
  | .grantRoleWithExpiration caller role account expiresAt =>
      grantRoleWithExpiration env caller role account expiresAt s
  | .grantRole caller role account => grantRole env caller role account s
  | .revokeRole caller role account => revokeRole env caller role account s
  | .grantRoleBatch caller role accounts => grantRoleBatch env caller role accounts s
  | .revokeRoleBatch caller role accounts => revokeRoleBatch env caller role accounts s
  | .transferAuthority caller newAuthority => transferAuthority env caller newAuthority s
  | .proposeAuthority caller newAuthority => proposeAuthority env caller newAuthority s
  | .revokeProposeAuthority caller => revokeProposeAuthority env caller s
  | .acceptAuthority caller => acceptAuthority env caller s
  | .proposeAdmin caller newAdmin => proposeAdmin env caller newAdmin s
  | .claimAdmin caller => claimAdmin env caller s
  | .revokeProposeAdmin caller => revokeProposeAdmin env caller s
  | .upgrade caller newWasmHash => upgrade env caller newWasmHash s
  | .setFeeBps caller feeBps => setFeeBps env caller feeBps s
  | .setFeeRecipient caller recipient => setFeeRecipient env caller recipient s
  | .setMinDuration caller seconds => setMinDuration env caller seconds s
  | .setMaxRate caller maxRate => setMaxRate env caller maxRate s
  | .setMaxDuration caller seconds => setMaxDuration env caller seconds s
  | .setForceCancelPauseThreshold caller seconds =>
      setForceCancelPauseThreshold env caller seconds s
  | .setMinQuorumBps caller minQuorumBps => setMinQuorumBps env caller minQuorumBps s
  | .setGovernanceSupply caller supply => setGovernanceSupply env caller supply s
  | .setProposalStakeConfig caller token minStake =>
      setProposalStakeConfig env caller token minStake s
  | .checkpointBalance caller voter weight => checkpointBalance env caller voter weight s
  | .propose caller executionWindowSecs => after (propose env caller executionWindowSecs s)
  | .executeProposal executor proposalId => executeProposal env executor proposalId s
  | .cancelProposal caller proposalId => cancelProposal caller proposalId s
  | .cancelProposalByAdmin caller proposalId reasonHash =>
      cancelProposalByAdmin env caller proposalId reasonHash s

/-! ### Steps -/

/-- The tallies of a ballot, and whether it is the one that starts the vote. -/
structure Ballot where
  proposalId : U64
  forVotes : U64
  againstVotes : U64
  abstainVotes : U64
  starts : Bool
deriving DecidableEq

/-- The proposals after a ballot on a proposal that is there. -/
def Ballot.count (b : Ballot) (proposal : Proposal) (ps : Proposals) : Proposals :=
  let ps := { ps with
    proposal := Function.update ps.proposal b.proposalId
      (some { proposal with forVotes := b.forVotes, againstVotes := b.againstVotes })
    proposalAbstainVotes :=
      Function.update ps.proposalAbstainVotes b.proposalId (some b.abstainVotes) }
  if b.starts = true ∧ proposal.status = .pending then (setProposalStatus b.proposalId .active ps).2
  else ps

inductive Action where
  | call (host : Host) (env : Env) (c : Call)
  | failed (host : Host) (env : Env) (c : Call)
  | ballot (b : Ballot)
  | outside (tokens : Ledger)

/-- A step of the governor at `here`. -/
inductive Step (here : Address) : State → Action → State → Prop where
  | call {s s' : State} {host : Host} {env : Env} {c : Call} (henv : env.contract = here)
      (h : exec host env s c = .ok s') : Step here s (.call host env c) s'
  /-- a call that fails is rolled back -/
  | failed {s : State} {host : Host} {env : Env} {c : Call} {e : Failure Error}
      (henv : env.contract = here) (h : exec host env s c = .error e) :
      Step here s (.failed host env c) s
  | ballot {s : State} {b : Ballot} {proposal : Proposal}
      (h : s.store.proposals.proposal b.proposalId = some proposal) :
      Step here s (.ballot b) (s.withProposals (b.count proposal s.store.proposals))
  | outside {s : State} {tokens : Ledger}
      (h : ∀ t, (s.tokens.balance t here).val ≤ (tokens.balance t here).val) :
      Step here s (.outside tokens) { s with tokens := tokens }

def Reachable (here : Address) (s : State) : Prop :=
  ∃ tokens as, Run (Step here) (State.fresh tokens) as s

/-- `initialize` has been called. -/
def Initialized (s : State) : Prop := s.store.params.factoryAddress.isSome = true

instance (s : State) : Decidable (Initialized s) :=
  inferInstanceAs (Decidable (s.store.params.factoryAddress.isSome = true))

/-! ### A sample governor

Account 1 administers it and holds the stake token; the runs below start from its deployment. -/

/-- A call carried out. -/
def perform (s : State) : Action → Option State
  | .call host env c => (exec host env s c).toOption
  | _ => none

namespace Sample

def address : Address := .contract 6
def authority : Address := .account 1
def stakeToken : Address := .contract 9

/-- A factory that accepts every call. -/
def host : Host := ⟨fun _ _ => true⟩

/-- An invocation at `t` that the given accounts have signed. -/
def signedBy (signers : List Address) (t : U64) : Env :=
  ⟨address, t, .lit 1, fun a => a != address && signers.contains a, by simp⟩

/-- An invocation at `t` that everyone but the governor has signed. -/
def envAt (t : U64) : Env := ⟨address, t, .lit 1, fun a => a != address, by decide⟩

def tokens : Ledger where
  balance t a := if t = stakeToken ∧ a = authority then .lit 1000 else .lit 0

def opening : U64 × Call := (.lit 100, .initializeGovernor authority (.account 3) (.contract 5))

/-- The initialization and the calls, each at its time. -/
def actions (calls : List (U64 × Call)) : List Action :=
  (opening :: calls).map fun x => .call host (envAt x.1) x.2

/-- The governor after them. -/
def reached (calls : List (U64 × Call)) : State :=
  Run.reached perform (State.fresh tokens) (actions calls)

theorem run_reached {calls : List (U64 × Call)}
    (h : ((actions calls).foldlM perform (State.fresh tokens)).isSome = true) :
    Run (Step address) (State.fresh tokens) (actions calls) (reached calls) := by
  refine Run.run_reached (fun {s a t} hin hperf => ?_) h
  obtain ⟨x, -, rfl⟩ := List.mem_map.mp hin
  exact .call rfl (toOption_eq_some.mp hperf)

theorem reachable_reached {calls : List (U64 × Call)}
    (h : ((actions calls).foldlM perform (State.fresh tokens)).isSome = true) :
    Reachable address (reached calls) :=
  ⟨tokens, actions calls, run_reached h⟩

/-- One proposal, and an executor. -/
def proposed : State := reached [
  (.lit 110, .setProposalStakeConfig (.account 1) (.contract 9) (.lit 10)),
  (.lit 115, .grantRole (.account 1) .executor (.account 4)),
  (.lit 120, .propose (.account 1) (.lit 1000))]

theorem reachable_proposed : Reachable address proposed := reachable_reached (by decide)

/-- The state after one call. -/
def next (s : State) (env : Env) (c : Call) : State :=
  match exec host env s c with
  | .ok s' => s'
  | .error _ => s

theorem exec_next {s : State} {env : Env} {c : Call} (h : (exec host env s c).isOk = true) :
    exec host env s c = .ok (next s env c) := by
  obtain ⟨s', hs'⟩ := exists_of_isOk h
  unfold next
  rw [hs']

theorem step_next {s : State} {env : Env} {c : Call} (henv : env.contract = address)
    (h : (exec host env s c).isOk = true) : Step address s (.call host env c) (next s env c) :=
  .call henv (exec_next h)

end Sample

end Drip.Governor
