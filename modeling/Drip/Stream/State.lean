import Drip.Stream.Storage

/-!
# Stream — State

`contracts/stream/src/state.rs` and `events.rs`: what an invocation of a stream reads and writes,
the re-entrancy guard, the event log, and the calls to the token contract.

`State` holds the stream's instance storage, the balances of every token, the events the stream
has published and the token transfers it has issued.  Instance TTL is host bookkeeping that no
entry point reads; the `ttl::bump` calls are left out.
-/

namespace Drip.Stream
open Chain

/-! ### Events and transfers -/

/-- The payload of each event of `events.rs`, topics first. -/
inductive Event where
  | created (sender recipient token : Address) (ratePerSecond : I128) (startTime endTime : U64)
      (storageVersion : U32)
  | withdrawn (recipient : Address) (amount totalWithdrawn remaining : I128)
  | cancelled (sender : Address) (refundAmount withdrawnSoFar remainingDeposit : I128)
  | forceCancelled (sender : Address) (refundAmount withdrawnSoFar remainingDeposit : I128)
  | paused (initiator : Address) (pausedAt : U64) (withdrawable : I128)
  | resumed (initiator : Address) (resumedAt : U64)
  | toppedUp (sender : Address) (amount newBalance : I128)
  | toppedUpAndExtended (caller : Address) (oldBalance newBalance : I128)
      (oldEndTime newEndTime : U64)
  | rateChanged (caller : Address) (oldRate newRate : I128)
  | clawback (sender : Address) (amount : I128)
  | recipientTransferred (oldRecipient newRecipient : Address)
  | operatorSet (sender operator : Address)
  | operatorRevoked (sender : Address)
  | splitRecipientSet (caller secondaryRecipient : Address) (splitBps : U32)
  | splitRecipientRemoved (caller : Address)
  | cliffConfigured (sender : Address) (cliffTime : U64) (cliffUnlockAmount : I128)
  | minWithdrawalIntervalSet (sender : Address) (intervalSeconds : U64)
  | keeperPing (keeper : Address) (bountyAmount : I128)
  | keeperRewardPoolConfigured (caller rewardToken : Address) (rewardPerPing : I128)
  | keeperRewardPoolFunded (funder rewardToken : Address) (amount : I128)
  | keeperRewardPoolWithdrawn (caller rewardToken : Address) (amount : I128)
  | emergencyPaused (caller : Address) (timestamp : U64)
  | emergencyUnpaused (caller : Address) (timestamp : U64)
  | cliffReached (recipient : Address) (timestamp : U64) (unlockAmount : I128)
  | streamCompleted (recipient : Address) (totalWithdrawn : I128)
deriving DecidableEq

/-- The fields an event's publisher runs `assert_non_negative_amount` on, in order. -/
def Event.amounts : Event → List I128
  | created _ _ _ rate _ _ _ => [rate]
  | withdrawn _ amount total remaining => [amount, total, remaining]
  | cancelled _ refund soFar deposit | forceCancelled _ refund soFar deposit =>
      [refund, soFar, deposit]
  | paused _ _ w => [w]
  | toppedUp _ amount newBalance => [amount, newBalance]
  | toppedUpAndExtended _ oldBalance newBalance _ _ => [oldBalance, newBalance]
  | rateChanged _ oldRate newRate => [oldRate, newRate]
  | clawback _ amount => [amount]
  | cliffConfigured _ _ amount | keeperPing _ amount | keeperRewardPoolConfigured _ _ amount
  | keeperRewardPoolFunded _ _ amount | keeperRewardPoolWithdrawn _ _ amount
  | cliffReached _ _ amount | streamCompleted _ amount => [amount]
  | resumed .. | recipientTransferred .. | operatorSet .. | operatorRevoked ..
  | splitRecipientSet .. | splitRecipientRemoved .. | minWithdrawalIntervalSet ..
  | emergencyPaused .. | emergencyUnpaused .. => []

/-- A published event with its sequence number. -/
structure Published where
  sequence : U64
  event : Event
deriving DecidableEq

/-- Why the stream issued a transfer.  The label is the model's, one for each kind of call site;
the token contract does not see it. -/
inductive Purpose where
  | payout | refund | clawback | deposit | keeper
deriving DecidableEq

/-- A transfer the stream issued to a token contract. -/
structure Transfer where
  token : Address
  src : Address
  dst : Address
  amount : I128
  purpose : Purpose
deriving DecidableEq

/-! ### The state -/

structure State where
  store : Storage
  tokens : Ledger
  events : List Published := []
  transfers : List Transfer := []

/-- A stream contract as deployed, before `initialize`. -/
def State.fresh (tokens : Ledger) : State := { store := {}, tokens := tokens }

/-- `state::load`: panics with `NotInitialized` on a missing `Config`. -/
def load (s : State) : Result StreamInfo := okOr s.store.config (err .notInitialized)

/-- `state::save`. -/
def State.save (s : State) (info : StreamInfo) : State :=
  { s with store := { s.store with config := some info } }

/-- `state::assert_not_cancelled`. -/
def assertNotCancelled (info : StreamInfo) : Result Unit :=
  reject (info.isCancelled = true) (err .streamCancelled)

/-- `MAX_REENTRANCY_DEPTH`. -/
def maxReentrancyDepth : U32 := .lit 1

/-- `state::lock`. -/
def lock (s : State) : Result State := do
  let depth := s.store.guard.getD (.lit 0)
  reject (maxReentrancyDepth ≤ depth) (err .reentrancyForbidden)
  let next ← okOr (depth.checkedAdd (.lit 1)) .trap
  return { s with store := { s.store with guard := some next } }

/-- `state::unlock`. -/
def unlock (s : State) : State :=
  match (s.store.guard.getD (.lit 0)).checkedSub (.lit 1) with
  | some depth => { s with store := { s.store with guard := some depth } }
  | none => s

/-- `state::with_guard`.  The source releases the lock on the error path too; there the host has
already discarded the state. -/
def withGuard {α : Type} (s : State) (f : State → Result (α × State)) : Result (α × State) := do
  let s ← lock s
  let (a, s) ← f s
  return (a, unlock s)

/-! ### Publishing -/

/-- `events::next_sequence`, and the publication of `e` under it. -/
def publish (s : State) (e : Event) : Result State := do
  reject (∃ a ∈ e.amounts, a.val < 0) (err .invalidAmount)
  let info ← load s
  let next ← okOr (info.eventSequence.checkedAdd (.lit 1)) (err .arithmeticOverflow)
  let s := s.save { info with eventSequence := next }
  return { s with events := s.events ++ [⟨next, e⟩] }

/-! ### Token calls -/

/-- `token::Client::balance`. -/
def State.balance (s : State) (token holder : Address) : I128 := (s.tokens.balance token holder).widen

/-- `token::Client::transfer`; a failed token call traps. -/
def transfer (s : State) (t : Transfer) : Result State := do
  let tokens ← okOr (s.tokens.transfer t.token t.src t.dst t.amount) .trap
  return { s with tokens := tokens, transfers := s.transfers ++ [t] }

end Drip.Stream
