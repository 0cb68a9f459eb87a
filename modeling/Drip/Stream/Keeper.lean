import Drip.Stream.Control

/-!
# Stream — Keeper

The keeper reward pool of `contracts/stream/src/lib.rs`: a separately funded pot in a token other
than the stream token, from which `keeper_ping` pays a bounty.  Every address is taken to answer
`balance`, so the `try_balance` probe of `configure_keeper_reward_pool` always succeeds.
-/

namespace Drip.Stream
open Chain

/-- `drip_common::ttl::MIN_TTL_LEDGERS` of the default (mainnet) build. -/
def minTtlLedgers : U32 := .lit 100000

def State.setPool (s : State) (pool : StreamKeeperRewardPool) : State :=
  { s with store := { s.store with keeperRewardPool := some pool } }

def configureKeeperRewardPoolBody (env : Env) (caller rewardToken : Address)
    (rewardPerPing : I128) (s : State) : Result (Unit × State) := do
  let info ← load s
  requireSenderOrOperator env s caller info.sender
  assertNotCancelled info
  reject (rewardPerPing.val ≤ 0) (err .invalidAmount)
  reject (isZeroAddress rewardToken = true ∨ rewardToken = info.token)
    (err .invalidKeeperRewardToken)
  reject (∃ pool ∈ s.store.keeperRewardPool, pool.token ≠ rewardToken)
    (err .invalidKeeperRewardToken)
  let balance := (s.store.keeperRewardPool.map (·.balance)).getD (.lit 0)
  let s := s.setPool ⟨rewardToken, rewardPerPing, balance⟩
  let s ← publish s (.keeperRewardPoolConfigured caller rewardToken rewardPerPing)
  return ((), s)

def configureKeeperRewardPool (env : Env) (caller rewardToken : Address) (rewardPerPing : I128)
    (s : State) : Result (Unit × State) :=
  withGuard s (configureKeeperRewardPoolBody env caller rewardToken rewardPerPing)

def fundKeeperRewardPoolBody (env : Env) (caller : Address) (amount : I128) (s : State) :
    Result (Unit × State) := do
  let info ← load s
  requireSenderOrOperator env s caller info.sender
  assertNotCancelled info
  reject (amount.val ≤ 0) (err .invalidAmount)
  let pool ← okOr s.store.keeperRewardPool (err .keeperRewardPoolNotConfigured)
  let newPoolBalance ← okOr (pool.balance.checkedAdd amount) (err .arithmeticOverflow)
  let expected ← okOr ((s.balance pool.token env.contract).checkedAdd amount)
    (err .arithmeticOverflow)
  let s := s.setPool { pool with balance := newPoolBalance }
  let s ← transfer s ⟨pool.token, caller, env.contract, amount, .keeper⟩
  reject (s.balance pool.token env.contract ≠ expected) (err .keeperRewardTransferFailed)
  let s ← publish s (.keeperRewardPoolFunded caller pool.token amount)
  return ((), s)

def fundKeeperRewardPool (env : Env) (caller : Address) (amount : I128) (s : State) :
    Result (Unit × State) :=
  withGuard s (fundKeeperRewardPoolBody env caller amount)

/-- The payment block of `withdraw_keeper_reward_pool` and `keeper_ping`: both balances must move
by exactly the amount. -/
def payFromPool (env : Env) (token payee : Address) (amount : I128) (s : State) :
    Result State := do
  let expected ← okOr ((s.balance token env.contract).checkedSub amount)
    (err .insufficientKeeperRewardPool)
  let expectedPayee ← okOr ((s.balance token payee).checkedAdd amount) (err .arithmeticOverflow)
  let s ← transfer s ⟨token, env.contract, payee, amount, .keeper⟩
  reject (s.balance token env.contract ≠ expected ∨ s.balance token payee ≠ expectedPayee)
    (err .keeperRewardTransferFailed)
  return s

def withdrawKeeperRewardPoolBody (env : Env) (caller : Address) (amount : I128) (s : State) :
    Result (Unit × State) := do
  let info ← load s
  requireSenderOrOperator env s caller info.sender
  reject (amount.val ≤ 0) (err .invalidAmount)
  let pool ← okOr s.store.keeperRewardPool (err .keeperRewardPoolNotConfigured)
  let balance ← okOr (pool.balance.checkedSub amount) (err .insufficientKeeperRewardPool)
  let s := s.setPool { pool with balance := balance }
  let s ← payFromPool env pool.token caller amount s
  let s ← publish s (.keeperRewardPoolWithdrawn caller pool.token amount)
  return ((), s)

def withdrawKeeperRewardPool (env : Env) (caller : Address) (amount : I128) (s : State) :
    Result (Unit × State) :=
  withGuard s (withdrawKeeperRewardPoolBody env caller amount)

def keeperPingBody (env : Env) (keeper : Address) (s : State) : Result (I128 × State) := do
  requireAuth env keeper
  let info ← load s
  assertNotCancelled info
  let pool ← okOr s.store.keeperRewardPool (err .keeperRewardPoolNotConfigured)
  reject (pool.balance < pool.rewardPerPing) (err .insufficientKeeperRewardPool)
  let ledger := env.sequence
  reject (∃ last ∈ s.store.lastKeeperPingLedger, ledger < last.saturatingAdd minTtlLedgers)
    (err .keeperPingTooFrequent)
  let bountyAmount := pool.rewardPerPing
  let balance ← okOr (pool.balance.checkedSub bountyAmount) (err .arithmeticOverflow)
  let s := s.setPool { pool with balance := balance }
  let s := { s with store := { s.store with lastKeeperPingLedger := some ledger } }
  let s ← payFromPool env pool.token keeper bountyAmount s
  let s ← publish s (.keeperPing keeper bountyAmount)
  return (bountyAmount, s)

def keeperPing (env : Env) (keeper : Address) (s : State) : Result (I128 × State) :=
  withGuard s (keeperPingBody env keeper)

/-! ### All entry points -/

/-- A call of a state-changing entry point.  `is_emergency_paused` is one of them: reading the
freeze may rewrite it. -/
inductive Call where
  | initializeStream (args : InitArgs)
  | withdraw (amount : I128)
  | cancel (caller : Address)
  | forceCancel
  | clawback (caller : Address)
  | topUp (caller : Address) (amount : I128)
  | extendDuration (caller : Address) (extraTimeSeconds : U64)
  | topUpAndExtend (caller : Address) (amount : I128) (extraTimeSeconds : U64)
  | pause (caller : Address)
  | resume (caller : Address)
  | changeRate (caller : Address) (newRatePerSecond : I128)
  | setCliff (caller : Address) (cliffTime : U64) (cliffUnlockAmount : I128)
  | transferRecipient (newRecipient : Address)
  | setAutoForwardAddress (address : Address)
  | setSplitRecipient (caller secondaryRecipient : Address) (splitBps : U32)
  | removeSplitRecipient (caller : Address)
  | setOperator (caller operator : Address)
  | revokeOperator (caller : Address)
  | setStreamTitle (caller : Address) (title : Bytes)
  | setReferenceTag (caller : Address) (tag : Bytes)
  | setInvoiceMetadataUri (caller : Address) (uri : Bytes)
  | setMilestoneMetadataUri (caller : Address) (uri : Bytes)
  | setMinWithdrawalInterval (caller : Address) (intervalSeconds : U64)
  | setStreamConfig (caller : Address) (config : StreamConfig)
  | isEmergencyPaused
  | emergencyPause (caller : Address)
  | emergencyUnpause (caller : Address)
  | configureKeeperRewardPool (caller rewardToken : Address) (rewardPerPing : I128)
  | fundKeeperRewardPool (caller : Address) (amount : I128)
  | withdrawKeeperRewardPool (caller : Address) (amount : I128)
  | keeperPing (keeper : Address)
deriving DecidableEq

/-- The state after a result whose value is not looked at. -/
def after {α : Type} (r : Result (α × State)) : Result State := do
  let (_, s) ← r
  return s

/-- The state a call leaves. -/
def exec (env : Env) (s : State) : Call → Result State
  | .initializeStream args => after (initializeStream env args s)
  | .withdraw amount => after (withdraw env amount s)
  | .cancel caller => after (cancel env caller s)
  | .forceCancel => after (forceCancel env s)
  | .clawback caller => after (clawback env caller s)
  | .topUp caller amount => after (topUp env caller amount s)
  | .extendDuration caller extra => after (extendDuration env caller extra s)
  | .topUpAndExtend caller amount extra => after (topUpAndExtend env caller amount extra s)
  | .pause caller => after (pause env caller s)
  | .resume caller => after (resume env caller s)
  | .changeRate caller rate => after (changeRate env caller rate s)
  | .setCliff caller time amount => after (setCliff env caller time amount s)
  | .transferRecipient r => after (transferRecipient env r s)
  | .setAutoForwardAddress a => after (setAutoForwardAddress env a s)
  | .setSplitRecipient caller secondary bps => after (setSplitRecipient env caller secondary bps s)
  | .removeSplitRecipient caller => after (removeSplitRecipient env caller s)
  | .setOperator caller operator => after (setOperator env caller operator s)
  | .revokeOperator caller => after (revokeOperator env caller s)
  | .setStreamTitle caller title => after (setStreamTitle env caller title s)
  | .setReferenceTag caller tag => after (setReferenceTag env caller tag s)
  | .setInvoiceMetadataUri caller uri => after (setInvoiceMetadataUri env caller uri s)
  | .setMilestoneMetadataUri caller uri => after (setMilestoneMetadataUri env caller uri s)
  | .setMinWithdrawalInterval caller secs => after (setMinWithdrawalInterval env caller secs s)
  | .setStreamConfig caller config => after (setStreamConfig env caller config s)
  | .isEmergencyPaused => .ok (isEmergencyPaused env s).2
  | .emergencyPause caller => after (emergencyPause env caller s)
  | .emergencyUnpause caller => after (emergencyUnpause env caller s)
  | .configureKeeperRewardPool caller token reward =>
      after (configureKeeperRewardPool env caller token reward s)
  | .fundKeeperRewardPool caller amount => after (fundKeeperRewardPool env caller amount s)
  | .withdrawKeeperRewardPool caller amount => after (withdrawKeeperRewardPool env caller amount s)
  | .keeperPing keeper => after (keeperPing env keeper s)

end Drip.Stream
