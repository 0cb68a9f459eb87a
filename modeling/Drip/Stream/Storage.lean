import Drip.Common.Pause

/-!
# Stream — Storage

`contracts/stream/src/storage.rs` and `errors.rs`: the records a `DripStream` keeps in instance
storage, and the errors it returns.  `Storage` has one field for each `DataKey`; an absent key is
`none`.
-/

namespace Drip.Stream

inductive Error where
  | notAuthorized | streamNotFound | streamCancelled | streamNotStarted | streamEnded
  | nothingToWithdraw | insufficientDeposit | invalidTimeRange | alreadyPaused | notPaused
  | clawbackDisabled | arithmeticOverflow | pauseThresholdNotMet | alreadyInitialized
  | invalidAmount | reentrancyForbidden | operatorAlreadySet | notInitialized | invalidRecipient
  | backdatedStream | streamUnderfunded | withdrawalTooFrequent | contractPaused
  | streamNotCancelable | zeroRateStreamNotAllowed | streamDurationTooShort | descriptionTooLong
  | invalidKeeperRewardToken | keeperRewardPoolNotConfigured | insufficientKeeperRewardPool
  | keeperPingTooFrequent | keeperRewardTransferFailed
deriving DecidableEq

/-- The outcome of a stream entry point. -/
abbrev Result (α : Type) := Outcome Error α

/-- `Err(e)`, and `panic_with_error!(env, e)`. -/
abbrev err (e : Error) : Failure Error := .contract e

def flagPaused : BitVec 32 := 1
def flagClawbackEnabled : BitVec 32 := 2
def flagCancelled : BitVec 32 := 4
def flagRegulatedAsset : BitVec 32 := 8

/-- `CURRENT_STORAGE_VERSION`. -/
def currentStorageVersion : U32 := .lit 1

structure ImmutableConfig where
  startTime : U64
  stopTime : U64
  token : Address
  ratePerSecond : I128
  sender : Address
  recipient : Address
deriving DecidableEq

structure StreamKeeperRewardPool where
  token : Address
  rewardPerPing : I128
  balance : I128
deriving DecidableEq

structure SplitConfig where
  secondaryRecipient : Address
  splitBps : U32
deriving DecidableEq

structure CliffConfig where
  cliffTime : U64
  cliffUnlockAmount : I128
deriving DecidableEq

structure RateCheckpoint where
  accrued : I128
  «at» : U64
deriving DecidableEq

structure StreamConfig where
  isCancelable : Bool
deriving DecidableEq

structure StreamInfo where
  sender : Address
  recipient : Address
  token : Address
  ratePerSecond : I128
  startTime : U64
  endTime : U64
  withdrawn : I128
  pausedAt : U64
  flags : BitVec 32
  eventSequence : U64
  cumulativeFees : I128
deriving DecidableEq

namespace StreamInfo

def isPaused (info : StreamInfo) : Bool := info.flags &&& flagPaused != 0
def isCancelled (info : StreamInfo) : Bool := info.flags &&& flagCancelled != 0
def isClawbackEnabled (info : StreamInfo) : Bool := info.flags &&& flagClawbackEnabled != 0

def markPaused (info : StreamInfo) : StreamInfo := { info with flags := info.flags ||| flagPaused }
def markResumed (info : StreamInfo) : StreamInfo :=
  { info with flags := info.flags &&& ~~~flagPaused }
def markCancelled (info : StreamInfo) : StreamInfo :=
  { info with flags := info.flags ||| flagCancelled }

end StreamInfo

/-- Instance storage, one field for each `DataKey`. -/
structure Storage where
  config : Option StreamInfo := none
  guard : Option U32 := none
  storageVersion : Option U32 := none
  operator : Option Address := none
  forceCancelPauseThresholdSecs : Option U64 := none
  splitConfig : Option SplitConfig := none
  cliffConfig : Option CliffConfig := none
  minWithdrawalInterval : Option U64 := none
  lastWithdrawalTime : Option U64 := none
  rateCheckpoint : Option RateCheckpoint := none
  emergencyPaused : Option Pause.Stored := none
  immutableConfig : Option ImmutableConfig := none
  cliffReached : Option Bool := none
  streamCompleted : Option Bool := none
  streamConfig : Option StreamConfig := none
  streamTitle : Option Bytes := none
  referenceTag : Option Bytes := none
  streamDescription : Option Bytes := none
  keeperRewardPool : Option StreamKeeperRewardPool := none
  lastKeeperPingLedger : Option U32 := none
  autoForwardAddress : Option Address := none
  cumulativeDeposited : Option I128 := none
  invoiceMetadataUri : Option Bytes := none
  milestoneMetadataUri : Option Bytes := none

/-! ### Flag bits -/

theorem or_and_of_disjoint {x a b : BitVec 32} (h : a &&& b = 0) : (x ||| a) &&& b = x &&& b := by
  have : (x ||| a) &&& b = (x &&& b) ||| (a &&& b) := by
    ext i; simp [Bool.and_or_distrib_right]
  rw [this, h]; simp

theorem or_and_self (x a : BitVec 32) : (x ||| a) &&& a = a := by
  ext i; simp; intro h; exact .inr h

theorem and_not_and_self (x a : BitVec 32) : (x &&& ~~~a) &&& a = 0 := by
  ext i; simp

theorem and_not_and_of_disjoint {x a b : BitVec 32} (h : a &&& b = 0) :
    (x &&& ~~~a) &&& b = x &&& b := by
  have : (x &&& b) = (x &&& ~~~a &&& b) ||| (x &&& (a &&& b)) := by
    ext i; simp; cases x[i] <;> cases a[i] <;> cases b[i] <;> rfl
  rw [this, h]; simp

namespace StreamInfo

@[simp] theorem isPaused_markPaused (info : StreamInfo) : info.markPaused.isPaused = true := by
  simp only [isPaused, markPaused, or_and_self]; rfl
@[simp] theorem isPaused_markResumed (info : StreamInfo) : info.markResumed.isPaused = false := by
  simp only [isPaused, markResumed, and_not_and_self]; rfl
@[simp] theorem isPaused_markCancelled (info : StreamInfo) :
    info.markCancelled.isPaused = info.isPaused := by
  simp only [isPaused, markCancelled, or_and_of_disjoint (show flagCancelled &&& flagPaused = 0 by rfl)]
@[simp] theorem isCancelled_markCancelled (info : StreamInfo) :
    info.markCancelled.isCancelled = true := by
  simp only [isCancelled, markCancelled, or_and_self]; rfl
@[simp] theorem isCancelled_markPaused (info : StreamInfo) :
    info.markPaused.isCancelled = info.isCancelled := by
  simp only [isCancelled, markPaused, or_and_of_disjoint (show flagPaused &&& flagCancelled = 0 by rfl)]
@[simp] theorem isCancelled_markResumed (info : StreamInfo) :
    info.markResumed.isCancelled = info.isCancelled := by
  simp only [isCancelled, markResumed,
    and_not_and_of_disjoint (show flagPaused &&& flagCancelled = 0 by rfl)]

end StreamInfo

end Drip.Stream
