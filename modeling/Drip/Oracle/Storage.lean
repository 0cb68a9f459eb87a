import Drip.Common.Pause
import Drip.Common.Rbac

/-!
# Oracle — Storage

What a `TwapOracle` keeps, the errors it returns and the events it publishes
(`contracts/oracle/src/lib.rs`).  `Storage` has a field for each `DataKey` that some function reads or
writes.  The keys of the aggregated price are gathered in a `Book`, those of the pair prices in a
`Pairs`, which the contract has twice: for pairs of addresses and for pairs of symbols.

`StellarAssetStalenessSecs` has no reader, and is left out.
-/

namespace Drip.Oracle
open Chain

inductive Error where
  | oracleStalePrice | oracleNotConfigured | invalidPrice | oracleLocked | calculationOverflow
  | notAuthorized | alreadyInitialized | noPriceAvailable | arithmeticOverflow | invalidDecimals
  | contractPaused | alreadyPaused | notPaused | lastAdmin | invalidMaxStaleness | tooManySubmitters
  | priceExceedsMaxPrice | submitTooSoon | invalidMinSubmitters | insufficientQuorum
  | invalidWasmHash | priceNotFound | tooManyPairReporters | stalePriceFeed
  | excessivePriceDeviation | priceDeviationExceeded | fallbackOracleFailed
  | invalidHeartbeatTimeout | invalidObservationCount | oracleDeviationTooHigh
  | invalidRoleExpiration
deriving DecidableEq

/-- The outcome of an oracle entry point. -/
abbrev Result (α : Type) := Outcome Error α

/-- `Err(e)`. -/
abbrev err (e : Error) : Failure Error := .contract e

inductive Role where
  | admin | priceFeeder | pauser
deriving DecidableEq

/-- The host's `Symbol`, by its characters. -/
abbrev Symbol := Bytes

/-! ### Configuration -/

structure AssetOracleConfig where
  heartbeatTimeoutSeconds : U64
deriving DecidableEq

structure OracleConfig where
  decimals : U32
  assetPeg : U32
  maxStaleness : U64
  maxPrice : U64
  minSubmitInterval : U64
  minSubmitters : U32
deriving DecidableEq

/-- The changes to a configuration; `none` leaves a field as it is. -/
structure OracleConfigUpdate where
  decimals : Option U32
  assetPeg : Option U32
  maxStaleness : Option U64
  maxPrice : Option U64
  minSubmitInterval : Option U64
  minSubmitters : Option U32
  quoteCurrency : Option Symbol
  maxDeviationBps : Option U32
deriving DecidableEq

/-! ### Prices -/

structure PriceData where
  price : U64
  updatedAt : U64
deriving DecidableEq

structure PriceObservation where
  price : U64
  timestamp : U64
deriving DecidableEq

structure PairPriceData where
  price : U128
  updatedAt : U64
deriving DecidableEq

structure PriceStatus where
  freshSubmitterCount : Nat
  minSubmitters : U32
  newestAge : U64
  oldestFreshAge : U64
  stale : Bool
deriving DecidableEq

/-- The keys of the aggregated price. -/
structure Book where
  config : Option OracleConfig := none
  /-- the legacy scalar `DataKey::Price` -/
  price : Option PriceData := none
  submission : Address → Option PriceData := fun _ => none
  submitters : Option (List Address) := none
  priceObservations : Option (List PriceObservation) := none
  primaryOracle : Option Address := none
  fallbackOracle : Option Address := none

/-- The keys of the pair prices. -/
structure Pairs (K : Type) where
  pairPrice : K → K → Option U128 := fun _ _ => none
  pairSubmission : K → K → Address → Option PairPriceData := fun _ _ _ => none
  pairReporters : K → K → Option (List Address) := fun _ _ => none

structure Storage extends Book where
  admin : Option Address := none
  roles : Rbac.Records Role := {}
  paused : Option Pause.Stored := none
  quoteCurrency : Option Symbol := none
  maxStalenessSeconds : Option U64 := none
  maxDeviationBps : Option U32 := none
  assetOracleConfig : Address → Option AssetOracleConfig := fun _ => none
  pairs : Pairs Address := {}
  symbolPairs : Pairs Symbol := {}
  /-- the depth of the re-entrancy guard `O_Lock`; a missing key reads as 0 -/
  lock : U32 := .lit 0

/-! ### The state -/

/-- The payload of each event, topics first.  The event of a rejected price is rolled back with the
call that published it. -/
inductive Event where
  | grantRole (caller : Address) (role : Role) (account : Address)
  | revokeRole (caller : Address) (role : Role) (account : Address)
  | roleRevoked (e : Rbac.RoleRevokedEvent)
  | adminTransferred (oldAdmin newAdmin : Address)
  | paused (caller : Address) (pausedAt : U64)
  | unpaused (caller : Address) (resumedAt : U64)
  | upgraded (caller : Address) (upgradedAt : U64)
  | priceSubmitted (caller : Address) (price timestamp : U64)
  | oracleConfigured (caller : Address) (config : OracleConfig)
  | quoteCurrencyConfigured (caller : Address) (currency : Symbol)
deriving DecidableEq

structure State where
  store : Storage
  events : List Event := []

/-- An oracle as deployed, before `initialize`. -/
def State.fresh : State := { store := {} }

def State.publish (s : State) (e : Event) : State := { s with events := s.events ++ [e] }

def State.withRoles (s : State) (roles : Rbac.Records Role) : State :=
  { s with store := { s.store with roles := roles } }

def State.withBook (s : State) (b : Book) : State :=
  { s with store := { s.store with toBook := b } }

end Drip.Oracle
