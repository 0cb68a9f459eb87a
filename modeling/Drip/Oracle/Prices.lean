import Drip.Oracle.Median
import Drip.Oracle.Roles

/-!
# Oracle — Prices

The aggregated price of `contracts/oracle/src/lib.rs`: what a feeder submits, what the reads answer
and what they record.  A read that gets its price from a feed records it next to the medians of the
submissions, in the same list; it is therefore a function to an answer and the `Book` it leaves.

A feed that has no submission here is asked as a contract.  Its code is not in the repository, and
`Feeds` is what it answers to one invocation; a call that fails is `none`.
-/

namespace Drip.Oracle
open Chain

def maxSubmitters : Nat := 32
def maxTwapObservations : U32 := .lit 32

/-- `now.saturating_sub(at)`. -/
abbrev age (now at' : U64) : U64 := now.saturatingSub at'

def U128.div (a b : U128) : U128 where
  val := a.val / b.val
  ge := Int.ediv_nonneg a.ge b.ge
  le := (Int.ediv_le_self _ a.ge).trans a.le

def U128.checkedDiv (a b : U128) : Option U128 := if b.val = 0 then none else some (U128.div a b)

def U64.absDiff (a b : U64) : U64 := (max a b).saturatingSub (min a b)

/-! ### Guards -/

def hasRole (env : Env) (role : Role) (account : Address) (s : State) : Result Bool :=
  (Rbac.hasRole env.timestamp (s.store.roles.role role account)).mapError ofRbac

/-- The role itself; an admin does not pass for it. -/
def requireRole (env : Env) (caller : Address) (role : Role) (s : State) : Result Unit := do
  requireAuth env caller
  let held ← hasRole env role caller s
  reject (held = false) (err .notAuthorized)

/-- A read of the pause flag may rewrite it. -/
def isPaused (env : Env) (s : State) : Bool × State :=
  let (paused, stored) := Pause.isPaused env.timestamp s.store.paused
  (paused, { s with store := { s.store with paused := stored } })

/-- `set_paused`: a refusal by the shared helper is ignored, a trap is not. -/
def setPaused (env : Env) (paused : Bool) (s : State) : Result State :=
  match Pause.setPaused env.timestamp s.store.paused paused with
  | .ok stored => .ok { s with store := { s.store with paused := stored } }
  | .error (.contract _) => .ok s
  | .error .trap => .error .trap

def requireNotPaused (env : Env) (s : State) : Result State := do
  let (paused, s) := isPaused env s
  reject (paused = true) (err .contractPaused)
  return s

def State.withLock (s : State) (lock : U32) : State :=
  { s with store := { s.store with lock := lock } }

/-- `with_guard`: the depth counter goes up and down again. -/
def withGuard {α : Type} (f : State → Result (α × State)) (s : State) : Result (α × State) := do
  let depth := s.store.lock
  reject (1 ≤ depth.val) (err .oracleLocked)
  let (a, s) ← f (s.withLock (depth.saturatingAdd (.lit 1)))
  let d := s.store.lock
  return (a, if 0 < d.val then s.withLock (d.saturatingSub (.lit 1)) else s)

/-- A read of the aggregated price, as part of the whole contract. -/
def onBook {α : Type} (f : Book → Result (α × Book)) (s : State) : Result (α × State) := do
  let (a, b) ← f s.store.toBook
  return (a, s.withBook b)

/-! ### Feeds -/

/-- What contracts outside the repository answer to `get_twap_price` and to `latest_price`. -/
structure Feeds where
  twapPrice : Address → Option U64
  latestPrice : Address → Option PriceData

/-- A submission of this contract, or else the answer of the contract at `feed`. -/
def queryOracleFeed (feeds : Feeds) (env : Env) (feed : Address) (maxStaleness : U64) (b : Book) :
    Result PriceData :=
  match b.submission feed with
  | some data => do
      reject (data.price.val = 0) (err .invalidPrice)
      reject (0 < maxStaleness.val ∧ maxStaleness < age env.timestamp data.updatedAt)
        (err .oracleStalePrice)
      return data
  | none =>
      if feed = env.contract then .error (err .noPriceAvailable)
      else match (feeds.twapPrice feed).filter fun price => 0 < price.val with
        | some price => .ok ⟨price, env.timestamp⟩
        | none => okOr ((feeds.latestPrice feed).filter fun data => 0 < data.price.val ∧
            (maxStaleness.val = 0 ∨ age env.timestamp data.updatedAt ≤ maxStaleness))
            (err .noPriceAvailable)

/-- The fallback is asked where the primary feed fails, and an error is the primary feed's. -/
def resolveOracleWithFailover (feeds : Feeds) (env : Env) (maxStaleness : U64) (b : Book) :
    Result PriceData :=
  let failover (primaryErr : Failure Error) : Result PriceData :=
    okOr (b.fallbackOracle.bind fun feed =>
      (queryOracleFeed feeds env feed maxStaleness b).toOption) primaryErr
  match b.primaryOracle with
  | some feed =>
      match queryOracleFeed feeds env feed maxStaleness b with
      | .ok data => .ok data
      | .error primaryErr => failover primaryErr
  | none => failover (err .noPriceAvailable)

def Book.HasFeeds (b : Book) : Prop := b.primaryOracle.isSome = true ∨ b.fallbackOracle.isSome = true

instance (b : Book) : Decidable b.HasFeeds := inferInstanceAs (Decidable (_ ∨ _))

/-- The price of the feeds, where there are any and one of them has a price. -/
def consultFeeds (feeds : Feeds) (env : Env) (maxStaleness : U64) (b : Book) : Option PriceData :=
  if b.HasFeeds then (resolveOracleWithFailover feeds env maxStaleness b).toOption else none

/-! ### Submissions -/

def Book.roster (b : Book) : List Address := b.submitters.getD []

/-- The submission is recent enough to count. -/
def PriceData.Fresh (data : PriceData) (now maxStaleness : U64) : Prop :=
  age now data.updatedAt ≤ maxStaleness ∧ data.price.val ≠ 0

instance (data : PriceData) (now maxStaleness : U64) : Decidable (data.Fresh now maxStaleness) :=
  inferInstanceAs (Decidable (_ ∧ _))

/-- A turn of the loop over the submitters: the prices that count, and whether there is any
submission. -/
def freshTurn (now maxStaleness : U64) (b : Book) (x : List U64 × Bool) (feeder : Address) :
    List U64 × Bool :=
  match b.submission feeder with
  | some data => (if data.Fresh now maxStaleness then x.1 ++ [data.price] else x.1, true)
  | none => x

def freshPrices (now maxStaleness : U64) (b : Book) : List U64 × Bool :=
  b.roster.foldl (freshTurn now maxStaleness b) ([], false)

/-- `add_submitter`. -/
def addSubmitter (account : Address) (b : Book) : Result Book :=
  if account ∈ b.roster then .ok b
  else do
    reject (maxSubmitters ≤ b.roster.length) (err .tooManySubmitters)
    return { b with submitters := some (b.roster ++ [account]) }

/-- `current_submission_median`; the loop is the one above. -/
def currentSubmissionMedian (fallbackPrice now : U64) (b : Book) : U64 :=
  match b.config with
  | none => fallbackPrice
  | some config => (median (freshPrices now config.maxStaleness b).1).getD fallbackPrice

/-! ### Observations -/

def Book.observations (b : Book) : List PriceObservation := b.priceObservations.getD []

/-- The list with one more observation: the last of the same time gives way, and the oldest of a full
list. -/
def observe (observations : List PriceObservation) (o : PriceObservation) : List PriceObservation :=
  match observations.getLast? with
  | some latest =>
      if latest.timestamp = o.timestamp then observations.dropLast ++ [o]
      else if observations.length = maxTwapObservations.val then observations.drop 1 ++ [o]
      else observations ++ [o]
  | none => observations ++ [o]

def recordPriceObservation (price timestamp : U64) (b : Book) : Result Book := do
  reject (∃ latest ∈ b.observations.getLast?, timestamp < latest.timestamp) (err .stalePriceFeed)
  return { b with priceObservations := some (observe b.observations ⟨price, timestamp⟩) }

/-- How long an observation held: until the next one, `now`, or its own age limit. -/
def duration (now maxStaleness : U64) (observation : PriceObservation) (rest : List PriceObservation) :
    U64 :=
  let nextTimestamp := (rest.head?.map PriceObservation.timestamp).getD now
  let validUntil := min (min nextTimestamp now) (observation.timestamp.saturatingAdd maxStaleness)
  validUntil.saturatingSub observation.timestamp

/-- The loop of `calculate_twap`: the sum of the prices by their durations, and of the durations. -/
def weigh (now maxStaleness : U64) : List PriceObservation → U128 → U64 → Result (U128 × U64)
  | [], weightedPrice, totalDuration => .ok (weightedPrice, totalDuration)
  | observation :: rest, weightedPrice, totalDuration => do
      let duration := duration now maxStaleness observation rest
      let product ← okOr (Ranged.checkedMul (observation.price.widen : U128) duration.widen)
        (err .arithmeticOverflow)
      let weightedPrice ← okOr (weightedPrice.checkedAdd product) (err .arithmeticOverflow)
      let totalDuration ← okOr (totalDuration.checkedAdd duration) (err .arithmeticOverflow)
      weigh now maxStaleness rest weightedPrice totalDuration

/-- The last `count` observations. -/
def Book.window (count : U32) (b : Book) : List PriceObservation :=
  b.observations.drop (b.observations.length - count.val.toNat)

def calculateTwap (now : U64) (count : U32) (maxStaleness : U64) (b : Book) : Result U64 := do
  reject (b.observations = []) (err .noPriceAvailable)
  let (weightedPrice, totalDuration) ← weigh now maxStaleness (b.window count) (.lit 0) (.lit 0)
  reject (totalDuration.val = 0) (err .noPriceAvailable)
  okOr (Ranged.ofInt? (weightedPrice.val / totalDuration.val)) (err .arithmeticOverflow)

def recordAndCalculateTwap (now price timestamp : U64) (count : U32) (maxStaleness : U64) (b : Book) :
    Result (U64 × Book) := do
  let b ← recordPriceObservation price timestamp b
  match calculateTwap now count maxStaleness b with
  | .ok twap => return (twap, b)
  | .error (.contract .noPriceAvailable) => return (price, b)
  | .error e => .error e

/-! ### Reads -/

def getTwapPriceInner (feeds : Feeds) (env : Env) (count : U32) (b : Book) :
    Result (U64 × Book) := do
  reject (count.val = 0 ∨ maxTwapObservations < count) (err .invalidObservationCount)
  let config ← okOr b.config (err .oracleNotConfigured)
  let record (data : PriceData) : Result (U64 × Book) :=
    recordAndCalculateTwap env.timestamp data.price data.updatedAt count config.maxStaleness b
  match consultFeeds feeds env config.maxStaleness b with
  | some data => record data
  | none =>
      let (fresh, saw) := freshPrices env.timestamp config.maxStaleness b
      let fallback := (resolveOracleWithFailover feeds env config.maxStaleness b).toOption
      if fresh = [] then
        match fallback with
        | some data => record data
        | none => .error (err (if saw then .oracleStalePrice else .noPriceAvailable))
      else if fresh.length < config.minSubmitters.val then
        match fallback with
        | some data => record data
        | none => .error (err .insufficientQuorum)
      else
        match calculateTwap env.timestamp count config.maxStaleness b with
        | .ok price => .ok (price, b)
        -- no time has passed since the observations of the window
        | .error (.contract .noPriceAvailable) => do
            let price ← okOr (median fresh) .trap
            return (price, b)
        | .error e => .error e

/-- The accumulators of `load_price_status`. -/
structure Counts where
  count : Nat := 0
  newest : U64 := .lit 0
  oldest : U64 := .lit 0
  saw : Bool := false

/-- A turn of its loop. -/
def statusTurn (now maxStaleness : U64) (b : Book) (x : Counts) (feeder : Address) : Counts :=
  match b.submission feeder with
  | some data =>
      let a := age now data.updatedAt
      if data.Fresh now maxStaleness then
        if x.count = 0 then ⟨x.count + 1, a, a, true⟩
        else ⟨x.count + 1, min x.newest a, max x.oldest a, true⟩
      else { x with saw := true }
  | none => x

def statusCounts (now maxStaleness : U64) (b : Book) : Counts :=
  b.roster.foldl (statusTurn now maxStaleness b) {}

def loadPriceStatus (env : Env) (b : Book) : Result PriceStatus := do
  let config ← okOr b.config (err .oracleNotConfigured)
  let x := statusCounts env.timestamp config.maxStaleness b
  reject (x.saw = false) (err .noPriceAvailable)
  return ⟨x.count, config.minSubmitters, x.newest, x.oldest, decide (x.count = 0)⟩

def priceAge (env : Env) (b : Book) : Result U64 := (loadPriceStatus env b).map PriceStatus.newestAge

def isPriceStale (env : Env) (b : Book) : Result Bool := (loadPriceStatus env b).map PriceStatus.stale

def calculateFiatStreamPayoutInner (feeds : Feeds) (env : Env) (tokenAmount : U64) (b : Book) :
    Result (U64 × Book) := do
  let (currentPrice, b) ← getTwapPriceInner feeds env maxTwapObservations b
  let config ← okOr b.config (err .oracleNotConfigured)
  let precision : U128 ← okOr (Ranged.ofInt? (10 ^ config.decimals.val.toNat)) (err .invalidDecimals)
  let product ← okOr (Ranged.checkedMul (tokenAmount.widen : U128) currentPrice.widen)
    (err .arithmeticOverflow)
  let value ← okOr (U128.checkedDiv product precision) (err .arithmeticOverflow)
  let value ← okOr (Ranged.ofInt? value.val) (err .arithmeticOverflow)
  return (value, b)

def maxStalenessSeconds (st : Storage) : U64 :=
  match st.config with
  | some config => config.maxStaleness
  | none => st.maxStalenessSeconds.getD (.lit 0)

def getTwapPrice (feeds : Feeds) (env : Env) (s : State) : Result (U64 × State) :=
  withGuard (onBook (getTwapPriceInner feeds env maxTwapObservations)) s

def getTwapPriceForObservations (feeds : Feeds) (env : Env) (count : U32) (s : State) :
    Result (U64 × State) :=
  withGuard (onBook (getTwapPriceInner feeds env count)) s

def calculateFiatStreamPayout (feeds : Feeds) (env : Env) (tokenAmount : U64) (s : State) :
    Result (U64 × State) :=
  withGuard (onBook (calculateFiatStreamPayoutInner feeds env tokenAmount)) s

/-- With feeds, their price as it is. -/
def getPriceWithFallback (feeds : Feeds) (env : Env) (s : State) : Result (U64 × State) :=
  let maxStaleness := maxStalenessSeconds s.store
  withGuard (onBook fun b =>
    if b.HasFeeds then do
      let data ← resolveOracleWithFailover feeds env maxStaleness b
      return (data.price, b)
    else getTwapPriceInner feeds env maxTwapObservations b) s

def latestPrice (feeds : Feeds) (env : Env) (s : State) : Result PriceData :=
  let maxStaleness := maxStalenessSeconds s.store
  match consultFeeds feeds env maxStaleness s.store.toBook with
  | some data => .ok data
  | none => do
      let latest := (latestSubmission s.store s.store.roster).or s.store.price
      let price ← okOr latest (err .noPriceAvailable)
      reject (0 < maxStaleness.val ∧ maxStaleness < age env.timestamp price.updatedAt)
        (err .stalePriceFeed)
      return price

/-! ### Submitting a price -/

/-- By how many basis points of the last price the new one differs from it. -/
def lastPriceDeviation (price : U64) (b : Book) : Result (Option U128) :=
  match b.price.filter fun last => 0 < last.price.val with
  | none => .ok none
  | some last => do
      let deviation ← okOr (Ranged.checkedMul ((U64.absDiff price last.price).widen : U128)
        (.lit 10000)) (err .arithmeticOverflow)
      return some (U128.div deviation last.price.widen)

/-- The checks of `submit_price` on the price and on its time. -/
def checkPrice (now : U64) (caller : Address) (price : U64) (s : State) : Result Unit := do
  reject (price.val = 0) (err .invalidPrice)
  let deviation ← lastPriceDeviation price s.store.toBook
  reject (∃ d ∈ deviation, 5000 < d.val) (err .oracleDeviationTooHigh)
  match s.store.config with
  | none => return ()
  | some config => do
      reject (config.maxPrice.val ≠ 0 ∧ config.maxPrice < price) (err .priceExceedsMaxPrice)
      let maxDeviation := s.store.maxDeviationBps.getD (.lit 0)
      reject (0 < maxDeviation.val ∧ ∃ d ∈ deviation, maxDeviation.val < d.val)
        (err .excessivePriceDeviation)
      reject (0 < config.minSubmitInterval.val ∧ ∃ last ∈ s.store.submission caller,
        age now last.updatedAt < config.minSubmitInterval) (err .submitTooSoon)

/-- What `submit_price` writes. -/
def writePrice (now : U64) (caller : Address) (price : U64) (b : Book) : Result Book := do
  let data : PriceData := ⟨price, now⟩
  let b := { b with
    price := some data
    submission := Function.update b.submission caller (some data) }
  let b ← addSubmitter caller b
  recordPriceObservation (currentSubmissionMedian price now b) now b

def submitPrice (env : Env) (caller : Address) (price : U64) (s : State) : Result State := do
  let s ← requireNotPaused env s
  requireRole env caller .priceFeeder s
  checkPrice env.timestamp caller price s
  let b ← writePrice env.timestamp caller price s.store.toBook
  return (s.withBook b).publish (.priceSubmitted caller price env.timestamp)

/-! ### Configuration -/

/-- `store_oracle_config`, the writes: a new scale clears the prices. -/
def Book.reconfigure (config : OracleConfig) (b : Book) : Book :=
  if ∃ old ∈ b.config, old.decimals ≠ config.decimals ∨ old.assetPeg ≠ config.assetPeg then
    { b with
      config := some config
      price := none
      submission := b.roster.foldl (fun sub feeder => Function.update sub feeder none) b.submission
      submitters := none
      priceObservations := none }
  else { b with config := some config }

def storeOracleConfig (caller : Address) (config : OracleConfig) (s : State) : Result State := do
  reject (19 < config.decimals.val) (err .invalidDecimals)
  reject (config.maxStaleness.val = 0) (err .invalidMaxStaleness)
  reject (config.minSubmitters.val = 0 ∨ maxSubmitters < config.minSubmitters.val)
    (err .invalidMinSubmitters)
  return (s.withBook (s.store.toBook.reconfigure config)).publish (.oracleConfigured caller config)

def configureOracle (env : Env) (caller : Address) (config : OracleConfig) (s : State) :
    Result State := do
  requireRoleOrAdmin env caller .admin s
  storeOracleConfig caller config s

/-- The configuration with the given changes. -/
def OracleConfigUpdate.apply (update : OracleConfigUpdate) (config : OracleConfig) : OracleConfig where
  decimals := update.decimals.getD config.decimals
  assetPeg := update.assetPeg.getD config.assetPeg
  maxStaleness := update.maxStaleness.getD config.maxStaleness
  maxPrice := update.maxPrice.getD config.maxPrice
  minSubmitInterval := update.minSubmitInterval.getD config.minSubmitInterval
  minSubmitters := update.minSubmitters.getD config.minSubmitters

def updateOracleConfig (env : Env) (caller : Address) (update : OracleConfigUpdate) (s : State) :
    Result State := do
  requireRoleOrAdmin env caller .admin s
  let config ← okOr s.store.config (err .oracleNotConfigured)
  let s ← storeOracleConfig caller (update.apply config) s
  let s := match update.quoteCurrency with
    | some currency => ({ s with store := { s.store with quoteCurrency := some currency } }).publish
        (.quoteCurrencyConfigured caller currency)
    | none => s
  return match update.maxDeviationBps with
    | some dev => { s with store := { s.store with maxDeviationBps := some dev } }
    | none => s

def setOracleFeeds (env : Env) (caller primaryOracle : Address) (fallbackOracle : Option Address)
    (s : State) : Result State := do
  let s ← requireNotPaused env s
  requireRoleOrAdmin env caller .admin s
  return s.withBook { s.store.toBook with
    primaryOracle := some primaryOracle, fallbackOracle := fallbackOracle }

def setPrimaryOracle (env : Env) (caller primaryOracle : Address) (s : State) : Result State := do
  let s ← requireNotPaused env s
  requireRoleOrAdmin env caller .admin s
  return s.withBook { s.store.toBook with primaryOracle := some primaryOracle }

def setFallbackOracle (env : Env) (caller fallbackOracle : Address) (s : State) : Result State := do
  let s ← requireNotPaused env s
  requireRoleOrAdmin env caller .admin s
  return s.withBook { s.store.toBook with fallbackOracle := some fallbackOracle }

/-- `set_max_staleness_seconds`: the configuration's own limit is replaced, too. -/
def setMaxStalenessSeconds (env : Env) (caller : Address) (seconds : U64) (s : State) :
    Result State := do
  let s ← requireNotPaused env s
  requireRoleOrAdmin env caller .admin s
  reject (seconds.val = 0) (err .invalidMaxStaleness)
  return { s with store := { s.store with
    maxStalenessSeconds := some seconds
    config := s.store.config.map fun config => { config with maxStaleness := seconds } } }

def setAssetOracleConfig (env : Env) (caller token : Address) (config : AssetOracleConfig)
    (s : State) : Result State := do
  let s ← requireNotPaused env s
  requireRoleOrAdmin env caller .admin s
  reject (config.heartbeatTimeoutSeconds.val = 0) (err .invalidHeartbeatTimeout)
  return { s with store := { s.store with
    assetOracleConfig := Function.update s.store.assetOracleConfig token (some config) } }

def setMaxDeviationBps (env : Env) (caller : Address) (maxDeviationBps : U32) (s : State) :
    Result State := do
  let s ← requireNotPaused env s
  requireRoleOrAdmin env caller .admin s
  return { s with store := { s.store with maxDeviationBps := some maxDeviationBps } }

/-! ### Emergency pause, upgrade -/

def pause (env : Env) (caller : Address) (s : State) : Result State := do
  requireRoleOrAdmin env caller .pauser s
  let (paused, s) := isPaused env s
  reject (paused = true) (err .alreadyPaused)
  let s ← setPaused env true s
  return s.publish (.paused caller env.timestamp)

def unpause (env : Env) (caller : Address) (s : State) : Result State := do
  requireRoleOrAdmin env caller .pauser s
  let (paused, s) := isPaused env s
  reject (paused = false) (err .notPaused)
  let s ← setPaused env false s
  return s.publish (.unpaused caller env.timestamp)

/-- The new code is not modelled; a run goes on with this one. -/
def upgrade (env : Env) (caller : Address) (newWasmHash : BitVec 256) (s : State) :
    Result State := do
  requireRole env caller .admin s
  let s ← requireNotPaused env s
  reject (newWasmHash = 0) (err .invalidWasmHash)
  return s.publish (.upgraded caller env.timestamp)

end Drip.Oracle
