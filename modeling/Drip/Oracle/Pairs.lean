import Drip.Oracle.Prices

/-!
# Oracle — Pairs

The prices of pairs in `contracts/oracle/src/lib.rs`.  The contract has the code twice, for pairs of
addresses and for pairs of symbols; it is written once here, over the type `K` of the names, and the
entry points of either kind are its instances.  They differ in one place: a report on an address is
fresh for the heartbeat of that address, one on a symbol for fifteen minutes.
-/

namespace Drip.Oracle
open Chain

def pricePrecision : U128 := .lit 100000000
def maxPairReporters : Nat := 5

/-- `PAIR_REPORT_FRESHNESS_SECS`: fifteen minutes. -/
def pairReportFreshnessSecs : U64 := .lit 900

def isAuthorizedPairReporter (env : Env) (roles : Rbac.Records Role) (reporter : Address) :
    Result Bool :=
  (Rbac.hasEither env.timestamp (roles.role .priceFeeder reporter)
    (roles.role .admin reporter)).mapError ofRbac

/-- The reporters that may contribute, in the order of the list. -/
def activeReporters (env : Env) (roles : Rbac.Records Role) : List Address → Result (List Address)
  | [] => .ok []
  | account :: rest => do
      let authorized ← isAuthorizedPairReporter env roles account
      let active ← activeReporters env roles rest
      return if authorized then account :: active else active

/-! ### One kind of pair -/

namespace Pairs

variable {K : Type}

def reporters (ps : Pairs K) (base quote : K) : List Address := (ps.pairReporters base quote).getD []

/-- The reports that are fresh, and whether there is any. -/
def freshReports (now window : U64) (base quote : K) (ps : Pairs K) (active : List Address) :
    List U128 × Bool :=
  active.foldl (fun (fresh, saw) reporter =>
    match ps.pairSubmission base quote reporter with
    | some data => (if age now data.updatedAt ≤ window then fresh ++ [data.price] else fresh, true)
    | none => (fresh, saw)) ([], false)

/-- `aggregate_pair_price` and `aggregate_symbol_pair_price`.  A pair that has never had a reporter
answers with its legacy scalar. -/
def aggregate (env : Env) (roles : Rbac.Records Role) (window : U64) (base quote : K) (ps : Pairs K) :
    Result U128 :=
  if ps.reporters base quote = [] then okOr (ps.pairPrice base quote) (err .priceNotFound)
  else do
    let active ← activeReporters env roles (ps.reporters base quote)
    let (fresh, saw) := ps.freshReports env.timestamp window base quote active
    if fresh = [] then .error (err (if saw then .oracleStalePrice else .priceNotFound))
    else okOr (medianU128 fresh) .trap

/-- The reciprocal, at twice the precision. -/
def reciprocal (price : U128) : Result U128 := do
  reject (price.val = 0) (err .invalidPrice)
  let precisionSq ← okOr (pricePrecision.checkedMul pricePrecision) (err .arithmeticOverflow)
  okOr (U128.checkedDiv precisionSq price) (err .arithmeticOverflow)

/-- `get_price_inverted` and `get_price_inverted_symbol`, from the answers for the pair and for the
reverse pair. -/
def inverted (direct reverse : Result U128) : Result U128 :=
  match direct with
  | .ok price => .ok price
  | .error directErr =>
      if directErr = err .priceNotFound ∨ directErr = err .oracleStalePrice then
        match reverse with
        | .ok price => reciprocal price
        | .error (.contract reverseErr) =>
            .error (err (if directErr = err .oracleStalePrice ∨ reverseErr = .oracleStalePrice
              then .oracleStalePrice else .priceNotFound))
        | .error .trap => .error .trap
      else .error directErr

variable [DecidableEq K]

/-- A write for one pair. -/
def put {α : Type} (f : K → K → α) (base quote : K) (v : α) : K → K → α :=
  Function.update f base (Function.update (f base) quote v)

/-- `add_pair_reporter` and `add_symbol_pair_reporter`: the list is cleared of the reporters whose
authorization has gone. -/
def addReporter (env : Env) (roles : Rbac.Records Role) (base quote : K) (reporter : Address)
    (ps : Pairs K) : Result (Pairs K) := do
  let active ← activeReporters env roles (ps.reporters base quote)
  reject (reporter ∉ active ∧ maxPairReporters ≤ active.length) (err .tooManyPairReporters)
  let active := if reporter ∈ active then active else active ++ [reporter]
  return { ps with pairReporters := put ps.pairReporters base quote (some active) }

/-- What `set_price` and `set_price_symbol` write. -/
def report (env : Env) (roles : Rbac.Records Role) (caller : Address) (base quote : K) (price : U128)
    (ps : Pairs K) : Result (Pairs K) := do
  let ps ← ps.addReporter env roles base quote caller
  let data : PairPriceData := ⟨price, env.timestamp⟩
  let reports := Function.update (ps.pairSubmission base quote) caller (some data)
  return { ps with
    pairSubmission := put ps.pairSubmission base quote reports
    pairPrice := put ps.pairPrice base quote (some price) }

end Pairs

/-- The checks of `set_price` and `set_price_symbol`. -/
def checkReport (env : Env) (caller : Address) (price : U128) (s : State) : Result State := do
  let s ← requireNotPaused env s
  requireRoleOrAdmin env caller .priceFeeder s
  reject (price.val = 0) (err .invalidPrice)
  return s

/-! ### Pairs of addresses -/

def assetHeartbeatSecs (st : Storage) (asset : Address) : U64 :=
  match st.assetOracleConfig asset with
  | some config => config.heartbeatTimeoutSeconds
  | none =>
      let global := maxStalenessSeconds st
      if 0 < global.val then global else pairReportFreshnessSecs

def setPrice (env : Env) (caller base quote : Address) (price : U128) (s : State) :
    Result State := do
  let s ← checkReport env caller price s
  let pairs ← s.store.pairs.report env s.store.roles caller base quote price
  return { s with store := { s.store with pairs := pairs } }

def getPrice (env : Env) (base quote : Address) (s : State) : Result U128 :=
  s.store.pairs.aggregate env s.store.roles (assetHeartbeatSecs s.store base) base quote

def getPriceInverted (env : Env) (base quote : Address) (s : State) : Result U128 :=
  Pairs.inverted (getPrice env base quote s) (getPrice env quote base s)

/-! ### Pairs of symbols -/

def setPriceSymbol (env : Env) (caller : Address) (base quote : Symbol) (price : U128) (s : State) :
    Result State := do
  let s ← checkReport env caller price s
  let symbolPairs ← s.store.symbolPairs.report env s.store.roles caller base quote price
  return { s with store := { s.store with symbolPairs := symbolPairs } }

def getPriceSymbol (env : Env) (base quote : Symbol) (s : State) : Result U128 :=
  s.store.symbolPairs.aggregate env s.store.roles pairReportFreshnessSecs base quote

def getPriceInvertedSymbol (env : Env) (base quote : Symbol) (s : State) : Result U128 :=
  Pairs.inverted (getPriceSymbol env base quote s) (getPriceSymbol env quote base s)

end Drip.Oracle
