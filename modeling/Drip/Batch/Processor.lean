import Drip.Host.Basic

/-!
# Batch — Processor

`contracts/batch-processor/src/lib.rs`: the entry points that pay a batch, and the preview.

A batch is a list of recipients and a list of amounts.  Counts and indices are `Nat`.  Instance TTL is
left out, and so are the admin and `upgrade`, which no transfer looks at.
-/

namespace Drip.Batch
open Chain

inductive Error where
  | lengthMismatch | batchTooLarge | invalidAmount | arithmeticOverflow | invalidToken
  | notAuthorized | invalidWasmHash | alreadyInitialized | notInitialized | reentrancyForbidden
  | invalidBatchLimit
deriving DecidableEq

/-- The outcome of an entry point of the processor. -/
abbrev Result (α : Type) := Outcome Error α

/-- `Err(e)`. -/
abbrev err (e : Error) : Failure Error := .contract e

/-- `MAX_BATCH_SIZE`. -/
def maxBatchSize : Nat := 30

structure BatchResult where
  itemIndex : Nat
  success : Bool
  errorCode : Option U32
deriving DecidableEq

structure PartialBatchResult where
  results : List BatchResult
  requestedCount : Nat
  processedCount : Nat
  remainingCount : Nat
  transferredTotal : I128
deriving DecidableEq

/-- The `batch_transferred` event. -/
structure Transferred where
  funder : Address
  token : Address
  count : Nat
  total : I128
deriving DecidableEq

structure State where
  /-- the temporary entry `ReentrancyLock` -/
  lock : Option Bool := none
  tokens : Ledger
  events : List Transferred := []

/-- The other contracts: which addresses answer a SEP-41 `balance` call. -/
structure Host where
  answersBalance : Address → Bool

/-! ### Checks -/

/-- One turn of the loops that add up a batch. -/
def addAmount (total amount : I128) : Result I128 := do
  reject (amount.val ≤ 0) (err .invalidAmount)
  okOr (total.checkedAdd amount) (err .arithmeticOverflow)

/-- `validate_total`: checks 1 to 4. -/
def validateTotal (recipients : List Address) (amounts : List I128) : Result I128 := do
  reject (recipients.length ≠ amounts.length) (err .lengthMismatch)
  reject (maxBatchSize < amounts.length) (err .batchTooLarge)
  amounts.foldlM addAmount (.lit 0)

/-- `is_stellar_account`. -/
def isStellarAccount : Address → Bool
  | .account _ => true
  | .contract _ => false

/-- `validate_token`: check 5. -/
def validateToken (host : Host) (token : Address) : Result Unit := do
  reject (isZeroAddress token = true) (err .invalidToken)
  reject (isStellarAccount token = true) (err .invalidToken)
  reject (host.answersBalance token = false) (err .invalidToken)

/-- The reentrancy guard. -/
def lockBatch (s : State) : Result State := do
  reject (s.lock.isSome = true) (err .reentrancyForbidden)
  return { s with lock := some true }

/-! ### Transfers -/

/-- `tk.transfer`; a failed token call traps. -/
def transfer (token src dst : Address) (amount : I128) (s : State) : Result State := do
  let tokens ← okOr (s.tokens.transfer token src dst amount) .trap
  return { s with tokens := tokens }

/-- The lock is removed and the batch announced. -/
def finish (funder token : Address) (count : Nat) (total : I128) (s : State) : State :=
  { s with lock := none, events := s.events ++ [⟨funder, token, count, total⟩] }

/-- `preview_batch`. -/
def previewBatch (recipients : List Address) (amounts : List I128) : Result I128 :=
  validateTotal recipients amounts

/-- One turn of the fan-out of `process_batch`. -/
def payItem (env : Env) (token : Address) (s : State) (item : Address × I128) : Result State :=
  transfer token env.contract item.1 item.2 s

def processBatch (host : Host) (env : Env) (funder token : Address) (recipients : List Address)
    (amounts : List I128) (s : State) : Result (I128 × State) := do
  let total ← validateTotal recipients amounts
  validateToken host token
  if total.val = 0 then return (.lit 0, s)
  else do
    let s ← lockBatch s
    requireAuth env funder
    let s ← transfer token funder env.contract total s
    let s ← (recipients.zip amounts).foldlM (payItem env token) s
    return (total, finish funder token recipients.length total s)

/-- One turn of the fan-out of `process_batch_detailed`. -/
def payNumbered (env : Env) (token : Address) (acc : List BatchResult × State)
    (item : (Address × I128) × Nat) : Result (List BatchResult × State) := do
  let s ← transfer token env.contract item.1.1 item.1.2 acc.2
  return (acc.1 ++ [⟨item.2, true, none⟩], s)

def processBatchDetailed (host : Host) (env : Env) (funder token : Address)
    (recipients : List Address) (amounts : List I128) (s : State) :
    Result (List BatchResult × State) := do
  let total ← validateTotal recipients amounts
  validateToken host token
  if total.val = 0 then return ([], s)
  else do
    let s ← lockBatch s
    requireAuth env funder
    let s ← transfer token funder env.contract total s
    let (results, s) ← (recipients.zip amounts).zipIdx.foldlM (payNumbered env token) ([], s)
    return (results, finish funder token recipients.length total s)

/-- One turn of the first loop of `process_batch_with_limit`. -/
def addAt (amounts : List I128) (total : I128) (index : Nat) : Result I128 := do
  let amount ← okOr amounts[index]? (err .lengthMismatch)
  addAmount total amount

/-- One turn of its second loop. -/
def payAt (env : Env) (token : Address) (recipients : List Address) (amounts : List I128)
    (acc : List BatchResult × State) (index : Nat) : Result (List BatchResult × State) := do
  let recipient ← okOr recipients[index]? (err .lengthMismatch)
  let amount ← okOr amounts[index]? (err .lengthMismatch)
  let s ← transfer token env.contract recipient amount acc.2
  return (acc.1 ++ [⟨index, true, none⟩], s)

def processBatchWithLimit (host : Host) (env : Env) (funder token : Address)
    (recipients : List Address) (amounts : List I128) (maxItems : Nat) (s : State) :
    Result (PartialBatchResult × State) := do
  reject (recipients.length ≠ amounts.length) (err .lengthMismatch)
  reject (maxItems = 0 ∨ maxBatchSize < maxItems) (err .invalidBatchLimit)
  let requestedCount := recipients.length
  let processedCount := min requestedCount maxItems
  let remainingCount := requestedCount - processedCount
  let total ← (List.range processedCount).foldlM (addAt amounts) (.lit 0)
  validateToken host token
  if processedCount = 0 then
    return (⟨[], requestedCount, processedCount, remainingCount, .lit 0⟩, s)
  else do
    let s ← lockBatch s
    requireAuth env funder
    let s ← transfer token funder env.contract total s
    let (results, s) ← (List.range processedCount).foldlM (payAt env token recipients amounts) ([], s)
    return (⟨results, requestedCount, processedCount, remainingCount, total⟩,
      finish funder token processedCount total s)

end Drip.Batch
