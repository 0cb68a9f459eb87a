import Mathlib.Logic.Function.Basic
import Drip.Common.Pause

/-!
# Factory — Storage

`contracts/factory/src/storage.rs` and `errors.rs`: what a `DripFactory` keeps in instance and
persistent storage, and the errors it returns.  `Storage` has a field for each `DataKey`; a key that
carries an address or a number is a function, and the five keys of one paged index are gathered in
an `Index`.
-/

namespace Drip.Factory

inductive Error where
  | notInitialized | invalidDeposit | invalidRate | invalidTimeRange | insufficientDeposit
  | backdatedStream | alreadyInitialized | rateExceedsMax | durationTooShort | arithmeticOverflow
  | contractPaused | alreadyPaused | notPaused | durationExceedsMax | governorNotResponding
  | emptyBatch | batchTooLarge | invalidRecipient | createLocked | depositTransferFailed
  | streamFundingFailed | invalidWasmHash | invalidDuration | invalidToken
  | startTimeTooFarInFuture | storageVersionMismatch | invalidGovernor | saltAlreadyUsed
  | duplicateStreamId | descriptionTooLong | invalidFactoryConfiguration
deriving DecidableEq

/-- The outcome of a factory entry point. -/
abbrev Result (α : Type) := Outcome Error α

/-- `Err(e)`. -/
abbrev err (e : Error) : Failure Error := .contract e

/-- A `BytesN<32>`: a WASM hash or a deployment salt. -/
abbrev Hash := BitVec 256

/-- The keys of one paged index, of a sender or a recipient.  Counts, cursors and page numbers are
`u32`; they are natural numbers here, and where the code saturates or traps at `u32::MAX` the model
says so. -/
structure Index where
  /-- `BySender` / `ByRecipient`: the vector of the layout without pages -/
  legacy : Option (List U64) := none
  count : Option Nat := none
  /-- the number of legacy entries already copied into pages -/
  cursor : Option Nat := none
  /-- the length of the legacy vector when its migration began -/
  legacyCount : Option Nat := none
  pages : Nat → Option (List U64) := fun _ => none

structure Aggregate where
  totalSupply : U64
  activeStreams : U64
deriving DecidableEq

/-- `CURRENT_STORAGE_VERSION`. -/
def currentStorageVersion : U32 := .lit 1

structure Storage where
  streamCount : Option U64 := none
  streamWasmHash : Option Hash := none
  governorAddress : Option Address := none
  paused : Option Pause.Stored := none
  aggregate : Option Aggregate := none
  createLock : Option Bool := none
  lastBumpedId : Option U64 := none
  factoryStorageVersion : Option U32 := none
  streamAddr : U64 → Option Address := fun _ => none
  isKnownStream : Address → Option Bool := fun _ => none
  saltUsed : Hash → Option Bool := fun _ => none
  cancelledStream : Address → Option Bool := fun _ => none
  tokenStreamCount : Address → Option U64 := fun _ => none
  bySender : Address → Index := fun _ => {}
  byRecipient : Address → Index := fun _ => {}

/-- A page of stream ids, with the number of all ids. -/
structure StreamPage where
  ids : List U64
  total : Nat
deriving DecidableEq

end Drip.Factory
