import Mathlib.Logic.Function.Basic
import Drip.Indexer.Values

/-!
# Indexer — Database

The tables of `db/schema.sql`, without their serial ids and timestamps, and the statements
`indexer/src/handlers.ts` and `indexer/src/poller.ts` run on them.  A table with a primary key is a
function of the key; `raw_events` and `stream_withdrawals` are lists, oldest row first, that take no
second row under a key they hold.
-/

namespace Drip.Indexer
open Chain

structure RawEvent where
  ledger : U32
  txHash : String
  eventType : String
  contractId : String
  topics : Value
  data : List (String × Value)
deriving DecidableEq

/-- A row of `stream_states`; its key is the stream's id. -/
structure StreamState where
  sender : String
  recipient : String
  token : String
  deposit : I64
  ratePerSecond : I64
  withdrawn : I64 := .lit 0
  paused : Bool := false
  cancelled : Bool := false
  updatedLedger : I64
deriving DecidableEq

/-- A row of `stream_withdrawals`. -/
structure Withdrawal where
  streamId : String
  ledger : I64
  txHash : String
  recipient : String
  amount : I64
deriving DecidableEq

/-- A row of `loan_votes` or `treasury_votes`. -/
structure Vote where
  support : Bool
  weight : I64
  ledger : I64
  txHash : String
deriving DecidableEq

/-- A row of `treasury_reveals`. -/
structure Reveal where
  voteHash : String
  ledger : I64
  txHash : String
deriving DecidableEq

structure Database where
  rawEvents : List RawEvent
  /-- `last_ledger` of the one row of `cursor` -/
  cursor : Option I64
  streamStates : String → Option StreamState
  streamWithdrawals : List Withdrawal
  loanVotes : String × String → Option Vote
  treasuryVotes : String × String → Option Vote
  treasuryReveals : String × String → Option Reveal

/-- The tables as `db/schema.sql` creates them. -/
def Database.fresh : Database where
  rawEvents := []
  cursor := some (.lit 0)
  streamStates := fun _ => none
  streamWithdrawals := []
  loanVotes := fun _ => none
  treasuryVotes := fun _ => none
  treasuryReveals := fun _ => none

/-! ### Keys -/

/-- `UNIQUE (ledger, tx_hash, event_type, contract_id)`. -/
def RawEvent.key (ev : RawEvent) : U32 × String × String × String :=
  (ev.ledger, ev.txHash, ev.eventType, ev.contractId)

/-- `UNIQUE (ledger, tx_hash, stream_id)`. -/
def Withdrawal.key (w : Withdrawal) : I64 × String × String := (w.ledger, w.txHash, w.streamId)

/-- `ON CONFLICT (key) DO UPDATE`: `merge` computes the row from the stored one. -/
def upsert {α κ : Type} [DecidableEq κ] (table : κ → Option α) (k : κ) (row : α)
    (merge : α → Except Failure α) : Except Failure (κ → Option α) := do
  let new ← match table k with
    | some old => merge old
    | none => .ok row
  return Function.update table k (some new)

/-! ### Statements -/

/-- `JSON.stringify(v)` for a `JSONB` column, which refuses a NUL in a text. -/
def jsonb (v : Value) : Except Failure Value :=
  match v with
  | .str s | .object s => do
      let _ ← column s
      return v
  | .null | .bool _ | .num _ => .ok v

/-- The insertion into `raw_events` of `ingestPage`. -/
def insertRawEvent (db : Database) (ev : RawEvent) : Except Failure Database := do
  let _ ← column ev.txHash
  let _ ← column ev.eventType
  let _ ← column ev.contractId
  let _ ← jsonb ev.topics
  let _ ← ev.data.mapM fun x => do
    let _ ← column x.1
    jsonb x.2
  if ∃ r ∈ db.rawEvents, r.key = ev.key then return db
  else return { db with rawEvents := db.rawEvents ++ [ev] }

/-- The insertion into `stream_withdrawals`.  A new row has to name a row of `stream_states`. -/
def insertWithdrawal (db : Database) (row : Withdrawal) : Except Failure Database :=
  if ∃ r ∈ db.streamWithdrawals, r.key = row.key then .ok db
  else do
    reject (db.streamStates row.streamId = none) .foreignKey
    return { db with streamWithdrawals := db.streamWithdrawals ++ [row] }

/-- An upsert into `stream_states`. -/
def upsertStream (db : Database) (streamId : String) (row : StreamState)
    (merge : StreamState → Except Failure StreamState) : Except Failure Database := do
  let rows ← upsert db.streamStates streamId row merge
  return { db with streamStates := rows }

end Drip.Indexer
