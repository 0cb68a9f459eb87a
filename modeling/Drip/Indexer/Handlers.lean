import Drip.Indexer.Database

/-!
# Indexer — Handlers

`indexer/src/handlers.ts`: what each kind of event does to the derived tables, and `foldEvent`.
-/

namespace Drip.Indexer
open Chain

/-! ### The payload -/

/-- `v ?? w`. -/
def Value.or (v w : Value) : Value := if v = .null then w else v

/-- A field of `data`; one that is missing reads as `null`. -/
def RawEvent.get (ev : RawEvent) (name : String) : Value := (ev.data.lookup name).getD .null

/-- `String(ev.data.name ?? fallback)`. -/
def RawEvent.text (ev : RawEvent) (name : String) (fallback : Value := .str "") : String :=
  ((ev.get name).or fallback).text

/-- `String(ev.data.name ?? ev.data.other ?? fallback)`. -/
def RawEvent.text₂ (ev : RawEvent) (name other : String) (fallback : Value := .str "") : String :=
  ((ev.get name).or ((ev.get other).or fallback)).text

def RawEvent.streamId (ev : RawEvent) : String :=
  ev.text₂ "stream_id" "streamId" (.str ev.contractId)

/-- `BigInt(String(ev.data.amount ?? 0))`. -/
def RawEvent.amount (ev : RawEvent) : Except Failure Int := bigInt (ev.text "amount" (.num 0))

/-! ### Streams -/

/-- The row a stream handler offers, of the values it passes for the recipient and the deposit. -/
def RawEvent.streamRow (ev : RawEvent) (recipient : String) (deposit : Except Failure I64) :
    Except Failure StreamState := do
  let _ ← column ev.streamId
  let sender ← column (ev.text "sender")
  let recipient ← column recipient
  let token ← column (ev.text "token")
  let deposit ← deposit
  let ratePerSecond ← bigint (ev.text "rate_per_second" (.num 0))
  return { sender, recipient, token, deposit, ratePerSecond, updatedLedger := ev.ledger.widen }

/-- `updated_ledger = GREATEST(stream_states.updated_ledger, EXCLUDED.updated_ledger)`. -/
def StreamState.seen (row : StreamState) (ledger : I64) : StreamState :=
  { row with updatedLedger := max row.updatedLedger ledger }

/-- `CASE WHEN EXCLUDED.updated_ledger > stream_states.updated_ledger THEN old + new ELSE old END`. -/
def addIfNewer (row excluded : StreamState) (old new : I64) : Except Failure I64 :=
  if row.updatedLedger < excluded.updatedLedger then storedBigint (old.val + new.val) else .ok old

def handleStreamWithdrawn (db : Database) (ev : RawEvent) : Except Failure Database := do
  let recipient := ev.text "recipient"
  let amount ← ev.amount
  let streamId ← column ev.streamId
  let txHash ← column ev.txHash
  let recipient ← column recipient
  let amount ← storedBigint amount
  let db ← insertWithdrawal db
    { streamId := streamId, ledger := ev.ledger.widen, txHash := txHash, recipient := recipient
      amount := amount }
  -- the total is added to whether or not the row above was new
  let row ← ev.streamRow recipient (bigint (ev.text "deposit" (.num 0)))
  let row := { row with withdrawn := amount }
  upsertStream db streamId row fun old => do
    let withdrawn ← addIfNewer old row old.withdrawn row.withdrawn
    return { old with withdrawn := withdrawn }.seen row.updatedLedger

/-- The handlers that set a flag. -/
def markStream (mark : StreamState → StreamState) (db : Database) (ev : RawEvent) :
    Except Failure Database := do
  let row ← ev.streamRow (ev.text "recipient") (bigint (ev.text "deposit" (.num 0)))
  upsertStream db ev.streamId (mark row) fun old => .ok ((mark old).seen row.updatedLedger)

def handleStreamCancelled (db : Database) (ev : RawEvent) : Except Failure Database :=
  markStream (fun row => { row with cancelled := true }) db ev

def handleStreamPaused (db : Database) (ev : RawEvent) : Except Failure Database :=
  markStream (fun row => { row with paused := true }) db ev

def handleStreamResumed (db : Database) (ev : RawEvent) : Except Failure Database :=
  markStream (fun row => { row with paused := false }) db ev

def handleStreamToppedUp (db : Database) (ev : RawEvent) : Except Failure Database := do
  let amount ← ev.amount
  let row ← ev.streamRow (ev.text "recipient") (storedBigint amount)
  upsertStream db ev.streamId row fun old => do
    let deposit ← addIfNewer old row old.deposit row.deposit
    return { old with deposit := deposit }.seen row.updatedLedger

/-- A clawback marks the stream cancelled. -/
def handleStreamClawback (db : Database) (ev : RawEvent) : Except Failure Database :=
  markStream (fun row => { row with cancelled := true }) db ev

def handleXferRec (db : Database) (ev : RawEvent) : Except Failure Database := do
  let row ← ev.streamRow (ev.text₂ "new_recipient" "newRecipient")
    (bigint (ev.text "deposit" (.num 0)))
  upsertStream db ev.streamId row fun old =>
    let recipient := if old.updatedLedger < row.updatedLedger then row.recipient else old.recipient
    .ok ({ old with recipient := recipient }.seen row.updatedLedger)

/-! ### Governance -/

/-- A vote, under the key of its subject and its voter. -/
def upsertVote (votes : String × String → Option Vote) (subject : String) (ev : RawEvent) :
    Except Failure (String × String → Option Vote) := do
  let weight ← bigInt (ev.text "weight" (.num 0))
  let subject ← column subject
  let voter ← column (ev.text "voter")
  let weight ← storedBigint weight
  let txHash ← column ev.txHash
  let row : Vote :=
    { support := (ev.get "support").truthy, weight := weight, ledger := ev.ledger.widen
      txHash := txHash }
  upsert votes (subject, voter) row fun old =>
    .ok { row with
      ledger := max old.ledger row.ledger
      txHash := if old.ledger ≤ row.ledger then row.txHash else old.txHash }

def handleLoanVote (db : Database) (ev : RawEvent) : Except Failure Database := do
  let votes ← upsertVote db.loanVotes (ev.text₂ "loan_id" "loanId") ev
  return { db with loanVotes := votes }

def handleTreasuryVote (db : Database) (ev : RawEvent) : Except Failure Database := do
  let votes ← upsertVote db.treasuryVotes (ev.text₂ "proposal_id" "proposalId") ev
  return { db with treasuryVotes := votes }

def handleTreasuryReveal (db : Database) (ev : RawEvent) : Except Failure Database := do
  let proposalId ← column (ev.text₂ "proposal_id" "proposalId")
  let voter ← column (ev.text "voter")
  let voteHash ← column (ev.text₂ "vote_hash" "voteHash")
  let txHash ← column ev.txHash
  let row : Reveal := { voteHash := voteHash, ledger := ev.ledger.widen, txHash := txHash }
  let reveals ← upsert db.treasuryReveals (proposalId, voter) row fun old =>
    .ok { row with
      ledger := max old.ledger row.ledger
      txHash := if old.ledger ≤ row.ledger then row.txHash else old.txHash }
  return { db with treasuryReveals := reveals }

/-! ### The router -/

/-- `HANDLERS`. -/
def handlerOf : String → Option (Database → RawEvent → Except Failure Database)
  | "stream_withdrawn" => some handleStreamWithdrawn
  | "stream_cancelled" => some handleStreamCancelled
  | "stream_paused" => some handleStreamPaused
  | "stream_resumed" => some handleStreamResumed
  | "stream_topped_up" => some handleStreamToppedUp
  | "stream_clawback" => some handleStreamClawback
  | "xfer_rec" => some handleXferRec
  | "loan_vote" => some handleLoanVote
  | "treasury_vote" => some handleTreasuryVote
  | "treasury_reveal" => some handleTreasuryReveal
  | _ => none

/-- The names every object inherits whose values throw when they are called as handlers. -/
def inheritedNames : List String :=
  ["__proto__", "__defineGetter__", "__defineSetter__", "__lookupGetter__", "__lookupSetter__",
    "hasOwnProperty", "isPrototypeOf", "propertyIsEnumerable", "toLocaleString", "valueOf"]

/-- An unknown type has no projection. -/
def foldEvent (db : Database) (ev : RawEvent) : Except Failure Database :=
  match handlerOf ev.eventType with
  | some handler => handler db ev
  | none => if ev.eventType ∈ inheritedNames then .error .typeError else .ok db

end Drip.Indexer
