import Drip.Support.LastWrite
import Drip.Indexer.Numbers
import Drip.Indexer.Effects

/-!
# Indexer — Scaffold handlers

`indexer/src/indexer/handlers.ts` over the derived tables of `indexer/db/schema.sql`, without their
timestamps: `applyEvent` folds one decoded event.  Stream events are written under a key, over what was
there before; votes are counted.

* `record_of_ok`, `created_of_ok`: what the two kinds of stream event write.
* `lifecycle`: the types that `recordStreamEvent` is called for, and `applyEvent_of_lifecycle`.
* `overwrites_of_fold`: what a list of stream events writes does not depend on the tables, so that to fold it
  again changes nothing (`Overwrites.again`).
-/

namespace Drip.Indexer.Scaffold
open Chain

/-- `ChainEvent`; a field that is missing is not in `fields`. -/
structure ChainEvent where
  type : String
  fields : List (String × Value)
  ledger : Option Int
  contractId : Option String
  txHash : Option String
deriving DecidableEq

/-! ### The payload -/

/-- A field of `fields`; one that is missing reads as `null`. -/
def ChainEvent.get (ev : ChainEvent) (name : String) : Value := (ev.fields.lookup name).getD .null

/-- `num(value)`, of `none` for `undefined`. -/
def num : Option Value → Option Int
  | none => none
  | some .null => some 0
  | some (.bool b) => some (if b then 1 else 0)
  | some (.num n) => some n
  | some (.str s) | some (.object s) => number s

/-- `str(value)`. -/
def str (value : Value) : String := if value = .null then "" else value.text

/-- `amountOrNull(value)`. -/
def amountOrNull (value : Value) : Option String :=
  if value = .null ∨ value = .str "" then none else some value.text

/-- `streamIdOf(ev)`. -/
def ChainEvent.streamId (ev : ChainEvent) : String :=
  let contractId := match ev.contractId with
    | some id => Value.str id
    | none => Value.null
  str ((ev.get "stream_id").or ((ev.get "streamId").or ((ev.get "id").or contractId)))

/-! ### Tables -/

/-- A row of `streams`; its key is the stream's id. -/
structure StreamRow where
  sender : String
  recipient : String
  token : String
  ratePerSecond : String
  startTime : I64
  endTime : I64
deriving DecidableEq

/-- `PRIMARY KEY (ledger, tx_hash, event_type, stream_id)`. -/
abbrev EventKey := I64 × String × String × String

/-- A row of `stream_events`, without its key. -/
structure EventRow where
  amount : Option String
  payload : List (String × Value)
deriving DecidableEq

/-- A row of `loan_proposals`. -/
structure LoanProposal where
  votesFor : I64 := .lit 0
  votesAgainst : I64 := .lit 0
deriving DecidableEq

/-- An `INTEGER`. -/
abbrev I32 := Ranged (-2147483648) 2147483647

/-- A row of `treasury_proposals`. -/
structure TreasuryProposal where
  votesFor : I64 := .lit 0
  votesAgainst : I64 := .lit 0
  revealed : I32 := .lit 0
deriving DecidableEq

/-- The derived tables. -/
structure Tables where
  streams : String → Option StreamRow
  streamEvents : EventKey → Option EventRow
  loanProposals : I64 → Option LoanProposal
  treasuryProposals : I64 → Option TreasuryProposal

/-- The tables as `db/schema.sql` creates them. -/
def Tables.fresh : Tables where
  streams := fun _ => none
  streamEvents := fun _ => none
  loanProposals := fun _ => none
  treasuryProposals := fun _ => none

/-- A JavaScript number for a `BIGINT` column. -/
def storedNum (n : Option Int) : Except Failure I64 := do
  let n ← okOr n .invalidNumber
  storedBigint n

/-- A text for a nullable `TEXT` column. -/
def nullable : Option String → Except Failure (Option String)
  | none => .ok none
  | some s => do
      let s ← column s
      return some s

/-! ### Streams -/

/-- `f.name ?? 0`. -/
def ChainEvent.orZero (ev : ChainEvent) (name : String) : Value := (ev.get name).or (.num 0)

/-- The row that `handleStreamCreated` inserts. -/
def ChainEvent.streamRow (ev : ChainEvent) : Except Failure StreamRow := do
  let sender ← column (str (ev.get "sender"))
  let recipient ← column (str (ev.get "recipient"))
  let token ← column (str (ev.get "token"))
  let ratePerSecond ← column (str (ev.orZero "rate_per_second"))
  let startTime ← storedNum (num (some (ev.orZero "start_time")))
  let endTime ← storedNum (num (some (ev.orZero "end_time")))
  return { sender, recipient, token, ratePerSecond, startTime, endTime }

def handleStreamCreated (db : Tables) (ev : ChainEvent) : Except Failure Tables := do
  let id ← column ev.streamId
  let row ← ev.streamRow
  let streams ← upsert db.streams id row fun _ => .ok row
  return { db with streams := streams }

/-- The payload: `JSON.stringify(ev.fields ?? {})`. -/
def ChainEvent.payload (ev : ChainEvent) : Except Failure (List (String × Value)) := do
  let _ ← ev.fields.mapM fun x => do
    let _ ← column x.1
    jsonb x.2
  return ev.fields

/-- The key of the event under the type it is stored with. -/
def ChainEvent.eventKey (ev : ChainEvent) (eventType : String) : Except Failure EventKey := do
  let streamId ← column ev.streamId
  let eventType ← column eventType
  let ledger ← storedBigint (ev.ledger.getD 0)
  let txHash ← column (ev.txHash.getD "")
  return (ledger, txHash, eventType, streamId)

def recordStreamEvent (db : Tables) (ev : ChainEvent) (eventType : String)
    (amount : Option String := none) : Except Failure Tables := do
  let k ← ev.eventKey eventType
  let amount ← nullable amount
  let payload ← ev.payload
  let row : EventRow := { amount := amount, payload := payload }
  let streamEvents ← upsert db.streamEvents k row fun _ => .ok row
  return { db with streamEvents := streamEvents }

def handleStreamWithdrawn (db : Tables) (ev : ChainEvent) : Except Failure Tables :=
  recordStreamEvent db ev "stream_withdrawn" (amountOrNull (ev.get "amount"))

def handleStreamCancelled (db : Tables) (ev : ChainEvent) : Except Failure Tables :=
  recordStreamEvent db ev "stream_cancelled" (amountOrNull (ev.get "refund_amount"))

def handleStreamForceCancelled (db : Tables) (ev : ChainEvent) : Except Failure Tables :=
  recordStreamEvent db ev "stream_force_cancelled" (amountOrNull (ev.get "refund_amount"))

def handleStreamPaused (db : Tables) (ev : ChainEvent) : Except Failure Tables :=
  recordStreamEvent db ev "stream_paused"

def handleStreamResumed (db : Tables) (ev : ChainEvent) : Except Failure Tables :=
  recordStreamEvent db ev "stream_resumed"

def handleStreamToppedUp (db : Tables) (ev : ChainEvent) : Except Failure Tables :=
  recordStreamEvent db ev "stream_topped_up" (amountOrNull (ev.get "amount"))

def handleStreamClawback (db : Tables) (ev : ChainEvent) : Except Failure Tables :=
  recordStreamEvent db ev "stream_clawback" (amountOrNull (ev.get "amount"))

def handleXferRec (db : Tables) (ev : ChainEvent) : Except Failure Tables :=
  recordStreamEvent db ev "xfer_rec"

/-! ### Votes -/

def loanVote (db : Tables) (ev : ChainEvent) : Except Failure Tables := do
  let id ← storedNum (num (ev.fields.lookup "proposal_id"))
  let support := ev.get "support" = .bool true
  let row : LoanProposal := if support then { votesFor := .lit 1 } else { votesAgainst := .lit 1 }
  let proposals ← upsert db.loanProposals id row fun old =>
    if support then do
      let votesFor ← storedBigint (old.votesFor.val + 1)
      return { old with votesFor := votesFor }
    else do
      let votesAgainst ← storedBigint (old.votesAgainst.val + 1)
      return { old with votesAgainst := votesAgainst }
  return { db with loanProposals := proposals }

def treasuryVote (db : Tables) (ev : ChainEvent) : Except Failure Tables := do
  let id ← storedNum (num (ev.fields.lookup "proposal_id"))
  let support := ev.get "support" = .bool true
  let row : TreasuryProposal := if support then { votesFor := .lit 1 } else { votesAgainst := .lit 1 }
  let proposals ← upsert db.treasuryProposals id row fun old =>
    if support then do
      let votesFor ← storedBigint (old.votesFor.val + 1)
      return { old with votesFor := votesFor }
    else do
      let votesAgainst ← storedBigint (old.votesAgainst.val + 1)
      return { old with votesAgainst := votesAgainst }
  return { db with treasuryProposals := proposals }

def treasuryReveal (db : Tables) (ev : ChainEvent) : Except Failure Tables := do
  let id ← storedNum (num (ev.fields.lookup "proposal_id"))
  let proposals ← upsert db.treasuryProposals id { revealed := .lit 1 } fun old => do
    let revealed ← okOr (Ranged.ofInt? (old.revealed.val + 1)) .outOfRange
    return { old with revealed := revealed }
  return { db with treasuryProposals := proposals }

/-! ### The switch -/

/-- An unrecognized type is logged, and dropped. -/
def applyEvent (db : Tables) (ev : ChainEvent) : Except Failure Tables :=
  match ev.type with
  | "created" | "stream_created" => handleStreamCreated db ev
  | "withdrawn" | "stream_withdrawn" => handleStreamWithdrawn db ev
  | "cancelled" | "stream_cancelled" => handleStreamCancelled db ev
  | "force_cxl" | "force_cancelled" => handleStreamForceCancelled db ev
  | "paused" | "stream_paused" => handleStreamPaused db ev
  | "resumed" | "stream_resumed" => handleStreamResumed db ev
  | "topped_up" | "stream_topped_up" => handleStreamToppedUp db ev
  | "clawback" | "stream_clawback" => handleStreamClawback db ev
  | "xfer_rec" => handleXferRec db ev
  | "loan_vote" => loanVote db ev
  | "treasury_vote" => treasuryVote db ev
  | "treasury_reveal" => treasuryReveal db ev
  | _ => .ok db

/-! ### What is written -/

variable {db db' : Tables} {ev : ChainEvent} {evs : List ChainEvent} {eventType : String}
  {amount : Option String} {k : EventKey}

/-- An upsert that takes every column from the row it offers. -/
theorem upsert_over {α κ : Type} [DecidableEq κ] (table : κ → Option α) (k : κ) (row : α) :
    (upsert table k row fun _ => .ok row) = .ok (Function.update table k (some row)) := by
  unfold upsert
  cases table k with
  | none => rfl
  | some old => rfl

theorem nullable_eq_ok {amount' : Option String} (h : nullable amount = .ok amount') : amount' = amount := by
  cases amount with
  | none =>
      cases h
      rfl
  | some s =>
      simp only [nullable, bind_eq_ok, column_eq_ok] at h
      obtain ⟨_, ⟨-, rfl⟩, h⟩ := h
      cases h
      rfl

theorem payload_eq_ok {fields : List (String × Value)} (h : ev.payload = .ok fields) : fields = ev.fields := by
  simp only [ChainEvent.payload, bind_eq_ok] at h
  obtain ⟨_, -, h⟩ := h
  cases h
  rfl

theorem eventKey_eq_ok (h : ev.eventKey eventType = .ok k) :
    k.1.val = ev.ledger.getD 0 ∧ k.2 = (ev.txHash.getD "", eventType, ev.streamId) := by
  simp only [ChainEvent.eventKey, bind_eq_ok, column_eq_ok, storedBigint_eq_ok] at h
  obtain ⟨_, ⟨-, rfl⟩, _, ⟨-, rfl⟩, l, hl, _, ⟨-, rfl⟩, h⟩ := h
  cases h
  exact ⟨hl, rfl⟩

/-- The event is stored under the key, with the amount and every field. -/
theorem record_of_ok (h : recordStreamEvent db ev eventType amount = .ok db') :
    ∃ k, ev.eventKey eventType = .ok k ∧ ∀ db₁, recordStreamEvent db₁ ev eventType amount =
      .ok { db₁ with streamEvents := Function.update db₁.streamEvents k (some ⟨amount, ev.fields⟩) } := by
  simp only [recordStreamEvent, bind_eq_ok] at h
  obtain ⟨k, hk, amount', hamount, payload, hpayload, -⟩ := h
  obtain rfl := nullable_eq_ok hamount
  obtain rfl := payload_eq_ok hpayload
  refine ⟨k, hk, fun db₁ => ?_⟩
  unfold recordStreamEvent
  rw [hk, hamount, hpayload]
  exact bind_of_ok (upsert_over _ _ _)

theorem created_of_ok (h : handleStreamCreated db ev = .ok db') :
    ∃ row, ∀ db₁, handleStreamCreated db₁ ev =
      .ok { db₁ with streams := Function.update db₁.streams ev.streamId (some row) } := by
  simp only [handleStreamCreated, bind_eq_ok] at h
  obtain ⟨id, hid, row, hrow, -⟩ := h
  obtain ⟨-, rfl⟩ := column_eq_ok.mp hid
  refine ⟨row, fun db₁ => ?_⟩
  unfold handleStreamCreated
  rw [hid, hrow]
  exact bind_of_ok (upsert_over _ _ _)

/-! ### Lifecycle events -/

/-- The name that the events of a type are stored under, and the field that their amount is in. -/
def lifecycle : String → Option (String × Option String)
  | "withdrawn" | "stream_withdrawn" => some ("stream_withdrawn", some "amount")
  | "cancelled" | "stream_cancelled" => some ("stream_cancelled", some "refund_amount")
  | "force_cxl" | "force_cancelled" => some ("stream_force_cancelled", some "refund_amount")
  | "paused" | "stream_paused" => some ("stream_paused", none)
  | "resumed" | "stream_resumed" => some ("stream_resumed", none)
  | "topped_up" | "stream_topped_up" => some ("stream_topped_up", some "amount")
  | "clawback" | "stream_clawback" => some ("stream_clawback", some "amount")
  | "xfer_rec" => some ("xfer_rec", none)
  | _ => none

/-- The amount in the field. -/
def ChainEvent.amountIn (ev : ChainEvent) (field : Option String) : Option String :=
  field.bind fun name => amountOrNull (ev.get name)

theorem applyEvent_of_lifecycle {field : Option String} (h : lifecycle ev.type = some (eventType, field)) :
    applyEvent db ev = recordStreamEvent db ev eventType (ev.amountIn field) := by
  unfold lifecycle at h
  unfold applyEvent
  split at h
  case h_16 => cases h
  all_goals
    rename_i hk
    cases h
    rw [hk]
    rfl

theorem streamEvents_of_vote (hvote : ev.type = "loan_vote" ∨ ev.type = "treasury_vote" ∨
    ev.type = "treasury_reveal") (h : applyEvent db ev = .ok db') : db'.streamEvents = db.streamEvents := by
  unfold applyEvent at h
  rcases hvote with hk | hk | hk <;> rw [hk] at h <;>
    simp only [loanVote, treasuryVote, treasuryReveal, bind_eq_ok] at h
  all_goals
    obtain ⟨_, -, _, -, h⟩ := h
    cases h
    rfl

/-- Events of other types leave the lifecycle events as they are. -/
theorem streamEvents_of_other (hnone : lifecycle ev.type = none) (h : applyEvent db ev = .ok db') :
    db'.streamEvents = db.streamEvents := by
  have hcreated (h : handleStreamCreated db ev = .ok db') : db'.streamEvents = db.streamEvents := by
    obtain ⟨row, hwritten⟩ := created_of_ok h
    obtain rfl := Except.ok.inj (h.symm.trans (hwritten db))
    rfl
  by_cases hvote : ev.type = "loan_vote" ∨ ev.type = "treasury_vote" ∨ ev.type = "treasury_reveal"
  · exact streamEvents_of_vote hvote h
  · unfold applyEvent at h
    split at h
    case h_1 | h_2 => exact hcreated h
    case h_18 hk => exact absurd (.inl hk) hvote
    case h_19 hk => exact absurd (.inr (.inl hk)) hvote
    case h_20 hk => exact absurd (.inr (.inr hk)) hvote
    case h_21 =>
      cases h
      rfl
    all_goals
      rename_i hk
      rw [hk] at hnone
      cases hnone

/-- The types of the stream events. -/
def family : List String :=
  ["created", "stream_created", "withdrawn", "stream_withdrawn", "cancelled", "stream_cancelled", "force_cxl",
    "force_cancelled", "paused", "stream_paused", "resumed", "stream_resumed", "topped_up", "stream_topped_up",
    "clawback", "stream_clawback", "xfer_rec"]

theorem lifecycle_of_family {kind : String} (h : kind ∈ family) :
    kind = "created" ∨ kind = "stream_created" ∨ (lifecycle kind).isSome = true := by
  revert kind
  decide

/-- The fold writes to the stream tables, and the same whatever the tables hold. -/
def Overwrites (fold : Tables → Except Failure Tables) : Prop :=
  ∃ rows entries, ∀ db, fold db =
    .ok { db with streams := writes db.streams rows, streamEvents := writes db.streamEvents entries }

/-- To fold again changes nothing. -/
theorem Overwrites.again {fold : Tables → Except Failure Tables} (hfold : Overwrites fold)
    (h : fold db = .ok db') : fold db' = .ok db' := by
  obtain ⟨rows, entries, hwritten⟩ := hfold
  obtain rfl := Except.ok.inj (h.symm.trans (hwritten db))
  rw [hwritten, writes_writes, writes_writes]

theorem Overwrites.trans {fold fold' : Tables → Except Failure Tables} (hfold : Overwrites fold)
    (hfold' : Overwrites fold') : Overwrites fun db => fold db >>= fold' := by
  obtain ⟨rows, entries, hwritten⟩ := hfold
  obtain ⟨rows', entries', hwritten'⟩ := hfold'
  refine ⟨rows ++ rows', entries ++ entries', fun db => ?_⟩
  refine (bind_of_ok (hwritten db)).trans ((hwritten' _).trans ?_)
  rw [writes_append, writes_append]

theorem overwrites_of_created (h : handleStreamCreated db ev = .ok db') :
    Overwrites fun db => handleStreamCreated db ev := by
  obtain ⟨row, hwritten⟩ := created_of_ok h
  exact ⟨[(ev.streamId, row)], [], hwritten⟩

theorem overwrites_of_apply (hfam : ev.type ∈ family) (h : applyEvent db ev = .ok db') :
    Overwrites fun db => applyEvent db ev := by
  have hcreated (hsame : ∀ db, applyEvent db ev = handleStreamCreated db ev) :
      Overwrites fun db => applyEvent db ev := by
    simp only [hsame] at h ⊢
    exact overwrites_of_created h
  rcases lifecycle_of_family hfam with hk | hk | hk
  · refine hcreated fun db => ?_
    rw [applyEvent, hk]
    rfl
  · refine hcreated fun db => ?_
    rw [applyEvent, hk]
    rfl
  · obtain ⟨⟨eventType, field⟩, hk⟩ := Option.isSome_iff_exists.mp hk
    rw [applyEvent_of_lifecycle hk] at h
    obtain ⟨k, -, hwritten⟩ := record_of_ok h
    exact ⟨[], [(k, ⟨ev.amountIn field, ev.fields⟩)],
      fun db₁ => (applyEvent_of_lifecycle hk).trans (hwritten db₁)⟩

/-- By induction on the events. -/
theorem overwrites_of_fold (hfam : ∀ ev ∈ evs, ev.type ∈ family)
    (h : evs.foldlM applyEvent db = .ok db') : Overwrites (evs.foldlM applyEvent) := by
  induction evs generalizing db with
  | nil => exact ⟨[], [], fun db => rfl⟩
  | cons ev evs ih =>
      rw [List.foldlM_cons, bind_eq_ok] at h
      obtain ⟨db₂, happly, h⟩ := h
      have hfirst := overwrites_of_apply (hfam ev List.mem_cons_self) happly
      exact hfirst.trans (ih (fun x hx => hfam x (List.mem_cons_of_mem ev hx)) h)

end Drip.Indexer.Scaffold
