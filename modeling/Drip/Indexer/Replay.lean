import Drip.Indexer.Redelivery
import Drip.Indexer.Scaffold.Handlers

/-!
# Indexer — Replay

A whole list of events folded again.  After the first pass every event is `Delivered`, so the second one
overwrites only the columns that the last event decides, and it ends with the same last event.

* `Echo`: the tables along the second pass; `echo_of_fold`: one event of it.
* `replayed`: folded again, the events change nothing.
-/

namespace Drip.Indexer
open Chain

variable {db db' db₀ db₁ db₂ : Database} {ev : RawEvent} {evs : List RawEvent}

/-- The tables along the second pass, against the ones it began with: what no event of the list decides is
as it was. -/
structure Echo (evs : List RawEvent) (db db' : Database) : Prop where
  delivered : ∀ ev ∈ evs, Delivered db' ev
  rawEvents : db'.rawEvents = db.rawEvents
  cursor : db'.cursor = db.cursor
  listed : db'.streamWithdrawals = db.streamWithdrawals
  rows : ∀ s row, db.streamStates s = some row → ∃ b, db'.streamStates s = some { row with paused := b }
  noRows : ∀ s, db.streamStates s = none → db'.streamStates s = none
  untoggled : ∀ s, lastToggle s evs = none → db'.streamStates s = db.streamStates s
  ballots : ∀ k b, db.ballots k = some b → ∃ b', db'.ballots k = some b' ∧ b'.ledger = b.ledger ∧
    ((∀ x ∈ evs, x.ballotKey = some k → x.ledger.val ≠ b.ledger) → b'.txHash = b.txHash)
  uncast : ∀ k, lastCast k evs = none → db'.ballots k = db.ballots k

theorem echo_refl (h : ∀ ev ∈ evs, Delivered db ev) : Echo evs db db where
  delivered := h
  rawEvents := rfl
  cursor := rfl
  listed := rfl
  rows := fun _ row hrow => ⟨row.paused, hrow⟩
  noRows := fun _ hrow => hrow
  untoggled := fun _ _ => rfl
  ballots := fun _ b hb => ⟨b, hb, rfl, fun _ => rfl⟩
  uncast := fun _ _ => rfl

/-- An event of the list sets no flag of a stream that no event of the list sets it of. -/
theorem toggle_of_none {s : String} (hev : ev ∈ evs) (h : lastToggle s evs = none) (hs : ev.streamId = s) :
    ev.toggle = none := by
  have hnone := lastOf_eq_none.mp h ev hev
  cases ht : ev.toggle with
  | none => rfl
  | some b => exact absurd ⟨by rw [ht]; rfl, hs⟩ hnone

theorem echo_rows (h : Echo evs db db₁) (hev : ev ∈ evs) (hrewritten : Rewritten db₁ ev db₂) (s : String) :
    (∀ row, db.streamStates s = some row → ∃ b, db₂.streamStates s = some { row with paused := b }) ∧
      (db.streamStates s = none → db₂.streamStates s = none) ∧
      (lastToggle s evs = none → db₂.streamStates s = db.streamStates s) := by
  rw [hrewritten.rows s]
  refine ⟨fun row hrow => ?_, fun hrow => ?_, fun hlast => ?_⟩
  · obtain ⟨b, hb⟩ := h.rows s row hrow
    rw [hb, Option.map_some, RawEvent.retoggle]
    split
    · exact ⟨ev.toggle.getD b, rfl⟩
    · exact ⟨b, rfl⟩
  · rw [h.noRows s hrow]
    rfl
  · rw [h.untoggled s hlast]
    have hid : ev.retoggle s = id := by
      funext row
      unfold RawEvent.retoggle
      split
      · rename_i hs
        rw [toggle_of_none hev hlast hs]
        rfl
      · rfl
    rw [hid, Option.map_id]
    rfl

theorem echo_ballots (h : Echo evs db db₁) (hev : ev ∈ evs) (hrewritten : Rewritten db₁ ev db₂)
    {k : BallotKey} {b : Ballot} (hb : db.ballots k = some b) :
    ∃ b', db₂.ballots k = some b' ∧ b'.ledger = b.ledger ∧
      ((∀ x ∈ evs, x.ballotKey = some k → x.ledger.val ≠ b.ledger) → b'.txHash = b.txHash) := by
  obtain ⟨b₁, hb₁, hledger, htx⟩ := h.ballots k b hb
  rw [hrewritten.ballots k, hb₁]
  by_cases hk : ev.ballotKey = some k
  · refine ⟨_, rfl, ?_, fun hother => ?_⟩
    · rw [RawEvent.recast, if_pos hk]
      exact hledger
    · -- the ballot has seen the event, and none in its own ledger
      obtain ⟨b₂, hb₂, hle⟩ := (h.delivered ev hev).ballot k hk
      obtain rfl := Option.some.inj (hb₁.symm.trans hb₂)
      have hne := hother ev hev hk
      rw [RawEvent.recast, if_pos hk]
      show (if b₁.ledger ≤ ev.ledger.val then ev.txHash else b₁.txHash) = _
      rw [if_neg (by omega)]
      exact htx hother
  · exact ⟨b₁, by rw [Option.map_some, RawEvent.recast, if_neg hk], hledger, htx⟩

theorem echo_uncast (h : Echo evs db db₁) (hev : ev ∈ evs) (hrewritten : Rewritten db₁ ev db₂)
    {k : BallotKey} (hlast : lastCast k evs = none) : db₂.ballots k = db.ballots k := by
  have hid : ev.recast k = id := funext fun b => if_neg (lastOf_eq_none.mp hlast ev hev)
  rw [hrewritten.ballots k, h.uncast k hlast, hid, Option.map_id]
  rfl

/-- One event of the second pass. -/
theorem echo_of_fold (h : Echo evs db db₁) (hev : ev ∈ evs) :
    ∃ db₂, foldEvent db₁ ev = .ok db₂ ∧ Echo evs db db₂ := by
  have hd := h.delivered ev hev
  obtain ⟨db₂, hfold⟩ := exists_again hd
  have hrewritten := hd.rewritten hfold
  refine ⟨db₂, hfold, ?_⟩
  exact {
    delivered := fun x hx => (h.delivered x hx).keep hfold
    rawEvents := hrewritten.rawEvents.trans h.rawEvents
    cursor := hrewritten.cursor.trans h.cursor
    listed := hrewritten.listed.trans h.listed
    rows := fun s => (echo_rows h hev hrewritten s).1
    noRows := fun s => (echo_rows h hev hrewritten s).2.1
    untoggled := fun s => (echo_rows h hev hrewritten s).2.2
    ballots := fun _ _ hb => echo_ballots h hev hrewritten hb
    uncast := fun _ hlast => echo_uncast h hev hrewritten hlast }

/-! ### The end of the second pass -/

/-- The last event that sets the flag sets it in both passes. -/
theorem echo_states (hfirst : evs.foldlM foldEvent db₀ = .ok db) (hsecond : evs.foldlM foldEvent db = .ok db')
    (h : Echo evs db db') : db'.streamStates = db.streamStates := by
  funext s
  cases hlast : lastToggle s evs with
  | none => exact h.untoggled s hlast
  | some y =>
      obtain ⟨row, hrow, hpaused⟩ := toggle_stands hfirst hlast
      obtain ⟨row', hrow', hpaused'⟩ := toggle_stands hsecond hlast
      obtain ⟨b, hb⟩ := h.rows s row hrow
      obtain rfl := Option.some.inj (hrow'.symm.trans hb)
      have hsame : row.paused = b := Option.some.inj (hpaused.symm.trans hpaused')
      rw [hrow, hrow', ← hsame]

/-- The last event of the ballot, and the last one of its ledger, are the same in both passes. -/
theorem echo_votes (hfirst : evs.foldlM foldEvent db₀ = .ok db) (hsecond : evs.foldlM foldEvent db = .ok db')
    (h : Echo evs db db') : db'.ballots = db.ballots := by
  funext k
  cases hlast : lastCast k evs with
  | none => exact h.uncast k hlast
  | some y =>
      obtain ⟨b, hb, hsaid⟩ := said_stands hfirst hlast
      obtain ⟨b', hb', hsaid'⟩ := said_stands hsecond hlast
      obtain ⟨b₁, hb₁, hledger, htx⟩ := h.ballots k b hb
      obtain rfl := Option.some.inj (hb'.symm.trans hb₁)
      have hhash : b'.txHash = b.txHash := by
        by_cases hother : ∀ x ∈ evs, x.ballotKey = some k → x.ledger.val ≠ b.ledger
        · exact htx hother
        · obtain ⟨x, hx, hk, hl⟩ : ∃ x ∈ evs, x.ballotKey = some k ∧ x.ledger.val = b.ledger := by
            by_contra hno
            exact hother fun x hx hk hl => hno ⟨x, hx, hk, hl⟩
          obtain ⟨w, hw⟩ : ∃ w, lastIn k x.ledger evs = some w := exists_lastOf hx ⟨hk, rfl⟩
          obtain ⟨c, hc, -, hctx⟩ := txHash_stands hfirst hw
          obtain ⟨c', hc', -, hctx'⟩ := txHash_stands hsecond hw
          obtain rfl := Option.some.inj (hb.symm.trans hc)
          obtain rfl := Option.some.inj (hb'.symm.trans hc')
          rw [hctx hl.symm, hctx' (hledger.trans hl.symm)]
      obtain ⟨_, _, _⟩ := b
      obtain ⟨_, _, _⟩ := b'
      dsimp only at *
      rw [hb, hb', hsaid, hsaid', hledger, hhash]

theorem fold_again (hfirst : evs.foldlM foldEvent db₀ = .ok db) : evs.foldlM foldEvent db = .ok db := by
  obtain ⟨db', hsecond, h⟩ := exists_foldlM (P := Echo evs db)
    (fun ev hev db₁ h => echo_of_fold h hev) (echo_refl (delivered_of_mem hfirst))
  obtain rfl : db' = db := eq_of_tables h.rawEvents h.cursor (echo_states hfirst hsecond h) h.listed
    (echo_votes hfirst hsecond h)
  exact hsecond

/-- **Replay.**  Events that have been folded into any tables change nothing when they are all folded once
more: of `foldEvent` any events, and of `applyEvent` any stream events. -/
theorem replayed :
    (∀ (db₀ db : Database) (evs : List RawEvent),
      evs.foldlM foldEvent db₀ = .ok db → evs.foldlM foldEvent db = .ok db) ∧
    (∀ (db₀ db : Scaffold.Tables) (evs : List Scaffold.ChainEvent), (∀ ev ∈ evs, ev.type ∈ Scaffold.family) →
      evs.foldlM Scaffold.applyEvent db₀ = .ok db → evs.foldlM Scaffold.applyEvent db = .ok db) :=
  ⟨fun _ _ _ => fold_again, fun _ _ _ hfam hfold =>
    (Scaffold.overwrites_of_fold hfam hfold).again hfold⟩

namespace Sample

/-- A vote on loan 7. -/
def ballot (txHash : String) (support : Bool) : RawEvent where
  ledger := .lit 7
  txHash := txHash
  eventType := "loan_vote"
  contractId := "CABC"
  topics := .null
  data := [("loan_id", .str "7"), ("voter", .str "G1"), ("support", .bool support), ("weight", .num 3)]

/-- An event of a stream, as it is decoded. -/
def decoded (type : String) (fields : List (String × Value)) : Scaffold.ChainEvent where
  type := type
  fields := fields
  ledger := some 5
  contractId := some "CSTREAM0001"
  txHash := some "a"

/-- The stream tables after the events. -/
def streamTables (evs : List Scaffold.ChainEvent) : Scaffold.Tables :=
  match evs.foldlM Scaffold.applyEvent .fresh with
  | .ok db => db
  | .error _ => .fresh

theorem foldlM_streamTables {evs : List Scaffold.ChainEvent}
    (h : (evs.foldlM Scaffold.applyEvent .fresh).isOk = true) :
    evs.foldlM Scaffold.applyEvent .fresh = .ok (streamTables evs) := by
  unfold streamTables
  cases hf : evs.foldlM Scaffold.applyEvent .fresh with
  | ok db => rfl
  | error e =>
      rw [hf] at h
      cases h

end Sample

/-- A pause, a resumption and two votes of one voter in one ledger; a creation and two withdrawals. -/
theorem replayed_sample :
    let evs := [Sample.paused, Sample.ballot "a" true, Sample.resumed, Sample.ballot "b" false]
    let xs := [Sample.decoded "created" [("sender", .str "G1"), ("start_time", .num 100)],
      Sample.decoded "withdrawn" [("amount", .str "50")], Sample.decoded "withdrawn" [("amount", .str "70")]]
    evs.foldlM foldEvent (Sample.tables evs) = .ok (Sample.tables evs) ∧
      xs.foldlM Scaffold.applyEvent (Sample.streamTables xs) = .ok (Sample.streamTables xs) := by
  intro evs xs
  exact ⟨replayed.1 .fresh _ evs (Sample.foldlM_tables (by decide +kernel)),
    replayed.2 .fresh _ xs (by decide +kernel) (Sample.foldlM_streamTables (by decide +kernel))⟩

end Drip.Indexer
