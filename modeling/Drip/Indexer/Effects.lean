import Drip.Indexer.Handlers

/-!
# Indexer — Effects

What folding an event does to the tables of the streams, read off the successful runs of `foldEvent`.

* `RawEvent.drawn`, `RawEvent.added`: the amount of a withdrawal, and of a top-up; zero otherwise.
* `Merged`: how the row of the event's stream came about.  The amounts count only where the event's
  ledger is above the row's watermark.
* `effect_of_fold`: an event of a stream merges into the row of that stream and, for a withdrawal, adds
  a row to `stream_withdrawals` unless one has its key; any other event leaves both tables alone.
-/

namespace Drip.Indexer
open Chain

variable {db db' : Database} {ev : RawEvent} {s s' : String} {n : Int} {r : I64}
variable {row : StreamState}

/-! ### Columns -/

@[simp]
theorem column_eq_ok : column s = .ok s' ↔ '\x00' ∉ s.toList ∧ s = s' := by
  simp [column]

@[simp]
theorem storedBigint_eq_ok : storedBigint n = .ok r ↔ r.val = n := by
  simp [storedBigint]

theorem upsert_eq_ok {α κ : Type} [DecidableEq κ] {table table' : κ → Option α} {k : κ} {row : α}
    {merge : α → Except Failure α} :
    upsert table k row merge = .ok table' ↔
      ∃ new, table' = Function.update table k (some new) ∧
        (table k = none ∧ new = row ∨ ∃ old, table k = some old ∧ merge old = .ok new) := by
  unfold upsert
  cases hk : table k with
  | none =>
      simp only [bind_eq_ok, pure_eq_ok, Except.ok.injEq]
      constructor
      · rintro ⟨new, rfl, rfl⟩
        exact ⟨row, rfl, .inl ⟨trivial, rfl⟩⟩
      · rintro ⟨new, rfl, ⟨-, rfl⟩ | ⟨old, hold, -⟩⟩
        · exact ⟨new, rfl, rfl⟩
        · cases hold
  | some old =>
      simp only [bind_eq_ok, pure_eq_ok]
      constructor
      · rintro ⟨new, hnew, rfl⟩
        exact ⟨new, rfl, .inr ⟨old, rfl, hnew⟩⟩
      · rintro ⟨new, rfl, ⟨hnone, -⟩ | ⟨old', hold, hnew⟩⟩
        · cases hnone
        · cases hold
          exact ⟨new, hnew, rfl⟩

theorem upsertStream_eq_ok {merge : StreamState → Except Failure StreamState} :
    upsertStream db s row merge = .ok db' ↔
      ∃ new, db' = { db with streamStates := Function.update db.streamStates s (some new) } ∧
        (db.streamStates s = none ∧ new = row ∨
          ∃ old, db.streamStates s = some old ∧ merge old = .ok new) := by
  simp only [upsertStream, bind_eq_ok, pure_eq_ok, upsert_eq_ok]
  constructor
  · rintro ⟨table, ⟨new, rfl, h⟩, rfl⟩
    exact ⟨new, rfl, h⟩
  · rintro ⟨new, rfl, h⟩
    exact ⟨_, ⟨new, rfl, h⟩, rfl⟩

theorem addIfNewer_val {excluded : StreamState} {x y z : I64}
    (h : addIfNewer row excluded x y = .ok z) :
    z.val = x.val + if row.updatedLedger < excluded.updatedLedger then y.val else 0 := by
  unfold addIfNewer at h
  split at h
  · rename_i hlt
    rw [if_pos hlt]
    exact storedBigint_eq_ok.mp h
  · rename_i hle
    cases h
    rw [if_neg hle, add_zero]

/-! ### Events -/

/-- The types of events that are folded into `stream_states`. -/
def streamTypes : List String :=
  ["stream_withdrawn", "stream_cancelled", "stream_paused", "stream_resumed", "stream_topped_up",
    "stream_clawback", "xfer_rec"]

/-- The event is folded into the row of its stream. -/
def RawEvent.OfStream (ev : RawEvent) : Prop := ev.eventType ∈ streamTypes

instance (ev : RawEvent) : Decidable ev.OfStream := inferInstanceAs (Decidable (_ ∈ streamTypes))

/-- The amount of an event of the type `kind`. -/
def RawEvent.amountOf (ev : RawEvent) (kind : String) : Int :=
  if ev.eventType = kind then ev.amount.toOption.getD 0 else 0

def RawEvent.drawn (ev : RawEvent) : Int := ev.amountOf "stream_withdrawn"

def RawEvent.added (ev : RawEvent) : Int := ev.amountOf "stream_topped_up"

/-- The deposit a row is created with, top-ups apart. -/
def RawEvent.opening (ev : RawEvent) : Int :=
  if ev.eventType = "stream_topped_up" then 0
  else ((bigint (ev.text "deposit" (.num 0))).toOption.map (·.val)).getD 0

theorem amountOf_eq {kind : String} (h : ev.eventType = kind) (ha : ev.amount = .ok n) :
    ev.amountOf kind = n := by
  unfold RawEvent.amountOf
  rw [if_pos h, ha]
  rfl

theorem amountOf_eq_zero {kind : String} (h : ev.eventType ≠ kind) : ev.amountOf kind = 0 :=
  if_neg h

theorem ofStream_iff {kind : String} (h : ev.eventType = kind) : ev.OfStream ↔ kind ∈ streamTypes := by
  rw [RawEvent.OfStream, h]

/-- The row of the event's stream: as it was created, or as it was before with what the event adds. -/
inductive Merged (ev : RawEvent) : Option StreamState → StreamState → Prop where
  | created {new : StreamState} (hseen : new.updatedLedger.val = ev.ledger.val)
      (hwithdrawn : new.withdrawn.val = ev.drawn) (hdeposit : new.deposit.val = ev.opening + ev.added) :
      Merged ev none new
  | merged {old new : StreamState}
      (hseen : new.updatedLedger.val = max old.updatedLedger.val ev.ledger.val)
      (hwithdrawn : new.withdrawn.val =
        old.withdrawn.val + if old.updatedLedger.val < ev.ledger.val then ev.drawn else 0)
      (hdeposit : new.deposit.val =
        old.deposit.val + if old.updatedLedger.val < ev.ledger.val then ev.added else 0) :
      Merged ev (some old) new

/-- A row a withdrawal adds to `stream_withdrawals`. -/
structure NewRow (db : Database) (ev : RawEvent) (w : Withdrawal) : Prop where
  kind : ev.eventType = "stream_withdrawn"
  key : w.key = (ev.ledger.widen, ev.txHash, ev.streamId)
  amount : w.amount.val = ev.drawn
  new : ¬ ∃ r ∈ db.streamWithdrawals, r.key = w.key
  row : db.streamStates ev.streamId ≠ none

/-- What an event did to `stream_withdrawals`: nothing, where it is no withdrawal or its key is there
already. -/
def Listed (db : Database) (ev : RawEvent) (rows : List Withdrawal) : Prop :=
  rows = db.streamWithdrawals ∧ (ev.eventType = "stream_withdrawn" →
    ∃ w ∈ db.streamWithdrawals, w.key = (ev.ledger.widen, ev.txHash, ev.streamId)) ∨
  ∃ w, rows = db.streamWithdrawals ++ [w] ∧ NewRow db ev w

/-- What a fold did to the tables of the streams. -/
structure Effect (db : Database) (ev : RawEvent) (db' : Database) : Prop where
  rawEvents : db'.rawEvents = db.rawEvents
  cursor : db'.cursor = db.cursor
  row : ev.OfStream → ∃ new, db'.streamStates = Function.update db.streamStates ev.streamId (some new) ∧
    Merged ev (db.streamStates ev.streamId) new
  rows : ¬ ev.OfStream → db'.streamStates = db.streamStates
  listed : Listed db ev db'.streamWithdrawals

/-! ### The handlers -/

/-- A row a handler offers. -/
theorem streamRow_spec {recipient : String} {deposit : Except Failure I64}
    (h : ev.streamRow recipient deposit = .ok row) :
    deposit = .ok row.deposit ∧ row.withdrawn = .lit 0 ∧ row.updatedLedger.val = ev.ledger.val := by
  simp only [RawEvent.streamRow, bind_eq_ok, column_eq_ok, pure_eq_ok] at h
  obtain ⟨_, -, _, -, _, -, _, -, d, hd, _, -, rfl⟩ := h
  exact ⟨hd, rfl, rfl⟩

theorem opening_eq {d : I64} (hkind : ev.eventType ≠ "stream_topped_up")
    (h : bigint (ev.text "deposit" (.num 0)) = .ok d) : ev.opening = d.val := by
  unfold RawEvent.opening
  rw [if_neg hkind, h]
  rfl

/-- The row an upsert leaves, of a handler that offers `row`. -/
theorem merged_of_upsert {stored : Option StreamState} {new : StreamState}
    {merges : StreamState → Prop}
    (hnew : stored = none ∧ new = row ∨ ∃ old, stored = some old ∧ merges old)
    (hcreated : Merged ev none row) (hmerged : ∀ old, merges old → Merged ev (some old) new) :
    Merged ev stored new := by
  rcases hnew with ⟨rfl, rfl⟩ | ⟨old, rfl, hnew⟩
  · exact hcreated
  · exact hmerged old hnew

/-- The effect of a handler that lists no withdrawal. -/
theorem effect_of_row {new : StreamState} (hstream : ev.OfStream)
    (hkind : ev.eventType ≠ "stream_withdrawn") (hm : Merged ev (db.streamStates ev.streamId) new) :
    Effect db ev
      { db with streamStates := Function.update db.streamStates ev.streamId (some new) } where
  rawEvents := rfl
  cursor := rfl
  row := fun _ => ⟨new, rfl, hm⟩
  rows := fun h => absurd hstream h
  listed := .inl ⟨rfl, fun h => absurd h hkind⟩

/-- A flag is set, and nothing is added. -/
theorem effect_of_markStream {mark : StreamState → StreamState} (h : markStream mark db ev = .ok db')
    (hstream : ev.OfStream) (hdrawn : ev.eventType ≠ "stream_withdrawn")
    (hadded : ev.eventType ≠ "stream_topped_up")
    (hmark : ∀ row, (mark row).deposit = row.deposit ∧ (mark row).withdrawn = row.withdrawn ∧
      (mark row).updatedLedger = row.updatedLedger) : Effect db ev db' := by
  simp only [markStream, bind_eq_ok, upsertStream_eq_ok] at h
  obtain ⟨row, hrow, new, rfl, hnew⟩ := h
  obtain ⟨hdeposit, hwithdrawn, hseen⟩ := streamRow_spec hrow
  have hd : ev.drawn = 0 := amountOf_eq_zero hdrawn
  have ha : ev.added = 0 := amountOf_eq_zero hadded
  refine effect_of_row hstream hdrawn (merged_of_upsert hnew ?_ fun old hnew => ?_)
  · refine .created ?_ ?_ ?_
    · rw [(hmark row).2.2, hseen]
    · rw [(hmark row).2.1, hwithdrawn, hd]
    · rw [(hmark row).1, opening_eq hadded hdeposit, ha, add_zero]
  · cases hnew
    refine .merged ?_ ?_ ?_
    · rw [StreamState.seen, Ranged.val_max, (hmark old).2.2, hseen]
    · rw [StreamState.seen, (hmark old).2.1, hd, ite_self, add_zero]
    · rw [StreamState.seen, (hmark old).1, ha, ite_self, add_zero]

theorem effect_of_toppedUp (hkind : ev.eventType = "stream_topped_up")
    (h : handleStreamToppedUp db ev = .ok db') : Effect db ev db' := by
  simp only [handleStreamToppedUp, bind_eq_ok, pure_eq_ok, upsertStream_eq_ok] at h
  obtain ⟨amount, hamount, row, hrow, new, rfl, hnew⟩ := h
  obtain ⟨hdeposit, hwithdrawn, hseen⟩ := streamRow_spec hrow
  have hdrawn : ev.eventType ≠ "stream_withdrawn" := hkind.trans_ne (by decide)
  have hd : ev.drawn = 0 := amountOf_eq_zero hdrawn
  have ha : ev.added = row.deposit.val := by
    rw [RawEvent.added, amountOf_eq hkind hamount, storedBigint_eq_ok.mp hdeposit]
  refine effect_of_row ((ofStream_iff hkind).mpr (by decide)) hdrawn
    (merged_of_upsert hnew ?_ fun old hnew => ?_)
  · refine .created hseen ?_ ?_
    · rw [hwithdrawn, hd]
    · rw [RawEvent.opening, if_pos hkind, zero_add, ha]
  · obtain ⟨deposit, hsum, rfl⟩ := hnew
    refine .merged ?_ ?_ ?_
    · rw [StreamState.seen, Ranged.val_max, hseen]
    · rw [StreamState.seen, hd, ite_self, add_zero]
    · rw [ha, ← hseen]
      exact addIfNewer_val hsum

theorem effect_of_xferRec (hkind : ev.eventType = "xfer_rec")
    (h : handleXferRec db ev = .ok db') : Effect db ev db' := by
  simp only [handleXferRec, bind_eq_ok, upsertStream_eq_ok] at h
  obtain ⟨row, hrow, new, rfl, hnew⟩ := h
  obtain ⟨hdeposit, hwithdrawn, hseen⟩ := streamRow_spec hrow
  have hdrawn : ev.eventType ≠ "stream_withdrawn" := hkind.trans_ne (by decide)
  have hadded : ev.eventType ≠ "stream_topped_up" := hkind.trans_ne (by decide)
  have hd : ev.drawn = 0 := amountOf_eq_zero hdrawn
  have ha : ev.added = 0 := amountOf_eq_zero hadded
  refine effect_of_row ((ofStream_iff hkind).mpr (by decide)) hdrawn
    (merged_of_upsert hnew ?_ fun old hnew => ?_)
  · refine .created hseen ?_ ?_
    · rw [hwithdrawn, hd]
    · rw [opening_eq hadded hdeposit, ha, add_zero]
  · cases hnew
    refine .merged ?_ ?_ ?_
    · rw [StreamState.seen, Ranged.val_max, hseen]
    · rw [StreamState.seen, hd, ite_self, add_zero]
    · rw [StreamState.seen, ha, ite_self, add_zero]

/-- The insertion of a withdrawal, where it succeeds. -/
theorem insertWithdrawal_spec {w : Withdrawal} (h : insertWithdrawal db w = .ok db')
    (hkind : ev.eventType = "stream_withdrawn")
    (hkey : w.key = (ev.ledger.widen, ev.txHash, ev.streamId)) (hamount : w.amount.val = ev.drawn) :
    db' = { db with streamWithdrawals := db'.streamWithdrawals } ∧
      Listed db ev db'.streamWithdrawals := by
  unfold insertWithdrawal at h
  split at h
  · rename_i hknown
    cases h
    exact ⟨rfl, .inl ⟨rfl, fun _ => hkey ▸ hknown⟩⟩
  · rename_i hnew
    simp only [bind_eq_ok, reject_eq_ok, pure_eq_ok] at h
    obtain ⟨-, hrow, rfl⟩ := h
    have hid : w.streamId = ev.streamId := congrArg (·.2.2) hkey
    exact ⟨rfl, .inr ⟨w, rfl, hkind, hkey, hamount, hnew, hid ▸ hrow⟩⟩

theorem effect_of_withdrawn (hkind : ev.eventType = "stream_withdrawn")
    (h : handleStreamWithdrawn db ev = .ok db') : Effect db ev db' := by
  simp only [handleStreamWithdrawn, bind_eq_ok, pure_eq_ok, column_eq_ok, upsertStream_eq_ok] at h
  obtain ⟨amount, hamount, _, ⟨-, rfl⟩, _, ⟨-, rfl⟩, _, ⟨-, rfl⟩, x, hx, db₁, hins, row, hrow, new, rfl,
    hnew⟩ := h
  obtain ⟨hdeposit, -, hseen⟩ := streamRow_spec hrow
  have hstream : ev.OfStream := (ofStream_iff hkind).mpr (by decide)
  have hadded : ev.eventType ≠ "stream_topped_up" := hkind.trans_ne (by decide)
  have hd : ev.drawn = x.val := by
    rw [RawEvent.drawn, amountOf_eq hkind hamount, storedBigint_eq_ok.mp hx]
  have ha : ev.added = 0 := amountOf_eq_zero hadded
  obtain ⟨hdb₁, hlisted⟩ := insertWithdrawal_spec hins hkind rfl hd.symm
  have hstates : db₁.streamStates = db.streamStates := by rw [hdb₁]
  have hraw : db₁.rawEvents = db.rawEvents := by rw [hdb₁]
  have hcursor : db₁.cursor = db.cursor := by rw [hdb₁]
  -- the insertion has left the row of the stream alone
  rw [hstates] at hnew
  refine ⟨hraw, hcursor, fun _ => ⟨new, ?_, ?_⟩, fun h => absurd hstream h, hlisted⟩
  · exact congrArg (fun t => Function.update t ev.streamId (some new)) hstates
  · refine merged_of_upsert hnew ?_ fun old hnew => ?_
    · refine .created hseen hd.symm ?_
      rw [opening_eq hadded hdeposit, ha, add_zero]
    · obtain ⟨withdrawn, hsum, rfl⟩ := hnew
      refine .merged ?_ ?_ ?_
      · rw [StreamState.seen, Ranged.val_max, hseen]
      · rw [hd, ← hseen]
        exact addIfNewer_val hsum
      · rw [StreamState.seen, ha, ite_self, add_zero]

/-- An event of no stream. -/
theorem effect_of_foreign (hstream : ¬ ev.OfStream) (hr : db'.rawEvents = db.rawEvents)
    (hc : db'.cursor = db.cursor) (hs : db'.streamStates = db.streamStates)
    (hw : db'.streamWithdrawals = db.streamWithdrawals) : Effect db ev db' where
  rawEvents := hr
  cursor := hc
  row := fun h => absurd h hstream
  rows := fun _ => hs
  listed := .inl ⟨hw, fun h => absurd ((ofStream_iff h).mpr (by decide)) hstream⟩

/-- Votes are no part of the tables of the streams. -/
theorem effect_of_vote (hstream : ¬ ev.OfStream) (hvote : handleLoanVote db ev = .ok db' ∨
    handleTreasuryVote db ev = .ok db' ∨ handleTreasuryReveal db ev = .ok db') :
    Effect db ev db' := by
  rcases hvote with h | h | h
  · simp only [handleLoanVote, bind_eq_ok, pure_eq_ok] at h
    obtain ⟨votes, -, rfl⟩ := h
    exact effect_of_foreign hstream rfl rfl rfl rfl
  · simp only [handleTreasuryVote, bind_eq_ok, pure_eq_ok] at h
    obtain ⟨votes, -, rfl⟩ := h
    exact effect_of_foreign hstream rfl rfl rfl rfl
  · simp only [handleTreasuryReveal, bind_eq_ok, pure_eq_ok] at h
    obtain ⟨_, -, _, -, _, -, _, -, reveals, -, rfl⟩ := h
    exact effect_of_foreign hstream rfl rfl rfl rfl

/-- What the router calls. -/
theorem handler_of_fold (h : foldEvent db ev = .ok db') :
    db' = db ∧ ¬ ev.OfStream ∧ handlerOf ev.eventType = none ∨ ∃ handler, handlerOf ev.eventType = some handler ∧
      handler db ev = .ok db' := by
  unfold foldEvent at h
  cases hh : handlerOf ev.eventType with
  | some handler =>
      rw [hh] at h
      exact .inr ⟨handler, rfl, h⟩
  | none =>
      rw [hh] at h
      dsimp only at h
      split at h
      · cases h
      · -- each of the types of the streams has a handler
        cases h
        refine .inl ⟨rfl, fun hstream => ?_, rfl⟩
        unfold handlerOf at hh
        simp only [RawEvent.OfStream, streamTypes, List.mem_cons, List.not_mem_nil, or_false] at hstream
        rcases hstream with hk | hk | hk | hk | hk | hk | hk
        all_goals
          rw [hk] at hh
          cases hh

theorem effect_of_fold (h : foldEvent db ev = .ok db') : Effect db ev db' := by
  rcases handler_of_fold h with ⟨rfl, hstream, -⟩ | ⟨handler, hhandler, h⟩
  · exact effect_of_foreign hstream rfl rfl rfl rfl
  · unfold handlerOf at hhandler
    split at hhandler
    case h_1 hk =>
        cases hhandler
        exact effect_of_withdrawn hk h
    case h_2 hk | h_3 hk | h_4 hk | h_6 hk =>
        cases hhandler
        exact effect_of_markStream h ((ofStream_iff hk).mpr (by decide)) (hk.trans_ne (by decide))
          (hk.trans_ne (by decide)) fun _ => ⟨rfl, rfl, rfl⟩
    case h_5 hk =>
        cases hhandler
        exact effect_of_toppedUp hk h
    case h_7 hk =>
        cases hhandler
        exact effect_of_xferRec hk h
    case h_8 hk =>
        cases hhandler
        exact effect_of_vote ((ofStream_iff hk).not.mpr (by decide)) (.inl h)
    case h_9 hk =>
        cases hhandler
        exact effect_of_vote ((ofStream_iff hk).not.mpr (by decide)) (.inr (.inl h))
    case h_10 hk =>
        cases hhandler
        exact effect_of_vote ((ofStream_iff hk).not.mpr (by decide)) (.inr (.inr h))
    case h_11 => cases hhandler

end Drip.Indexer
