import Drip.Support.Keyed
import Drip.Indexer.Decimals
import Drip.Indexer.Poller
import Drip.Indexer.Totals
import Drip.Indexer.Redelivery

/-!
# Indexer — Columns

When an event can be ingested.  `WellFormed` events are of the types that have a handler, with natural
numbers for amounts; `Ready` says what the tables ask of such an event: texts without a NUL, numbers that fit
a `BIGINT`, for a withdrawal the row it refers to, and sums that fit.

* `exists_insertRawEvent`, `exists_streamRow`: the statements that every event of a stream runs.
* `exists_foldEvent`: each handler, against the numbers it stores.
* `exists_ingestEvent`: a well-formed event is ingested exactly if the tables are `Ready` for it.
-/

namespace Drip.Indexer
open Chain

variable {db db' : Database} {ev : RawEvent} {row : StreamState} {s name other : String} {n : Int}

/-! ### Events -/

/-- The keys of `HANDLERS`. -/
def handledTypes : List String := streamTypes ++ ["loan_vote", "treasury_vote", "treasury_reveal"]

/-- The fields with amounts. -/
def amountFields : List String := ["amount", "deposit", "rate_per_second", "weight"]

/-- The event has a handler, and its numbers are decimal texts of natural numbers. -/
structure RawEvent.WellFormed (ev : RawEvent) : Prop where
  handled : ev.eventType ∈ handledTypes
  amounts : ∀ name ∈ amountFields, ∃ n : Nat, ev.text name (.num 0) = toString n

/-- The number in a field. -/
def RawEvent.number (ev : RawEvent) (name : String) : Int :=
  (bigInt (ev.text name (.num 0))).toOption.getD 0

/-- The numbers that the handler of the type stores. -/
def storedNumbers : String → List String
  | "stream_withdrawn" => ["amount", "deposit", "rate_per_second"]
  | "stream_topped_up" => ["amount", "rate_per_second"]
  | "loan_vote" | "treasury_vote" => ["weight"]
  | "treasury_reveal" => []
  | _ => ["deposit", "rate_per_second"]

/-- The greatest `BIGINT`. -/
def bigintMax : Int := 9223372036854775807

/-- The numbers of the event fit their columns. -/
def RawEvent.Fits (ev : RawEvent) : Prop :=
  ∀ name ∈ storedNumbers ev.eventType, ev.number name ≤ bigintMax

def Value.Plain (v : Value) : Prop := '\x00' ∉ v.text.toList

/-- No text of the event has a NUL. -/
structure RawEvent.Plain (ev : RawEvent) : Prop where
  txHash : '\x00' ∉ ev.txHash.toList
  contractId : '\x00' ∉ ev.contractId.toList
  topics : ev.topics.Plain
  data : ∀ x ∈ ev.data, '\x00' ∉ x.1.toList ∧ x.2.Plain

/-- The tables can take the event. -/
structure Ready (db : Database) (ev : RawEvent) : Prop where
  plain : ev.Plain
  fits : ev.Fits
  row : ev.eventType = "stream_withdrawn" → db.streamStates ev.streamId ≠ none
  withdrawn : ∀ row, db.streamStates ev.streamId = some row →
    row.updatedLedger.val < ev.ledger.val → row.withdrawn.val + ev.drawn ≤ bigintMax
  deposit : ∀ row, db.streamStates ev.streamId = some row →
    row.updatedLedger.val < ev.ledger.val → row.deposit.val + ev.added ≤ bigintMax

theorem Ready.of_states (h : Ready db ev) (hstates : db'.streamStates = db.streamStates) : Ready db' ev :=
  ⟨h.plain, h.fits, hstates ▸ h.row, hstates ▸ h.withdrawn, hstates ▸ h.deposit⟩

/-! ### Numbers -/

theorem number_spec (hw : ev.WellFormed) (name : String) (hname : name ∈ amountFields) :
    0 ≤ ev.number name ∧ bigInt (ev.text name (.num 0)) = .ok (ev.number name) ∧
      bigint (ev.text name (.num 0)) = storedBigint (ev.number name) := by
  obtain ⟨n, hn⟩ := hw.amounts name hname
  have hread : bigInt (ev.text name (.num 0)) = .ok (n : Int) := by rw [hn, bigInt_toString]
  have hnumber : ev.number name = n := by
    unfold RawEvent.number
    rw [hread]
    rfl
  rw [hnumber, hn]
  exact ⟨Int.natCast_nonneg n, bigInt_toString n, bigint_toString n⟩

theorem exists_storedBigint (h : 0 ≤ n) : (∃ r, storedBigint n = .ok r) ↔ n ≤ bigintMax := by
  simp only [storedBigint_eq_ok]
  constructor
  · rintro ⟨r, rfl⟩
    exact r.le
  · intro hle
    exact ⟨⟨n, by omega, hle⟩, rfl⟩

theorem exists_bigint (hw : ev.WellFormed) (name : String) (hname : name ∈ amountFields) :
    (∃ r, bigint (ev.text name (.num 0)) = .ok r) ↔ ev.number name ≤ bigintMax := by
  obtain ⟨hnonneg, -, hstored⟩ := number_spec hw name hname
  rw [hstored]
  exact exists_storedBigint hnonneg

theorem amount_eq (hw : ev.WellFormed) : ev.amount = .ok (ev.number "amount") :=
  (number_spec hw "amount" (by decide)).2.1

theorem amountOf_eq_number (hw : ev.WellFormed) {kind : String} (h : ev.eventType = kind) :
    ev.amountOf kind = ev.number "amount" :=
  amountOf_eq h (amount_eq hw)

theorem amountOf_nonneg (hw : ev.WellFormed) (kind : String) : 0 ≤ ev.amountOf kind := by
  by_cases h : ev.eventType = kind
  · rw [amountOf_eq_number hw h]
    exact (number_spec hw "amount" (by decide)).1
  · rw [amountOf_eq_zero h]

/-! ### Texts -/

theorem exists_column : (∃ t, column s = .ok t) ↔ '\x00' ∉ s.toList := by
  simp only [column_eq_ok, exists_and_left, exists_eq', and_true]

theorem plain_num (n : Int) : (Value.num n).Plain := by
  have hdigits : ∀ m : Nat, '\x00' ∉ (toString m).toList := plain_toString
  cases n with
  | ofNat m => exact hdigits m
  | negSucc m =>
      have htext : (Value.num (.negSucc m)).text = "-" ++ toString (m + 1) := rfl
      rw [Value.Plain, htext, String.toList_append, List.mem_append, not_or]
      exact ⟨by decide, hdigits (m + 1)⟩

theorem exists_jsonb (v : Value) : (∃ w, jsonb v = .ok w) ↔ v.Plain := by
  cases v with
  | null => exact iff_of_true ⟨_, rfl⟩ (by rw [Value.Plain]; decide)
  | bool b => exact iff_of_true ⟨_, rfl⟩ (by rw [Value.Plain]; cases b <;> decide)
  | num n => exact iff_of_true ⟨_, rfl⟩ (plain_num n)
  | str s | object s =>
      simp only [jsonb, bind_eq_ok, column_eq_ok, pure_eq_ok]
      constructor
      · rintro ⟨_, _, ⟨h, -⟩, -⟩
        exact h
      · intro h
        exact ⟨_, s, ⟨h, rfl⟩, rfl⟩

theorem RawEvent.Plain.get (h : ev.Plain) (name : String) : (ev.get name).Plain := by
  unfold RawEvent.get
  cases hl : ev.data.lookup name with
  | none => exact (by rw [Value.Plain]; decide : Value.null.Plain)
  | some v =>
      have hmem : (name, v) ∈ ev.data := by
        obtain ⟨l₁, l₂, hsplit, -⟩ := List.lookup_eq_some_iff.mp hl
        rw [hsplit]
        exact List.mem_append_right _ List.mem_cons_self
      exact (h.data _ hmem).2

theorem plain_or {v w : Value} (hv : v.Plain) (hw : w.Plain) : (v.or w).Plain := by
  unfold Value.or
  split
  · exact hw
  · exact hv

theorem plain_empty : (Value.str "").Plain := by
  rw [Value.Plain]
  decide

theorem RawEvent.Plain.text (h : ev.Plain) (name : String) : '\x00' ∉ (ev.text name).toList :=
  plain_or (h.get name) plain_empty

theorem RawEvent.Plain.text₂ (h : ev.Plain) (name other : String) :
    '\x00' ∉ (ev.text₂ name other).toList :=
  plain_or (h.get name) (plain_or (h.get other) plain_empty)

theorem RawEvent.Plain.streamId (h : ev.Plain) : '\x00' ∉ ev.streamId.toList :=
  plain_or (h.get "stream_id") (plain_or (h.get "streamId") h.contractId)

theorem column_of_plain (h : '\x00' ∉ s.toList) : column s = .ok s := column_eq_ok.mpr ⟨h, rfl⟩

/-! ### Statements -/

theorem plain_of_handled (h : ev.eventType ∈ handledTypes) : '\x00' ∉ ev.eventType.toList := by
  have hall : ∀ kind ∈ handledTypes, '\x00' ∉ kind.toList := by decide +kernel
  exact hall _ h

theorem exists_insertRawEvent (h : '\x00' ∉ ev.eventType.toList) :
    (∃ db', insertRawEvent db ev = .ok db') ↔ ev.Plain := by
  have hfield : ∀ x : String × Value, (∃ w, (do let _ ← column x.1; jsonb x.2) = Except.ok w) ↔
      '\x00' ∉ x.1.toList ∧ x.2.Plain := by
    intro x
    simp only [bind_eq_ok, ← exists_jsonb, ← exists_column]
    constructor
    · rintro ⟨w, t, ht, hw⟩
      exact ⟨⟨t, ht⟩, w, hw⟩
    · rintro ⟨⟨t, ht⟩, w, hw⟩
      exact ⟨w, t, ht, hw⟩
  unfold insertRawEvent
  simp only [bind_eq_ok]
  constructor
  · rintro ⟨_, t, ht, _, -, i, hi, v, hv, vs, hvs, -⟩
    refine ⟨exists_column.mp ⟨t, ht⟩, exists_column.mp ⟨i, hi⟩, (exists_jsonb _).mp ⟨v, hv⟩, fun x hx => ?_⟩
    exact (hfield x).mp (exists_mapM.mp ⟨vs, hvs⟩ x hx)
  · rintro ⟨htx, hid, htopics, hdata⟩
    obtain ⟨v, hv⟩ := (exists_jsonb _).mpr htopics
    obtain ⟨vs, hvs⟩ := exists_mapM.mpr fun x hx => (hfield x).mpr (hdata x hx)
    have htype := column_of_plain h
    by_cases hknown : ∃ r ∈ db.rawEvents, r.key = ev.key
    · exact ⟨db, _, column_of_plain htx, _, htype, _, column_of_plain hid, v, hv, vs, hvs, if_pos hknown⟩
    · exact ⟨_, _, column_of_plain htx, _, htype, _, column_of_plain hid, v, hv, vs, hvs, if_neg hknown⟩

theorem exists_streamRow (hw : ev.WellFormed) (hp : ev.Plain) {recipient : String}
    (hr : '\x00' ∉ recipient.toList) {deposit : Except Failure I64} :
    (∃ row, ev.streamRow recipient deposit = .ok row) ↔
      (∃ d, deposit = .ok d) ∧ ev.number "rate_per_second" ≤ bigintMax := by
  unfold RawEvent.streamRow
  rw [← exists_bigint hw "rate_per_second" (by decide), column_of_plain hp.streamId,
    column_of_plain (hp.text "sender"), column_of_plain hr, column_of_plain (hp.text "token")]
  simp only [ok_bind, bind_eq_ok, pure_eq_ok]
  constructor
  · rintro ⟨_, d, hd, r, hrate, -⟩
    exact ⟨⟨d, hd⟩, r, hrate⟩
  · rintro ⟨⟨d, hd⟩, r, hrate⟩
    exact ⟨_, d, hd, r, hrate, rfl⟩

theorem exists_upsertStream_iff {merge : StreamState → Except Failure StreamState} :
    (∃ db', upsertStream db s row merge = .ok db') ↔
      ∀ old, db.streamStates s = some old → ∃ new, merge old = .ok new := by
  refine ⟨?_, exists_upsertStream⟩
  rintro ⟨db', h⟩ old hold
  obtain ⟨new, -, ⟨hnone, -⟩ | ⟨old', hold', hnew⟩⟩ := upsertStream_eq_ok.mp h
  · cases hnone.symm.trans hold
  · obtain rfl := Option.some.inj (hold.symm.trans hold')
    exact ⟨new, hnew⟩

/-- Sums of `BIGINT`s that are not negative. -/
theorem exists_addIfNewer {old excluded : StreamState} {x y : I64} (hy : 0 ≤ y.val) :
    (∃ z, addIfNewer old excluded x y = .ok z) ↔
      (old.updatedLedger.val < excluded.updatedLedger.val → x.val + y.val ≤ bigintMax) := by
  unfold addIfNewer
  by_cases h : old.updatedLedger < excluded.updatedLedger
  · simp only [if_pos h, storedBigint_eq_ok]
    constructor
    · rintro ⟨z, hz⟩ -
      rw [← hz]
      exact z.le
    · intro hle
      have hlow := x.ge
      exact ⟨⟨x.val + y.val, by omega, hle h⟩, rfl⟩
  · rw [if_neg h]
    exact iff_of_true ⟨x, rfl⟩ fun hlt => absurd hlt h

theorem exists_upsertVote_iff (hw : ev.WellFormed) (hp : ev.Plain) {votes : String × String → Option Vote}
    {subject : String} (hs : '\x00' ∉ subject.toList) :
    (∃ votes', upsertVote votes subject ev = .ok votes') ↔ ev.number "weight" ≤ bigintMax := by
  obtain ⟨hnonneg, hread, -⟩ := number_spec hw "weight" (by decide)
  rw [← exists_storedBigint hnonneg]
  unfold upsertVote
  rw [hread, column_of_plain hs, column_of_plain (hp.text "voter"), column_of_plain hp.txHash]
  simp only [ok_bind, bind_eq_ok]
  constructor
  · rintro ⟨_, r, hr, -⟩
    exact ⟨r, hr⟩
  · rintro ⟨r, hr⟩
    cases hold : votes (subject, ev.text "voter") with
    | none => exact ⟨_, r, hr, upsert_eq_ok.mpr ⟨_, rfl, .inl ⟨hold, rfl⟩⟩⟩
    | some old => exact ⟨_, r, hr, upsert_eq_ok.mpr ⟨_, rfl, .inr ⟨old, hold, rfl⟩⟩⟩

/-! ### Constraints -/

/-- The constraints of `db/schema.sql` that the types of the tables leave open. -/
structure Database.Constrained (db : Database) : Prop where
  rawKeys : (db.rawEvents.map RawEvent.key).Nodup
  withdrawalKeys : (db.streamWithdrawals.map Withdrawal.key).Nodup
  /-- `REFERENCES stream_states(stream_id)` -/
  references : ∀ w ∈ db.streamWithdrawals, db.streamStates w.streamId ≠ none

theorem constrained_fresh : Database.Constrained .fresh where
  rawKeys := List.nodup_nil
  withdrawalKeys := List.nodup_nil
  references := List.forall_mem_nil _

theorem exists_insertWithdrawal {w : Withdrawal} (hdb : db.Constrained) :
    (∃ db', insertWithdrawal db w = .ok db') ↔ db.streamStates w.streamId ≠ none := by
  unfold insertWithdrawal
  split
  · rename_i hknown
    obtain ⟨r, hr, hkey⟩ := hknown
    have hid : r.streamId = w.streamId := congrArg (·.2.2) hkey
    exact iff_of_true ⟨db, rfl⟩ (hid ▸ hdb.references r hr)
  · simp only [bind_eq_ok, reject_eq_ok, pure_eq_ok]
    constructor
    · rintro ⟨_, -, h, -⟩
      exact h
    · intro h
      exact ⟨_, (), h, rfl⟩

/-- A statement that has succeeded leaves the tables constrained. -/
theorem constrained_of_fold (hdb : db.Constrained) (h : foldEvent db ev = .ok db') : db'.Constrained := by
  have he := effect_of_fold h
  have hrows : ∀ s, db.streamStates s ≠ none → db'.streamStates s ≠ none := by
    intro s hs
    obtain ⟨row, hrow⟩ := Option.ne_none_iff_exists'.mp hs
    obtain ⟨row', hrow', -⟩ := row_of_fold h hrow
    rw [hrow']
    exact Option.some_ne_none row'
  refine ⟨he.rawEvents ▸ hdb.rawKeys, ?_, ?_⟩
  · rcases he.listed with ⟨hsame, -⟩ | ⟨w, hnew, hw⟩
    · exact hsame ▸ hdb.withdrawalKeys
    · have hkeyed := insertNew_keyed (x := w) hdb.withdrawalKeys
      rw [insertNew, if_neg hw.new] at hkeyed
      exact hnew ▸ hkeyed
  · intro w' hw'
    rcases he.listed with ⟨hsame, -⟩ | ⟨w, hnew, hw⟩
    · exact hrows _ (hdb.references w' (hsame ▸ hw'))
    · rw [hnew] at hw'
      rcases List.mem_append.mp hw' with hw' | hw'
      · exact hrows _ (hdb.references w' hw')
      · obtain rfl := List.mem_singleton.mp hw'
        rw [hw.streamId]
        exact hrows _ hw.row

theorem states_of_insert (h : insertRawEvent db ev = .ok db') : db'.streamStates = db.streamStates := by
  simp only [insertRawEvent, bind_eq_ok] at h
  obtain ⟨_, -, _, -, _, -, _, -, _, -, h⟩ := h
  split at h
  · cases h
    rfl
  · cases h
    rfl

theorem constrained_of_insert (hdb : db.Constrained) (h : insertRawEvent db ev = .ok db') :
    db'.Constrained := by
  simp only [insertRawEvent, bind_eq_ok] at h
  obtain ⟨_, -, _, -, _, -, _, -, _, -, h⟩ := h
  split at h
  · cases h
    exact hdb
  · rename_i hnew
    cases h
    have hkeyed := insertNew_keyed (x := ev) hdb.rawKeys
    rw [insertNew, if_neg hnew] at hkeyed
    exact ⟨hkeyed, hdb.withdrawalKeys, hdb.references⟩

/-! ### Handlers -/

/-- An event without an amount, where its numbers fit. -/
theorem ready_iff_fits (hp : ev.Plain) (hdrawn : ev.eventType ≠ "stream_withdrawn")
    (hadded : ev.eventType ≠ "stream_topped_up") : Ready db ev ↔ ev.Fits := by
  have hd : ev.drawn = 0 := amountOf_eq_zero hdrawn
  have ha : ev.added = 0 := amountOf_eq_zero hadded
  refine ⟨fun h => h.fits, fun hfits => ⟨hp, hfits, fun hk => absurd hk hdrawn, ?_, ?_⟩⟩
  · intro row _ _
    rw [hd, add_zero]
    exact row.withdrawn.le
  · intro row _ _
    rw [ha, add_zero]
    exact row.deposit.le

/-- A handler that adds nothing up. -/
theorem exists_offered (hw : ev.WellFormed) (hp : ev.Plain) {recipient : String}
    (hr : '\x00' ∉ recipient.toList) (offer : StreamState → StreamState)
    (merge : StreamState → StreamState → StreamState) :
    (∃ db', (do
        let row ← ev.streamRow recipient (bigint (ev.text "deposit" (.num 0)))
        upsertStream db ev.streamId (offer row) fun old => .ok (merge row old)) = .ok db') ↔
      ev.number "deposit" ≤ bigintMax ∧ ev.number "rate_per_second" ≤ bigintMax := by
  rw [← exists_bigint hw "deposit" (by decide), ← exists_streamRow hw hp hr]
  simp only [bind_eq_ok]
  constructor
  · rintro ⟨_, row, h, -⟩
    exact ⟨row, h⟩
  · rintro ⟨row, h⟩
    have hupsert : ∃ db', upsertStream db ev.streamId (offer row) (fun old => .ok (merge row old)) = .ok db' :=
      exists_upsertStream fun _ _ => ⟨_, rfl⟩
    obtain ⟨db', hdb'⟩ := hupsert
    exact ⟨db', row, h, hdb'⟩

theorem exists_markStream (hw : ev.WellFormed) (hp : ev.Plain) (mark : StreamState → StreamState) :
    (∃ db', markStream mark db ev = .ok db') ↔
      ev.number "deposit" ≤ bigintMax ∧ ev.number "rate_per_second" ≤ bigintMax :=
  exists_offered hw hp (hp.text "recipient") mark _

theorem exists_xferRec (hw : ev.WellFormed) (hp : ev.Plain) :
    (∃ db', handleXferRec db ev = .ok db') ↔
      ev.number "deposit" ≤ bigintMax ∧ ev.number "rate_per_second" ≤ bigintMax :=
  exists_offered hw hp (hp.text₂ "new_recipient" "newRecipient") (fun row => row) _

/-- An upsert that adds a column of the offered row. -/
theorem exists_adding (row : StreamState) {l : Int} (column : StreamState → I64)
    (set : StreamState → I64 → StreamState)
    (hseen : row.updatedLedger.val = l) (hnonneg : 0 ≤ (column row).val) :
    (∃ db', upsertStream db s row (fun old => do
        let sum ← addIfNewer old row (column old) (column row)
        return set old sum) = .ok db') ↔
      ∀ old, db.streamStates s = some old → old.updatedLedger.val < l →
        (column old).val + (column row).val ≤ bigintMax := by
  rw [exists_upsertStream_iff]
  refine forall_congr' fun old => imp_congr_right fun _ => ?_
  rw [← hseen, ← exists_addIfNewer hnonneg]
  simp only [bind_eq_ok, pure_eq_ok]
  constructor
  · rintro ⟨_, z, hz, -⟩
    exact ⟨z, hz⟩
  · rintro ⟨z, hz⟩
    exact ⟨_, z, hz, rfl⟩

theorem fits_iff {names : List String} (h : storedNumbers ev.eventType = names) :
    ev.Fits ↔ ∀ name ∈ names, ev.number name ≤ bigintMax := by
  rw [RawEvent.Fits, h]

theorem ready_toppedUp (hp : ev.Plain) (hkind : ev.eventType = "stream_topped_up") :
    Ready db ev ↔ (ev.number "amount" ≤ bigintMax ∧ ev.number "rate_per_second" ≤ bigintMax) ∧
      ∀ old, db.streamStates ev.streamId = some old → old.updatedLedger.val < ev.ledger.val →
        old.deposit.val + ev.added ≤ bigintMax := by
  have hnumbers : storedNumbers ev.eventType = ["amount", "rate_per_second"] := congrArg storedNumbers hkind
  have hfits : ev.Fits ↔ ev.number "amount" ≤ bigintMax ∧ ev.number "rate_per_second" ≤ bigintMax := by
    rw [fits_iff hnumbers]
    simp only [List.forall_mem_cons, List.not_mem_nil, false_imp_iff, implies_true, and_true]
  have hd : ev.drawn = 0 := amountOf_eq_zero (hkind.trans_ne (by decide))
  rw [← hfits]
  constructor
  · intro h
    exact ⟨h.fits, h.deposit⟩
  · rintro ⟨h, hsum⟩
    refine ⟨hp, h, fun hk => ?_, fun row _ _ => ?_, hsum⟩
    · exact absurd (hkind.symm.trans hk) (by decide)
    · rw [hd, add_zero]
      exact row.withdrawn.le

theorem ready_withdrawn (hp : ev.Plain) (hkind : ev.eventType = "stream_withdrawn") :
    Ready db ev ↔
      (ev.number "amount" ≤ bigintMax ∧ ev.number "deposit" ≤ bigintMax ∧
        ev.number "rate_per_second" ≤ bigintMax) ∧
      db.streamStates ev.streamId ≠ none ∧
      ∀ old, db.streamStates ev.streamId = some old → old.updatedLedger.val < ev.ledger.val →
        old.withdrawn.val + ev.drawn ≤ bigintMax := by
  have hnumbers : storedNumbers ev.eventType = ["amount", "deposit", "rate_per_second"] :=
    congrArg storedNumbers hkind
  have hfits : ev.Fits ↔ ev.number "amount" ≤ bigintMax ∧ ev.number "deposit" ≤ bigintMax ∧
      ev.number "rate_per_second" ≤ bigintMax := by
    rw [fits_iff hnumbers]
    simp only [List.forall_mem_cons, List.not_mem_nil, false_imp_iff, implies_true, and_true]
  have ha : ev.added = 0 := amountOf_eq_zero (hkind.trans_ne (by decide))
  rw [← hfits]
  constructor
  · intro h
    exact ⟨h.fits, h.row hkind, h.withdrawn⟩
  · rintro ⟨h, hrow, hsum⟩
    refine ⟨hp, h, fun _ => hrow, hsum, fun row _ _ => ?_⟩
    rw [ha, add_zero]
    exact row.deposit.le

theorem exists_toppedUp (hw : ev.WellFormed) (hp : ev.Plain) (hkind : ev.eventType = "stream_topped_up") :
    (∃ db', handleStreamToppedUp db ev = .ok db') ↔ Ready db ev := by
  obtain ⟨hnonneg, -⟩ := number_spec hw "amount" (by decide)
  have hadded : ev.added = ev.number "amount" := amountOf_eq_number hw hkind
  rw [ready_toppedUp hp hkind, ← exists_storedBigint hnonneg, ← exists_streamRow hw hp (hp.text "recipient")]
  unfold handleStreamToppedUp
  rw [amount_eq hw]
  simp only [ok_bind, bind_eq_ok]
  have hupsert : ∀ row, ev.streamRow (ev.text "recipient") (storedBigint (ev.number "amount")) = .ok row →
      ((∃ db', upsertStream db ev.streamId row (fun old => do
          let deposit ← addIfNewer old row old.deposit row.deposit
          return { old with deposit := deposit }.seen row.updatedLedger) = .ok db') ↔
        ∀ old, db.streamStates ev.streamId = some old → old.updatedLedger.val < ev.ledger.val →
          old.deposit.val + ev.added ≤ bigintMax) := by
    intro row h
    obtain ⟨hdeposit, -, hseen⟩ := streamRow_spec h
    rw [storedBigint_eq_ok] at hdeposit
    rw [hadded, ← hdeposit]
    exact exists_adding row (·.deposit) (fun old d => { old with deposit := d }.seen row.updatedLedger) hseen
      (by omega)
  constructor
  · rintro ⟨db', row, h, hdb'⟩
    exact ⟨⟨row, h⟩, (hupsert row h).mp ⟨db', hdb'⟩⟩
  · rintro ⟨⟨row, h⟩, hsum⟩
    obtain ⟨db', hdb'⟩ := (hupsert row h).mpr hsum
    exact ⟨db', row, h, hdb'⟩

theorem exists_withdrawn (hw : ev.WellFormed) (hp : ev.Plain) (hdb : db.Constrained)
    (hkind : ev.eventType = "stream_withdrawn") :
    (∃ db', handleStreamWithdrawn db ev = .ok db') ↔ Ready db ev := by
  obtain ⟨hnonneg, -⟩ := number_spec hw "amount" (by decide)
  have hdrawn : ev.drawn = ev.number "amount" := amountOf_eq_number hw hkind
  rw [ready_withdrawn hp hkind, ← exists_storedBigint hnonneg, ← exists_bigint hw "deposit" (by decide),
    ← exists_streamRow hw hp (hp.text "recipient")]
  unfold handleStreamWithdrawn
  dsimp only
  rw [amount_eq hw, column_of_plain hp.streamId, column_of_plain hp.txHash,
    column_of_plain (hp.text "recipient")]
  simp only [ok_bind, bind_eq_ok]
  have hupsert : ∀ (db₁ : Database) (amount : I64) (row : StreamState), db₁.streamStates = db.streamStates →
      amount.val = ev.number "amount" → row.updatedLedger.val = ev.ledger.val →
      ((∃ db', upsertStream db₁ ev.streamId { row with withdrawn := amount } (fun old => do
          let withdrawn ← addIfNewer old { row with withdrawn := amount } old.withdrawn amount
          return { old with withdrawn := withdrawn }.seen row.updatedLedger) = .ok db') ↔
        ∀ old, db.streamStates ev.streamId = some old → old.updatedLedger.val < ev.ledger.val →
          old.withdrawn.val + ev.drawn ≤ bigintMax) := by
    intro db₁ amount row hstates hamount hseen
    have hamount' : 0 ≤ amount.val := by omega
    rw [hdrawn, ← hamount, ← hstates]
    exact exists_adding { row with withdrawn := amount } (·.withdrawn)
      (fun old d => { old with withdrawn := d }.seen row.updatedLedger) hseen hamount'
  constructor
  · rintro ⟨db', amount, hamount, db₁, hins, row, h, hdb'⟩
    have hval := storedBigint_eq_ok.mp hamount
    obtain ⟨hdb₁, -⟩ := insertWithdrawal_spec hins hkind rfl (hval.trans hdrawn.symm)
    have hstates : db₁.streamStates = db.streamStates := by rw [hdb₁]
    exact ⟨⟨⟨amount, hamount⟩, row, h⟩, (exists_insertWithdrawal hdb).mp ⟨db₁, hins⟩,
      (hupsert db₁ amount row hstates hval (streamRow_spec h).2.2).mp ⟨db', hdb'⟩⟩
  · rintro ⟨⟨⟨amount, hamount⟩, row, h⟩, hrow, hsum⟩
    have hval := storedBigint_eq_ok.mp hamount
    have hinserted : ∃ db₁, insertWithdrawal db
        ⟨ev.streamId, ev.ledger.widen, ev.txHash, ev.text "recipient", amount⟩ = .ok db₁ :=
      (exists_insertWithdrawal hdb).mpr hrow
    obtain ⟨db₁, hins⟩ := hinserted
    obtain ⟨hdb₁, -⟩ := insertWithdrawal_spec hins hkind rfl (hval.trans hdrawn.symm)
    have hstates : db₁.streamStates = db.streamStates := by rw [hdb₁]
    obtain ⟨db', hdb'⟩ := (hupsert db₁ amount row hstates hval (streamRow_spec h).2.2).mpr hsum
    exact ⟨db', amount, hamount, db₁, hins, row, h, hdb'⟩

/-! ### The router -/

theorem foldEvent_eq {kind : String} {handler : Database → RawEvent → Except Failure Database}
    (hk : ev.eventType = kind) (h : handlerOf kind = some handler) : foldEvent db ev = handler db ev := by
  unfold foldEvent
  rw [hk, h]

/-- The types whose handlers store the deposit and the rate. -/
theorem fits_of_mark (h : storedNumbers ev.eventType = ["deposit", "rate_per_second"]) :
    ev.Fits ↔ ev.number "deposit" ≤ bigintMax ∧ ev.number "rate_per_second" ≤ bigintMax := by
  rw [fits_iff h]
  simp only [List.forall_mem_cons, List.not_mem_nil, false_imp_iff, implies_true, and_true]

theorem exists_ballot (hw : ev.WellFormed) (hp : ev.Plain)
    (hkind : ev.eventType ∈ ["loan_vote", "treasury_vote", "treasury_reveal"]) :
    (∃ db', foldEvent db ev = .ok db') ↔ ev.Fits := by
  simp only [List.mem_cons, List.not_mem_nil, or_false] at hkind
  rcases hkind with hk | hk | hk
  · have hfold : foldEvent db ev = handleLoanVote db ev := foldEvent_eq hk rfl
    have hnumbers : storedNumbers ev.eventType = ["weight"] := congrArg storedNumbers hk
    rw [hfold, fits_iff hnumbers, List.forall_mem_singleton,
      ← exists_upsertVote_iff hw hp (hp.text₂ "loan_id" "loanId")]
    simp only [handleLoanVote, bind_eq_ok, pure_eq_ok]
    constructor
    · rintro ⟨_, v, hv, -⟩
      exact ⟨v, hv⟩
    · rintro ⟨v, hv⟩
      exact ⟨_, v, hv, rfl⟩
  · have hfold : foldEvent db ev = handleTreasuryVote db ev := foldEvent_eq hk rfl
    have hnumbers : storedNumbers ev.eventType = ["weight"] := congrArg storedNumbers hk
    rw [hfold, fits_iff hnumbers, List.forall_mem_singleton,
      ← exists_upsertVote_iff hw hp (hp.text₂ "proposal_id" "proposalId")]
    simp only [handleTreasuryVote, bind_eq_ok, pure_eq_ok]
    constructor
    · rintro ⟨_, v, hv, -⟩
      exact ⟨v, hv⟩
    · rintro ⟨v, hv⟩
      exact ⟨_, v, hv, rfl⟩
  · have hfold : foldEvent db ev = handleTreasuryReveal db ev := foldEvent_eq hk rfl
    have hnumbers : storedNumbers ev.eventType = [] := congrArg storedNumbers hk
    rw [hfold, fits_iff hnumbers]
    refine iff_of_true ?_ (List.forall_mem_nil _)
    unfold handleTreasuryReveal
    rw [column_of_plain (hp.text₂ "proposal_id" "proposalId"), column_of_plain (hp.text "voter"),
      column_of_plain (hp.text₂ "vote_hash" "voteHash"), column_of_plain hp.txHash]
    simp only [ok_bind, bind_eq_ok]
    cases hold : db.treasuryReveals (ev.text₂ "proposal_id" "proposalId", ev.text "voter") with
    | none => exact ⟨_, _, upsert_eq_ok.mpr ⟨_, rfl, .inl ⟨hold, rfl⟩⟩, rfl⟩
    | some old => exact ⟨_, _, upsert_eq_ok.mpr ⟨_, rfl, .inr ⟨old, hold, rfl⟩⟩, rfl⟩

theorem exists_foldEvent (hw : ev.WellFormed) (hp : ev.Plain) (hdb : db.Constrained) :
    (∃ db', foldEvent db ev = .ok db') ↔ Ready db ev := by
  have hkind := hw.handled
  unfold handledTypes at hkind
  rcases List.mem_append.mp hkind with hstream | hballot
  · simp only [streamTypes, List.mem_cons, List.not_mem_nil, or_false] at hstream
    rcases hstream with hk | hk | hk | hk | hk | hk | hk
    case inl =>
      have hfold : foldEvent db ev = handleStreamWithdrawn db ev := foldEvent_eq hk rfl
      rw [hfold, exists_withdrawn hw hp hdb hk]
    case inr.inr.inr.inr.inl =>
      have hfold : foldEvent db ev = handleStreamToppedUp db ev := foldEvent_eq hk rfl
      rw [hfold, exists_toppedUp hw hp hk]
    case inr.inr.inr.inr.inr.inr =>
      have hfold : foldEvent db ev = handleXferRec db ev := foldEvent_eq hk rfl
      rw [hfold, exists_xferRec hw hp, ready_iff_fits hp (hk.trans_ne (by decide)) (hk.trans_ne (by decide)),
        fits_of_mark (congrArg storedNumbers hk)]
    all_goals
      have hfold : ∃ mark, foldEvent db ev = markStream mark db ev := ⟨_, foldEvent_eq hk rfl⟩
      obtain ⟨mark, hfold⟩ := hfold
      rw [hfold, exists_markStream hw hp mark,
        ready_iff_fits hp (hk.trans_ne (by decide)) (hk.trans_ne (by decide)),
        fits_of_mark (congrArg storedNumbers hk)]
  · have hother : ∀ kind ∈ ["loan_vote", "treasury_vote", "treasury_reveal"],
        kind ≠ "stream_withdrawn" ∧ kind ≠ "stream_topped_up" := by decide
    obtain ⟨hdrawn, hadded⟩ := hother _ hballot
    rw [exists_ballot hw hp hballot, ready_iff_fits hp hdrawn hadded]

/-- An event is ingested exactly if the tables are ready for it. -/
theorem exists_ingestEvent (hw : ev.WellFormed) (hdb : db.Constrained) :
    (∃ db', ingestEvent db ev = .ok db') ↔ Ready db ev := by
  simp only [ingestEvent, bind_eq_ok]
  constructor
  · rintro ⟨db', db₁, hins, hfold⟩
    have hp := (exists_insertRawEvent (plain_of_handled hw.handled)).mp ⟨db₁, hins⟩
    have hready := (exists_foldEvent hw hp (constrained_of_insert hdb hins)).mp ⟨db', hfold⟩
    exact hready.of_states (states_of_insert hins).symm
  · intro h
    obtain ⟨db₁, hins⟩ := (exists_insertRawEvent (plain_of_handled hw.handled)).mpr h.plain
    have hready := h.of_states (states_of_insert hins)
    obtain ⟨db', hfold⟩ := (exists_foldEvent hw h.plain (constrained_of_insert hdb hins)).mpr hready
    exact ⟨db', db₁, hins, hfold⟩

end Drip.Indexer
