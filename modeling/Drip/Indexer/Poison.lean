import Mathlib.Algebra.Order.BigOperators.Group.List
import Drip.Indexer.Columns
import Drip.Indexer.Coverage

/-!
# Indexer — Poison

Pages that cannot be ingested.  `ingestPage` fails as a whole where one of its events does, and `pollOnce`
then fetches the same page again.  `Ingestible` says, of the tables and the page before it is ingested, when
that does not happen.

* `ready_of_ingestible`, `ingestible_after`: the first event of a page, and the rest of it.
* `exists_ingestPage`: a page of regular events, some without a handler, is ingested exactly if it is
  `Acceptable`.
* `ingestPage_iff`: a page of well-formed events is ingested exactly if it is `Ingestible`.
* `stuck_of_run`: where the first pending event cannot be ingested, nothing is ever again.
-/

namespace Drip.Indexer
open Chain Watermark

variable {db db' : Database} {ev : RawEvent} {page : List RawEvent} {s : String}
variable {m m' : Moment} {as : List Action}

/-! ### What a page adds up to -/

/-- The events of the page that the totals of the stream count. -/
def counted (db : Database) (page : List RawEvent) (s : String) : List RawEvent :=
  rising RawEvent.at ((db.streamStates s).map fun row => row.updatedLedger.val) (ofStream s page)

/-- `withdrawn` after the page, in unbounded numbers. -/
def withdrawnAfter (db : Database) (page : List RawEvent) (s : String) : Int :=
  ((db.streamStates s).elim 0 fun row => row.withdrawn.val) +
    ((counted db page s).map RawEvent.drawn).sum

/-- `deposit` after the page, in unbounded numbers. -/
def depositAfter (db : Database) (page : List RawEvent) (s : String) : Int :=
  ((db.streamStates s).elim (opening s page) fun row => row.deposit.val) +
    ((counted db page s).map RawEvent.added).sum

/-- The tables can take the page: its texts and numbers fit, no stream begins with a withdrawal, and the
totals fit. -/
structure Ingestible (db : Database) (page : List RawEvent) : Prop where
  plain : ∀ ev ∈ page, ev.Plain
  fits : ∀ ev ∈ page, ev.Fits
  rows : ∀ s, db.streamStates s = none → ∀ ev ∈ (ofStream s page).head?, ev.eventType ≠ "stream_withdrawn"
  withdrawn : ∀ s, withdrawnAfter db page s ≤ bigintMax
  deposit : ∀ s, depositAfter db page s ≤ bigintMax

/-! ### One event -/

theorem ofStream_cons (h : ev.OfStream) (hid : ev.streamId = s) :
    ofStream s (ev :: page) = ev :: ofStream s page :=
  List.filter_cons_of_pos (decide_eq_true ⟨h, hid⟩)

theorem ofStream_cons_other (h : ¬ (ev.OfStream ∧ ev.streamId = s)) :
    ofStream s (ev :: page) = ofStream s page :=
  List.filter_cons_of_neg fun hin => h (of_decide_eq_true hin)

/-- The row of the event's stream. -/
theorem row_of_ingest (h : ingestEvent db ev = .ok db') (hstream : ev.OfStream) (hid : ev.streamId = s) :
    ∃ new, db'.streamStates s = some new ∧ Merged ev (db.streamStates s) new := by
  subst hid
  simp only [ingestEvent, bind_eq_ok] at h
  obtain ⟨db₁, hins, hfold⟩ := h
  obtain ⟨new, htable, hmerged⟩ := (effect_of_fold hfold).row hstream
  rw [states_of_insert hins] at hmerged
  exact ⟨new, by rw [htable, Function.update_self], hmerged⟩

theorem other_of_ingest (h : ingestEvent db ev = .ok db') (hne : ¬ (ev.OfStream ∧ ev.streamId = s)) :
    db'.streamStates s = db.streamStates s := by
  simp only [ingestEvent, bind_eq_ok] at h
  obtain ⟨db₁, hins, hfold⟩ := h
  rw [row_of_other (effect_of_fold hfold) hne, states_of_insert hins]

theorem constrained_of_ingest (hdb : db.Constrained) (h : ingestEvent db ev = .ok db') : db'.Constrained := by
  simp only [ingestEvent, bind_eq_ok] at h
  obtain ⟨db₁, hins, hfold⟩ := h
  exact constrained_of_fold (constrained_of_insert hdb hins) hfold

/-- The first event of a page, where it is of the stream. -/
theorem after_cons (h : ingestEvent db ev = .ok db') (hstream : ev.OfStream) (hid : ev.streamId = s) :
    withdrawnAfter db (ev :: page) s = withdrawnAfter db' page s ∧
      depositAfter db (ev :: page) s = depositAfter db' page s := by
  obtain ⟨new, hnew, hmerged⟩ := row_of_ingest h hstream hid
  unfold withdrawnAfter depositAfter counted
  rw [hnew, ofStream_cons hstream hid, Option.map_some, Option.elim_some, Option.elim_some]
  cases hrow : db.streamStates s with
  | none =>
      rw [hrow] at hmerged
      cases hmerged with
      | created hseen hwithdrawn hdeposit =>
          rw [Option.map_none, Option.elim_none, Option.elim_none, rising_none, hseen, hwithdrawn, hdeposit]
          have hopening : opening s (ev :: page) = ev.opening := by
            unfold opening
            rw [ofStream_cons hstream hid]
            rfl
          rw [hopening]
          simp only [List.map_cons, List.sum_cons]
          exact ⟨by rw [zero_add]; rfl, (add_assoc _ _ _).symm⟩
  | some old =>
      rw [hrow] at hmerged
      cases hmerged with
      | merged hseen hwithdrawn hdeposit =>
          rw [Option.map_some, Option.elim_some, Option.elim_some, hseen, hwithdrawn, hdeposit]
          by_cases hlt : old.updatedLedger.val < ev.ledger.val
          · have hrising : rising RawEvent.at (some old.updatedLedger.val) (ev :: ofStream s page) = _ :=
              rising_of_lt hlt
            rw [hrising, if_pos hlt, if_pos hlt, max_eq_right hlt.le]
            simp only [List.map_cons, List.sum_cons]
            exact ⟨(add_assoc _ _ _).symm, (add_assoc _ _ _).symm⟩
          · have hrising : rising RawEvent.at (some old.updatedLedger.val) (ev :: ofStream s page) = _ :=
              rising_of_le (not_lt.mp hlt)
            rw [hrising, if_neg hlt, if_neg hlt, max_eq_left (not_lt.mp hlt), add_zero, add_zero]
            exact ⟨rfl, rfl⟩

/-- The first event of a page, where it is of another stream. -/
theorem after_cons_other (h : ingestEvent db ev = .ok db') (hne : ¬ (ev.OfStream ∧ ev.streamId = s)) :
    withdrawnAfter db (ev :: page) s = withdrawnAfter db' page s ∧
      depositAfter db (ev :: page) s = depositAfter db' page s := by
  unfold withdrawnAfter depositAfter counted opening
  rw [other_of_ingest h hne, ofStream_cons_other hne]
  exact ⟨rfl, rfl⟩

theorem after_step (h : ingestEvent db ev = .ok db') (s : String) :
    withdrawnAfter db (ev :: page) s = withdrawnAfter db' page s ∧
      depositAfter db (ev :: page) s = depositAfter db' page s := by
  by_cases hs : ev.OfStream ∧ ev.streamId = s
  · exact after_cons h hs.1 hs.2
  · exact after_cons_other h hs

/-! ### A page -/

theorem sum_nonneg_of_counted {s : String} (hw : ∀ ev ∈ page, ev.WellFormed) (f : RawEvent → Int)
    (hf : ∀ ev : RawEvent, ev.WellFormed → 0 ≤ f ev) {c : Option Int} :
    0 ≤ ((rising RawEvent.at c (ofStream s page)).map f).sum := by
  refine List.sum_nonneg fun n hn => ?_
  obtain ⟨ev, hev, rfl⟩ := List.mem_map.mp hn
  exact hf ev (hw ev (List.mem_filter.mp (mem_of_rising hev)).1)

/-- The first event of an ingestible page. -/
theorem ready_of_ingestible (hw : ∀ e ∈ ev :: page, e.WellFormed) (h : Ingestible db (ev :: page)) :
    Ready db ev := by
  have hrest : ∀ e ∈ page, e.WellFormed := fun e he => hw e (List.mem_cons_of_mem ev he)
  have hcounted : ∀ row, db.streamStates ev.streamId = some row → row.updatedLedger.val < ev.ledger.val →
      ev.OfStream → counted db (ev :: page) ev.streamId =
        ev :: rising RawEvent.at (some ev.ledger.val) (ofStream ev.streamId page) := by
    intro row hrow hlt hstream
    unfold counted
    rw [hrow, ofStream_cons hstream rfl]
    exact rising_of_lt hlt
  refine ⟨h.plain ev List.mem_cons_self, h.fits ev List.mem_cons_self, fun hk hnone => ?_, ?_, ?_⟩
  · have hstream : ev.OfStream := (ofStream_iff hk).mpr (by decide)
    refine h.rows ev.streamId hnone ev ?_ hk
    rw [ofStream_cons hstream rfl]
    rfl
  · intro row hrow hlt
    by_cases hstream : ev.OfStream
    · have hafter := h.withdrawn ev.streamId
      have hsum : 0 ≤ ((rising RawEvent.at (some ev.ledger.val) (ofStream ev.streamId page)).map
          RawEvent.drawn).sum :=
        sum_nonneg_of_counted hrest _ fun e he => amountOf_nonneg he "stream_withdrawn"
      unfold withdrawnAfter at hafter
      rw [hcounted row hrow hlt hstream, hrow, List.map_cons, List.sum_cons, Option.elim_some] at hafter
      omega
    · have hd : ev.drawn = 0 := amountOf_eq_zero fun hk => hstream ((ofStream_iff hk).mpr (by decide))
      rw [hd, add_zero]
      exact row.withdrawn.le
  · intro row hrow hlt
    by_cases hstream : ev.OfStream
    · have hafter := h.deposit ev.streamId
      have hsum : 0 ≤ ((rising RawEvent.at (some ev.ledger.val) (ofStream ev.streamId page)).map
          RawEvent.added).sum :=
        sum_nonneg_of_counted hrest _ fun e he => amountOf_nonneg he "stream_topped_up"
      unfold depositAfter at hafter
      rw [hcounted row hrow hlt hstream, hrow, List.map_cons, List.sum_cons, Option.elim_some] at hafter
      omega
    · have ha : ev.added = 0 := amountOf_eq_zero fun hk => hstream ((ofStream_iff hk).mpr (by decide))
      rw [ha, add_zero]
      exact row.deposit.le

/-- The rest of a page, once its first event is ingested. -/
theorem ingestible_after (hready : Ready db ev) (h : ingestEvent db ev = .ok db') :
    Ingestible db (ev :: page) ↔ Ingestible db' page := by
  constructor
  · intro hpage
    refine ⟨fun e he => hpage.plain e (List.mem_cons_of_mem ev he),
      fun e he => hpage.fits e (List.mem_cons_of_mem ev he), fun s hnone => ?_, fun s => ?_, fun s => ?_⟩
    · by_cases hs : ev.OfStream ∧ ev.streamId = s
      · obtain ⟨new, hnew, -⟩ := row_of_ingest h hs.1 hs.2
        cases hnew.symm.trans hnone
      · rw [other_of_ingest h hs] at hnone
        have hrows := hpage.rows s hnone
        rw [ofStream_cons_other hs] at hrows
        exact hrows
    · rw [← (after_step h s).1]
      exact hpage.withdrawn s
    · rw [← (after_step h s).2]
      exact hpage.deposit s
  · intro hpage
    refine ⟨List.forall_mem_cons.mpr ⟨hready.plain, hpage.plain⟩,
      List.forall_mem_cons.mpr ⟨hready.fits, hpage.fits⟩, fun s hnone => ?_, fun s => ?_, fun s => ?_⟩
    · by_cases hs : ev.OfStream ∧ ev.streamId = s
      · rw [ofStream_cons hs.1 hs.2]
        rintro e he hk
        obtain rfl : ev = e := Option.some.inj he
        exact hready.row hk (hs.2 ▸ hnone)
      · rw [ofStream_cons_other hs]
        exact hpage.rows s ((other_of_ingest h hs).trans hnone)
    · rw [(after_step h s).1]
      exact hpage.withdrawn s
    · rw [(after_step h s).2]
      exact hpage.deposit s

theorem ingestible_nil : Ingestible db [] where
  plain := List.forall_mem_nil _
  fits := List.forall_mem_nil _
  rows := fun _ _ => nofun
  withdrawn := fun s => by
    unfold withdrawnAfter
    cases db.streamStates s with
    | none => exact (by decide : (0 : Int) + 0 ≤ bigintMax)
    | some row => exact (add_zero row.withdrawn.val).trans_le row.withdrawn.le
  deposit := fun s => by
    unfold depositAfter
    cases db.streamStates s with
    | none => exact (by decide : (0 : Int) + 0 ≤ bigintMax)
    | some row => exact (add_zero row.deposit.val).trans_le row.deposit.le

/-- It asks the tables for the rows of the streams alone. -/
theorem Ingestible.of_states (h : Ingestible db page) (hstates : db'.streamStates = db.streamStates) :
    Ingestible db' page where
  plain := h.plain
  fits := h.fits
  rows := hstates ▸ h.rows
  withdrawn := fun s => by
    have hsum := h.withdrawn s
    unfold withdrawnAfter counted at hsum ⊢
    rw [hstates]
    exact hsum
  deposit := fun s => by
    have hsum := h.deposit s
    unfold depositAfter counted at hsum ⊢
    rw [hstates]
    exact hsum

/-! ### Events without a handler -/

/-- The events of the page that have a handler. -/
def handledOf (page : List RawEvent) : List RawEvent := page.filter fun ev => ev.eventType ∈ handledTypes

/-- The event is well formed where it has a handler, and where it has none, its type is no inherited
name. -/
structure RawEvent.Regular (ev : RawEvent) : Prop where
  handled : ev.eventType ∈ handledTypes → ev.WellFormed
  plainType : '\x00' ∉ ev.eventType.toList
  proper : ev.eventType ∉ inheritedNames

theorem RawEvent.WellFormed.regular (hw : ev.WellFormed) : ev.Regular where
  handled := fun _ => hw
  plainType := plain_of_handled hw.handled
  proper := by
    have hall : ∀ kind ∈ handledTypes, kind ∉ inheritedNames := by decide +kernel
    exact hall _ hw.handled

/-- The tables can take the page: no text of it has a NUL, and they can take its events with a handler. -/
structure Acceptable (db : Database) (page : List RawEvent) : Prop where
  plain : ∀ ev ∈ page, ev.Plain
  handled : Ingestible db (handledOf page)

theorem handledOf_wellFormed (hw : ∀ ev ∈ page, ev.Regular) : ∀ ev ∈ handledOf page, ev.WellFormed := by
  intro ev hev
  obtain ⟨hmem, hhandled⟩ := List.mem_filter.mp hev
  exact (hw ev hmem).handled (of_decide_eq_true hhandled)

theorem foldEvent_unhandled (hr : ev.Regular) (h : ev.eventType ∉ handledTypes) :
    foldEvent db ev = .ok db := by
  have hnone : handlerOf ev.eventType = none := by
    unfold handlerOf
    split
    case h_11 => rfl
    all_goals
      rename_i hk
      exact absurd hk fun hk => h (hk ▸ by decide)
  unfold foldEvent
  rw [hnone]
  exact if_neg hr.proper

/-- An event without a handler is only recorded. -/
theorem exists_ingestEvent_unhandled (hr : ev.Regular) (h : ev.eventType ∉ handledTypes) :
    (∃ db', ingestEvent db ev = .ok db') ↔ ev.Plain := by
  have hinsert : (∃ db', insertRawEvent db ev = .ok db') ↔ ev.Plain := exists_insertRawEvent hr.plainType
  rw [← hinsert]
  simp only [ingestEvent, bind_eq_ok, foldEvent_unhandled hr h]
  constructor
  · rintro ⟨_, db₁, hins, -⟩
    exact ⟨db₁, hins⟩
  · rintro ⟨db₁, hins⟩
    exact ⟨db₁, db₁, hins, rfl⟩

theorem states_of_ingest_unhandled (hr : ev.Regular) (hnone : ev.eventType ∉ handledTypes)
    (h : ingestEvent db ev = .ok db') : db'.streamStates = db.streamStates := by
  simp only [ingestEvent, bind_eq_ok, foldEvent_unhandled hr hnone] at h
  obtain ⟨db₁, hins, h⟩ := h
  obtain rfl := Except.ok.inj h
  exact states_of_insert hins

/-- The first event of a page, where it has no handler. -/
theorem acceptable_cons_unhandled (hr : ev.Regular) (hnone : ev.eventType ∉ handledTypes) (hp : ev.Plain)
    (h : ingestEvent db ev = .ok db') : Acceptable db (ev :: page) ↔ Acceptable db' page := by
  have hstates := states_of_ingest_unhandled hr hnone h
  have hfilter : handledOf (ev :: page) = handledOf page :=
    List.filter_cons_of_neg fun hin => hnone (of_decide_eq_true hin)
  constructor
  · rintro ⟨hplain, hhandled⟩
    rw [hfilter] at hhandled
    exact ⟨fun e he => hplain e (List.mem_cons_of_mem ev he), hhandled.of_states hstates⟩
  · rintro ⟨hplain, hhandled⟩
    refine ⟨List.forall_mem_cons.mpr ⟨hp, hplain⟩, ?_⟩
    rw [hfilter]
    exact hhandled.of_states hstates.symm

/-- The first event of a page, where it has one. -/
theorem acceptable_cons_handled (hready : Ready db ev) (hhandler : ev.eventType ∈ handledTypes)
    (h : ingestEvent db ev = .ok db') : Acceptable db (ev :: page) ↔ Acceptable db' page := by
  have hfilter : handledOf (ev :: page) = ev :: handledOf page :=
    List.filter_cons_of_pos (decide_eq_true hhandler)
  constructor
  · rintro ⟨hplain, hhandled⟩
    rw [hfilter] at hhandled
    exact ⟨fun e he => hplain e (List.mem_cons_of_mem ev he), (ingestible_after hready h).mp hhandled⟩
  · rintro ⟨hplain, hhandled⟩
    refine ⟨List.forall_mem_cons.mpr ⟨hready.plain, hplain⟩, ?_⟩
    rw [hfilter]
    exact (ingestible_after hready h).mpr hhandled

/-- What the first event of an acceptable page is accepted for. -/
theorem ingest_of_acceptable (hdb : db.Constrained) (hw : ∀ e ∈ ev :: page, e.Regular)
    (h : Acceptable db (ev :: page)) : ∃ db', ingestEvent db ev = .ok db' := by
  have hr := hw ev List.mem_cons_self
  by_cases hhandler : ev.eventType ∈ handledTypes
  · refine (exists_ingestEvent (hr.handled hhandler) hdb).mpr ?_
    have hfilter : handledOf (ev :: page) = ev :: handledOf page :=
      List.filter_cons_of_pos (decide_eq_true hhandler)
    have hwell := handledOf_wellFormed hw
    rw [hfilter] at hwell
    exact ready_of_ingestible hwell (hfilter ▸ h.handled)
  · exact (exists_ingestEvent_unhandled hr hhandler).mpr (h.plain ev List.mem_cons_self)

theorem acceptable_cons (hdb : db.Constrained) (hr : ev.Regular) (h : ingestEvent db ev = .ok db') :
    Acceptable db (ev :: page) ↔ Acceptable db' page := by
  by_cases hhandler : ev.eventType ∈ handledTypes
  · exact acceptable_cons_handled ((exists_ingestEvent (hr.handled hhandler) hdb).mp ⟨db', h⟩) hhandler h
  · exact acceptable_cons_unhandled hr hhandler ((exists_ingestEvent_unhandled hr hhandler).mp ⟨db', h⟩) h

/-- By induction on the page. -/
theorem exists_ingestPage (hdb : db.Constrained) (hw : ∀ ev ∈ page, ev.Regular) :
    (∃ db', ingestPage db page = .ok db') ↔ Acceptable db page := by
  induction page generalizing db with
  | nil => exact iff_of_true ⟨db, rfl⟩ ⟨List.forall_mem_nil _, ingestible_nil⟩
  | cons ev page ih =>
      have hrest : ∀ e ∈ page, e.Regular := fun e he => hw e (List.mem_cons_of_mem ev he)
      unfold ingestPage at ih ⊢
      simp only [List.foldlM_cons, bind_eq_ok]
      constructor
      · rintro ⟨db', db₁, hev, hpage⟩
        exact (acceptable_cons hdb (hw ev List.mem_cons_self) hev).mpr
          ((ih (constrained_of_ingest hdb hev) hrest).mp ⟨db', hpage⟩)
      · intro h
        obtain ⟨db₁, hev⟩ := ingest_of_acceptable hdb hw h
        have hafter := (acceptable_cons hdb (hw ev List.mem_cons_self) hev).mp h
        obtain ⟨db', hpage⟩ := (ih (constrained_of_ingest hdb hev) hrest).mpr hafter
        exact ⟨db', db₁, hev, hpage⟩

/-- **A page is ingested where the tables can take it.**  For tables that keep to the schema and a page of
well-formed events, `ingestPage` succeeds exactly if no text has a NUL, every number fits its column, no
stream without a row begins with a withdrawal, and the totals of every stream fit. -/
theorem ingestPage_iff (hdb : db.Constrained) (hw : ∀ ev ∈ page, ev.WellFormed) :
    (∃ db', ingestPage db page = .ok db') ↔ Ingestible db page := by
  have hall : handledOf page = page :=
    List.filter_eq_self.mpr fun ev hev => decide_eq_true (hw ev hev).handled
  rw [exists_ingestPage hdb fun ev hev => (hw ev hev).regular]
  constructor
  · intro h
    rw [← hall]
    exact h.handled
  · intro h
    exact ⟨h.plain, hall.symm ▸ h⟩

/-! ### The same page again -/

/-- The worker waits for an event that cannot be ingested into its tables. -/
structure Stuck (db : Database) (folded : List RawEvent) (ev : RawEvent) (m : Moment) : Prop where
  sound : Sound m
  db : m.db = db
  folded : m.folded = folded
  first : ∃ rest, pending RawEvent.at m.cursor m.log = ev :: rest

theorem stuck_of_step {folded : List RawEvent} {a : Action} (hbad : ∀ db', ingestEvent db ev ≠ .ok db')
    (h : Stuck db folded ev m) (hstep : Step m a m') : Stuck db folded ev m' := by
  have hsound := sound_of_step h.sound hstep
  obtain ⟨rest, hfirst⟩ := h.first
  cases hstep with
  | close hle hordered hnew =>
      rename_i closed events
      refine ⟨hsound, h.db, h.folded, rest ++ pending RawEvent.at m.cursor events, ?_⟩
      show pending RawEvent.at m.cursor (m.log ++ events) = _
      rw [pending_append, hfirst]
      rfl
  | commit hphase hingest =>
      -- the page begins with the event
      obtain ⟨hne, hstart⟩ := h.sound.fetched hphase
      rw [hfirst] at hstart
      obtain ⟨e, events, rfl⟩ := List.exists_cons_of_ne_nil hne
      obtain ⟨rfl, -⟩ := List.cons_prefix_cons.mp hstart
      unfold ingestPage at hingest
      rw [List.foldlM_cons, bind_eq_ok, h.db] at hingest
      obtain ⟨db₁, hev, -⟩ := hingest
      exact absurd hev (hbad db₁)
  | poll | fetch | fetchFails | rollback | crash => exact ⟨hsound, h.db, h.folded, rest, hfirst⟩

/-- Where the first pending event cannot be ingested, nothing is ever again. -/
theorem stuck_of_run (hs : Sound m) {rest : List RawEvent}
    (hfirst : pending RawEvent.at m.cursor m.log = ev :: rest) (hbad : ∀ db', ingestEvent m.db ev ≠ .ok db')
    (hrun : Run Step m as m') : m'.db = m.db ∧ m'.folded = m.folded := by
  have hstuck : Stuck m.db m.folded ev m' :=
    hrun.invariant (fun _ hstep h => stuck_of_step hbad h hstep) ⟨hs, rfl, rfl, rest, hfirst⟩
  exact ⟨hstuck.db, hstuck.folded⟩

/-! ### A withdrawal first -/

namespace Sample

/-- The first withdrawal from stream 1. -/
def withdrawal : RawEvent where
  ledger := .lit 100
  txHash := "abc123"
  eventType := "stream_withdrawn"
  contractId := "CA3D..."
  topics := .object "stream_withdrawn,G..."
  data := [("stream_id", .str "1"), ("recipient", .str "GRECIPIENT"), ("amount", .str "1000"),
    ("sender", .str "GSENDER"), ("token", .str "GTOKEN"), ("deposit", .str "100000"),
    ("rate_per_second", .str "10")]

theorem topUp_wellFormed : (topUp (.lit 7) "a" "100").WellFormed where
  handled := by decide
  amounts := by
    intro name hname
    simp only [amountFields, List.mem_cons, List.not_mem_nil, or_false] at hname
    rcases hname with rfl | rfl | rfl | rfl
    · exact ⟨100, by decide +kernel⟩
    all_goals exact ⟨0, by decide +kernel⟩

theorem withdrawal_wellFormed : withdrawal.WellFormed where
  handled := by decide
  amounts := by
    intro name hname
    simp only [amountFields, List.mem_cons, List.not_mem_nil, or_false] at hname
    rcases hname with rfl | rfl | rfl | rfl
    · exact ⟨1000, by decide +kernel⟩
    · exact ⟨100000, by decide +kernel⟩
    · exact ⟨10, by decide +kernel⟩
    · exact ⟨0, by decide +kernel⟩

/-- The withdrawal has happened, and nothing has been read. -/
def waiting : Moment := { Moment.fresh with log := [withdrawal], closed := 100 }

theorem sound_waiting : Sound waiting where
  ordered := .cons (List.forall_mem_nil _) .nil
  closed := by decide
  cursor_le := by decide
  fetching := nofun
  fetched := nofun

theorem ingestEvent_withdrawal : ingestEvent .fresh withdrawal = .error .foreignKey := by rfl

/-- A withdrawal from a stream that a top-up has given its row. -/
def funded : List RawEvent := [topUp (.lit 7) "a" "100", withdrawal]

end Sample

/-- A page after which the withdrawal finds the row of its stream. -/
theorem ingestPage_iff_topped_up :
    Ingestible .fresh Sample.funded ∧ ∃ db', ingestPage .fresh Sample.funded = .ok db' := by
  have hw : ∀ ev ∈ Sample.funded, ev.WellFormed :=
    List.forall_mem_cons.mpr ⟨Sample.topUp_wellFormed,
      List.forall_mem_singleton.mpr Sample.withdrawal_wellFormed⟩
  have hok := exists_of_isOk (x := ingestPage .fresh Sample.funded) (by decide +kernel)
  exact ⟨(ingestPage_iff constrained_fresh hw).mp hok, hok⟩

/-- The first withdrawal from a stream that has no row is refused, and the worker never gets past it. -/
theorem withdrawal_refused :
    Database.Constrained .fresh ∧ (∀ ev ∈ [Sample.withdrawal], ev.WellFormed) ∧
      ingestPage .fresh [Sample.withdrawal] = .error .foreignKey ∧
      ∀ as m, Run Step Sample.waiting as m → m.folded = [] := by
  refine ⟨constrained_fresh, List.forall_mem_singleton.mpr Sample.withdrawal_wellFormed, ?_,
    fun as m hrun => ?_⟩
  · unfold ingestPage
    rw [List.foldlM_cons]
    exact bind_of_error Sample.ingestEvent_withdrawal
  · have hbad : ∀ db', ingestEvent .fresh Sample.withdrawal ≠ .ok db' := by
      intro db' h
      cases Sample.ingestEvent_withdrawal.symm.trans h
    have hfirst : pending RawEvent.at Sample.waiting.cursor Sample.waiting.log = [Sample.withdrawal] := by
      decide
    exact (stuck_of_run Sample.sound_waiting hfirst hbad hrun).2

end Drip.Indexer
