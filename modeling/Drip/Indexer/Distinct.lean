import Drip.Support.Keyed
import Drip.Stream.Numbering
import Drip.Indexer.Poison
import Drip.Indexer.Decoding
import Drip.Indexer.Scaffold.Columns

/-!
# Indexer — Distinct

Whether every event of a stream is stored.  `raw_events` keeps the first event under a key and
`stream_events` the last one, and neither key has the sequence number: two events that share everything but
their number are in the `SameSlot`.

* `rawEvents_of_ingest`, `streamEvents_of_fold`: what the two indexers store of a list of events.
* `regular_raws`: the events of a stream are regular, so that `exists_ingestPage` says when a page of them is
  ingested; of the other indexer, `Scaffold.exists_fold` does.
* `stored_iff`: every event is stored exactly where the tables can take the list and no two of its events are
  in the same slot.
* `sequences_nodup`: the sequence numbers of a stream are distinct.
-/

namespace Drip.Indexer
open Chain

variable {db db' : Database} {page : List RawEvent} {d : Decoder} {x y : Emission} {xs : List Emission}

/-! ### Stored events -/

/-- `UNIQUE (ledger, tx_hash, event_type, contract_id)` holds. -/
def Database.Keyed (db : Database) : Prop := (db.rawEvents.map RawEvent.key).Nodup

theorem rawEvents_of_insert {ev : RawEvent} (h : insertRawEvent db ev = .ok db') :
    db'.rawEvents = insertNew RawEvent.key db.rawEvents ev := by
  simp only [insertRawEvent, bind_eq_ok] at h
  obtain ⟨_, -, _, -, _, -, _, -, _, -, h⟩ := h
  unfold insertNew
  split at h
  · rename_i hknown
    cases h
    exact (if_pos hknown).symm
  · rename_i hnew
    cases h
    exact (if_neg hnew).symm

theorem rawEvents_of_ingest (h : ingestPage db page = .ok db') :
    db'.rawEvents = inserted RawEvent.key db.rawEvents page := by
  induction page generalizing db with
  | nil =>
      cases h
      rfl
  | cons ev page ih =>
      simp only [ingestPage, List.foldlM_cons, bind_eq_ok, ingestEvent] at h
      obtain ⟨db₁, ⟨db₂, hinsert, hfold⟩, h⟩ := h
      have hrows : db₁.rawEvents = insertNew RawEvent.key db.rawEvents ev :=
        (effect_of_fold hfold).rawEvents.trans (rawEvents_of_insert hinsert)
      rw [ih h, hrows]
      rfl

/-- What `applyEvent` writes of the event to `stream_events`. -/
def Decoder.entry (d : Decoder) (x : Emission) : Option (Scaffold.EventKey × Scaffold.EventRow) :=
  (Scaffold.lifecycle (symbol x.published.event)).map fun l =>
    ((x.ledger.widen, x.txHash, l.1, d.text x.contract),
      { amount := (d.decoded x).amountIn l.2, payload := d.fields x.published })

theorem streamEvents_of_apply {t t' : Scaffold.Tables} (h : Scaffold.applyEvent t (d.decoded x) = .ok t') :
    t'.streamEvents = writes t.streamEvents (d.entry x).toList := by
  unfold Decoder.entry
  cases hl : Scaffold.lifecycle (symbol x.published.event) with
  | none => exact Scaffold.streamEvents_of_other hl h
  | some l =>
      obtain ⟨name, field⟩ := l
      rw [Scaffold.applyEvent_of_lifecycle hl] at h
      obtain ⟨k, hk, hwritten⟩ := Scaffold.record_of_ok h
      obtain ⟨hledger, hrest⟩ := Scaffold.eventKey_eq_ok hk
      rw [d.streamId_decoded] at hrest
      have hkey : k = (x.ledger.widen, x.txHash, name, d.text x.contract) :=
        Prod.ext (Ranged.ext hledger) hrest
      obtain rfl := Except.ok.inj (h.symm.trans (hwritten t))
      rw [hkey]
      rfl

theorem streamEvents_of_fold {t t' : Scaffold.Tables}
    (h : (xs.map d.decoded).foldlM Scaffold.applyEvent t = .ok t') :
    t'.streamEvents = writes t.streamEvents (xs.filterMap d.entry) := by
  induction xs generalizing t with
  | nil =>
      cases h
      rfl
  | cons x xs ih =>
      rw [List.map_cons, List.foldlM_cons, bind_eq_ok] at h
      obtain ⟨t₁, happly, h⟩ := h
      rw [ih h, streamEvents_of_apply happly, ← writes_append, List.filterMap_cons]
      cases d.entry x with
      | none => rfl
      | some e => rfl

/-! ### Slots -/

/-- The two events are of one type, from one stream, in one transaction. -/
structure SameSlot (x y : Emission) : Prop where
  ledger : x.ledger = y.ledger
  txHash : x.txHash = y.txHash
  contract : x.contract = y.contract
  symbol : symbol x.published.event = symbol y.published.event

instance : Decidable (SameSlot x y) :=
  decidable_of_iff (x.ledger = y.ledger ∧ x.txHash = y.txHash ∧ x.contract = y.contract ∧
      symbol x.published.event = symbol y.published.event)
    ⟨fun ⟨hledger, htx, hcontract, hsymbol⟩ => ⟨hledger, htx, hcontract, hsymbol⟩,
      fun h => ⟨h.ledger, h.txHash, h.contract, h.symbol⟩⟩

theorem key_eq_iff : (d.raw x).key = (d.raw y).key ↔ SameSlot x y := by
  constructor
  · intro h
    simp only [RawEvent.key, Decoder.raw, Prod.mk.injEq] at h
    obtain ⟨hledger, htx, htype, hcontract⟩ := h
    exact ⟨hledger, htx, d.text_injective hcontract, eventType_injective htype⟩
  · rintro ⟨hledger, htx, hcontract, hsymbol⟩
    simp only [RawEvent.key, Decoder.raw, eventType]
    rw [hledger, htx, hcontract, hsymbol]

/-- The event is one that `stream_events` has a row for. -/
def Emission.Lifecycle (x : Emission) : Prop := (Scaffold.lifecycle (symbol x.published.event)).isSome = true

instance : DecidablePred Emission.Lifecycle := fun _ => inferInstanceAs (Decidable (_ = true))

theorem entry_eq_some {e : Scaffold.EventKey × Scaffold.EventRow} (h : d.entry x = some e) :
    ∃ name field, Scaffold.lifecycle (symbol x.published.event) = some (name, field) ∧
      e = ((x.ledger.widen, x.txHash, name, d.text x.contract),
        { amount := (d.decoded x).amountIn field, payload := d.fields x.published }) := by
  obtain ⟨⟨name, field⟩, hl, rfl⟩ := Option.map_eq_some_iff.mp h
  exact ⟨name, field, hl, rfl⟩

theorem entry_key_iff {e e' : Scaffold.EventKey × Scaffold.EventRow} (hx : d.entry x = some e)
    (hy : d.entry y = some e') : e.1 = e'.1 ↔ SameSlot x y := by
  obtain ⟨name, field, hl, rfl⟩ := entry_eq_some hx
  obtain ⟨name', field', hl', rfl⟩ := entry_eq_some hy
  constructor
  · intro h
    simp only [Prod.mk.injEq] at h
    obtain ⟨hledger, htx, rfl, hcontract⟩ := h
    have hval : x.ledger.val = y.ledger.val := congrArg (fun l : I64 => l.val) hledger
    exact ⟨Ranged.ext hval, htx, d.text_injective hcontract, canonical_injective hl hl'⟩
  · rintro ⟨hledger, htx, hcontract, hsymbol⟩
    rw [hsymbol, hl'] at hl
    obtain ⟨rfl, rfl⟩ := Prod.mk.inj (Option.some.inj hl)
    rw [hledger, htx, hcontract]

/-! ### Numbered events -/

/-- The events of each contract have distinct sequence numbers. -/
def Numbered (xs : List Emission) : Prop := (xs.map fun x => (x.contract, x.published.sequence)).Nodup

/-- No two of the events are in the same slot. -/
def Apart (xs : List Emission) : Prop := ∀ x ∈ xs, ∀ y ∈ xs, SameSlot x y → x = y

instance : Decidable (Apart xs) := inferInstanceAs (Decidable (∀ x ∈ xs, ∀ y ∈ xs, SameSlot x y → x = y))

theorem eq_of_numbered (h : Numbered xs) (hx : x ∈ xs) (hy : y ∈ xs) (hcontract : x.contract = y.contract)
    (hsequence : x.published.sequence = y.published.sequence) : x = y :=
  List.inj_on_of_nodup_map h hx hy (Prod.ext hcontract hsequence)

theorem rawEvents_iff (hnumbered : Numbered xs) (hkeyed : db.Keyed)
    (h : ingestPage db (xs.map d.raw) = .ok db') :
    (∀ x ∈ xs, db'.rawEvents.count (d.raw x) = 1) ↔
      Apart xs ∧ ∀ x ∈ xs, ∀ r ∈ db.rawEvents, r.key = (d.raw x).key → r = d.raw x := by
  have hnodup : db'.rawEvents.Nodup := by
    rw [rawEvents_of_ingest h]
    exact List.Nodup.of_map _ (inserted_keyed hkeyed)
  have hcount : (∀ x ∈ xs, db'.rawEvents.count (d.raw x) = 1) ↔
      ∀ ev ∈ xs.map d.raw, ev ∈ inserted RawEvent.key db.rawEvents (xs.map d.raw) := by
    rw [← rawEvents_of_ingest h]
    constructor
    · intro hone ev hev
      obtain ⟨x, hx, rfl⟩ := List.mem_map.mp hev
      exact List.count_pos_iff.mp (by rw [hone x hx]; exact Nat.one_pos)
    · exact fun hall x hx => List.count_eq_one_of_mem hnodup (hall _ (List.mem_map_of_mem hx))
  rw [hcount, inserted_iff hkeyed]
  constructor
  · intro hall
    have hfirst := fun x hx => hall (d.raw x) (List.mem_map_of_mem hx)
    refine ⟨fun x hx y hy hslot => ?_, fun x hx r hr => hfirst x hx r (List.mem_append_left _ hr)⟩
    have heq := hfirst y hy (d.raw x) (List.mem_append_right _ (List.mem_map_of_mem hx)) (key_eq_iff.mpr hslot)
    exact eq_of_numbered hnumbered hx hy hslot.contract
      (d.sequence_of_topics (congrArg RawEvent.topics heq))
  · rintro ⟨hapart, hstored⟩ ev hev r hr hk
    obtain ⟨x, hx, rfl⟩ := List.mem_map.mp hev
    rcases List.mem_append.mp hr with hr | hr
    · exact hstored x hx r hr hk
    · obtain ⟨y, hy, rfl⟩ := List.mem_map.mp hr
      rw [hapart y hy x hx (key_eq_iff.mp hk)]

theorem streamEvents_iff {t t' : Scaffold.Tables} (hnumbered : Numbered xs)
    (h : (xs.map d.decoded).foldlM Scaffold.applyEvent t = .ok t') :
    (∀ x ∈ xs, ∀ e, d.entry x = some e → t'.streamEvents e.1 = some e.2) ↔
      Apart (xs.filter Emission.Lifecycle) := by
  have hmem {e} : e ∈ xs.filterMap d.entry ↔ ∃ x ∈ xs, d.entry x = some e := List.mem_filterMap
  have hall : (∀ x ∈ xs, ∀ e, d.entry x = some e → t'.streamEvents e.1 = some e.2) ↔
      ∀ e ∈ xs.filterMap d.entry, writes t.streamEvents (xs.filterMap d.entry) e.1 = some e.2 := by
    rw [← streamEvents_of_fold h]
    constructor
    · intro hrow e he
      obtain ⟨x, hx, hxe⟩ := hmem.mp he
      exact hrow x hx e hxe
    · exact fun hrow x hx e hxe => hrow e (hmem.mpr ⟨x, hx, hxe⟩)
  rw [hall, writes_iff]
  constructor
  · intro hsame x hx y hy hslot
    obtain ⟨hx, hlx⟩ := List.mem_filter.mp hx
    obtain ⟨hy, hly⟩ := List.mem_filter.mp hy
    have hlx : x.Lifecycle := of_decide_eq_true hlx
    obtain ⟨e, hxe⟩ : ∃ e, d.entry x = some e :=
      Option.isSome_iff_exists.mp (by rw [Decoder.entry, Option.isSome_map]; exact hlx)
    obtain ⟨e', hye⟩ : ∃ e', d.entry y = some e' :=
      Option.isSome_iff_exists.mp (by
        rw [Decoder.entry, Option.isSome_map]
        exact of_decide_eq_true hly)
    have hrows := hsame e (hmem.mpr ⟨x, hx, hxe⟩) e' (hmem.mpr ⟨y, hy, hye⟩)
      ((entry_key_iff hxe hye).mpr hslot)
    obtain ⟨_, _, -, rfl⟩ := entry_eq_some hxe
    obtain ⟨_, _, -, rfl⟩ := entry_eq_some hye
    exact eq_of_numbered hnumbered hx hy hslot.contract
      (d.sequence_of_fields hlx hslot.symbol (congrArg Scaffold.EventRow.payload hrows))
  · intro hapart e he e' he' hk
    obtain ⟨x, hx, hxe⟩ := hmem.mp he
    obtain ⟨y, hy, hye⟩ := hmem.mp he'
    have hlife {z e} (hz : z ∈ xs) (hze : d.entry z = some e) : z ∈ xs.filter Emission.Lifecycle := by
      obtain ⟨_, _, hl, -⟩ := entry_eq_some hze
      refine List.mem_filter.mpr ⟨hz, decide_eq_true ?_⟩
      rw [Emission.Lifecycle, hl]
      rfl
    have hxy := hapart x (hlife hx hxe) y (hlife hy hye) ((entry_key_iff hxe hye).mp hk)
    rw [hxy, hye] at hxe
    rw [Option.some.inj hxe]

/-! ### Regular events -/

/-- The decoder writes the amounts of an event as decimal texts, as `types.ts` says. -/
def Decoder.Decimal (d : Decoder) : Prop :=
  ∀ x : Emission, (∀ a ∈ x.published.event.amounts, 0 ≤ a.val) →
    ∀ name ∈ amountFields, ∃ n : Nat, (d.raw x).text name (.num 0) = toString n

theorem lookup_documented (text : Address → String) (n : U64) (e : Stream.Event) {name : String}
    (hname : name ∈ amountFields) : (documented text ⟨n, e⟩).lookup name = none ∨
      ∃ a ∈ e.amounts, (documented text ⟨n, e⟩).lookup name = some (amountText a.val) := by
  simp only [amountFields, List.mem_cons, List.not_mem_nil, or_false] at hname
  cases e <;> rcases hname with rfl | rfl | rfl | rfl
  all_goals first
    | exact .inl rfl
    | exact .inr ⟨_, List.mem_cons_self, rfl⟩

theorem decimal_ofText (text : Address → String) (h : Function.Injective text) :
    (Decoder.ofText text h).Decimal := by
  intro x hamounts name hname
  have htext : ((Decoder.ofText text h).raw x).text name (.num 0) =
      Value.text (.or (((documented text x.published).lookup name).getD .null) (.num 0)) := rfl
  rw [htext]
  rcases lookup_documented text x.published.sequence x.published.event hname with hnone | ⟨a, ha, hsome⟩
  · rw [hnone]
    exact ⟨0, rfl⟩
  · rw [hsome]
    obtain ⟨k, hk⟩ := Int.eq_ofNat_of_zero_le (hamounts a ha)
    exact ⟨k, congrArg (fun n : Int => (amountText n).text) hk⟩

theorem regular_raw (hd : d.Decimal) (hx : ∀ a ∈ x.published.event.amounts, 0 ≤ a.val) :
    (d.raw x).Regular where
  handled := fun h => ⟨h, hd x hx⟩
  plainType := by
    have hall : ∀ s ∈ symbols, '\x00' ∉ (readmeName s).toList := by decide +kernel
    exact hall _ (symbol_mem x.published.event)
  proper := by
    have hall : ∀ s ∈ symbols, readmeName s ∉ inheritedNames := by decide +kernel
    exact hall _ (symbol_mem x.published.event)

theorem regular_raws (hd : d.Decimal) (hnatural : Stream.Natural (xs.map Emission.published)) :
    ∀ ev ∈ xs.map d.raw, ev.Regular := by
  intro ev hev
  obtain ⟨x, hx, rfl⟩ := List.mem_map.mp hev
  exact regular_raw hd (hnatural _ (List.mem_map_of_mem hx))

/-- A stream has no votes. -/
theorem decoded_not_ballots : ∀ ev ∈ xs.map d.decoded, ev.type ∉ Scaffold.ballots := by
  intro ev hev
  obtain ⟨x, -, rfl⟩ := List.mem_map.mp hev
  have hall : ∀ s ∈ symbols, s ∉ Scaffold.ballots := by decide +kernel
  exact hall _ (symbol_mem x.published.event)

/-- **Where every event is stored.**  Of events with distinct numbers and no negative amount, the page is
ingested and each has its one row of `raw_events` exactly where the tables can take the page, no two events
are in the same slot, and no earlier row is under the key of one; and the list is folded and each lifecycle
event has its row of `stream_events` exactly where each event is storable and no two of the lifecycle are in
the same slot. -/
theorem stored_iff (hd : d.Decimal) (hnumbered : Numbered xs)
    (hnatural : Stream.Natural (xs.map Emission.published)) :
    (∀ db : Database, db.Constrained →
      ((∃ db', ingestPage db (xs.map d.raw) = .ok db' ∧ ∀ x ∈ xs, db'.rawEvents.count (d.raw x) = 1) ↔
        Acceptable db (xs.map d.raw) ∧ Apart xs ∧
          ∀ x ∈ xs, ∀ r ∈ db.rawEvents, r.key = (d.raw x).key → r = d.raw x)) ∧
    (∀ t : Scaffold.Tables,
      ((∃ t', (xs.map d.decoded).foldlM Scaffold.applyEvent t = .ok t' ∧
          ∀ x ∈ xs, ∀ e, d.entry x = some e → t'.streamEvents e.1 = some e.2) ↔
        (∀ x ∈ xs, (d.decoded x).Storable) ∧ Apart (xs.filter Emission.Lifecycle))) := by
  refine ⟨fun db hdb => ?_, fun t => ?_⟩
  · rw [← exists_ingestPage hdb (regular_raws hd hnatural)]
    constructor
    · rintro ⟨db', hingest, hrows⟩
      exact ⟨⟨db', hingest⟩, (rawEvents_iff hnumbered hdb.rawKeys hingest).mp hrows⟩
    · rintro ⟨⟨db', hingest⟩, hapart⟩
      exact ⟨db', hingest, (rawEvents_iff hnumbered hdb.rawKeys hingest).mpr hapart⟩
  · have hfolds : (∃ t', (xs.map d.decoded).foldlM Scaffold.applyEvent t = .ok t') ↔
        ∀ ev ∈ xs.map d.decoded, ev.Storable := Scaffold.exists_fold decoded_not_ballots
    rw [← List.forall_mem_map, ← hfolds]
    constructor
    · rintro ⟨t', hfold, hrows⟩
      exact ⟨⟨t', hfold⟩, (streamEvents_iff hnumbered hfold).mp hrows⟩
    · rintro ⟨⟨t', hfold⟩, hapart⟩
      exact ⟨t', hfold, (streamEvents_iff hnumbered hfold).mpr hapart⟩

/-! ### The events of a stream -/

theorem sequences_nodup {here : Address} {m : Stream.Moment} (h : Stream.Reachable here m) :
    (m.state.events.map Stream.Published.sequence).Nodup := by
  obtain ⟨args, m₀, as, hborn, hrun⟩ := h
  obtain ⟨info, -, -, hgapless⟩ := Stream.gapless_of_run hborn hrun
  rw [List.Nodup, List.pairwise_map, List.pairwise_iff_getElem]
  intro i j hi hj hlt heq
  have hval := congrArg Ranged.val heq
  rw [hgapless i hi, hgapless j hj] at hval
  omega

/-- The events of a stream have distinct numbers, wherever the chain recorded them. -/
theorem numbered_of_stream {here : Address} {m : Stream.Moment} (h : Stream.Reachable here m)
    (hxs : xs.map Emission.published = m.state.events) : Numbered xs := by
  refine List.Nodup.of_map Prod.snd ?_
  have hmap : (xs.map fun x => (x.contract, x.published.sequence)).map Prod.snd =
      (xs.map Emission.published).map Stream.Published.sequence := by
    rw [List.map_map, List.map_map]
    rfl
  rw [hmap, hxs]
  exact sequences_nodup h

theorem natural_of_stream {here : Address} {m : Stream.Moment} (h : Stream.Reachable here m)
    (hxs : xs.map Emission.published = m.state.events) : Stream.Natural (xs.map Emission.published) := by
  obtain ⟨args, m₀, as, hborn, hrun⟩ := h
  rw [hxs]
  exact Stream.natural_of_run hborn hrun

namespace Sample

/-- A stream that is topped up, and drawn from twice at one time. -/
def drawnTwice : Stream.Moment :=
  Stream.Sample.reached Stream.Sample.args
    [(.lit 200, .topUp Stream.Sample.sender (.lit 500)), (.lit 300, .withdraw (.lit 100)),
      (.lit 300, .withdraw (.lit 200))]

/-- A stream that is drawn from, and never topped up. -/
def drawnOnce : Stream.Moment := Stream.Sample.reached Stream.Sample.args [(.lit 300, .withdraw (.lit 100))]

/-- The events of a stream, each in its ledger and transaction. -/
def emitted (m : Stream.Moment) (places : List (U32 × String)) : List Emission :=
  (places.zip m.state.events).map fun x => ⟨Stream.Sample.address, x.1.1, x.1.2, x.2⟩

theorem reachable_drawnTwice : Stream.Reachable Stream.Sample.address drawnTwice :=
  Stream.Sample.reachable_reached (by decide +kernel) (by decide +kernel)

theorem reachable_drawnOnce : Stream.Reachable Stream.Sample.address drawnOnce :=
  Stream.Sample.reachable_reached (by decide +kernel) (by decide +kernel)

end Sample

/-- The two withdrawals are made in two transactions. -/
theorem stored_iff_apart :
    let xs := Sample.emitted Sample.drawnTwice [(.lit 1, "a"), (.lit 2, "b"), (.lit 3, "c"), (.lit 3, "d")]
    (∃ db, ingestPage .fresh (xs.map Sample.decoder.raw) = .ok db ∧
      ∀ x ∈ xs, db.rawEvents.count (Sample.decoder.raw x) = 1) ∧
    ∃ t, (xs.map Sample.decoder.decoded).foldlM Scaffold.applyEvent .fresh = .ok t ∧
      ∀ x ∈ xs, ∀ e, Sample.decoder.entry x = some e → t.streamEvents e.1 = some e.2 := by
  intro xs
  have hxs : xs.map Emission.published = Sample.drawnTwice.state.events := by decide +kernel
  have hnatural : Stream.Natural (xs.map Emission.published) :=
    natural_of_stream Sample.reachable_drawnTwice hxs
  have hd : Sample.decoder.Decimal := decimal_ofText _ _
  have hpage := exists_of_isOk (x := ingestPage .fresh (xs.map Sample.decoder.raw)) (by decide +kernel)
  have hfold := exists_of_isOk
    (x := (xs.map Sample.decoder.decoded).foldlM Scaffold.applyEvent .fresh) (by decide +kernel)
  have hspec := stored_iff hd (numbered_of_stream Sample.reachable_drawnTwice hxs) hnatural
  refine ⟨(hspec.1 .fresh constrained_fresh).mpr ⟨?_, by decide +kernel, fun x _ r hr => by cases hr⟩,
    (hspec.2 .fresh).mpr ⟨?_, by decide +kernel⟩⟩
  · exact (exists_ingestPage constrained_fresh (regular_raws hd hnatural)).mp hpage
  · exact List.forall_mem_map.mp ((Scaffold.exists_fold decoded_not_ballots).mp hfold)

/-- Two withdrawals are made in one transaction: one indexer keeps the first of them, the other one the
second.  And a stream is drawn from that was never topped up: no row is there to refer to, and the page is
refused. -/
theorem second_withdrawal_lost :
    let xs := Sample.emitted Sample.drawnTwice [(.lit 1, "a"), (.lit 2, "b"), (.lit 3, "c"), (.lit 3, "c")]
    let ys := Sample.emitted Sample.drawnOnce [(.lit 1, "a"), (.lit 3, "c")]
    (Stream.Reachable Stream.Sample.address Sample.drawnTwice ∧ Numbered xs ∧
      xs.map Emission.published = Sample.drawnTwice.state.events ∧
      (xs.map fun x => symbol x.published.event) = ["created", "topped_up", "withdrawn", "withdrawn"] ∧
      (ingestPage .fresh (xs.map Sample.decoder.raw)).toOption.map
        (fun db => db.rawEvents.map (·.get "amount")) = some [.null, .str "500", .str "100"] ∧
      ((xs.map Sample.decoder.decoded).foldlM Scaffold.applyEvent .fresh).toOption.map
        (fun t => (t.streamEvents (.lit 3, "c", "stream_withdrawn", "CA7")).map (·.amount)) =
          some (some (some "200"))) ∧
    (Stream.Reachable Stream.Sample.address Sample.drawnOnce ∧ Numbered ys ∧ Apart ys ∧
      ys.map Emission.published = Sample.drawnOnce.state.events ∧
      ingestPage .fresh (ys.map Sample.decoder.raw) = .error .foreignKey) := by
  intro xs ys
  have hxs : xs.map Emission.published = Sample.drawnTwice.state.events := by decide +kernel
  have hys : ys.map Emission.published = Sample.drawnOnce.state.events := by decide +kernel
  refine ⟨⟨Sample.reachable_drawnTwice, numbered_of_stream Sample.reachable_drawnTwice hxs, hxs,
    by decide +kernel, by decide +kernel, by decide +kernel⟩, Sample.reachable_drawnOnce,
    numbered_of_stream Sample.reachable_drawnOnce hys, by decide +kernel, hys, ?_⟩
  rfl

end Drip.Indexer
