import Drip.Indexer.Columns
import Drip.Indexer.Scaffold.Handlers

/-!
# Indexer — Scaffold columns

When `applyEvent` can store an event of a stream.  No table has a say in it: a row is written over, and
nothing refers to another row.

* `exists_recordStreamEvent`, `exists_handleStreamCreated`: the two statements.
* `exists_fold`: a list of stream events is folded exactly if each of them is `Storable`.
-/

namespace Drip.Indexer.Scaffold
open Chain

variable {db : Tables} {ev : ChainEvent} {evs : List ChainEvent} {eventType : String}

/-! ### Events -/

/-- No text of the event has a NUL, and its ledger is a `BIGINT`. -/
structure ChainEvent.Plain (ev : ChainEvent) : Prop where
  streamId : '\x00' ∉ ev.streamId.toList
  txHash : '\x00' ∉ (ev.txHash.getD "").toList
  ledger : ∃ l : I64, ev.ledger.getD 0 = l.val
  fields : ∀ x ∈ ev.fields, '\x00' ∉ x.1.toList ∧ x.2.Plain

/-- The columns of `streams` can take the event: no text has a NUL, and its times are `BIGINT`s. -/
structure ChainEvent.Opens (ev : ChainEvent) : Prop where
  streamId : '\x00' ∉ ev.streamId.toList
  texts : ∀ v ∈ [ev.get "sender", ev.get "recipient", ev.get "token", ev.orZero "rate_per_second"],
    '\x00' ∉ (str v).toList
  times : ∀ name ∈ ["start_time", "end_time"], ∃ n : I64, num (some (ev.orZero name)) = some n.val

/-- The tables can take the event. -/
structure ChainEvent.Storable (ev : ChainEvent) : Prop where
  created : ev.type ∈ ["created", "stream_created"] → ev.Opens
  lifecycle : (Scaffold.lifecycle ev.type).isSome = true → ev.Plain

/-! ### Statements -/

theorem exists_stored {n : Int} : (∃ l, storedBigint n = .ok l) ↔ ∃ l : I64, n = l.val := by
  simp only [storedBigint_eq_ok, eq_comm (b := n)]

theorem exists_storedNum {n : Option Int} : (∃ l, storedNum n = .ok l) ↔ ∃ l : I64, n = some l.val := by
  simp only [storedNum, bind_eq_ok, okOr_eq_ok, storedBigint_eq_ok]
  constructor
  · rintro ⟨l, k, rfl, rfl⟩
    exact ⟨l, rfl⟩
  · rintro ⟨l, rfl⟩
    exact ⟨l, l.val, rfl, rfl⟩

theorem exists_payload :
    (∃ fields, ev.payload = .ok fields) ↔ ∀ x ∈ ev.fields, '\x00' ∉ x.1.toList ∧ x.2.Plain := by
  simp only [ChainEvent.payload, bind_eq_ok, pure_eq_ok]
  constructor
  · rintro ⟨_, ws, hws, -⟩ x hx
    obtain ⟨w, hw⟩ := exists_mapM.mp ⟨ws, hws⟩ x hx
    simp only [bind_eq_ok] at hw
    obtain ⟨t, ht, hw⟩ := hw
    exact ⟨exists_column.mp ⟨t, ht⟩, (exists_jsonb _).mp ⟨w, hw⟩⟩
  · intro h
    have hfield : ∀ x ∈ ev.fields, ∃ w, (do let _ ← column x.1; jsonb x.2) = Except.ok w := by
      intro x hx
      obtain ⟨w, hw⟩ := (exists_jsonb x.2).mpr (h x hx).2
      exact ⟨w, bind_eq_ok.mpr ⟨x.1, column_of_plain (h x hx).1, hw⟩⟩
    obtain ⟨ws, hws⟩ := exists_mapM.mpr hfield
    exact ⟨_, ws, hws, rfl⟩

theorem exists_eventKey (h : '\x00' ∉ eventType.toList) :
    (∃ k, ev.eventKey eventType = .ok k) ↔
      '\x00' ∉ ev.streamId.toList ∧ '\x00' ∉ (ev.txHash.getD "").toList ∧
        ∃ l : I64, ev.ledger.getD 0 = l.val := by
  rw [← exists_column, ← exists_column, ← exists_stored]
  unfold ChainEvent.eventKey
  rw [column_of_plain h]
  simp only [ok_bind, bind_eq_ok, pure_eq_ok]
  constructor
  · rintro ⟨_, s, hs, l, hl, t, ht, -⟩
    exact ⟨⟨s, hs⟩, ⟨t, ht⟩, l, hl⟩
  · rintro ⟨⟨s, hs⟩, ⟨t, ht⟩, l, hl⟩
    exact ⟨_, s, hs, l, hl, t, ht, rfl⟩

/-! An amount is the text of a field. -/

theorem ChainEvent.Plain.get (h : ev.Plain) (name : String) : (ev.get name).Plain := by
  unfold ChainEvent.get
  cases hl : ev.fields.lookup name with
  | none => exact (by rw [Value.Plain]; decide : Value.null.Plain)
  | some v =>
      obtain ⟨l₁, l₂, hsplit, -⟩ := List.lookup_eq_some_iff.mp hl
      refine (h.fields (name, v) ?_).2
      rw [hsplit]
      exact List.mem_append_right _ List.mem_cons_self

theorem nullable_amount (h : ev.Plain) (field : Option String) :
    nullable (ev.amountIn field) = .ok (ev.amountIn field) := by
  cases field with
  | none => rfl
  | some name =>
      show nullable (amountOrNull (ev.get name)) = .ok (amountOrNull (ev.get name))
      unfold amountOrNull
      split
      · rfl
      · exact bind_of_ok (column_of_plain (h.get name))

theorem exists_recordStreamEvent {field : Option String} (h : '\x00' ∉ eventType.toList) :
    (∃ db', recordStreamEvent db ev eventType (ev.amountIn field) = .ok db') ↔ ev.Plain := by
  unfold recordStreamEvent
  simp only [bind_eq_ok, pure_eq_ok]
  constructor
  · rintro ⟨_, k, hk, _, -, fields, hfields, -⟩
    obtain ⟨hid, htx, hledger⟩ := (exists_eventKey h).mp ⟨k, hk⟩
    exact ⟨hid, htx, hledger, exists_payload.mp ⟨fields, hfields⟩⟩
  · intro hp
    obtain ⟨k, hk⟩ := (exists_eventKey h).mpr ⟨hp.streamId, hp.txHash, hp.ledger⟩
    obtain ⟨fields, hfields⟩ := exists_payload.mpr hp.fields
    exact ⟨_, k, hk, _, nullable_amount hp field, fields, hfields, _, upsert_over _ _ _, rfl⟩

theorem exists_handleStreamCreated : (∃ db', handleStreamCreated db ev = .ok db') ↔ ev.Opens := by
  unfold handleStreamCreated ChainEvent.streamRow
  simp only [bind_eq_ok, pure_eq_ok]
  constructor
  · rintro ⟨_, id, hid, row, ⟨s, hs, r, hr, t, ht, p, hp, a, ha, b, hb, -⟩, -⟩
    refine ⟨exists_column.mp ⟨id, hid⟩, ?_, ?_⟩
    · simp only [List.forall_mem_cons, List.not_mem_nil, false_imp_iff, implies_true, and_true]
      exact ⟨exists_column.mp ⟨s, hs⟩, exists_column.mp ⟨r, hr⟩, exists_column.mp ⟨t, ht⟩,
        exists_column.mp ⟨p, hp⟩⟩
    · simp only [List.forall_mem_cons, List.not_mem_nil, false_imp_iff, implies_true, and_true]
      exact ⟨exists_storedNum.mp ⟨a, ha⟩, exists_storedNum.mp ⟨b, hb⟩⟩
  · rintro ⟨hid, htexts, htimes⟩
    simp only [List.forall_mem_cons, List.not_mem_nil, false_imp_iff, implies_true, and_true] at htexts htimes
    obtain ⟨hs, hr, ht, hp⟩ := htexts
    obtain ⟨a, ha⟩ := exists_storedNum.mpr htimes.1
    obtain ⟨b, hb⟩ := exists_storedNum.mpr htimes.2
    exact ⟨_, _, column_of_plain hid, _, ⟨_, column_of_plain hs, _, column_of_plain hr, _, column_of_plain ht,
      _, column_of_plain hp, a, ha, b, hb, rfl⟩, _, upsert_over _ _ _, rfl⟩

/-! ### The switch -/

/-- The types of the votes. -/
def ballots : List String := ["loan_vote", "treasury_vote", "treasury_reveal"]

theorem plain_of_lifecycle {kind name : String} {field : Option String}
    (h : lifecycle kind = some (name, field)) : '\x00' ∉ name.toList := by
  unfold lifecycle at h
  split at h
  all_goals
    cases h
    try decide

theorem lifecycle_of_created {kind : String} (h : kind ∈ ["created", "stream_created"]) :
    lifecycle kind = none := by
  revert kind
  decide

theorem applyEvent_of_created (h : ev.type ∈ ["created", "stream_created"]) :
    applyEvent db ev = handleStreamCreated db ev := by
  simp only [List.mem_cons, List.not_mem_nil, or_false] at h
  unfold applyEvent
  rcases h with h | h
  · rw [h]
    rfl
  · rw [h]
    rfl

/-- An event of any other type is dropped. -/
theorem applyEvent_of_unknown (hcreated : ev.type ∉ ["created", "stream_created"])
    (hlifecycle : lifecycle ev.type = none) (hballot : ev.type ∉ ballots) : applyEvent db ev = .ok db := by
  unfold applyEvent
  split
  case h_21 => rfl
  case h_1 h | h_2 h =>
    rw [h] at hcreated
    exact absurd (by decide) hcreated
  case h_18 h | h_19 h | h_20 h =>
    rw [h] at hballot
    exact absurd (by decide) hballot
  all_goals
    rename_i h
    rw [h] at hlifecycle
    cases hlifecycle

theorem exists_applyEvent (hballot : ev.type ∉ ballots) :
    (∃ db', applyEvent db ev = .ok db') ↔ ev.Storable := by
  by_cases hcreated : ev.type ∈ ["created", "stream_created"]
  · rw [applyEvent_of_created hcreated, exists_handleStreamCreated]
    refine ⟨fun h => ⟨fun _ => h, fun hsome => ?_⟩, fun h => h.created hcreated⟩
    rw [lifecycle_of_created hcreated] at hsome
    cases hsome
  · cases hl : lifecycle ev.type with
    | none =>
        refine iff_of_true ⟨db, applyEvent_of_unknown hcreated hl hballot⟩ ⟨fun h => absurd h hcreated, ?_⟩
        rw [hl]
        nofun
    | some entry =>
        obtain ⟨name, field⟩ := entry
        rw [applyEvent_of_lifecycle hl, exists_recordStreamEvent (plain_of_lifecycle hl)]
        refine ⟨fun h => ⟨fun hc => absurd hc hcreated, fun _ => h⟩, fun h => h.lifecycle ?_⟩
        rw [hl]
        rfl

/-- By induction on the events. -/
theorem exists_fold (hballot : ∀ ev ∈ evs, ev.type ∉ ballots) :
    (∃ db', evs.foldlM applyEvent db = .ok db') ↔ ∀ ev ∈ evs, ev.Storable := by
  induction evs generalizing db with
  | nil => exact iff_of_true ⟨db, rfl⟩ (List.forall_mem_nil _)
  | cons ev evs ih =>
      have hfirst : (∃ db', applyEvent db ev = .ok db') ↔ ev.Storable :=
        exists_applyEvent (hballot ev List.mem_cons_self)
      have hrest : ∀ ev ∈ evs, ev.type ∉ ballots := fun e he => hballot e (List.mem_cons_of_mem ev he)
      rw [List.forall_mem_cons, ← hfirst]
      simp only [List.foldlM_cons, bind_eq_ok]
      constructor
      · rintro ⟨db', db₁, happly, hfold⟩
        exact ⟨⟨db₁, happly⟩, (ih hrest).mp ⟨db', hfold⟩⟩
      · rintro ⟨⟨db₁, happly⟩, hstorable⟩
        have hall : (∃ db', evs.foldlM applyEvent db₁ = .ok db') ↔ ∀ ev ∈ evs, ev.Storable := ih hrest
        obtain ⟨db', hfold⟩ := hall.mpr hstorable
        exact ⟨db', db₁, happly, hfold⟩

end Drip.Indexer.Scaffold
