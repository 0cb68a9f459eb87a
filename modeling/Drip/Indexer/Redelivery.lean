import Drip.Support.LastWrite
import Drip.Indexer.Marks

/-!
# Indexer — Redelivery

An event folded again.  Most columns are behind a watermark or a key, or set once and for all: an event
that has been `Delivered` no longer moves them.  `paused`, what a ballot says and, among events of one
ledger, its transaction hash are overwritten each time, so there the last event stands.

* `delivered_of_fold`, `Delivered.keep`: a fold delivers the event, and later folds leave it delivered.
* `exists_again`, `Delivered.rewritten`: an event delivered before is folded again, and overwrites only these
  columns.
* `toggle_stands`, `said_stands`, `txHash_stands`: what they hold after a list of events.
* `redelivered_iff`: when folding an event of the list again changes nothing.
-/

namespace Drip.Indexer
open Chain

variable {db db' db₀ db₁ : Database} {ev y : RawEvent} {evs : List RawEvent} {row : StreamState}

/-! ### Delivered events -/

/-- The tables have seen the event. -/
structure Delivered (db : Database) (ev : RawEvent) : Prop where
  readable : ∃ db₀ db₁, foldEvent db₀ ev = .ok db₁
  stream : ev.OfStream → ∃ row, db.streamStates ev.streamId = some row ∧
    ev.ledger.val ≤ row.updatedLedger.val ∧ (ev.cancels = true → row.cancelled = true)
  withdrawal : ev.eventType = "stream_withdrawn" →
    ∃ w ∈ db.streamWithdrawals, w.key = (ev.ledger.widen, ev.txHash, ev.streamId)
  ballot : ∀ k, ev.ballotKey = some k → ∃ b, db.ballots k = some b ∧ ev.ledger.val ≤ b.ledger

/-- A row after the fold of any event: the watermark does not fall, and `cancelled` stays. -/
theorem row_of_fold (h : foldEvent db ev = .ok db') {s : String}
    (hrow : db.streamStates s = some row) : ∃ row', db'.streamStates s = some row' ∧
      row.updatedLedger.val ≤ row'.updatedLedger.val ∧ (row.cancelled = true → row'.cancelled = true) := by
  by_cases hstream : ev.OfStream
  · obtain ⟨new, hnew, hmerged, hmarked⟩ := row_of_stream h hstream
    by_cases hs : s = ev.streamId
    · subst hs
      rw [hrow] at hmerged hmarked
      cases hmerged with
      | merged hseen _ _ =>
          cases hmarked with
          | merged hcancelled _ _ _ =>
              refine ⟨new, by rw [hnew, Function.update_self], ?_, fun hc => ?_⟩
              · rw [hseen]
                exact le_max_left _ _
              · rw [hcancelled, hc, Bool.true_or]
    · exact ⟨row, by rw [hnew, Function.update_of_ne hs, hrow], le_rfl, id⟩
  · exact ⟨row, by rw [(effect_of_fold h).rows hstream, hrow], le_rfl, id⟩

/-- The rows of `stream_withdrawals` stay. -/
theorem withdrawal_of_fold (h : foldEvent db ev = .ok db') {w : Withdrawal}
    (hw : w ∈ db.streamWithdrawals) : w ∈ db'.streamWithdrawals := by
  rcases (effect_of_fold h).listed with ⟨hsame, -⟩ | ⟨w', hrows, -⟩
  · rw [hsame]
    exact hw
  · rw [hrows]
    exact List.mem_append_left _ hw

/-- A ballot after the fold of any event: its ledger does not fall. -/
theorem ballot_of_fold (h : foldEvent db ev = .ok db') {k : BallotKey} {b : Ballot}
    (hb : db.ballots k = some b) : ∃ b', db'.ballots k = some b' ∧ b.ledger ≤ b'.ledger := by
  have hcast := cast_of_fold h
  unfold Cast at hcast
  cases hk : ev.ballotKey with
  | none =>
      rw [hk] at hcast
      exact ⟨b, by rw [hcast, hb], le_rfl⟩
  | some k' =>
      rw [hk] at hcast
      by_cases hkk : k = k'
      · subst hkk
        refine ⟨_, by rw [hcast, Function.update_self], ?_⟩
        rw [hb]
        exact le_max_left _ _
      · exact ⟨b, by rw [hcast, Function.update_of_ne hkk, hb], le_rfl⟩

theorem Delivered.keep (h : Delivered db ev) (hy : foldEvent db y = .ok db') : Delivered db' ev := by
  refine ⟨h.readable, fun hstream => ?_, fun hkind => ?_, fun k hk => ?_⟩
  · obtain ⟨row, hrow, hle, hcancels⟩ := h.stream hstream
    obtain ⟨row', hrow', hle', hcancelled⟩ := row_of_fold hy hrow
    exact ⟨row', hrow', hle.trans hle', fun hc => hcancelled (hcancels hc)⟩
  · obtain ⟨w, hw, hkey⟩ := h.withdrawal hkind
    exact ⟨w, withdrawal_of_fold hy hw, hkey⟩
  · obtain ⟨b, hb, hle⟩ := h.ballot k hk
    obtain ⟨b', hb', hle'⟩ := ballot_of_fold hy hb
    exact ⟨b', hb', hle.trans hle'⟩

/-- A fold delivers the event. -/
theorem delivered_of_fold (h : foldEvent db ev = .ok db') : Delivered db' ev := by
  refine ⟨⟨db, db', h⟩, fun hstream => ?_, fun hkind => ?_, fun k hk => ?_⟩
  · obtain ⟨new, hnew, hmerged, hmarked⟩ := row_of_stream h hstream
    generalize db.streamStates ev.streamId = stored at hmerged hmarked
    refine ⟨new, by rw [hnew, Function.update_self], ?_, fun hc => ?_⟩
    · cases hmerged with
      | created hseen _ _ => exact hseen.ge
      | merged hseen _ _ =>
          rw [hseen]
          exact le_max_right _ _
    · cases hmarked with
      | created hcancelled _ _ => rw [hcancelled, hc]
      | merged hcancelled _ _ _ => rw [hcancelled, hc, Bool.or_true]
  · rcases (effect_of_fold h).listed with ⟨hsame, hknown⟩ | ⟨w, hrows, hw⟩
    · rw [hsame]
      exact hknown hkind
    · rw [hrows]
      exact ⟨w, List.mem_append_right _ (List.mem_singleton_self w), hw.key⟩
  · have hcast := cast_of_fold h
    rw [Cast, hk] at hcast
    refine ⟨_, by rw [hcast, Function.update_self], ?_⟩
    cases db.ballots k with
    | none => exact le_rfl
    | some b => exact le_max_right _ _

/-! ### The second fold -/

theorem exists_upsertStream {s : String} {merge : StreamState → Except Failure StreamState}
    (h : ∀ old, db.streamStates s = some old → ∃ new, merge old = .ok new) :
    ∃ db', upsertStream db s row merge = .ok db' := by
  cases hs : db.streamStates s with
  | none => exact ⟨_, upsertStream_eq_ok.mpr ⟨row, rfl, .inl ⟨hs, rfl⟩⟩⟩
  | some old =>
      obtain ⟨new, hnew⟩ := h old hs
      exact ⟨_, upsertStream_eq_ok.mpr ⟨new, rfl, .inr ⟨old, hs, hnew⟩⟩⟩

theorem exists_upsertVote {votes votes₀ votes₁ : String × String → Option Vote} {subject : String}
    (h : upsertVote votes₀ subject ev = .ok votes₁) : ∃ votes', upsertVote votes subject ev = .ok votes' := by
  simp only [upsertVote, bind_eq_ok] at h ⊢
  obtain ⟨n, hn, s, hs, v, hv, w, hw, t, ht, -⟩ := h
  cases hold : votes (s, v) with
  | none =>
      refine ⟨_, n, hn, s, hs, v, hv, w, hw, t, ht, upsert_eq_ok.mpr ⟨_, rfl, .inl ⟨hold, rfl⟩⟩⟩
  | some old =>
      refine ⟨_, n, hn, s, hs, v, hv, w, hw, t, ht, upsert_eq_ok.mpr ⟨_, rfl, .inr ⟨old, hold, rfl⟩⟩⟩

/-- An amount is no longer added once the watermark has reached its ledger. -/
theorem addIfNewer_of_seen {old excluded : StreamState} {x z : I64}
    (h : excluded.updatedLedger.val ≤ old.updatedLedger.val) : addIfNewer old excluded x z = .ok x :=
  if_neg (not_lt.mpr h)

theorem seen_of_stream (hd : Delivered db ev) (hstream : ev.OfStream) {excluded old : StreamState}
    (hrow : excluded.updatedLedger.val = ev.ledger.val) (hold : db.streamStates ev.streamId = some old) :
    excluded.updatedLedger.val ≤ old.updatedLedger.val := by
  obtain ⟨row, hrow', hle, -⟩ := hd.stream hstream
  obtain rfl := Option.some.inj (hold.symm.trans hrow')
  rw [hrow]
  exact hle

theorem again_markStream {mark : StreamState → StreamState} (h : markStream mark db₀ ev = .ok db₁) :
    ∃ db', markStream mark db ev = .ok db' := by
  simp only [markStream, bind_eq_ok] at h ⊢
  obtain ⟨row, hrow, -⟩ := h
  exact ⟨_, row, hrow, (exists_upsertStream fun old _ => ⟨_, rfl⟩).choose_spec⟩

theorem again_toppedUp (hd : Delivered db ev) (hstream : ev.OfStream)
    (h : handleStreamToppedUp db₀ ev = .ok db₁) : ∃ db', handleStreamToppedUp db ev = .ok db' := by
  simp only [handleStreamToppedUp, bind_eq_ok] at h ⊢
  obtain ⟨amount, hamount, row, hrow, -⟩ := h
  have hseen := (streamRow_spec hrow).2.2
  refine ⟨_, amount, hamount, row, hrow, (exists_upsertStream fun old hold => ?_).choose_spec⟩
  rw [addIfNewer_of_seen (seen_of_stream hd hstream hseen hold)]
  exact ⟨_, rfl⟩

theorem again_xferRec (h : handleXferRec db₀ ev = .ok db₁) : ∃ db', handleXferRec db ev = .ok db' := by
  simp only [handleXferRec, bind_eq_ok] at h ⊢
  obtain ⟨row, hrow, -⟩ := h
  exact ⟨_, row, hrow, (exists_upsertStream fun old _ => ⟨_, rfl⟩).choose_spec⟩

theorem again_withdrawn (hd : Delivered db ev) (hkind : ev.eventType = "stream_withdrawn")
    (h : handleStreamWithdrawn db₀ ev = .ok db₁) : ∃ db', handleStreamWithdrawn db ev = .ok db' := by
  have hstream : ev.OfStream := (ofStream_iff hkind).mpr (by decide)
  simp only [handleStreamWithdrawn, bind_eq_ok, column_eq_ok] at h ⊢
  obtain ⟨amount, hamount, _, ⟨hs, rfl⟩, _, ⟨ht, rfl⟩, _, ⟨hr, rfl⟩, x, hx, _, -, row, hrow, -⟩ := h
  have hseen := (streamRow_spec hrow).2.2
  -- its key is there, so nothing is inserted
  have hknown : insertWithdrawal db
      ⟨ev.streamId, ev.ledger.widen, ev.txHash, ev.text "recipient", x⟩ = .ok db :=
    if_pos (hd.withdrawal hkind)
  refine ⟨_, amount, hamount, _, ⟨hs, rfl⟩, _, ⟨ht, rfl⟩, _, ⟨hr, rfl⟩, x, hx, db, hknown, row, hrow,
    (exists_upsertStream fun old hold => ?_).choose_spec⟩
  have hle : row.updatedLedger.val ≤ old.updatedLedger.val := seen_of_stream hd hstream hseen hold
  exact ⟨_, bind_of_ok (addIfNewer_of_seen hle)⟩

theorem again_loanVote (h : handleLoanVote db₀ ev = .ok db₁) : ∃ db', handleLoanVote db ev = .ok db' := by
  simp only [handleLoanVote, bind_eq_ok] at h ⊢
  obtain ⟨votes, hvotes, -⟩ := h
  exact ⟨_, _, (exists_upsertVote hvotes).choose_spec, rfl⟩

theorem again_treasuryVote (h : handleTreasuryVote db₀ ev = .ok db₁) :
    ∃ db', handleTreasuryVote db ev = .ok db' := by
  simp only [handleTreasuryVote, bind_eq_ok] at h ⊢
  obtain ⟨votes, hvotes, -⟩ := h
  exact ⟨_, _, (exists_upsertVote hvotes).choose_spec, rfl⟩

theorem again_treasuryReveal (h : handleTreasuryReveal db₀ ev = .ok db₁) :
    ∃ db', handleTreasuryReveal db ev = .ok db' := by
  simp only [handleTreasuryReveal, bind_eq_ok] at h ⊢
  obtain ⟨p, hp, v, hv, w, hw, t, ht, -⟩ := h
  cases hold : db.treasuryReveals (p, v) with
  | none => exact ⟨_, p, hp, v, hv, w, hw, t, ht, _, upsert_eq_ok.mpr ⟨_, rfl, .inl ⟨hold, rfl⟩⟩, rfl⟩
  | some old =>
      exact ⟨_, p, hp, v, hv, w, hw, t, ht, _, upsert_eq_ok.mpr ⟨_, rfl, .inr ⟨old, hold, rfl⟩⟩, rfl⟩

theorem exists_again (hd : Delivered db ev) : ∃ db', foldEvent db ev = .ok db' := by
  obtain ⟨db₀, db₁, h₀⟩ := hd.readable
  rcases handler_of_fold h₀ with ⟨-, -, hnone⟩ | ⟨handler, hhandler, h⟩
  · unfold foldEvent at h₀ ⊢
    rw [hnone] at h₀ ⊢
    dsimp only at h₀ ⊢
    split at h₀
    · cases h₀
    · exact ⟨db, if_neg ‹_›⟩
  · have hsame : foldEvent db ev = handler db ev := by
      unfold foldEvent
      rw [hhandler]
    rw [hsame]
    unfold handlerOf at hhandler
    split at hhandler
    case h_1 hk =>
        cases hhandler
        exact again_withdrawn hd hk h
    case h_2 hk | h_3 hk | h_4 hk | h_6 hk =>
        cases hhandler
        exact again_markStream h
    case h_5 hk =>
        cases hhandler
        exact again_toppedUp hd ((ofStream_iff hk).mpr (by decide)) h
    case h_7 hk =>
        cases hhandler
        exact again_xferRec h
    case h_8 hk =>
        cases hhandler
        exact again_loanVote h
    case h_9 hk =>
        cases hhandler
        exact again_treasuryVote h
    case h_10 hk =>
        cases hhandler
        exact again_treasuryReveal h
    case h_11 => cases hhandler

/-! ### What is overwritten -/

/-- The row with the flag that the event sets. -/
def RawEvent.retoggle (ev : RawEvent) (s : String) (row : StreamState) : StreamState :=
  if ev.streamId = s then { row with paused := ev.toggle.getD row.paused } else row

/-- The ballot with what the event says, and its transaction where no later ledger is known. -/
def RawEvent.recast (ev : RawEvent) (k : BallotKey) (b : Ballot) : Ballot :=
  if ev.ballotKey = some k then
    { b with said := ev.said, txHash := if b.ledger ≤ ev.ledger.val then ev.txHash else b.txHash }
  else b

/-- The tables after the fold of an event delivered before. -/
structure Rewritten (db : Database) (ev : RawEvent) (db' : Database) : Prop where
  rawEvents : db'.rawEvents = db.rawEvents
  cursor : db'.cursor = db.cursor
  listed : db'.streamWithdrawals = db.streamWithdrawals
  rows : ∀ s, db'.streamStates s = (db.streamStates s).map (ev.retoggle s)
  ballots : ∀ k, db'.ballots k = (db.ballots k).map (ev.recast k)

theorem toggle_of_other (hstream : ¬ ev.OfStream) : ev.toggle = none := by
  unfold RawEvent.toggle
  rw [if_neg fun h => hstream ((ofStream_iff h).mpr (by decide)),
    if_neg fun h => hstream ((ofStream_iff h).mpr (by decide))]

/-- Nothing but `paused` of the row moves. -/
theorem retoggle_of_stream (hd : Delivered db ev) (hstream : ev.OfStream) {new : StreamState}
    (hmerged : Merged ev (db.streamStates ev.streamId) new)
    (hmarked : Marked ev (db.streamStates ev.streamId) new) :
    some new = (db.streamStates ev.streamId).map (ev.retoggle ev.streamId) := by
  obtain ⟨row, hrow, hle, hcancels⟩ := hd.stream hstream
  rw [hrow] at hmerged hmarked ⊢
  cases hmerged with
  | merged hseen hwithdrawn hdeposit =>
      cases hmarked with
      | merged hcancelled hpaused hrecipient hframe =>
          obtain ⟨hsender, htoken, hrate⟩ := hframe
          rw [if_neg (not_lt.mpr hle), add_zero] at hwithdrawn hdeposit
          rw [if_neg fun h => not_lt.mpr hle h.2] at hrecipient
          rw [max_eq_left hle] at hseen
          have hsame : (row.cancelled || ev.cancels) = row.cancelled := by
            cases hc : ev.cancels with
            | false => exact Bool.or_false _
            | true => rw [hcancels hc, Bool.true_or]
          rw [hsame] at hcancelled
          obtain ⟨_, _, _, _, _, _, _, _, _⟩ := new
          dsimp only at *
          rw [Option.map_some, RawEvent.retoggle, if_pos rfl, Ranged.ext hwithdrawn,
            Ranged.ext hdeposit, Ranged.ext hseen, hsender, htoken, hrate, hrecipient, hcancelled,
            hpaused]

theorem Delivered.rewritten (hd : Delivered db ev) (h : foldEvent db ev = .ok db') :
    Rewritten db ev db' := by
  have he := effect_of_fold h
  refine ⟨he.rawEvents, he.cursor, ?_, fun s => ?_, fun k => ?_⟩
  · rcases he.listed with ⟨hsame, -⟩ | ⟨w, -, hw⟩
    · exact hsame
    · -- a withdrawal delivered before has its key in the table
      obtain ⟨w', hw', hkey⟩ := hd.withdrawal hw.kind
      exact absurd ⟨w', hw', hkey.trans hw.key.symm⟩ hw.new
  · by_cases hstream : ev.OfStream
    · obtain ⟨new, hnew, hmerged, hmarked⟩ := row_of_stream h hstream
      by_cases hs : s = ev.streamId
      · subst hs
        rw [hnew, Function.update_self]
        exact retoggle_of_stream hd hstream hmerged hmarked
      · rw [hnew, Function.update_of_ne hs]
        have hid : ev.retoggle s = id := funext fun row => if_neg (Ne.symm hs)
        rw [hid, Option.map_id]
        rfl
    · rw [he.rows hstream]
      have hid : ev.retoggle s = id := by
        funext row
        rw [RawEvent.retoggle, toggle_of_other hstream]
        exact ite_self _
      rw [hid, Option.map_id]
      rfl
  · have hcast := cast_of_fold h
    unfold Cast at hcast
    cases hk : ev.ballotKey with
    | none =>
        have hid : ev.recast k = id := funext fun b => if_neg (by rw [hk]; nofun)
        rw [hk] at hcast
        rw [hcast, hid, Option.map_id]
        rfl
    | some k' =>
        rw [hk] at hcast
        by_cases hkk : k = k'
        · subst hkk
          obtain ⟨b, hb, hle⟩ := hd.ballot k hk
          rw [hcast, Function.update_self, hb, Option.map_some, RawEvent.recast, if_pos hk]
          show some (Ballot.mk ev.said (max b.ledger ev.ledger.val) _) = _
          rw [max_eq_left hle]
        · have hid : ev.recast k = id := by
            funext b
            exact if_neg fun h => hkk (Option.some.inj (h.symm.trans hk))
          rw [hcast, Function.update_of_ne hkk, hid, Option.map_id]
          rfl

theorem eq_of_tables (hr : db'.rawEvents = db.rawEvents) (hc : db'.cursor = db.cursor)
    (hs : db'.streamStates = db.streamStates) (hw : db'.streamWithdrawals = db.streamWithdrawals)
    (hb : db'.ballots = db.ballots) : db' = db := by
  obtain ⟨hl, ht, hv⟩ := tables_of_ballots hb
  cases db
  cases db'
  dsimp only at hr hc hs hw hl ht hv
  rw [hr, hc, hs, hw, hl, ht, hv]

/-! ### What stands -/

/-- The last event that sets the flag of the stream. -/
def lastToggle (s : String) (evs : List RawEvent) : Option RawEvent :=
  lastOf (fun x => x.toggle.isSome = true ∧ x.streamId = s) evs

/-- The last event of the ballot. -/
def lastCast (k : BallotKey) (evs : List RawEvent) : Option RawEvent :=
  lastOf (fun x => x.ballotKey = some k) evs

/-- The last event of the ballot in the ledger. -/
def lastIn (k : BallotKey) (ledger : U32) (evs : List RawEvent) : Option RawEvent :=
  lastOf (fun x => x.ballotKey = some k ∧ x.ledger = ledger) evs

theorem stream_of_toggle (h : ev.toggle.isSome = true) : ev.OfStream := by
  by_contra hstream
  rw [toggle_of_other hstream] at h
  cases h

theorem toggle_stands {s : String} (h : evs.foldlM foldEvent db₀ = .ok db)
    (hy : lastToggle s evs = some y) :
    ∃ row, db.streamStates s = some row ∧ y.toggle = some row.paused := by
  refine foldlM_last (R := fun y db => ∃ row, db.streamStates s = some row ∧ y.toggle = some row.paused)
    (fun db db' x hx hfold => ?_) (fun db db' x z _ hz hfold hrow => ?_) h hy
  · obtain ⟨htoggle, rfl⟩ := hx
    obtain ⟨new, hnew, -, hmarked⟩ := row_of_stream hfold (stream_of_toggle htoggle)
    obtain ⟨b, hb⟩ := Option.isSome_iff_exists.mp htoggle
    refine ⟨new, by rw [hnew, Function.update_self], ?_⟩
    generalize db.streamStates x.streamId = stored at hmarked
    cases hmarked with
    | created _ hpaused _ => rw [hpaused, hb]; rfl
    | merged _ hpaused _ _ => rw [hpaused, hb]; rfl
  · obtain ⟨row, hrow, htoggle⟩ := hrow
    by_cases hstream : z.OfStream
    · obtain ⟨new, hnew, -, hmarked⟩ := row_of_stream hfold hstream
      by_cases hs : s = z.streamId
      · subst hs
        have hnone : z.toggle = none := by
          cases ht : z.toggle with
          | none => rfl
          | some b => exact absurd ⟨by rw [ht]; rfl, rfl⟩ hz
        rw [hrow] at hmarked
        cases hmarked with
        | merged _ hpaused _ _ =>
            refine ⟨new, by rw [hnew, Function.update_self], ?_⟩
            rw [htoggle, hpaused, hnone]
            rfl
      · exact ⟨row, by rw [hnew, Function.update_of_ne hs, hrow], htoggle⟩
    · exact ⟨row, by rw [(effect_of_fold hfold).rows hstream, hrow], htoggle⟩

/-- The ballot of a key after a fold: the event's, where it is of that key. -/
theorem ballots_of_fold (h : foldEvent db ev = .ok db') (k : BallotKey) :
    db'.ballots k = if ev.ballotKey = some k then some (ev.cast (db.ballots k)) else db.ballots k := by
  have hcast := cast_of_fold h
  unfold Cast at hcast
  cases hk : ev.ballotKey with
  | none =>
      rw [hk] at hcast
      rw [hcast, if_neg nofun]
  | some k' =>
      rw [hk] at hcast
      by_cases hkk : k = k'
      · subst hkk
        rw [hcast, Function.update_self, if_pos rfl]
      · rw [hcast, Function.update_of_ne hkk, if_neg fun h => hkk (Option.some.inj h).symm]

theorem cast_said (b : Option Ballot) : (ev.cast b).said = ev.said := by
  cases b <;> rfl

theorem said_stands {k : BallotKey} (h : evs.foldlM foldEvent db₀ = .ok db)
    (hy : lastCast k evs = some y) : ∃ b, db.ballots k = some b ∧ b.said = y.said := by
  refine foldlM_last (R := fun y db => ∃ b, db.ballots k = some b ∧ b.said = y.said)
    (fun db db' x hx hfold => ?_) (fun db db' x z _ hz hfold hb => ?_) h hy
  · exact ⟨_, by rw [ballots_of_fold hfold k, if_pos hx], cast_said _⟩
  · rw [ballots_of_fold hfold k, if_neg hz]
    exact hb

/-- By induction on the events: a later ledger, or the same one again, brings its own transaction. -/
theorem txHash_stands {k : BallotKey} {l : U32} (h : evs.foldlM foldEvent db₀ = .ok db)
    (hy : lastIn k l evs = some y) :
    ∃ b, db.ballots k = some b ∧ l.val ≤ b.ledger ∧ (b.ledger = l.val → b.txHash = y.txHash) := by
  refine foldlM_last (R := fun y db => ∃ b, db.ballots k = some b ∧ l.val ≤ b.ledger ∧
    (b.ledger = l.val → b.txHash = y.txHash))
    (fun db db' x hx hfold => ?_) (fun db db' x z _ hz hfold hb => ?_) h hy
  · obtain ⟨hk, rfl⟩ := hx
    refine ⟨_, by rw [ballots_of_fold hfold k, if_pos hk], ?_⟩
    cases db.ballots k with
    | none => exact ⟨le_rfl, fun _ => rfl⟩
    | some old =>
        refine ⟨le_max_right _ _, fun hl => if_pos ?_⟩
        exact (le_max_left _ _).trans hl.le
  · obtain ⟨b, hb, hle, htx⟩ := hb
    rw [ballots_of_fold hfold k]
    by_cases hk : z.ballotKey = some k
    · have hne : z.ledger ≠ l := fun h => hz ⟨hk, h⟩
      have hne : z.ledger.val ≠ l.val := fun h => hne (Ranged.ext h)
      rw [if_pos hk, hb]
      refine ⟨_, rfl, hle.trans (le_max_left _ _), fun hl => ?_⟩
      have hl : max b.ledger z.ledger.val = l.val := hl
      show (if b.ledger ≤ z.ledger.val then z.txHash else b.txHash) = _
      rw [if_neg (by omega)]
      exact htx (by omega)
    · rw [if_neg hk]
      exact ⟨b, hb, hle, htx⟩

/-- No ballot has seen a later ledger than the events and the ballot at the start. -/
theorem ledger_le {k : BallotKey} {l : Int} (h : evs.foldlM foldEvent db₀ = .ok db)
    (hevs : ∀ x ∈ evs, x.ballotKey = some k → x.ledger.val ≤ l)
    (hstart : ∀ b, db₀.ballots k = some b → b.ledger ≤ l) : ∀ b, db.ballots k = some b → b.ledger ≤ l := by
  refine foldlM_invariant (P := fun db => ∀ b, db.ballots k = some b → b.ledger ≤ l)
    (fun x hx db db' hfold hle b hb => ?_) h hstart
  rw [ballots_of_fold hfold k] at hb
  by_cases hk : x.ballotKey = some k
  · rw [if_pos hk, Option.some.injEq] at hb
    subst hb
    cases hold : db.ballots k with
    | none => exact hevs x hx hk
    | some old => exact max_le (hle old hold) (hevs x hx hk)
  · rw [if_neg hk] at hb
    exact hle b hb

/-! ### Redelivery -/

theorem delivered_of_mem (h : evs.foldlM foldEvent db₀ = .ok db) : ∀ ev ∈ evs, Delivered db ev :=
  foldlM_forall (Q := fun ev db => Delivered db ev) (fun _ _ _ => delivered_of_fold)
    (fun _ _ _ _ hfold hd => hd.keep hfold) h

/-- Nothing the event overwrites has been overwritten otherwise since: not the flag of its stream, not what
its ballot says, and not the ballot's transaction, if no later ledger is known. -/
structure Stands (db₀ : Database) (evs : List RawEvent) (ev : RawEvent) : Prop where
  toggle : ev.toggle.isSome = true → ∀ y, lastToggle ev.streamId evs = some y → y.toggle = ev.toggle
  said : ∀ k, ev.ballotKey = some k → ∀ y, lastCast k evs = some y → y.said = ev.said
  txHash : ∀ k, ev.ballotKey = some k → (∀ x ∈ evs, x.ballotKey = some k → x.ledger.val ≤ ev.ledger.val) →
    (∀ b, db₀.ballots k = some b → b.ledger ≤ ev.ledger.val) →
      ∀ y, lastIn k ev.ledger evs = some y → y.txHash = ev.txHash

/-- The row keeps its flag where the last event that set it set it so. -/
theorem retoggle_eq_iff (h : evs.foldlM foldEvent db₀ = .ok db) (hev : ev ∈ evs) :
    (∀ s, (db.streamStates s).map (ev.retoggle s) = db.streamStates s) ↔
      (ev.toggle.isSome = true → ∀ y, lastToggle ev.streamId evs = some y → y.toggle = ev.toggle) := by
  constructor
  · intro hsame htoggle y hy
    obtain ⟨row, hrow, hlast⟩ := toggle_stands h hy
    obtain ⟨b, hb⟩ := Option.isSome_iff_exists.mp htoggle
    have hrow' := hsame ev.streamId
    rw [hrow, Option.map_some, RawEvent.retoggle, if_pos rfl, hb, Option.some.injEq] at hrow'
    have hpaused : b = row.paused := congrArg StreamState.paused hrow'
    rw [hlast, hb, hpaused]
  · intro hlast s
    by_cases hs : ev.streamId = s
    · subst hs
      cases ht : ev.toggle with
      | none =>
          have hid : ev.retoggle ev.streamId = id := by
            funext row
            rw [RawEvent.retoggle, ht]
            exact ite_self _
          rw [hid, Option.map_id]
          rfl
      | some b =>
          have htoggle : ev.toggle.isSome = true := by rw [ht]; rfl
          obtain ⟨y, hy⟩ : ∃ y, lastToggle ev.streamId evs = some y :=
            exists_lastOf hev ⟨htoggle, rfl⟩
          obtain ⟨row, hrow, hrowy⟩ := toggle_stands h hy
          rw [hlast htoggle y hy, ht, Option.some.injEq] at hrowy
          rw [hrow, Option.map_some, RawEvent.retoggle, if_pos rfl, ht, hrowy]
          rfl
    · have hid : ev.retoggle s = id := funext fun row => if_neg hs
      rw [hid, Option.map_id]
      rfl

/-- The ballot keeps what it says and its transaction. -/
theorem recast_eq_iff (h : evs.foldlM foldEvent db₀ = .ok db) (hev : ev ∈ evs) {k : BallotKey}
    (hk : ev.ballotKey = some k) :
    (db.ballots k).map (ev.recast k) = db.ballots k ↔
      (∀ y, lastCast k evs = some y → y.said = ev.said) ∧
        ((∀ x ∈ evs, x.ballotKey = some k → x.ledger.val ≤ ev.ledger.val) →
          (∀ b, db₀.ballots k = some b → b.ledger ≤ ev.ledger.val) →
            ∀ y, lastIn k ev.ledger evs = some y → y.txHash = ev.txHash) := by
  obtain ⟨z, hz⟩ : ∃ z, lastCast k evs = some z := exists_lastOf hev hk
  obtain ⟨w, hw⟩ : ∃ w, lastIn k ev.ledger evs = some w := exists_lastOf hev ⟨hk, rfl⟩
  obtain ⟨b, hb, hsaid⟩ := said_stands h hz
  obtain ⟨b', hb', hle, htx⟩ := txHash_stands h hw
  obtain rfl := Option.some.inj (hb.symm.trans hb')
  have hsame : (db.ballots k).map (ev.recast k) = db.ballots k ↔
      ev.said = b.said ∧ (b.ledger ≤ ev.ledger.val → ev.txHash = b.txHash) := by
    rw [hb, Option.map_some, RawEvent.recast, if_pos hk, Option.some.injEq]
    constructor
    · intro heq
      refine ⟨congrArg Ballot.said heq, fun hl => ?_⟩
      have htx := congrArg Ballot.txHash heq
      rwa [if_pos hl] at htx
    · rintro ⟨hs, ht⟩
      obtain ⟨_, _, _⟩ := b
      dsimp only at *
      rw [hs]
      split
      · rename_i hl
        rw [ht hl]
      · rfl
  rw [hsame]
  refine and_congr ⟨fun hs y hy => ?_, fun hs => ?_⟩ ⟨fun ht hevs hstart y hy => ?_, fun ht hl => ?_⟩
  · obtain rfl := Option.some.inj (hz.symm.trans hy)
    rw [hs, hsaid]
  · rw [← hs z hz, hsaid]
  · obtain rfl := Option.some.inj (hw.symm.trans hy)
    have hl := ledger_le h hevs hstart b hb
    rw [ht hl, htx (le_antisymm hl hle)]
  · rw [htx (le_antisymm hl hle)]
    refine (ht (fun x hx hkx => ?_) (fun b₀ hb₀ => ?_) w hw).symm
    · obtain ⟨b₁, hb₁, hle₁⟩ := (delivered_of_mem h x hx).ballot k hkx
      obtain rfl := Option.some.inj (hb.symm.trans hb₁)
      exact hle₁.trans hl
    · refine le_trans ?_ hl
      obtain ⟨b₁, hb₁, hle₁⟩ : ∃ b₁, db.ballots k = some b₁ ∧ b₀.ledger ≤ b₁.ledger := by
        refine foldlM_invariant (P := fun db => ∃ b₁, db.ballots k = some b₁ ∧ b₀.ledger ≤ b₁.ledger)
          (fun x _ db db' hfold ⟨b₁, hb₁, hle₁⟩ => ?_) h ⟨b₀, hb₀, le_rfl⟩
        obtain ⟨b₂, hb₂, hle₂⟩ := ballot_of_fold hfold hb₁
        exact ⟨b₂, hb₂, hle₁.trans hle₂⟩
      obtain rfl := Option.some.inj (hb.symm.trans hb₁)
      exact hle₁

/-- **When redelivery is harmless.**  After any list of events has been folded into any tables, folding one
of them again succeeds, and leaves every table as it is exactly where the event still stands. -/
theorem redelivered_iff (h : evs.foldlM foldEvent db₀ = .ok db) (hev : ev ∈ evs) :
    (∃ db', foldEvent db ev = .ok db') ∧ (foldEvent db ev = .ok db ↔ Stands db₀ evs ev) := by
  have hd := delivered_of_mem h ev hev
  obtain ⟨db', hfold⟩ := exists_again hd
  have hrewritten := hd.rewritten hfold
  refine ⟨⟨db', hfold⟩, ?_⟩
  have hsame : foldEvent db ev = .ok db ↔ (∀ s, (db.streamStates s).map (ev.retoggle s) = db.streamStates s) ∧
      ∀ k, (db.ballots k).map (ev.recast k) = db.ballots k := by
    constructor
    · intro heq
      have hself := hd.rewritten heq
      exact ⟨fun s => (hself.rows s).symm, fun k => (hself.ballots k).symm⟩
    · rintro ⟨hrows, hballots⟩
      rw [hfold]
      refine congrArg Except.ok (eq_of_tables hrewritten.rawEvents hrewritten.cursor (funext fun s => ?_)
        hrewritten.listed (funext fun k => ?_))
      · rw [hrewritten.rows, hrows]
      · rw [hrewritten.ballots, hballots]
  rw [hsame, retoggle_eq_iff h hev]
  constructor
  · rintro ⟨htoggle, hballots⟩
    exact ⟨htoggle, fun k hk => ((recast_eq_iff h hev hk).mp (hballots k)).1,
      fun k hk => ((recast_eq_iff h hev hk).mp (hballots k)).2⟩
  · rintro ⟨htoggle, hsaid, htx⟩
    refine ⟨htoggle, fun k => ?_⟩
    by_cases hk : ev.ballotKey = some k
    · exact (recast_eq_iff h hev hk).mpr ⟨hsaid k hk, htx k hk⟩
    · have hid : ev.recast k = id := funext fun b => if_neg hk
      rw [hid, Option.map_id]
      rfl

namespace Sample

/-- A pause or a resumption of stream 1. -/
def flagged (ledger : U32) (txHash eventType : String) : RawEvent where
  ledger := ledger
  txHash := txHash
  eventType := eventType
  contractId := "CA3D..."
  topics := .null
  data := [("stream_id", .str "1")]

def paused : RawEvent := flagged (.lit 5) "a" "stream_paused"

def resumed : RawEvent := flagged (.lit 6) "b" "stream_resumed"

/-- The tables after the events. -/
def tables (evs : List RawEvent) : Database :=
  match evs.foldlM foldEvent .fresh with
  | .ok db => db
  | .error _ => .fresh

theorem foldlM_tables (h : (evs.foldlM foldEvent .fresh).isOk = true) :
    evs.foldlM foldEvent .fresh = .ok (tables evs) := by
  unfold tables
  cases hf : evs.foldlM foldEvent .fresh with
  | ok db => rfl
  | error e =>
      rw [hf] at h
      cases h

end Sample

/-- A pause and a resumption; the resumption is delivered again. -/
theorem redelivered_iff_resumed :
    let db := Sample.tables [Sample.paused, Sample.resumed]
    foldEvent db Sample.resumed = .ok db := by
  intro db
  have hfold : [Sample.paused, Sample.resumed].foldlM foldEvent .fresh = .ok db :=
    Sample.foldlM_tables (by decide +kernel)
  have hlast : lastToggle "1" [Sample.paused, Sample.resumed] = some Sample.resumed := by decide +kernel
  have hkey : Sample.resumed.ballotKey = none := by decide +kernel
  refine (redelivered_iff hfold (List.mem_cons_of_mem _ List.mem_cons_self)).2.mpr
    ⟨fun _ y hy => ?_, fun k hk => ?_, fun k hk => ?_⟩
  · obtain rfl := Option.some.inj (hlast.symm.trans hy)
    rfl
  · rw [hkey] at hk
    cases hk
  · rw [hkey] at hk
    cases hk

/-- The same two; the pause is delivered again, and the stream is paused once more. -/
theorem pause_redelivered :
    let db := Sample.tables [Sample.paused, Sample.resumed]
    [Sample.paused, Sample.resumed].foldlM foldEvent .fresh = .ok db ∧
      (db.streamStates "1").map (·.paused) = some false ∧
      ∃ db', foldEvent db Sample.paused = .ok db' ∧
        (db'.streamStates "1").map (·.paused) = some true ∧ db' ≠ db := by
  intro db
  have hfold : [Sample.paused, Sample.resumed].foldlM foldEvent .fresh = .ok db :=
    Sample.foldlM_tables (by decide +kernel)
  have hagain : [Sample.paused, Sample.resumed, Sample.paused].foldlM foldEvent .fresh =
      .ok (Sample.tables [Sample.paused, Sample.resumed, Sample.paused]) :=
    Sample.foldlM_tables (by decide +kernel)
  have hbefore : (db.streamStates "1").map (·.paused) = some false := by decide +kernel
  have hafter : ((Sample.tables [Sample.paused, Sample.resumed, Sample.paused]).streamStates "1").map
      (·.paused) = some true := by decide +kernel
  refine ⟨hfold, hbefore, _, ?_, hafter, fun heq => ?_⟩
  · have hsplit : [Sample.paused, Sample.resumed, Sample.paused] =
        [Sample.paused, Sample.resumed] ++ [Sample.paused] := rfl
    rw [hsplit, List.foldlM_append, bind_eq_ok] at hagain
    obtain ⟨db₁, hdb₁, hagain⟩ := hagain
    obtain rfl := Except.ok.inj (hfold.symm.trans hdb₁)
    rw [List.foldlM_cons, bind_eq_ok] at hagain
    obtain ⟨db₂, hdb₂, hrest⟩ := hagain
    cases hrest
    exact hdb₂
  · rw [heq, hbefore] at hafter
    cases hafter

end Drip.Indexer
