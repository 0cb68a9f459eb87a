import Drip.Stream.Lifecycle
import Drip.Indexer.Decoding
import Drip.Indexer.Marks

/-!
# Indexer — Projection

A stream, and the row of `stream_states` that its events are folded into.  A `View` holds both; a delivery
is a step of the stream with all its events folded in order, or the fold of some other stream's event.

* `Mirrors`: the flags and the recipient of the row are those of the stream.
* `mirrors_of_marked`: an event told right keeps the row in agreement.
* `Tracked`: the deliveries that `foldEvent` tells right; `mirrors_iff`: these and no others keep the row in
  agreement.
* `projected_of_run`: so it is along every run.
-/

namespace Drip.Indexer
open Chain

variable {d : Decoder} {here : Address} {db db' : Database} {ev : RawEvent} {row new : StreamState}
variable {info info' : Stream.StreamInfo} {T T' : Prop} {stored : Option StreamState}

/-! ### The events of a page -/

/-- The event, as `foldEvent` receives it from the ledger and the transaction. -/
def Decoder.delivered (d : Decoder) (here : Address) (ledger : U32) (txHash : String) (p : Stream.Published) :
    RawEvent := d.raw ⟨here, ledger, txHash, p⟩

variable {ledger : U32} {txHash : String} {p : Stream.Published} {ps : List Stream.Published}

theorem streamId_delivered : (d.delivered here ledger txHash p).streamId = d.text here := d.streamId_raw _

theorem ofStream_of_quiet (h : p.event.IsQuiet = true) : ¬ (d.delivered here ledger txHash p).OfStream := by
  obtain ⟨n, e⟩ := p
  unfold RawEvent.OfStream
  cases e with
  | withdrawn | cancelled | forceCancelled | paused | resumed | toppedUp | clawback | recipientTransferred =>
      cases h
  | _ => exact of_decide_eq_false rfl

/-- Events that are not folded into rows leave them alone. -/
theorem rows_of_silent (hsilent : ∀ p ∈ ps, ¬ (d.delivered here ledger txHash p).OfStream)
    (h : (ps.map (d.delivered here ledger txHash)).foldlM foldEvent db = .ok db') :
    db'.streamStates = db.streamStates := by
  induction ps generalizing db with
  | nil =>
      cases h
      rfl
  | cons p ps ih =>
      rw [List.map_cons, List.foldlM_cons, bind_eq_ok] at h
      obtain ⟨db₁, hfold, h⟩ := h
      have hsame := (effect_of_fold hfold).rows (hsilent p List.mem_cons_self)
      rw [ih (fun q hq => hsilent q (List.mem_cons_of_mem p hq)) h, hsame]

/-- An event of the stream, and quiet ones after it. -/
theorem row_of_loud (hstream : (d.delivered here ledger txHash p).OfStream)
    (hquiet : ∀ q ∈ ps, q.event.IsQuiet = true)
    (h : ((p :: ps).map (d.delivered here ledger txHash)).foldlM foldEvent db = .ok db') :
    ∃ new, db'.streamStates (d.text here) = some new ∧
      Marked (d.delivered here ledger txHash p) (db.streamStates (d.text here)) new := by
  rw [List.map_cons, List.foldlM_cons, bind_eq_ok] at h
  obtain ⟨db₁, hfold, h⟩ := h
  obtain ⟨new, hnew, -, hmarked⟩ := row_of_stream hfold hstream
  rw [streamId_delivered] at hnew hmarked
  refine ⟨new, ?_, hmarked⟩
  rw [rows_of_silent (fun q hq => ofStream_of_quiet (hquiet q hq)) h, hnew, Function.update_self]

/-! ### Agreement -/

/-- The row's flags are the stream's; the flag `paused` while it is not cancelled, and so is the recipient
once it has been transferred. -/
structure Mirrors (d : Decoder) (info : Stream.StreamInfo) (transferred : Prop) (row : StreamState) : Prop where
  cancelled : row.cancelled = info.isCancelled
  paused : info.isCancelled = false → row.paused = info.isPaused
  recipient : info.isCancelled = false → transferred → row.recipient = d.text info.recipient

/-- A stream without a row is as it was born. -/
structure Unseen (info : Stream.StreamInfo) (transferred : Prop) : Prop where
  live : info.isCancelled = false
  running : info.isPaused = false
  untransferred : ¬ transferred

/-- An event that is told right: the flags it sets are those the call has set, and it names the recipient
where the call has set one. -/
structure ToldRight (d : Decoder) (ev : RawEvent) (stored : Option StreamState) (info info' : Stream.StreamInfo)
    (T T' : Prop) : Prop where
  cancelled : ev.cancels = info'.isCancelled
  paused : info'.isCancelled = false → info'.isPaused = ev.toggle.getD info.isPaused
  kept : ev.eventType ≠ "xfer_rec" → (T' → T) ∧ info'.recipient = info.recipient
  named : ev.eventType = "xfer_rec" → ev.payee = d.text info'.recipient ∧
    ∀ old, stored = some old → old.updatedLedger.val < ev.ledger.val ∨ old.recipient = ev.payee

theorem mirrors_of_marked (hmarked : Marked ev stored new) (htold : ToldRight d ev stored info info' T T')
    (hlive : info.isCancelled = false) (hrow : ∀ old, stored = some old → Mirrors d info T old)
    (hnone : stored = none → Unseen info T) : Mirrors d info' T' new := by
  cases hmarked with
  | created hcancelled hpaused hrecipient =>
      have hunseen := hnone rfl
      refine ⟨hcancelled.trans htold.cancelled, fun hx => ?_, fun hx ht => ?_⟩
      · rw [hpaused, htold.paused hx, hunseen.running]
      · by_cases hkind : ev.eventType = "xfer_rec"
        · rw [hrecipient, (htold.named hkind).1]
        · exact absurd ((htold.kept hkind).1 ht) hunseen.untransferred
  | merged hcancelled hpaused hrecipient hframe =>
      rename_i old
      have hold := hrow old rfl
      refine ⟨?_, fun hx => ?_, fun hx ht => ?_⟩
      · rw [hcancelled, hold.cancelled, hlive, Bool.false_or, htold.cancelled]
      · rw [hpaused, htold.paused hx, hold.paused hlive]
      · rw [hrecipient]
        by_cases hkind : ev.eventType = "xfer_rec"
        · obtain ⟨hpayee, hseen⟩ := htold.named hkind
          by_cases hlt : old.updatedLedger.val < ev.ledger.val
          · rw [if_pos ⟨hkind, hlt⟩, hpayee]
          · rw [if_neg fun h => hlt h.2, (hseen old rfl).resolve_left hlt, hpayee]
        · obtain ⟨hback, hsame⟩ := htold.kept hkind
          rw [if_neg fun h => hkind h.1, hold.recipient hlive (hback ht), hsame]

/-- A row that agrees after a transfer had not seen the ledger, or had the recipient. -/
theorem named_of_mirrors (hmarked : Marked ev stored new) (hpayee : ev.payee = d.text info'.recipient)
    (hlive : info'.isCancelled = false) (ht : T') (h : Mirrors d info' T' new) {old : StreamState}
    (hold : stored = some old) :
    old.updatedLedger.val < ev.ledger.val ∨ old.recipient = ev.payee := by
  subst hold
  cases hmarked with
  | merged _ _ hrecipient _ =>
      by_cases hlt : old.updatedLedger.val < ev.ledger.val
      · exact .inl hlt
      · rw [if_neg fun h => hlt h.2] at hrecipient
        exact .inr (by rw [← hrecipient, h.recipient hlive ht, hpayee])

/-! ### Calls -/

/-- A clawback is taken for the end of the stream, and a forced cancellation is not known. -/
def isMisread : Stream.Call → Bool
  | .clawback _ | .forceCancel => true
  | _ => false

def newRecipient : Stream.Call → Option Address
  | .transferRecipient r => some r
  | _ => none

/-- The calls that `foldEvent` tells right: none that is misread, and no new recipient in a ledger that the
row has seen. -/
structure CallTracked (d : Decoder) (c : Stream.Call) (ledger : U32) (stored : Option StreamState) : Prop where
  read : isMisread c = false
  unseen : ∀ r ∈ newRecipient c, ∀ row ∈ stored, row.updatedLedger.val < ledger.val ∨ row.recipient = d.text r

instance {c : Stream.Call} : Decidable (CallTracked d c ledger stored) :=
  decidable_of_iff (isMisread c = false ∧ ∀ r ∈ newRecipient c, ∀ row ∈ stored,
      row.updatedLedger.val < ledger.val ∨ row.recipient = d.text r)
    ⟨fun h => ⟨h.1, h.2⟩, fun h => ⟨h.read, h.unseen⟩⟩

theorem tracked_of_quiet {c : Stream.Call} (hc : c.IsLoud = false) : CallTracked d c ledger stored := by
  cases c with
  | clawback | forceCancel | transferRecipient => cases hc
  | _ => exact ⟨rfl, nofun⟩

/-- An event that names no recipient. -/
theorem told_of_flags (hkind : ev.eventType ≠ "xfer_rec") (hc : info'.isCancelled = ev.cancels)
    (hp : info'.isCancelled = false → info'.isPaused = ev.toggle.getD info.isPaused)
    (hr : info'.recipient = info.recipient) (ht : T' → T) : ToldRight d ev stored info info' T T' where
  cancelled := hc.symm
  paused := hp
  kept := fun _ => ⟨ht, hr⟩
  named := fun h => absurd h hkind

/-- An event that sets no flag either. -/
theorem told_of_plain (hplain : ev.cancels = false ∧ ev.toggle = none ∧ ev.eventType ≠ "xfer_rec")
    (hlive : info.isCancelled = false) (hmoved : Stream.Unaltered info info') (ht : T' → T) :
    ToldRight d ev stored info info' T T' := by
  refine told_of_flags hplain.2.2 ?_ (fun _ => ?_) hmoved.recipient ht
  · rw [hplain.1, hmoved.cancelled, hlive]
  · rw [hplain.2.1, hmoved.paused]
    rfl

variable {c : Stream.Call} {es : List Stream.Event}

/-- A recipient has been named among the events. -/
def Transfers (es : List Stream.Event) : Prop := ∃ old r, Stream.Event.recipientTransferred old r ∈ es

theorem not_transfers_of_quiet (h : ∀ e ∈ es, e.IsQuiet = true) : ¬ Transfers es := by
  rintro ⟨old, r, he⟩
  cases h _ he

theorem transfers_append {es' : List Stream.Event} : Transfers (es ++ es') ↔ Transfers es ∨ Transfers es' := by
  simp only [Transfers, List.mem_append, exists_or]

theorem cancelled_of_marked (hmarked : Marked ev stored new) (h : ev.cancels = true) : new.cancelled = true := by
  cases hmarked with
  | created hcancelled _ _ => rw [hcancelled, h]
  | merged hcancelled _ _ _ => rw [hcancelled, h, Bool.or_true]

theorem payee_transferred {n : U64} {old r : Address} :
    (d.delivered here ledger txHash ⟨n, .recipientTransferred old r⟩).payee = d.text r := by
  unfold RawEvent.payee RawEvent.text₂ RawEvent.get
  refine (if_pos (of_decide_eq_true rfl)).trans ?_
  show (((d.fields ⟨n, .recipientTransferred old r⟩).lookup "new_recipient").getD .null |>.or _).text = _
  rw [d.newRecipient]
  rfl

/-- A forced cancellation is not folded. -/
theorem rows_of_forced {sender : Address} {refund total rest : I128}
    (hes : ps.map Stream.Published.event = [.forceCancelled sender refund total rest])
    (h : (ps.map (d.delivered here ledger txHash)).foldlM foldEvent db = .ok db') :
    db'.streamStates = db.streamStates := by
  refine rows_of_silent (fun p hp => ?_) h
  have he : p.event ∈ ps.map Stream.Published.event := List.mem_map_of_mem hp
  rw [hes, List.mem_singleton] at he
  obtain ⟨n, e⟩ := p
  subst he
  exact of_decide_eq_false rfl

/-- A page that begins with an event of the stream. -/
theorem exists_row {e : Stream.Event} {rest : List Stream.Event}
    (hes : ps.map Stream.Published.event = e :: rest) (hrest : ∀ e ∈ rest, e.IsQuiet = true)
    (hstream : ∀ n, (d.delivered here ledger txHash ⟨n, e⟩).OfStream)
    (h : (ps.map (d.delivered here ledger txHash)).foldlM foldEvent db = .ok db') :
    ∃ n new, db'.streamStates (d.text here) = some new ∧
      Marked (d.delivered here ledger txHash ⟨n, e⟩) (db.streamStates (d.text here)) new := by
  obtain ⟨p, ps', rfl, rfl, rfl⟩ := List.map_eq_cons_iff.mp hes
  exact ⟨p.sequence, row_of_loud (hstream p.sequence) (fun q hq => hrest _ (List.mem_map_of_mem hq)) h⟩

theorem mirrors_of_loud {e : Stream.Event} {rest : List Stream.Event}
    (hrow : ∀ old, db.streamStates (d.text here) = some old → Mirrors d info T old)
    (hnone : db.streamStates (d.text here) = none → Unseen info T) (hlive : info.isCancelled = false)
    (hes : ps.map Stream.Published.event = e :: rest) (hrest : ∀ e ∈ rest, e.IsQuiet = true)
    (h : (ps.map (d.delivered here ledger txHash)).foldlM foldEvent db = .ok db')
    (hstream : ∀ n, (d.delivered here ledger txHash ⟨n, e⟩).OfStream)
    (htold : ∀ n, ToldRight d (d.delivered here ledger txHash ⟨n, e⟩) (db.streamStates (d.text here)) info info'
      T T') : ∀ new, db'.streamStates (d.text here) = some new → Mirrors d info' T' new := by
  intro new hnew
  obtain ⟨n, new', hnew', hmarked⟩ := exists_row hes hrest hstream h
  obtain rfl := Option.some.inj (hnew.symm.trans hnew')
  exact mirrors_of_marked hmarked (htold n) hlive hrow hnone

/-- A call keeps the row in agreement exactly where it is told right. -/
theorem mirrors_iff (hrow : ∀ old, db.streamStates (d.text here) = some old → Mirrors d info T old)
    (hnone : db.streamStates (d.text here) = none → Unseen info T) (hturn : Stream.Turn info info' c es)
    (hlive : c.IsLoud = true → info.isCancelled = false) (hes : ps.map Stream.Published.event = es)
    (hT : T' ↔ T ∨ Transfers es)
    (h : (ps.map (d.delivered here ledger txHash)).foldlM foldEvent db = .ok db') :
    (∀ new, db'.streamStates (d.text here) = some new → Mirrors d info' T' new) ↔
      CallTracked d c ledger (db.streamStates (d.text here)) := by
  have hback (hquiet : ¬ Transfers es) (ht : T') : T := (hT.mp ht).resolve_right hquiet
  -- a call that publishes one event
  have hsingle {e : Stream.Event} (hes : ps.map Stream.Published.event = [e])
      (hstream : ∀ n, (d.delivered here ledger txHash ⟨n, e⟩).OfStream) (hlive : info.isCancelled = false)
      (htold : ∀ n, ToldRight d (d.delivered here ledger txHash ⟨n, e⟩) (db.streamStates (d.text here)) info
        info' T T') : ∀ new, db'.streamStates (d.text here) = some new → Mirrors d info' T' new :=
    mirrors_of_loud hrow hnone hlive hes (List.forall_mem_nil _) h hstream htold
  cases hturn with
  | quiet hc hquiet hmoved =>
      refine iff_of_true (fun new hnew => ?_) (tracked_of_quiet hc)
      rw [rows_of_silent (fun p hp => ofStream_of_quiet (hquiet _ (hes ▸ List.mem_map_of_mem hp))) h] at hnew
      obtain ⟨hcancelled, hpaused, hrecipient⟩ := hrow new hnew
      have ht := hback (not_transfers_of_quiet hquiet)
      refine ⟨by rw [hcancelled, hmoved.cancelled], fun hx => ?_, fun hx ht' => ?_⟩
      · rw [hmoved.cancelled] at hx
        rw [hpaused hx, hmoved.paused]
      · rw [hmoved.cancelled] at hx
        rw [hrecipient hx (ht ht'), hmoved.recipient]
  | withdraw hrest hmoved =>
      refine iff_of_true ?_ ⟨rfl, nofun⟩
      refine mirrors_of_loud hrow hnone (hlive rfl) hes hrest h (fun n => of_decide_eq_true rfl) fun n => ?_
      refine told_of_plain ⟨rfl, rfl, of_decide_eq_true rfl⟩ (hlive rfl) hmoved (hback ?_)
      rintro ⟨old, r, he⟩
      rcases List.mem_cons.mp he with he | he
      · cases he
      · exact not_transfers_of_quiet hrest ⟨old, r, he⟩
  | topUp hmoved =>
      refine iff_of_true (hsingle hes (fun n => of_decide_eq_true rfl) (hlive rfl) fun n => ?_) ⟨rfl, nofun⟩
      refine told_of_plain ⟨rfl, rfl, of_decide_eq_true rfl⟩ (hlive rfl) hmoved (hback ?_)
      simp [Transfers]
  | extendDuration hmoved =>
      refine iff_of_true (hsingle hes (fun n => of_decide_eq_true rfl) (hlive rfl) fun n => ?_) ⟨rfl, nofun⟩
      refine told_of_plain ⟨rfl, rfl, of_decide_eq_true rfl⟩ (hlive rfl) hmoved (hback ?_)
      simp [Transfers]
  | pause hc hp hr =>
      refine iff_of_true (hsingle hes (fun n => of_decide_eq_true rfl) (hlive rfl) fun n => ?_) ⟨rfl, nofun⟩
      refine told_of_flags (of_decide_eq_true rfl) (hc.trans (hlive rfl)) (fun _ => hp) hr (hback ?_)
      simp [Transfers]
  | resume hc hp hr =>
      refine iff_of_true (hsingle hes (fun n => of_decide_eq_true rfl) (hlive rfl) fun n => ?_) ⟨rfl, nofun⟩
      refine told_of_flags (of_decide_eq_true rfl) (hc.trans (hlive rfl)) (fun _ => hp) hr (hback ?_)
      simp [Transfers]
  | cancel hc hr =>
      refine iff_of_true (hsingle hes (fun n => of_decide_eq_true rfl) (hlive rfl) fun n => ?_) ⟨rfl, nofun⟩
      refine told_of_flags (of_decide_eq_true rfl) hc (fun hx => ?_) hr (hback ?_)
      · cases hc.symm.trans hx
      · simp [Transfers]
  | forceCancel hpaused hc hr =>
      -- the event is not folded, and the row of a paused stream is there
      refine iff_of_false (fun hall => ?_) fun h => by cases h.read
      have hsame := rows_of_forced hes h
      cases hold : db.streamStates (d.text here) with
      | none =>
          rw [(hnone hold).running] at hpaused
          cases hpaused
      | some old =>
          have hcancelled := (hall old (by rw [hsame, hold])).cancelled
          rw [hc, (hrow old hold).cancelled, hlive rfl] at hcancelled
          cases hcancelled
  | clawback hmoved =>
      refine iff_of_false (fun hall => ?_) fun h => by cases h.read
      obtain ⟨n, new, hnew, hmarked⟩ := exists_row hes (List.forall_mem_nil _) (fun n => of_decide_eq_true rfl) h
      have hcancelled := (hall new hnew).cancelled
      rw [hmoved.cancelled, hlive rfl, cancelled_of_marked hmarked rfl] at hcancelled
      cases hcancelled
  | transferRecipient hc hp hr =>
      rename_i r old
      have hlive := hlive rfl
      have ht : T' := hT.mpr (.inr ⟨_, _, List.mem_singleton_self _⟩)
      have hpayee : ∀ n, (d.delivered here ledger txHash ⟨n, .recipientTransferred old r⟩).payee =
          d.text info'.recipient := fun n => by rw [hr]; exact payee_transferred
      constructor
      · intro hall
        refine ⟨rfl, fun r' hr' old hold => ?_⟩
        obtain rfl := Option.some.inj hr'
        obtain ⟨n, new, hnew, hmarked⟩ := exists_row hes (List.forall_mem_nil _)
          (fun n => of_decide_eq_true rfl) h
        have hseen := named_of_mirrors hmarked (hpayee n) (hc.trans hlive) ht (hall new hnew) hold
        rw [hpayee n, hr] at hseen
        exact hseen
      · intro htracked
        refine hsingle hes (fun n => of_decide_eq_true rfl) hlive fun n => ?_
        exact {
          cancelled := (hc.trans hlive).symm
          paused := fun _ => hp
          kept := fun hkind => absurd rfl hkind
          named := fun _ => ⟨hpayee n, fun old hold => by
            rw [hpayee n, hr]
            exact htracked.unseen r rfl old hold⟩ }

/-- A stream that has no row after the call is as it was born. -/
theorem unseen_of_turn (hnone : db.streamStates (d.text here) = none → Unseen info T)
    (hturn : Stream.Turn info info' c es) (hes : ps.map Stream.Published.event = es)
    (hT : T' ↔ T ∨ Transfers es)
    (h : (ps.map (d.delivered here ledger txHash)).foldlM foldEvent db = .ok db')
    (hnone' : db'.streamStates (d.text here) = none) : Unseen info' T' := by
  have hseen {e : Stream.Event} {rest : List Stream.Event} (hes : ps.map Stream.Published.event = e :: rest)
      (hrest : ∀ e ∈ rest, e.IsQuiet = true)
      (hstream : ∀ n, (d.delivered here ledger txHash ⟨n, e⟩).OfStream) : False := by
    obtain ⟨n, new, hnew, -⟩ := exists_row hes hrest hstream h
    rw [hnew] at hnone'
    cases hnone'
  cases hturn with
  | quiet hc hquiet hmoved =>
      rw [rows_of_silent (fun p hp => ofStream_of_quiet (hquiet _ (hes ▸ List.mem_map_of_mem hp))) h] at hnone'
      obtain ⟨hlive, hrunning, ht⟩ := hnone hnone'
      refine ⟨hmoved.cancelled.trans hlive, hmoved.paused.trans hrunning, fun ht' => ?_⟩
      exact (hT.mp ht').elim ht (not_transfers_of_quiet hquiet)
  | forceCancel hpaused hc hr =>
      rw [rows_of_forced hes h] at hnone'
      rw [(hnone hnone').running] at hpaused
      cases hpaused
  | withdraw hrest hmoved => exact (hseen hes hrest fun n => of_decide_eq_true rfl).elim
  | topUp | extendDuration | pause | resume | cancel | clawback | transferRecipient =>
      exact (hseen hes (List.forall_mem_nil _) fun n => of_decide_eq_true rfl).elim

/-! ### Runs -/

/-- A stream, and the tables its events are folded into. -/
structure View where
  moment : Stream.Moment
  db : Database

inductive Delivery where
  /-- a step of the stream, whose events are recorded in the ledger and the transaction -/
  | stream (a : Stream.Action) (ledger : U32) (txHash : String)
  /-- an event of another stream, or of no stream -/
  | other (ev : RawEvent)

inductive Follow (d : Decoder) (here : Address) : View → Delivery → View → Prop where
  | stream {v : View} {a : Stream.Action} {m : Stream.Moment} {ledger : U32} {txHash : String}
      {ps : List Stream.Published} {db : Database} (hstep : Stream.Step here v.moment a m)
      (hnew : m.state.events = v.moment.state.events ++ ps)
      (hfold : (ps.map (d.delivered here ledger txHash)).foldlM foldEvent v.db = .ok db) :
      Follow d here v (.stream a ledger txHash) ⟨m, db⟩
  | other {v : View} {ev : RawEvent} {db : Database} (hother : ev.streamId ≠ d.text here)
      (hfold : foldEvent v.db ev = .ok db) : Follow d here v (.other ev) ⟨v.moment, db⟩

/-- The row of the stream, where there is one, agrees with it. -/
def Projected (d : Decoder) (here : Address) (v : View) : Prop :=
  ∃ info, v.moment.state.store.config = some info ∧ ∀ row, v.db.streamStates (d.text here) = some row →
    Mirrors d info (Transfers v.moment.state.log) row

/-- The deliveries that `foldEvent` tells right. -/
def Tracked (d : Decoder) (here : Address) (v : View) : Delivery → Prop
  | .stream (.call _ c) ledger _ => CallTracked d c ledger (v.db.streamStates (d.text here))
  | _ => True

instance {v : View} : DecidablePred (Tracked d here v)
  | .stream (.call ..) .. => inferInstanceAs (Decidable (CallTracked ..))
  | .stream (.outside _) .. | .other _ => .isTrue trivial

/-- What every run keeps, told right or not. -/
def Followed (d : Decoder) (here : Address) (v : View) : Prop :=
  ∃ info, Stream.Sound here v.moment.state info v.moment.clock.val ∧
    (v.db.streamStates (d.text here) = none → Unseen info (Transfers v.moment.state.log))

variable {v v' v₀ : View} {l : Delivery} {ls : List Delivery} {args : Stream.InitArgs}

/-- A delivery that leaves the stream as it is, and its row. -/
theorem follow_other (h : Follow d here v (.other ev) v') :
    v'.moment = v.moment ∧ v'.db.streamStates (d.text here) = v.db.streamStates (d.text here) := by
  cases h with
  | other hother hfold =>
      refine ⟨rfl, ?_⟩
      have he := effect_of_fold hfold
      by_cases hstream : ev.OfStream
      · obtain ⟨new, hnew, -⟩ := he.row hstream
        show _ = _
        rw [hnew, Function.update_of_ne (Ne.symm hother)]
      · rw [he.rows hstream]

theorem follow_outside {tokens : Ledger}
    (h : Follow d here v (.stream (.outside tokens) ledger txHash) v') :
    v'.moment.state = { v.moment.state with tokens := tokens } ∧ v'.moment.clock = v.moment.clock ∧
      v'.db = v.db := by
  cases h with
  | stream hstep hnew hfold =>
      cases hstep with
      | outside hle =>
          obtain rfl := List.append_right_eq_self.mp hnew.symm
          cases hfold
          exact ⟨rfl, rfl, rfl⟩

/-- A call, as the two sides see it. -/
theorem follow_call {env : Env} (hs : Stream.Sound here v.moment.state info v.moment.clock.val)
    (h : Follow d here v (.stream (.call env c) ledger txHash) v') :
    ∃ (info' : Stream.StreamInfo) (ps : List Stream.Published) (es : List Stream.Event),
      Stream.Sound here v'.moment.state info' v'.moment.clock.val ∧ Stream.Turn info info' c es ∧
      (c.IsLoud = true → info.isCancelled = false) ∧ ps.map Stream.Published.event = es ∧
      (Transfers v'.moment.state.log ↔ Transfers v.moment.state.log ∨ Transfers es) ∧
      (ps.map (d.delivered here ledger txHash)).foldlM foldEvent v.db = .ok v'.db := by
  cases h with
  | stream hstep hnew hfold =>
      rename_i m ps db
      obtain ⟨info', hs', -⟩ := hs.run ((Run.nil _).snoc hstep)
      cases hstep with
      | call henv hclock hexec =>
          obtain ⟨info₁, es, hconfig, hlog, hturn, hlive⟩ :=
            Stream.turn_of_exec hs.config hs.withdrawn_nonneg hexec
          obtain rfl := Option.some.inj (hs'.config.symm.trans hconfig)
          have hes : ps.map Stream.Published.event = es := by
            have hboth := congrArg (List.map Stream.Published.event) hnew
            rw [List.map_append] at hboth
            exact List.append_cancel_left (hboth.symm.trans hlog)
          exact ⟨info', ps, es, hs', hturn, hlive, hes, by rw [hlog, transfers_append], hfold⟩

theorem Followed.step (hstep : Follow d here v l v') (h : Followed d here v) : Followed d here v' := by
  obtain ⟨info, hs, hnone⟩ := h
  cases l with
  | other ev =>
      obtain ⟨hmoment, hrow⟩ := follow_other hstep
      refine ⟨info, by rw [hmoment]; exact hs, ?_⟩
      rw [hrow, hmoment]
      exact hnone
  | stream a ledger txHash =>
      cases a with
      | outside tokens =>
          obtain ⟨hstate, hclock, hdb⟩ := follow_outside hstep
          refine ⟨info, by rw [hstate, hclock]; exact hs.outside, ?_⟩
          rw [hdb, hstate]
          exact hnone
      | call env c =>
          obtain ⟨info', ps, es, hs', hturn, -, hes, hT, hfold⟩ := follow_call hs hstep
          exact ⟨info', hs', unseen_of_turn hnone hturn hes hT hfold⟩

theorem projected_iff (hstep : Follow d here v l v') (hf : Followed d here v) (hp : Projected d here v) :
    Projected d here v' ↔ Tracked d here v l := by
  obtain ⟨info, hs, hnone⟩ := hf
  obtain ⟨info₁, hi, hrow⟩ := hp
  obtain rfl := Option.some.inj (hi.symm.trans hs.config)
  cases l with
  | other ev =>
      obtain ⟨hmoment, hsame⟩ := follow_other hstep
      refine iff_of_true ⟨_, by rw [hmoment]; exact hi, ?_⟩ trivial
      rw [hsame, hmoment]
      exact hrow
  | stream a ledger txHash =>
      cases a with
      | outside tokens =>
          obtain ⟨hstate, hclock, hdb⟩ := follow_outside hstep
          refine iff_of_true ⟨_, by rw [hstate]; exact hi, ?_⟩ trivial
          rw [hdb, hstate]
          exact hrow
      | call env c =>
          obtain ⟨info', ps, es, hs', hturn, hlive, hes, hT, hfold⟩ := follow_call hs hstep
          have hiff := mirrors_iff hrow hnone hturn hlive hes hT hfold
          refine Iff.trans ⟨?_, fun hall => ⟨info', hs'.config, hall⟩⟩ hiff
          rintro ⟨info₂, hi₂, hall⟩
          obtain rfl := Option.some.inj (hi₂.symm.trans hs'.config)
          exact hall

/-- **Where the projection is faithful.**  From a new stream without a row, the runs in which the row agrees
with the stream after every delivery are exactly those whose deliveries are all told right. -/
theorem projected_of_run (hborn : Stream.Born here args v₀.moment)
    (hnone : v₀.db.streamStates (d.text here) = none) :
    (Run (fun v l v' => Follow d here v l v' ∧ Projected d here v') v₀ ls v ↔
      Run (fun v l v' => Follow d here v l v' ∧ Tracked d here v l) v₀ ls v) ∧
    (Run (fun v l v' => Follow d here v l v' ∧ Tracked d here v l) v₀ ls v → Projected d here v) := by
  have hs := Stream.sound_of_born hborn
  refine Run.keeps_spec (Q := Followed d here) (fun v l v' hstep => Followed.step hstep)
    (fun v l v' hstep => projected_iff hstep) ⟨_, hs, fun _ => ?_⟩ ⟨_, hs.config, fun row hrow => ?_⟩
  · refine ⟨Stream.initialInfo_not_cancelled args, Stream.initialInfo_not_paused args, ?_⟩
    rw [(Stream.log_of_born hborn).1]
    simp [Transfers]
  · rw [hnone] at hrow
    cases hrow

namespace Sample

/-- A call of the sample stream, and the fold of what it publishes. -/
def follow (v : View) : Delivery → Option View
  | .stream (.call env c) ledger txHash =>
      if env.contract = Stream.Sample.address ∧ v.moment.clock.val ≤ env.timestamp.val then
        match Stream.exec env v.moment.state c with
        | .ok s =>
            let ps := s.events.drop v.moment.state.events.length
            if s.events = v.moment.state.events ++ ps then
              match (ps.map (decoder.delivered Stream.Sample.address ledger txHash)).foldlM foldEvent v.db with
              | .ok db => some ⟨⟨s, env.timestamp⟩, db⟩
              | .error _ => none
            else none
        | .error _ => none
      else none
  | _ => none

theorem follow_of_eq_some {v v' : View} {l : Delivery} (h : follow v l = some v') :
    Follow decoder Stream.Sample.address v l v' := by
  unfold follow at h
  split at h
  · split at h
    · rename_i hat
      split at h
      · rename_i hexec
        dsimp only at h
        split at h
        · rename_i hnew
          split at h
          · rename_i hfold
            cases h
            exact .stream (.call hat.1 hat.2 hexec) hnew hfold
          · cases h
        · cases h
      · cases h
    · cases h
  · cases h

/-- The same, of deliveries that are told right. -/
def track (v : View) (l : Delivery) : Option View :=
  if Tracked decoder Stream.Sample.address v l then follow v l else none

theorem track_of_eq_some {v v' : View} {l : Delivery} (h : track v l = some v') :
    Follow decoder Stream.Sample.address v l v' ∧ Tracked decoder Stream.Sample.address v l := by
  unfold track at h
  split at h
  · rename_i htold
    exact ⟨follow_of_eq_some h, htold⟩
  · cases h

/-- The sample stream before its first call. -/
def unfollowed : View := ⟨Stream.Sample.born Stream.Sample.args, .fresh⟩

theorem born_unfollowed : Stream.Born Stream.Sample.address Stream.Sample.args unfollowed.moment :=
  Stream.Sample.born_of_initialize (by decide +kernel)

/-- A call at the time, recorded in the ledger. -/
def made (t : U64) (c : Stream.Call) (ledger : U32) (txHash : String) : Delivery :=
  .stream (.call (Stream.Sample.envAt t) c) ledger txHash

/-- What the row says, and what the stream says: cancelled, paused, and the recipient. -/
def sides (v : View) : Option (Bool × Bool × String) × Option (Bool × Bool × String) :=
  ((v.db.streamStates (text Stream.Sample.address)).map fun row => (row.cancelled, row.paused, row.recipient),
    v.moment.state.store.config.map fun info => (info.isCancelled, info.isPaused, text info.recipient))

end Sample

/-- A top-up, a pause, a new recipient and a resumption, each in a ledger of its own. -/
theorem projected_of_run_resumed :
    let v := Run.reached Sample.track Sample.unfollowed
      [Sample.made (.lit 200) (.topUp Stream.Sample.sender (.lit 500)) (.lit 1) "a",
        Sample.made (.lit 300) (.pause Stream.Sample.sender) (.lit 2) "b",
        Sample.made (.lit 310) (.transferRecipient (.account 3)) (.lit 3) "c",
        Sample.made (.lit 320) (.resume Stream.Sample.sender) (.lit 4) "d"]
    Projected Sample.decoder Stream.Sample.address v ∧
      Sample.sides v = (some (false, false, "G3"), some (false, false, "G3")) := by
  intro v
  have hrun : Run (fun v l v' => Follow Sample.decoder Stream.Sample.address v l v' ∧
      Tracked Sample.decoder Stream.Sample.address v l) Sample.unfollowed _ v :=
    Run.run_reached (fun _ => Sample.track_of_eq_some) (by decide +kernel)
  exact ⟨(projected_of_run Sample.born_unfollowed rfl).2 hrun, by decide +kernel⟩

/-- After a clawback the row is cancelled and the stream is not; after a forced cancellation it is the other
way round; and a new recipient in the ledger of the call before is passed over. -/
theorem misread_deliveries :
    let clawed := [Sample.made (.lit 600) (.clawback Stream.Sample.sender) (.lit 1) "a"]
    let forced := [Sample.made (.lit 300) (.pause Stream.Sample.sender) (.lit 1) "a",
      Sample.made (.lit 1400) .forceCancel (.lit 2) "b"]
    let moved := [Sample.made (.lit 300) (.topUp Stream.Sample.sender (.lit 500)) (.lit 1) "a",
      Sample.made (.lit 300) (.transferRecipient (.account 3)) (.lit 1) "b"]
    (∀ ls ∈ [clawed, forced, moved], Run (Follow Sample.decoder Stream.Sample.address) Sample.unfollowed ls
      (Run.reached Sample.follow Sample.unfollowed ls)) ∧
    Sample.sides (Run.reached Sample.follow Sample.unfollowed clawed) =
      (some (true, false, ""), some (false, false, "G2")) ∧
    Sample.sides (Run.reached Sample.follow Sample.unfollowed forced) =
      (some (false, true, ""), some (true, true, "G2")) ∧
    Sample.sides (Run.reached Sample.follow Sample.unfollowed moved) =
      (some (false, false, ""), some (false, false, "G3")) := by
  intro clawed forced moved
  refine ⟨fun ls hls => Run.run_reached (fun _ => Sample.follow_of_eq_some) ?_, by decide +kernel,
    by decide +kernel, by decide +kernel⟩
  have hall : ∀ ls ∈ [clawed, forced, moved], (ls.foldlM Sample.follow Sample.unfollowed).isSome = true := by
    decide +kernel
  exact hall ls hls

end Drip.Indexer
