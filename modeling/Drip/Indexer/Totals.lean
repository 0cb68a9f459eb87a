import Drip.Support.Runs
import Drip.Indexer.Effects

/-!
# Indexer — Totals

The totals of a stream, as its row has them and as the events have them.  `Agree` compares the row with
the rows of `stream_withdrawals` and with the events folded so far.

A row counts an amount only where its ledger is above the row's watermark, which every event of the
stream moves.  `Counts` is the condition on the events under which no amount is passed over
(`totals_of_run`).
-/

namespace Drip.Indexer
open Chain

/-- The derived tables and the events they were folded from, oldest first. -/
structure Projection where
  db : Database
  history : List RawEvent

def Projection.fresh : Projection := ⟨.fresh, []⟩

/-- One event is folded. -/
inductive Fold : Projection → RawEvent → Projection → Prop where
  | fold {p : Projection} {ev : RawEvent} {db : Database} (h : foldEvent p.db ev = .ok db) :
      Fold p ev ⟨db, p.history ++ [ev]⟩

variable {p p' : Projection} {ev : RawEvent} {db db' : Database} {s : String} {evs : List RawEvent}
variable {row : StreamState} {rows : List Withdrawal} {w : Withdrawal}

/-! ### Sums -/

/-- The events of a stream that are folded into its row. -/
def ofStream (s : String) (evs : List RawEvent) : List RawEvent :=
  evs.filter fun ev => ev.OfStream ∧ ev.streamId = s

def drawn (s : String) (evs : List RawEvent) : Int := ((ofStream s evs).map RawEvent.drawn).sum

def added (s : String) (evs : List RawEvent) : Int := ((ofStream s evs).map RawEvent.added).sum

/-- What the first event of the stream opens the deposit with. -/
def opening (s : String) (evs : List RawEvent) : Int :=
  ((ofStream s evs).head?.map RawEvent.opening).getD 0

/-- The sum of `stream_withdrawals.amount` of a stream. -/
def listed (s : String) (rows : List Withdrawal) : Int :=
  ((rows.filter fun w => w.streamId = s).map fun w => w.amount.val).sum

theorem ofStream_snoc (h : ev.OfStream) (hid : ev.streamId = s) :
    ofStream s (evs ++ [ev]) = ofStream s evs ++ [ev] := by
  simp [ofStream, h, hid]

theorem ofStream_other (h : ¬ (ev.OfStream ∧ ev.streamId = s)) :
    ofStream s (evs ++ [ev]) = ofStream s evs := by
  simp [ofStream, h]

theorem drawn_snoc (h : ev.OfStream) (hid : ev.streamId = s) :
    drawn s (evs ++ [ev]) = drawn s evs + ev.drawn := by
  simp [drawn, ofStream_snoc h hid]

theorem added_snoc (h : ev.OfStream) (hid : ev.streamId = s) :
    added s (evs ++ [ev]) = added s evs + ev.added := by
  simp [added, ofStream_snoc h hid]

theorem opening_snoc (h : ev.OfStream) (hid : ev.streamId = s) :
    opening s (evs ++ [ev]) = if ofStream s evs = [] then ev.opening else opening s evs := by
  unfold opening
  rw [ofStream_snoc h hid]
  cases ofStream s evs with
  | nil => rfl
  | cons ev' rest => rfl

theorem listed_snoc :
    listed s (rows ++ [w]) = listed s rows + if w.streamId = s then w.amount.val else 0 := by
  unfold listed
  by_cases h : w.streamId = s
  · simp [h]
  · simp [h]

/-! ### The rows -/

/-- Every stream with an event has a row, and every withdrawal a row that has seen its ledger. -/
structure Kept (p : Projection) : Prop where
  row : ∀ s, p.db.streamStates s = none ↔ ofStream s p.history = []
  listed : ∀ w ∈ p.db.streamWithdrawals, ∃ row, p.db.streamStates w.streamId = some row ∧
    w.ledger.val ≤ row.updatedLedger.val

/-- The totals of a row are those of `stream_withdrawals` and those of the events. -/
structure Agrees (p : Projection) (s : String) (row : StreamState) : Prop where
  listed : row.withdrawn.val = listed s p.db.streamWithdrawals
  withdrawn : row.withdrawn.val = drawn s p.history
  deposit : row.deposit.val = opening s p.history + added s p.history

def Agree (p : Projection) : Prop := ∀ s row, p.db.streamStates s = some row → Agrees p s row

/-- An event with an amount comes in a ledger above the watermark of its stream. -/
def Counts (p : Projection) (ev : RawEvent) : Prop :=
  ∀ row ∈ p.db.streamStates ev.streamId, ev.ledger.val ≤ row.updatedLedger.val →
    ev.drawn = 0 ∧ ev.added = 0

instance (p : Projection) (ev : RawEvent) : Decidable (Counts p ev) :=
  inferInstanceAs (Decidable (∀ row ∈ p.db.streamStates ev.streamId, _ → _))

/-! ### One event -/

/-- A withdrawal of no amount leaves the sums of `stream_withdrawals` alone. -/
theorem listed_of_zero (he : Effect db ev db') (hd : ev.drawn = 0) :
    listed s db'.streamWithdrawals = listed s db.streamWithdrawals := by
  rcases he.listed with ⟨hsame, -⟩ | ⟨w, hrows, hw⟩
  · rw [hsame]
  · rw [hrows, listed_snoc, hw.amount, hd, ite_self, add_zero]

theorem NewRow.streamId (h : NewRow db ev w) : w.streamId = ev.streamId := congrArg (·.2.2) h.key

theorem listed_of_other (he : Effect db ev db') (hne : ev.streamId ≠ s) :
    listed s db'.streamWithdrawals = listed s db.streamWithdrawals := by
  rcases he.listed with ⟨hsame, -⟩ | ⟨w, hrows, hw⟩
  · rw [hsame]
  · rw [hrows, listed_snoc, hw.streamId, if_neg hne, add_zero]

/-- The stream of a key that is there already has a row, which has seen the ledger. -/
theorem seen_of_known (hk : Kept p)
    (h : ∃ w ∈ p.db.streamWithdrawals, w.key = (ev.ledger.widen, ev.txHash, ev.streamId)) :
    ∃ row, p.db.streamStates ev.streamId = some row ∧ ev.ledger.val ≤ row.updatedLedger.val := by
  obtain ⟨w, hw, hkey⟩ := h
  have hid : w.streamId = ev.streamId := congrArg (·.2.2) hkey
  have hledger : w.ledger.val = ev.ledger.val := congrArg (·.1.val) hkey
  obtain ⟨row, hrow, hle⟩ := hk.listed w hw
  exact ⟨row, hid ▸ hrow, hledger ▸ hle⟩

/-- A withdrawal above the watermark has a key of its own. -/
theorem listed_of_newer (hk : Kept p) (he : Effect p.db ev db')
    (hrow : p.db.streamStates ev.streamId = some row) (hlt : row.updatedLedger.val < ev.ledger.val) :
    listed ev.streamId db'.streamWithdrawals =
      listed ev.streamId p.db.streamWithdrawals + ev.drawn := by
  rcases he.listed with ⟨hsame, hknown⟩ | ⟨w, hrows, hw⟩
  · -- nothing was inserted, so the event is no withdrawal: its key would be of a ledger seen before
    have hkind : ev.eventType ≠ "stream_withdrawn" := by
      intro hkind
      obtain ⟨row', hrow', hle⟩ := seen_of_known hk (hknown hkind)
      rw [hrow] at hrow'
      cases hrow'
      omega
    have hd : ev.drawn = 0 := amountOf_eq_zero hkind
    rw [hsame, hd, add_zero]
  · rw [hrows, listed_snoc, if_pos hw.streamId, hw.amount]

/-- A stream without a row has no withdrawals. -/
theorem listed_of_none (hk : Kept p) (hnone : p.db.streamStates s = none) :
    listed s p.db.streamWithdrawals = 0 := by
  have hnil : p.db.streamWithdrawals.filter (fun w => w.streamId = s) = [] := by
    refine List.filter_eq_nil_iff.mpr fun w hw hid => ?_
    obtain ⟨row, hrow, -⟩ := hk.listed w hw
    rw [of_decide_eq_true hid, hnone] at hrow
    cases hrow
  rw [listed, hnil]
  rfl

/-- The first event of a stream is no withdrawal: its row would have nothing to refer to. -/
theorem drawn_of_none (hk : Kept p) (he : Effect p.db ev db')
    (hnone : p.db.streamStates ev.streamId = none) : ev.drawn = 0 := by
  rcases he.listed with ⟨-, hknown⟩ | ⟨w, -, hw⟩
  · refine amountOf_eq_zero fun hkind => ?_
    obtain ⟨row, hrow, -⟩ := seen_of_known hk (hknown hkind)
    rw [hnone] at hrow
    cases hrow
  · exact absurd hnone hw.row

/-- The rows of the other streams. -/
theorem row_of_other (he : Effect db ev db') (hne : ¬ (ev.OfStream ∧ ev.streamId = s)) :
    db'.streamStates s = db.streamStates s := by
  by_cases hstream : ev.OfStream
  · obtain ⟨new, htable, -⟩ := he.row hstream
    rw [htable, Function.update_of_ne]
    exact fun hs => hne ⟨hstream, hs.symm⟩
  · rw [he.rows hstream]

theorem watermark_le {new : StreamState} {old : Option StreamState} (h : Merged ev old new) :
    ev.ledger.val ≤ new.updatedLedger.val ∧
      ∀ row, old = some row → row.updatedLedger.val ≤ new.updatedLedger.val := by
  cases h with
  | created hseen hwithdrawn hdeposit => exact ⟨hseen.ge, fun row hrow => by cases hrow⟩
  | merged hseen hwithdrawn hdeposit =>
      rw [hseen]
      refine ⟨le_max_right _ _, ?_⟩
      rintro row ⟨⟩
      exact le_max_left _ _

theorem kept_of_fold (hk : Kept p) (h : Fold p ev p') : Kept p' := by
  cases h with
  | fold h =>
      rename_i db'
      have he := effect_of_fold h
      constructor
      · intro s
        by_cases hs : ev.OfStream ∧ ev.streamId = s
        · obtain ⟨hstream, rfl⟩ := hs
          obtain ⟨new, htable, -⟩ := he.row hstream
          rw [htable, Function.update_self, ofStream_snoc hstream rfl]
          simp
        · rw [row_of_other he hs, ofStream_other hs]
          exact hk.row s
      · -- the row a withdrawal refers to, after the event
        have hgrown : ∀ s row, p.db.streamStates s = some row → ∃ row', db'.streamStates s = some row' ∧
            row.updatedLedger.val ≤ row'.updatedLedger.val := by
          intro s row hrow
          by_cases hs : ev.OfStream ∧ ev.streamId = s
          · obtain ⟨hstream, rfl⟩ := hs
            obtain ⟨new, htable, hmerged⟩ := he.row hstream
            exact ⟨new, by rw [htable, Function.update_self], (watermark_le hmerged).2 row hrow⟩
          · exact ⟨row, by rw [row_of_other he hs, hrow], le_rfl⟩
        have hold : ∀ w ∈ p.db.streamWithdrawals, ∃ row, db'.streamStates w.streamId = some row ∧
            w.ledger.val ≤ row.updatedLedger.val := by
          intro w hw
          obtain ⟨row, hrow, hle⟩ := hk.listed w hw
          obtain ⟨row', hrow', hle'⟩ := hgrown _ row hrow
          exact ⟨row', hrow', hle.trans hle'⟩
        intro w hw
        rcases he.listed with ⟨hsame, -⟩ | ⟨w', hrows, hnew⟩
        · exact hold w (hsame ▸ hw)
        · dsimp only at hw
          rw [hrows] at hw
          rcases List.mem_append.mp hw with hw | hw
          · exact hold w hw
          · obtain rfl := List.mem_singleton.mp hw
            have hstream : ev.OfStream := by rw [RawEvent.OfStream, hnew.kind]; decide
            obtain ⟨row, htable, hmerged⟩ := he.row hstream
            have hledger : w.ledger.val = ev.ledger.val := congrArg (·.1.val) hnew.key
            refine ⟨row, ?_, hledger ▸ (watermark_le hmerged).1⟩
            rw [hnew.streamId, htable, Function.update_self]

/-- An event that is folded into no row has no amount. -/
theorem amounts_of_foreign (h : ¬ ev.OfStream) : ev.drawn = 0 ∧ ev.added = 0 := by
  constructor
  · exact amountOf_eq_zero fun hk => h (by rw [RawEvent.OfStream, hk]; decide)
  · exact amountOf_eq_zero fun hk => h (by rw [RawEvent.OfStream, hk]; decide)

/-- The totals of the other streams. -/
theorem agrees_of_other (he : Effect p.db ev db') (hs : ¬ (ev.OfStream ∧ ev.streamId = s)) :
    Agrees ⟨db', p.history ++ [ev]⟩ s row ↔ Agrees p s row := by
  have hlisted : listed s db'.streamWithdrawals = listed s p.db.streamWithdrawals := by
    by_cases hstream : ev.OfStream
    · exact listed_of_other he fun hid => hs ⟨hstream, hid⟩
    · exact listed_of_zero he (amounts_of_foreign hstream).1
  have hdrawn : drawn s (p.history ++ [ev]) = drawn s p.history := by
    rw [drawn, ofStream_other hs, drawn]
  have hadded : added s (p.history ++ [ev]) = added s p.history := by
    rw [added, ofStream_other hs, added]
  have hopening : opening s (p.history ++ [ev]) = opening s p.history := by
    rw [opening, ofStream_other hs, opening]
  constructor
  · rintro ⟨h₁, h₂, h₃⟩
    exact ⟨h₁.trans hlisted, h₂.trans hdrawn, h₃.trans (by rw [hadded, hopening])⟩
  · rintro ⟨h₁, h₂, h₃⟩
    exact ⟨h₁.trans hlisted.symm, h₂.trans hdrawn.symm, h₃.trans (by rw [hadded, hopening])⟩

/-- A new row. -/
theorem agrees_of_created {new : StreamState} (hk : Kept p) (he : Effect p.db ev db')
    (hstream : ev.OfStream) (hnone : p.db.streamStates ev.streamId = none)
    (hm : Merged ev none new) : Agrees ⟨db', p.history ++ [ev]⟩ ev.streamId new := by
  have hd := drawn_of_none hk he hnone
  have hnil := (hk.row ev.streamId).mp hnone
  cases hm with
  | created hseen hwithdrawn hdeposit =>
      refine ⟨?_, ?_, ?_⟩
      · rw [hwithdrawn, hd, listed_of_zero he hd, listed_of_none hk hnone]
      · rw [hwithdrawn, drawn_snoc hstream rfl, drawn, hnil]
        exact (zero_add _).symm
      · rw [hdeposit, opening_snoc hstream rfl, if_pos hnil, added_snoc hstream rfl, added, hnil]
        exact congrArg _ (zero_add _).symm

/-- A row that was there: it agrees unless an amount was passed over. -/
theorem agrees_of_merged {old new : StreamState} (hk : Kept p) (he : Effect p.db ev db')
    (hstream : ev.OfStream) (hold : p.db.streamStates ev.streamId = some old)
    (ha : Agrees p ev.streamId old) (hm : Merged ev (some old) new) :
    Agrees ⟨db', p.history ++ [ev]⟩ ev.streamId new ↔
      (ev.ledger.val ≤ old.updatedLedger.val → ev.drawn = 0 ∧ ev.added = 0) := by
  have hne : ofStream ev.streamId p.history ≠ [] := by
    rw [ne_eq, ← hk.row, hold]
    exact Option.some_ne_none old
  have hdrawn : drawn ev.streamId (p.history ++ [ev]) = _ := drawn_snoc hstream rfl
  have hadded : added ev.streamId (p.history ++ [ev]) = _ := added_snoc hstream rfl
  have hopening : opening ev.streamId (p.history ++ [ev]) = opening ev.streamId p.history := by
    rw [opening_snoc hstream rfl, if_neg hne]
  obtain ⟨h₁, h₂, h₃⟩ := ha
  cases hm with
  | merged hseen hwithdrawn hdeposit =>
      by_cases hlt : old.updatedLedger.val < ev.ledger.val
      · rw [if_pos hlt] at hwithdrawn hdeposit
        refine iff_of_true ⟨?_, ?_, ?_⟩ fun hle => absurd hlt (by omega)
        · rw [hwithdrawn, listed_of_newer hk he hold hlt, h₁]
        · rw [hwithdrawn, hdrawn, h₂]
        · rw [hdeposit, hopening, hadded, h₃, add_assoc]
      · -- the amounts were passed over
        rw [if_neg hlt, add_zero] at hwithdrawn hdeposit
        constructor
        · rintro ⟨-, h₂', h₃'⟩ -
          dsimp only at h₂' h₃'
          rw [hwithdrawn, hdrawn] at h₂'
          rw [hdeposit, hopening, hadded] at h₃'
          omega
        · intro hzero
          obtain ⟨hd, had⟩ := hzero (by omega)
          refine ⟨?_, ?_, ?_⟩
          · rw [hwithdrawn, listed_of_zero he hd, h₁]
          · rw [hwithdrawn, hdrawn, hd, add_zero, h₂]
          · rw [hdeposit, hopening, hadded, had, add_zero, h₃]

theorem counts_iff (hk : Kept p) (ha : Agree p) (h : Fold p ev p') : Agree p' ↔ Counts p ev := by
  cases h with
  | fold h =>
      rename_i db'
      have he := effect_of_fold h
      by_cases hstream : ev.OfStream
      · obtain ⟨new, htable, hmerged⟩ := he.row hstream
        -- the other streams agree as before
        have hone : Agree ⟨db', p.history ++ [ev]⟩ ↔
            Agrees ⟨db', p.history ++ [ev]⟩ ev.streamId new := by
          constructor
          · intro hall
            exact hall _ _ (by rw [htable, Function.update_self])
          · intro hnew s row hrow
            by_cases hs : ev.streamId = s
            · subst hs
              rw [htable, Function.update_self] at hrow
              cases hrow
              exact hnew
            · have hother : ¬ (ev.OfStream ∧ ev.streamId = s) := fun h => hs h.2
              rw [row_of_other he hother] at hrow
              exact (agrees_of_other he hother).mpr (ha s row hrow)
        rw [hone]
        cases hold : p.db.streamStates ev.streamId with
        | none =>
            rw [hold] at hmerged
            refine iff_of_true (agrees_of_created hk he hstream hold hmerged) fun row hrow => ?_
            rw [hold] at hrow
            cases hrow
        | some old =>
            rw [hold] at hmerged
            rw [agrees_of_merged hk he hstream hold (ha _ old hold) hmerged]
            constructor
            · intro hcounts row hrow
              rw [hold] at hrow
              cases hrow
              exact hcounts
            · exact fun hcounts => hcounts old hold
      · refine iff_of_true (fun s row hrow => ?_) fun _ _ _ => amounts_of_foreign hstream
        have hother : ¬ (ev.OfStream ∧ ev.streamId = s) := fun h => hstream h.1
        rw [row_of_other he hother] at hrow
        exact (agrees_of_other he hother).mpr (ha s row hrow)

theorem kept_fresh : Kept .fresh where
  row := fun _ => iff_of_true rfl rfl
  listed := fun w hw => by cases hw

theorem agree_fresh : Agree .fresh := fun s row hrow => by cases hrow

/-- **The totals.**  The rows agree with `stream_withdrawals` and with the events, after each event,
exactly if each amount comes in a ledger above the watermark of its stream. -/
theorem totals_of_run :
    (Run (fun p ev p' => Fold p ev p' ∧ Agree p') .fresh evs p ↔
      Run (fun p ev p' => Fold p ev p' ∧ Counts p ev) .fresh evs p) ∧
    (Run (fun p ev p' => Fold p ev p' ∧ Counts p ev) .fresh evs p → Agree p) := by
  have hkept : ∀ p ev p', Fold p ev p' → Kept p → Kept p' := fun p ev p' h hk => kept_of_fold hk h
  have hiff : ∀ p ev p', Fold p ev p' → Kept p → Agree p → (Agree p' ↔ Counts p ev) :=
    fun p ev p' h hk ha => counts_iff hk ha h
  exact Run.keeps_spec (P := fun p : Projection => Agree p) (Q := fun p : Projection => Kept p)
    hkept hiff kept_fresh agree_fresh

/-! ### Events of one ledger -/

namespace Sample

/-- An event of stream 1. -/
def event (ledger : U32) (txHash eventType amount : String) : RawEvent where
  ledger := ledger
  txHash := txHash
  eventType := eventType
  contractId := "C1"
  topics := .null
  data := [("stream_id", .str "1"), ("amount", .str amount)]

def fold (p : Projection) (ev : RawEvent) : Option Projection :=
  (foldEvent p.db ev).toOption.map fun db => ⟨db, p.history ++ [ev]⟩

/-- The tables after the events. -/
def folded (evs : List RawEvent) : Projection := Run.reached fold .fresh evs

theorem fold_of_eq_some {p p' : Projection} {ev : RawEvent} (h : fold p ev = some p') :
    Fold p ev p' := by
  unfold fold at h
  cases hf : foldEvent p.db ev with
  | ok db =>
      rw [hf] at h
      cases h
      exact .fold hf
  | error e =>
      rw [hf] at h
      cases h

/-- The same, of events that count. -/
def counted (p : Projection) (ev : RawEvent) : Option Projection :=
  if Counts p ev then fold p ev else none

theorem fold_of_counted {p p' : Projection} {ev : RawEvent} (h : counted p ev = some p') :
    Fold p ev p' ∧ Counts p ev := by
  unfold counted at h
  split at h
  · rename_i hc
    exact ⟨fold_of_eq_some h, hc⟩
  · cases h

theorem run_folded (h : (evs.foldlM fold .fresh).isSome = true) :
    Run Fold .fresh evs (folded evs) := Run.run_reached (fun _ => fold_of_eq_some) h

end Sample

/-- A pause, a withdrawal of 50 and a top-up of 20, each in a ledger of its own. -/
theorem totals_of_run_counted :
    let evs := [Sample.event (.lit 5) "a" "stream_paused" "0",
      Sample.event (.lit 7) "b" "stream_withdrawn" "50",
      Sample.event (.lit 8) "c" "stream_topped_up" "20"]
    let p := Run.reached Sample.counted .fresh evs
    Agree p ∧ (p.db.streamStates "1").map (·.withdrawn.val) = some 50 := by
  intro evs p
  have hrun : Run (fun p ev p' => Fold p ev p' ∧ Counts p ev) .fresh evs p :=
    Run.run_reached (fun _ => Sample.fold_of_counted) (by decide +kernel)
  exact ⟨totals_of_run.2 hrun, by decide +kernel⟩

/-- After a pause, two withdrawals and a top-up in ledger 7: the row counts the first of them. -/
theorem shared_ledger_uncounted :
    let evs := [Sample.event (.lit 5) "a" "stream_paused" "0",
      Sample.event (.lit 7) "b" "stream_withdrawn" "50",
      Sample.event (.lit 7) "c" "stream_withdrawn" "30",
      Sample.event (.lit 7) "d" "stream_topped_up" "20"]
    let p := Sample.folded evs
    Run Fold .fresh evs p ∧
      (p.db.streamStates "1").map (·.withdrawn.val) = some 50 ∧
      listed "1" p.db.streamWithdrawals = 80 ∧ drawn "1" p.history = 80 ∧
      (p.db.streamStates "1").map (·.deposit.val) = some 0 ∧
      opening "1" p.history = 0 ∧ added "1" p.history = 20 ∧ ¬ Agree p := by
  intro evs p
  have hrow : (p.db.streamStates "1").map (·.withdrawn.val) = some 50 := by decide +kernel
  have hdrawn : drawn "1" p.history = 80 := by decide +kernel
  refine ⟨Sample.run_folded (by decide +kernel), hrow, by decide +kernel, hdrawn, by decide +kernel,
    by decide +kernel, by decide +kernel, fun hagree => ?_⟩
  obtain ⟨row, hs, hw⟩ := Option.map_eq_some_iff.mp hrow
  have htotal := (hagree "1" row hs).withdrawn
  rw [hw, hdrawn] at htotal
  exact absurd htotal (by decide)

end Drip.Indexer
