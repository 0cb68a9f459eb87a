import Drip.Indexer.Poller
import Drip.Indexer.Effects

/-!
# Indexer — Coverage

Which events the worker has folded.  `Covered` says that they are those up to the cursor, in the order
of the log.

The cursor is a ledger, and a page is cut by a number of events: a page that ends within a ledger
moves the cursor past the rest of it.  `Whole` is the condition on the committed pages under which
nothing is left out (`covered_of_run`).
-/

namespace Drip.Indexer
open Chain Watermark

variable {m m' m₀ : Moment} {a : Action} {as : List Action} {db db' : Database} {ev : RawEvent}
variable {events : List RawEvent} {limit : Nat} {fromLedger : Int}

/-! ### What is committed -/

theorem cursor_of_ingestEvent (h : ingestEvent db ev = .ok db') : db'.cursor = db.cursor := by
  simp only [ingestEvent, bind_eq_ok] at h
  obtain ⟨db₁, hins, hfold⟩ := h
  rw [(effect_of_fold hfold).cursor]
  simp only [insertRawEvent, bind_eq_ok] at hins
  obtain ⟨_, -, _, -, _, -, _, -, _, -, hins⟩ := hins
  split at hins
  · cases hins
    rfl
  · cases hins
    rfl

/-- Only `saveCursor` moves the cursor. -/
theorem cursor_of_ingestPage (h : ingestPage db events = .ok db') : db'.cursor = db.cursor := by
  unfold ingestPage at h
  induction events generalizing db with
  | nil =>
      cases h
      rfl
  | cons ev events ih =>
      rw [List.foldlM_cons, bind_eq_ok] at h
      obtain ⟨db₁, hev, h⟩ := h
      rw [ih h, cursor_of_ingestEvent hev]

/-- The saved cursor. -/
def Moment.cursor (m : Moment) : Int := (getCursor m.db).val

theorem getCursor_saveCursor {ledger : I64} (h : (getCursor db).val ≤ ledger.val) :
    getCursor (saveCursor db ledger) = ledger := by
  unfold getCursor saveCursor at *
  cases hc : db.cursor with
  | none => rfl
  | some last =>
      rw [hc] at h
      show max last ledger = ledger
      ext
      rw [Ranged.val_max]
      exact max_eq_right h

/-! ### A page -/

/-- The loop of the maximum, from any ledger on. -/
theorem foldl_max_spec (events : List RawEvent) (l : U32) :
    let d := events.foldl (fun l ev => max l ev.ledger) l
    l.val ≤ d.val ∧ (∀ ev ∈ events, ev.at ≤ d.val) ∧ (d = l ∨ ∃ ev ∈ events, ev.ledger = d) := by
  induction events generalizing l with
  | nil => exact ⟨le_rfl, fun ev hev => (by cases hev), .inl rfl⟩
  | cons ev events ih =>
      obtain ⟨hge, hle, hmem⟩ := ih (max l ev.ledger)
      rw [Ranged.val_max] at hge
      refine ⟨(le_max_left _ _).trans hge, ?_, ?_⟩
      · intro ev' hev'
        rcases List.mem_cons.mp hev' with rfl | hev'
        · exact (le_max_right _ _).trans hge
        · exact hle ev' hev'
      · rcases hmem with heq | ⟨ev', hev', heq⟩
        · rw [List.foldl_cons, heq]
          by_cases hl : l.val ≤ ev.ledger.val
          · exact .inr ⟨ev, List.mem_cons_self, (if_pos hl).symm⟩
          · exact .inl (if_neg hl)
        · exact .inr ⟨ev', List.mem_cons_of_mem ev hev', heq⟩

theorem nextLedger_isLast (h : events ≠ []) :
    IsLast RawEvent.at events (nextLedger events).val := by
  obtain ⟨-, hle, hmem⟩ := foldl_max_spec events (.lit 0)
  refine ⟨?_, hle⟩
  rcases hmem with hzero | ⟨ev, hev, heq⟩
  · obtain ⟨ev, hev⟩ := List.exists_mem_of_ne_nil events h
    refine ⟨ev, hev, le_antisymm (hle ev hev) ?_⟩
    rw [nextLedger, hzero]
    exact ev.ledger.ge
  · exact ⟨ev, hev, congrArg Ranged.val heq⟩

theorem fetchEvents_starts : fetchEvents m.log (m.cursor + 1) limit <+:
    pending RawEvent.at m.cursor m.log :=
  List.take_prefix limit _

/-- A fetch that finds nothing: nothing is pending. -/
theorem pending_of_fetchEvents (hlimit : 1 ≤ limit) (h : fetchEvents m.log (m.cursor + 1) limit = []) :
    pending RawEvent.at m.cursor m.log = [] := by
  have hnil := List.take_eq_nil_iff.mp h
  rcases hnil with hzero | hnil
  · omega
  · exact hnil

/-! ### The worker -/

/-- What holds of the worker between any two steps. -/
structure Sound (m : Moment) : Prop where
  ordered : Ordered RawEvent.at m.log
  closed : ∀ ev ∈ m.log, ev.at ≤ m.closed
  cursor_le : m.cursor ≤ m.closed
  fetching : ∀ {fromLedger limit attempts}, m.phase = .fetching fromLedger limit attempts →
    fromLedger = m.cursor + 1
  fetched : ∀ {events}, m.phase = .fetched events →
    events ≠ [] ∧ events <+: pending RawEvent.at m.cursor m.log

/-- What is folded is what the log holds up to the cursor. -/
def Covered (m : Moment) : Prop := m.folded = reached RawEvent.at m.cursor m.log

/-- A poll that could return events, and returns none, finds the whole log folded. -/
def Drained (m : Moment) (a : Action) (m' : Moment) : Prop :=
  ∀ fromLedger limit attempts, a = .fetch → m.phase = .fetching fromLedger limit attempts →
    1 ≤ limit → m'.phase = .idle → m'.folded = m'.log

theorem drained_of_ne (h : a ≠ .fetch) : Drained m a m' := fun _ _ _ ha => absurd ha h

/-- A page is committed with as many events of its last ledger as the log has. -/
def Whole (m : Moment) (a : Action) : Prop :=
  ∀ events, a = .commit → m.phase = .fetched events →
    let last := (nextLedger events).val
    (withKey RawEvent.at last m.log).length = (withKey RawEvent.at last events).length

theorem whole_of_ne (h : a ≠ .commit) : Whole m a := fun _ ha => absurd ha h

theorem sound_fresh : Sound .fresh where
  ordered := .nil
  closed := fun ev hev => by cases hev
  cursor_le := le_refl (0 : Int)
  fetching := fun h => by cases h
  fetched := fun h => by cases h

theorem covered_fresh : Covered .fresh := rfl

/-- A step that only changes the phase, to one without a page. -/
theorem Sound.idle (h : Sound m) : Sound { m with phase := .idle } :=
  ⟨h.ordered, h.closed, h.cursor_le, fun h => (by cases h), fun h => (by cases h)⟩

/-- The cursor after a commit. -/
theorem cursor_of_commit (h : Sound m) (hphase : m.phase = .fetched events)
    (hingest : ingestPage m.db events = .ok db) :
    (m.committed db events).cursor = (nextLedger events).val := by
  obtain ⟨hne, hstart⟩ := h.fetched hphase
  obtain ⟨⟨ev, hev, hlast⟩, -⟩ := nextLedger_isLast hne
  have hlt : m.cursor < ev.at := (mem_pending.mp (hstart.mem hev)).2
  have hcursor : (getCursor db).val = m.cursor := by
    rw [Moment.cursor, getCursor, getCursor, cursor_of_ingestPage hingest]
  have hle : (getCursor db).val ≤ (nextLedger events).val := by
    rw [hcursor, ← hlast]
    exact hlt.le
  have hsaved : getCursor (saveCursor db (nextLedger events).widen) = (nextLedger events).widen :=
    getCursor_saveCursor hle
  exact congrArg Ranged.val hsaved

theorem sound_of_step (h : Sound m) (hstep : Step m a m') : Sound m' := by
  cases hstep with
  | close hle hordered hnew =>
      rename_i closed events
      refine ⟨?_, ?_, h.cursor_le.trans hle, h.fetching, fun hphase => ?_⟩
      · refine List.pairwise_append.mpr ⟨h.ordered, hordered, fun x hx y hy => ?_⟩
        exact (h.closed x hx).trans (hnew y hy).1.le
      · intro ev hev
        rcases List.mem_append.mp hev with hev | hev
        · exact (h.closed ev hev).trans hle
        · exact (hnew ev hev).2
      · obtain ⟨hne, hstart⟩ := h.fetched hphase
        refine ⟨hne, hstart.trans ?_⟩
        show _ <+: pending RawEvent.at m.cursor (m.log ++ events)
        rw [pending_append]
        exact List.prefix_append _ _
  | poll hidle =>
      refine ⟨h.ordered, h.closed, h.cursor_le, fun hphase => ?_, fun hphase => by cases hphase⟩
      cases hphase
      rfl
  | fetch hphase =>
      rename_i fromLedger limit attempts
      obtain rfl := h.fetching hphase
      refine ⟨h.ordered, h.closed, h.cursor_le, fun hphase' => ?_, fun hphase' => ?_⟩
      · dsimp only at hphase'
        split at hphase' <;> cases hphase'
      · dsimp only at hphase'
        split at hphase'
        · cases hphase'
        · rename_i hne
          cases hphase'
          exact ⟨hne, fetchEvents_starts⟩
  | fetchFails hphase =>
      refine ⟨h.ordered, h.closed, h.cursor_le, fun hphase' => ?_, fun hphase' => ?_⟩
      · dsimp only at hphase'
        split at hphase'
        · cases hphase'
        · cases hphase'
          exact h.fetching hphase
      · dsimp only at hphase'
        split at hphase' <;> cases hphase'
  | commit hphase hingest =>
      rename_i events db
      have hcursor := cursor_of_commit h hphase hingest
      obtain ⟨hne, hstart⟩ := h.fetched hphase
      obtain ⟨⟨ev, hev, hlast⟩, -⟩ := nextLedger_isLast hne
      refine ⟨h.ordered, h.closed, ?_, fun hphase' => (by cases hphase'),
        fun hphase' => (by cases hphase')⟩
      rw [hcursor, ← hlast]
      exact h.closed ev (mem_pending.mp (hstart.mem hev)).1
  | rollback | crash => exact h.idle

theorem whole_of_step (h : Sound m) (hcovered : Covered m) (hstep : Step m a m') :
    Covered m' ∧ Drained m a m' ↔ Whole m a := by
  cases hstep with
  | close hle hordered hnew =>
      rename_i closed events
      refine iff_of_true ⟨?_, drained_of_ne nofun⟩ (whole_of_ne nofun)
      show m.folded = reached RawEvent.at m.cursor (m.log ++ events)
      -- the cursor is not past the ledgers that were closed before
      have hnone : reached RawEvent.at m.cursor events = [] :=
        reached_eq_nil fun ev hev => h.cursor_le.trans_lt (hnew ev hev).1
      rw [reached_append, hnone, List.append_nil]
      exact hcovered
  | poll hidle =>
      exact iff_of_true ⟨hcovered, drained_of_ne nofun⟩ (whole_of_ne nofun)
  | fetch hphase =>
      rename_i fromLedger limit attempts
      obtain rfl := h.fetching hphase
      refine iff_of_true ⟨hcovered, fun _ _ _ _ hfetching hlimit hidle => ?_⟩ (whole_of_ne nofun)
      obtain ⟨-, rfl, -⟩ := Phase.fetching.inj (hphase.symm.trans hfetching)
      dsimp only at hidle ⊢
      split at hidle
      · -- nothing is pending after the cursor, and the rest is folded
        rename_i hnil
        rw [hcovered, reached_eq_of_pending (pending_of_fetchEvents hlimit hnil)]
      · cases hidle
  | fetchFails hphase =>
      exact iff_of_true ⟨hcovered, drained_of_ne nofun⟩ (whole_of_ne nofun)
  | commit hphase hingest =>
      rename_i events db
      have hcursor := cursor_of_commit h hphase hingest
      obtain ⟨hne, hstart⟩ := h.fetched hphase
      have hpage := reached_page_iff h.ordered hstart (nextLedger_isLast hne)
      have hcov : Covered (m.committed db events) ↔
          m.folded ++ events = reached RawEvent.at (nextLedger events).val m.log := by
        rw [← hcursor]
        rfl
      have hdrained : Drained m .commit (m.committed db events) := drained_of_ne nofun
      have hwhole : Whole m .commit ↔ (withKey RawEvent.at (nextLedger events).val m.log).length =
          (withKey RawEvent.at (nextLedger events).val events).length := by
        constructor
        · exact fun hw => hw events rfl hphase
        · rintro hlen events' - hphase'
          obtain rfl : events = events' := Phase.fetched.inj (hphase.symm.trans hphase')
          exact hlen
      rw [and_iff_left hdrained, hcov, hwhole, ← hpage, hcovered]
      exact eq_comm
  | rollback | crash =>
      exact iff_of_true ⟨hcovered, drained_of_ne nofun⟩ (whole_of_ne nofun)

/-- **The indexer loses no event.**  Along a run of the worker beside its ledger, what is folded is what
the log holds up to the cursor, and a poll of one event or more that returns nothing finds all of it
folded, exactly if each page that is committed is whole. -/
theorem covered_of_run :
    (Run (fun m a m' => Step m a m' ∧ Covered m' ∧ Drained m a m') .fresh as m ↔
      Run (fun m a m' => Step m a m' ∧ Whole m a) .fresh as m) ∧
    (Run (fun m a m' => Step m a m' ∧ Whole m a) .fresh as m → Covered m) := by
  have hsound : ∀ m a m', Step m a m' → Sound m → Sound m' :=
    fun m a m' hstep h => sound_of_step h hstep
  have hiff : ∀ m a m', Step m a m' → Sound m → Covered m →
      (Covered m' ∧ Drained m a m' ↔ Whole m a) := fun m a m' hstep h hc => whole_of_step h hc hstep
  exact Run.keeps_and_spec (P := fun m : Moment => Covered m) (Q := fun m : Moment => Sound m)
    (C := Drained) hsound hiff sound_fresh covered_fresh

/-! ### Two events of one ledger -/

namespace Sample

/-- A top-up of stream 1. -/
def topUp (ledger : U32) (txHash amount : String) : RawEvent where
  ledger := ledger
  txHash := txHash
  eventType := "stream_topped_up"
  contractId := "C1"
  topics := .null
  data := [("stream_id", .str "1"), ("amount", .str amount)]

/-- The tables after a page. -/
def ingested (db : Database) (events : List RawEvent) : Database :=
  match ingestPage db events with
  | .ok db => db
  | .error _ => db

theorem ingestPage_eq (h : (ingestPage db events).isOk = true) :
    ingestPage db events = .ok (ingested db events) := by
  unfold ingested
  cases hp : ingestPage db events with
  | ok db => rfl
  | error e =>
      rw [hp] at h
      cases h

def log : List RawEvent := [topUp (.lit 7) "a" "100", topUp (.lit 7) "b" "200"]

/-- The log is there, and nothing has been read. -/
def before : Moment := { Moment.fresh with log := log, closed := 7 }

theorem step_close : Step .fresh (.close 7 log) before := by
  refine .close (by decide) ?_ ?_
  · simp [Ordered, log, topUp, RawEvent.at]
  · decide

def reading (limit : Nat) : Moment := { before with phase := .fetching 1 limit 3 }

def holding (page : List RawEvent) : Moment := { before with phase := .fetched page }

def stored (page : List RawEvent) : Moment := before.committed (ingested .fresh page) page

theorem step_poll (limit : Nat) : Step before (.poll limit 3) (reading limit) := .poll rfl

theorem step_fetch {limit : Nat} {page : List RawEvent} (hpage : fetchEvents log 1 limit = page)
    (hne : page ≠ []) : Step (reading limit) .fetch (holding page) :=
  step_of_page (m := reading limit) rfl hpage hne

theorem step_commit {page : List RawEvent} (h : (ingestPage .fresh page).isOk = true) :
    Step (holding page) .commit (stored page) :=
  .commit rfl (ingestPage_eq h)

end Sample

/-- With two events a page, the two events of ledger 7 are folded. -/
theorem covered_of_run_whole : Covered (Sample.stored Sample.log) := by
  have hne : Sample.log ≠ [] := List.cons_ne_nil _ _
  have hcommit : Whole (Sample.holding Sample.log) .commit := by
    rintro events - hphase
    cases hphase
    decide +kernel
  exact covered_of_run.2 ((((Run.nil _).snoc ⟨Sample.step_close, whole_of_ne nofun⟩).snoc
    ⟨Sample.step_poll 2, whole_of_ne nofun⟩).snoc
    ⟨Sample.step_fetch rfl hne, whole_of_ne nofun⟩ |>.snoc
    ⟨Sample.step_commit (by decide +kernel), hcommit⟩)

/-- With one event a page, the second event of ledger 7 is never folded: the next poll begins at ledger
8, and finds nothing. -/
theorem split_ledger_skipped :
    let page := Sample.log.take 1
    let m := Sample.stored page
    Run Step .fresh [.close 7 Sample.log, .poll 1 3, .fetch, .commit, .poll 1 3, .fetch] m ∧
      (∃ ev ∈ m.log, ev.at ≤ m.cursor ∧ ev ∉ m.folded) ∧ m.phase = .idle ∧ m.folded ≠ m.log := by
  intro page m
  have hne : page ≠ [] := List.cons_ne_nil _ _
  have hrun : Run Step .fresh [.close 7 Sample.log, .poll 1 3, .fetch, .commit] m :=
    (((Run.nil _).snoc Sample.step_close).snoc (Sample.step_poll 1)).snoc
      (Sample.step_fetch rfl hne) |>.snoc (Sample.step_commit (by decide +kernel))
  have hcursor : m.cursor = 7 := by decide +kernel
  have hpoll : Step m (.poll 1 3) { m with phase := .fetching 8 1 3 } := by
    have hstep : Step m (.poll 1 3) { m with phase := .fetching (m.cursor + 1) 1 3 } := .poll rfl
    rw [hcursor] at hstep
    exact hstep
  have hfetch : Step { m with phase := .fetching 8 1 3 } .fetch m := step_of_nothing rfl rfl
  refine ⟨(hrun.snoc hpoll).snoc hfetch, ⟨Sample.topUp (.lit 7) "b" "200", ?_, ?_, ?_⟩, rfl, ?_⟩
  · exact List.mem_cons_of_mem _ List.mem_cons_self
  · rw [hcursor]
    exact le_rfl
  · decide +kernel
  · decide +kernel

end Drip.Indexer
