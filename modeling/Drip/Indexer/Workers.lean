import Drip.Support.Fleets
import Drip.Indexer.Coverage

/-!
# Indexer — Workers

`indexer/src/worker.ts`: any number of workers, started one after the other or at the same time, on one
database.  Each of them asks for the advisory lock when it starts (`acquireSingletonLock`) and ends at once
if another one has it; it polls until it is told to stop (`startPollLoop`), and then lets the poll that is
under way come to its end before it gives the lock back (`setupGracefulShutdown`).  It can die at any time.
The database can end the session that holds the lock, and the worker notices it later.

* `single_of_fleet`: as long as no lock is lost, one worker runs at most, and all of them together do what
  a single one does; so each event up to the cursor is folded once, in the order of the log.
* `found_of_fleet`: where locks are lost, and several workers fold pages beside each other, no event is
  passed over, and the cursor never goes back.
* `signalled_of_run`: a worker that is told to stop commits the page in hand, if any, and no other.
-/

namespace Drip.Indexer
open Chain Watermark

/-! ### Workers -/

/-- What the workers share. -/
structure Shared where
  log : List RawEvent
  closed : Int
  db : Database
  folded : List RawEvent

def Shared.fresh : Shared where
  log := []
  closed := 0
  db := .fresh
  folded := []

/-- The saved cursor. -/
def Shared.cursor (s : Shared) : Int := (getCursor s.db).val

/-- As a worker sees it whose poll has come to `phase`. -/
def Shared.moment (s : Shared) (phase : Phase) : Moment where
  log := s.log
  closed := s.closed
  db := s.db
  phase := phase
  folded := s.folded

def Shared.committed (s : Shared) (db : Database) (events : List RawEvent) : Shared :=
  { s with
    db := saveCursor db (nextLedger events).widen
    folded := s.folded ++ events }

structure Worker where
  phase : Phase
  /-- the `AbortSignal` -/
  aborted : Bool

inductive Deed where
  /-- a step of a poll -/
  | act (a : Action)
  /-- `SIGTERM` or `SIGINT` -/
  | signal
  /-- after the signal, the page is not asked for again -/
  | giveUp

/-- Steps that are a worker's own. -/
def Action.Own : Action → Prop
  | .close _ _ | .crash => False
  | _ => True

def Action.Begins : Action → Prop
  | .poll _ _ => True
  | _ => False

/-- A turn of a worker that nobody disturbs. -/
inductive Turn : Shared → Worker → Deed → Shared → Worker → Prop where
  | act {s s' : Shared} {p : Worker} {a : Action} {phase : Phase} (hown : a.Own)
      (hloop : p.aborted = true → ¬ a.Begins) (h : Step (s.moment p.phase) a (s'.moment phase)) :
      Turn s p (.act a) s' { p with phase := phase }
  | signal {s : Shared} {p : Worker} : Turn s p .signal s { p with aborted := true }
  | giveUp {s : Shared} {p : Worker} {fromLedger : Int} {limit attempts : Nat}
      (haborted : p.aborted = true) (hphase : p.phase = .fetching fromLedger limit attempts) :
      Turn s p .giveUp s { p with phase := .idle }

/-- Beside another worker.  Two transactions can run at the same time: what they leave in the tables
together is left open, but for the cursor, whose row the second one to write it finds as the first one
left it. -/
inductive Beside : Shared → Worker → Deed → Shared → Worker → Prop where
  | turn {s s' : Shared} {p p' : Worker} {d : Deed} (hd : d ≠ .act .commit) (h : Turn s p d s' p') :
      Beside s p d s' p'
  | commit {s : Shared} {p : Worker} {events : List RawEvent} {db : Database}
      (hphase : p.phase = .fetched events) (hcursor : db.cursor = s.db.cursor) :
      Beside s p (.act .commit) (s.committed db events) { p with phase := .idle }

/-- `main`: a worker that has the lock polls, and ends when it has been told to stop and its loop has come
to an end. -/
def worker : Fleet.Program Shared Worker Deed (Int × List RawEvent) where
  start := ⟨.idle, false⟩
  Done := fun p => p.aborted = true ∧ p.phase = .idle
  Turn := Turn
  Beside := Beside
  Outside := fun s e s' => Step (s.moment .idle) (.close e.1 e.2) (s'.moment .idle)

abbrev Moves (ω : Type) : Type := Fleet.Move ω Deed (Int × List RawEvent)

/-- Each page is committed with as many events of its last ledger as the log has. -/
def WholePage (s : Shared) (p : Worker) : Deed → Prop
  | .act a => Whole (s.moment p.phase) a
  | .signal | .giveUp => True

variable {ω : Type} [DecidableEq ω] {f f' : Fleet.Crew ω Shared Worker}
variable {ms ms' : List (Moves ω)} {as : List Action} {a : Action}
variable {m : Moves ω} {s s' : Shared} {p p' : Worker} {d : Deed}
variable {events : List RawEvent} {w : ω}

/-! ### One worker -/

/-- What a step of a single worker is, in terms of `Step`. -/
def actionOf : Fleet.Single Deed (Int × List RawEvent) → Option Action
  | .turn (.act a) => some a
  | .turn .signal => none
  | .turn .giveUp | .restart => some .crash
  | .outside e => some (.close e.1 e.2)

theorem step_of_outside {closed : Int} {events : List RawEvent}
    (h : Step (s.moment .idle) (.close closed events) (s'.moment .idle)) (phase : Phase) :
    Step (s.moment phase) (.close closed events) (s'.moment phase) := by
  obtain ⟨log', closed', db', folded'⟩ := s'
  generalize hs' : Shared.moment ⟨log', closed', db', folded'⟩ .idle = m' at h
  cases h with
  | close hle hordered hnew =>
      cases hs'
      exact .close hle hordered hnew

/-- Each step of a single worker is one of `Step`, or changes nothing. -/
theorem step_of_goes {x x' : Shared × Worker} {b : Fleet.Single Deed (Int × List RawEvent)}
    (h : worker.Goes x b x') :
    (actionOf b = none → x'.1.moment x'.2.phase = x.1.moment x.2.phase) ∧
    ∀ a, actionOf b = some a → Step (x.1.moment x.2.phase) a (x'.1.moment x'.2.phase) := by
  cases h with
  | turn h =>
      cases h with
      | act _ _ h => exact ⟨fun hb => (by cases hb), fun a hb => Option.some.inj hb ▸ h⟩
      | signal => exact ⟨fun _ => rfl, fun a hb => (by cases hb)⟩
      | giveUp _ _ => exact ⟨fun hb => (by cases hb), fun a hb => Option.some.inj hb ▸ .crash⟩
  | restart => exact ⟨fun hb => (by cases hb), fun a hb => Option.some.inj hb ▸ .crash⟩
  | outside h => exact ⟨fun hb => (by cases hb), fun a hb => Option.some.inj hb ▸ step_of_outside h _⟩

theorem whole_of_goes {x x' : Shared × Worker} {b : Fleet.Single Deed (Int × List RawEvent)}
    (h : worker.Goes x b x') (hok : b.Ok WholePage x) (ha : actionOf b = some a) :
    Whole (x.1.moment x.2.phase) a := by
  cases h with
  | turn h =>
      cases h with
      | act _ _ _ =>
          obtain rfl := Option.some.inj ha
          exact hok
      | signal => cases ha
      | giveUp _ _ =>
          obtain rfl := Option.some.inj ha
          exact whole_of_ne fun heq => (by cases heq)
  | restart =>
      obtain rfl := Option.some.inj ha
      exact whole_of_ne fun heq => (by cases heq)
  | outside _ =>
      obtain rfl := Option.some.inj ha
      exact whole_of_ne fun heq => (by cases heq)

/-- The moment of a fleet: how far the poll of its worker has come. -/
def moment (f : Fleet.Crew ω Shared Worker) : Moment :=
  (f.only worker).1.moment (f.only worker).2.phase

/-- The fleet as one worker. -/
theorem run_of_fleet {ok : Shared → Worker → Deed → Prop} {C : Moment → Action → Prop}
    (hC : ∀ x x' b a, worker.Goes x b x' → b.Ok ok x → actionOf b = some a →
      C (x.1.moment x.2.phase) a)
    (h : Run (fun f m f' => Fleet.Step worker f m f' ∧ ¬ m.Loses ∧ f.Ok ok m)
      (Fleet.Crew.off .fresh) ms f) :
    ∃ as, Run (fun m a m' => Step m a m' ∧ C m a) .fresh as (moment f) := by
  have hsingle := Fleet.follows h (Fleet.exclusive_off Shared.fresh)
  have hrun : ∃ m, Run (fun m a m' => Step m a m' ∧ C m a) .fresh
      ((ms.filterMap Fleet.Move.single).filterMap actionOf) m ∧ m = moment f := by
    refine hsingle.follow (R := fun x m => m = x.1.moment x.2.phase) ?_ ?_ rfl
    · rintro x b x' m ⟨hgoes, -⟩ hb rfl
      exact ((step_of_goes hgoes).1 hb).symm
    · rintro x b x' m a ⟨hgoes, hok⟩ ha rfl
      exact ⟨_, ⟨(step_of_goes hgoes).2 a ha, hC x x' b a hgoes hok ha⟩, rfl⟩
  obtain ⟨m, hrun, rfl⟩ := hrun
  exact ⟨_, hrun⟩

theorem covered_of_wholes {m : Moment}
    (h : Run (fun m a m' => Step m a m' ∧ Whole m a) .fresh as m) : Covered m := by
  refine (h.invariant (P := fun m => Sound m ∧ Covered m) ?_ ⟨sound_fresh, covered_fresh⟩).2
  rintro m a m' - ⟨hstep, hwhole⟩ ⟨hs, hc⟩
  exact ⟨sound_of_step hs hstep, ((whole_of_step hs hc hstep).mpr hwhole).1⟩

/-- **One worker at a time.**  Whichever workers are started, told to stop or die, and whenever: as long as
no lock is lost, the one that holds it is the only one that runs, and what the fleet has done is a run of a
single worker.  Where the pages that are committed are whole, what is folded is then what the log holds up
to the cursor, each event once and in its order. -/
theorem single_of_fleet :
    (Run (fun f m f' => Fleet.Step worker f m f' ∧ ¬ m.Loses) (Fleet.Crew.off .fresh) ms f →
      (∀ w, (f.procs w).isSome = true ↔ f.holder = some w) ∧
      ∃ as, Run Step .fresh as (moment f)) ∧
    (Run (fun f m f' => Fleet.Step worker f m f' ∧ ¬ m.Loses ∧ f.Ok WholePage m)
        (Fleet.Crew.off .fresh) ms f →
      f.shared.folded = reached RawEvent.at f.shared.cursor f.shared.log) := by
  constructor
  · intro h
    refine ⟨Fleet.exclusive_of_run h (Fleet.exclusive_off _), ?_⟩
    have htrue : Run (fun f m f' => Fleet.Step worker f m f' ∧ ¬ m.Loses ∧
        f.Ok (fun _ _ _ => True) m) (Fleet.Crew.off .fresh) ms f := by
      refine h.mono fun {f m f'} _ hstep => ⟨hstep.1, hstep.2, ?_⟩
      cases m with
      | turn => exact fun _ _ => trivial
      | enter | refused | leave | die | lose | outside => trivial
    obtain ⟨as, hrun⟩ := run_of_fleet (C := fun _ _ => True) (fun _ _ _ _ _ _ _ => trivial) htrue
    exact ⟨as, hrun.mono fun {_ _ _} _ hstep => hstep.1⟩
  · intro h
    obtain ⟨as, hrun⟩ := run_of_fleet (C := Whole)
      (fun x x' b a hgoes hok ha => whole_of_goes hgoes hok ha) h
    exact covered_of_wholes hrun

/-! ### Several workers -/

theorem cursor_of_saveCursor (db : Database) {ledger : I64} (h : 0 ≤ ledger.val) :
    (getCursor (saveCursor db ledger)).val = max (getCursor db).val ledger.val := by
  unfold getCursor saveCursor
  cases db.cursor with
  | none => exact (max_eq_right h).symm
  | some last => exact Ranged.val_max last ledger

theorem getCursor_eq {db db' : Database} (h : db'.cursor = db.cursor) : getCursor db' = getCursor db := by
  unfold getCursor
  rw [h]

theorem cursor_committed {db : Database} (h : db.cursor = s.db.cursor) :
    (s.committed db events).cursor = max s.cursor (nextLedger events).val := by
  show (getCursor (saveCursor db (nextLedger events).widen)).val = _
  rw [cursor_of_saveCursor db (nextLedger events).ge, getCursor_eq h]
  rfl

/-- The ledger and the cursor only move on. -/
def Shared.Grows (s s' : Shared) : Prop := s.cursor ≤ s'.cursor ∧ s.log <+: s'.log

theorem Shared.Grows.refl (s : Shared) : s.Grows s := ⟨le_rfl, List.prefix_rfl⟩

theorem grows_committed {db : Database} (h : db.cursor = s.db.cursor) : s.Grows (s.committed db events) := by
  refine ⟨?_, List.prefix_rfl⟩
  rw [cursor_committed h]
  exact le_max_left _ _

/-- What holds of the ledger and the tables: no event up to the cursor is passed over. -/
structure Shared.Found (s : Shared) : Prop where
  ordered : Ordered RawEvent.at s.log
  closed : ∀ ev ∈ s.log, ev.at ≤ s.closed
  cursor_le : s.cursor ≤ s.closed
  folded : ∀ ev ∈ s.log, ev.at ≤ s.cursor → ev ∈ s.folded

/-- What holds of a worker: its page begins where the cursor was once. -/
structure Worker.Behind (s : Shared) (p : Worker) : Prop where
  fetching : ∀ {fromLedger limit attempts}, p.phase = .fetching fromLedger limit attempts →
    fromLedger ≤ s.cursor + 1
  fetched : ∀ {events}, p.phase = .fetched events →
    events ≠ [] ∧ ∃ c ≤ s.cursor, events <+: pending RawEvent.at c s.log

theorem behind_idle (h : p.phase = .idle) : p.Behind s where
  fetching := fun hp => by cases h.symm.trans hp
  fetched := fun hp => by cases h.symm.trans hp

theorem Worker.Behind.grows (h : p.Behind s) (hgrows : s.Grows s') : p.Behind s' where
  fetching := fun hp => by
    have hfrom := h.fetching hp
    have hcursor := hgrows.1
    omega
  fetched := fun hp => by
    obtain ⟨hne, c, hc, hstart⟩ := h.fetched hp
    obtain ⟨more, hmore⟩ := hgrows.2
    refine ⟨hne, c, hc.trans hgrows.1, hstart.trans ?_⟩
    rw [← hmore, pending_append]
    exact List.prefix_append _ _

/-- Of a worker's steps, only the commit changes what is shared. -/
theorem shared_of_step {phase phase' : Phase} (hown : a.Own) (ha : a ≠ .commit)
    (h : Step (s.moment phase) a (s'.moment phase')) : s' = s := by
  obtain ⟨log', closed', db', folded'⟩ := s'
  unfold Shared.moment at h
  cases h with
  | close _ _ _ => exact absurd hown id
  | crash => exact absurd hown id
  | commit _ _ => exact absurd rfl ha
  | poll _ | fetch _ | fetchFails _ | rollback _ => rfl

theorem shared_of_commit {phase phase' : Phase} (h : Step (s.moment phase) .commit (s'.moment phase')) :
    ∃ events db, phase = .fetched events ∧ db.cursor = s.db.cursor ∧ s' = s.committed db events ∧
      phase' = .idle := by
  obtain ⟨log', closed', db', folded'⟩ := s'
  unfold Shared.moment at h
  cases h with
  | @commit events db hphase hingest =>
      exact ⟨events, db, hphase, cursor_of_ingestPage hingest, rfl, rfl⟩

theorem found_committed {db : Database} (hs : s.Found) (hp : p.Behind s) (hphase : p.phase = .fetched events)
    (hcursor : db.cursor = s.db.cursor) (hwhole : WholePage s p (.act .commit)) :
    (s.committed db events).Found := by
  obtain ⟨hne, c, hc, hstart⟩ := hp.fetched hphase
  have hlast := nextLedger_isLast hne
  obtain ⟨⟨x, hx, hxlast⟩, -⟩ := nextLedger_isLast hne
  have hxlog : x ∈ s.log := (mem_pending.mp (hstart.mem hx)).1
  refine ⟨hs.ordered, hs.closed, ?_, fun ev hev hle => ?_⟩
  · rw [cursor_committed hcursor, ← hxlast]
    exact max_le hs.cursor_le (hs.closed x hxlog)
  · rw [cursor_committed hcursor] at hle
    show ev ∈ s.folded ++ events
    by_cases hold : ev.at ≤ s.cursor
    · exact List.mem_append_left _ (hs.folded ev hev hold)
    · -- the page has all that the log has after `c`, up to its last ledger
      have hnew : ev.at ≤ (nextLedger events).val := (le_max_iff.mp hle).resolve_left hold
      have hpage := (reached_page_iff hs.ordered hstart hlast).mpr (hwhole events rfl hphase)
      have hmem : ev ∈ reached RawEvent.at c s.log ++ events := by
        rw [← hpage]
        exact mem_reached.mpr ⟨hev, hnew⟩
      rcases List.mem_append.mp hmem with hbefore | hin
      · exact absurd ((mem_reached.mp hbefore).2.trans hc) hold
      · exact List.mem_append_right _ hin

theorem fetchEvents_pending (log : List RawEvent) (fromLedger : Int) (limit : Nat) :
    fetchEvents log fromLedger limit <+: pending RawEvent.at (fromLedger - 1) log := by
  have hsame : pending RawEvent.at (fromLedger - 1) log = log.filter fun ev => fromLedger ≤ ev.at :=
    List.filter_congr fun ev _ => decide_eq_decide.mpr (by omega)
  rw [hsame]
  exact List.take_prefix limit _

/-- The page of a worker, after a step of its poll. -/
theorem behind_of_step (hp : p.Behind s) {phase : Phase} (hown : a.Own)
    (h : Step (s.moment p.phase) a (s.moment phase)) : ({ p with phase := phase } : Worker).Behind s := by
  generalize hm : s.moment phase = m at h
  have hphase : phase = m.phase := by rw [← hm]; rfl
  cases h with
  | close _ _ _ => exact absurd hown id
  | crash => exact absurd hown id
  | commit _ _ => exact behind_idle hphase
  | rollback _ => exact behind_idle hphase
  | poll _ =>
      refine ⟨fun hp' => ?_, fun hp' => (by cases hphase.symm.trans hp')⟩
      cases hphase.symm.trans hp'
      exact le_rfl
  | @fetch fromLedger limit attempts hfetching =>
      have hfrom := hp.fetching hfetching
      dsimp only at hphase
      split at hphase
      · exact behind_idle hphase
      · rename_i hne
        refine ⟨fun hp' => (by cases hphase.symm.trans hp'), fun hp' => ?_⟩
        obtain rfl := Phase.fetched.inj (hphase.symm.trans hp')
        exact ⟨hne, fromLedger - 1, by omega, fetchEvents_pending s.log fromLedger limit⟩
  | @fetchFails fromLedger limit attempts hfetching =>
      dsimp only at hphase
      split at hphase
      · exact behind_idle hphase
      · refine ⟨fun hp' => ?_, fun hp' => (by cases hphase.symm.trans hp')⟩
        cases hphase.symm.trans hp'
        exact hp.fetching hfetching

/-- What a turn does: nothing to what is shared, or it commits the page in hand. -/
inductive TurnEffect (s : Shared) (p : Worker) (d : Deed) : Shared → Worker → Prop where
  | quiet {p' : Worker} (hd : d ≠ .act .commit) (hp : p.Behind s → p'.Behind s) : TurnEffect s p d s p'
  | commit {p' : Worker} {events : List RawEvent} {db : Database} (hd : d = .act .commit)
      (hidle : p'.phase = .idle) (hphase : p.phase = .fetched events)
      (hcursor : db.cursor = s.db.cursor) : TurnEffect s p d (s.committed db events) p'

theorem effect_of_turn (h : Turn s p d s' p') : TurnEffect s p d s' p' := by
  cases h with
  | @act _ _ a phase hown _ h =>
      by_cases ha : a = .commit
      · subst ha
        obtain ⟨events, db, hphase, hcursor, rfl, rfl⟩ := shared_of_commit h
        exact .commit rfl rfl hphase hcursor
      · obtain rfl := shared_of_step hown ha h
        exact .quiet (fun hd => ha (Deed.act.inj hd)) fun hp => behind_of_step hp hown h
  | signal => exact .quiet (fun hd => (by cases hd)) fun hp => ⟨hp.fetching, hp.fetched⟩
  | giveUp _ _ => exact .quiet (fun hd => (by cases hd)) fun _ => behind_idle rfl

theorem effect_of_beside (h : Beside s p d s' p') : TurnEffect s p d s' p' := by
  cases h with
  | turn _ h => exact effect_of_turn h
  | commit hphase hcursor => exact .commit rfl rfl hphase hcursor

theorem found_of_turn (h : TurnEffect s p d s' p') (hwhole : WholePage s p d) (hs : s.Found)
    (hp : p.Behind s) : s'.Found ∧ p'.Behind s' ∧ ∀ q : Worker, q.Behind s → q.Behind s' := by
  cases h with
  | quiet _ hp' => exact ⟨hs, hp' hp, fun _ hq => hq⟩
  | commit hd hidle hphase hcursor =>
      subst hd
      exact ⟨found_committed hs hp hphase hcursor hwhole, behind_idle hidle,
        fun _ hq => hq.grows (grows_committed hcursor)⟩

theorem grows_of_outside {closed : Int} {events : List RawEvent}
    (h : Step (s.moment .idle) (.close closed events) (s'.moment .idle)) : s.Grows s' := by
  obtain ⟨log', closed', db', folded'⟩ := s'
  unfold Shared.moment at h
  cases h with
  | close _ _ _ => exact ⟨le_rfl, List.prefix_append _ _⟩

theorem found_of_outside {closed : Int} {events : List RawEvent}
    (h : Step (s.moment .idle) (.close closed events) (s'.moment .idle)) (hs : s.Found) :
    s'.Found ∧ ∀ q : Worker, q.Behind s → q.Behind s' := by
  refine ⟨?_, fun _ hq => hq.grows (grows_of_outside h)⟩
  obtain ⟨log', closed', db', folded'⟩ := s'
  unfold Shared.moment at h
  cases h with
  | close hle hordered hnew =>
      refine ⟨?_, ?_, hs.cursor_le.trans hle, ?_⟩
      · refine List.pairwise_append.mpr ⟨hs.ordered, hordered, fun x hx y hy => ?_⟩
        exact (hs.closed x hx).trans (hnew y hy).1.le
      · intro ev hev
        rcases List.mem_append.mp hev with hev | hev
        · exact (hs.closed ev hev).trans hle
        · exact (hnew ev hev).2
      · intro ev hev hat
        rcases List.mem_append.mp hev with hev | hev
        · exact hs.folded ev hev hat
        · -- the cursor is not past the ledgers that were closed before
          exact absurd (hs.cursor_le.trans_lt (hnew ev hev).1) (not_lt.mpr hat)

theorem grows_of_step (h : Fleet.Step worker f m f') : f.shared.Grows f'.shared := by
  cases h with
  | enter _ _ | refused _ _ | leave _ _ | die _ | lose _ => exact .refl _
  | @turn w d p p' s' hon halone hbeside =>
      have heffect : TurnEffect f.shared p d s' p' :=
        (em (f.Alone w)).elim (fun h => effect_of_turn (halone h)) fun h => effect_of_beside (hbeside h)
      cases heffect with
      | quiet _ _ => exact .refl _
      | commit _ _ _ hcursor => exact grows_committed hcursor
  | outside h => exact grows_of_outside h

/-- **No event is passed over**, also where locks are lost and workers fold pages beside each other, as long
as the pages that are committed are whole: each event up to the cursor is folded, once at least.  From then
on the cursor does not go back. -/
theorem found_of_fleet
    (h : Run (fun f m f' => Fleet.Step worker f m f' ∧ f.Ok WholePage m) (Fleet.Crew.off .fresh) ms f) :
    (∀ ev ∈ f.shared.log, ev.at ≤ f.shared.cursor → ev ∈ f.shared.folded) ∧
    ∀ ms' f', Run (Fleet.Step worker) f ms' f' → f.shared.cursor ≤ f'.shared.cursor := by
  have hfresh : Shared.fresh.Found :=
    ⟨.nil, fun ev hev => (by cases hev), le_refl (0 : Int), fun ev hev => (by cases hev)⟩
  have hoff : (Fleet.Crew.off .fresh : Fleet.Crew ω Shared Worker).Holds Shared.Found
      (fun s p => p.Behind s) := ⟨hfresh, fun w p hp => by cases hp⟩
  have hholds : f.Holds Shared.Found (fun s p => p.Behind s) := by
    refine Fleet.rely (fun s _ => behind_idle rfl) ?_ (fun s e s' hout hs => found_of_outside hout hs) h hoff
    exact fun s p d s' p' hturn hwhole hs hp =>
      found_of_turn (hturn.elim effect_of_turn effect_of_beside) hwhole hs hp
  refine ⟨hholds.1.folded, fun ms' f' h' => ?_⟩
  refine h'.invariant (P := fun f' => f.shared.cursor ≤ f'.shared.cursor) ?_ le_rfl
  exact fun {u m v} _ hstep hle => hle.trans (grows_of_step hstep).1

/-! ### Being told to stop -/

/-- The worker `w` commits a page. -/
def commits (w : ω) : Moves ω → Bool
  | .turn u (.act .commit) => decide (u = w)
  | _ => false

def begins (w : ω) : Moves ω → Bool
  | .turn u (.act (.poll _ _)) => decide (u = w)
  | _ => false

theorem commits_eq_true {u : ω} (h : commits w (.turn u d : Moves ω) = true) :
    d = .act .commit ∧ u = w := by
  unfold commits at h
  split at h
  · rename_i heq
    obtain ⟨rfl, rfl⟩ := Fleet.Move.turn.inj heq
    exact ⟨rfl, of_decide_eq_true h⟩
  · cases h

theorem begins_eq_true {u : ω} (h : begins w (.turn u d : Moves ω) = true) :
    (∃ limit attempts, d = .act (.poll limit attempts)) ∧ u = w := by
  unfold begins at h
  split at h
  · rename_i heq
    obtain ⟨rfl, rfl⟩ := Fleet.Move.turn.inj heq
    exact ⟨⟨_, _, rfl⟩, of_decide_eq_true h⟩
  · cases h

/-- How many pages the worker `w` can commit still, after the signal. -/
def inHand (f : Fleet.Crew ω Shared Worker) (w : ω) : Nat :=
  match f.procs w with
  | some p => if p.phase = .idle then 0 else 1
  | none => 0

/-- The worker `w` has been told to stop, or has ended. -/
def Told (f : Fleet.Crew ω Shared Worker) (w : ω) : Prop := ∀ p ∈ f.procs w, p.aborted = true

/-- An idle worker has only the poll to begin with. -/
theorem not_idle_of_step {m m' : Moment} (h : Step m a m') (hown : a.Own) (hbegins : ¬ a.Begins) :
    m.phase ≠ .idle := by
  intro hidle
  cases h with
  | close _ _ _ | crash => exact hown
  | poll _ => exact hbegins trivial
  | fetch hphase | fetchFails hphase | commit hphase _ | rollback hphase =>
      cases hidle.symm.trans hphase

/-- A poll of a worker that has been told to stop: no new one. -/
theorem told_of_turn (h : Turn s p d s' p' ∨ Beside s p d s' p') (htold : p.aborted = true) :
    p'.aborted = true ∧ (∀ limit attempts, d ≠ .act (.poll limit attempts)) ∧
    (p.phase = .idle → p'.phase = .idle ∧ d ≠ .act .commit) ∧
    (d = .act .commit → p'.phase = .idle) := by
  have hturn : Turn s p d s' p' → p'.aborted = true ∧ (∀ limit attempts, d ≠ .act (.poll limit attempts)) ∧
      (p.phase = .idle → p'.phase = .idle ∧ d ≠ .act .commit) ∧
      (d = .act .commit → p'.phase = .idle) := by
    intro h
    cases h with
    | @act _ _ a phase hown hloop hstep =>
        have hbegins := hloop htold
        refine ⟨htold, fun limit attempts hd => ?_, fun hidle => ?_, fun hd => ?_⟩
        · obtain rfl := Deed.act.inj hd
          exact hbegins trivial
        · exact absurd hidle (not_idle_of_step hstep hown hbegins)
        · obtain rfl := Deed.act.inj hd
          obtain ⟨_, _, -, -, -, hidle⟩ := shared_of_commit hstep
          exact hidle
    | signal =>
        exact ⟨rfl, fun _ _ hd => (by cases hd), fun hidle => ⟨hidle, fun hd => (by cases hd)⟩,
          fun hd => (by cases hd)⟩
    | giveUp _ _ =>
        exact ⟨htold, fun _ _ hd => (by cases hd), fun _ => ⟨rfl, fun hd => (by cases hd)⟩,
          fun _ => rfl⟩
  rcases h with h | h
  · exact hturn h
  · cases h with
    | turn _ h => exact hturn h
    | commit hphase _ =>
        refine ⟨htold, fun _ _ hd => (by cases hd), fun hidle => ?_, fun _ => rfl⟩
        cases hidle.symm.trans hphase

theorem told_of_step (h : Fleet.Step worker f m f') (hm : m ≠ .enter w) (htold : Told f w) :
    Told f' w ∧ begins w m = false ∧
    (if commits w m = true then 1 else 0) + inHand f' w ≤ inHand f w := by
  have hsame : f'.procs w = f.procs w → Told f' w ∧ inHand f' w = inHand f w := by
    intro heq
    refine ⟨fun p hp => htold p ?_, ?_⟩
    · rw [← heq]
      exact hp
    · unfold inHand
      rw [heq]
  have hended : ∀ u, Told (f.ended u) w ∧ inHand (f.ended u) w ≤ inHand f w := by
    intro u
    unfold Told inHand Fleet.Crew.ended
    dsimp only
    by_cases hu : w = u
    · rw [hu, Function.update_self]
      exact ⟨fun p hp => (by cases hp), Nat.zero_le _⟩
    · rw [Function.update_of_ne hu]
      exact ⟨htold, le_rfl⟩
  cases h with
  | @enter u _ _ =>
      have hu : w ≠ u := fun heq => hm (heq ▸ rfl)
      obtain ⟨htold', hhand⟩ := hsame (Function.update_of_ne hu _ _)
      exact ⟨htold', rfl, (Nat.zero_add _).trans_le hhand.le⟩
  | refused _ _ => exact ⟨htold, rfl, (Nat.zero_add _).le⟩
  | lose _ => exact ⟨htold, rfl, (Nat.zero_add _).le⟩
  | outside _ => exact ⟨htold, rfl, (Nat.zero_add _).le⟩
  | leave _ _ => exact ⟨(hended _).1, rfl, (Nat.zero_add _).trans_le (hended _).2⟩
  | die _ => exact ⟨(hended _).1, rfl, (Nat.zero_add _).trans_le (hended _).2⟩
  | @turn u d p p' s' hon halone hbeside =>
      by_cases hu : w = u
      · subst hu
        have hdone : Turn f.shared p d s' p' ∨ Beside f.shared p d s' p' :=
          (em (f.Alone w)).imp halone hbeside
        obtain ⟨htold', hpoll, hidle, hcommit⟩ := told_of_turn hdone (htold p hon)
        refine ⟨fun q hq => ?_, ?_, ?_⟩
        · dsimp only at hq
          rw [Function.update_self] at hq
          obtain rfl := Option.some.inj hq
          exact htold'
        · refine Bool.eq_false_iff.mpr fun hbegins => ?_
          obtain ⟨⟨limit, attempts, hd⟩, -⟩ := begins_eq_true hbegins
          exact hpoll limit attempts hd
        · unfold inHand
          dsimp only
          rw [Function.update_self, hon]
          dsimp only
          by_cases hd : commits w (.turn w d) = true
          · have hact := (commits_eq_true hd).1
            have hbusy : p.phase ≠ .idle := fun h => (hidle h).2 hact
            rw [if_pos hd, if_pos (hcommit hact), if_neg hbusy]
          · rw [if_neg hd, Nat.zero_add]
            by_cases hrest : p.phase = .idle
            · rw [if_pos (hidle hrest).1]
              exact Nat.zero_le _
            · rw [if_neg hrest]
              split
              · exact Nat.zero_le 1
              · exact le_rfl
      · obtain ⟨htold', hhand⟩ := hsame (Function.update_of_ne hu _ _)
        have hno : ¬ commits w (.turn u d) = true := fun h => hu (commits_eq_true h).2.symm
        refine ⟨htold', Bool.eq_false_iff.mpr fun h => hu (begins_eq_true h).2.symm, ?_⟩
        rw [if_neg hno, Nat.zero_add]
        exact hhand.le

/-- **Told to stop**, a worker begins no poll, and commits the page in hand at most, if there is one, whatever
the others do, unless it is started again. -/
theorem signalled_of_run (hp : f.procs w = some p) (haborted : p.aborted = true)
    (h : Run (Fleet.Step worker) f ms f') (hnew : .enter w ∉ ms) :
    ms.countP (begins w) = 0 ∧ ms.countP (commits w) ≤ if p.phase = .idle then 0 else 1 := by
  have hstart : Told f w := fun q hq => (Option.some.inj (hp.symm.trans hq)) ▸ haborted
  have hall : Told f' w ∧ ms.countP (begins w) = 0 ∧ ms.countP (commits w) + inHand f' w ≤ inHand f w := by
    induction h with
    | nil => exact ⟨hstart, rfl, (Nat.zero_add _).le⟩
    | @snoc g g' ms m hrun hstep ih =>
        obtain ⟨htold, hbegins, hcommits⟩ := ih fun hin => hnew (List.mem_append_left _ hin)
        obtain ⟨htold', hno, hle⟩ := told_of_step hstep
          (fun heq => hnew (List.mem_append_right _ (heq ▸ List.mem_cons_self))) htold
        refine ⟨htold', ?_, ?_⟩
        · rw [List.countP_append, hbegins, List.countP_singleton, hno]
          rfl
        · rw [List.countP_append, List.countP_singleton]
          omega
  have hhand : inHand f w = if p.phase = .idle then 0 else 1 := by
    unfold inHand
    rw [hp]
  refine ⟨hall.2.1, ?_⟩
  rw [← hhand]
  exact (Nat.le_add_right _ _).trans hall.2.2

/-! ### Two workers -/

namespace Sample

/-- The ledger with the two events of ledger 7. -/
def closedShared : Shared := { Shared.fresh with log := log, closed := 7 }

def holdingWorker (page : List RawEvent) : Worker := ⟨.fetched page, false⟩

theorem closes : worker.Outside Shared.fresh (7, log) closedShared := step_close

theorem polls {s : Shared} (hs : s = closedShared) :
    Turn s worker.start (.act (.poll 2 3)) s ⟨.fetching 1 2 3, false⟩ := by
  subst hs
  exact .act trivial (fun h => (by cases h)) (step_poll 2)

theorem fetches : Turn closedShared ⟨.fetching 1 2 3, false⟩ (.act .fetch) closedShared
    (holdingWorker log) :=
  .act trivial (fun h => (by cases h)) (step_fetch rfl (List.cons_ne_nil _ _))

/-- The tables after the page. -/
def storedShared : Shared := closedShared.committed (ingested .fresh log) log

theorem commits_log : Step (holding log) .commit (stored log) := step_commit (by decide +kernel)

theorem stores : Turn closedShared (holdingWorker log) (.act .commit) storedShared ⟨.idle, false⟩ :=
  .act trivial (fun h => (by cases h)) commits_log

theorem whole_log (hs : s.log = log) (h : p.phase = .fetched log) : WholePage s p (.act .commit) := by
  rintro events - hphase
  obtain rfl := Phase.fetched.inj (h.symm.trans hphase)
  show (withKey RawEvent.at (nextLedger log).val s.log).length = _
  rw [hs]

theorem ok_turn {f : Fleet.Crew Bool Shared Worker} {w : Bool} (hd : d ≠ .act .commit) :
    f.Ok WholePage (.turn w d : Moves Bool) := by
  intro p _
  cases d with
  | act a => exact whole_of_ne fun ha => hd (congrArg Deed.act ha)
  | signal | giveUp => trivial

/-- Two workers. -/
def duo (s : Shared) (holder : Option Bool) (p q : Option Worker) : Fleet.Crew Bool Shared Worker :=
  ⟨s, holder, fun u => cond u q p⟩

variable {holder : Option Bool} {q : Option Worker}

theorem update_first {p x : Option Worker} :
    Function.update (fun u => cond u q p) false x = fun u => cond u q x := by
  funext u
  cases u with
  | false => rfl
  | true => rfl

theorem update_second {p x : Option Worker} :
    Function.update (fun u => cond u q p) true x = fun u => cond u x p := by
  funext u
  cases u with
  | false => rfl
  | true => rfl

theorem enter_first : Fleet.Step worker (duo s none none q) (.enter false)
    (duo s (some false) (some worker.start) q) := by
  have h : Fleet.Step worker (duo s none none q) (.enter false) _ := .enter rfl rfl
  rwa [show (duo s none none q).procs = fun u => cond u q none from rfl, update_first] at h

theorem enter_second {p : Option Worker} : Fleet.Step worker (duo s none p none) (.enter true)
    (duo s (some true) p (some worker.start)) := by
  have h : Fleet.Step worker (duo s none p none) (.enter true) _ := .enter rfl rfl
  rwa [show (duo s none p none).procs = fun u => cond u none p from rfl, update_second] at h

/-- The first one, alone. -/
theorem turn_first (h : Turn s p d s' p') :
    Fleet.Step worker (duo s holder (some p) none) (.turn false d) (duo s' holder (some p') none) := by
  have halone : (duo s holder (some p) none).Alone false := by
    intro u hu
    cases u with
    | false => exact absurd rfl hu
    | true => rfl
  have hstep : Fleet.Step worker (duo s holder (some p) none) (.turn false d) _ :=
    Fleet.step_alone rfl halone h
  rwa [show (duo s holder (some p) none).procs = fun u => cond u none (some p) from rfl,
    update_first] at hstep

theorem beside_first {r : Worker} (h : Beside s p d s' p') :
    Fleet.Step worker (duo s holder (some p) (some r)) (.turn false d)
      (duo s' holder (some p') (some r)) := by
  have hstep : Fleet.Step worker (duo s holder (some p) (some r)) (.turn false d) _ :=
    Fleet.step_beside (u := true) rfl Bool.false_ne_true.symm (Option.some_ne_none r) h
  rwa [show (duo s holder (some p) (some r)).procs = fun u => cond u (some r) (some p) from rfl,
    update_first] at hstep

theorem beside_second {r : Worker} (h : Beside s p d s' p') :
    Fleet.Step worker (duo s holder (some r) (some p)) (.turn true d)
      (duo s' holder (some r) (some p')) := by
  have hstep : Fleet.Step worker (duo s holder (some r) (some p)) (.turn true d) _ :=
    Fleet.step_beside (u := false) rfl Bool.false_ne_true (Option.some_ne_none r) h
  rwa [show (duo s holder (some r) (some p)).procs = fun u => cond u (some p) (some r) from rfl,
    update_second] at hstep

theorem enters_first : Fleet.Crew.off .fresh = duo .fresh none none none := by
  unfold Fleet.Crew.off duo
  congr 1
  funext u
  cases u with
  | false => rfl
  | true => rfl

theorem ended_first (hp : holder = some false) {p : Option Worker} :
    (duo s holder p q).ended false = duo s none none q := by
  subst hp
  unfold Fleet.Crew.ended duo
  dsimp only
  rw [update_first, if_pos rfl]

theorem ok_first (hs : s.log = log) (h : p.phase = .fetched log) :
    (duo s holder (some p) q).Ok WholePage (.turn false (.act .commit) : Moves Bool) := by
  intro p' hp'
  obtain rfl := Option.some.inj hp'
  exact whole_log hs h

theorem ok_second (hs : s.log = log) (h : p.phase = .fetched log) :
    (duo s holder q (some p)).Ok WholePage (.turn true (.act .commit) : Moves Bool) := by
  intro p' hp'
  obtain rfl := Option.some.inj hp'
  exact whole_log hs h

/-- The first one starts, and fetches the page. -/
theorem run_first : ∃ ms, Run (fun f m f' => Fleet.Step worker f m f' ∧ ¬ m.Loses ∧ f.Ok WholePage m)
    (Fleet.Crew.off .fresh) ms (duo closedShared (some false) (some (holdingWorker log)) none) := by
  rw [enters_first]
  exact ⟨_, ((((Run.nil _).snoc ⟨enter_first, id, trivial⟩).snoc
    ⟨.outside closes, id, trivial⟩).snoc
    ⟨turn_first (polls rfl), id, ok_turn fun h => (by cases h)⟩).snoc
    ⟨turn_first fetches, id, ok_turn fun h => (by cases h)⟩⟩

end Sample

open Sample

/-- The first worker folds the page and dies; the second one, which was refused before, takes over. -/
theorem single_of_fleet_handed_over : ∃ ms,
    Run (fun f m f' => Fleet.Step worker f m f' ∧ ¬ m.Loses ∧ f.Ok WholePage m) (Fleet.Crew.off .fresh)
      ms (duo storedShared (some true) none (some worker.start)) ∧
    storedShared.folded = reached RawEvent.at storedShared.cursor storedShared.log := by
  obtain ⟨ms, hfetched⟩ := run_first
  have hrefused : Fleet.Step worker (duo closedShared (some false) (some (holdingWorker log)) none)
      (.refused true) _ := .refused rfl (Option.some_ne_none _)
  have hdies : Fleet.Step worker (duo storedShared (some false) (some ⟨.idle, false⟩) none)
      (.die false) _ := .die rfl
  rw [ended_first rfl] at hdies
  have hrun := (((hfetched.snoc ⟨hrefused, id, trivial⟩).snoc
    ⟨turn_first stores, id, ok_first rfl rfl⟩).snoc ⟨hdies, id, trivial⟩).snoc
    ⟨enter_second, id, trivial⟩
  exact ⟨_, hrun, single_of_fleet.2 hrun⟩

/-- The first worker loses its lock while it holds the page; the second one folds it, and then the first one
does. -/
theorem found_of_fleet_beside : ∃ ms f,
    Run (fun f m f' => Fleet.Step worker f m f' ∧ f.Ok WholePage m)
      (Fleet.Crew.off .fresh : Fleet.Crew Bool Shared Worker) ms f ∧
    f.shared.folded = log ++ log ∧
    ∀ ev ∈ f.shared.log, ev.at ≤ f.shared.cursor → ev ∈ f.shared.folded := by
  obtain ⟨ms, hfetched⟩ := run_first
  have hfirst : Run (fun f m f' => Fleet.Step worker f m f' ∧ f.Ok WholePage m) _ ms _ :=
    hfetched.mono fun {_ _ _} _ hstep => ⟨hstep.1, hstep.2.2⟩
  have hcursor : (ingested closedShared.db log).cursor = closedShared.db.cursor :=
    cursor_of_ingestPage (ingestPage_eq (by decide +kernel))
  have hcursor' : (ingested storedShared.db log).cursor = storedShared.db.cursor :=
    cursor_of_ingestPage (ingestPage_eq (by decide +kernel))
  have hlost := (((hfirst.snoc ⟨.lose rfl, trivial⟩).snoc ⟨enter_second, trivial⟩).snoc
    ⟨beside_second (.turn (fun h => (by cases h)) (polls rfl)), ok_turn fun h => (by cases h)⟩).snoc
    ⟨beside_second (.turn (fun h => (by cases h)) fetches), ok_turn fun h => (by cases h)⟩
  have hrun := (hlost.snoc ⟨beside_second (.commit rfl hcursor), ok_second rfl rfl⟩).snoc
    ⟨beside_first (.commit rfl hcursor'), ok_first rfl rfl⟩
  exact ⟨_, _, hrun, rfl, (found_of_fleet hrun).1⟩

/-- A worker is told to stop while it holds the page: it commits it, and ends. -/
theorem signalled_of_run_ended : ∃ ms,
    Run (Fleet.Step worker) (duo closedShared (some false) (some ⟨.fetched log, true⟩) none) ms
      (duo storedShared none none none) ∧
    ms.countP (begins false) = 0 ∧ ms.countP (commits false) ≤ 1 := by
  have hstores : Turn closedShared ⟨.fetched log, true⟩ (.act .commit) storedShared ⟨.idle, true⟩ :=
    .act trivial (fun _ h => h) commits_log
  have hleaves : Fleet.Step worker (duo storedShared (some false) (some ⟨.idle, true⟩) none)
      (.leave false) _ := .leave rfl ⟨rfl, rfl⟩
  rw [ended_first rfl] at hleaves
  have hrun := ((Run.nil _).snoc (turn_first hstores)).snoc hleaves
  obtain ⟨hbegins, hcommits⟩ := signalled_of_run (w := false) (p := ⟨.fetched log, true⟩) rfl rfl hrun
    (by simp)
  rw [if_neg fun hidle => (by cases hidle)] at hcommits
  exact ⟨_, hrun, hbegins, hcommits⟩

end Drip.Indexer
