import Drip.Support.Runs
import Drip.Support.Watermark
import Drip.Indexer.Handlers

/-!
# Indexer — Poller

`indexer/src/poller.ts`, and the worker as it runs next to a growing ledger.

`pollOnce` reads the cursor, fetches a page, and then ingests it and saves the cursor in one
transaction.  It is taken apart at the points where the ledger can grow and the worker can fail: a
`Moment` holds what is in closed ledgers, what is committed, and how far the poll has come.  The
events of the committed transactions are kept in `folded`, which the worker itself never reads.
-/

namespace Drip.Indexer
open Chain Watermark

/-! ### The steps of a poll -/

/-- `getCursor`. -/
def getCursor (db : Database) : I64 := db.cursor.getD (.lit 0)

/-- `saveCursor`. -/
def saveCursor (db : Database) (ledger : I64) : Database :=
  { db with cursor := some (db.cursor.elim ledger fun last => max last ledger) }

/-- One turn of the loop of `ingestPage`. -/
def ingestEvent (db : Database) (ev : RawEvent) : Except Failure Database := do
  let db ← insertRawEvent db ev
  foldEvent db ev

def ingestPage (db : Database) (events : List RawEvent) : Except Failure Database :=
  events.foldlM ingestEvent db

def RawEvent.at (ev : RawEvent) : Int := ev.ledger.val

/-- The event source: of the events in closed ledgers, the first `limit` from `fromLedger` on. -/
def fetchEvents (log : List RawEvent) (fromLedger : Int) (limit : Nat) : List RawEvent :=
  (log.filter fun ev => fromLedger ≤ ev.at).take limit

/-- `Math.max(...events.map((e) => e.ledger))`. -/
def nextLedger (events : List RawEvent) : U32 := events.foldl (fun l ev => max l ev.ledger) (.lit 0)

/-! ### The worker -/

/-- How far `pollOnce` has come. -/
inductive Phase where
  | idle
  /-- the cursor is read; `attempts` to fetch the page are left -/
  | fetching (fromLedger : Int) (limit attempts : Nat)
  | fetched (events : List RawEvent)
deriving DecidableEq

structure Moment where
  /-- the events in closed ledgers -/
  log : List RawEvent
  /-- the last closed ledger -/
  closed : Int
  db : Database
  phase : Phase
  folded : List RawEvent

/-- An empty chain, and the tables as they are created. -/
def Moment.fresh : Moment where
  log := []
  closed := 0
  db := .fresh
  phase := .idle
  folded := []

/-- After the transaction that ingested `events`, which leaves the tables `db`. -/
def Moment.committed (m : Moment) (db : Database) (events : List RawEvent) : Moment :=
  { m with
    db := saveCursor db (nextLedger events).widen
    phase := .idle
    folded := m.folded ++ events }

inductive Action where
  /-- ledgers close, up to `closed`, with the events -/
  | close (closed : Int) (events : List RawEvent)
  | poll (limit attempts : Nat)
  | fetch
  | fetchFails
  | commit
  | rollback
  /-- the worker dies, or gives the poll up, and starts over -/
  | crash

inductive Step : Moment → Action → Moment → Prop where
  | close {m : Moment} {closed : Int} {events : List RawEvent} (hle : m.closed ≤ closed)
      (hordered : Ordered RawEvent.at events)
      (hnew : ∀ ev ∈ events, m.closed < ev.at ∧ ev.at ≤ closed) :
      Step m (.close closed events) { m with log := m.log ++ events, closed := closed }
  | poll {m : Moment} {limit attempts : Nat} (hidle : m.phase = .idle) :
      Step m (.poll limit attempts)
        { m with phase := .fetching ((getCursor m.db).val + 1) limit (max 1 attempts) }
  | fetch {m : Moment} {fromLedger : Int} {limit attempts : Nat}
      (hphase : m.phase = .fetching fromLedger limit attempts) :
      Step m .fetch
        { m with phase :=
            if fetchEvents m.log fromLedger limit = [] then .idle
            else .fetched (fetchEvents m.log fromLedger limit) }
  | fetchFails {m : Moment} {fromLedger : Int} {limit attempts : Nat}
      (hphase : m.phase = .fetching fromLedger limit attempts) :
      Step m .fetchFails
        { m with phase := if attempts ≤ 1 then .idle else .fetching fromLedger limit (attempts - 1) }
  | commit {m : Moment} {events : List RawEvent} {db : Database} (hphase : m.phase = .fetched events)
      (hingest : ingestPage m.db events = .ok db) :
      Step m .commit (m.committed db events)
  | rollback {m : Moment} {events : List RawEvent} (hphase : m.phase = .fetched events) :
      Step m .rollback { m with phase := .idle }
  | crash {m : Moment} : Step m .crash { m with phase := .idle }

variable {m : Moment} {page : List RawEvent} {fromLedger : Int} {limit attempts : Nat}

/-- A fetch that finds a page. -/
theorem step_of_page (hphase : m.phase = .fetching fromLedger limit attempts)
    (hpage : fetchEvents m.log fromLedger limit = page) (hne : page ≠ []) :
    Step m .fetch { m with phase := .fetched page } := by
  have h : Step m .fetch _ := .fetch hphase
  rw [hpage, if_neg hne] at h
  exact h

/-- A fetch that finds nothing. -/
theorem step_of_nothing (hphase : m.phase = .fetching fromLedger limit attempts)
    (hnil : fetchEvents m.log fromLedger limit = []) : Step m .fetch { m with phase := .idle } := by
  have h : Step m .fetch _ := .fetch hphase
  rw [if_pos hnil] at h
  exact h

end Drip.Indexer
