import Drip.Indexer.Values

/-!
# Indexer — Scaffold poller

`indexer/src/indexer/poller.ts` beside a growing ledger, with `fold.ts` and the source that `types.ts`
describes: `Poller` asks a `SorobanEventSource` for the events of a range of ledgers, page by page.  Between
ticks it keeps a `Cursor` only, the last scanned ledger and the token of the next page.

* `fold_of_documented`: `fold` takes every event that keeps to the tables of `types.ts`.
* `Answers`: a page that honours the contract of the source.
* `WatchStep`: the poller, from one `await` to the next, with a source and a cursor store that may fail, and a
  process that may be started again at any time.
-/

namespace Drip.Indexer.Scaffold
open Chain

/-! ### Events -/

/-- `EventType`, and the types that are none. -/
inductive EventType where
  | created | withdrawn | cancelled | forceCxl | paused | resumed | toppedUp | clawback | xferRec | setOp
  | rmOp | factoryPaused | factoryUnpaused
  | unknown (name : String)
deriving DecidableEq

/-- `SorobanEvent`; a field that is missing is not in `fields`. -/
structure SorobanEvent where
  ledger : Int
  timestamp : Int
  contractId : String
  txHash : String
  type : EventType
  fields : List (String × Value)
  sequence : Option Int
deriving DecidableEq

/-- What `types.ts` says of a field. -/
inductive Shape where
  | text
  /-- an `i128`, as a decimal text -/
  | amount
  | number

def Shape.Fits : Shape → Value → Prop
  | .text, .str s => s ≠ ""
  | .amount, .str s => (signed s.toList).isSome = true
  | .number, .num _ => True
  | _, _ => False

/-- The table of a type. -/
def EventType.shapes : EventType → Option (List (String × Shape))
  | .created => some [("recipient", .text), ("token", .text), ("rate_per_second", .amount),
      ("start_time", .number), ("end_time", .number), ("sequence", .number)]
  | .withdrawn => some [("amount", .amount), ("total_withdrawn", .amount), ("remaining", .amount),
      ("sequence", .number)]
  | .cancelled | .forceCxl => some [("refund_amount", .amount), ("withdrawn_so_far", .amount),
      ("sequence", .number)]
  | .paused => some [("paused_at", .number), ("withdrawable", .amount), ("sequence", .number)]
  | .resumed => some [("resumed_at", .number), ("sequence", .number)]
  | .toppedUp => some [("amount", .amount), ("new_balance", .amount), ("sequence", .number)]
  | .clawback => some [("amount", .amount), ("sequence", .number)]
  | .xferRec => some [("new_recipient", .text), ("sequence", .number)]
  | .setOp => some [("operator", .text), ("sequence", .number)]
  | .rmOp => some [("sequence", .number)]
  | .factoryPaused | .factoryUnpaused => some [("at", .number)]
  | .unknown _ => none

/-- `ev.fields[name]`, of which `none` is `undefined`. -/
def SorobanEvent.field (ev : SorobanEvent) (name : String) : Option Value := ev.fields.lookup name

/-- The event has the fields of its table. -/
def SorobanEvent.Documented (ev : SorobanEvent) : Prop :=
  ∃ table, ev.type.shapes = some table ∧
    ∀ f ∈ table, ∃ v, ev.field f.1 = some v ∧ f.2.Fits v

/-! ### Folding -/

/-- `!event.fields[name]`. -/
def SorobanEvent.lacks (ev : SorobanEvent) (name : String) : Prop :=
  ∀ v ∈ ev.field name, v.truthy = false

instance (ev : SorobanEvent) (name : String) : Decidable (ev.lacks name) :=
  inferInstanceAs (Decidable (∀ v ∈ ev.field name, v.truthy = false))

/-- `fold`; its database writes are still to come. -/
def fold (ev : SorobanEvent) : Except String Unit :=
  match ev.type with
  | .created => reject (ev.lacks "recipient" ∨ ev.lacks "token") "missing recipient/token for created"
  | .withdrawn => reject (ev.field "amount" = none) "missing amount for withdrawn"
  | .cancelled | .forceCxl => reject (ev.field "refund_amount" = none) "missing refund_amount"
  | .xferRec => reject (ev.lacks "new_recipient") "missing new_recipient for xfer_rec"
  | .paused => reject (ev.field "paused_at" = none) "missing paused_at"
  | .resumed | .toppedUp | .clawback | .setOp | .rmOp | .factoryPaused | .factoryUnpaused => .ok ()
  | .unknown name => .error ("unknown event type: " ++ name)

variable {ev : SorobanEvent}

/-- A field of the table is there. -/
theorem SorobanEvent.Documented.field (h : ev.Documented) {table : List (String × Shape)}
    {f : String × Shape} (htable : ev.type.shapes = some table) (hmem : f ∈ table) :
    ∃ v, ev.field f.1 = some v ∧ f.2.Fits v := by
  obtain ⟨table', htable', hfields⟩ := h
  obtain rfl : table = table' := Option.some.inj (htable.symm.trans htable')
  exact hfields f hmem

theorem not_lacks {name : String} {v : Value} (hv : ev.field name = some v) (hfits : Shape.text.Fits v) :
    ¬ ev.lacks name := by
  intro hlacks
  have hfalse := hlacks v hv
  cases v with
  | str s => exact absurd hfalse (by simpa [Value.truthy, Shape.Fits] using hfits)
  | _ => exact hfits

theorem fold_of_documented (h : ev.Documented) : fold ev = .ok () := by
  unfold fold
  cases htype : ev.type with
  | created =>
      have hshapes := congrArg EventType.shapes htype
      obtain ⟨r, hr, hfits⟩ := h.field (f := ("recipient", .text)) hshapes (by simp)
      obtain ⟨t, ht, hfits'⟩ := h.field (f := ("token", .text)) hshapes (by simp)
      exact if_neg (not_or.mpr ⟨not_lacks hr hfits, not_lacks ht hfits'⟩)
  | withdrawn =>
      obtain ⟨v, hv, -⟩ := h.field (f := ("amount", .amount)) (congrArg EventType.shapes htype) (by simp)
      exact if_neg (by simp [hv])
  | cancelled | forceCxl =>
      obtain ⟨v, hv, -⟩ :=
        h.field (f := ("refund_amount", .amount)) (congrArg EventType.shapes htype) (by simp)
      exact if_neg (by simp [hv])
  | xferRec =>
      obtain ⟨v, hv, hfits⟩ :=
        h.field (f := ("new_recipient", .text)) (congrArg EventType.shapes htype) (by simp)
      exact if_neg (not_lacks hv hfits)
  | paused =>
      obtain ⟨v, hv, -⟩ := h.field (f := ("paused_at", .number)) (congrArg EventType.shapes htype) (by simp)
      exact if_neg (by simp [hv])
  | resumed | toppedUp | clawback | setOp | rmOp | factoryPaused | factoryUnpaused => rfl
  | unknown name =>
      obtain ⟨table, htable, -⟩ := h
      rw [htype] at htable
      cases htable

/-! ### Pages -/

structure Cursor where
  lastLedger : Int
  nextToken : Option String
deriving DecidableEq

/-- `GetEventsParams`; `Poller` names no `endLedger`. -/
structure GetEventsParams where
  startLedger : Int
  cursor : Option String
  limit : Nat
deriving DecidableEq

structure Page where
  events : List SorobanEvent
  nextToken : Option String
  lastLedger : Int
deriving DecidableEq

/-- The parameters that `tick` builds from the cursor. -/
def Cursor.params (limit : Nat) (c : Cursor) : GetEventsParams where
  startLedger := if c.nextToken ≠ none then c.lastLedger else c.lastLedger + 1
  cursor := c.nextToken
  limit := limit

/-- The events of a range of ledgers. -/
def between (start stop : Int) (log : List SorobanEvent) : List SorobanEvent :=
  log.filter fun ev => start ≤ ev.ledger ∧ ev.ledger ≤ stop

/-- What a token stands for: the range it continues, and what is left of it. -/
structure Scan where
  token : String
  startLedger : Int
  lastLedger : Int
  rest : List SorobanEvent

/-! ### The poller -/

/-- What a tick is at. -/
inductive Phase where
  | idle
  /-- a call of `getEvents`, and the attempts left -/
  | asking (params : GetEventsParams) (left : Nat)
  /-- a page, the events of it that are still to be folded, and those that were -/
  | folding (page : Page) (rest taken : List SorobanEvent)
  /-- `saveCursor` -/
  | saving

/-- The events that were folded are told apart by the cursor that `saveCursor` has stored. -/
structure Watch where
  /-- the events in closed ledgers -/
  log : List SorobanEvent
  /-- the last closed ledger -/
  closed : Int
  /-- what the source last gave a token for -/
  scan : Option Scan
  cursor : Cursor
  /-- what `saveCursor` has stored -/
  stored : Option Cursor
  phase : Phase
  /-- the events that were folded when the cursor was stored -/
  saved : List SorobanEvent
  /-- those that were folded since, but for the page in hand -/
  unsaved : List SorobanEvent

/-- The events of the page in hand that were folded. -/
def Watch.taken (w : Watch) : List SorobanEvent :=
  match w.phase with
  | .folding _ _ taken => taken
  | _ => []

/-- The events that were folded from earlier pages. -/
def Watch.earlier (w : Watch) : List SorobanEvent := w.saved ++ w.unsaved

def Watch.folded (w : Watch) : List SorobanEvent := w.earlier ++ w.taken

/-- The cursor that `start` begins with, where `loadCursor` gives `loaded`. -/
def startCursor (startLedger : Int) (loaded : Option Cursor) : Cursor :=
  loaded.getD { lastLedger := startLedger - 1, nextToken := none }

/-- An empty chain, and a poller that has just started. -/
def Watch.fresh (startLedger : Int) : Watch where
  log := []
  closed := 0
  scan := none
  cursor := startCursor startLedger none
  stored := none
  phase := .idle
  saved := []
  unsaved := []

/-- `page` honours the contract of the source, which goes on with `scan`.  It says nothing of a token that
comes with another `startLedger` than the call it was given to. -/
inductive Answers (w : Watch) (params : GetEventsParams) (page : Page) : Option Scan → Prop where
  | first {rest : List SorobanEvent} (hcursor : params.cursor = none)
      (hrange : params.startLedger ≤ page.lastLedger ∧ page.lastLedger ≤ w.closed)
      (hlimit : page.events.length ≤ params.limit) (htoken : page.nextToken ≠ some "")
      (hscan : (page.events ++ rest).Perm (between params.startLedger page.lastLedger w.log))
      (hlast : page.nextToken = none → rest = []) :
      Answers w params page
        (page.nextToken.map fun token => ⟨token, params.startLedger, page.lastLedger, rest⟩)
  | next {scan : Scan} {rest : List SorobanEvent} (hscan : w.scan = some scan)
      (hcursor : params.cursor = some scan.token) (hstart : params.startLedger = scan.startLedger)
      (hrange : page.lastLedger = scan.lastLedger) (hlimit : page.events.length ≤ params.limit)
      (htoken : page.nextToken ≠ some "") (hrest : (page.events ++ rest).Perm scan.rest)
      (hlast : page.nextToken = none → rest = []) :
      Answers w params page
        (page.nextToken.map fun token => ⟨token, params.startLedger, page.lastLedger, rest⟩)
  | misused {scan : Option Scan} (hcursor : params.cursor ≠ none)
      (hstart : ∀ s ∈ w.scan, params.cursor = some s.token → params.startLedger ≠ s.startLedger)
      (hrange : params.startLedger ≤ page.lastLedger) : Answers w params page scan

/-- The loop over the events is done, and `this.cursor` is set. -/
def Watch.advanced (w : Watch) (page : Page) : Watch :=
  { w with
    cursor := { lastLedger := page.lastLedger, nextToken := page.nextToken }
    unsaved := w.unsaved ++ w.taken
    phase := .saving }

/-- A new process, whatever the old one was at; where `loadCursor` fails, it begins at `startLedger`. -/
def Watch.restarted (startLedger : Int) (w : Watch) (loaded : Bool) : Watch :=
  { w with
    cursor := startCursor startLedger (if loaded then w.stored else none)
    unsaved := w.unsaved ++ w.taken
    phase := .idle }

inductive Watching where
  /-- ledgers close, up to `closed`, with the events -/
  | close (closed : Int) (events : List SorobanEvent)
  | tick
  | fail
  | page (page : Page)
  | fold
  | advance
  | save
  | saveFails
  | restart (loaded : Bool)

/-- `Poller` with the options `startLedger`, `limit` and `retry.attempts`; without `saveCursor` each save
fails, and without `loadCursor` each load. -/
inductive WatchStep (startLedger : Int) (limit attempts : Nat) : Watch → Watching → Watch → Prop where
  | close {w : Watch} {closed : Int} {events : List SorobanEvent} (hle : w.closed ≤ closed)
      (hnew : ∀ ev ∈ events, w.closed < ev.ledger ∧ ev.ledger ≤ closed) :
      WatchStep startLedger limit attempts w (.close closed events)
        { w with log := w.log ++ events, closed := closed }
  | tick {w : Watch} (hphase : w.phase = .idle) :
      WatchStep startLedger limit attempts w .tick
        { w with phase := .asking (w.cursor.params limit) (max 1 attempts) }
  | fail {w : Watch} {params : GetEventsParams} {left : Nat} (hphase : w.phase = .asking params left) :
      WatchStep startLedger limit attempts w .fail
        { w with phase := if left ≤ 1 then .idle else .asking params (left - 1) }
  | page {w : Watch} {params : GetEventsParams} {left : Nat} {page : Page} {scan : Option Scan}
      (hphase : w.phase = .asking params left) (hpage : Answers w params page scan) :
      WatchStep startLedger limit attempts w (.page page)
        { w with scan := scan, phase := .folding page page.events [] }
  -- a failure to fold is logged, and the loop goes on
  | fold {w : Watch} {page : Page} {ev : SorobanEvent} {rest taken : List SorobanEvent}
      (hphase : w.phase = .folding page (ev :: rest) taken) :
      WatchStep startLedger limit attempts w .fold
        { w with phase := .folding page rest (if (fold ev).isOk then taken ++ [ev] else taken) }
  | advance {w : Watch} {page : Page} {taken : List SorobanEvent} (hphase : w.phase = .folding page [] taken) :
      WatchStep startLedger limit attempts w .advance (w.advanced page)
  | save {w : Watch} (hphase : w.phase = .saving) :
      WatchStep startLedger limit attempts w .save
        { w with stored := some w.cursor, saved := w.earlier, unsaved := [], phase := .idle }
  | saveFails {w : Watch} (hphase : w.phase = .saving) :
      WatchStep startLedger limit attempts w .saveFails { w with phase := .idle }
  | restart {w : Watch} (loaded : Bool) :
      WatchStep startLedger limit attempts w (.restart loaded) (w.restarted startLedger loaded)

end Drip.Indexer.Scaffold
