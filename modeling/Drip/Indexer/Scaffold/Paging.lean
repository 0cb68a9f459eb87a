import Drip.Support.Runs
import Drip.Indexer.Scaffold.Poller

/-!
# Indexer — Scaffold paging

What `Poller` owes its source and its cursor, and where it keeps to that: `Conforms` is what `types.ts` says
of `Cursor` and `Page`.

* `Steady`: what holds between steps while the poller conforms.
* `Clean`: what its steps have to meet.  The mark passes only last pages whose events can be folded, and none
  was folded before; and a restart finds nothing folded twice.
* `Careful`: what meets that, of the source and of the restarts.
* `conforms_of_run`: the runs that conform are the runs of clean steps, and careful ones are among them.
-/

namespace Drip.Indexer.Scaffold

variable {startLedger : Int} {limit attempts : Nat} {w w' : Watch} {a : Watching} {as : List Watching}
variable {params : GetEventsParams} {page : Page} {scan : Option Scan} {ev : SorobanEvent} {c : Cursor}
variable {log events folded rest taken : List SorobanEvent}

/-! ### What the poller owes -/

/-- After the step from `w` to `w'`: a call with a token has the `startLedger` of the call that the token
was given to; `lastLedger` is where it was while a token is left; and what was scanned up to it is folded,
each event as often as it happened. -/
structure Conforms (startLedger : Int) (w w' : Watch) : Prop where
  continued : ∀ params left, w'.phase = .asking params left → params.cursor ≠ none →
    ∃ scan, w'.scan = some scan ∧ params.cursor = some scan.token ∧ params.startLedger = scan.startLedger
  held : w'.cursor.nextToken ≠ none → w'.cursor.lastLedger = w.cursor.lastLedger
  counted : ∀ ev, startLedger ≤ ev.ledger → ev.ledger ≤ w'.cursor.lastLedger →
    w'.folded.count ev = w'.log.count ev

/-- `fold` takes the event: its type is known, and has the fields that it asks for. -/
def SorobanEvent.Foldable (ev : SorobanEvent) : Prop := (fold ev).isOk = true

/-- The step meets what the protocol asks for.  The mark goes past a page only if it is the last one of its
range, each of its events can be folded, and none of them was folded from an earlier page.  A restart finds no
event folded since the last save that the cursor it begins with has passed. -/
def Clean (startLedger : Int) (w : Watch) : Watching → Prop
  | .advance => ∀ page rest taken, w.phase = .folding page rest taken →
      page.nextToken = none ∧ ∀ ev ∈ page.events, ev.Foldable ∧ ev ∉ w.earlier
  | .restart loaded => ∀ ev ∈ w.unsaved ++ w.taken,
      (startCursor startLedger (if loaded then w.stored else none)).lastLedger < ev.ledger
  | _ => True

/-! ### Ranges -/

theorem between_append (start stop : Int) :
    between start stop (log ++ events) = between start stop log ++ between start stop events :=
  List.filter_append log events

theorem between_eq_nil {start stop : Int} (h : ∀ ev ∈ log, start ≤ ev.ledger → stop < ev.ledger) :
    between start stop log = [] := by
  refine List.filter_eq_nil_iff.mpr fun ev hev hin => ?_
  obtain ⟨hstart, hstop⟩ := of_decide_eq_true hin
  exact absurd hstop (not_le.mpr (h ev hev hstart))

theorem count_between {start stop : Int} (hstart : start ≤ ev.ledger) (hstop : ev.ledger ≤ stop) :
    (between start stop log).count ev = log.count ev :=
  List.count_filter (decide_eq_true ⟨hstart, hstop⟩)

/-! ### Steps -/

/-- The cursor has passed a part of the ledger, and each event in it was folded as often as it happened. -/
structure Marks (startLedger : Int) (log : List SorobanEvent) (closed : Int) (c : Cursor)
    (folded : List SorobanEvent) : Prop where
  last : c.nextToken = none
  start : startLedger ≤ c.lastLedger + 1
  reached : c.lastLedger < startLedger ∨ c.lastLedger ≤ closed
  counted : ∀ ev, startLedger ≤ ev.ledger → ev.ledger ≤ c.lastLedger → folded.count ev = log.count ev

/-- The page in hand is of the range past the cursor, and what was taken of it are the events that could be
folded so far. -/
structure InHand (w : Watch) (page : Page) (rest taken : List SorobanEvent) : Prop where
  range : w.cursor.lastLedger < page.lastLedger ∧ page.lastLedger ≤ w.closed
  scanned : ∃ later, (page.events ++ later).Perm (between (w.cursor.lastLedger + 1) page.lastLedger w.log) ∧
    (page.nextToken = none → later = [])
  taken : ∃ done, page.events = done ++ rest ∧ taken = done.filter fun ev => (fold ev).isOk

/-- What a tick has built of the cursor. -/
structure Ticks (w : Watch) : Prop where
  asking : ∀ params left, w.phase = .asking params left →
    params.startLedger = w.cursor.lastLedger + 1 ∧ params.cursor = none
  folding : ∀ page rest taken, w.phase = .folding page rest taken → InHand w page rest taken

/-- What holds of a conforming poller between steps. -/
structure Steady (startLedger : Int) (w : Watch) : Prop where
  closed : ∀ ev ∈ w.log, ev.ledger ≤ w.closed
  known : ∀ ev ∈ w.folded, ev ∈ w.log ∧ startLedger ≤ ev.ledger ∧ ev.Foldable
  marks : Marks startLedger w.log w.closed w.cursor w.earlier
  stored : Marks startLedger w.log w.closed (startCursor startLedger w.stored) w.saved
  ticks : Ticks w

/-- Nothing is passed before the first page. -/
theorem marks_start {closed : Int} : Marks startLedger log closed (startCursor startLedger none) folded where
  last := rfl
  start := (sub_add_cancel startLedger 1).ge
  reached := .inl (sub_one_lt startLedger)
  counted := fun ev hstart hlast => by
    have hlast : ev.ledger ≤ startLedger - 1 := hlast
    omega

theorem steady_fresh : Steady startLedger (.fresh startLedger) where
  closed := List.forall_mem_nil _
  known := List.forall_mem_nil _
  marks := marks_start
  stored := marks_start
  ticks := ⟨nofun, nofun⟩

/-- The cursor has passed nothing of the page in hand. -/
theorem InHand.past (h : InHand w page rest taken) :
    ∀ ev ∈ page.events, ev ∈ w.log ∧ w.cursor.lastLedger < ev.ledger ∧ ev.ledger ≤ page.lastLedger := by
  intro ev hev
  obtain ⟨later, hperm, -⟩ := h.scanned
  obtain ⟨hmem, hin⟩ := List.mem_filter.mp (hperm.mem_iff.mp (List.mem_append_left later hev))
  obtain ⟨hstart, hstop⟩ := of_decide_eq_true hin
  exact ⟨hmem, by omega, hstop⟩

theorem InHand.mem (h : InHand w page rest taken) : ∀ ev ∈ taken, ev ∈ page.events ∧ ev.Foldable := by
  intro ev hev
  obtain ⟨done, hdone, rfl⟩ := h.taken
  obtain ⟨hmem, hok⟩ := List.mem_filter.mp hev
  rw [hdone]
  exact ⟨List.mem_append_left rest hmem, hok⟩

theorem Steady.taken_past (h : Steady startLedger w) : ∀ ev ∈ w.taken, w.cursor.lastLedger < ev.ledger := by
  intro ev hev
  unfold Watch.taken at hev
  split at hev
  · rename_i page rest taken hphase
    have hhand := h.ticks.folding page rest taken hphase
    exact (hhand.past ev (hhand.mem ev hev).1).2.1
  · cases hev

theorem count_append_of_past {c : Cursor} (h : ∀ ev ∈ events, c.lastLedger < ev.ledger)
    (hlast : ev.ledger ≤ c.lastLedger) : (folded ++ events).count ev = folded.count ev := by
  have hnone : events.count ev = 0 :=
    List.count_eq_zero_of_not_mem fun hin => absurd hlast (not_le.mpr (h ev hin))
  rw [List.count_append, hnone, add_zero]

/-- A steady poller conforms. -/
theorem Steady.conforms (h : Steady startLedger w') : Conforms startLedger w w' where
  continued := fun params left hphase htoken => absurd (h.ticks.asking params left hphase).2 htoken
  held := fun htoken => absurd h.marks.last htoken
  counted := fun ev hstart hlast => by
    unfold Watch.folded
    rw [count_append_of_past h.taken_past hlast]
    exact h.marks.counted ev hstart hlast

theorem params_of_last (h : c.nextToken = none) : c.params limit = ⟨c.lastLedger + 1, none, limit⟩ := by
  unfold Cursor.params
  rw [h]
  rfl

/-! ### Ledgers that close -/

theorem Marks.close {closed closed' : Int} (h : Marks startLedger log closed c folded) (hle : closed ≤ closed')
    (hnew : ∀ ev ∈ events, closed < ev.ledger ∧ ev.ledger ≤ closed') :
    Marks startLedger (log ++ events) closed' c folded := by
  refine ⟨h.last, h.start, h.reached.imp_right fun hlast => hlast.trans hle, fun ev hstart hlast => ?_⟩
  have hnone : events.count ev = 0 := by
    refine List.count_eq_zero_of_not_mem fun hin => ?_
    have hclosed := (hnew ev hin).1
    have hreached := h.reached
    omega
  rw [List.count_append, hnone, add_zero]
  exact h.counted ev hstart hlast

theorem InHand.close (h : InHand w page rest taken) {closed : Int} (hle : w.closed ≤ closed)
    (hnew : ∀ ev ∈ events, w.closed < ev.ledger ∧ ev.ledger ≤ closed) :
    InHand { w with log := w.log ++ events, closed := closed } page rest taken := by
  have hnone : between (w.cursor.lastLedger + 1) page.lastLedger events = [] := by
    refine between_eq_nil fun ev hev _ => ?_
    have hclosed := (hnew ev hev).1
    have hrange := h.range.2
    omega
  refine ⟨⟨h.range.1, h.range.2.trans hle⟩, ?_, h.taken⟩
  show ∃ later, (page.events ++ later).Perm
    (between (w.cursor.lastLedger + 1) page.lastLedger (w.log ++ events)) ∧ _
  rw [between_append, hnone, List.append_nil]
  exact h.scanned

theorem Steady.close (h : Steady startLedger w) {closed : Int} (hle : w.closed ≤ closed)
    (hnew : ∀ ev ∈ events, w.closed < ev.ledger ∧ ev.ledger ≤ closed) :
    Steady startLedger { w with log := w.log ++ events, closed := closed } := by
  refine ⟨?_, fun ev hev => ?_, h.marks.close hle hnew, h.stored.close hle hnew, h.ticks.asking,
    fun page rest taken hphase => (h.ticks.folding page rest taken hphase).close hle hnew⟩
  · intro ev hev
    rcases List.mem_append.mp hev with hev | hev
    · exact (h.closed ev hev).trans hle
    · exact (hnew ev hev).2
  · obtain ⟨hlog, hrest⟩ := h.known ev hev
    exact ⟨List.mem_append_left events hlog, hrest⟩

/-! ### A tick -/

/-- A step that moves no cursor and has no page in hand. -/
theorem Steady.waits (h : Steady startLedger w) {phase : Phase}
    (hasking : ∀ params left, phase = .asking params left →
      params.startLedger = w.cursor.lastLedger + 1 ∧ params.cursor = none)
    (hfolding : ∀ page rest taken, phase ≠ .folding page rest taken) :
    Steady startLedger { w with phase := phase } := by
  refine ⟨h.closed, fun ev hev => h.known ev ?_, h.marks, h.stored, hasking,
    fun page rest taken hphase => absurd hphase (hfolding page rest taken)⟩
  rcases List.mem_append.mp hev with hev | hev
  · exact List.mem_append_left _ hev
  · unfold Watch.taken at hev
    split at hev
    · rename_i hphase
      exact absurd hphase (hfolding _ _ _)
    · cases hev

/-- A page for a call without a token. -/
theorem page_of_first (hpage : Answers w params page scan) (hcursor : params.cursor = none) :
    ∃ rest, (params.startLedger ≤ page.lastLedger ∧ page.lastLedger ≤ w.closed) ∧
      (page.events ++ rest).Perm (between params.startLedger page.lastLedger w.log) ∧
      (page.nextToken = none → rest = []) := by
  cases hpage with
  | first _ hrange _ _ hscan hlast => exact ⟨_, hrange, hscan, hlast⟩
  | next _ hcursor' => cases hcursor.symm.trans hcursor'
  | misused hcursor' => exact absurd hcursor hcursor'

theorem Steady.answered (h : Steady startLedger w) {left : Nat} (hphase : w.phase = .asking params left)
    (hpage : Answers w params page scan) :
    Steady startLedger { w with scan := scan, phase := .folding page page.events [] } := by
  obtain ⟨hstart, hcursor⟩ := h.ticks.asking params left hphase
  obtain ⟨later, hrange, hscan, hlast⟩ := page_of_first hpage hcursor
  rw [hstart] at hrange hscan
  refine ⟨h.closed, fun ev hev => h.known ev ?_, h.marks, h.stored, nofun, ?_⟩
  · rcases List.mem_append.mp hev with hev | hev
    · exact List.mem_append_left _ hev
    · cases hev
  · rintro _ _ _ ⟨⟩
    exact ⟨⟨Int.lt_of_add_one_le hrange.1, hrange.2⟩, ⟨later, hscan, hlast⟩, [], rfl, rfl⟩

theorem InHand.folds (h : InHand w page (ev :: rest) taken) :
    InHand w page rest (if (fold ev).isOk then taken ++ [ev] else taken) := by
  obtain ⟨done, hdone, rfl⟩ := h.taken
  refine ⟨h.range, h.scanned, done ++ [ev], by rw [hdone, List.append_assoc]; rfl, ?_⟩
  by_cases hok : (fold ev).isOk = true
  · simp only [List.filter_append, List.filter_cons, List.filter_nil, hok, if_true]
  · simp only [List.filter_append, List.filter_cons, List.filter_nil, hok, if_false, List.append_nil,
      Bool.false_eq_true]

/-- One more event of the page in hand. -/
theorem Steady.folds (h : Steady startLedger w) (hhand : InHand w page rest taken) :
    Steady startLedger { w with phase := .folding page rest taken } := by
  have hstart := h.marks.start
  refine ⟨h.closed, fun e he => ?_, h.marks, h.stored, nofun, ?_⟩
  · rcases List.mem_append.mp he with he | he
    · exact h.known e (List.mem_append_left _ he)
    · obtain ⟨hmem, hfoldable⟩ := hhand.mem e he
      obtain ⟨hlog, hpast, -⟩ := hhand.past e hmem
      exact ⟨hlog, by omega, hfoldable⟩
  · rintro _ _ _ ⟨⟩
    exact ⟨hhand.range, hhand.scanned, hhand.taken⟩

/-! ### The mark -/

theorem taken_of_folding (hphase : w.phase = .folding page rest taken) : w.taken = taken := by
  unfold Watch.taken
  rw [hphase]

/-- The events of a page that is folded to its end. -/
theorem InHand.taken_eq (h : InHand w page [] taken) :
    taken = page.events.filter fun ev => (fold ev).isOk := by
  obtain ⟨done, hdone, rfl⟩ := h.taken
  rw [hdone, List.append_nil]

/-- What happened past the mark, up to the end of a last page, is on the page. -/
theorem InHand.count (h : InHand w page rest taken) (hlast : page.nextToken = none)
    (hpast : w.cursor.lastLedger < ev.ledger) (hstop : ev.ledger ≤ page.lastLedger) :
    w.log.count ev = page.events.count ev := by
  obtain ⟨later, hperm, hlater⟩ := h.scanned
  rw [hlater hlast, List.append_nil] at hperm
  rw [hperm.count_eq ev, count_between (by omega) hstop]

/-- A last page whose events can be folded, and were not before. -/
theorem Steady.counted (h : Steady startLedger w) (hphase : w.phase = .folding page [] taken)
    (hlast : page.nextToken = none) (hfresh : ∀ ev ∈ page.events, ev.Foldable ∧ ev ∉ w.earlier)
    (hstart : startLedger ≤ ev.ledger) (hstop : ev.ledger ≤ page.lastLedger) :
    (w.earlier ++ w.taken).count ev = w.log.count ev := by
  have hhand := h.ticks.folding page [] taken hphase
  have hall : w.taken = page.events := by
    rw [taken_of_folding hphase, hhand.taken_eq]
    exact List.filter_eq_self.mpr fun e he => (hfresh e he).1
  by_cases hpast : ev.ledger ≤ w.cursor.lastLedger
  · rw [count_append_of_past h.taken_past hpast]
    exact h.marks.counted ev hstart hpast
  · rw [List.count_append, hall, hhand.count hlast (not_le.mp hpast) hstop]
    suffices hnone : w.earlier.count ev = 0 by rw [hnone, zero_add]
    refine List.count_eq_zero_of_not_mem fun hin => ?_
    -- an earlier event happened, so it is on the page
    have hlog := List.count_pos_iff.mpr (h.known ev (List.mem_append_left _ hin)).1
    rw [hhand.count hlast (not_le.mp hpast) hstop] at hlog
    exact (hfresh ev (List.count_pos_iff.mp hlog)).2 hin

theorem Steady.advance (h : Steady startLedger w) (hphase : w.phase = .folding page [] taken)
    (hclean : Clean startLedger w .advance) : Steady startLedger (w.advanced page) := by
  obtain ⟨hlast, hfresh⟩ := hclean page [] taken hphase
  have hhand := h.ticks.folding page [] taken hphase
  have hstart := h.marks.start
  have hrange := h.ticks.folding page [] taken hphase |>.range
  have hearlier : (w.advanced page).earlier = w.earlier ++ w.taken := (List.append_assoc ..).symm
  refine ⟨h.closed, fun ev hev => h.known ev ?_, ⟨hlast, ?_, .inr hrange.2, fun ev hge hle => ?_⟩, h.stored,
    nofun, nofun⟩
  · unfold Watch.folded at hev
    rw [hearlier] at hev
    exact (List.mem_append.mp hev).resolve_right nofun
  · show startLedger ≤ page.lastLedger + 1
    omega
  · rw [hearlier]
    exact h.counted hphase hlast hfresh hge hle

/-- Where the mark has passed the page and the poller conforms. -/
theorem Steady.clean_of_advance (h : Steady startLedger w) (hphase : w.phase = .folding page [] taken)
    (hconforms : Conforms startLedger w (w.advanced page)) : Clean startLedger w .advance := by
  rintro page' rest' taken' hphase'
  obtain ⟨rfl, rfl, rfl⟩ := Phase.folding.inj (hphase.symm.trans hphase')
  have hhand := h.ticks.folding page [] taken hphase
  have hlast : page.nextToken = none := by
    by_contra htoken
    have hheld : page.lastLedger = w.cursor.lastLedger := hconforms.held htoken
    exact absurd hheld hhand.range.1.ne'
  refine ⟨hlast, fun ev hev => ?_⟩
  obtain ⟨-, hpast, hstop⟩ := hhand.past ev hev
  have hstart := h.marks.start
  have hcounted : (w.advanced page).folded.count ev = w.log.count ev :=
    hconforms.counted ev (by omega) hstop
  have hfolded : (w.advanced page).folded = w.earlier ++ taken := by
    unfold Watch.folded Watch.earlier
    show w.saved ++ (w.unsaved ++ w.taken) ++ [] = _
    rw [taken_of_folding hphase, List.append_nil, List.append_assoc]
  rw [hfolded, List.count_append, hhand.count hlast hpast hstop, hhand.taken_eq] at hcounted
  have hpos := List.count_pos_iff.mpr hev
  by_cases hok : ev.Foldable
  · have htaken : (page.events.filter fun e => (fold e).isOk).count ev = page.events.count ev :=
      List.count_filter hok
    exact ⟨hok, List.count_eq_zero.mp (by omega)⟩
  · -- what cannot be folded was not folded before either
    have htaken : (page.events.filter fun e => (fold e).isOk).count ev = 0 :=
      List.count_eq_zero_of_not_mem fun hin => hok (List.mem_filter.mp hin).2
    have hearlier : w.earlier.count ev = 0 :=
      List.count_eq_zero_of_not_mem fun hin => hok (h.known ev (List.mem_append_left _ hin)).2.2
    omega

/-! ### Saving and starting again -/

theorem Steady.save (h : Steady startLedger w) :
    Steady startLedger
      { w with stored := some w.cursor, saved := w.earlier, unsaved := [], phase := .idle } := by
  have hearlier : w.earlier ++ [] = w.earlier := List.append_nil _
  refine ⟨h.closed, fun ev hev => h.known ev ?_, ?_, h.marks, nofun, nofun⟩
  · have hev : ev ∈ w.earlier ++ [] ++ [] := hev
    rw [List.append_nil, List.append_nil] at hev
    exact List.mem_append_left _ hev
  · refine ⟨h.marks.last, h.marks.start, h.marks.reached, fun ev hge hle => ?_⟩
    show (w.earlier ++ []).count ev = w.log.count ev
    rw [hearlier]
    exact h.marks.counted ev hge hle

theorem folded_eq : w.folded = w.saved ++ (w.unsaved ++ w.taken) := List.append_assoc ..

theorem folded_restarted (loaded : Bool) : (w.restarted startLedger loaded).folded = w.folded := by
  rw [folded_eq, folded_eq]
  show w.saved ++ (w.unsaved ++ w.taken ++ []) = _
  rw [List.append_nil]

/-- What the loaded cursor has passed was folded when it was stored. -/
theorem Steady.loads (h : Steady startLedger w) (loaded : Bool) :
    Marks startLedger w.log w.closed (startCursor startLedger (if loaded then w.stored else none)) w.saved := by
  cases loaded with
  | true => exact h.stored
  | false => exact marks_start

theorem Steady.restart (h : Steady startLedger w) {loaded : Bool}
    (hclean : Clean startLedger w (.restart loaded)) : Steady startLedger (w.restarted startLedger loaded) := by
  have hloads := h.loads loaded
  have hfolded : (w.restarted startLedger loaded).folded = w.folded := folded_restarted loaded
  refine ⟨h.closed, fun ev hev => h.known ev (hfolded ▸ hev),
    ⟨hloads.last, hloads.start, hloads.reached, fun ev hge hle => ?_⟩, h.stored, nofun, nofun⟩
  show (w.saved ++ (w.unsaved ++ w.taken)).count ev = w.log.count ev
  rw [count_append_of_past hclean hle]
  exact hloads.counted ev hge hle

theorem Steady.clean_of_restart (h : Steady startLedger w) {loaded : Bool}
    (hconforms : Conforms startLedger w (w.restarted startLedger loaded)) :
    Clean startLedger w (.restart loaded) := by
  intro ev hev
  by_contra hpassed
  have hle := not_lt.mp hpassed
  have hge : startLedger ≤ ev.ledger := (h.known ev (folded_eq ▸ List.mem_append_right _ hev)).2.1
  have hcounted : (w.restarted startLedger loaded).folded.count ev = w.log.count ev :=
    hconforms.counted ev hge hle
  have hsaved := (h.loads loaded).counted ev hge hle
  have hpos := List.count_pos_iff.mpr hev
  rw [folded_restarted, folded_eq, List.count_append] at hcounted
  omega

/-! ### Runs -/

theorem Steady.step (h : Steady startLedger w) (hstep : WatchStep startLedger limit attempts w a w')
    (hclean : Clean startLedger w a) : Steady startLedger w' := by
  cases hstep with
  | close hle hnew => exact h.close hle hnew
  | tick hphase =>
      refine h.waits (fun params left hcall => ?_) nofun
      obtain ⟨rfl, -⟩ := Phase.asking.inj hcall
      rw [params_of_last h.marks.last]
      exact ⟨rfl, rfl⟩
  | fail hphase =>
      refine h.waits (fun params left hcall => ?_) fun page rest taken hcall => ?_
      · split at hcall
        · cases hcall
        · obtain ⟨rfl, -⟩ := Phase.asking.inj hcall
          exact h.ticks.asking _ _ hphase
      · split at hcall
        · cases hcall
        · cases hcall
  | page hphase hpage => exact h.answered hphase hpage
  | fold hphase => exact h.folds (h.ticks.folding _ _ _ hphase).folds
  | advance hphase => exact h.advance hphase hclean
  | save hphase => exact h.save
  | saveFails hphase => exact h.waits nofun nofun
  | restart loaded => exact h.restart hclean

/-- One step conforms exactly if it is clean. -/
theorem Steady.conforms_iff (h : Steady startLedger w)
    (hstep : WatchStep startLedger limit attempts w a w') :
    Conforms startLedger w w' ↔ Clean startLedger w a := by
  refine ⟨fun hconforms => ?_, fun hclean => (h.step hstep hclean).conforms⟩
  cases hstep with
  | advance hphase => exact h.clean_of_advance hphase hconforms
  | restart loaded => exact h.clean_of_restart hconforms
  | close | tick | fail | page | fold | save | saveFails => trivial

/-- The source gives each range on one page, of events that keep to the tables of `types.ts`; and a restart
loads what was stored, with nothing folded since. -/
def Careful (w : Watch) : Watching → Prop
  | .advance => ∀ page rest taken, w.phase = .folding page rest taken →
      page.nextToken = none ∧ ∀ ev ∈ page.events, ev.Documented
  | .restart loaded => (loaded = true ∨ w.stored = none) ∧ w.unsaved = [] ∧ w.taken = []
  | _ => True

/-- Nothing was folded past the cursor, but of the page in hand. -/
structure Behind (startLedger : Int) (w : Watch) : Prop where
  earlier : ∀ ev ∈ w.earlier, ev.ledger ≤ w.cursor.lastLedger
  saved : ∀ ev ∈ w.saved, ev.ledger ≤ (startCursor startLedger w.stored).lastLedger

theorem Steady.clean_of_careful (h : Steady startLedger w) (hb : Behind startLedger w)
    (hcareful : Careful w a) : Clean startLedger w a := by
  cases a with
  | advance =>
      intro page rest taken hphase
      obtain ⟨hlast, hdocumented⟩ := hcareful page rest taken hphase
      refine ⟨hlast, fun ev hev => ⟨?_, fun hin => ?_⟩⟩
      · unfold SorobanEvent.Foldable
        rw [fold_of_documented (hdocumented ev hev)]
        rfl
      · have hpast := ((h.ticks.folding page rest taken hphase).past ev hev).2.1
        exact absurd (hb.earlier ev hin) (not_le.mpr hpast)
  | restart loaded =>
      obtain ⟨-, hunsaved, htaken⟩ := hcareful
      intro ev hev
      rw [hunsaved, htaken] at hev
      cases hev
  | _ => trivial

theorem Behind.step (h : Steady startLedger w) (hb : Behind startLedger w)
    (hstep : WatchStep startLedger limit attempts w a w') (hcareful : Careful w a) : Behind startLedger w' := by
  cases hstep with
  | close | tick | fail | page | fold | saveFails => exact ⟨hb.earlier, hb.saved⟩
  | advance hphase =>
      rename_i page taken
      have hhand := h.ticks.folding page [] taken hphase
      refine ⟨fun ev hev => ?_, hb.saved⟩
      have hev : ev ∈ w.saved ++ (w.unsaved ++ w.taken) := hev
      rw [← List.append_assoc, taken_of_folding hphase] at hev
      rcases List.mem_append.mp hev with hev | hev
      · exact (hb.earlier ev hev).trans hhand.range.1.le
      · exact (hhand.past ev (hhand.mem ev hev).1).2.2
  | save hphase =>
      have hearlier : w.earlier ++ [] = w.earlier := List.append_nil _
      refine ⟨fun ev hev => hb.earlier ev ?_, hb.earlier⟩
      rw [← hearlier]
      exact hev
  | restart loaded =>
      obtain ⟨hloaded, hunsaved, htaken⟩ := hcareful
      have hcursor : (if loaded then w.stored else none) = w.stored := by
        rcases hloaded with rfl | hnone
        · rfl
        · rw [hnone, ite_self]
      refine ⟨fun ev hev => ?_, hb.saved⟩
      have hev : ev ∈ w.saved ++ (w.unsaved ++ w.taken) := hev
      rw [hunsaved, htaken, List.append_nil, List.append_nil] at hev
      show ev.ledger ≤ (startCursor startLedger (if loaded then w.stored else none)).lastLedger
      rw [hcursor]
      exact hb.saved ev hev

theorem clean_of_run (h : Run (fun w a w' => WatchStep startLedger limit attempts w a w' ∧ Careful w a)
      (.fresh startLedger) as w) :
    Run (fun w a w' => WatchStep startLedger limit attempts w a w' ∧ Clean startLedger w a)
      (.fresh startLedger) as w := by
  refine (Run.does_mono (P := fun w => Steady startLedger w ∧ Behind startLedger w)
    (fun w a w' hstep hw hcareful => ?_) ⟨steady_fresh, List.forall_mem_nil _, List.forall_mem_nil _⟩ h).1
  have hclean := hw.1.clean_of_careful hw.2 hcareful
  exact ⟨hclean, hw.1.step hstep hclean, hw.2.step hw.1 hstep hcareful⟩

/-- **Where the poller keeps the protocol.**  Along a run of the poller beside its source, calls with a token
continue the range of the token, `lastLedger` waits for the last page and what it has passed is folded once,
exactly if each page that the mark goes past is the last one of its range, with events that can all be folded
and none that was folded before, and no restart finds an event folded twice.  Single pages of documented
events are enough, where each restart loads what was stored and nothing was folded since. -/
theorem conforms_of_run :
    (Run (fun w a w' => WatchStep startLedger limit attempts w a w' ∧ Conforms startLedger w w')
        (.fresh startLedger) as w ↔
      Run (fun w a w' => WatchStep startLedger limit attempts w a w' ∧ Clean startLedger w a)
        (.fresh startLedger) as w) ∧
    (Run (fun w a w' => WatchStep startLedger limit attempts w a w' ∧ Careful w a) (.fresh startLedger) as w →
      Run (fun w a w' => WatchStep startLedger limit attempts w a w' ∧ Conforms startLedger w w')
        (.fresh startLedger) as w) := by
  have hspec : Run (fun w a w' => WatchStep startLedger limit attempts w a w' ∧ Conforms startLedger w w')
        (.fresh startLedger) as w ↔ _ :=
    (Run.does_spec (P := fun w => Steady startLedger w) (fun _ _ _ hstep h => h.conforms_iff hstep)
      (fun _ _ _ hstep h hclean => h.step hstep hclean) steady_fresh).1
  exact ⟨hspec, fun h => hspec.mpr (clean_of_run h)⟩

/-! ### Runs that break it -/

namespace Sample

/-- A top-up, in ledger `ledger`. -/
def toppedUp (ledger : Int) : SorobanEvent where
  ledger := ledger
  timestamp := 0
  contractId := "CSTREAM0001"
  txHash := "a"
  type := .toppedUp
  fields := [("amount", .str "100"), ("new_balance", .str "200"), ("sequence", .num ledger)]
  sequence := some ledger

/-- A change of the rate, which is none of the types of `types.ts`. -/
def rateChanged : SorobanEvent := { toppedUp 3 with type := .unknown "rate_chg" }

/-- The ledgers 1 to 10, on one page. -/
def whole (events : List SorobanEvent) : Page where
  events := events
  nextToken := none
  lastLedger := 10

/-- The first page of the ledgers 1 to 10. -/
def firstPage : Page := { whole [toppedUp 3] with nextToken := some "t" }

/-- What it has left. -/
def left : Scan := ⟨"t", 1, 10, [toppedUp 5]⟩

/-- Ten ledgers have closed; what was folded is past the cursor. -/
def begun (log unsaved : List SorobanEvent) : Watch :=
  { Watch.fresh 1 with log := log, closed := 10, unsaved := unsaved }

/-- The mark has passed the page. -/
def passed (log unsaved : List SorobanEvent) (page : Page) (scan : Option Scan) : Watch :=
  { begun log unsaved with scan := scan, cursor := ⟨page.lastLedger, page.nextToken⟩, phase := .saving }

/-- The second page is asked for. -/
def continued : Watch :=
  { begun [toppedUp 3, toppedUp 5] [] with
    scan := some left, cursor := ⟨10, some "t"⟩, stored := some ⟨10, some "t"⟩, saved := [toppedUp 3]
    phase := .asking ⟨10, some "t", 1⟩ 3 }

/-- A page with one event. -/
def pass (page : Page) : List Watching := [.tick, .page page, .fold, .advance]

def continuing : List Watching :=
  [.close 10 [toppedUp 3, toppedUp 5]] ++ pass firstPage ++ [.save] ++ [.tick]

/-- The change of the rate is left out. -/
def skipped : Watch := passed [rateChanged] [] (whole [rateChanged]) none

def skipping : List Watching := [.close 10 [rateChanged]] ++ pass (whole [rateChanged])

/-- The top-up is folded twice. -/
def repeated : Watch := passed [toppedUp 3] [toppedUp 3, toppedUp 3] (whole [toppedUp 3]) none

def repeating : List Watching :=
  [.close 10 [toppedUp 3]] ++ pass (whole [toppedUp 3]) ++ [.saveFails] ++ [.restart true] ++
    pass (whole [toppedUp 3])

theorem run_begun (log : List SorobanEvent) (h : ∀ ev ∈ log, 0 < ev.ledger ∧ ev.ledger ≤ 10) :
    Run (WatchStep 1 1 3) (.fresh 1) [.close 10 log] (begun log []) :=
  (Run.nil _).snoc (.close (by decide) h)

theorem run_pass {log unsaved : List SorobanEvent} {page : Page} {scan : Option Scan} {ev : SorobanEvent}
    (hpage : Answers { begun log unsaved with phase := .asking ⟨1, none, 1⟩ 3 } ⟨1, none, 1⟩ page scan)
    (hev : page.events = [ev]) :
    Run (WatchStep 1 1 3) (begun log unsaved) (pass page)
      (passed log (unsaved ++ if (fold ev).isOk then [ev] else []) page scan) := by
  obtain ⟨events, nextToken, lastLedger⟩ := page
  obtain rfl : events = [ev] := hev
  have htick : WatchStep 1 1 3 (begun log unsaved) .tick
      { begun log unsaved with phase := .asking ⟨1, none, 1⟩ 3 } := .tick rfl
  exact ((((Run.nil _).snoc htick).snoc (.page rfl hpage)).snoc (.fold rfl)).snoc (.advance rfl)

end Sample

/-- A run whose last step does not conform. -/
theorem not_run_of_last (hne : as ≠ []) (h : ∀ w, ¬ Conforms startLedger w w') :
    ¬ Run (fun w a w' => WatchStep startLedger limit attempts w a w' ∧ Conforms startLedger w w')
      (.fresh startLedger) as w' := by
  intro hrun
  cases hrun with
  | nil => exact hne rfl
  | snoc _ hlast => exact h _ hlast.2

/-- The second page of the ledgers 1 to 10 is asked for from ledger 10 on, with an event of ledger 5 still to
be folded; a change of the rate is passed and never folded; and an event is folded again, after a save that
failed. -/
theorem second_page_moved :
    (Run (WatchStep 1 1 3) (.fresh 1) Sample.continuing Sample.continued ∧
      (¬ Run (fun w a w' => WatchStep 1 1 3 w a w' ∧ Conforms 1 w w') (.fresh 1) Sample.continuing
        Sample.continued) ∧
      Sample.continued.scan = some Sample.left ∧ Sample.left.startLedger = 1 ∧
      Sample.continued.phase = .asking ⟨10, some Sample.left.token, 1⟩ 3 ∧
      Sample.continued.cursor.lastLedger = 10 ∧ Sample.toppedUp 5 ∉ Sample.continued.folded) ∧
    (Run (WatchStep 1 1 3) (.fresh 1) Sample.skipping Sample.skipped ∧
      (¬ Run (fun w a w' => WatchStep 1 1 3 w a w' ∧ Conforms 1 w w') (.fresh 1) Sample.skipping
        Sample.skipped) ∧
      Sample.skipped.cursor = ⟨10, none⟩ ∧ Sample.skipped.log = [Sample.rateChanged] ∧
      Sample.skipped.folded = []) ∧
    (Run (WatchStep 1 1 3) (.fresh 1) Sample.repeating Sample.repeated ∧
      (¬ Run (fun w a w' => WatchStep 1 1 3 w a w' ∧ Conforms 1 w w') (.fresh 1) Sample.repeating
        Sample.repeated) ∧
      Sample.repeated.cursor = ⟨10, none⟩ ∧ Sample.repeated.log = [Sample.toppedUp 3] ∧
      Sample.repeated.folded = [Sample.toppedUp 3, Sample.toppedUp 3]) := by
  refine ⟨?_, ?_, ?_⟩
  · have hpage : Answers { Sample.begun [Sample.toppedUp 3, Sample.toppedUp 5] [] with
        phase := .asking ⟨1, none, 1⟩ 3 } ⟨1, none, 1⟩ Sample.firstPage (some Sample.left) :=
      .first rfl ⟨by decide, le_rfl⟩ le_rfl (by decide) (.of_eq rfl) nofun
    have hrun := (Sample.run_begun [Sample.toppedUp 3, Sample.toppedUp 5] (by decide)).trans
      (Sample.run_pass hpage rfl)
    refine ⟨(hrun.snoc (.save rfl)).snoc (.tick rfl), not_run_of_last nofun fun w hconforms => ?_,
      rfl, rfl, rfl, rfl, by decide⟩
    obtain ⟨scan, hscan, -, hstart⟩ := hconforms.continued _ _ rfl nofun
    cases hscan
    exact absurd hstart (by decide)
  · have hpage : Answers { Sample.begun [Sample.rateChanged] [] with
        phase := .asking ⟨1, none, 1⟩ 3 } ⟨1, none, 1⟩ (Sample.whole [Sample.rateChanged]) none :=
      .first rfl ⟨by decide, le_rfl⟩ le_rfl (by decide) (.of_eq rfl) fun _ => rfl
    have hbegun := Sample.run_begun [Sample.rateChanged] (by decide)
    refine ⟨hbegun.trans (Sample.run_pass hpage rfl), not_run_of_last nofun fun w hconforms => ?_,
      rfl, rfl, rfl⟩
    exact absurd (hconforms.counted Sample.rateChanged (by decide) (by decide)) (by decide)
  · have hpage (unsaved) : Answers { Sample.begun [Sample.toppedUp 3] unsaved with
        phase := .asking ⟨1, none, 1⟩ 3 } ⟨1, none, 1⟩ (Sample.whole [Sample.toppedUp 3]) none :=
      .first rfl ⟨by decide, le_rfl⟩ le_rfl (by decide) (.of_eq rfl) fun _ => rfl
    have hfirst := (Sample.run_begun [Sample.toppedUp 3] (by decide)).trans
      (Sample.run_pass (hpage []) rfl)
    have hbegun : Run (WatchStep 1 1 3) (.fresh 1) _ (Sample.begun [Sample.toppedUp 3] [Sample.toppedUp 3]) :=
      (hfirst.snoc (.saveFails rfl)).snoc (.restart true)
    refine ⟨hbegun.trans (Sample.run_pass (hpage [Sample.toppedUp 3]) rfl),
      not_run_of_last nofun fun w hconforms => ?_, rfl, rfl, rfl⟩
    exact absurd (hconforms.counted (Sample.toppedUp 3) (by decide) (by decide)) (by decide)

end Drip.Indexer.Scaffold
