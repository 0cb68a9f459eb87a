import Drip.Oracle.Availability

/-!
# Oracle — Reads

A read of the time-weighted price records what the feeds answer it, and so takes part in every later
price.  The reads that leave no trace can be made anywhere in a run, or left out.

* `enter_of_asks`: what a read changes is the observations.
* `Book.read_eq_iff`: it changes nothing where it takes no price from the feeds, or finds that price
  recorded already.
-/

namespace Drip.Oracle
open Chain

variable {here : Address} {b : Book} {s s' : State} {i : Invocation} {reply : Reply} {m m' : Moment}
variable {v : Visit} {xs : List (Bool × Visit)} {feeds : Feeds} {env : Env}

/-! ### What a read changes -/

/-- The reads of a price that anyone may make. -/
def Entry.asks : Entry → Bool
  | .getTwapPrice | .getTwapPriceForObservations _ | .calculateFiatStreamPayout _
  | .getPriceWithFallback | .latestPrice => true
  | _ => false

/-- The price of the feeds, if they have one, is the last observation. -/
def Book.Recorded (feeds : Feeds) (env : Env) (b : Book) : Prop :=
  ∀ data ∈ b.reading feeds env, b.observations.getLast? = some ⟨data.price, data.updatedAt⟩

instance : Decidable (b.Recorded feeds env) :=
  inferInstanceAs (Decidable (∀ data ∈ b.reading feeds env, _))

/-- The read records nothing new. -/
def Invocation.Traceless (i : Invocation) (b : Book) : Prop :=
  i.entry.readsTwap = true → b.Recorded i.feeds i.env

/-- An observation that changes nothing is there already, as the last one. -/
theorem record_eq_iff {o : PriceObservation} : b.record o = b ↔ b.observations.getLast? = some o := by
  constructor
  · intro h
    have hobs : observe b.observations o = b.observations := by
      have hrecorded : (b.record o).observations = b.observations := by rw [h]
      exact hrecorded
    rw [← hobs]
    exact getLast?_observe b.observations o
  · intro hlast
    have hobs : observe b.observations o = b.observations := by
      unfold observe
      rw [hlast]
      dsimp only
      rw [if_pos rfl]
      exact List.dropLast_append_getLast? o hlast
    obtain ⟨config, price, submission, submitters, observations, primary, fallback⟩ := b
    cases observations with
    | none => cases hlast
    | some obs =>
        unfold Book.record
        rw [hobs]
        rfl

theorem Book.read_eq_iff : b.read feeds env = b ↔ b.Recorded feeds env := by
  unfold Book.read Book.Recorded
  cases b.reading feeds env with
  | none => exact iff_of_true rfl fun _ h => (by cases h)
  | some data =>
      refine record_eq_iff.trans ?_
      exact ⟨fun h data' hdata => Option.some.inj hdata ▸ h, fun h => h data rfl⟩

/-- Of the whole storage a read changes at most the observations. -/
theorem enter_of_asks (hs : Sound s) (hasks : i.entry.asks = true) (h : enter i s = .ok (reply, s')) :
    s' = s.withBook (if i.entry.readsTwap = true then s.store.toBook.read i.feeds i.env
      else s.store.toBook) := by
  obtain ⟨feeds, env, entry⟩ := i
  cases entry with
  | getTwapPrice | getTwapPriceForObservations count =>
      obtain ⟨price, b', hread, -, rfl⟩ := (priced_eq_ok hs.lock).mp h
      rw [(getTwapPriceInner_book hread).1]
      rfl
  | calculateFiatStreamPayout tokenAmount =>
      obtain ⟨price, b', hread, -, rfl⟩ := (priced_eq_ok hs.lock).mp h
      simp only [calculateFiatStreamPayoutInner, bind_eq_ok, pure_eq_ok, Prod.mk.injEq] at hread
      obtain ⟨⟨twap, b₁⟩, htwap, -, -, -, -, -, -, -, -, -, -, -, rfl⟩ := hread
      rw [(getTwapPriceInner_book htwap).1]
      rfl
  | getPriceWithFallback =>
      obtain ⟨price, b', hread, -, rfl⟩ := (priced_eq_ok hs.lock).mp h
      split at hread
      · simp only [bind_eq_ok, pure_eq_ok, Prod.mk.injEq] at hread
        obtain ⟨-, -, -, rfl⟩ := hread
        rfl
      · rename_i hno
        obtain ⟨rfl, -⟩ := getTwapPriceInner_book hread
        unfold Book.read
        rw [reading_of_no_feeds hno]
        rfl
  | latestPrice =>
      obtain ⟨rfl, -⟩ := viewed_eq_ok.mp h
      rfl
  | _ => cases hasks

/-- An accepted read leaves the state as it is exactly where it records nothing new. -/
theorem enter_asks_iff (hs : Sound s) (hasks : i.entry.asks = true)
    (h : enter i s = .ok (reply, s')) : s' = s ↔ i.Traceless s.store.toBook := by
  rw [enter_of_asks hs hasks h]
  unfold Invocation.Traceless
  by_cases htwap : i.entry.readsTwap = true
  · rw [if_pos htwap]
    refine Iff.trans ?_ (Book.read_eq_iff.trans ⟨fun h _ => h, fun h => h htwap⟩)
    constructor
    · intro heq
      have hbook := congrArg (fun s : State => s.store.toBook) heq
      exact hbook
    · intro heq
      rw [heq]
      rfl
  · rw [if_neg htwap]
    exact iff_of_true rfl fun h => absurd h htwap

/-! ### Runs -/

/-- An extra read: refused, or without a trace. -/
def Visit.Silent (v : Visit) (s : State) : Prop :=
  v.invocation.entry.asks = true ∧
    match v with
    | .made i _ => i.Traceless s.store.toBook
    | .refused _ _ => True

/-- What is left of a run when the visits marked as extra are left out. -/
def kept (x : Bool × Visit) : Option Visit := if x.1 = true then none else some x.2

theorem Visits.silent_iff (h : Visits here m v m') (hs : Sound m.state)
    (hasks : v.invocation.entry.asks = true) : m'.state = m.state ↔ v.Silent m.state := by
  cases h with
  | made henv htime h => exact (enter_asks_iff hs hasks h).trans ⟨fun h => ⟨hasks, h⟩, fun h => h.2⟩
  | refused henv htime h => exact iff_of_true rfl ⟨hasks, trivial⟩

/-- A visit to the same state, at the same time, after less time has passed. -/
theorem Visits.earlier {m₁ : Moment} (h : Visits here m v m') (hstate : m₁.state = m.state)
    (htime : m₁.now ≤ m.now) : Visits here m₁ v m' := by
  obtain ⟨s, t⟩ := m₁
  obtain rfl : s = m.state := hstate
  cases h with
  | made henv hle h => exact .made henv (le_trans (a := t.val) htime hle) h
  | refused henv hle h => exact .refused henv (le_trans (a := t.val) htime hle) h

/-- The two runs side by side: the state is the same, and less time has passed. -/
theorem exists_of_silent
    (h : Run (fun m x m' => Visits here m x.2 m' ∧ (x.1 = true → x.2.Silent m.state)) Moment.fresh xs
      m) :
    ∃ m', Run (Visits here) Moment.fresh (xs.filterMap kept) m' ∧
      Sound m.state ∧ m'.state = m.state ∧ m'.now ≤ m.now := by
  refine Run.follow (R := fun m m' : Moment => Sound m.state ∧ m'.state = m.state ∧ m'.now ≤ m.now)
    ?_ ?_ h ⟨.fresh, rfl, le_refl (0 : Int)⟩
  · rintro m ⟨extra, v⟩ u m' ⟨hvisit, hsilent⟩ hkept ⟨hs, hstate, htime⟩
    have hextra : extra = true := by
      by_contra hno
      rw [kept, if_neg hno] at hkept
      cases hkept
    have hsame := (hvisit.silent_iff hs (hsilent hextra).1).mpr (hsilent hextra)
    exact ⟨hvisit.sound hs, hstate.trans hsame.symm,
      le_trans (a := m'.now.val) htime hvisit.time.1⟩
  · rintro m ⟨extra, v⟩ u m' w ⟨hvisit, -⟩ hkept ⟨hs, hstate, htime⟩
    have hw : v = w := by
      unfold kept at hkept
      split at hkept
      · cases hkept
      · exact Option.some.inj hkept
    subst hw
    exact ⟨u, hvisit.earlier hstate htime, hvisit.sound hs, rfl, le_refl u.now.val⟩

/-- **Reads.**  An accepted read of a price leaves the whole state as it is exactly where the feeds'
price, if the read takes one, is the last observation already.  From a run whose extra reads are of this
kind, or refused, they can be left out: every other visit is answered as it was, and the state reached is
the same.  The runs whose extra reads leave the state as it is are exactly those. -/
theorem reads_of_run :
    (∀ vs, Run (Visits here) Moment.fresh vs m → ∀ i reply s', i.entry.asks = true →
      enter i m.state = .ok (reply, s') → (s' = m.state ↔ i.Traceless m.state.store.toBook)) ∧
    (Run (fun m x m' => Visits here m x.2 m' ∧ (x.1 = true → x.2.Silent m.state)) Moment.fresh xs m →
      ∃ m', Run (Visits here) Moment.fresh (xs.filterMap kept) m' ∧ m'.state = m.state ∧
        m'.now ≤ m.now) ∧
    (Run (fun m x m' => Visits here m x.2 m' ∧
        (x.1 = true → x.2.invocation.entry.asks = true ∧ m'.state = m.state)) Moment.fresh xs m ↔
      Run (fun m x m' => Visits here m x.2 m' ∧ (x.1 = true → x.2.Silent m.state)) Moment.fresh
        xs m) := by
  refine ⟨fun vs h i reply s' => enter_asks_iff (sound_of_run h), fun h => ?_, ?_⟩
  · obtain ⟨m', hrun, -, hstate, htime⟩ := exists_of_silent h
    exact ⟨m', hrun, hstate, htime⟩
  · refine Run.steps_iff (P := fun m => Sound m.state) (fun _ _ _ h => h.sound) ?_ Sound.fresh
    rintro m ⟨extra, v⟩ m' hvisit hs
    refine forall_congr' fun _ => ⟨fun h => ?_, fun h => ⟨h.1, ?_⟩⟩
    · exact (hvisit.silent_iff hs h.1).mp h.2
    · exact (hvisit.silent_iff hs h.1).mpr h

/-- The feed does not answer, and the submissions are read. -/
theorem reads_of_run_unanswered :
    let entries := Sample.connected (.contract 9) ++ Sample.submitted
    let m := Sample.visited Sample.silent entries
    let read := m.visit ⟨Sample.silent, Sample.envAt (.lit 130), .getTwapPrice⟩
    ∃ m', Run (Visits Sample.address) Moment.fresh
      (Moment.fresh.tour (Sample.invocations Sample.silent entries)).1 m' ∧
      m'.state = read.2.state ∧ m'.now ≤ read.2.now := by
  intro entries m read
  have hrun : Run (Visits Sample.address) Moment.fresh _ m := Sample.run_visited _ _ (by decide)
  have hmarked : Run (fun m (x : Bool × Visit) m' => Visits Sample.address m x.2 m' ∧
      (x.1 = true → x.2.Silent m.state)) Moment.fresh _ m :=
    hrun.relabel (f := fun v => (false, v)) fun h => ⟨h, fun hf => absurd hf Bool.false_ne_true⟩
  have hread : Visits Sample.address m read.1 read.2 := visits_visit rfl (by decide)
  have hsilent : read.1.Silent m.state := by
    refine (hread.silent_iff (sound_of_run hrun) ?_).mp rfl
    rw [visit_invocation]
    rfl
  have hextra := reads_of_run.2.1 (hmarked.snoc (a := (true, read.1)) ⟨hread, fun _ => hsilent⟩)
  have hkept : ((Moment.fresh.tour (Sample.invocations Sample.silent entries)).1.map
      (fun v => (false, v)) ++ [(true, read.1)]).filterMap kept =
      (Moment.fresh.tour (Sample.invocations Sample.silent entries)).1 := by
    rw [List.filterMap_append, List.filterMap_map]
    exact (List.append_nil _).trans (List.filterMap_some)
  rwa [hkept] at hextra

/-- A read of the feed at 120 brings the price at 130 from 100 to 150. -/
theorem read_shifts_price :
    let entries := Sample.connected (.contract 9) ++ [(.lit 110, .submitPrice (.account 2) (.lit 100))]
    let m := Sample.visited Sample.answering entries
    let m' := Sample.visited Sample.answering (entries ++ [(.lit 120, .getTwapPrice)])
    Run (Visits Sample.address) Moment.fresh
        (Moment.fresh.tour (Sample.invocations Sample.answering entries)).1 m ∧
      Run (Visits Sample.address) Moment.fresh (Moment.fresh.tour (Sample.invocations Sample.answering
        (entries ++ [(.lit 120, .getTwapPrice)]))).1 m' ∧
      (getTwapPrice Sample.answering (Sample.envAt (.lit 130)) m.state).map Prod.fst = .ok (.lit 100) ∧
      (getTwapPrice Sample.answering (Sample.envAt (.lit 130)) m'.state).map Prod.fst =
        .ok (.lit 150) := by
  intro entries m m'
  exact ⟨Sample.run_visited _ _ (by decide), Sample.run_visited _ _ (by decide), by rfl, by rfl⟩

end Drip.Oracle
