import Drip.Oracle.Status

/-!
# Oracle — Availability

Two writers append to the observations, each with its own clock: a submission is dated by the ledger, a
read of the feeds by the feed.  An observation dated before the last one is refused, and with it the read
or the submission.

* `getTwapPrice_iff`: with a quorum, a read fails only where its feed reads before the last observation.
* `submitPrice_stale_iff`: a submission that has passed the checks fails only where the last observation
  is dated after the ledger.
-/

namespace Drip.Oracle
open Chain

variable {here : Address} {b b' : Book} {s s₁ : State} {i : Invocation} {m m' : Moment} {v : Visit}
variable {vs : List Visit} {feeds : Feeds} {env : Env} {caller : Address} {price now : U64}

/-! ### Reads -/

/-- The record is all that a read of the feeds can fail by. -/
theorem recordAndCalculateTwap_iff {timestamp maxStaleness : U64} {count : U32} (hb : b.Sound)
    (hprice : price.val ≠ 0) :
    (∃ x, recordAndCalculateTwap now price timestamp count maxStaleness b = .ok x) ↔
      b.Admits timestamp := by
  constructor
  · rintro ⟨⟨twap, b'⟩, h⟩
    exact (recordAndCalculateTwap_book h).1
  · intro hadmits
    have hrecord : recordPriceObservation price timestamp b = .ok (b.record ⟨price, timestamp⟩) :=
      recordPriceObservation_eq_ok.mpr ⟨hadmits, rfl⟩
    unfold recordAndCalculateTwap
    rw [bind_of_ok hrecord]
    rcases calculateTwap_cases now count maxStaleness
        (hb.record (o := ⟨price, timestamp⟩) hadmits hprice) with h | ⟨twap, h⟩
    · rw [h]
      exact ⟨_, rfl⟩
    · rw [h]
      exact ⟨_, rfl⟩

/-- With a quorum, only the record of what the feeds read can fail. -/
theorem getTwapPrice_iff {st : PriceStatus} (hs : Sound s)
    (hstatus : loadPriceStatus env s.store.toBook = .ok st)
    (hquorum : st.minSubmitters.val ≤ st.freshSubmitterCount) :
    (∃ x, getTwapPrice feeds env s = .ok x) ↔
      ∀ data ∈ s.store.toBook.reading feeds env, s.store.toBook.Admits data.updatedAt := by
  obtain ⟨config, hconfig⟩ : ∃ config, s.store.toBook.config = some config := by
    simp only [loadPriceStatus, bind_eq_ok, okOr_eq_ok] at hstatus
    obtain ⟨config, hconfig, -⟩ := hstatus
    exact ⟨config, hconfig⟩
  have hread : getTwapPrice feeds env s = (fun x => (x.1, s.withBook x.2)) <$>
      getTwapPriceInner feeds env maxTwapObservations s.store.toBook := withGuard_onBook hs.lock
  have hinner : (∃ x, getTwapPrice feeds env s = .ok x) ↔
      ∃ x, getTwapPriceInner feeds env maxTwapObservations s.store.toBook = .ok x := by
    rw [hread]
    simp only [map_eq_ok]
    constructor
    · rintro ⟨-, x, hx, -⟩
      exact ⟨x, hx⟩
    · rintro ⟨x, hx⟩
      exact ⟨_, x, hx, rfl⟩
  rw [hinner, getTwapPriceInner_eq (by decide) hconfig]
  cases hreading : s.store.toBook.reading feeds env with
  | some data =>
      -- the price of the feeds is recorded first
      refine (recordAndCalculateTwap_iff hs.book (reading_ne_zero hreading)).trans ?_
      exact ⟨fun h data' hdata => Option.some.inj hdata ▸ h, fun h => h data rfl⟩
  | none =>
      refine iff_of_true ?_ fun _ hdata => (by cases hdata)
      rw [loadPriceStatus_eq hconfig] at hstatus
      split at hstatus
      · cases hstatus
      · cases hstatus
        have hpos := (hs.book.config config hconfig).quorum_pos
        have hge := config.minSubmitters.ge
        dsimp only at hquorum
        obtain ⟨hnone, -⟩ | ⟨-, hstale, -⟩ | ⟨-, -, hfew, -⟩ | ⟨-, -, -, price, hbacked⟩ :=
          backed_cases env.timestamp maxTwapObservations config hs.book
        · contradiction
        -- no fresh submission, or too few, is no quorum
        · rw [hstale, List.length_nil] at hquorum
          omega
        · omega
        · rw [hbacked]
          exact ⟨_, rfl⟩

/-! ### Submissions -/

theorem writePrice_stale_iff : writePrice now caller price b = .error (err .stalePriceFeed) ↔
    (caller ∉ b.roster → b.roster.length < maxSubmitters) ∧ ¬ b.Admits now := by
  have hadmits : ((b.post now caller price).enroll caller).Admits now ↔ b.Admits now := by
    unfold Book.Admits
    rw [enroll_observations]
    rfl
  show ((addSubmitter caller (b.post now caller price)) >>= fun b =>
    recordPriceObservation (currentSubmissionMedian price now b) now b) = .error _ ↔ _
  by_cases hroom : caller ∉ b.roster → b.roster.length < maxSubmitters
  · have hadd : addSubmitter caller (b.post now caller price) =
        .ok ((b.post now caller price).enroll caller) := addSubmitter_eq_ok.mpr ⟨hroom, rfl⟩
    rw [bind_of_ok hadd, recordPriceObservation_eq_error, hadmits]
    exact ⟨fun h => ⟨hroom, h.1⟩, fun h => ⟨h.2, rfl⟩⟩
  · have hfull : addSubmitter caller (b.post now caller price) = .error (err .tooManySubmitters) := by
      obtain ⟨hno, hlen⟩ := Classical.not_imp.mp hroom
      have hno : caller ∉ (b.post now caller price).roster := hno
      unfold addSubmitter
      rw [if_neg hno]
      exact bind_of_error (reject_of _ (not_lt.mp hlen))
    rw [bind_of_error hfull]
    exact iff_of_false (fun h => by cases h) fun h => hroom h.1

/-- A submission that has passed the checks. -/
theorem submitPrice_stale_iff (hpause : requireNotPaused env s = .ok s₁)
    (hrole : requireRole env caller .priceFeeder s₁ = .ok ())
    (hcheck : checkPrice env.timestamp caller price s₁ = .ok ()) :
    submitPrice env caller price s = .error (err .stalePriceFeed) ↔
      (caller ∉ s.store.toBook.roster → s.store.toBook.roster.length < maxSubmitters) ∧
        ¬ s.store.toBook.Admits env.timestamp := by
  obtain ⟨stored, rfl⟩ := requireNotPaused_spec hpause
  have hwrite : writePrice env.timestamp caller price s.store.toBook = .error (err .stalePriceFeed) ↔
      _ := writePrice_stale_iff
  unfold submitPrice
  rw [bind_of_ok hpause, bind_of_ok hrole, bind_of_ok hcheck]
  refine Iff.trans ?_ hwrite
  show (writePrice env.timestamp caller price s.store.toBook >>= _) = _ ↔
    writePrice env.timestamp caller price s.store.toBook = _
  cases writePrice env.timestamp caller price s.store.toBook with
  | error e =>
      show (Except.error e : Result State) = _ ↔ _
      rw [Except.error.injEq, Except.error.injEq]
  | ok b' => exact iff_of_false (fun h => by cases h) fun h => (by cases h)

/-! ### The clock of the observations -/

/-- From now on a submission is not refused for its time. -/
def Moment.Receptive (m : Moment) : Prop := ∀ t, m.now ≤ t → m.state.store.toBook.Admits t

/-- A read of the feeds that records nothing of the future. -/
def Visit.Dated (v : Visit) (s : State) : Prop :=
  match v with
  | .made i _ => i.entry.readsTwap = true →
      ∀ data ∈ s.store.toBook.reading i.feeds i.env, data.updatedAt ≤ i.env.timestamp
  | .refused _ _ => True

theorem receptive_iff : m.Receptive ↔ m.state.store.toBook.Admits m.now :=
  ⟨fun h => h m.now (le_refl m.now.val), fun h _ ht latest hlast => (h latest hlast).trans ht⟩

theorem Book.Admits.congr (h : b.Admits now) (hobs : b'.observations = b.observations) :
    b'.Admits now := by
  unfold Book.Admits
  rwa [hobs]

theorem getLast?_observe (obs : List PriceObservation) (o : PriceObservation) :
    (observe obs o).getLast? = some o := by
  unfold observe
  split
  · split
    · exact List.getLast?_concat
    · split <;> exact List.getLast?_concat
  · exact List.getLast?_concat

theorem admits_record {o : PriceObservation} : (b.record o).Admits now ↔ o.timestamp ≤ now := by
  have hlast : (b.record o).observations.getLast? = some o := getLast?_observe b.observations o
  unfold Book.Admits
  rw [hlast]
  exact ⟨fun h => h o rfl, fun h latest hlast => Option.some.inj hlast ▸ h⟩

theorem admits_read (h : b.Admits now) : (b.read feeds env).Admits now ↔
    ∀ data ∈ b.reading feeds env, data.updatedAt ≤ now := by
  unfold Book.read
  cases b.reading feeds env with
  | none => exact iff_of_true h fun _ hdata => (by cases hdata)
  | some data =>
      refine admits_record.trans ?_
      exact ⟨fun h data' hdata => Option.some.inj hdata ▸ h, fun h => h data rfl⟩

theorem after_of_readsTwap (h : i.entry.readsTwap = true) : b.after i = b.read i.feeds i.env := by
  obtain ⟨feeds, env, entry⟩ := i
  cases entry with
  | getTwapPrice | getTwapPriceForObservations | calculateFiatStreamPayout => rfl
  | _ => cases h

/-- Only a read can date the last observation after the ledger. -/
theorem Book.Change.admits (h : b.Change i b') (hread : ¬ i.entry.readsTwap = true)
    (hb : b.Admits i.env.timestamp) : b'.Admits i.env.timestamp := by
  cases h with
  | same | limited | connected => exact hb
  | dropped => exact hb.congr (drop_rest _ _).1
  | submitted => exact admits_record.mpr (le_refl i.env.timestamp.val)
  | configured =>
      unfold Book.reconfigure
      split
      · exact fun _ hlast => (by cases hlast)
      · exact hb
  | read hentry => exact absurd hentry hread

theorem Visits.receptive_iff (h : Visits here m v m') (hs : Sound m.state) (hm : m.Receptive) :
    m'.Receptive ↔ v.Dated m.state := by
  cases h with
  | made henv htime h =>
      rename_i i reply s'
      have henters := enters_of_enter hs h
      have hb := hm i.env.timestamp htime
      refine Oracle.receptive_iff.trans ?_
      show s'.store.toBook.Admits i.env.timestamp ↔ (i.entry.readsTwap = true → _)
      by_cases hread : i.entry.readsTwap = true
      · rw [henters.book, after_of_readsTwap hread, admits_read hb]
        exact ⟨fun h _ => h, fun h => h hread⟩
      · exact iff_of_true (henters.change.admits hread hb) fun h => absurd h hread
  | refused henv htime h =>
      exact iff_of_true (fun t ht => hm t (le_trans (a := m.now.val) htime ht)) trivial

/-! ### Runs -/

theorem receptive_fresh : Moment.fresh.Receptive := fun _ _ _ h => by cases h

/-- **Availability.**  In every state reached: with a quorum of fresh submissions a read succeeds exactly
where the feeds' price, if they have one, is not dated before the last observation; and a submission that
has passed the checks is refused for its time exactly where the last observation is dated after it and the
roster has room.  In the runs whose reads record nothing of the future, and in no other, the last
observation never is, and no such submission is refused. -/
theorem available_of_run :
    (Run (Visits here) Moment.fresh vs m → ∀ feeds env,
      (∀ st, loadPriceStatus env m.state.store.toBook = .ok st →
        st.minSubmitters.val ≤ st.freshSubmitterCount →
        ((∃ x, getTwapPrice feeds env m.state = .ok x) ↔
          ∀ data ∈ m.state.store.toBook.reading feeds env,
            m.state.store.toBook.Admits data.updatedAt)) ∧
      ∀ caller price s₁, requireNotPaused env m.state = .ok s₁ →
        requireRole env caller .priceFeeder s₁ = .ok () →
        checkPrice env.timestamp caller price s₁ = .ok () →
        (submitPrice env caller price m.state ≠ .error (err .stalePriceFeed) ↔
          m.state.store.toBook.Admits env.timestamp ∨
            caller ∉ m.state.store.toBook.roster ∧
              maxSubmitters ≤ m.state.store.toBook.roster.length)) ∧
    (Run (fun m v m' => Visits here m v m' ∧ v.Dated m.state) Moment.fresh vs m →
      ∀ env, m.now ≤ env.timestamp → ∀ caller price s₁, requireNotPaused env m.state = .ok s₁ →
        requireRole env caller .priceFeeder s₁ = .ok () →
        checkPrice env.timestamp caller price s₁ = .ok () →
        submitPrice env caller price m.state ≠ .error (err .stalePriceFeed)) ∧
    (Run (fun m v m' => Visits here m v m' ∧ m'.Receptive) Moment.fresh vs m ↔
      Run (fun m v m' => Visits here m v m' ∧ v.Dated m.state) Moment.fresh vs m) := by
  have hsound : ∀ m v m', Visits here m v m' → Sound m.state → Sound m'.state :=
    fun _ _ _ h => h.sound
  have hstep : ∀ m v m', Visits here m v m' → Sound m.state → m.Receptive →
      (m'.Receptive ↔ v.Dated m.state) := fun _ _ _ h => h.receptive_iff
  refine ⟨fun h feeds env => ⟨fun st => getTwapPrice_iff (sound_of_run h), ?_⟩, ?_, ?_⟩
  · intro caller price s₁ hpause hrole hcheck
    rw [Ne, submitPrice_stale_iff hpause hrole hcheck, not_and_or, Classical.not_imp, not_lt,
      not_not, or_comm]
  · intro h env htime caller price s₁ hpause hrole hcheck
    have hm : m.Receptive := (Run.keeps_spec hsound hstep Sound.fresh receptive_fresh).2 h
    rw [Ne, submitPrice_stale_iff hpause hrole hcheck]
    exact fun hstale => hstale.2 (hm env.timestamp htime)
  · exact (Run.keeps_spec hsound hstep Sound.fresh receptive_fresh).1

namespace Sample

/-- Contract 9 answers `get_twap_price` with 200; its last price is dated 5000. -/
def answering : Feeds := ⟨fun a => if a = .contract 9 then some (.lit 200) else none, fun _ => none⟩
def ahead : Feeds := ⟨fun _ => none, fun a => if a = .contract 9 then some ⟨.lit 200, .lit 5000⟩ else none⟩

/-- Two feeders, and a primary feed. -/
def connected (feed : Address) : List (U64 × Entry) := [
  (.lit 100, .configureOracle (.account 1) ⟨.lit 8, .lit 1, .lit 300, .lit 0, .lit 0, .lit 1⟩),
  (.lit 100, .administer (.grantRole (.account 1) .priceFeeder (.account 2))),
  (.lit 100, .administer (.grantRole (.account 1) .priceFeeder (.account 3))),
  (.lit 100, .setPrimaryOracle (.account 1) feed)]

def submitted : List (U64 × Entry) := [
  (.lit 110, .submitPrice (.account 2) (.lit 100)),
  (.lit 120, .submitPrice (.account 3) (.lit 110))]

end Sample

theorem dated_of_tour {is : List Invocation} (his : ∀ i ∈ is, i.entry.readsTwap = false)
    (h : Scheduled here m.now is) :
    Run (fun m v m' => Visits here m v m' ∧ v.Dated m.state) m (m.tour is).1 (m.tour is).2 := by
  refine (run_tour is h).mono fun {s v t} hin hvisit => ⟨hvisit, ?_⟩
  have hno := his _ (mem_tour hin)
  cases v with
  | made i reply => exact fun hread => absurd (hread.symm.trans hno) Bool.false_ne_true.symm
  | refused i failure => trivial

theorem available_of_run_answered :
    let m := Sample.visited Sample.answering (Sample.connected (.contract 9) ++ Sample.submitted)
    (∃ x, getTwapPrice Sample.answering (Sample.envAt (.lit 130)) m.state = .ok x) ∧
      submitPrice (Sample.envAt (.lit 130)) (.account 2) (.lit 105) m.state ≠
        .error (err .stalePriceFeed) := by
  intro m
  have hrun := Sample.run_visited Sample.answering
    (Sample.connected (.contract 9) ++ Sample.submitted) (by decide)
  have hdated : Run (fun m v m' => Visits Sample.address m v m' ∧ v.Dated m.state) Moment.fresh _ m :=
    dated_of_tour (by decide) (by decide)
  constructor
  · refine ((available_of_run.1 hrun _ _).1 ⟨2, .lit 1, .lit 10, .lit 20, false⟩ (by rfl)
      (by decide)).mpr ?_
    intro data hdata latest hlast
    have hdata : some (⟨.lit 200, .lit 130⟩ : PriceData) = some data := hdata
    have hlast : some (⟨.lit 105, .lit 120⟩ : PriceObservation) = some latest := hlast
    cases hdata
    cases hlast
    decide
  · exact available_of_run.2.1 hdated (Sample.envAt (.lit 130)) (by decide) _ _ m.state (by rfl)
      (by rfl) (by rfl)

/-- The primary feed is a feeder, and another one has submitted since: there is a quorum, and no read.
The primary feed is ahead of the ledger, and has been read: there is no submission. -/
theorem feed_blocks :
    (let m := Sample.visited Sample.silent (Sample.connected (.account 2) ++ Sample.submitted)
     Run (Visits Sample.address) Moment.fresh (Moment.fresh.tour (Sample.invocations Sample.silent
        (Sample.connected (.account 2) ++ Sample.submitted))).1 m ∧
      loadPriceStatus (Sample.envAt (.lit 130)) m.state.store.toBook =
        .ok ⟨2, .lit 1, .lit 10, .lit 20, false⟩ ∧
      getTwapPrice Sample.silent (Sample.envAt (.lit 130)) m.state = .error (err .stalePriceFeed)) ∧
    (let m := Sample.visited Sample.ahead
        (Sample.connected (.contract 9) ++ [(.lit 120, .getTwapPrice)])
     Run (Visits Sample.address) Moment.fresh (Moment.fresh.tour (Sample.invocations Sample.ahead
        (Sample.connected (.contract 9) ++ [(.lit 120, .getTwapPrice)]))).1 m ∧
      requireNotPaused (Sample.envAt (.lit 130)) m.state = .ok m.state ∧
      requireRole (Sample.envAt (.lit 130)) (.account 2) .priceFeeder m.state = .ok () ∧
      checkPrice (.lit 130) (.account 2) (.lit 100) m.state = .ok () ∧
      submitPrice (Sample.envAt (.lit 130)) (.account 2) (.lit 100) m.state =
        .error (err .stalePriceFeed)) := by
  constructor
  · intro m
    exact ⟨Sample.run_visited _ _ (by decide), by rfl, by rfl⟩
  · intro m
    exact ⟨Sample.run_visited _ _ (by decide), by rfl, by rfl, by rfl, by rfl⟩

end Drip.Oracle
