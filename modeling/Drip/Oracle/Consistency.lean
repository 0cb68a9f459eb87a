import Drip.Oracle.Effects

/-!
# Oracle — Consistency

Roster, submissions and observations fit together in every run, and so a change of the scale can clear
the prices by going through the roster.

* `Book.Blank`: no price of any kind; only a submission or a feed changes that.
* `consistent_of_run`: the invariant, and that a new scale leaves nothing to read.
-/

namespace Drip.Oracle
open Chain

variable {here : Address} {b b' : Book} {s s' : State} {i : Invocation} {m m' m₁ : Moment} {v : Visit}
variable {vs : List Visit} {feeds : Feeds} {env : Env}

structure Book.Blank (b : Book) : Prop where
  price : b.price = none
  submission : ∀ f, b.submission f = none
  roster : b.roster = []
  observations : b.observations = []

/-- A price has been submitted. -/
def Visit.Submits : Visit → Prop
  | .made i _ => ∃ caller price, i.entry = .submitPrice caller price
  | .refused _ _ => False

/-- Decimals or asset peg of the configuration have changed. -/
def Rescales (b b' : Book) : Prop :=
  ∃ old new, b.config = some old ∧ b'.config = some new ∧
    (old.decimals ≠ new.decimals ∨ old.assetPeg ≠ new.assetPeg)

/-- A read of the aggregated price. -/
def Entry.readsPrice : Entry → Bool
  | .getTwapPrice | .latestPrice | .priceStatus | .calculateFiatStreamPayout _ => true
  | _ => false

/-! ### Books without a price -/

theorem Book.Blank.reconfigure {config : OracleConfig} (hb : b.Blank) : (b.reconfigure config).Blank := by
  unfold Book.reconfigure
  split
  · refine ⟨rfl, fun f => ?_, rfl, rfl⟩
    rw [hb.roster]
    exact hb.submission f
  · exact ⟨hb.price, hb.submission, hb.roster, hb.observations⟩

theorem Book.Change.blank (h : b.Change i b') (hb : b.Blank) (hno : ¬ b.HasFeeds)
    (hsubmit : ∀ caller price, i.entry ≠ .submitPrice caller price) : b'.Blank := by
  cases h with
  | same => exact hb
  | @dropped account =>
      rw [drop_of_none (hb.submission account) (by rw [hb.roster]; exact List.not_mem_nil)]
      exact hb
  | submitted hentry => exact absurd hentry (hsubmit _ _)
  | configured => exact hb.reconfigure
  | limited | connected => exact ⟨hb.price, hb.submission, hb.roster, hb.observations⟩
  | read =>
      unfold Book.read
      rw [reading_of_no_feeds hno]
      exact hb

theorem submit_config {now price : U64} {caller : Address} :
    (b.submit now caller price).config = b.config :=
  (enroll_rest (b.post now caller price) caller).2.1

/-- The oracle stays configured. -/
theorem Book.Change.config_isSome (h : b.Change i b') (hb : b.config.isSome = true) :
    b'.config.isSome = true := by
  cases h with
  | same | connected => exact hb
  | dropped => rwa [(drop_rest _ _).2.1]
  | submitted => rwa [submit_config]
  | configured => rw [reconfigure_config]; rfl
  | limited => rwa [Option.isSome_map]
  | read => rwa [read_rest.2.2.1]

/-- A new scale clears the prices. -/
theorem Book.Change.rescaled (h : b.Change i b') (hb : b.Sound) (hscale : Rescales b b') : b'.Blank := by
  obtain ⟨old, new, hold, hnew, hne⟩ := hscale
  have hsame : ∀ {c}, c = b.config → c = some new → False := by
    intro c hc hcnew
    have heq : old = new := Option.some.inj (hold.symm.trans (hc.symm.trans hcnew))
    rw [heq] at hne
    exact hne.elim (fun h => h rfl) fun h => h rfl
  cases h with
  | same | connected => exact (hsame rfl hnew).elim
  | dropped => exact (hsame (drop_rest _ _).2.1 hnew).elim
  | submitted => exact (hsame submit_config hnew).elim
  | read => exact (hsame read_rest.2.2.1 hnew).elim
  | limited =>
      rw [hold] at hnew
      cases hnew
      exact (hne.elim (fun h => h rfl) fun h => h rfl).elim
  | @configured config =>
      rw [reconfigure_config] at hnew
      cases hnew
      have hif : ∃ old ∈ b.config, old.decimals ≠ new.decimals ∨ old.assetPeg ≠ new.assetPeg :=
        ⟨old, hold, hne⟩
      unfold Book.reconfigure
      rw [if_pos hif]
      exact ⟨rfl, fun f => by rw [cleared_submission hb], rfl, rfl⟩

/-! ### Reads of a blank book -/

theorem submissions_nil (hb : b.Blank) : b.submissions = [] := by
  unfold Book.submissions
  rw [hb.roster]
  rfl

theorem getTwapPriceInner_blank {config : OracleConfig} (hb : b.Blank) (hno : ¬ b.HasFeeds)
    (hconfig : b.config = some config) :
    getTwapPriceInner feeds env maxTwapObservations b = .error (err .noPriceAvailable) := by
  rw [getTwapPriceInner_eq (by decide) hconfig, reading_of_no_feeds hno]
  dsimp only
  unfold Book.backed Book.counted
  rw [submissions_nil hb]
  rfl

theorem enter_blank (hs : Sound s) (hb : s.store.toBook.Blank) (hno : ¬ s.store.toBook.HasFeeds)
    (hconfig : s.store.config.isSome = true) (hi : i.entry.readsPrice = true) :
    enter i s = .error (err .noPriceAvailable) := by
  obtain ⟨config, hconfig⟩ := Option.isSome_iff_exists.mp hconfig
  obtain ⟨feeds, env, entry⟩ := i
  cases entry with
  | getTwapPrice =>
      show priced (withGuard (onBook _) s) = _
      rw [withGuard_onBook hs.lock, getTwapPriceInner_blank hb hno hconfig]
      rfl
  | calculateFiatStreamPayout tokenAmount =>
      show priced (withGuard (onBook _) s) = _
      rw [withGuard_onBook hs.lock]
      unfold calculateFiatStreamPayoutInner
      rw [getTwapPriceInner_blank hb hno hconfig]
      rfl
  | priceStatus =>
      show viewed _ (loadPriceStatus env s.store.toBook) s = _
      unfold loadPriceStatus
      rw [hconfig]
      have hsaw : (statusCounts env.timestamp config.maxStaleness s.store.toBook).saw = false := by
        rw [(statusCounts_eq _ _ _).2, submissions_nil hb]
        rfl
      rw [bind_of_ok (okOr_eq_ok.mpr rfl)]
      dsimp only
      rw [bind_of_error (reject_of _ hsaw)]
      rfl
  | latestPrice =>
      show viewed _ (latestPrice feeds env s) s = _
      unfold latestPrice
      dsimp only
      rw [consultFeeds_of_no_feeds hno, hb.price, hb.roster]
      rfl
  | _ => cases hi

/-! ### Runs -/

/-- Nothing is there to read, unless a feed has been set. -/
theorem blank_of_run (h : Run (Visits here) m vs m') (hs : Sound m.state)
    (hblank : m.state.store.toBook.Blank) (hconfig : m.state.store.config.isSome = true)
    (hsubmit : ∀ v ∈ vs, ¬ v.Submits) :
    (m'.state.store.toBook.HasFeeds ∨ m'.state.store.toBook.Blank) ∧
      m'.state.store.config.isSome = true := by
  refine (h.invariant (P := fun m => Sound m.state ∧ (m.state.store.toBook.HasFeeds ∨
    m.state.store.toBook.Blank) ∧ m.state.store.config.isSome = true) ?_
    ⟨hs, .inr hblank, hconfig⟩).2
  rintro m v m' hv hstep ⟨hs, hblank, hconfig⟩
  refine ⟨hstep.sound hs, ?_⟩
  cases hstep with
  | refused _ _ _ => exact ⟨hblank, hconfig⟩
  | made _ _ henter =>
      have hchange := (enters_of_enter hs henter).change
      refine ⟨?_, hchange.config_isSome hconfig⟩
      by_cases hfeeds : m.state.store.toBook.HasFeeds
      · exact .inl (hchange.hasFeeds hfeeds)
      · refine .inr (hchange.blank (hblank.resolve_left hfeeds) hfeeds fun caller price hentry => ?_)
        exact hsubmit _ hv ⟨caller, price, hentry⟩

/-- **The stored prices.**  In every run the roster lists the feeders with a submission, each once and
at most 32 of them, and the observations are in order, at most 32 as well, and no price is zero.  A
change of decimals or asset peg leaves no price at all: as long as no feed is set, every read fails with
`NoPriceAvailable` until the next submission is accepted. -/
theorem consistent_of_run (h : Run (Visits here) Moment.fresh vs m) :
    m.state.store.toBook.Sound ∧
    ∀ v m₁, Visits here m v m₁ → Rescales m.state.store.toBook m₁.state.store.toBook →
      ∀ later m₂, Run (Visits here) m₁ later m₂ → (∀ w ∈ later, ¬ w.Submits) →
        ¬ m₂.state.store.toBook.HasFeeds →
        m₂.state.store.toBook.Blank ∧
        ∀ i : Invocation, i.entry.readsPrice = true →
          enter i m₂.state = .error (err .noPriceAvailable) := by
  have hs := sound_of_run h
  refine ⟨hs.book, fun v m₁ hstep hscale later m₂ hlater hsubmit hno => ?_⟩
  have hs₁ := hstep.sound hs
  have hrescaled : m₁.state.store.toBook.Blank ∧ m₁.state.store.config.isSome = true := by
    obtain ⟨old, new, hold, hnew, hne⟩ := hscale
    refine ⟨?_, by rw [hnew]; rfl⟩
    cases hstep with
    | refused _ _ _ =>
        obtain rfl : old = new := Option.some.inj (hold.symm.trans hnew)
        exact (hne.elim (fun h => h rfl) fun h => h rfl).elim
    | made _ _ henter =>
        exact (enters_of_enter hs henter).change.rescaled hs.book ⟨old, new, hold, hnew, hne⟩
  obtain ⟨hblank, hconfig⟩ := blank_of_run hlater hs₁ hrescaled.1 hrescaled.2 hsubmit
  have hs₂ : Sound m₂.state := hlater.invariant (P := fun m => Sound m.state) (fun _ => Visits.sound) hs₁
  have hblank := hblank.resolve_left hno
  exact ⟨hblank, fun i hi => enter_blank hs₂ hblank hno hconfig hi⟩

/-- Two feeders submit, the decimals change, and one feeder's role is revoked. -/
theorem consistent_of_run_rescaled :
    let config : OracleConfig := ⟨.lit 8, .lit 1, .lit 300, .lit 0, .lit 0, .lit 1⟩
    let m := Sample.visited Sample.silent [
      (.lit 100, .administer (.grantRole (.account 1) .priceFeeder (.account 2))),
      (.lit 100, .administer (.grantRole (.account 1) .priceFeeder (.account 3))),
      (.lit 100, .configureOracle (.account 1) config),
      (.lit 110, .submitPrice (.account 2) (.lit 100)),
      (.lit 120, .submitPrice (.account 3) (.lit 120))]
    let rescale : Invocation := ⟨Sample.silent, Sample.envAt (.lit 130),
      .configureOracle (.account 1) { config with decimals := .lit 6 }⟩
    let revoke : Invocation := ⟨Sample.silent, Sample.envAt (.lit 140),
      .administer (.revokeRole (.account 1) .priceFeeder (.account 2))⟩
    enter ⟨Sample.silent, Sample.envAt (.lit 150), .getTwapPrice⟩ (m.tour [rescale, revoke]).2.state =
      .error (err .noPriceAvailable) := by
  intro config m rescale revoke
  have hrun := Sample.run_visited Sample.silent [
      (.lit 100, .administer (.grantRole (.account 1) .priceFeeder (.account 2))),
      (.lit 100, .administer (.grantRole (.account 1) .priceFeeder (.account 3))),
      (.lit 100, .configureOracle (.account 1) config),
      (.lit 110, .submitPrice (.account 2) (.lit 100)),
      (.lit 120, .submitPrice (.account 3) (.lit 120))] (by decide)
  have hstep : Visits Sample.address m (m.visit rescale).1 (m.visit rescale).2 :=
    visits_visit rfl (by decide)
  have hlater : Run (Visits Sample.address) (m.visit rescale).2 _ _ :=
    run_tour [revoke] (by decide)
  refine ((consistent_of_run hrun).2 _ _ hstep ?_ _ _ hlater ?_ (by decide)).2 _ rfl
  · exact ⟨config, { config with decimals := .lit 6 }, by decide, by decide, by decide⟩
  · intro w hw hsubmits
    have hentry := List.mem_singleton.mp (mem_tour hw)
    cases w with
    | refused _ _ => exact hsubmits
    | made i reply =>
        obtain ⟨caller, price, h⟩ := hsubmits
        obtain rfl : i = revoke := hentry
        cases h

end Drip.Oracle
