import Drip.Oracle.Effects

/-!
# Oracle — Status

`price_status` and `get_twap_price` without feeds.  Each has its own loop over the submitters, and the
read also weighs the observations.

* `weigh_ok`: the durations of a window are parts of the time up to `now`, and nothing overflows.
* `backed_cases`: what is left that a read can answer.
* `status_of_run`: the status says which it is.
-/

namespace Drip.Oracle
open Chain

variable {here : Address} {b : Book} {m : Moment} {vs : List Visit} {feeds : Feeds} {env : Env}
variable {now maxStaleness : U64} {count : U32} {config : OracleConfig}

/-! ### The window -/

abbrev u64Max : Int := 18446744073709551615

theorem val_saturatingSub (a b : U64) : (a.saturatingSub b).val = max 0 (a.val - b.val) := by
  have ha := a.le
  have hb := b.ge
  show max 0 (min (a.val - b.val) _) = _
  omega

/-- An observation holds for a part of the time up to `now`, which leaves the later ones their time. -/
theorem duration_le (now maxStaleness : U64) (o : PriceObservation) (rest : List PriceObservation) :
    (duration now maxStaleness o rest).val ≤ max 0 (now.val - o.at) ∧
      ∀ next ∈ rest.head?, o.at < next.at →
        (duration now maxStaleness o rest).val + max 0 (now.val - next.at) ≤ max 0 (now.val - o.at) := by
  unfold duration PriceObservation.at
  dsimp only
  rw [val_saturatingSub, Ranged.val_min, Ranged.val_min]
  constructor
  · omega
  · intro next hnext
    rw [Option.mem_def.mp hnext]
    dsimp only [Option.map_some, Option.getD_some]
    omega

/-- Where the time from the first observation to `now` fits, so do the sums. -/
theorem weigh_ok (now maxStaleness : U64) {obs : List PriceObservation}
    (hobs : Timeline PriceObservation.at obs) {w : U128}
    {t : U64} (ht : ∀ o ∈ obs.head?, t.val + max 0 (now.val - o.at) ≤ u64Max)
    (hw : w.val ≤ u64Max * t.val) :
    ∃ w' t', weigh now maxStaleness obs w t = .ok (w', t') ∧ w'.val ≤ u64Max * t'.val := by
  induction obs generalizing w t with
  | nil => exact ⟨w, t, rfl, hw⟩
  | cons o rest ih =>
      obtain ⟨hlt, hrest⟩ := List.pairwise_cons.mp hobs
      have hfits : t.val + max 0 (now.val - o.at) ≤ u64Max := ht o rfl
      obtain ⟨hlong, hnext⟩ := duration_le now maxStaleness o rest
      have hd := (duration now maxStaleness o rest).ge
      have hprice := o.price.le
      have ht₀ := t.ge
      have hproduct : o.price.val * (duration now maxStaleness o rest).val ≤
          u64Max * (duration now maxStaleness o rest).val := Int.mul_le_mul_of_nonneg_right hprice hd
      have hproduct₀ : 0 ≤ o.price.val * (duration now maxStaleness o rest).val :=
        Int.mul_nonneg o.price.ge hd
      have hw₀ := w.ge
      unfold u64Max at *
      have hmul := Ranged.checkedMul_eq_some (a := (o.price.widen : U128))
        (b := (duration now maxStaleness o rest).widen)
        (r := ⟨o.price.val * (duration now maxStaleness o rest).val, hproduct₀, by omega⟩) |>.mpr rfl
      have hadd := Ranged.checkedAdd_eq_some (a := w)
        (b := ⟨o.price.val * (duration now maxStaleness o rest).val, hproduct₀, by omega⟩)
        (r := ⟨w.val + o.price.val * (duration now maxStaleness o rest).val, by omega, by omega⟩)
        |>.mpr rfl
      have htotal := Ranged.checkedAdd_eq_some (a := t) (b := duration now maxStaleness o rest)
        (r := ⟨t.val + (duration now maxStaleness o rest).val, by omega, by omega⟩) |>.mpr rfl
      obtain ⟨w', t', hweigh, hle⟩ := ih hrest
        (w := ⟨w.val + o.price.val * (duration now maxStaleness o rest).val, by omega, by omega⟩)
        (t := ⟨t.val + (duration now maxStaleness o rest).val, by omega, by omega⟩)
        (fun next hin => by
          have := hnext next hin (hlt next (List.mem_of_mem_head? hin))
          dsimp only
          omega)
        (by dsimp only; omega)
      refine ⟨w', t', ?_, hle⟩
      unfold weigh
      dsimp only
      rw [bind_of_ok (okOr_eq_ok.mpr hmul), bind_of_ok (okOr_eq_ok.mpr hadd),
        bind_of_ok (okOr_eq_ok.mpr htotal)]
      exact hweigh

/-- The sums over the window, and their quotient. -/
theorem calculateTwap_spec (now : U64) (count : U32) (maxStaleness : U64) (hb : b.Sound) :
    ∃ w t, weigh now maxStaleness (b.window count) (.lit 0) (.lit 0) = .ok (w, t) ∧
      (t.val = 0 ∧ calculateTwap now count maxStaleness b = .error (err .noPriceAvailable) ∨
        0 < t.val ∧ ∃ price, calculateTwap now count maxStaleness b = .ok price ∧
          price.val = w.val / t.val) := by
  have hwindow : Timeline PriceObservation.at (b.window count) := hb.timeline.sublist (List.drop_sublist ..)
  have hfits : ∀ o ∈ (b.window count).head?,
      (Ranged.lit 0 : U64).val + max 0 (now.val - o.at) ≤ u64Max := by
    intro o _
    have hnow := now.le
    have ho : 0 ≤ o.at := o.timestamp.ge
    show 0 + max 0 (now.val - o.at) ≤ _
    unfold u64Max
    omega
  obtain ⟨w, t, hweigh, hle⟩ := weigh_ok now maxStaleness hwindow hfits
    (w := .lit 0) (by decide)
  refine ⟨w, t, hweigh, ?_⟩
  unfold calculateTwap
  by_cases hnil : b.observations = []
  · have hempty : b.window count = [] := by
      unfold Book.window
      rw [hnil, List.drop_nil]
    rw [hempty] at hweigh
    cases hweigh
    exact .inl ⟨rfl, by rw [bind_of_error (reject_of _ hnil)]⟩
  · rw [bind_of_ok (reject_eq_ok (u := ()).mpr hnil), hweigh, ok_bind]
    dsimp only
    by_cases hzero : t.val = 0
    · exact .inl ⟨hzero, by rw [bind_of_error (reject_of _ hzero)]⟩
    · rw [bind_of_ok (reject_eq_ok (u := ()).mpr hzero)]
      have ht : 0 < t.val := lt_of_le_of_ne t.ge (Ne.symm hzero)
      have hquot : w.val / t.val ≤ u64Max := by
        have := Int.ediv_le_ediv ht hle
        rwa [Int.mul_ediv_cancel _ hzero] at this
      exact .inr ⟨ht, _, okOr_eq_ok.mpr (Ranged.ofInt?_of_mem (Int.ediv_nonneg w.ge t.ge) hquot), rfl⟩

/-- All that can be missing is time. -/
theorem calculateTwap_cases (now : U64) (count : U32) (maxStaleness : U64) (hb : b.Sound) :
    calculateTwap now count maxStaleness b = .error (err .noPriceAvailable) ∨
      ∃ price, calculateTwap now count maxStaleness b = .ok price := by
  obtain ⟨w, t, -, ⟨-, h⟩ | ⟨-, price, h, -⟩⟩ := calculateTwap_spec now count maxStaleness hb
  · exact .inl h
  · exact .inr ⟨price, h⟩

/-! ### The two reads -/

/-- What a read without feeds answers, by the submissions. -/
theorem backed_cases (now : U64) (count : U32) (config : OracleConfig) (hb : b.Sound) :
    (b.submissions = [] ∧ b.backed now count config = .error (err .noPriceAvailable)) ∨
    (b.submissions ≠ [] ∧ b.counted now config.maxStaleness = [] ∧
      b.backed now count config = .error (err .oracleStalePrice)) ∨
    (b.submissions ≠ [] ∧ b.counted now config.maxStaleness ≠ [] ∧
      (b.counted now config.maxStaleness).length < config.minSubmitters.val ∧
      b.backed now count config = .error (err .insufficientQuorum)) ∨
    (b.submissions ≠ [] ∧ b.counted now config.maxStaleness ≠ [] ∧
      config.minSubmitters.val ≤ (b.counted now config.maxStaleness).length ∧
      ∃ price, b.backed now count config = .ok price) := by
  unfold Book.backed
  dsimp only
  by_cases hsubmissions : b.submissions = []
  · have hcounted : b.counted now config.maxStaleness = [] := by
      unfold Book.counted
      rw [hsubmissions]
      rfl
    rw [if_pos hcounted, if_neg (fun h => h hsubmissions)]
    exact .inl ⟨hsubmissions, rfl⟩
  · by_cases hcounted : b.counted now config.maxStaleness = []
    · rw [if_pos hcounted, if_pos hsubmissions]
      exact .inr (.inl ⟨hsubmissions, hcounted, rfl⟩)
    · rw [if_neg hcounted]
      by_cases hquorum : (b.counted now config.maxStaleness).length < config.minSubmitters.val
      · rw [if_pos hquorum]
        exact .inr (.inr (.inl ⟨hsubmissions, hcounted, hquorum, rfl⟩))
      · rw [if_neg hquorum]
        refine .inr (.inr (.inr ⟨hsubmissions, hcounted, not_lt.mp hquorum, ?_⟩))
        rcases calculateTwap_cases now count config.maxStaleness hb with h | ⟨price, h⟩
        · obtain ⟨m, hm⟩ : ∃ m, median ((b.counted now config.maxStaleness).map PriceData.price) = some m :=
            exists_median fun h => hcounted (List.map_eq_nil_iff.mp h)
          rw [h, hm]
          exact ⟨m, rfl⟩
        · rw [h]
          exact ⟨price, rfl⟩

theorem loadPriceStatus_eq (hconfig : b.config = some config) :
    loadPriceStatus env b = if b.submissions = [] then .error (err .noPriceAvailable)
      else .ok ⟨(b.counted env.timestamp config.maxStaleness).length, config.minSubmitters,
        (statusCounts env.timestamp config.maxStaleness b).newest,
        (statusCounts env.timestamp config.maxStaleness b).oldest,
        decide ((b.counted env.timestamp config.maxStaleness).length = 0)⟩ := by
  obtain ⟨hcount, hsaw⟩ := statusCounts_eq env.timestamp config.maxStaleness b
  unfold loadPriceStatus
  rw [hconfig, bind_of_ok (okOr_eq_ok.mpr rfl)]
  dsimp only
  rw [hcount, hsaw]
  by_cases h : b.submissions = []
  · rw [if_pos h, bind_of_error (reject_of _ (decide_eq_false fun hne => hne h))]
  · rw [if_neg h, bind_of_ok (reject_eq_ok (u := ()).mpr fun hf => of_decide_eq_false hf h)]
    rfl

/-- The outcome of a read, by the status at the same time. -/
structure Predicts {α : Type} (status : Result PriceStatus) (twap : Result α) : Prop where
  ok : (∃ a, twap = .ok a) ↔
    ∃ st, status = .ok st ∧ st.minSubmitters.val ≤ st.freshSubmitterCount
  stale : twap = .error (err .oracleStalePrice) ↔ ∃ st, status = .ok st ∧ st.stale = true
  quorum : twap = .error (err .insufficientQuorum) ↔
    ∃ st, status = .ok st ∧ 0 < st.freshSubmitterCount ∧
      st.freshSubmitterCount < st.minSubmitters.val
  missing : twap = .error (err .noPriceAvailable) ↔ status = .error (err .noPriceAvailable)
  unconfigured : twap = .error (err .oracleNotConfigured) ↔ status = .error (err .oracleNotConfigured)

theorem Predicts.of_error {α : Type} {e : Error} (h : e = .noPriceAvailable ∨ e = .oracleNotConfigured) :
    Predicts (.error (err e)) (.error (err e) : Result α) := by
  rcases h with rfl | rfl <;> constructor <;> simp

/-- The read fails with the error that the counts of the status call for, or succeeds. -/
theorem Predicts.of_status {α : Type} {st : PriceStatus} {r : Result α}
    (hpos : 0 < st.minSubmitters.val) (hstale : st.stale = decide (st.freshSubmitterCount = 0))
    (h : st.freshSubmitterCount = 0 ∧ r = .error (err .oracleStalePrice) ∨
      (0 < st.freshSubmitterCount ∧ st.freshSubmitterCount < st.minSubmitters.val) ∧
        r = .error (err .insufficientQuorum) ∨
      st.minSubmitters.val ≤ st.freshSubmitterCount ∧ ∃ a, r = .ok a) : Predicts (.ok st) r := by
  obtain ⟨hzero, rfl⟩ | ⟨⟨hsome, hfew⟩, rfl⟩ | ⟨henough, a, rfl⟩ := h
  · constructor <;> simp [hstale, hzero, hpos]
  · constructor
    · simp [hfew]
    · simp [hstale, hsome.ne']
    · simp [hsome, hfew]
    · simp
    · simp
  · have hsome : 0 < st.freshSubmitterCount := by omega
    constructor
    · simp [henough]
    · simp [hstale, hsome.ne']
    · simp [henough]
    · simp
    · simp

/-- **The status predicts the read.**  In every state without feeds, and at every time. -/
theorem status_of_run (h : Run (Visits here) Moment.fresh vs m) (hno : ¬ m.state.store.toBook.HasFeeds)
    (feeds : Feeds) (env : Env) :
    Predicts (loadPriceStatus env m.state.store.toBook) (getTwapPrice feeds env m.state) := by
  have hs := sound_of_run h
  have hread : getTwapPrice feeds env m.state = (fun x => (x.1, m.state.withBook x.2)) <$>
      getTwapPriceInner feeds env maxTwapObservations m.state.store.toBook :=
    withGuard_onBook hs.lock
  rw [hread]
  cases hconfig : m.state.store.toBook.config with
  | none =>
      have hinner : getTwapPriceInner feeds env maxTwapObservations m.state.store.toBook =
          .error (err .oracleNotConfigured) := by
        unfold getTwapPriceInner
        rw [hconfig]
        rfl
      have hstatus : loadPriceStatus env m.state.store.toBook = .error (err .oracleNotConfigured) := by
        unfold loadPriceStatus
        rw [hconfig]
        rfl
      rw [hinner, hstatus]
      exact .of_error (.inr rfl)
  | some config =>
      rw [getTwapPriceInner_eq (by decide) hconfig, reading_of_no_feeds hno,
        loadPriceStatus_eq hconfig]
      dsimp only
      have hpos : 0 < config.minSubmitters.val :=
        lt_of_le_of_ne config.minSubmitters.ge (hs.book.config config hconfig).quorum_pos.symm
      obtain ⟨hnone, hread⟩ | ⟨hsome, hstale, hread⟩ | ⟨hsome, hfresh, hfew, hread⟩ |
          ⟨hsome, hfresh, henough, price, hread⟩ :=
        backed_cases env.timestamp maxTwapObservations config hs.book
      · rw [hread, if_pos hnone]
        exact .of_error (.inl rfl)
      · rw [hread, if_neg hsome, hstale]
        exact .of_status hpos rfl (.inl ⟨rfl, rfl⟩)
      · rw [hread, if_neg hsome]
        exact .of_status hpos rfl (.inr (.inl ⟨⟨List.length_pos_iff.mpr hfresh, hfew⟩, rfl⟩))
      · rw [hread, if_neg hsome]
        exact .of_status hpos rfl (.inr (.inr ⟨henough, _, rfl⟩))

/-- One of two feeders has lapsed, and a quorum of two is not met. -/
theorem status_of_run_lapsed :
    let m := Sample.visited Sample.silent [
      (.lit 100, .administer (.grantRole (.account 1) .priceFeeder (.account 2))),
      (.lit 100, .administer (.grantRole (.account 1) .priceFeeder (.account 3))),
      (.lit 100, .configureOracle (.account 1) ⟨.lit 8, .lit 1, .lit 300, .lit 0, .lit 0, .lit 2⟩),
      (.lit 110, .submitPrice (.account 2) (.lit 100)),
      (.lit 200, .submitPrice (.account 3) (.lit 120))]
    getTwapPrice Sample.silent (Sample.envAt (.lit 420)) m.state = .error (err .insufficientQuorum) := by
  intro m
  have hrun : Run (Visits Sample.address) Moment.fresh _ m := Sample.run_visited _ _ (by decide)
  refine (status_of_run hrun (by decide) _ _).quorum.mpr ?_
  exact ⟨⟨1, .lit 2, .lit 220, .lit 220, false⟩, by rfl, by decide, by decide⟩

end Drip.Oracle
