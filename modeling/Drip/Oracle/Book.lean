import Drip.Oracle.Calls

/-!
# Oracle — Book

The aggregated price, as what each invocation makes of the `Book`.

* `freshPrices_eq`, `statusCounts_eq`: the two loops over the submitters count the same submissions.
* `getTwapPriceInner_eq`: a read takes its price from the feeds, or else from the submissions.
* `Book.after`: the book an accepted invocation leaves; `Book.Change`: the kinds of it.
-/

namespace Drip.Oracle
open Chain

variable {b b' : Book} {feeds : Feeds} {env : Env} {i : Invocation}
variable {now timestamp maxStaleness price : U64} {caller account f : Address} {count : U32}

/-! ### The loops over the submitters -/

/-- The submissions on the roster. -/
def Book.submissions (b : Book) : List PriceData := b.roster.filterMap b.submission

/-- Those that count at `now`. -/
def Book.counted (now maxStaleness : U64) (b : Book) : List PriceData :=
  b.submissions.filter fun data => data.Fresh now maxStaleness

theorem freshPrices_eq : freshPrices now maxStaleness b =
    ((b.counted now maxStaleness).map PriceData.price, decide (b.submissions ≠ [])) := by
  have hloop : ∀ (feeders : List Address) (x : List U64 × Bool),
      feeders.foldl (freshTurn now maxStaleness b) x =
        (x.1 ++ (((feeders.filterMap b.submission).filter fun data =>
            data.Fresh now maxStaleness).map PriceData.price),
          x.2 || decide (feeders.filterMap b.submission ≠ [])) := by
    intro feeders
    induction feeders with
    | nil => intro x; simp
    | cons feeder feeders ih =>
        intro x
        rw [List.foldl_cons, ih]
        cases h : b.submission feeder with
        | none =>
            rw [List.filterMap_cons_none h]
            simp [freshTurn, h]
        | some data =>
            rw [List.filterMap_cons_some h]
            by_cases hfresh : data.Fresh now maxStaleness <;> simp [freshTurn, h, hfresh]
  exact (hloop b.roster ([], false)).trans (by simp [Book.counted, Book.submissions])

theorem statusCounts_eq (now maxStaleness : U64) (b : Book) :
    (statusCounts now maxStaleness b).count = (b.counted now maxStaleness).length ∧
    (statusCounts now maxStaleness b).saw = decide (b.submissions ≠ []) := by
  have hloop : ∀ (feeders : List Address) (x : Counts),
      (feeders.foldl (statusTurn now maxStaleness b) x).count =
          x.count + ((feeders.filterMap b.submission).filter fun data =>
            data.Fresh now maxStaleness).length ∧
        (feeders.foldl (statusTurn now maxStaleness b) x).saw =
          (x.saw || decide (feeders.filterMap b.submission ≠ [])) := by
    intro feeders
    induction feeders with
    | nil => intro x; simp
    | cons feeder feeders ih =>
        intro x
        rw [List.foldl_cons]
        obtain ⟨hcount, hsaw⟩ := ih (statusTurn now maxStaleness b x feeder)
        rw [hcount, hsaw]
        cases h : b.submission feeder with
        | none =>
            rw [List.filterMap_cons_none h]
            simp [statusTurn, h]
        | some data =>
            rw [List.filterMap_cons_some h]
            by_cases hfresh : data.Fresh now maxStaleness
            · by_cases hzero : x.count = 0
              · simp [statusTurn, h, hfresh, hzero]; omega
              · simp [statusTurn, h, hfresh, hzero]; omega
            · simp [statusTurn, h, hfresh]
  obtain ⟨hcount, hsaw⟩ := hloop b.roster {}
  exact ⟨hcount.trans (Nat.zero_add _), hsaw.trans (Bool.false_or _)⟩

/-! ### Reads -/

theorem consultFeeds_eq : consultFeeds feeds env maxStaleness b =
    (resolveOracleWithFailover feeds env maxStaleness b).toOption := by
  unfold consultFeeds
  split
  · rfl
  · rename_i hno
    have hprimary : b.primaryOracle = none :=
      Option.not_isSome_iff_eq_none.mp fun h => hno (.inl h)
    have hfallback : b.fallbackOracle = none :=
      Option.not_isSome_iff_eq_none.mp fun h => hno (.inr h)
    unfold resolveOracleWithFailover
    rw [hprimary, hfallback]
    rfl

theorem consultFeeds_of_no_feeds (h : ¬ b.HasFeeds) :
    consultFeeds feeds env maxStaleness b = none := if_neg h

/-- The price that a read takes from the feeds. -/
def Book.reading (feeds : Feeds) (env : Env) (b : Book) : Option PriceData :=
  b.config.bind fun config => consultFeeds feeds env config.maxStaleness b

theorem reading_of_no_feeds (h : ¬ b.HasFeeds) : b.reading feeds env = none := by
  unfold Book.reading
  cases b.config with
  | none => rfl
  | some config => exact consultFeeds_of_no_feeds h

/-- The feeds have no price of zero. -/
theorem queryOracleFeed_ne_zero {feed : Address} {data : PriceData}
    (h : queryOracleFeed feeds env feed maxStaleness b = .ok data) : data.price.val ≠ 0 := by
  unfold queryOracleFeed at h
  split at h
  · simp only [bind_eq_ok, reject_eq_ok, pure_eq_ok] at h
    obtain ⟨-, hprice, -, -, rfl⟩ := h
    exact hprice
  · split at h
    · cases h
    · split at h
      · rename_i price hprice
        cases h
        have hpos := (Option.filter_eq_some_iff.mp hprice).2
        rw [decide_eq_true_iff] at hpos
        exact ne_of_gt hpos
      · rw [okOr_eq_ok, Option.filter_eq_some_iff, decide_eq_true_iff] at h
        exact ne_of_gt h.2.1

theorem reading_ne_zero {data : PriceData} (h : b.reading feeds env = some data) :
    data.price.val ≠ 0 := by
  obtain ⟨config, -, h⟩ := Option.bind_eq_some_iff.mp h
  rw [consultFeeds_eq, toOption_eq_some] at h
  unfold resolveOracleWithFailover at h
  have hfailover : ∀ {e : Failure Error}, okOr (b.fallbackOracle.bind fun feed =>
      (queryOracleFeed feeds env feed config.maxStaleness b).toOption) e = .ok data →
      data.price.val ≠ 0 := by
    intro e h
    obtain ⟨feed, -, h⟩ := Option.bind_eq_some_iff.mp (okOr_eq_ok.mp h)
    exact queryOracleFeed_ne_zero (toOption_eq_some.mp h)
  split at h
  · split at h
    · rename_i data' hquery
      cases h
      exact queryOracleFeed_ne_zero hquery
    · exact hfailover h
  · exact hfailover h

/-- The price of a read that the feeds leave to the submissions. -/
def Book.backed (now : U64) (count : U32) (config : OracleConfig) (b : Book) : Result U64 :=
  let counted := b.counted now config.maxStaleness
  if counted = [] then
    .error (err (if b.submissions ≠ [] then .oracleStalePrice else .noPriceAvailable))
  else if counted.length < config.minSubmitters.val then .error (err .insufficientQuorum)
  else match calculateTwap now count config.maxStaleness b with
    | .ok price => .ok price
    | .error (.contract .noPriceAvailable) => okOr (median (counted.map PriceData.price)) .trap
    | .error e => .error e

/-- A read takes its price from the feeds, or else from the submissions. -/
theorem getTwapPriceInner_eq {config : OracleConfig} (hcount : count.val ≠ 0 ∧ count.val ≤ 32)
    (hconfig : b.config = some config) : getTwapPriceInner feeds env count b =
      match b.reading feeds env with
      | some data => recordAndCalculateTwap env.timestamp data.price data.updatedAt count
          config.maxStaleness b
      | none => (fun price => (price, b)) <$> b.backed env.timestamp count config := by
  have hreading : b.reading feeds env = consultFeeds feeds env config.maxStaleness b := by
    unfold Book.reading
    rw [hconfig]
    rfl
  have hvalid : ¬ (count.val = 0 ∨ maxTwapObservations < count) := by
    rintro (h | h)
    · exact hcount.1 h
    · exact absurd (lt_of_lt_of_le h hcount.2) (lt_irrefl _)
  unfold getTwapPriceInner
  rw [bind_of_ok (reject_eq_ok (u := ()).mpr hvalid), hconfig, bind_of_ok (okOr_eq_ok.mpr rfl)]
  dsimp only
  rw [← consultFeeds_eq, ← hreading, freshPrices_eq]
  dsimp only
  cases b.reading feeds env with
  | some data => rfl
  | none =>
      unfold Book.backed
      dsimp only
      rw [List.length_map]
      by_cases hnil : b.counted env.timestamp config.maxStaleness = []
      · rw [if_pos hnil, if_pos (List.map_eq_nil_iff.mpr hnil)]
        by_cases hsaw : b.submissions ≠ []
        · simp [hsaw]
        · simp [hsaw]
      · rw [if_neg hnil, if_neg fun h => hnil (List.map_eq_nil_iff.mp h)]
        split
        · rfl
        · cases calculateTwap env.timestamp count config.maxStaleness b with
          | ok price => rfl
          | error e =>
              rcases e with e | _
              · cases e with
                | noPriceAvailable =>
                    dsimp only
                    cases median ((b.counted env.timestamp config.maxStaleness).map PriceData.price) <;>
                      rfl
                | _ => rfl
              · rfl

theorem getTwapPriceInner_eq_ok {price : U64} :
    getTwapPriceInner feeds env count b = .ok (price, b') ↔
      ∃ config, b.config = some config ∧ (count.val ≠ 0 ∧ count.val ≤ 32) ∧
        match b.reading feeds env with
        | some data => recordAndCalculateTwap env.timestamp data.price data.updatedAt count
            config.maxStaleness b = .ok (price, b')
        | none => b' = b ∧ b.backed env.timestamp count config = .ok price := by
  constructor
  · intro h
    have hguards := h
    simp only [getTwapPriceInner, bind_eq_ok, reject_eq_ok, okOr_eq_ok, not_or] at hguards
    obtain ⟨-, ⟨hne, hle⟩, config, hconfig, -⟩ := hguards
    have hcount : count.val ≠ 0 ∧ count.val ≤ 32 := ⟨hne, not_lt.mp hle⟩
    refine ⟨config, hconfig, hcount, ?_⟩
    rw [getTwapPriceInner_eq hcount hconfig] at h
    split at h
    · exact h
    · simp only [map_eq_ok, Prod.mk.injEq] at h
      obtain ⟨p, hp, rfl, rfl⟩ := h
      exact ⟨rfl, hp⟩
  · rintro ⟨config, hconfig, hcount, h⟩
    rw [getTwapPriceInner_eq hcount hconfig]
    split at h
    · exact h
    · obtain ⟨rfl, h⟩ := h
      rw [h]
      rfl

/-! ### Writes -/

/-- An observation at `t` is not refused. -/
def Book.Admits (t : U64) (b : Book) : Prop :=
  ∀ latest ∈ b.observations.getLast?, latest.timestamp.val ≤ t.val

/-- The book with one more observation. -/
def Book.record (o : PriceObservation) (b : Book) : Book :=
  { b with priceObservations := some (observe b.observations o) }

theorem recordPriceObservation_eq_ok : recordPriceObservation price timestamp b = .ok b' ↔
    b.Admits timestamp ∧ b' = b.record ⟨price, timestamp⟩ := by
  simp only [recordPriceObservation, bind_eq_ok, reject_eq_ok, pure_eq_ok, not_exists, not_and]
  constructor
  · rintro ⟨-, hadmits, rfl⟩
    exact ⟨fun latest h => not_lt.mp (hadmits latest h), rfl⟩
  · rintro ⟨hadmits, rfl⟩
    exact ⟨(), fun latest h => not_lt.mpr (hadmits latest h), rfl⟩

theorem recordPriceObservation_eq_error {e : Failure Error} :
    recordPriceObservation price timestamp b = .error e ↔
      ¬ b.Admits timestamp ∧ e = err .stalePriceFeed := by
  unfold recordPriceObservation Book.Admits
  by_cases h : ∃ latest ∈ b.observations.getLast?, timestamp < latest.timestamp
  · rw [bind_of_error (reject_of _ h), Except.error.injEq]
    obtain ⟨latest, hlast, hlt⟩ := h
    exact ⟨fun he => ⟨fun hadm => absurd (hadm latest hlast) (not_le.mpr hlt), he.symm⟩,
      fun he => he.2.symm⟩
  · rw [bind_of_ok (reject_eq_ok (u := ()).mpr h)]
    refine ⟨fun he => (by cases he), fun ⟨hadm, _⟩ => absurd (fun latest hlast => ?_) hadm⟩
    exact not_lt.mp fun hlt => h ⟨latest, hlast, hlt⟩

/-- The submission of `caller`. -/
def Book.post (now : U64) (caller : Address) (price : U64) (b : Book) : Book :=
  { b with
    price := some ⟨price, now⟩
    submission := Function.update b.submission caller (some ⟨price, now⟩) }

/-- `account` on the roster. -/
def Book.enroll (account : Address) (b : Book) : Book :=
  if account ∈ b.roster then b else { b with submitters := some (b.roster ++ [account]) }

/-- An accepted submission: posted, and the median of what counts then recorded. -/
def Book.submit (now : U64) (caller : Address) (price : U64) (b : Book) : Book :=
  let posted := (b.post now caller price).enroll caller
  posted.record ⟨currentSubmissionMedian price now posted, now⟩

theorem recordAndCalculateTwap_book {twap : U64}
    (h : recordAndCalculateTwap now price timestamp count maxStaleness b = .ok (twap, b')) :
    b.Admits timestamp ∧ b' = b.record ⟨price, timestamp⟩ := by
  simp only [recordAndCalculateTwap, bind_eq_ok, recordPriceObservation_eq_ok] at h
  obtain ⟨b₁, ⟨hadmits, rfl⟩, h⟩ := h
  split at h
  · cases h
    exact ⟨hadmits, rfl⟩
  · cases h
    exact ⟨hadmits, rfl⟩
  · cases h

theorem addSubmitter_eq_ok : addSubmitter account b = .ok b' ↔
    (account ∉ b.roster → b.roster.length < maxSubmitters) ∧ b' = b.enroll account := by
  unfold addSubmitter Book.enroll
  split
  · rename_i hin
    rw [Except.ok.injEq]
    exact ⟨fun h => ⟨fun hno => absurd hin hno, h.symm⟩, fun h => h.2.symm⟩
  · rename_i hno
    simp only [bind_eq_ok, reject_eq_ok, pure_eq_ok]
    constructor
    · rintro ⟨-, hlt, rfl⟩
      exact ⟨fun _ => not_le.mp hlt, rfl⟩
    · rintro ⟨hlt, rfl⟩
      exact ⟨(), not_le.mpr (hlt hno), rfl⟩

theorem enroll_observations : (b.enroll account).observations = b.observations := by
  unfold Book.enroll
  split <;> rfl

theorem writePrice_eq_ok : writePrice now caller price b = .ok b' ↔
    (caller ∉ b.roster → b.roster.length < maxSubmitters) ∧ b.Admits now ∧
      b' = b.submit now caller price := by
  have hadmits : ((b.post now caller price).enroll caller).Admits now ↔ b.Admits now := by
    unfold Book.Admits
    rw [enroll_observations]
    rfl
  show ((addSubmitter caller (b.post now caller price)) >>= fun b =>
    recordPriceObservation (currentSubmissionMedian price now b) now b) = .ok b' ↔ _
  simp only [bind_eq_ok, addSubmitter_eq_ok, recordPriceObservation_eq_ok]
  constructor
  · rintro ⟨b₁, ⟨hcap, rfl⟩, hlast, rfl⟩
    exact ⟨hcap, hadmits.mp hlast, rfl⟩
  · rintro ⟨hcap, hlast, rfl⟩
    exact ⟨_, ⟨hcap, rfl⟩, hadmits.mpr hlast, rfl⟩

/-- The submission of `account` is gone. -/
def Book.drop (account : Address) (b : Book) : Book := (removeSubmitter account { toBook := b }).toBook

theorem removeSubmitter_eq (st : Storage) :
    removeSubmitter account st = { st with toBook := st.toBook.drop account } := by
  unfold Book.drop removeSubmitter
  dsimp only
  by_cases hin : account ∈ st.submitters.getD []
  · by_cases hnil : (st.submitters.getD []).filter (fun s => s ≠ account) = []
    · simp only [if_pos hin, if_pos hnil]
    · simp only [if_pos hin, if_neg hnil]
      rfl
  · simp only [if_neg hin]

theorem drop_submission : (b.drop account).submission = Function.update b.submission account none := by
  unfold Book.drop removeSubmitter
  dsimp only
  split
  · split <;> rfl
  · rfl

theorem drop_roster : (b.drop account).roster = b.roster.filter fun s => s ≠ account := by
  unfold Book.drop removeSubmitter Book.roster
  dsimp only
  split
  · split
    · rename_i hnil
      exact hnil.symm
    · rfl
  · rename_i hno
    refine (List.filter_eq_self.mpr fun s hs => ?_).symm
    rw [decide_eq_true_iff]
    rintro rfl
    exact hno hs

/-- What a dropped submission leaves alone. -/
theorem drop_rest (b : Book) (account : Address) : (b.drop account).observations = b.observations ∧
    (b.drop account).config = b.config ∧ (b.drop account).primaryOracle = b.primaryOracle ∧
    (b.drop account).fallbackOracle = b.fallbackOracle := by
  unfold Book.drop removeSubmitter
  dsimp only
  split
  · split <;> exact ⟨rfl, rfl, rfl, rfl⟩
  · exact ⟨rfl, rfl, rfl, rfl⟩

/-- A submission that is not there. -/
theorem drop_of_none (h : b.submission account = none) (hno : account ∉ b.roster) :
    b.drop account = b := by
  unfold Book.roster at hno
  unfold Book.drop removeSubmitter
  dsimp only
  rw [if_neg hno, ← h, Function.update_eq_self]

/-- A read: the price that it takes from the feeds is recorded. -/
def Book.read (feeds : Feeds) (env : Env) (b : Book) : Book :=
  match b.reading feeds env with
  | some data => b.record ⟨data.price, data.updatedAt⟩
  | none => b

theorem getTwapPriceInner_book (h : getTwapPriceInner feeds env count b = .ok (price, b')) :
    b' = b.read feeds env ∧ ∀ data ∈ b.reading feeds env, b.Admits data.updatedAt := by
  obtain ⟨config, -, -, h⟩ := getTwapPriceInner_eq_ok.mp h
  unfold Book.read
  split at h
  · rename_i data hdata
    obtain ⟨hadmits, rfl⟩ := recordAndCalculateTwap_book h
    rw [hdata]
    exact ⟨rfl, fun data' h' => Option.some.inj h' ▸ hadmits⟩
  · rename_i hnone
    rw [hnone]
    exact ⟨h.1, fun _ h' => (by cases h')⟩

/-- The roster and the submissions after a submission. -/
theorem posted_roster : ((b.post now caller price).enroll caller).roster =
    if caller ∈ b.roster then b.roster else b.roster ++ [caller] := by
  unfold Book.enroll
  split
  · rename_i hin
    exact (if_pos hin).symm
  · rename_i hno
    exact (if_neg hno).symm

theorem enroll_rest (b : Book) (account : Address) : (b.enroll account).submission = b.submission ∧
    (b.enroll account).config = b.config ∧ (b.enroll account).primaryOracle = b.primaryOracle ∧
    (b.enroll account).fallbackOracle = b.fallbackOracle := by
  unfold Book.enroll
  split <;> exact ⟨rfl, rfl, rfl, rfl⟩

theorem posted_submission : ((b.post now caller price).enroll caller).submission =
    Function.update b.submission caller (some ⟨price, now⟩) := (enroll_rest _ _).1

theorem currentSubmissionMedian_eq : currentSubmissionMedian price now b =
    match b.config with
    | none => price
    | some config => (median ((b.counted now config.maxStaleness).map PriceData.price)).getD price := by
  unfold currentSubmissionMedian
  cases b.config with
  | none => rfl
  | some config => exact congrArg (fun x => (median x).getD price) (congrArg Prod.fst freshPrices_eq)

theorem counted_ne_zero {data : PriceData} (h : data ∈ b.counted now maxStaleness) :
    data.price.val ≠ 0 := by
  have hfresh := (List.mem_filter.mp h).2
  rw [decide_eq_true_iff] at hfresh
  exact hfresh.2

theorem currentSubmissionMedian_ne_zero (hprice : price.val ≠ 0) :
    (currentSubmissionMedian price now b).val ≠ 0 := by
  rw [currentSubmissionMedian_eq]
  split
  · exact hprice
  · rename_i config _
    cases hm : median ((b.counted now config.maxStaleness).map PriceData.price) with
    | none => exact hprice
    | some m =>
        refine median_ne_zero hm fun p hp => ?_
        obtain ⟨data, hdata, rfl⟩ := List.mem_map.mp hp
        exact counted_ne_zero hdata

theorem reconfigure_config {config : OracleConfig} : (b.reconfigure config).config = some config := by
  unfold Book.reconfigure
  split <;> rfl

theorem reconfigure_feeds {config : OracleConfig} :
    (b.reconfigure config).primaryOracle = b.primaryOracle ∧
      (b.reconfigure config).fallbackOracle = b.fallbackOracle := by
  unfold Book.reconfigure
  split <;> exact ⟨rfl, rfl⟩

theorem read_rest : (b.read feeds env).submission = b.submission ∧
    (b.read feeds env).roster = b.roster ∧ (b.read feeds env).config = b.config ∧
    (b.read feeds env).primaryOracle = b.primaryOracle ∧
    (b.read feeds env).fallbackOracle = b.fallbackOracle := by
  unfold Book.read
  split <;> exact ⟨rfl, rfl, rfl, rfl, rfl⟩

/-! ### What an invocation makes of the book -/

/-- The book that an accepted invocation leaves. -/
def Book.after (i : Invocation) (b : Book) : Book :=
  match i.entry with
  | .administer (.revokeRole _ .priceFeeder account) => b.drop account
  | .administer (.purgeSubmitter _ feeder) => b.drop feeder
  | .configureOracle _ config => b.reconfigure config
  | .updateOracleConfig _ update =>
      match b.config with
      | some config => b.reconfigure (update.apply config)
      | none => b
  | .submitPrice caller price => b.submit i.env.timestamp caller price
  | .getTwapPrice | .getTwapPriceForObservations _ | .calculateFiatStreamPayout _ =>
      b.read i.feeds i.env
  | .setOracleFeeds _ primaryOracle fallbackOracle =>
      { b with primaryOracle := some primaryOracle, fallbackOracle := fallbackOracle }
  | .setPrimaryOracle _ primaryOracle => { b with primaryOracle := some primaryOracle }
  | .setFallbackOracle _ fallbackOracle => { b with fallbackOracle := some fallbackOracle }
  | .setMaxStalenessSeconds _ seconds =>
      { b with config := b.config.map fun config => { config with maxStaleness := seconds } }
  | _ => b

/-- What `store_oracle_config` checks. -/
structure OracleConfig.Sane (c : OracleConfig) : Prop where
  decimals_le : c.decimals.val ≤ 19
  staleness_pos : c.maxStaleness.val ≠ 0
  quorum_pos : c.minSubmitters.val ≠ 0
  quorum_le : c.minSubmitters.val ≤ 32

/-- What an accepted invocation has checked. -/
def Book.Accepts (i : Invocation) (b : Book) : Prop :=
  match i.entry with
  | .submitPrice caller price => price.val ≠ 0 ∧
      (caller ∉ b.roster → b.roster.length < maxSubmitters) ∧ b.Admits i.env.timestamp
  | .configureOracle _ config => config.Sane
  | .updateOracleConfig _ update => ∃ config, b.config = some config ∧ (update.apply config).Sane
  | .getTwapPrice | .getTwapPriceForObservations _ | .calculateFiatStreamPayout _ =>
      ∀ data ∈ b.reading i.feeds i.env, b.Admits data.updatedAt
  | .setMaxStalenessSeconds _ seconds => seconds.val ≠ 0
  | _ => True

/-- The feeder whose submission an invocation drops. -/
def Invocation.dropped (i : Invocation) : Option Address :=
  match i.entry with
  | .administer (.revokeRole _ .priceFeeder account) => some account
  | .administer (.purgeSubmitter _ feeder) => some feeder
  | _ => none

def Entry.configures : Entry → Bool
  | .configureOracle _ _ | .updateOracleConfig _ _ => true
  | _ => false

def Entry.setsFeeds : Entry → Bool
  | .setOracleFeeds _ _ _ | .setPrimaryOracle _ _ | .setFallbackOracle _ _ => true
  | _ => false

/-- The reads of the time-weighted price. -/
def Entry.readsTwap : Entry → Bool
  | .getTwapPrice | .getTwapPriceForObservations _ | .calculateFiatStreamPayout _ => true
  | _ => false

/-- The kinds of change. -/
inductive Book.Change (i : Invocation) (b : Book) : Book → Prop where
  | same (h : i.dropped = none) : Change i b b
  | dropped {account : Address} (h : i.dropped = some account) : Change i b (b.drop account)
  | submitted {caller : Address} {price : U64} (h : i.entry = .submitPrice caller price)
      (hprice : price.val ≠ 0) (hcap : caller ∉ b.roster → b.roster.length < maxSubmitters)
      (hadmits : b.Admits i.env.timestamp) : Change i b (b.submit i.env.timestamp caller price)
  | configured {config : OracleConfig} (h : i.entry.configures = true) (hsane : config.Sane) :
      Change i b (b.reconfigure config)
  | limited {caller : Address} {seconds : U64} (h : i.entry = .setMaxStalenessSeconds caller seconds)
      (hpos : seconds.val ≠ 0) :
      Change i b
        { b with config := b.config.map fun config => { config with maxStaleness := seconds } }
  | connected {primary fallback : Option Address} (h : i.entry.setsFeeds = true)
      (hset : primary.isSome = true ∨ fallback.isSome = true) :
      Change i b { b with primaryOracle := primary, fallbackOracle := fallback }
  | read (h : i.entry.readsTwap = true)
      (hadmits : ∀ data ∈ b.reading i.feeds i.env, b.Admits data.updatedAt) :
      Change i b (b.read i.feeds i.env)

theorem Book.Accepts.change (h : b.Accepts i) : b.Change i (b.after i) := by
  obtain ⟨feeds, env, entry⟩ := i
  cases entry with
  | administer c =>
      cases c with
      | revokeRole caller role account =>
          cases role with
          | priceFeeder => exact .dropped rfl
          | _ => exact .same rfl
      | purgeSubmitter caller feeder => exact .dropped rfl
      | _ => exact .same rfl
  | configureOracle caller config => exact .configured rfl h
  | updateOracleConfig caller update =>
      obtain ⟨config, hconfig, hsane⟩ := h
      unfold Book.after
      rw [hconfig]
      exact .configured rfl hsane
  | submitPrice caller price => exact .submitted rfl h.1 h.2.1 h.2.2
  | getTwapPrice | getTwapPriceForObservations | calculateFiatStreamPayout => exact .read rfl h
  | setMaxStalenessSeconds caller seconds => exact .limited rfl h
  | setOracleFeeds | setPrimaryOracle => exact .connected rfl (.inl rfl)
  | setFallbackOracle => exact .connected rfl (.inr rfl)
  | _ => exact .same rfl

theorem dropped_of_entry
    (h : i.entry.configures = true ∨ i.entry.setsFeeds = true ∨ i.entry.readsTwap = true) :
    i.dropped = none := by
  obtain ⟨feeds, env, entry⟩ := i
  cases entry with
  | administer c => simp [Entry.configures, Entry.setsFeeds, Entry.readsTwap] at h
  | _ => rfl

/-- A feed, once set, is never unset. -/
theorem Book.Change.hasFeeds (h : b.Change i b') (hb : b.HasFeeds) : b'.HasFeeds := by
  have hcongr : ∀ {b' : Book}, b'.primaryOracle = b.primaryOracle →
      b'.fallbackOracle = b.fallbackOracle → b'.HasFeeds := by
    intro b' hprimary hfallback
    unfold Book.HasFeeds
    rwa [hprimary, hfallback]
  cases h with
  | same | limited => exact hb
  | dropped => exact hcongr (drop_rest _ _).2.2.1 (drop_rest _ _).2.2.2
  | @submitted caller price =>
      have hrest := enroll_rest (b.post i.env.timestamp caller price) caller
      exact hcongr hrest.2.2.1 hrest.2.2.2
  | configured => exact hcongr reconfigure_feeds.1 reconfigure_feeds.2
  | connected _ hset => exact hset
  | read => exact hcongr read_rest.2.2.2.1 read_rest.2.2.2.2

end Drip.Oracle
