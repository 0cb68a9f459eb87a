import Drip.Oracle.Average

/-!
# Oracle — Majority

How far a minority of the feeders can move the price.

* `Agreed`: whenever somebody submits, more than half of the submissions that count are from `lo` to `hi`.
* `within_of_run`: as long as they are, so are all observations, and so is every time-weighted average.
* `majority_of_run`: so is every price that is read while they are.
-/

namespace Drip.Oracle
open Chain

variable {here : Address} {b b' : Book} {m m' : Moment} {v : Visit} {vs : List Visit} {i : Invocation}
variable {feeds : Feeds} {env : Env} {now maxStaleness price last : U64} {count : U32} {lo hi : Int}

/-! ### Observations -/

/-- A price from `lo` to `hi`. -/
def Lies (lo hi : Int) (p : U64) : Prop := lo ≤ p.val ∧ p.val ≤ hi

instance (lo hi : Int) (p : U64) : Decidable (Lies lo hi p) := inferInstanceAs (Decidable (_ ∧ _))

/-- All observations are from `lo` to `hi`. -/
def Book.Within (lo hi : Int) (b : Book) : Prop := ∀ o ∈ b.observations, Lies lo hi o.price

theorem mem_observe {obs : List PriceObservation} {o x : PriceObservation} (h : x ∈ observe obs o) :
    x ∈ obs ∨ x = o := by
  unfold observe at h
  split at h
  · split at h
    · rcases List.mem_append.mp h with h | h
      · exact .inl (List.mem_of_mem_dropLast h)
      · exact .inr (List.mem_singleton.mp h)
    · split at h
      · rcases List.mem_append.mp h with h | h
        · exact .inl (List.mem_of_mem_drop h)
        · exact .inr (List.mem_singleton.mp h)
      · exact (List.mem_append.mp h).imp_right List.mem_singleton.mp
  · exact (List.mem_append.mp h).imp_right List.mem_singleton.mp

theorem within_record {o : PriceObservation} (hb : b.Within lo hi) (ho : Lies lo hi o.price) :
    (b.record o).Within lo hi := by
  intro x hx
  rcases mem_observe hx with hx | rfl
  · exact hb x hx
  · exact ho

/-! ### Agreement -/

/-- The prices that an observation is made of: those that count, or the last one, as long as nothing is
configured. -/
def Book.quoted (now price : U64) (b : Book) : List U64 :=
  match b.config with
  | none => [price]
  | some config => (b.counted now config.maxStaleness).map PriceData.price

/-- More than half of them are from `lo` to `hi`. -/
def Book.Agrees (lo hi : Int) (now price : U64) (b : Book) : Prop :=
  (b.quoted now price).length < 2 * between lo hi (b.quoted now price)

instance (lo hi : Int) (now price : U64) (b : Book) : Decidable (b.Agrees lo hi now price) :=
  inferInstanceAs (Decidable (_ < _))

theorem lies_median {prices : List U64} {p : U64} (hmaj : prices.length < 2 * between lo hi prices)
    (h : median prices = some p) : Lies lo hi p := by
  simp only [median, Option.bind_eq_bind, Option.bind_eq_some_iff, Option.pure_def,
    Option.some.injEq] at h
  obtain ⟨⟨x, y⟩, hmiddle, rfl⟩ := h
  obtain ⟨⟨hx, hx'⟩, hy, hy'⟩ := middle_between hmaj hmiddle
  unfold Lies
  dsimp only at hx hx' hy hy' ⊢
  omega

theorem lies_of_agrees (hconfig : b.config = none) (h : b.Agrees lo hi now price) : Lies lo hi price := by
  unfold Book.Agrees Book.quoted at h
  rw [hconfig] at h
  dsimp only at h
  by_contra hout
  have hzero : between lo hi [price] = 0 := by
    refine List.countP_eq_zero.mpr fun x hx hin => hout ?_
    rw [← List.mem_singleton.mp hx]
    exact of_decide_eq_true hin
  rw [hzero] at h
  exact Nat.not_lt_zero _ h

/-- The observation that goes with a submission. -/
theorem lies_currentSubmissionMedian (h : b.Agrees lo hi now price) :
    Lies lo hi (currentSubmissionMedian price now b) := by
  rw [currentSubmissionMedian_eq]
  cases hconfig : b.config with
  | none => exact lies_of_agrees hconfig h
  | some config =>
      unfold Book.Agrees Book.quoted at h
      rw [hconfig] at h
      dsimp only at h ⊢
      have hsome : (b.counted now config.maxStaleness).map PriceData.price ≠ [] := by
        intro hnil
        rw [hnil] at h
        exact Nat.lt_irrefl 0 h
      obtain ⟨p, hp⟩ := exists_median hsome
      rw [hp]
      exact lies_median h hp

/-- What a visit brings in is agreed on: a submission leaves a majority, and a price from the feeds is in
the interval. -/
def Agreed (lo hi : Int) (m : Moment) : Visit → Prop
  | .refused _ _ => True
  | .made i _ =>
      (∀ caller price, i.entry = .submitPrice caller price →
        ((m.state.store.toBook.post i.env.timestamp caller price).enroll caller).Agrees lo hi
          i.env.timestamp price) ∧
      (i.entry.readsTwap = true → ∀ data ∈ m.state.store.toBook.reading i.feeds i.env,
        Lies lo hi data.price)

theorem observations_of_drop (b : Book) (account : Address) :
    (b.drop account).observations = b.observations := (drop_rest b account).1

theorem observations_of_reconfigure (config : OracleConfig) :
    (b.reconfigure config).observations = b.observations ∨ (b.reconfigure config).observations = [] := by
  unfold Book.reconfigure
  split
  · exact .inr rfl
  · exact .inl rfl

theorem Book.Change.within (h : b.Change i b') (hb : b.Within lo hi)
    (hsubmit : ∀ caller price, i.entry = .submitPrice caller price →
      ((b.post i.env.timestamp caller price).enroll caller).Agrees lo hi i.env.timestamp price)
    (hread : i.entry.readsTwap = true → ∀ data ∈ b.reading i.feeds i.env, Lies lo hi data.price) :
    b'.Within lo hi := by
  cases h with
  | same _ | limited _ _ | connected _ _ => exact hb
  | dropped _ =>
      unfold Book.Within
      rw [observations_of_drop]
      exact hb
  | @submitted caller price hentry _ _ _ =>
      refine within_record ?_ (lies_currentSubmissionMedian (hsubmit caller price hentry))
      unfold Book.Within
      rw [enroll_observations]
      exact hb
  | @configured config _ _ =>
      unfold Book.Within
      rcases observations_of_reconfigure (b := b) config with heq | heq
      · rw [heq]
        exact hb
      · rw [heq]
        exact fun o ho => absurd ho List.not_mem_nil
  | read hentry _ =>
      unfold Book.read
      split
      · rename_i data hdata
        exact within_record hb (hread hentry data hdata)
      · exact hb

theorem within_of_visits (hs : Sound m.state) (h : Visits here m v m') (hagreed : Agreed lo hi m v)
    (hb : m.state.store.toBook.Within lo hi) : m'.state.store.toBook.Within lo hi := by
  cases h with
  | refused _ _ _ => exact hb
  | made _ _ h => exact (enters_of_enter hs h).change.within hb hagreed.1 hagreed.2

/-! ### What is read -/

theorem lies_calculateTwap {twap : U64} (hs : b.Sound) (hb : b.Within lo hi)
    (h : calculateTwap now count maxStaleness b = .ok twap) : Lies lo hi twap := by
  have hshares : ∀ obs : List PriceObservation, (∀ o ∈ obs, Lies lo hi o.price) →
      ∀ x ∈ shares now maxStaleness obs, lo ≤ x.1 ∧ x.1 ≤ hi := by
    intro obs
    induction obs with
    | nil => exact fun _ x hx => absurd hx List.not_mem_nil
    | cons o rest ih =>
        intro hobs x hx
        rcases List.mem_cons.mp hx with rfl | hx
        · exact hobs o List.mem_cons_self
        · exact ih (fun o' ho' => hobs o' (List.mem_cons_of_mem o ho')) x hx
  have hwindow := hshares (b.window count) fun o ho => hb o (List.mem_of_mem_drop ho)
  rcases calculateTwap_eq hs now count maxStaleness with ⟨-, herror⟩ | ⟨hpos, p, hok, hp⟩
  · cases herror.symm.trans h
  · obtain rfl := Except.ok.inj (hok.symm.trans h)
    unfold Lies
    rw [hp]
    exact Weighted.floor_mean_mem shares_proper hpos (fun x hx _ => (hwindow x hx).1)
      fun x hx _ => (hwindow x hx).2

/-- A read, at a time when the submissions agree. -/
theorem lies_getTwapPriceInner (hs : b.Sound) (hb : b.Within lo hi)
    (hread : ∀ data ∈ b.reading feeds env, Lies lo hi data.price)
    (hagrees : b.Agrees lo hi env.timestamp last)
    (h : getTwapPriceInner feeds env count b = .ok (price, b')) : Lies lo hi price := by
  obtain ⟨config, hconfig, -, h⟩ := getTwapPriceInner_eq_ok.mp h
  cases hdata : b.reading feeds env with
  | some data =>
      rw [hdata] at h
      dsimp only at h
      obtain ⟨hadmits, -⟩ := recordAndCalculateTwap_book h
      simp only [recordAndCalculateTwap, bind_eq_ok, recordPriceObservation_eq_ok] at h
      obtain ⟨b₁, ⟨-, rfl⟩, h⟩ := h
      have hprice := hread data hdata
      split at h
      · rename_i twap htwap
        cases h
        exact lies_calculateTwap (hs.record hadmits (reading_ne_zero hdata))
          (within_record hb hprice) htwap
      · cases h
        exact hprice
      · cases h
  | none =>
      rw [hdata] at h
      obtain ⟨-, h⟩ := h
      unfold Book.backed at h
      dsimp only at h
      split at h
      · cases h
      · split at h
        · cases h
        · split at h
          · rename_i twap htwap
            cases h
            exact lies_calculateTwap hs hb htwap
          · -- no observation has stood for any time yet
            unfold Book.Agrees Book.quoted at hagrees
            rw [hconfig] at hagrees
            exact lies_median hagrees (okOr_eq_ok.mp h)
          · cases h

/-! ### Over runs -/

theorem within_of_run (h : Run (fun m v m' => Visits here m v m' ∧ Agreed lo hi m v) Moment.fresh vs m) :
    Sound m.state ∧ m.state.store.toBook.Within lo hi := by
  refine h.invariant (P := fun m => Sound m.state ∧ m.state.store.toBook.Within lo hi) ?_
    ⟨.fresh, fun o ho => absurd ho List.not_mem_nil⟩
  rintro m v m' - ⟨hvisit, hagreed⟩ ⟨hs, hb⟩
  exact ⟨hvisit.sound hs, within_of_visits hs hvisit hagreed hb⟩

/-- **A minority does not move the price.**  Where in the whole run every submission has left more than half
of those that count between `lo` and `hi`, and the feeds have answered between them: every average over the
observations, at any later time and with any window and age limit, lies between them, and so does every
answer of a read at a time when the submissions agree still. -/
theorem majority_of_run
    (h : Run (fun m v m' => Visits here m v m' ∧ Agreed lo hi m v) Moment.fresh vs m) :
    (∀ now count maxStaleness twap,
      calculateTwap now count maxStaleness m.state.store.toBook = .ok twap → Lies lo hi twap) ∧
    ∀ feeds env count price last b',
      (∀ data ∈ m.state.store.toBook.reading feeds env, Lies lo hi data.price) →
      m.state.store.toBook.Agrees lo hi env.timestamp last →
      getTwapPriceInner feeds env count m.state.store.toBook = .ok (price, b') → Lies lo hi price := by
  obtain ⟨hs, hb⟩ := within_of_run h
  exact ⟨fun _ _ _ _ htwap => lies_calculateTwap hs.book hb htwap,
    fun _ _ _ _ _ _ hread hagrees hprice => lies_getTwapPriceInner hs.book hb hread hagrees hprice⟩

/-! ### Three feeders

Two of them agree within five percent, the third is far off. -/

namespace Sample

def roles : List (U64 × Entry) := [
  (.lit 100, .administer (.grantRole (.account 1) .priceFeeder (.account 2))),
  (.lit 100, .administer (.grantRole (.account 1) .priceFeeder (.account 3))),
  (.lit 100, .administer (.grantRole (.account 1) .priceFeeder (.account 4))),
  (.lit 100, .configureOracle (.account 1) ⟨.lit 8, .lit 1, .lit 300, .lit 0, .lit 0, .lit 2⟩)]

/-- What a submission leaves. -/
def lodged (m : Moment) (feeder : Address) (price : U64) (t : U64) : Visit × Moment :=
  m.visit ⟨silent, envAt t, .submitPrice feeder price⟩

def staffed : Moment := visited silent roles
def first : Visit × Moment := lodged staffed (.account 2) (.lit 100) (.lit 110)
def second : Visit × Moment := lodged first.2 (.account 3) (.lit 101) (.lit 120)
def third : Visit × Moment := lodged second.2 (.account 4) (.lit 140) (.lit 130)

/-- A submission that leaves a majority. -/
theorem agreed_lodged {m : Moment} {feeder : Address} {price t : U64}
    (h : ((m.state.store.toBook.post t feeder price).enroll feeder).Agrees lo hi t price) :
    Agreed lo hi m (lodged m feeder price t).1 := by
  unfold lodged Moment.visit
  split
  · refine ⟨fun caller p hentry => ?_, fun hread => absurd hread Bool.false_ne_true⟩
    obtain ⟨rfl, rfl⟩ := Entry.submitPrice.inj hentry
    exact h
  · trivial

theorem run_staffed : Run (fun m v m' => Visits address m v m' ∧ Agreed 95 105 m v) Moment.fresh
    (Moment.fresh.tour (invocations silent roles)).1 staffed := by
  refine (run_visited silent roles (by decide)).mono fun {m v m'} hv hvisit => ⟨hvisit, ?_⟩
  have hquiet : ∀ i ∈ invocations silent roles,
      (∀ caller price, i.entry ≠ .submitPrice caller price) ∧ i.entry.readsTwap = false := by
    intro i hi
    simp only [invocations, roles, List.map_cons, List.map_nil, List.mem_cons, List.not_mem_nil,
      or_false] at hi
    obtain rfl | rfl | rfl | rfl | rfl := hi
    all_goals exact ⟨fun _ _ h => (by cases h), rfl⟩
  obtain ⟨hsubmits, hreads⟩ := hquiet _ (mem_tour hv)
  cases v with
  | refused i failure => trivial
  | made i reply =>
      refine ⟨fun caller price hentry => absurd hentry (hsubmits caller price), fun hread => ?_⟩
      exact absurd (hreads.symm.trans hread) Bool.false_ne_true

theorem run_third : ∃ vs, Run (fun m v m' => Visits address m v m' ∧ Agreed 95 105 m v) Moment.fresh vs
    third.2 := by
  have h₁ : Agreed 95 105 staffed first.1 := agreed_lodged (by decide +kernel)
  have h₂ : Agreed 95 105 first.2 second.1 := agreed_lodged (by decide +kernel)
  have h₃ : Agreed 95 105 second.2 third.1 := agreed_lodged (by decide +kernel)
  exact ⟨_, ((run_staffed.snoc ⟨visits_visit rfl (by decide), h₁⟩).snoc
    ⟨visits_visit rfl (by decide), h₂⟩).snoc ⟨visits_visit rfl (by decide), h₃⟩⟩

end Sample

/-- After the three submissions: the average over the last ten observations, ten seconds later. -/
theorem majority_of_run_third : ∃ twap,
    calculateTwap (.lit 140) (.lit 10) (.lit 300) Sample.third.2.state.store.toBook = .ok twap ∧
    Lies 95 105 twap := by
  have hanswers : (calculateTwap (.lit 140) (.lit 10) (.lit 300) Sample.third.2.state.store.toBook).isOk =
      true := by decide +kernel
  obtain ⟨twap, htwap⟩ := exists_of_isOk hanswers
  obtain ⟨vs, hrun⟩ := Sample.run_third
  exact ⟨twap, htwap, (majority_of_run hrun).1 _ _ _ twap htwap⟩

end Drip.Oracle
