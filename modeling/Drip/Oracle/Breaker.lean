import Mathlib.Algebra.Order.Group.Abs
import Mathlib.Data.Int.SuccPred
import Mathlib.Data.List.Chain
import Mathlib.Order.SuccPred.Relation
import Drip.Oracle.Availability

/-!
# Oracle — Breaker

The built-in deviation check of `submit_price`: which prices can be reached from a last price by
submissions, where no other limit is configured.

* `checkPrice_eq_ok`: the check, as a relation between the last price and the next.
* `chain_iff`: from 2 on the neighbours of a price are within reach, and so is every price; from 1 only 1.
* `submitAll_iff`: a feeder can submit exactly the sequences that the check accepts.
* `reachable_prices`: the prices that a feeder can move the feed to.
-/

namespace Drip.Oracle
open Chain

variable {env : Env} {caller : Address} {s s' : State} {now t : U64} {p q x : U64}
variable {b : Book} {last : PriceData}

/-- Neither a ceiling is configured, nor a deviation, nor an interval. -/
def Storage.Unlimited (st : Storage) : Prop :=
  ∀ config ∈ st.config, config.maxPrice.val = 0 ∧ (st.maxDeviationBps.getD (.lit 0)).val = 0 ∧
    config.minSubmitInterval.val = 0

instance (st : Storage) : Decidable st.Unlimited :=
  inferInstanceAs (Decidable (∀ config ∈ st.config, _))

/-- The next price is not zero, and at most half of the last price away from it. -/
def Follows (p x : U64) : Prop := x.val ≠ 0 ∧ |x.val - p.val| * 10000 / p.val ≤ 5000

/-! ### The check -/

theorem val_absDiff : (U64.absDiff x p).val = |x.val - p.val| := by
  unfold U64.absDiff
  rw [val_saturatingSub, Ranged.val_max, Ranged.val_min, max_sub_min_eq_abs, abs_sub_comm]
  exact max_eq_right (abs_nonneg _)

theorem lastPriceDeviation_eq (hprice : b.price = some last) (hpos : 0 < last.price.val) :
    ∃ d, lastPriceDeviation x b = .ok (some d) ∧
      d.val = |x.val - last.price.val| * 10000 / last.price.val := by
  have hx := x.le
  have hx' := x.ge
  have hl := last.price.le
  have hl' := last.price.ge
  have habs : |x.val - last.price.val| ≤ 18446744073709551615 := by
    rw [abs_le]
    omega
  have hnonneg := abs_nonneg (x.val - last.price.val)
  let product : U128 := ⟨|x.val - last.price.val| * 10000, by omega, by omega⟩
  have hmul : Ranged.checkedMul ((U64.absDiff x last.price).widen : U128) (.lit 10000) =
      some product := by
    rw [Ranged.checkedMul_eq_some, Ranged.val_widen, val_absDiff]
  refine ⟨U128.div product last.price.widen, ?_, ?_⟩
  · simp only [lastPriceDeviation, hprice, Option.filter_some, hpos, decide_true, if_true, hmul]
    rfl
  · rfl

theorem checkPrice_eq_ok (hfree : s.store.Unlimited) (hprice : s.store.price = some last)
    (hpos : 0 < last.price.val) :
    checkPrice now caller x s = .ok () ↔ Follows last.price x := by
  obtain ⟨d, hd, hval⟩ := lastPriceDeviation_eq (x := x) (b := s.store.toBook) hprice hpos
  have hdeviation : Follows last.price x ↔ x.val ≠ 0 ∧ ¬ ∃ d' ∈ some d, 5000 < d'.val := by
    unfold Follows
    rw [← hval]
    simp
  unfold checkPrice
  constructor
  · intro h
    simp only [bind_eq_ok, reject_eq_ok, hd] at h
    obtain ⟨-, hx, d', hd', -, hle, -⟩ := h
    cases hd'
    exact hdeviation.mpr ⟨hx, hle⟩
  · intro h
    obtain ⟨hx, hle⟩ := hdeviation.mp h
    rw [bind_of_ok (reject_eq_ok (u := ()).mpr hx), bind_of_ok hd,
      bind_of_ok (reject_eq_ok (u := ()).mpr hle)]
    cases hconfig : s.store.config with
    | none => rfl
    | some config =>
        obtain ⟨hmax, hdev, hinterval⟩ := hfree config hconfig
        simp [hmax, hdev, hinterval]

/-- `submit_price` accepts `x` next, if `last` was accepted last. -/
def Accepts (now : U64) (caller : Address) (s : State) (last x : U64) : Prop :=
  checkPrice now caller x (s.withBook { s.store.toBook with price := some ⟨last, now⟩ }) = .ok ()

theorem accepts_iff (hfree : s.store.Unlimited) (hp : 0 < p.val) :
    Accepts now caller s p x ↔ Follows p x := by
  have hprice : (s.withBook { s.store.toBook with price := some ⟨p, now⟩ }).store.price =
      some ⟨p, now⟩ := rfl
  have hkept : (s.withBook { s.store.toBook with price := some ⟨p, now⟩ }).store.Unlimited := hfree
  unfold Accepts
  rw [checkPrice_eq_ok hkept hprice hp]

theorem Follows.pos (h : Follows p x) : 0 < x.val := lt_of_le_of_ne x.ge h.1.symm

theorem isChain_accepts_iff {xs : List U64} (hfree : s.store.Unlimited) (hp : 0 < p.val) :
    List.IsChain (Accepts now caller s) (p :: xs) ↔ List.IsChain Follows (p :: xs) := by
  induction xs generalizing p with
  | nil => exact iff_of_true (.singleton p) (.singleton p)
  | cons x xs ih =>
      rw [List.isChain_cons_cons, List.isChain_cons_cons, accepts_iff hfree hp]
      exact and_congr_right fun hx => ih hx.pos

/-! ### What is within reach -/

theorem follows_self (hp : p.val ≠ 0) : Follows p p := ⟨hp, by simp⟩

/-- Above 1, a step of one is at most half of the price. -/
theorem follows_of_step (hp : 2 ≤ p.val) (hx : x.val ≠ 0) (h : |x.val - p.val| = 1) : Follows p x := by
  refine ⟨hx, ?_⟩
  rw [h, one_mul]
  exact Int.ediv_le_of_le_mul (by omega) (by omega)

theorem follows_one_iff (hp : p.val = 1) : Follows p x ↔ x.val = 1 := by
  unfold Follows
  rw [hp, Int.ediv_one]
  constructor
  · rintro ⟨-, h⟩
    rcases abs_cases (x.val - 1) with habs | habs <;> omega
  · intro h
    simp [h]

/-- Every price from 2 on leads to every other by steps of one. -/
theorem reaches (hp : 2 ≤ p.val) (hq : 0 < q.val) : Relation.ReflTransGen Follows p q := by
  let price (n : Int) : U64 := Ranged.clamp n (by decide)
  have hval (n : Int) (h0 : 0 ≤ n) (h1 : n ≤ 18446744073709551615) : (price n).val = n := by
    rw [Ranged.val_clamp]
    omega
  have hprice (y : U64) : price y.val = y := Ranged.ext (hval y.val y.ge y.le)
  have hple := p.le
  have hqle := q.le
  have hnext (i : Int) (h0 : 0 ≤ i) (h1 : i < 18446744073709551615) :
      (price i).val = i ∧ (price (Order.succ i)).val = i + 1 := by
    rw [Order.succ_eq_add_one]
    exact ⟨hval i h0 h1.le, hval (i + 1) (by omega) (by omega)⟩
  have hup : ∀ i ∈ Set.Ico p.val q.val, Follows (price i) (price (Order.succ i)) := by
    rintro i ⟨hlo, hhi⟩
    obtain ⟨h0, h1⟩ := hnext i (by omega) (by omega)
    exact follows_of_step (by omega) (by omega) (by rw [h0, h1]; simp)
  have hdown : ∀ i ∈ Set.Ico q.val p.val, Follows (price (Order.succ i)) (price i) := by
    rintro i ⟨hlo, hhi⟩
    obtain ⟨h0, h1⟩ := hnext i (by omega) (by omega)
    exact follows_of_step (by omega) (by omega) (by rw [h0, h1]; simp)
  have hreach : Relation.ReflTransGen (fun i j => Follows (price i) (price j)) p.val q.val :=
    reflTransGen_of_succ _ hup hdown
  have hlift : Relation.ReflTransGen Follows (price p.val) (price q.val) :=
    Relation.ReflTransGen.lift price le_rfl _ _ hreach
  rwa [hprice, hprice] at hlift

/-- What can follow 1 is 1 again. -/
theorem ones_of_chain {xs : List U64} (hp : p.val = 1) (h : List.IsChain Follows (p :: xs)) :
    ∀ x ∈ xs, x.val = 1 := by
  induction xs generalizing p with
  | nil => exact fun x hx => absurd hx List.not_mem_nil
  | cons y xs ih =>
      obtain ⟨hy, hxs⟩ := List.isChain_cons_cons.mp h
      have hy1 : y.val = 1 := (follows_one_iff hp).mp hy
      exact List.forall_mem_cons.mpr ⟨hy1, ih hy1 hxs⟩

/-- The prices at the end of a sequence that the check accepts. -/
theorem chain_iff (hp : 0 < p.val) (hq : 0 < q.val) :
    (∃ xs, List.IsChain Follows (p :: (xs ++ [q]))) ↔ p.val ≠ 1 ∨ q.val = 1 := by
  constructor
  · rintro ⟨xs, h⟩
    by_cases hp1 : p.val = 1
    · exact .inr (ones_of_chain hp1 h q (by simp))
    · exact .inl hp1
  · intro h
    by_cases hp1 : p.val = 1
    · have hq1 : q.val = 1 := h.resolve_left fun hne => hne hp1
      exact ⟨[], by simpa using (follows_one_iff hp1).mpr hq1⟩
    · have hreach : Relation.ReflTransGen Follows p q := reaches (by omega) hq
      obtain ⟨ys, hchain, hlast⟩ := List.exists_isChain_cons_of_relationReflTransGen hreach
      -- the last price once more, so that the sequence is not empty
      have htwice : List.IsChain Follows (p :: p :: ys) := .cons_cons (follows_self (by omega)) hchain
      refine ⟨(p :: ys).dropLast, ?_⟩
      rw [← hlast, List.dropLast_append_getLast]
      exact htwice

/-! ### Submissions -/

/-- The feeder `caller` may submit, no limit is configured, and `p` was accepted last. -/
structure Feed (env : Env) (caller : Address) (s : State) (p : U64) : Prop where
  running : (isPaused env s).1 = false
  feeder : requireRole env caller .priceFeeder s = .ok ()
  room : caller ∉ s.store.toBook.roster → s.store.toBook.roster.length < maxSubmitters
  admits : s.store.toBook.Admits env.timestamp
  unlimited : s.store.Unlimited
  priced : s.store.price.map PriceData.price = some p

theorem Feed.checks (h : Feed env caller s p) (hp : 0 < p.val) :
    checkPrice env.timestamp caller x (isPaused env s).2 = .ok () ↔ Follows p x := by
  obtain ⟨last, hlast, rfl⟩ := Option.map_eq_some_iff.mp h.priced
  exact checkPrice_eq_ok (s := (isPaused env s).2) h.unlimited hlast hp

/-- What a submission leaves. -/
def afterSubmission (env : Env) (caller : Address) (price : U64) (s : State) : State :=
  ((isPaused env s).2.withBook (s.store.toBook.submit env.timestamp caller price)).publish
    (.priceSubmitted caller price env.timestamp)

theorem Feed.submit_iff (h : Feed env caller s p) (hp : 0 < p.val) :
    submitPrice env caller x s = .ok s' ↔ Follows p x ∧ s' = afterSubmission env caller x s := by
  have hpause : requireNotPaused env s = .ok (isPaused env s).2 := by
    show (reject ((isPaused env s).1 = true) _ >>= _) = _
    rw [bind_of_ok (reject_eq_ok (u := ()).mpr (by simp [h.running]))]
    rfl
  have hrole : requireRole env caller .priceFeeder (isPaused env s).2 = .ok () := h.feeder
  have hwrite {b' : Book} : writePrice env.timestamp caller x (isPaused env s).2.store.toBook = .ok b' ↔
      b' = s.store.toBook.submit env.timestamp caller x :=
    writePrice_eq_ok.trans ⟨fun hw => hw.2.2, fun hw => ⟨h.room, h.admits, hw⟩⟩
  unfold submitPrice
  rw [bind_of_ok hpause, bind_of_ok hrole]
  simp only [bind_eq_ok, pure_eq_ok, hwrite]
  rw [← h.checks hp]
  constructor
  · rintro ⟨u, hcheck, b', rfl, rfl⟩
    exact ⟨hcheck, rfl⟩
  · rintro ⟨hcheck, rfl⟩
    exact ⟨(), hcheck, _, rfl, rfl⟩

/-- The feeder can go on from there. -/
theorem Feed.next (h : Feed env caller s p) : Feed env caller (afterSubmission env caller x s) x where
  running := by
    have hidem := Pause.isPaused_idem h.running
    exact congrArg Prod.fst hidem
  feeder := h.feeder
  room := by
    intro hno
    refine absurd ?_ hno
    show caller ∈ ((s.store.toBook.post env.timestamp caller x).enroll caller).roster
    rw [posted_roster]
    split
    · assumption
    · exact List.mem_append_right _ (List.mem_singleton_self caller)
  admits := admits_record.mpr (le_refl env.timestamp.val)
  unlimited := by
    have hconfig : (afterSubmission env caller x s).store.config = s.store.config :=
      (enroll_rest (s.store.toBook.post env.timestamp caller x) caller).2.1
    unfold Storage.Unlimited
    rw [hconfig]
    exact h.unlimited
  priced := by
    have hprice : ((s.store.toBook.post env.timestamp caller x).enroll caller).price =
        some ⟨x, env.timestamp⟩ := by
      unfold Book.enroll
      split <;> rfl
    exact congrArg (Option.map PriceData.price) hprice

/-- The prices, submitted one after the other. -/
def submitAll (env : Env) (caller : Address) (s : State) (prices : List U64) : Result State :=
  prices.foldlM (fun s price => submitPrice env caller price s) s

/-- A feeder can submit the sequences that the check accepts, and no others. -/
theorem Feed.submitAll_iff {prices : List U64} (h : Feed env caller s p) (hp : 0 < p.val) :
    (∃ s', submitAll env caller s prices = .ok s') ↔ List.IsChain Follows (p :: prices) := by
  induction prices generalizing p s with
  | nil => exact iff_of_true ⟨s, rfl⟩ (.singleton p)
  | cons x prices ih =>
      rw [List.isChain_cons_cons]
      unfold submitAll at ih ⊢
      simp only [List.foldlM_cons, bind_eq_ok, h.submit_iff hp]
      constructor
      · rintro ⟨s', s₁, ⟨hx, rfl⟩, hall⟩
        exact ⟨hx, (ih h.next hx.pos).mp ⟨s', hall⟩⟩
      · rintro ⟨hx, hchain⟩
        obtain ⟨s', hall⟩ := (ih h.next hx.pos).mpr hchain
        exact ⟨s', _, ⟨hx, rfl⟩, hall⟩

/-- **What the breaker lets through.**  Where no other limit is configured, every price but zero can be
reached from a last price of 2 or more, by prices that the check accepts one after the other; from 1
only 1.  A feeder who may submit can submit them all. -/
theorem reachable_prices (now : U64) (hfree : s.store.Unlimited) (hp : 0 < p.val) (hq : 0 < q.val) :
    ((∃ xs, List.IsChain (Accepts now caller s) (p :: (xs ++ [q]))) ↔ p.val ≠ 1 ∨ q.val = 1) ∧
    (Feed env caller s p →
      ((∃ xs s', submitAll env caller s (xs ++ [q]) = .ok s') ↔ p.val ≠ 1 ∨ q.val = 1)) := by
  rw [← chain_iff hp hq]
  constructor
  · exact exists_congr fun xs => isChain_accepts_iff hfree hp
  · intro h
    exact exists_congr fun xs => h.submitAll_iff hp

/-- One feeder, no limits, and one price. -/
def Sample.quoting (price : U64) : List (U64 × Entry) := [
  (.lit 100, .configureOracle (.account 1) ⟨.lit 8, .lit 1, .lit 300, .lit 0, .lit 0, .lit 1⟩),
  (.lit 100, .administer (.grantRole (.account 1) .priceFeeder (.account 2))),
  (.lit 110, .submitPrice (.account 2) price)]

theorem reachable_prices_quoted :
    let s := (Sample.visited Sample.silent (Sample.quoting (.lit 100))).state
    ∃ xs s', submitAll (Sample.envAt (.lit 130)) (.account 2) s (xs ++ [.lit 5000]) = .ok s' := by
  intro s
  have hfree : s.store.Unlimited := by decide
  have hadmits : s.store.toBook.Admits (.lit 130) := by
    intro latest hlast
    have hlast : some (⟨.lit 100, .lit 110⟩ : PriceObservation) = some latest := hlast
    cases hlast
    decide
  have hfeed : Feed (Sample.envAt (.lit 130)) (.account 2) s (.lit 100) :=
    ⟨rfl, rfl, by decide, hadmits, hfree, rfl⟩
  have hq : 0 < (.lit 5000 : U64).val := by decide
  exact ((reachable_prices (.lit 130) hfree (by decide) hq).2 hfeed).mpr (.inl (by decide))

/-- After 1 the feed takes no other price. -/
theorem stuck_at_one :
    let m := Sample.visited Sample.silent (Sample.quoting (.lit 1))
    Run (Visits Sample.address) Moment.fresh (Moment.fresh.tour (Sample.invocations Sample.silent
      (Sample.quoting (.lit 1)))).1 m ∧ m.state.store.Unlimited ∧
    m.state.store.price = some ⟨.lit 1, .lit 110⟩ ∧
    ¬ ∃ xs, List.IsChain (Accepts (.lit 130) (.account 2) m.state) (.lit 1 :: (xs ++ [.lit 2])) := by
  intro m
  have hfree : m.state.store.Unlimited := by decide
  refine ⟨Sample.run_visited _ _ (by decide), hfree, rfl, ?_⟩
  rintro ⟨xs, h⟩
  have hones := ones_of_chain rfl ((isChain_accepts_iff hfree (by decide)).mp h) (.lit 2) (by simp)
  exact absurd hones (by decide)

end Drip.Oracle
