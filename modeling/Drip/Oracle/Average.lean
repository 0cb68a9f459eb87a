import Drip.Support.Weighted
import Drip.Oracle.Status

/-!
# Oracle — Average

What `calculate_twap` computes: the mean of the prices of the window, each weighted by the time for
which it stood, rounded down.

* `duration_eq`: the saturating differences are the lengths of the intervals.
* `weigh_eq`: the loop adds up weighted prices and weights.
* `average_of_run`: the answer in every state, at every time.
-/

namespace Drip.Oracle
open Chain

variable {here : Address} {b : Book} {m : Moment} {vs : List Visit}
variable {now maxStaleness : U64} {count : U32} {obs : List PriceObservation}

/-- When an observation ceases to stand: at the next one, now, or its age limit. -/
def standsUntil (now maxStaleness : U64) (o : PriceObservation) (rest : List PriceObservation) : Int :=
  min (min ((rest.head?.map PriceObservation.at).getD now.val) now.val) (o.at + maxStaleness.val)

/-- The prices with the lengths of the times for which they stand. -/
def shares (now maxStaleness : U64) : List PriceObservation → List (Int × Int)
  | [] => []
  | o :: rest =>
      (o.price.val, max 0 (standsUntil now maxStaleness o rest - o.at)) :: shares now maxStaleness rest

theorem shares_proper : Weighted.Proper (shares now maxStaleness obs) := by
  induction obs with
  | nil => exact fun _ h => absurd h List.not_mem_nil
  | cons o rest ih =>
      intro x hx
      rcases List.mem_cons.mp hx with rfl | hx
      · exact le_max_left _ _
      · exact ih x hx

/-! ### The loop -/

/-- The sum with the age limit saturates past `now`, where it makes no difference. -/
theorem duration_eq (now maxStaleness : U64) (o : PriceObservation) (rest : List PriceObservation) :
    (duration now maxStaleness o rest).val = max 0 (standsUntil now maxStaleness o rest - o.at) := by
  have hlimit : (o.timestamp.saturatingAdd maxStaleness).val =
      max 0 (min (o.timestamp.val + maxStaleness.val) 18446744073709551615) := rfl
  have hts := o.timestamp.ge
  have hms := maxStaleness.ge
  have hnow := now.le
  unfold duration standsUntil PriceObservation.at
  dsimp only
  rw [val_saturatingSub, Ranged.val_min, Ranged.val_min, hlimit]
  cases rest.head? with
  | none =>
      dsimp only [Option.map_none, Option.getD_none]
      omega
  | some next =>
      dsimp only [Option.map_some, Option.getD_some]
      omega

theorem weigh_eq {w w' : U128} {t t' : U64} (h : weigh now maxStaleness obs w t = .ok (w', t')) :
    w'.val = w.val + Weighted.sum (shares now maxStaleness obs) ∧
    t'.val = t.val + Weighted.weight (shares now maxStaleness obs) := by
  induction obs generalizing w t with
  | nil =>
      cases h
      simp [shares]
  | cons o rest ih =>
      simp only [weigh, bind_eq_ok, okOr_eq_ok, Ranged.checkedMul_eq_some, Ranged.checkedAdd_eq_some,
        Ranged.val_widen] at h
      obtain ⟨product, hproduct, w₁, hw₁, t₁, ht₁, h⟩ := h
      obtain ⟨hw', ht'⟩ := ih h
      rw [shares, Weighted.sum_cons, Weighted.weight_cons, ← duration_eq]
      constructor
      · rw [hw', hw₁, hproduct, add_assoc]
      · rw [ht', ht₁, add_assoc]

/-- Where the observations come in order, the call fails for want of time alone. -/
theorem calculateTwap_eq (hb : b.Sound) (now : U64) (count : U32) (maxStaleness : U64) :
    (¬ 0 < Weighted.weight (shares now maxStaleness (b.window count)) ∧
      calculateTwap now count maxStaleness b = .error (err .noPriceAvailable)) ∨
    (0 < Weighted.weight (shares now maxStaleness (b.window count)) ∧
      ∃ price, calculateTwap now count maxStaleness b = .ok price ∧
        price.val = ⌊Weighted.mean (shares now maxStaleness (b.window count))⌋) := by
  obtain ⟨w, t, hweigh, hcases⟩ := calculateTwap_spec now count maxStaleness hb
  obtain ⟨hw, ht⟩ := weigh_eq hweigh
  have hw : w.val = Weighted.sum (shares now maxStaleness (b.window count)) := hw.trans (zero_add _)
  have ht : t.val = Weighted.weight (shares now maxStaleness (b.window count)) := ht.trans (zero_add _)
  rw [hw, ht, ← Weighted.floor_mean shares_proper] at hcases
  exact hcases.imp_left fun h => ⟨h.1.not_gt, h.2⟩

/-- **The time-weighted average.**  In every state, at every time: the call never overflows; it finds no
price exactly if no observation of the window stood for any time; else it answers with the exact mean
rounded down, which lies within any bounds on the prices that stood. -/
theorem average_of_run (h : Run (Visits here) Moment.fresh vs m) (now : U64) (count : U32)
    (maxStaleness : U64) :
    let b := m.state.store.toBook
    let xs := shares now maxStaleness (b.window count)
    calculateTwap now count maxStaleness b ≠ .error (err .arithmeticOverflow) ∧
    (calculateTwap now count maxStaleness b = .error (err .noPriceAvailable) ↔ ¬ ∃ x ∈ xs, 0 < x.2) ∧
    ((∃ x ∈ xs, 0 < x.2) → ∃ price, calculateTwap now count maxStaleness b = .ok price ∧
      price.val = ⌊Weighted.mean xs⌋ ∧
      ∀ lo hi, (∀ x ∈ xs, 0 < x.2 → lo ≤ x.1 ∧ x.1 ≤ hi) → lo ≤ price.val ∧ price.val ≤ hi) := by
  intro b xs
  have hproper : Weighted.Proper xs := shares_proper
  have hpos := Weighted.weight_pos_iff hproper
  have hb : b.Sound := (sound_of_run h).book
  obtain ⟨hnone, herror⟩ | ⟨hsome, price, hok, hprice⟩ := calculateTwap_eq hb now count maxStaleness
  · rw [herror]
    exact ⟨by simp, iff_of_true rfl fun hx => hnone (hpos.mpr hx), fun hx => absurd (hpos.mpr hx) hnone⟩
  · rw [hok]
    refine ⟨nofun, iff_of_false nofun fun hx => hx (hpos.mp hsome), fun _ => ⟨price, rfl, hprice, ?_⟩⟩
    intro lo hi hbounds
    rw [hprice]
    exact Weighted.floor_mean_mem hproper hsome (fun x hx hx' => (hbounds x hx hx').1)
      fun x hx hx' => (hbounds x hx hx').2

/-- 100 stood for ninety seconds and 110, the median of the two submissions, for forty. -/
theorem average_of_run_quoted :
    let m := Sample.visited Sample.silent [
      (.lit 100, .administer (.grantRole (.account 1) .priceFeeder (.account 2))),
      (.lit 100, .administer (.grantRole (.account 1) .priceFeeder (.account 3))),
      (.lit 100, .configureOracle (.account 1) ⟨.lit 8, .lit 1, .lit 300, .lit 0, .lit 0, .lit 2⟩),
      (.lit 110, .submitPrice (.account 2) (.lit 100)),
      (.lit 200, .submitPrice (.account 3) (.lit 120))]
    ∃ price, calculateTwap (.lit 240) (.lit 32) (.lit 300) m.state.store.toBook = .ok price ∧
      price.val = 103 := by
  intro m
  have hrun : Run (Visits Sample.address) Moment.fresh _ m := Sample.run_visited _ _ (by decide)
  have hshares : shares (.lit 240) (.lit 300) (m.state.store.toBook.window (.lit 32)) =
      [(100, 90), (110, 40)] := by decide
  have haverage := (average_of_run hrun (.lit 240) (.lit 32) (.lit 300)).2.2
  rw [hshares] at haverage
  obtain ⟨price, hok, hprice, -⟩ := haverage ⟨(100, 90), by simp, by decide⟩
  refine ⟨price, hok, ?_⟩
  rw [hprice, Weighted.floor_mean (by simp [Weighted.Proper])]
  decide

end Drip.Oracle
