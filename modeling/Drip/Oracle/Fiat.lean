import Drip.Oracle.Status

/-!
# Oracle — Fiat

What `calculate_fiat_stream_payout` answers, in terms of the price that `get_twap_price` answers with.

`fiat_of_run`: in every state it is the amount times the price, rounded down to the decimals of the
configuration; it overflows exactly where that exceeds a `u64`, and the number of decimals is never refused.
-/

namespace Drip.Oracle
open Chain

variable {here : Address} {m : Moment} {vs : List Visit} {feeds : Feeds} {env : Env} {s s' : State}
variable {b b' : Book} {price tokenAmount : U64} {config : OracleConfig}

/-- The value of an amount at a price. -/
def OracleConfig.valueOf (config : OracleConfig) (tokenAmount price : U64) : Int :=
  tokenAmount.val * price.val / 10 ^ config.decimals.val.toNat

/-- As a `u64`. -/
def OracleConfig.payout (config : OracleConfig) (tokenAmount price : U64) : Result U64 :=
  okOr (Ranged.ofInt? (config.valueOf tokenAmount price)) (err .arithmeticOverflow)

/-- The number of decimals is one that a `u128` has a power of ten for. -/
theorem OracleConfig.Sane.precision (h : config.Sane) :
    ∃ p : U128, Ranged.ofInt? (10 ^ config.decimals.val.toNat) = some p ∧
      p.val = 10 ^ config.decimals.val.toNat ∧ p.val ≠ 0 := by
  have hle : (10 : Int) ^ config.decimals.val.toNat ≤ 10 ^ 19 := by
    have hdecimals := h.decimals_le
    exact pow_le_pow_right₀ (by norm_num) (by omega)
  have hpos : (0 : Int) < 10 ^ config.decimals.val.toNat := pow_pos (by norm_num) _
  have hbound : (10 : Int) ^ 19 ≤ 340282366920938463463374607431768211455 := by norm_num
  exact ⟨_, Ranged.ofInt?_of_mem hpos.le (hle.trans hbound), rfl, hpos.ne'⟩

/-- The product of two `u64` fits a `u128`. -/
theorem checkedMul_widen (x y : U64) :
    ∃ p : U128, Ranged.checkedMul (x.widen : U128) y.widen = some p ∧ p.val = x.val * y.val := by
  have hle : x.val * y.val ≤ 18446744073709551615 * 18446744073709551615 :=
    mul_le_mul x.le y.le y.ge (by norm_num)
  have hbound : x.val * y.val ≤ 340282366920938463463374607431768211455 := hle.trans (by norm_num)
  exact ⟨_, Ranged.ofInt?_of_mem (mul_nonneg x.ge y.ge) hbound, rfl⟩

theorem valueOf_nonneg : 0 ≤ config.valueOf tokenAmount price :=
  Int.ediv_nonneg (mul_nonneg tokenAmount.ge price.ge) (by positivity)

theorem payout_of_le (h : config.valueOf tokenAmount price ≤ u64Max) :
    config.payout tokenAmount price = .ok ⟨config.valueOf tokenAmount price, valueOf_nonneg, h⟩ :=
  okOr_eq_ok.mpr (Ranged.ofInt?_of_mem valueOf_nonneg h)

theorem payout_of_lt (h : u64Max < config.valueOf tokenAmount price) :
    config.payout tokenAmount price = .error (err .arithmeticOverflow) := by
  have hnone : (Ranged.ofInt? (config.valueOf tokenAmount price) : Option U64) = none :=
    Ranged.ofInt?_eq_none.mpr (.inr h)
  unfold OracleConfig.payout
  rw [hnone]
  rfl

/-- The arithmetic after the price is read. -/
theorem payout_inner (hconfig : b'.config = some config) (hsane : config.Sane)
    (h : getTwapPriceInner feeds env maxTwapObservations b = .ok (price, b')) :
    calculateFiatStreamPayoutInner feeds env tokenAmount b =
      (fun value => (value, b')) <$> config.payout tokenAmount price := by
  obtain ⟨precision, hprecision, hval, hne⟩ := hsane.precision
  obtain ⟨product, hproduct, hmul⟩ := checkedMul_widen tokenAmount price
  have hdiv : U128.checkedDiv product precision = some (U128.div product precision) := if_neg hne
  have hquotient : (U128.div product precision).val = config.valueOf tokenAmount price := by
    unfold OracleConfig.valueOf
    rw [← hmul, ← hval]
    rfl
  unfold calculateFiatStreamPayoutInner
  rw [h, bind_of_ok rfl]
  dsimp only
  rw [hconfig, bind_of_ok (x := okOr (some config) _) rfl, hprecision,
    bind_of_ok (x := okOr (some precision) _) rfl, hproduct,
    bind_of_ok (x := okOr (some product) _) rfl, hdiv, bind_of_ok (x := okOr (some _) _) rfl, hquotient]
  rfl

/-- An amount in fiat, as the contract answers. -/
theorem payout_of_price (tokenAmount : U64) (hs : Sound s)
    (h : getTwapPrice feeds env s = .ok (price, s')) :
    ∃ config, s.store.config = some config ∧
      calculateFiatStreamPayout feeds env tokenAmount s =
        (fun value => (value, s')) <$> config.payout tokenAmount price := by
  unfold getTwapPrice at h
  rw [withGuard_onBook hs.lock] at h
  cases hread : getTwapPriceInner feeds env maxTwapObservations s.store.toBook with
  | error e =>
      rw [hread] at h
      cases h
  | ok x =>
      obtain ⟨price', b⟩ := x
      rw [hread] at h
      cases h
      obtain ⟨config, hconfig, -, -⟩ := getTwapPriceInner_eq_ok.mp hread
      obtain ⟨rfl, -⟩ := getTwapPriceInner_book hread
      have hafter : (s.store.toBook.read feeds env).config = some config := by
        rw [read_rest.2.2.1]
        exact hconfig
      refine ⟨config, hconfig, ?_⟩
      unfold calculateFiatStreamPayout
      rw [withGuard_onBook hs.lock, payout_inner hafter (hs.book.config config hconfig) hread]
      cases config.payout tokenAmount price' with
      | error e => rfl
      | ok value => rfl

theorem payout_of_error {e : Failure Error} (hs : Sound s) (h : getTwapPrice feeds env s = .error e) :
    calculateFiatStreamPayout feeds env tokenAmount s = .error e := by
  unfold getTwapPrice at h
  rw [withGuard_onBook hs.lock] at h
  unfold calculateFiatStreamPayout
  rw [withGuard_onBook hs.lock]
  cases hread : getTwapPriceInner feeds env maxTwapObservations s.store.toBook with
  | error e' =>
      rw [hread] at h
      cases h
      unfold calculateFiatStreamPayoutInner
      rw [hread]
      rfl
  | ok x =>
      rw [hread] at h
      cases h

/-- Rounding down twice takes one unit more at most. -/
theorem valueOf_parts {x y total : U64} (htotal : total.val = x.val + y.val) :
    config.valueOf x price + config.valueOf y price ≤ config.valueOf total price ∧
    config.valueOf total price ≤ config.valueOf x price + config.valueOf y price + 1 := by
  have hpos : (0 : Int) < 10 ^ config.decimals.val.toNat := pow_pos (by norm_num) _
  unfold OracleConfig.valueOf
  rw [htotal, add_mul]
  generalize (10 : Int) ^ config.decimals.val.toNat = d at hpos
  generalize x.val * price.val = u
  generalize y.val * price.val = v
  have hu := Int.ediv_mul_le u hpos.ne'
  have hv := Int.ediv_mul_le v hpos.ne'
  have hu' := Int.lt_ediv_add_one_mul_self u hpos
  have hv' := Int.lt_ediv_add_one_mul_self v hpos
  constructor
  · refine (Int.le_ediv_iff_mul_le hpos).mpr ?_
    linarith
  · refine Int.lt_add_one_iff.mp ((Int.ediv_lt_iff_lt_mul hpos).mpr ?_)
    linarith

/-- An answer, at the price that is read. -/
theorem valueOf_of_payout {value : U64} (hs : Sound s) (h : getTwapPrice feeds env s = .ok (price, s'))
    (hconfig : s.store.config = some config) {s'' : State}
    (hvalue : calculateFiatStreamPayout feeds env tokenAmount s = .ok (value, s'')) :
    value.val = config.valueOf tokenAmount price := by
  obtain ⟨config', hconfig', hpayout⟩ := payout_of_price tokenAmount hs h
  obtain rfl := Option.some.inj (hconfig.symm.trans hconfig')
  rw [hpayout] at hvalue
  cases hpay : config.payout tokenAmount price with
  | error e =>
      rw [hpay] at hvalue
      cases hvalue
  | ok v =>
      rw [hpay] at hvalue
      cases hvalue
      exact (Ranged.ofInt?_eq_some.mp (okOr_eq_ok.mp hpay))

/-- **Amounts in fiat are exact.**  In every state: where the price cannot be read, neither can an amount, for
the same reason; at a price, the answer is the amount times the price divided by ten to the number of decimals,
rounded down, as long as that fits a `u64`, and `ArithmeticOverflow` exactly where it does not.  An amount in
two parts comes to one unit less at most. -/
theorem fiat_of_run (h : Run (Visits here) Moment.fresh vs m) (feeds : Feeds) (env : Env)
    (tokenAmount : U64) :
    (∀ e, getTwapPrice feeds env m.state = .error e →
      calculateFiatStreamPayout feeds env tokenAmount m.state = .error e) ∧
    ∀ price s', getTwapPrice feeds env m.state = .ok (price, s') →
      ∃ config, m.state.store.config = some config ∧
        (config.valueOf tokenAmount price ≤ u64Max → ∃ value : U64,
          value.val = config.valueOf tokenAmount price ∧
          calculateFiatStreamPayout feeds env tokenAmount m.state = .ok (value, s')) ∧
        (u64Max < config.valueOf tokenAmount price →
          calculateFiatStreamPayout feeds env tokenAmount m.state = .error (err .arithmeticOverflow)) ∧
        ∀ x y vx vy value s₁ s₂ s₃, tokenAmount.val = x.val + y.val →
          calculateFiatStreamPayout feeds env x m.state = .ok (vx, s₁) →
          calculateFiatStreamPayout feeds env y m.state = .ok (vy, s₂) →
          calculateFiatStreamPayout feeds env tokenAmount m.state = .ok (value, s₃) →
          vx.val + vy.val ≤ value.val ∧ value.val ≤ vx.val + vy.val + 1 := by
  have hs := sound_of_run h
  refine ⟨fun e herror => payout_of_error hs herror, fun price s' hprice => ?_⟩
  obtain ⟨config, hconfig, hpayout⟩ := payout_of_price tokenAmount hs hprice
  refine ⟨config, hconfig, fun hle => ⟨⟨_, valueOf_nonneg, hle⟩, rfl, ?_⟩, fun hlt => ?_, ?_⟩
  · rw [hpayout, payout_of_le hle]
    rfl
  · rw [hpayout, payout_of_lt hlt]
    rfl
  · intro x y vx vy value s₁ s₂ s₃ htotal hx hy hvalue
    rw [valueOf_of_payout hs hprice hconfig hx, valueOf_of_payout hs hprice hconfig hy,
      valueOf_of_payout hs hprice hconfig hvalue]
    exact valueOf_parts htotal

namespace Sample

/-- Prices with two decimals, and one price. -/
def cents : OracleConfig := ⟨.lit 2, .lit 1, .lit 300, .lit 0, .lit 0, .lit 1⟩

def pricing : List (U64 × Entry) := [
  (.lit 100, .administer (.grantRole admin .priceFeeder (.account 2))),
  (.lit 100, .configureOracle admin cents),
  (.lit 110, .submitPrice (.account 2) (.lit 250))]

end Sample

/-- 1001 units at 2.50 are 2502, and a half is lost. -/
theorem fiat_of_run_cents : ∃ s', calculateFiatStreamPayout Sample.silent (Sample.envAt (.lit 130))
    (.lit 1001) (Sample.visited Sample.silent Sample.pricing).state = .ok (.lit 2502, s') := by
  have hread : (getTwapPrice Sample.silent (Sample.envAt (.lit 130))
      (Sample.visited Sample.silent Sample.pricing).state).map Prod.fst = .ok (.lit 250) := by
    decide +kernel
  have hconfigured : (Sample.visited Sample.silent Sample.pricing).state.store.config = some Sample.cents := by
    decide +kernel
  obtain ⟨x, hx, hprice⟩ := map_eq_ok.mp hread
  obtain ⟨price, s'⟩ := x
  obtain rfl : price = .lit 250 := hprice
  obtain ⟨-, hprices⟩ := fiat_of_run (Sample.run_visited Sample.silent Sample.pricing (by decide))
    Sample.silent (Sample.envAt (.lit 130)) (.lit 1001)
  obtain ⟨config, hconfig, hexact, -⟩ := hprices (.lit 250) s' hx
  obtain rfl := Option.some.inj (hconfig.symm.trans hconfigured)
  obtain ⟨value, hvalue, hpaid⟩ := hexact (by decide)
  obtain rfl : value = .lit 2502 := Ranged.ext (hvalue.trans (by decide))
  exact ⟨s', hpaid⟩

end Drip.Oracle
