import Drip.Oracle.Reporters

/-!
# Oracle — Inverted

The price of a pair from the reports on the reverse pair.  The reciprocal is rounded down: it is zero
where the reverse price is above the square of the precision.

* `reciprocal_eq`: the reciprocal of a price that is not zero.
* `Pairs.Priced`: no price is zero, which every run keeps (`priced_of_run`).
* `usable_of_run`: where an inverted price can be used.
-/

namespace Drip.Oracle
open Chain

variable {here : Address} {env : Env} {m : Moment} {vs : List Visit} {p : U128}
variable {direct reverse : Result U128} {roles : Rbac.Records Role}

/-! ### The reciprocal -/

/-- The reciprocal: its product with the price is the square of the precision, up to one price. -/
theorem reciprocal_eq (hp : p.val ≠ 0) : ∃ r, Pairs.reciprocal p = .ok r ∧
    r.val * p.val ≤ 10000000000000000 ∧ 10000000000000000 < (r.val + 1) * p.val := by
  have hpos : 0 < p.val := lt_of_le_of_ne p.ge hp.symm
  have hsq : pricePrecision.checkedMul pricePrecision = some (.lit 10000000000000000) := by decide
  have hdiv : U128.checkedDiv (.lit 10000000000000000) p = some (U128.div (.lit 10000000000000000) p) :=
    if_neg hp
  refine ⟨U128.div (.lit 10000000000000000) p, ?_, ?_, ?_⟩
  · unfold Pairs.reciprocal
    rw [bind_of_ok (reject_eq_ok (u := ()).mpr hp), hsq]
    show okOr (U128.checkedDiv (.lit 10000000000000000) p) _ = _
    rw [hdiv]
    rfl
  · exact Int.ediv_mul_le _ hp
  · exact Int.lt_ediv_add_one_mul_self _ hpos

/-- The pair itself has no price. -/
def Unpriced (direct : Result U128) : Prop :=
  direct = .error (err .priceNotFound) ∨ direct = .error (err .oracleStalePrice)

/-- The answer is not zero, and an answer from the reverse price is its reciprocal rounded down. -/
structure Usable (answer direct reverse : Result U128) : Prop where
  positive : answer ≠ .ok (.lit 0)
  exact : ∀ p r, Unpriced direct → reverse = .ok p → answer = .ok r →
    r.val * p.val ≤ 10000000000000000 ∧ 10000000000000000 < (r.val + 1) * p.val

/-- It is the reverse price that is asked for, and it is above the square of the precision. -/
def TooHigh (direct reverse : Result U128) : Prop :=
  Unpriced direct ∧ ∃ p, reverse = .ok p ∧ 10000000000000000 < p.val

theorem inverted_of_unpriced (h : Unpriced direct) (hreverse : reverse = .ok p) :
    Pairs.inverted direct reverse = Pairs.reciprocal p := by
  rw [hreverse]
  rcases h with rfl | rfl <;> rfl

/-- Where an answer comes from. -/
theorem inverted_cases {price : U128} (h : Pairs.inverted direct reverse = .ok price) :
    direct = .ok price ∨
      Unpriced direct ∧ ∃ p, reverse = .ok p ∧ Pairs.reciprocal p = .ok price := by
  unfold Pairs.inverted at h
  split at h
  · exact .inl h
  · split at h
    · rename_i e hun
      refine .inr ⟨hun.imp (congrArg _) (congrArg _), ?_⟩
      split at h
      · exact ⟨_, rfl, h⟩
      · cases h
      · cases h
    · cases h

theorem usable_iff (hdirect : direct ≠ .ok (.lit 0)) (hreverse : reverse ≠ .ok (.lit 0)) :
    Usable (Pairs.inverted direct reverse) direct reverse ↔ ¬ TooHigh direct reverse := by
  have hnonzero {p : U128} (h : reverse = .ok p) : p.val ≠ 0 :=
    fun hzero => hreverse (h.trans (congrArg _ (Ranged.ext hzero)))
  constructor
  · rintro h ⟨hun, p, hp, hhigh⟩
    obtain ⟨r, hr, hle, -⟩ := reciprocal_eq (hnonzero hp)
    -- a reciprocal of one or more would make the product too large
    have hzero : r.val = 0 := by
      by_contra hne
      have hone : 1 ≤ r.val := by have := r.ge; omega
      have hmul : 1 * p.val ≤ r.val * p.val := Int.mul_le_mul_of_nonneg_right hone p.ge
      omega
    refine h.positive ?_
    rw [inverted_of_unpriced hun hp, hr]
    exact congrArg _ (Ranged.ext hzero)
  · intro h
    constructor
    · intro hanswer
      rcases inverted_cases hanswer with hok | ⟨hun, p, hp, hreciprocal⟩
      · exact hdirect hok
      · obtain ⟨r, hr, -, hlt⟩ := reciprocal_eq (hnonzero hp)
        obtain rfl : r = .lit 0 := Except.ok.inj (hr.symm.trans hreciprocal)
        exact h ⟨hun, p, hp, by simpa using hlt⟩
    · intro p r hun hp hanswer
      obtain ⟨r', hr', hbounds⟩ := reciprocal_eq (hnonzero hp)
      rw [inverted_of_unpriced hun hp, hr'] at hanswer
      cases hanswer
      exact hbounds

/-! ### Prices that are not zero -/

section

variable {K : Type} {ps qs : Pairs K} {base quote : K} {window : U64}

/-- No price is zero. -/
structure Pairs.Priced (ps : Pairs K) : Prop where
  pairPrice : ∀ base quote price, ps.pairPrice base quote = some price → price.val ≠ 0
  pairSubmission : ∀ base quote account data,
    ps.pairSubmission base quote account = some data → data.price.val ≠ 0

theorem Pairs.Priced.freshReport {now : U64} {account : Address} {price : U128} (hps : ps.Priced)
    (h : ps.freshReport now window base quote account = some price) : price.val ≠ 0 := by
  unfold Pairs.freshReport at h
  split at h
  · rename_i data hdata
    split at h
    · cases h
      exact hps.pairSubmission base quote account data hdata
    · cases h
  · cases h

theorem Pairs.Priced.aggregate (hps : ps.Priced) :
    ps.aggregate env roles window base quote ≠ .ok (.lit 0) := by
  intro h
  unfold Pairs.aggregate at h
  split at h
  · exact hps.pairPrice base quote _ (okOr_eq_ok.mp h) rfl
  · simp only [bind_eq_ok] at h
    obtain ⟨active, -, h⟩ := h
    split at h
    · cases h
    · refine medianU128_ne_zero (okOr_eq_ok.mp h) ?_ rfl
      rw [Pairs.freshReports_eq]
      intro price hprice
      obtain ⟨account, -, hfresh⟩ := List.mem_filterMap.mp hprice
      exact hps.freshReport hfresh

variable [DecidableEq K]

theorem Pairs.Priced.report {caller : Address} {price : U128} (hps : ps.Priced) (hprice : price.val ≠ 0)
    (h : ps.report env roles caller base quote price = .ok qs) : qs.Priced := by
  unfold Pairs.report Pairs.addReporter at h
  simp only [bind_eq_ok, reject_eq_ok, pure_eq_ok] at h
  obtain ⟨_, ⟨active, -, -, -, rfl⟩, rfl⟩ := h
  constructor
  · intro base' quote' price' h
    dsimp only at h
    rw [Pairs.put_apply] at h
    split at h
    · cases h
      exact hprice
    · exact hps.pairPrice base' quote' price' h
  · intro base' quote' account data h
    dsimp only at h
    rw [Pairs.put_apply] at h
    split at h
    · by_cases haccount : account = caller
      · rw [haccount, Function.update_self] at h
        cases h
        exact hprice
      · rw [Function.update_of_ne haccount] at h
        exact hps.pairSubmission base quote account data h
    · exact hps.pairSubmission base' quote' account data h

end

theorem priced_of_run (h : Run (Visits here) Moment.fresh vs m) :
    m.state.store.pairs.Priced ∧ m.state.store.symbolPairs.Priced := by
  refine h.invariant (P := fun m => m.state.store.pairs.Priced ∧ m.state.store.symbolPairs.Priced)
    ?_ ⟨⟨nofun, nofun⟩, ⟨nofun, nofun⟩⟩
  rintro m v m' - hv ⟨hpairs, hsymbolPairs⟩
  constructor
  · rcases hv.pairs_cases with ⟨heq, -⟩ | ⟨_, _, _, _, _, _, -, -, hprice, hreport⟩
    · exact heq ▸ hpairs
    · exact hpairs.report hprice hreport
  · rcases hv.symbolPairs_cases with heq | ⟨_, _, _, _, _, _, hprice, hreport⟩
    · exact heq ▸ hsymbolPairs
    · exact hsymbolPairs.report hprice hreport

/-- **Inverted prices.**  In every state, for every pair of either kind: the answer can be used exactly
if the pair has a price itself, or the price of the reverse pair is not above the square of the
precision. -/
theorem usable_of_run (h : Run (Visits here) Moment.fresh vs m) (env : Env) :
    (∀ base quote : Address,
      Usable (getPriceInverted env base quote m.state) (getPrice env base quote m.state)
        (getPrice env quote base m.state) ↔
      ¬ TooHigh (getPrice env base quote m.state) (getPrice env quote base m.state)) ∧
    ∀ base quote : Symbol,
      Usable (getPriceInvertedSymbol env base quote m.state) (getPriceSymbol env base quote m.state)
        (getPriceSymbol env quote base m.state) ↔
      ¬ TooHigh (getPriceSymbol env base quote m.state) (getPriceSymbol env quote base m.state) := by
  obtain ⟨hpairs, hsymbolPairs⟩ := priced_of_run h
  exact ⟨fun _ _ => usable_iff hpairs.aggregate hpairs.aggregate,
    fun _ _ => usable_iff hsymbolPairs.aggregate hsymbolPairs.aggregate⟩

/-- A price is reported on the reverse pair only. -/
def Sample.reversed (price : U128) : List (U64 × Entry) := [
  (.lit 100, .administer (.grantRole (.account 1) .priceFeeder (.account 2))),
  (.lit 110, .setPrice (.account 2) (.contract 12) (.contract 11) price)]

theorem usable_of_run_reversed :
    let s := (Sample.visited Sample.silent (Sample.reversed (.lit 20000000))).state
    let env := Sample.envAt (.lit 120)
    getPriceInverted env (.contract 11) (.contract 12) s = .ok (.lit 500000000) ∧
    Usable (getPriceInverted env (.contract 11) (.contract 12) s)
      (getPrice env (.contract 11) (.contract 12) s) (getPrice env (.contract 12) (.contract 11) s) := by
  intro s env
  have hrun := Sample.run_visited Sample.silent (Sample.reversed (.lit 20000000)) (by decide)
  have hreverse : getPrice env (.contract 12) (.contract 11) s = .ok (.lit 20000000) := by decide
  refine ⟨by decide, ((usable_of_run hrun env).1 _ _).mpr ?_⟩
  rintro ⟨-, p, hp, hhigh⟩
  cases hreverse.symm.trans hp
  exact absurd hhigh (by decide)

/-- The reverse price is one above the square of the precision. -/
theorem inverted_to_zero :
    let m := Sample.visited Sample.silent (Sample.reversed (.lit 10000000000000001))
    let env := Sample.envAt (.lit 120)
    Run (Visits Sample.address) Moment.fresh (Moment.fresh.tour (Sample.invocations Sample.silent
      (Sample.reversed (.lit 10000000000000001)))).1 m ∧
    getPrice env (.contract 12) (.contract 11) m.state = .ok (.lit 10000000000000001) ∧
    getPriceInverted env (.contract 11) (.contract 12) m.state = .ok (.lit 0) := by
  intro m env
  exact ⟨Sample.run_visited _ _ (by decide), by decide, by decide⟩

end Drip.Oracle
