import Drip.Stream.Math
import Drip.Stream.Schedule

/-!
# Stream — Value

`streamed_amount` computes `Schedule.value`.  `scheduleOf info st` is the schedule stored in a
stream; `streamedAmount_eq` says that on a valid schedule the code returns its value when that fits
an `i128` and `ArithmeticOverflow` otherwise.
-/

namespace Drip.Stream
open Chain

/-- A value as the code returns it: itself, or `ArithmeticOverflow` outside `i128`. -/
def asI128 (v : Int) : Result I128 := okOr (Ranged.ofInt? v) (err .arithmeticOverflow)

@[simp]
theorem asI128_eq_ok {v : Int} {r : I128} : asI128 v = .ok r ↔ r.val = v := by
  rw [asI128, okOr_eq_ok, Ranged.ofInt?_eq_some]

theorem asI128_inj {v w : Int} (hv : 0 ≤ v) (hvm : v ≤ i128Max) (h : asI128 v = asI128 w) :
    v = w := by
  have hok : asI128 v = .ok ⟨v, le_trans (by decide) hv, hvm⟩ := asI128_eq_ok.mpr rfl
  rw [hok, eq_comm, asI128_eq_ok] at h
  exact h

/-- A value that is not negative overflows exactly past `i128::MAX`. -/
theorem asI128_eq_error {v : Int} (hv : 0 ≤ v) :
    asI128 v = .error (err .arithmeticOverflow) ↔ i128Max < v := by
  have hmax := i128Max_eq
  unfold asI128
  cases h : (Ranged.ofInt? v : Option I128) with
  | none =>
      rw [Ranged.ofInt?_eq_none] at h
      refine ⟨fun _ => by omega, fun _ => rfl⟩
  | some r =>
      rw [Ranged.ofInt?_eq_some] at h
      have := r.le
      exact ⟨nofun, fun _ => by omega⟩

/-- Two values that are not negative are returned alike when they are equal or both overflow. -/
theorem asI128_eq_iff {v w : Int} (hv : 0 ≤ v) (hw : 0 ≤ w) :
    asI128 v = asI128 w ↔ v = w ∨ (i128Max < v ∧ i128Max < w) := by
  constructor
  · intro h
    by_cases hvm : v ≤ i128Max
    · exact .inl (asI128_inj hv hvm h)
    · have hvm := not_le.mp hvm
      rw [(asI128_eq_error hv).mpr hvm] at h
      exact .inr ⟨hvm, (asI128_eq_error hw).mp h.symm⟩
  · rintro (rfl | ⟨hvm, hwm⟩)
    · rfl
    · rw [(asI128_eq_error hv).mpr hvm, (asI128_eq_error hw).mpr hwm]

/-! ### The arithmetic of the formula -/

/-- `mul_div` is exact: the `U256` product of an `i128` and a `u128` never overflows. -/
theorem mulDiv_eq {v : I128} {m d : U128} (hv : 0 ≤ v.val) (hd : 0 < d.val) :
    mulDiv v m d = asI128 (v.val * m.val / d.val) := by
  have hm := m.ge
  have hprod : v.val * m.val ≤
      170141183460469231731687303715884105727 * 340282366920938463463374607431768211455 :=
    mul_le_mul v.le m.le hm (by decide)
  have hpos : 0 ≤ v.val * m.val := mul_nonneg hv hm
  unfold mulDiv asI128
  rw [show reject (v.val < 0 ∨ d.val = 0) (err .arithmeticOverflow) = .ok () from
      reject_eq_ok.mpr (by omega), ok_bind,
    Ranged.ofInt?_of_mem hpos (by omega)]
  show (okOr (Ranged.ofInt? (v.val * m.val / d.val)) _ >>= _) = _
  have hq : 0 ≤ v.val * m.val / d.val := Int.ediv_nonneg hpos hd.le
  -- a quotient past `u128::MAX` is past `i128::MAX` too
  cases h : (Ranged.ofInt? (v.val * m.val / d.val) : Option U128) with
  | some r =>
      rw [Ranged.ofInt?_eq_some] at h
      rw [← h]; rfl
  | none =>
      rw [Ranged.ofInt?_eq_none] at h
      rw [show (Ranged.ofInt? (v.val * m.val / d.val) : Option I128) = none from
        Ranged.ofInt?_eq_none.mpr (by omega)]
      rfl

/-- A share in basis points, rounded down, is between nothing and the whole. -/
theorem exists_share {v : I128} {bps : U32} (hv : 0 ≤ v.val) (hle : bps.val ≤ 10000) :
    ∃ share : I128, mulDiv v bps.widen (.lit 10000) = .ok share ∧
      share.val = v.val * bps.val / 10000 ∧ 0 ≤ share.val ∧ share.val ≤ v.val := by
  have hmax := v.le
  have hq : 0 ≤ v.val * bps.val / 10000 := Int.ediv_nonneg (mul_nonneg hv bps.ge) (by decide)
  have hqle : v.val * bps.val / 10000 ≤ v.val :=
    Int.ediv_le_of_le_mul (by decide) (mul_le_mul_of_nonneg_left hle hv)
  refine ⟨⟨v.val * bps.val / 10000, le_trans (by decide) hq, hqle.trans hmax⟩, ?_, rfl, hq, hqle⟩
  rw [mulDiv_eq hv (by decide), asI128_eq_ok]
  rfl

theorem accrueSince_eq {rate base : I128} {x since : U64} (hr : 0 ≤ rate.val) (hb : 0 ≤ base.val) :
    accrueSince rate x since base =
      asI128 (if x.val < since.val then 0 else base.val + rate.val * (x.val - since.val)) := by
  unfold accrueSince
  simp only [Ranged.lt_def]
  split
  · exact (asI128_eq_ok.mpr rfl).symm
  · rename_i h
    have hx := x.le
    have hs := since.ge
    rw [show x.checkedSub since = some ⟨x.val - since.val, by omega, by omega⟩ from
      Ranged.checkedSub_eq_some.mpr rfl]
    show (mulDiv rate _ _ >>= _) = _
    rw [mulDiv_eq hr (by decide)]
    show (asI128 (rate.val * (x.val - since.val) / 1) >>= _) = _
    rw [Int.ediv_one]
    have hl : 0 ≤ rate.val * (x.val - since.val) := mul_nonneg hr (by omega)
    -- the linear part alone overflows only if the sum does
    cases hv : (Ranged.ofInt? (rate.val * (x.val - since.val)) : Option I128) with
    | some l =>
        rw [Ranged.ofInt?_eq_some] at hv
        rw [show asI128 (rate.val * (x.val - since.val)) = .ok l from asI128_eq_ok.mpr hv, ok_bind,
          Ranged.checkedAdd, hv]
        rfl
    | none =>
        rw [Ranged.ofInt?_eq_none] at hv
        have hmax := i128Max_eq
        rw [(asI128_eq_error hl).mpr (by omega), (asI128_eq_error (by omega)).mpr (by omega)]
        rfl

/-! ### The stored schedule -/

/-- The schedule a stream stores. -/
def scheduleOf (info : StreamInfo) (st : Storage) : Schedule where
  rate := info.ratePerSecond.val
  start := info.startTime.val
  stop := if info.endTime.val = 0 then none else some info.endTime.val
  pausedAt := if info.isPaused then some info.pausedAt.val else none
  checkpoint := st.rateCheckpoint.map fun c => (c.at.val, c.accrued.val)
  cliff := st.cliffConfig.map fun c => (c.cliffTime.val, c.cliffUnlockAmount.val)

theorem stop_eq_some {info : StreamInfo} {st : Storage} {e : Int} :
    (scheduleOf info st).stop = some e ↔ 0 < info.endTime.val ∧ info.endTime.val = e := by
  have := info.endTime.ge
  unfold scheduleOf
  dsimp only
  split
  · exact ⟨nofun, fun h => by omega⟩
  · rw [Option.some.injEq]
    exact ⟨fun h => ⟨by omega, h⟩, fun h => h.2⟩

theorem pausedAt_eq_some {info : StreamInfo} {st : Storage} {p : Int} :
    (scheduleOf info st).pausedAt = some p ↔ info.isPaused = true ∧ info.pausedAt.val = p := by
  unfold scheduleOf
  dsimp only
  split
  · rename_i h
    rw [Option.some.injEq]
    exact ⟨fun e => ⟨h, e⟩, fun e => e.2⟩
  · rename_i h
    exact ⟨nofun, fun e => absurd e.1 h⟩

theorem pausedAt_eq_none {info : StreamInfo} {st : Storage} :
    (scheduleOf info st).pausedAt = none ↔ info.isPaused = false := by
  unfold scheduleOf
  dsimp only
  cases info.isPaused <;> simp

theorem effectiveNow_val (now : U64) (info : StreamInfo) (st : Storage) :
    (effectiveNow now info).val = (scheduleOf info st).effective now.val := by
  have := info.endTime.ge
  unfold effectiveNow Schedule.effective Schedule.clamp scheduleOf
  simp only [Ranged.lt_def]
  cases info.isPaused <;> by_cases he : info.endTime.val = 0 <;>
    simp [he] <;> split <;> omega

/-- **`streamed_amount` is `Schedule.value`.** -/
theorem streamedAmount_eq {env : Env} {s : State} {info : StreamInfo} {now : Int}
    (hq : (scheduleOf info s.store).Valid now) :
    streamedAmount env s info = asI128 ((scheduleOf info s.store).value env.timestamp.val) := by
  have hr : 0 ≤ info.ratePerSecond.val := hq.rate_pos.le
  have hb := hq.base_nonneg
  have heff := effectiveNow_val env.timestamp info s.store
  unfold streamedAmount Schedule.value
  dsimp only
  simp only [Ranged.lt_def]
  by_cases hs : env.timestamp.val < info.startTime.val
  · rw [if_pos hs, if_pos (show _ < (scheduleOf info s.store).start from hs)]
    exact (asI128_eq_ok.mpr rfl).symm
  rw [if_neg hs, if_neg (show ¬ _ < (scheduleOf info s.store).start from hs)]
  rw [← heff]
  unfold Schedule.valueAt
  cases hc : s.store.rateCheckpoint with
  | some c =>
      have ha : (scheduleOf info s.store).anchor = (c.at.val, c.accrued.val) := by
        simp [Schedule.anchor, scheduleOf, hc]
      rw [ha] at hb ⊢
      exact accrueSince_eq hr hb
  | none =>
      cases hk : s.store.cliffConfig with
      | some c =>
          have ha : (scheduleOf info s.store).anchor = (c.cliffTime.val, c.cliffUnlockAmount.val) := by
            simp [Schedule.anchor, scheduleOf, hc, hk]
          rw [ha] at hb ⊢
          exact accrueSince_eq hr hb
      | none =>
          have ha : (scheduleOf info s.store).anchor = (info.startTime.val, 0) := by
            simp [Schedule.anchor, scheduleOf, hc, hk]
          -- a valid schedule is not evaluated before its start
          have hge : info.startTime.val ≤ (effectiveNow env.timestamp info).val := by
            rw [heff]
            cases hp : (scheduleOf info s.store).pausedAt with
            | none =>
                rw [Schedule.effective_running hp]
                unfold Schedule.clamp
                cases he : (scheduleOf info s.store).stop with
                | none => exact not_lt.mp hs
                | some e => exact le_min (not_lt.mp hs) (hq.start_lt e he).le
            | some p =>
                rw [hq.effective_paused hp]
                exact hq.start_le_paused p hp
          have hx := (effectiveNow env.timestamp info).le
          have h0 := info.startTime.ge
          rw [ha, if_neg (by dsimp only; omega)]
          dsimp only
          rw [show (effectiveNow env.timestamp info).checkedSub info.startTime =
            some ⟨(effectiveNow env.timestamp info).val - info.startTime.val, by omega, by omega⟩ from
            Ranged.checkedSub_eq_some.mpr rfl]
          show mulDiv _ _ _ = _
          rw [mulDiv_eq hr (by decide), zero_add]
          show asI128 (info.ratePerSecond.val * (_ - _) / 1) = _
          rw [Int.ediv_one]
          rfl

end Drip.Stream
