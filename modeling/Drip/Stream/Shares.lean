import Mathlib.Data.Rat.Floor
import Drip.Stream.Parties
import Drip.Stream.Settlement

/-!
# Stream — Shares

`mul_div` against the exact quotient, and the two shares of a payout that is split.

* `exact_of_nonneg`: the product never traps, and the quotient rounded down is returned when it fits.
* `mulDiv_one`: with divisor one it is `calculate_streamed_amount`.
* `exists_shares`: both shares of a split amount, and the primary one is positive.
* `withdraw_splits` and `settle_splits`: these are what the entry points transfer.
-/

namespace Drip.Stream
open Chain

variable {env : Env} {here : Address} {m m' : Moment} {s s' : State} {info info' : StreamInfo}
variable {c : Call} {split : SplitConfig} {amount value primary secondary x : I128}
variable {multiplier divisor : U128} {bps : U32}

/-! ### The exact quotient -/

/-- The quotient `mul_div` stands for. -/
def quotient (value : I128) (multiplier divisor : U128) : Rat :=
  (value.val * multiplier.val : Rat) / divisor.val

theorem floor_quotient (hd : 0 < divisor.val) :
    ⌊quotient value multiplier divisor⌋ = value.val * multiplier.val / divisor.val := by
  obtain ⟨n, hn⟩ := Int.eq_ofNat_of_zero_le hd.le
  unfold quotient
  rw [hn]
  exact_mod_cast Rat.floor_intCast_div_natCast (value.val * multiplier.val) n

/-- The quotient rounded down when that fits an `i128`, and an overflow otherwise. -/
structure Exact (value : I128) (multiplier divisor : U128) : Prop where
  /-- the `U256` multiplication does not trap -/
  product : ∃ p : U256, p.val = value.val * multiplier.val
  fits : ⌊quotient value multiplier divisor⌋ ≤ i128Max →
    ∃ r, mulDiv value multiplier divisor = .ok r ∧ r.val = ⌊quotient value multiplier divisor⌋
  overflows : i128Max < ⌊quotient value multiplier divisor⌋ →
    mulDiv value multiplier divisor = .error (err .arithmeticOverflow)

theorem product_fits (hv : 0 ≤ value.val) : ∃ p : U256, p.val = value.val * multiplier.val := by
  have hm := multiplier.ge
  have hle : value.val * multiplier.val ≤
      170141183460469231731687303715884105727 * 340282366920938463463374607431768211455 :=
    mul_le_mul value.le multiplier.le hm (by decide)
  exact ⟨⟨value.val * multiplier.val, mul_nonneg hv hm, hle.trans (by decide)⟩, rfl⟩

theorem exact_of_nonneg (hv : 0 ≤ value.val) (hd : 0 < divisor.val) :
    Exact value multiplier divisor := by
  have hq : 0 ≤ value.val * multiplier.val / divisor.val :=
    Int.ediv_nonneg (mul_nonneg hv multiplier.ge) hd.le
  refine ⟨product_fits hv, fun hle => ?_, fun hlt => ?_⟩
  · rw [floor_quotient hd] at hle ⊢
    rw [mulDiv_eq hv hd]
    exact ⟨⟨_, le_trans (by decide) hq, hle⟩, asI128_eq_ok.mpr rfl, rfl⟩
  · rw [floor_quotient hd] at hlt
    rw [mulDiv_eq hv hd]
    exact (asI128_eq_error hq).mpr hlt

/-- With divisor one the `U256` route and the checked multiplication agree. -/
theorem mulDiv_one {rate : I128} {elapsed : U64} (hr : 0 ≤ rate.val) :
    mulDiv rate elapsed.widen (.lit 1) = calculateStreamedAmount rate elapsed := by
  rw [mulDiv_eq hr (by decide), calculateStreamedAmount]
  show asI128 (rate.val * elapsed.val / 1) = _
  rw [Int.ediv_one]
  split
  · rename_i hzero
    rw [asI128_eq_ok, mul_eq_zero.mpr hzero]
  · rfl

/-! ### The shares of an amount -/

/-- How the code splits an amount. -/
structure Shares (amount : I128) (bps : U32) (primary secondary : I128) : Prop where
  computed : mulDiv amount bps.widen (.lit 10000) = .ok secondary
  rest : amount.checkedSub secondary = some primary
  secondary_nonneg : 0 ≤ secondary.val
  secondary_lt : secondary.val < amount.val
  primary_pos : 0 < primary.val
  whole : primary.val + secondary.val = amount.val

/-- A split that `set_split_recipient` accepts. -/
def InRange (bps : U32) : Prop := 0 < bps.val ∧ bps.val < 10000

instance : Decidable (InRange bps) := inferInstanceAs (Decidable (_ ∧ _))

theorem shares_of_mulDiv (ha : 0 < amount.val) (hb : InRange bps)
    (hsec : mulDiv amount bps.widen (.lit 10000) = .ok secondary)
    (hprim : amount.checkedSub secondary = some primary) : Shares amount bps primary secondary := by
  obtain ⟨share, hshare, hval, hnonneg, -⟩ := exists_share ha.le hb.2.le
  obtain rfl := Except.ok.inj (hsec.symm.trans hshare)
  have hlt : secondary.val < amount.val := by
    rw [hval]
    exact Int.ediv_lt_of_lt_mul (by decide) (mul_lt_mul_of_pos_left hb.2 ha)
  have hsub := Ranged.checkedSub_eq_some.mp hprim
  exact ⟨hsec, hprim, hnonneg, hlt, by omega, by omega⟩

theorem exists_shares (ha : 0 < amount.val) (hb : InRange bps) :
    ∃ primary secondary, Shares amount bps primary secondary := by
  have hmax := amount.le
  obtain ⟨secondary, hsec, -, hnonneg, hle⟩ := exists_share ha.le hb.2.le
  obtain ⟨primary, hprim⟩ : ∃ primary, amount.checkedSub secondary = some primary :=
    ⟨⟨amount.val - secondary.val, le_trans (by decide) (sub_nonneg.mpr hle), by omega⟩,
      Ranged.checkedSub_eq_some.mpr rfl⟩
  exact ⟨primary, secondary, shares_of_mulDiv ha hb hsec hprim⟩

/-! ### What is transferred -/

/-- The transfers of the two shares: the secondary one only when there is something to send. -/
def shareTransfers (here : Address) (s : State) (info : StreamInfo) (split : SplitConfig)
    (primary secondary : I128) : List Transfer :=
  ⟨info.token, here, payoutAddress s info.recipient, primary, .payout⟩ ::
    if 0 < secondary.val then [⟨info.token, here, split.secondaryRecipient, secondary, .payout⟩]
    else []

/-- `ts` pays the two shares of `amount`. -/
def Splits (here : Address) (s : State) (info : StreamInfo) (split : SplitConfig) (amount : I128)
    (ts : List Transfer) : Prop :=
  ∃ primary secondary, Shares amount split.splitBps primary secondary ∧
    ts = shareTransfers here s info split primary secondary

theorem pay_transfers {dst : Address} {purpose : Purpose}
    (h : pay env s info dst amount purpose = .ok s') :
    s'.transfers = s.transfers ++ [⟨info.token, env.contract, dst, amount, purpose⟩] := by
  obtain ⟨l, -, rfl⟩ := transfer_eq_ok.mp h
  rfl

theorem payPositive_transfers {dst : Address} {purpose : Purpose}
    (h : payPositive env s info dst amount purpose = .ok s') :
    s'.transfers = s.transfers ++
      if 0 < amount.val then [⟨info.token, env.contract, dst, amount, purpose⟩] else [] := by
  unfold payPositive at h
  split at h
  · rename_i hpos
    rw [if_pos hpos]
    exact pay_transfers h
  · rename_i hpos
    cases h
    rw [if_neg hpos, List.append_nil]

/-- The shares go to the same addresses whatever else is stored. -/
theorem Splits.congr {s₁ : State} {ts : List Transfer} {i : StreamInfo}
    (h : Splits here s₁ i split amount ts)
    (hfwd : s₁.store.autoForwardAddress = s.store.autoForwardAddress) (ht : i.token = info.token)
    (hr : i.recipient = info.recipient) : Splits here s info split amount ts := by
  obtain ⟨primary, secondary, hshares, rfl⟩ := h
  refine ⟨primary, secondary, hshares, ?_⟩
  unfold shareTransfers payoutAddress
  rw [hfwd, ht, hr]

theorem payRecipient_splits (h : payRecipient env s info amount = .ok s') (ha : 0 < amount.val)
    (hsc : s.store.splitConfig = some split) (hb : InRange split.splitBps) :
    ∃ ts, Splits env.contract s info split amount ts ∧ s'.transfers = s.transfers ++ ts := by
  unfold payRecipient at h
  rw [hsc] at h
  simp only [bind_eq_ok, okOr_eq_ok] at h
  obtain ⟨secondary, hsec, primary, hprim, s₁, h₁, h₂⟩ := h
  have hshares := shares_of_mulDiv ha hb hsec hprim
  refine ⟨_, ⟨primary, secondary, hshares, rfl⟩, ?_⟩
  rw [payPositive_transfers h₂, payPositive_transfers h₁, List.append_assoc,
    if_pos hshares.primary_pos]
  rfl

theorem withdraw_splits (hi : s.store.config = some info) (hsc : s.store.splitConfig = some split)
    (hb : InRange split.splitBps) (h : withdraw env amount s = .ok (x, s')) :
    0 < x.val ∧ ∃ ts, Splits env.contract s info split x ts ∧ s'.transfers = s.transfers ++ ts := by
  obtain ⟨d⟩ := exists_withdrawing hi h
  obtain ⟨ts, hts, htr⟩ := payRecipient_splits d.pays d.positive hsc hb
  exact ⟨d.positive, ts, hts.congr rfl rfl rfl, d.noted.transfers.trans htr⟩

/-- The transfers of a settlement: the split of what the recipient is owed, then the refund. -/
structure Settles (here : Address) (s : State) (info : StreamInfo) (split : SplitConfig)
    (owed : Int) (ts us : List Transfer) : Prop where
  nothing : owed ≤ 0 → ts = []
  shares : 0 < owed → ∃ amount : I128, amount.val = owed ∧ Splits here s info split amount ts
  refund : ∀ t ∈ us, t.dst = info.sender ∧ t.purpose = .refund

theorem settle_splits (hi : s.store.config = some info) (hsc : s.store.splitConfig = some split)
    (hb : InRange split.splitBps) (hc : c.IsSettlement = true) (h : exec env s c = .ok s') :
    ∃ v ts us, streamedAmount env s info = .ok v ∧
      Settles env.contract s info split (recipientShare v.val info.withdrawn.val
        (s.tokens.balance info.token env.contract).val) ts us ∧
      s'.transfers = s.transfers ++ (ts ++ us) := by
  obtain ⟨event, s₄, u, hset, rfl⟩ := settle_of_exec hc hi h
  obtain ⟨d⟩ := exists_settling hset
  have howed : (min (max d.owed (.lit 0)) (s.locked.balance info.token env.contract)).val =
      recipientShare d.streamed.val info.withdrawn.val
        (s.tokens.balance info.token env.contract).val := by
    rw [Ranged.val_min, Ranged.val_max, d.owes]
    rfl
  have htr : s₄.released.transfers = d.refunded.transfers := (publish_noted d.publishes).transfers
  rw [htr, payPositive_transfers d.refunds]
  have hsender : ∀ t ∈ (if 0 < (max d.rest (.lit 0)).val then
      [(⟨info.token, env.contract, info.sender, max d.rest (.lit 0), .refund⟩ : Transfer)] else []),
      t.dst = info.sender ∧ t.purpose = .refund := by
    intro t ht
    split at ht
    · obtain rfl := List.mem_singleton.mp ht
      exact ⟨rfl, rfl⟩
    · exact absurd ht List.not_mem_nil
  have h₁ := d.pays
  unfold payOwed at h₁
  split at h₁
  · rename_i hpos
    obtain ⟨ts, hts, htr₁⟩ := payRecipient_splits h₁ hpos hsc hb
    rw [howed] at hpos
    refine ⟨d.streamed, ts, _, d.computes, ⟨fun hle => absurd hpos (not_lt.mpr hle), fun _ =>
      ⟨_, howed, hts.congr rfl rfl rfl⟩, hsender⟩, ?_⟩
    rw [htr₁, List.append_assoc]
    rfl
  · rename_i hpos
    rw [howed] at hpos
    have hpaid := Except.ok.inj h₁
    refine ⟨d.streamed, [], _, d.computes, ⟨fun _ => rfl, fun hp => absurd hp hpos, hsender⟩, ?_⟩
    rw [← hpaid]
    rfl

/-! ### The stored split -/

/-- The stored split takes part of every amount and leaves part of it. -/
def SplitInRange (s : State) : Prop := ∀ sc ∈ s.store.splitConfig, InRange sc.splitBps

theorem splitInRange_of_exec (hi : s.store.config = some info) (hp : SplitInRange s)
    (h : exec env s c = .ok s') : SplitInRange s' := by
  cases hc : c.IsParty with
  | false =>
      obtain ⟨info', hw⟩ := wrote_of_exec hi h
      intro sc hsc
      rw [(hw.parties hc).2.2] at hsc
      exact hp sc hsc
  | true =>
      cases c with
      | initializeStream args => simp [exec, initializeStream, initializeReading, hi] at h
      | transferRecipient r =>
          simp [exec, transferRecipient, transferRecipientBody, publish_eq_ok, hi] at h
          obtain ⟨-, n, -, rfl⟩ := h
          exact hp
      | setSplitRecipient caller secondary bps =>
          simp [exec, setSplitRecipient, setSplitRecipientBody, publish_eq_ok, hi] at h
          obtain ⟨-, n, ⟨-, -, ⟨hpos, hbps⟩, -⟩, rfl⟩ := h
          rintro sc ⟨⟩
          have := bps.ge
          exact ⟨by show 0 < bps.val; omega, hbps⟩
      | removeSplitRecipient caller =>
          simp [exec, removeSplitRecipient, removeSplitRecipientBody, publish_eq_ok, hi] at h
          obtain ⟨-, n, -, rfl⟩ := h
          intro sc hsc
          cases hsc
      | _ => cases hc

theorem splitInRange_of_reachable (hr : Reachable here m) : SplitInRange m.state := by
  obtain ⟨args, m₀, as, hborn, hrun⟩ := hr
  obtain ⟨env, -, hc⟩ := hborn.created
  have h₀ : SplitInRange m₀.state := by
    intro sc hsc
    rw [hc.splitConfig] at hsc
    cases hsc
  obtain ⟨info, -, hP⟩ := Sound.along (P := fun _ m => SplitInRange m.state) id
    (fun _ hstep hcalled hP => by
      cases hstep with
      | call henv hclock h => exact splitInRange_of_exec hcalled.before.config hP h)
    (fun _ _ _ hP => hP) hrun (sound_of_born hborn) h₀
  exact hP

/-- **The arithmetic of accrual and of splits is exact.**  For every value that is not negative, every
multiplier and every positive divisor, `mul_div` is the quotient rounded down or an overflow; with
divisor one it is `calculate_streamed_amount`.  A split in range has both shares of every positive
amount, and `withdraw`, `cancel` and `force_cancel` transfer exactly these.  Every split a stream
stores is in range. -/
theorem mulDiv_exact_and_split :
    (∀ (value : I128) (multiplier divisor : U128), 0 ≤ value.val → 0 < divisor.val →
      Exact value multiplier divisor) ∧
    (∀ (rate : I128) (elapsed : U64), 0 ≤ rate.val →
      mulDiv rate elapsed.widen (.lit 1) = calculateStreamedAmount rate elapsed) ∧
    (∀ (amount : I128) (bps : U32), 0 < amount.val → InRange bps →
      ∃ primary secondary, Shares amount bps primary secondary) ∧
    (∀ (env : Env) (s : State) (info : StreamInfo) (split : SplitConfig),
      s.store.config = some info → s.store.splitConfig = some split → InRange split.splitBps →
      (∀ amount x s', withdraw env amount s = .ok (x, s') →
        0 < x.val ∧ ∃ ts, Splits env.contract s info split x ts ∧
          s'.transfers = s.transfers ++ ts) ∧
      ∀ c s', Call.IsSettlement c = true → exec env s c = .ok s' →
        ∃ v ts us, streamedAmount env s info = .ok v ∧
          Settles env.contract s info split (recipientShare v.val info.withdrawn.val
            (s.tokens.balance info.token env.contract).val) ts us ∧
          s'.transfers = s.transfers ++ (ts ++ us)) ∧
    ∀ here m, Reachable here m → SplitInRange m.state :=
  ⟨fun _ _ _ hv hd => exact_of_nonneg hv hd, fun _ _ hr => mulDiv_one hr,
    fun _ _ ha hb => exists_shares ha hb,
    fun _ _ _ _ hi hsc hb => ⟨fun _ _ _ h => withdraw_splits hi hsc hb h,
      fun _ _ hc h => settle_splits hi hsc hb hc h⟩,
    fun _ _ hr => splitInRange_of_reachable hr⟩

/-- The largest product, one past the largest amount, the shares of seven tokens, and the sample
split settled by a cancellation. -/
theorem mulDiv_exact_and_split_sample :
    Exact (.lit i128Max) (.lit 340282366920938463463374607431768211455)
        (.lit 340282366920938463463374607431768211455) ∧
      mulDiv (.lit i128Max) (.lit 2) (.lit 1) = calculateStreamedAmount (.lit i128Max) (.lit 2) ∧
      (∃ primary secondary, Shares (.lit 7) (.lit 9999) primary secondary) ∧
      (∃ v ts us, streamedAmount (Sample.envAt (.lit 700)) Sample.split.state
          (Sample.infoOf Sample.split.state) = .ok v ∧
        Settles Sample.address Sample.split.state (Sample.infoOf Sample.split.state)
          ⟨.account 3, .lit 2500⟩ (recipientShare v.val
            (Sample.infoOf Sample.split.state).withdrawn.val
            (Sample.split.state.tokens.balance (Sample.infoOf Sample.split.state).token
              Sample.address).val) ts us ∧
        Sample.closing.state.transfers = Sample.split.state.transfers ++ (ts ++ us)) ∧
      SplitInRange Sample.split.state := by
  obtain ⟨hexact, hone, hshares, hpaid, hrange⟩ := mulDiv_exact_and_split
  refine ⟨hexact _ _ _ (by decide) (by decide), hone (.lit i128Max) (.lit 2) (by decide),
    hshares _ _ (by decide) (by decide), ?_,
    hrange Sample.address _ (Sample.reachable_reached (by decide +kernel) (by decide +kernel))⟩
  exact (hpaid (Sample.envAt (.lit 700)) Sample.split.state (Sample.infoOf Sample.split.state)
    ⟨.account 3, .lit 2500⟩ (by decide +kernel) (by decide +kernel) (by decide)).2
    (.cancel Sample.sender) Sample.closing.state rfl (Sample.exec_next (by decide +kernel))

end Drip.Stream
