import Mathlib.Algebra.BigOperators.Group.List.Basic
import Drip.Stream.Inversion
import Drip.Stream.Value

/-!
# Stream — Payouts

What the entry points that move the stream token transfer.  `Paid` says what a list of transfers
out of the contract did to the contract's balance; `withdraw_spec`, `settle_spec`, `clawback_spec`
and `deposit_spec` give the transfers of each entry point and the amounts they move.
-/

namespace Drip.Stream
open Chain

variable {env : Env} {s s' : State} {info : StreamInfo} {here token : Address}

/-! ### Lists of transfers -/

/-- The amounts of all transfers. -/
def sent (ts : List Transfer) : Int := (ts.map fun t => t.amount.val).sum

/-- The amounts sent to `here`. -/
def sentTo (here : Address) (ts : List Transfer) : Int :=
  (ts.map fun t => if t.dst = here then t.amount.val else 0).sum

/-- The amounts of the token sent for the purpose `p`. -/
def total (token : Address) (p : Purpose) (ts : List Transfer) : Int :=
  (ts.map fun t => if t.token = token ∧ t.purpose = p then t.amount.val else 0).sum

@[simp] theorem sent_nil : sent [] = 0 := rfl
@[simp] theorem sentTo_nil : sentTo here [] = 0 := rfl
@[simp] theorem total_nil (p : Purpose) : total token p [] = 0 := rfl

@[simp]
theorem sent_singleton (t : Transfer) : sent [t] = t.amount.val := by
  simp [sent]

@[simp]
theorem sentTo_singleton (t : Transfer) :
    sentTo here [t] = if t.dst = here then t.amount.val else 0 := by
  simp [sentTo]

@[simp]
theorem sent_append (ts us : List Transfer) : sent (ts ++ us) = sent ts + sent us := by
  simp [sent]

@[simp]
theorem sentTo_append (ts us : List Transfer) :
    sentTo here (ts ++ us) = sentTo here ts + sentTo here us := by
  simp [sentTo]

@[simp]
theorem total_append (p : Purpose) (ts us : List Transfer) :
    total token p (ts ++ us) = total token p ts + total token p us := by
  simp [total]

theorem total_cons (p : Purpose) (t : Transfer) (ts : List Transfer) :
    total token p (t :: ts) =
      (if t.token = token ∧ t.purpose = p then t.amount.val else 0) + total token p ts := rfl

/-- Transfers of the token for one purpose count in full for it and not at all for another. -/
theorem total_of_purpose {p q : Purpose} {ts : List Transfer} (ht : ∀ t ∈ ts, t.token = token)
    (h : ∀ t ∈ ts, t.purpose = q) : total token p ts = if q = p then sent ts else 0 := by
  induction ts with
  | nil => simp
  | cons t ts ih =>
      have ih := ih (fun u hu => ht u (List.mem_cons_of_mem t hu))
        fun u hu => h u (List.mem_cons_of_mem t hu)
      rw [total_cons, ih, ht t List.mem_cons_self, h t List.mem_cons_self]
      show _ = if q = p then sent ([t] ++ ts) else 0
      rw [sent_append, sent_singleton]
      by_cases hqp : q = p
      · rw [if_pos ⟨rfl, hqp⟩, if_pos hqp, if_pos hqp]
      · rw [if_neg fun hh => hqp hh.2, if_neg hqp, if_neg hqp, add_zero]

/-- Transfers that do not count add nothing. -/
theorem sum_eq_zero {P : Transfer → Prop} [DecidablePred P] {ts : List Transfer}
    (h : ∀ t ∈ ts, ¬ P t) : (ts.map fun t => if P t then t.amount.val else 0).sum = 0 := by
  refine List.sum_eq_zero fun x hx => ?_
  obtain ⟨t, ht, rfl⟩ := List.mem_map.mp hx
  exact if_neg (h t ht)

/-- Transfers of other tokens do not count. -/
theorem total_of_other {p : Purpose} {ts : List Transfer} (h : ∀ t ∈ ts, t.token ≠ token) :
    total token p ts = 0 :=
  sum_eq_zero fun t ht hh => h t ht hh.1

theorem sentTo_le_sent {ts : List Transfer} (h : ∀ t ∈ ts, 0 ≤ t.amount.val) :
    0 ≤ sentTo here ts ∧ sentTo here ts ≤ sent ts := by
  induction ts with
  | nil => simp
  | cons t ts ih =>
      have ht := h t List.mem_cons_self
      have ih := ih fun u hu => h u (List.mem_cons_of_mem t hu)
      show 0 ≤ sentTo here ([t] ++ ts) ∧ sentTo here ([t] ++ ts) ≤ sent ([t] ++ ts)
      rw [sentTo_append, sent_append, sentTo_singleton, sent_singleton]
      split <;> omega

theorem sentTo_eq_zero {ts : List Transfer} (h : ∀ t ∈ ts, t.dst ≠ here) : sentTo here ts = 0 :=
  sum_eq_zero h

/-! ### Transfers out of the contract -/

/-- `s'` comes from `s` by the transfers `ts` of the token out of the contract. -/
structure Paid (here token : Address) (s : State) (ts : List Transfer) (s' : State) : Prop where
  transfers : s'.transfers = s.transfers ++ ts
  outgoing : ∀ t ∈ ts, t.token = token ∧ t.src = here ∧ 0 ≤ t.amount.val
  balance : (s'.tokens.balance token here).val =
    (s.tokens.balance token here).val - sent ts + sentTo here ts

theorem Paid.nil (h : s'.transfers = s.transfers) (ht : s'.tokens = s.tokens) :
    Paid here token s [] s' := by
  refine ⟨by rw [h, List.append_nil], fun t ht => absurd ht List.not_mem_nil, ?_⟩
  rw [ht, sent_nil, sentTo_nil]
  omega

theorem Paid.append {s₁ : State} {ts us : List Transfer} (h : Paid here token s ts s₁)
    (h' : Paid here token s₁ us s') : Paid here token s (ts ++ us) s' := by
  refine ⟨by rw [h'.transfers, h.transfers, List.append_assoc], ?_, ?_⟩
  · intro t ht
    rcases List.mem_append.mp ht with ht | ht
    · exact h.outgoing t ht
    · exact h'.outgoing t ht
  · rw [h'.balance, h.balance, sent_append, sentTo_append]
    omega

/-- A state with the same tokens and transfers has been paid the same. -/
theorem Paid.congr {r r' : State} {ts : List Transfer} (h : Paid here token s ts s')
    (ht : r.tokens = s.tokens) (hx : r.transfers = s.transfers) (ht' : r'.tokens = s'.tokens)
    (hx' : r'.transfers = s'.transfers) : Paid here token r ts r' :=
  ⟨by rw [hx', hx]; exact h.transfers, h.outgoing, by rw [ht', ht]; exact h.balance⟩

theorem transfer_eq_ok {t : Transfer} :
    transfer s t = .ok s' ↔ ∃ l, s.tokens.transfer t.token t.src t.dst t.amount = some l ∧
      s' = { s with tokens := l, transfers := s.transfers ++ [t] } := by
  simp only [transfer, bind_eq_ok, okOr_eq_ok, pure_eq_ok]
  exact exists_congr fun l => and_congr_right fun _ => eq_comm

theorem pay_spec {dst : Address} {amount : I128} {purpose : Purpose}
    (h : pay env s info dst amount purpose = .ok s') :
    s'.store = s.store ∧ s'.events = s.events ∧
      Paid env.contract info.token s [⟨info.token, env.contract, dst, amount, purpose⟩] s' := by
  obtain ⟨l, hl, rfl⟩ := transfer_eq_ok.mp h
  obtain ⟨hnn, -, hbal⟩ := Ledger.transfer_spec hl
  refine ⟨rfl, rfl, rfl, ?_, ?_⟩
  · intro t ht
    rw [List.mem_singleton] at ht
    subst ht
    exact ⟨rfl, rfl, hnn⟩
  · have := hbal info.token env.contract
    simpa [eq_comm] using this

theorem payPositive_spec {dst : Address} {amount : I128} {purpose : Purpose}
    (hnn : 0 ≤ amount.val) (h : payPositive env s info dst amount purpose = .ok s') :
    s'.store = s.store ∧ s'.events = s.events ∧ ∃ ts, sent ts = amount.val ∧
      (∀ t ∈ ts, t.dst = dst ∧ t.purpose = purpose) ∧
      Paid env.contract info.token s ts s' := by
  unfold payPositive at h
  split at h
  · obtain ⟨hst, hev, hp⟩ := pay_spec h
    refine ⟨hst, hev, _, sent_singleton _, ?_, hp⟩
    intro t ht
    rw [List.mem_singleton] at ht
    subst ht
    exact ⟨rfl, rfl⟩
  · cases h
    exact ⟨rfl, rfl, [], by rw [sent_nil]; omega, fun t ht => absurd ht List.not_mem_nil,
      Paid.nil rfl rfl⟩

/-- The addresses a payout goes to. -/
def payees (s : State) (info : StreamInfo) : List Address :=
  payoutAddress s info.recipient :: (s.store.splitConfig.map (·.secondaryRecipient)).toList

/-- What the secondary recipient gets of a payout of `amount`. -/
def secondaryShare (s : State) (amount : Int) : Int :=
  s.store.splitConfig.elim 0 fun split => amount * split.splitBps.val / 10000

/-- What the address `here` gets of a payout of `amount`. -/
def shareOf (here : Address) (s : State) (info : StreamInfo) (amount : Int) : Int :=
  (if payoutAddress s info.recipient = here then amount - secondaryShare s amount else 0) +
    if s.store.splitConfig.map (·.secondaryRecipient) = some here then secondaryShare s amount else 0

@[simp]
theorem shareOf_zero : shareOf here s info 0 = 0 := by
  have hnone : secondaryShare s 0 = 0 := by
    unfold secondaryShare
    cases s.store.splitConfig with
    | none => rfl
    | some split => simp
  simp [shareOf, hnone]

/-- An address that is no payee gets nothing. -/
theorem shareOf_eq_zero (h : ∀ a ∈ payees s info, a ≠ here) (amount : Int) :
    shareOf here s info amount = 0 := by
  have hprimary : payoutAddress s info.recipient ≠ here := h _ List.mem_cons_self
  have hsecondary : s.store.splitConfig.map (·.secondaryRecipient) ≠ some here := by
    intro hs
    exact h here (List.mem_cons_of_mem _ (Option.mem_toList.mpr hs)) rfl
  rw [shareOf, if_neg hprimary, if_neg hsecondary, add_zero]

/-- The transfers of a payout of `amount`. -/
structure Payout (s : State) (info : StreamInfo) (amount : Int) (ts : List Transfer) : Prop where
  sent : sent ts = amount
  sentTo : ∀ here, sentTo here ts = shareOf here s info amount
  payee : ∀ t ∈ ts, t.dst ∈ payees s info
  purpose : ∀ t ∈ ts, t.purpose = .payout

/-- Transfers to one address: it gets all of them. -/
theorem sentTo_of_dst {dst : Address} {ts : List Transfer} (h : ∀ t ∈ ts, t.dst = dst) :
    sentTo here ts = if dst = here then sent ts else 0 := by
  induction ts with
  | nil => simp
  | cons t ts ih =>
      show sentTo here ([t] ++ ts) = if dst = here then sent ([t] ++ ts) else 0
      rw [sentTo_append, sent_append, sentTo_singleton, sent_singleton, h t List.mem_cons_self,
        ih fun u hu => h u (List.mem_cons_of_mem t hu)]
      split <;> rfl

/-- The primary and the secondary share add up to the amount. -/
theorem payRecipient_spec {amount : I128} (h : payRecipient env s info amount = .ok s')
    (hnn : 0 ≤ amount.val) (hsplit : ∀ sc ∈ s.store.splitConfig, sc.splitBps.val ≤ 10000) :
    s'.store = s.store ∧ s'.events = s.events ∧
      ∃ ts, Payout s info amount.val ts ∧ Paid env.contract info.token s ts s' := by
  unfold payRecipient at h
  cases hs : s.store.splitConfig with
  | none =>
      rw [hs] at h
      obtain ⟨hst, hev, hp⟩ := pay_spec h
      refine ⟨hst, hev, _, ⟨sent_singleton _, ?_, ?_, ?_⟩, hp⟩
      · intro here
        rw [sentTo_singleton, shareOf, secondaryShare, hs]
        simp
      · intro t ht
        rw [List.mem_singleton] at ht
        subst ht
        exact List.mem_cons_self
      · intro t ht
        rw [List.mem_singleton] at ht
        subst ht
        rfl
  | some split =>
      rw [hs] at h
      simp only [bind_eq_ok, okOr_eq_ok, Ranged.checkedSub_eq_some] at h
      obtain ⟨secondary, hsec, primary, hprim, s₁, h₁, h₂⟩ := h
      have hsec0 : secondary.val = secondaryShare s amount.val ∧ 0 ≤ secondary.val ∧
          secondary.val ≤ amount.val := by
        obtain ⟨share, hshare, hval, hbounds⟩ := exists_share hnn (hsplit split hs)
        obtain rfl := Except.ok.inj (hsec.symm.trans hshare)
        rw [secondaryShare, hs]
        exact ⟨hval, hbounds⟩
      obtain ⟨hst₁, hev₁, ts, hts, hto, hp₁⟩ := payPositive_spec (by omega) h₁
      obtain ⟨hst₂, hev₂, us, hus, huto, hp₂⟩ := payPositive_spec hsec0.2.1 h₂
      refine ⟨hst₂.trans hst₁, hev₂.trans hev₁, ts ++ us, ⟨?_, ?_, ?_, ?_⟩, hp₁.append hp₂⟩
      · rw [sent_append, hts, hus]
        omega
      · intro here
        rw [sentTo_append, sentTo_of_dst fun t ht => (hto t ht).1, sentTo_of_dst fun t ht => (huto t ht).1,
          hts, hus, shareOf, ← hsec0.1, hs]
        simp [hprim]
      · intro t ht
        rcases List.mem_append.mp ht with ht | ht
        · rw [(hto t ht).1]
          exact List.mem_cons_self
        · rw [(huto t ht).1, payees, hs]
          exact List.mem_cons_of_mem _ List.mem_cons_self
      · intro t ht
        rcases List.mem_append.mp ht with ht | ht
        · exact (hto t ht).2
        · exact (huto t ht).2

/-! ### The entry points -/

theorem withdrawable_val {w : I128} (hw : 0 ≤ info.withdrawn.val)
    (h : withdrawable env s info = .ok w) :
    ∃ v, streamedAmount env s info = .ok v ∧ w.val = max (v.val - info.withdrawn.val) 0 := by
  simp only [withdrawable, bind_eq_ok, pure_eq_ok] at h
  obtain ⟨v, hv, rfl⟩ := h
  refine ⟨v, hv, ?_⟩
  have hle := v.le
  rw [Ranged.val_max, Ranged.saturatingSub, Ranged.val_clamp]
  show max (max _ (min _ _)) (0 : Int) = _
  omega

/-- What a withdrawal pays of `earned`, asked for `amount`. -/
def payable (earned withdrawn amount balance : Int) : Int :=
  min (min amount (max (earned - withdrawn) 0)) balance

theorem withdraw_spec {amount x : I128} (hi : s.store.config = some info)
    (hw : 0 ≤ info.withdrawn.val) (hsplit : ∀ sc ∈ s.store.splitConfig, sc.splitBps.val ≤ 10000)
    (h : withdraw env amount s = .ok (x, s')) :
    ∃ v w n ts, streamedAmount env s info = .ok v ∧
      w.val = info.withdrawn.val + sent ts ∧
      s'.store.config = some { info with withdrawn := w, eventSequence := n } ∧
      Frame s s' ∧ Paid env.contract info.token s ts s' ∧
      Payout s info (payable v.val info.withdrawn.val amount.val
        (s.tokens.balance info.token env.contract).val) ts ∧ 0 < sent ts ∧ x.val = sent ts := by
  obtain ⟨d⟩ := exists_withdrawing hi h
  obtain ⟨v, hv, hval⟩ := withdrawable_val hw d.computes
  have hx : x.val = payable v.val info.withdrawn.val amount.val
      (s.tokens.balance info.token env.contract).val := by
    rw [d.sends, Ranged.val_min, Ranged.val_min, hval]
    rfl
  obtain ⟨hst, -, ts, hpo, hpaid⟩ := payRecipient_spec d.pays d.positive.le hsplit
  have hsent : sent ts = x.val := hpo.sent
  obtain ⟨n, hn⟩ := d.noted.config (by rw [hst]; rfl)
  refine ⟨v, d.total, n, ts, hv, by rw [hsent]; exact d.adds, hn, ?_, ?_,
    ?_, by rw [hsent]; exact d.positive, hsent.symm⟩
  · refine Frame.trans ?_ d.noted.toFrame
    exact ⟨by rw [hst]; rfl, by rw [hst]; rfl, by rw [hst]; rfl, by rw [hst]; rfl, by rw [hst]; rfl⟩
  · exact hpaid.congr rfl rfl d.noted.tokens d.noted.transfers
  · rw [← hx]
    exact ⟨hpo.sent, hpo.sentTo, hpo.payee, hpo.purpose⟩

/-- The part of a settlement that goes to the recipient. -/
def recipientShare (earned withdrawn balance : Int) : Int := min (max (earned - withdrawn) 0) balance

/-- The transfers a settlement sends the sender. -/
structure Refund (info : StreamInfo) (purpose : Purpose) (amount : Int) (ts : List Transfer) :
    Prop where
  sent : sent ts = amount
  payee : ∀ t ∈ ts, t.dst = info.sender
  purpose : ∀ t ∈ ts, t.purpose = purpose

theorem settle_spec {event : Address → I128 → I128 → I128 → Event} {u : Unit}
    (h : settle env info event s = .ok (u, s'))
    (hsplit : ∀ sc ∈ s.store.splitConfig, sc.splitBps.val ≤ 10000) :
    ∃ v w n ts us, streamedAmount env s info = .ok v ∧
      w.val = info.withdrawn.val + sent ts ∧
      s'.store.config = some { info.markCancelled with withdrawn := w, eventSequence := n } ∧
      Frame s s' ∧ Paid env.contract info.token s (ts ++ us) s' ∧
      Payout s info (recipientShare v.val info.withdrawn.val
        (s.tokens.balance info.token env.contract).val) ts ∧
      Refund info .refund ((s.tokens.balance info.token env.contract).val - sent ts) us := by
  obtain ⟨d⟩ := exists_settling h
  have hbal := (s.tokens.balance info.token env.contract).ge
  have hx : (min (max d.owed (.lit 0)) (s.balance info.token env.contract)).val =
      recipientShare d.streamed.val info.withdrawn.val
        (s.tokens.balance info.token env.contract).val := by
    rw [Ranged.val_min, Ranged.val_max, d.owes]
    rfl
  have hx0 : 0 ≤ recipientShare d.streamed.val info.withdrawn.val
      (s.tokens.balance info.token env.contract).val := by
    unfold recipientShare
    omega
  have hxle : recipientShare d.streamed.val info.withdrawn.val
      (s.tokens.balance info.token env.contract).val ≤
        (s.tokens.balance info.token env.contract).val := min_le_right _ _
  have hw := d.adds
  have hr := d.leaves
  have h₁ := d.pays
  rw [hx] at hw hr
  have hr : d.rest.val = (s.tokens.balance info.token env.contract).val - recipientShare
      d.streamed.val info.withdrawn.val (s.tokens.balance info.token env.contract).val := hr
  -- the recipient's part
  obtain ⟨ts, hst₁, hpo, hpaid₁⟩ : ∃ ts, d.paid.store = (s.save { info.markCancelled with
      withdrawn := d.total }).store ∧ Payout s info (recipientShare d.streamed.val info.withdrawn.val
        (s.tokens.balance info.token env.contract).val) ts ∧
      Paid env.contract info.token s ts d.paid := by
    unfold payOwed at h₁
    rw [hx] at h₁
    split at h₁
    · obtain ⟨hst, -, ts, hpo, hpaid⟩ := payRecipient_spec h₁ (by rw [hx]; exact hx0) hsplit
      rw [hx] at hpo
      exact ⟨ts, hst, ⟨hpo.sent, hpo.sentTo, hpo.payee, hpo.purpose⟩, hpaid.congr rfl rfl rfl rfl⟩
    · have hpaid := Except.ok.inj h₁
      have hnothing : recipientShare d.streamed.val info.withdrawn.val
          (s.tokens.balance info.token env.contract).val = 0 := by omega
      rw [hnothing]
      exact ⟨[], by rw [← hpaid], ⟨sent_nil, fun _ => shareOf_zero.symm,
        fun t ht => absurd ht List.not_mem_nil, fun t ht => absurd ht List.not_mem_nil⟩,
        Paid.nil (by rw [← hpaid]; rfl) (by rw [← hpaid]; rfl)⟩
  -- the sender's part
  have hmax : (max d.rest (.lit 0)).val = d.rest.val := by
    rw [Ranged.val_max]
    show max d.rest.val 0 = d.rest.val
    omega
  obtain ⟨hst₂, -, us, hus, hto, hpaid₂⟩ := payPositive_spec (by rw [hmax]; omega) d.refunds
  have hnote := publish_noted d.publishes
  obtain ⟨n, hn⟩ := hnote.config (by rw [hst₂, hst₁]; rfl)
  refine ⟨d.streamed, d.total, n, ts, us, d.computes, by rw [hpo.sent]; exact hw, hn, ?_, ?_, hpo, ?_⟩
  · refine Frame.trans ?_ hnote.toFrame
    constructor <;> · rw [hst₂, hst₁]; rfl
  · exact (hpaid₁.append hpaid₂).congr rfl rfl hnote.tokens hnote.transfers
  · exact ⟨by rw [hus, hmax, hr, hpo.sent], fun t ht => (hto t ht).1, fun t ht => (hto t ht).2⟩

theorem settle_of_cancel {caller : Address} (hi : s.store.config = some info)
    (h : exec env s (.cancel caller) = .ok s') :
    (caller = info.sender ∨ s.store.operator = some caller) ∧ env.authorized caller = true ∧
      ∃ s₁ u, settle env info .cancelled s.locked = .ok (u, s₁) ∧ s' = s₁.released := by
  simp [exec, cancel, cancelBody, hi] at h
  obtain ⟨-, u, s₁, ⟨-, -, ⟨hc, ha⟩, h⟩, rfl⟩ := h
  exact ⟨hc, ha, s₁, u, h, rfl⟩

theorem settle_of_forceCancel (hi : s.store.config = some info)
    (h : exec env s .forceCancel = .ok s') :
    info.isPaused = true ∧
      ∃ s₁ u, settle env info .forceCancelled s.locked = .ok (u, s₁) ∧ s' = s₁.released := by
  simp [exec, forceCancel, forceCancelBody, hi] at h
  obtain ⟨-, u, s₁, ⟨-, hp, -, -, h⟩, rfl⟩ := h
  exact ⟨hp, s₁, u, h, rfl⟩

/-- What a clawback returns. -/
def reclaimable (earned withdrawn balance : Int) : Int := max (balance - max (earned - withdrawn) 0) 0

theorem clawback_spec {caller : Address} (hi : s.store.config = some info)
    (h : exec env s (.clawback caller) = .ok s') :
    (caller = info.sender ∨ s.store.operator = some caller) ∧ env.authorized caller = true ∧
      info.isPaused = false ∧
      ∃ v n ts, streamedAmount env s info = .ok v ∧
        s'.store.config = some { info with eventSequence := n } ∧
        Frame s s' ∧ Paid env.contract info.token s ts s' ∧
        Refund info .clawback (reclaimable v.val info.withdrawn.val
          (s.tokens.balance info.token env.contract).val) ts := by
  simp [exec, clawback, clawbackBody, hi] at h
  obtain ⟨-, s₂, ⟨-, hp, -, ⟨hc, ha⟩, v, hv, o, ho, r, hr, s₁, h₁, h₂⟩, rfl⟩ := h
  have hx : (max r (.lit 0)).val = reclaimable v.val info.withdrawn.val
      (s.tokens.balance info.token env.contract).val := by
    rw [Ranged.val_max, hr, Ranged.val_max, ho]
    rfl
  obtain ⟨hst, -, ts, hts, hto, hpaid⟩ :=
    payPositive_spec (by rw [hx]; exact le_max_right _ _) h₁
  have hnote := (publish_noted h₂).trans (released_noted s₂)
  obtain ⟨n, hn⟩ := hnote.config (by rw [hst]; exact hi)
  refine ⟨hc, ha, hp, v, n, ts, hv, hn, ?_, ?_, ?_⟩
  · refine Frame.trans ?_ hnote.toFrame
    constructor <;> · rw [hst]; rfl
  · exact hpaid.congr rfl rfl hnote.tokens hnote.transfers
  · exact ⟨by rw [hts, hx], fun t ht => (hto t ht).1, fun t ht => (hto t ht).2⟩

/-! ### Funding -/

/-- `s'` comes from `s` by a deposit of `amount`. -/
structure Funded (here token : Address) (s : State) (amount : Int) (s' : State) : Prop where
  transfers : ∃ t, s'.transfers = s.transfers ++ [t] ∧ t.token = token ∧ t.purpose = .deposit ∧
    t.amount.val = amount
  nonneg : 0 ≤ amount
  balance : (s'.tokens.balance token here).val = (s.tokens.balance token here).val + amount

theorem Funded.congr {r r' : State} {amount : Int} (h : Funded here token s amount s')
    (ht : r.tokens = s.tokens) (hx : r.transfers = s.transfers) (ht' : r'.tokens = s'.tokens)
    (hx' : r'.transfers = s'.transfers) : Funded here token r amount r' :=
  ⟨by rw [hx', hx]; exact h.transfers, h.nonneg, by rw [ht', ht]; exact h.balance⟩

theorem deposit_spec {caller : Address} {amount : I128}
    (h : deposit env s info caller amount = .ok s') (ha : env.authorized caller = true) :
    s'.store.config = s.store.config ∧ Frame s s' ∧
      Funded env.contract info.token s amount.val s' := by
  simp only [deposit, addCumulativeDeposit, bind_eq_ok, okOr_eq_ok, pure_eq_ok] at h
  obtain ⟨_, ⟨c, -, d, -, rfl⟩, h⟩ := h
  obtain ⟨l, hl, rfl⟩ := transfer_eq_ok.mp h
  obtain ⟨hnn, -, hbal⟩ := Ledger.transfer_spec hl
  refine ⟨rfl, ⟨rfl, rfl, rfl, rfl, rfl⟩, ⟨_, rfl, rfl, rfl, rfl⟩, hnn, ?_⟩
  have hne := Env.ne_contract ha
  have := hbal info.token env.contract
  simpa [hne.symm] using this

theorem topUp_spec {caller : Address} {amount : I128} (hi : s.store.config = some info)
    (h : exec env s (.topUp caller amount) = .ok s') :
    ∃ n, s'.store.config = some { info with eventSequence := n } ∧ Frame s s' ∧
      Funded env.contract info.token s amount.val s' := by
  simp [exec, topUp, topUpBody, hi] at h
  obtain ⟨-, s₂, ⟨-, ha, -, -, s₁, h₁, h₂⟩, rfl⟩ := h
  obtain ⟨hc, hf, hfund⟩ := deposit_spec h₁ ha
  have hnote := (publish_noted h₂).trans (released_noted s₂)
  obtain ⟨n, hn⟩ := hnote.config (hc.trans hi)
  refine ⟨n, hn, ?_, hfund.congr rfl rfl hnote.tokens hnote.transfers⟩
  exact ((locked_frame s).trans hf).trans hnote.toFrame

/-- Both extensions deposit and then move `end_time`. -/
structure Extended (env : Env) (s : State) (info : StreamInfo) (extra deposit : Int) (s' : State) :
    Prop where
  bounded : 0 < info.endTime.val
  extra_pos : 0 < extra
  config : ∃ e n, e.val = info.endTime.val + extra ∧
    s'.store.config = some { info with endTime := e, eventSequence := n }
  frame : Frame s s'
  funded : Funded env.contract info.token s deposit s'

theorem extended_of {s₁ s₂ : State} {e x : U64} {caller : Address} {event : Event} {amount : I128}
    (hb : info.endTime.val ≠ 0) (hx : x.val ≠ 0)
    (he : e.val = info.endTime.val + x.val) (ha : env.authorized caller = true)
    (h₁ : deposit env s.locked info caller amount = .ok s₁)
    (h₂ : publish (s₁.save { info with endTime := e }) event = .ok s₂) :
    Extended env s info x.val amount.val s₂.released := by
  obtain ⟨-, hf, hfund⟩ := deposit_spec h₁ ha
  have hnote := (publish_noted h₂).trans (released_noted s₂)
  obtain ⟨n, hn⟩ := hnote.config rfl
  have := info.endTime.ge
  have := x.ge
  refine ⟨by omega, by omega, ⟨e, n, he, hn⟩, ?_, hfund.congr rfl rfl hnote.tokens hnote.transfers⟩
  exact (((locked_frame s).trans hf).trans (save_frame s₁ _)).trans hnote.toFrame

theorem extendDuration_spec {caller : Address} {x : U64} (hi : s.store.config = some info)
    (h : exec env s (.extendDuration caller x) = .ok s') :
    Extended env s info x.val (x.val * info.ratePerSecond.val) s' := by
  simp [exec, extendDuration, extendDurationBody, hi] at h
  obtain ⟨-, s₂, ⟨hx, -, ⟨-, ha⟩, hb, d, hd, s₁, h₁, e, he, h₂⟩, rfl⟩ := h
  rw [← hd]
  exact extended_of hb hx he ha h₁ h₂

theorem topUpAndExtend_spec {caller : Address} {amount : I128} {x : U64}
    (hi : s.store.config = some info)
    (h : exec env s (.topUpAndExtend caller amount x) = .ok s') :
    Extended env s info x.val amount.val s' := by
  simp [exec, topUpAndExtend, topUpAndExtendBody, hi] at h
  obtain ⟨-, s₂, ⟨-, hx, ⟨-, ha⟩, -, hb, s₁, h₁, e, he, h₂⟩, rfl⟩ := h
  exact extended_of hb hx he ha h₁ h₂

end Drip.Stream
