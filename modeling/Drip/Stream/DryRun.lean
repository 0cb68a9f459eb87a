import Drip.Stream.Exits
import Drip.Stream.Views

/-!
# Stream — Dry run

`validate_withdraw` foretells `withdraw`.  The two run the same checks, in the same order; what
`withdraw` does after them goes through, once the recipient has signed, the token carries out transfers
of what the stream holds (`Circulates`), and the event counter has room for what is published
(`withdrawalEvents`).

* `exists_payRecipient`, `exists_publish`: the payout and the publications after the checks succeed.
* `validateWithdraw_alike`: the two fail alike, or both succeed, and then the whole payable amount is
  transferred.
-/

namespace Drip.Stream
open Chain

variable {env : Env} {here : Address} {m : Moment} {s s' : State} {info i : StreamInfo}
variable {amount x : I128}

/-! ### The payout -/

/-- The stream and any other holder have no more of the token between them than an `i128` counts, so
that every transfer of what the stream holds is carried out. -/
def Circulates (here token : Address) (l : Ledger) : Prop :=
  ∀ a, a ≠ here → (l.balance token a).val + (l.balance token here).val ≤ i128Max

theorem exists_pay {dst : Address} {purpose : Purpose} (hnn : 0 ≤ amount.val)
    (hheld : amount.val ≤ (s.tokens.balance info.token env.contract).val)
    (hroom : dst ≠ env.contract → (s.tokens.balance info.token dst).val + amount.val ≤ i128Max) :
    ∃ s', pay env s info dst amount purpose = .ok s' := by
  obtain ⟨l, hl⟩ := Ledger.exists_transfer hnn hheld hroom
  exact ⟨_, transfer_eq_ok.mpr ⟨l, hl, rfl⟩⟩

theorem exists_payPositive {dst : Address} {purpose : Purpose} (hnn : 0 ≤ amount.val)
    (hheld : amount.val ≤ (s.tokens.balance info.token env.contract).val)
    (hroom : dst ≠ env.contract → (s.tokens.balance info.token dst).val + amount.val ≤ i128Max) :
    ∃ s', payPositive env s info dst amount purpose = .ok s' := by
  unfold payPositive
  split
  · exact exists_pay hnn hheld hroom
  · exact ⟨s, rfl⟩

/-- What a payment does to every balance of the token. -/
theorem payPositive_balance {dst : Address} {purpose : Purpose} (hnn : 0 ≤ amount.val)
    (h : payPositive env s info dst amount purpose = .ok s') (a : Address) :
    (s'.tokens.balance info.token a).val = (s.tokens.balance info.token a).val
      - (if a = env.contract then amount.val else 0) + (if a = dst then amount.val else 0) := by
  unfold payPositive at h
  split at h
  · obtain ⟨l, hl, rfl⟩ := transfer_eq_ok.mp h
    obtain ⟨-, -, hmove⟩ := Ledger.transfer_spec hl
    simpa using hmove info.token a
  · cases h
    have hzero : amount.val = 0 := by omega
    simp [hzero]

theorem exists_payRecipient (hnn : 0 ≤ amount.val)
    (hheld : amount.val ≤ (s.tokens.balance info.token env.contract).val)
    (hcirc : Circulates env.contract info.token s.tokens)
    (hsplit : ∀ sc ∈ s.store.splitConfig, sc.splitBps.val ≤ 10000) :
    ∃ s', payRecipient env s info amount = .ok s' := by
  unfold payRecipient
  cases hs : s.store.splitConfig with
  | none =>
      refine exists_pay hnn hheld fun hne => ?_
      have := hcirc _ hne
      omega
  | some split =>
      obtain ⟨secondary, hsec, -, hsec0, hsecle⟩ := exists_share hnn (hsplit split hs)
      have hmax := amount.le
      obtain ⟨primary, hprim⟩ : ∃ primary : I128, primary.val = amount.val - secondary.val :=
        ⟨⟨amount.val - secondary.val, le_trans (by decide) (sub_nonneg.mpr hsecle), by omega⟩, rfl⟩
      obtain ⟨s₁, h₁⟩ : ∃ s₁, payPositive env s info (payoutAddress s info.recipient) primary .payout =
          .ok s₁ := by
        refine exists_payPositive (by omega) (by omega) fun hne => ?_
        have := hcirc _ hne
        omega
      have hbal := payPositive_balance (by omega) h₁
      obtain ⟨s', h'⟩ : ∃ s', payPositive env s₁ info split.secondaryRecipient secondary .payout =
          .ok s' := by
        refine exists_payPositive hsec0 ?_ fun hne => ?_
        · rw [hbal, if_pos rfl]
          split <;> omega
        · -- the first payment may have gone to the same holder
          rw [hbal, if_neg hne]
          have := hcirc _ hne
          split <;> omega
      refine ⟨s', ?_⟩
      simp only [bind_eq_ok, okOr_eq_ok, Ranged.checkedSub_eq_some]
      exact ⟨secondary, hsec, primary, hprim, s₁, h₁, h'⟩

/-! ### The publications -/

/-- The last number the event counter reaches. -/
abbrev lastSequence : Int := 18446744073709551615

/-- A publication that goes through, and what it leaves alone. -/
theorem exists_publish {e : Event} (hi : s.store.config = some i) (ha : ∀ x ∈ e.amounts, 0 ≤ x.val)
    (hroom : i.eventSequence.val + 1 ≤ lastSequence) :
    ∃ s' n, publish s e = .ok s' ∧ s'.store.config = some { i with eventSequence := n } ∧
      n.val = i.eventSequence.val + 1 ∧ s'.store.cliffConfig = s.store.cliffConfig ∧
      s'.store.cliffReached = s.store.cliffReached ∧
      s'.store.streamCompleted = s.store.streamCompleted := by
  have hn := i.eventSequence.ge
  exact ⟨_, ⟨i.eventSequence.val + 1, by omega, hroom⟩, publish_eq_ok.mpr ⟨ha, i, _, hi, rfl, rfl⟩,
    rfl, rfl, rfl, rfl, rfl⟩

/-- `cliff_reached` is still to be published. -/
def CliffDue (env : Env) (s : State) : Prop :=
  ∃ c ∈ s.store.cliffConfig, c.cliffTime ≤ env.timestamp ∧ s.store.cliffReached = none

instance (env : Env) (s : State) : Decidable (CliffDue env s) :=
  inferInstanceAs (Decidable (∃ c ∈ s.store.cliffConfig, _))

/-- What a withdrawal is asked to send, cut down to what has accrued and what the stream holds. -/
def State.toSend (s : State) (env : Env) (info : StreamInfo) (amount available : I128) : I128 :=
  min (min amount available) (s.balance info.token env.contract)

/-- How many events a withdrawal publishes that sends `toSend` of `balance`. -/
def withdrawalEvents (env : Env) (s : State) (toSend balance : I128) : Int :=
  1 + (if CliffDue env s then 1 else 0) +
    if toSend = balance ∧ s.store.streamCompleted = none then 1 else 0

theorem exists_markCliffReached (hi : s.store.config = some i)
    (hunlock : ∀ c ∈ s.store.cliffConfig, 0 ≤ c.cliffUnlockAmount.val)
    (hroom : i.eventSequence.val + (if CliffDue env s then 1 else 0) ≤ lastSequence) :
    ∃ s' n, markCliffReached env s info = .ok s' ∧
      s'.store.config = some { i with eventSequence := n } ∧
      n.val = i.eventSequence.val + (if CliffDue env s then 1 else 0) ∧
      s'.store.streamCompleted = s.store.streamCompleted := by
  unfold markCliffReached
  cases hc : s.store.cliffConfig with
  | none =>
      have hdue : ¬ CliffDue env s := fun ⟨c, h, _⟩ => by rw [hc] at h; cases h
      exact ⟨s, i.eventSequence, rfl, hi, by rw [if_neg hdue, add_zero], rfl⟩
  | some c =>
      have hdue : CliffDue env s ↔ c.cliffTime ≤ env.timestamp ∧ s.store.cliffReached = none := by
        simp [CliffDue, hc]
      by_cases hd : CliffDue env s
      · rw [if_pos hd] at hroom ⊢
        have hamounts : ∀ y ∈ Event.amounts (.cliffReached info.recipient env.timestamp
            c.cliffUnlockAmount), 0 ≤ y.val := by
          intro y hy
          obtain rfl := List.mem_singleton.mp hy
          exact hunlock c hc
        have hi' : ({ s with store := { s.store with cliffReached := some true } } : State).store.config =
            some i := hi
        obtain ⟨s', n, hpub, hconfig, hn, -, -, hcompleted⟩ := exists_publish hi' hamounts hroom
        exact ⟨s', n, (if_pos (hdue.mp hd)).trans hpub, hconfig, hn, hcompleted⟩
      · rw [if_neg hd, add_zero]
        exact ⟨s, i.eventSequence, if_neg fun h => hd (hdue.mpr h), hi, rfl, rfl⟩

theorem exists_markCompleted {balance remaining newWithdrawn : I128} (hi : s.store.config = some i)
    (hremaining : remaining.val = balance.val - x.val) (hw : 0 ≤ newWithdrawn.val)
    (hroom : i.eventSequence.val +
      (if x = balance ∧ s.store.streamCompleted = none then 1 else 0) ≤ lastSequence) :
    ∃ s', markCompleted s info balance remaining newWithdrawn = .ok s' := by
  unfold markCompleted
  split
  · rename_i h
    have hall : x = balance := Ranged.ext (by omega)
    rw [if_pos ⟨hall, h.2.2⟩] at hroom
    have hamounts : ∀ y ∈ Event.amounts (.streamCompleted info.recipient newWithdrawn), 0 ≤ y.val := by
      intro y hy
      obtain rfl := List.mem_singleton.mp hy
      exact hw
    have hi' : ({ s with store := { s.store with streamCompleted := some true } } : State).store.config =
        some i := hi
    obtain ⟨s', n, hpub, -⟩ := exists_publish hi' hamounts hroom
    exact ⟨s', hpub⟩
  · exact ⟨s, rfl⟩

/-! ### What follows the checks -/

/-- What a withdrawal needs besides its own checks. -/
structure Ready (env : Env) (s : State) (info : StreamInfo) (amount : I128) : Prop where
  authorized : env.authorized info.recipient = true
  circulates : Circulates env.contract info.token s.tokens
  counter : ∀ available, withdrawable env s info = .ok available →
    info.eventSequence.val + withdrawalEvents env s (s.toSend env info amount available)
      (s.balance info.token env.contract) ≤ lastSequence

theorem checkSplit_ok (hnn : 0 ≤ x.val)
    (hsplit : ∀ sc ∈ s.store.splitConfig, sc.splitBps.val ≤ 10000) : checkSplit s x = .ok () := by
  unfold checkSplit
  cases hs : s.store.splitConfig with
  | none => rfl
  | some split =>
      obtain ⟨secondary, hsec, -, hsec0, hsecle⟩ := exists_share hnn (hsplit split hs)
      have hmax := x.le
      simp only [bind_eq_ok, okOr_eq_ok, Ranged.checkedSub_eq_some, pure_eq_ok, and_true]
      exact ⟨secondary, hsec, ⟨x.val - secondary.val,
        le_trans (by decide) (sub_nonneg.mpr hsecle), by omega⟩, rfl⟩

/-- The payment and the publications of a withdrawal go through. -/
theorem exists_withdrawTail {newWithdrawn : I128} (hs : Sound env.contract s info env.timestamp.val)
    (hcirc : Circulates env.contract info.token s.tokens) (hnn : 0 ≤ x.val)
    (hheld : x.val ≤ (s.balance info.token env.contract).val)
    (hnew : newWithdrawn.val = info.withdrawn.val + x.val)
    (hroom : info.eventSequence.val +
      withdrawalEvents env s x (s.balance info.token env.contract) ≤ lastSequence) :
    ∃ s₂ remaining s₃ s₄ s₅,
      payRecipient env (s.save { info with withdrawn := newWithdrawn }) info x = .ok s₂ ∧
      (s.balance info.token env.contract).checkedSub x = some remaining ∧
      publish { s₂ with store := { s₂.store with lastWithdrawalTime := some env.timestamp } }
        (.withdrawn info.recipient x newWithdrawn remaining) = .ok s₃ ∧
      markCliffReached env s₃ info = .ok s₄ ∧
      markCompleted s₄ info (s.balance info.token env.contract) remaining newWithdrawn = .ok s₅ := by
  have hw := hs.withdrawn_nonneg
  have hmax := (s.balance info.token env.contract).le
  obtain ⟨s₂, hpay⟩ : ∃ s₂,
      payRecipient env (s.save { info with withdrawn := newWithdrawn }) info x = .ok s₂ :=
    exists_payRecipient hnn hheld hcirc hs.split_le
  obtain ⟨hst, -⟩ := payRecipient_spec hpay hnn hs.split_le
  obtain ⟨remaining, hremaining⟩ : ∃ remaining : I128,
      remaining.val = (s.balance info.token env.contract).val - x.val :=
    ⟨⟨_, le_trans (by decide) (sub_nonneg.mpr hheld), by omega⟩, rfl⟩
  unfold withdrawalEvents at hroom
  have hcount : (0 : Int) ≤ if CliffDue env s then 1 else 0 := by split <;> decide
  have hcount' : (0 : Int) ≤ if x = s.balance info.token env.contract ∧ s.store.streamCompleted = none
      then 1 else 0 := by split <;> decide
  have hamounts : ∀ y ∈ Event.amounts (.withdrawn info.recipient x newWithdrawn remaining),
      0 ≤ y.val := by
    intro y hy
    simp only [Event.amounts, List.mem_cons, List.not_mem_nil, or_false] at hy
    rcases hy with rfl | rfl | rfl <;> omega
  have hi₂ : ({ s₂ with store := { s₂.store with lastWithdrawalTime := some env.timestamp } } :
      State).store.config = some { info with withdrawn := newWithdrawn } := by
    rw [hst]
    rfl
  obtain ⟨s₃, n, hpub, hi₃, hn, hcliff, hreached, hcompleted⟩ := exists_publish hi₂ hamounts
    (by dsimp only; omega)
  rw [hst] at hcliff hreached hcompleted
  have hdue : CliffDue env s₃ ↔ CliffDue env s := by
    unfold CliffDue
    rw [hcliff, hreached]
    rfl
  obtain ⟨s₄, n', hmark, hi₄, hn', hcompleted'⟩ : ∃ s₄ n', markCliffReached env s₃ info = .ok s₄ ∧ _ := by
    refine exists_markCliffReached hi₃ (fun c hc => ?_) ?_
    · rw [hcliff] at hc
      exact hs.valid.unlock_nonneg (_, _) (Option.mem_map.mpr ⟨c, hc, rfl⟩)
    · rw [if_congr hdue rfl rfl]
      dsimp only at hn ⊢
      omega
  rw [if_congr hdue rfl rfl] at hn'
  dsimp only at hn hn'
  have hleft : s₄.store.streamCompleted = s.store.streamCompleted := hcompleted'.trans hcompleted
  obtain ⟨s₅, hdone⟩ : ∃ s₅, markCompleted s₄ info (s.balance info.token env.contract) remaining
      newWithdrawn = .ok s₅ := by
    refine exists_markCompleted hi₄ hremaining (by omega) ?_
    rw [hleft]
    dsimp only
    omega
  exact ⟨s₂, remaining, s₃, s₄, s₅, hpay, Ranged.checkedSub_eq_some.mpr hremaining, hpub, hmark, hdone⟩

theorem withdrawBody_alike (hs : Sound env.contract s info env.timestamp.val)
    (hready : Ready env s info amount) :
    Alike (fun _ _ => True) (validateWithdraw env amount s) (withdrawBody env amount s) := by
  have hsame : ∀ {x : Result Unit}, Alike Eq x x := alike_refl fun _ => rfl
  unfold validateWithdraw withdrawBody
  refine alike_reject fun hamount => ?_
  rw [bind_of_ok (load_eq_ok.mpr hs.config), bind_of_ok (load_eq_ok.mpr hs.config)]
  refine alike_bind hsame ?_
  rintro _ _ rfl
  rw [bind_of_ok (a := ()) (requireAuth_eq_ok.mpr hready.authorized)]
  refine alike_bind hsame ?_
  rintro _ _ rfl
  cases hav : withdrawable env s info with
  | error e => exact .error e
  | ok available =>
      rw [ok_bind, ok_bind]
      refine alike_reject fun havailable => alike_reject fun hsend => ?_
      obtain ⟨v, -, hval⟩ := withdrawable_val hs.withdrawn_nonneg hav
      have hbal := (s.tokens.balance info.token env.contract).ge
      have hroom := hready.counter available hav
      unfold State.toSend at hroom
      generalize hx : min (min amount available) (s.balance info.token env.contract) = x at hsend hroom ⊢
      have hxval : x.val = min (min amount.val available.val)
          (s.balance info.token env.contract).val := by
        rw [← hx, Ranged.val_min, Ranged.val_min]
      have hbal : 0 ≤ (s.balance info.token env.contract).val := hbal
      have hnn : 0 ≤ x.val := by omega
      have hheld : x.val ≤ (s.balance info.token env.contract).val := by omega
      cases hnew : info.withdrawn.checkedAdd x with
      | none => exact .error _
      | some newWithdrawn =>
          obtain ⟨s₂, remaining, s₃, s₄, s₅, hpay, hremaining, hpub, hcliff, hdone⟩ :=
            exists_withdrawTail hs hready.circulates hnn hheld (Ranged.checkedAdd_eq_some.mp hnew) hroom
          simp only [okOr, ok_bind, checkSplit_ok hnn hs.split_le, hpay, hremaining, hpub, hcliff, hdone]
          exact .ok trivial

/-! ### The dry run -/

/-- A successful withdrawal has sent what was asked for, up to what has accrued and what the stream
held, to the recipient and its split. -/
structure PaidOut (env : Env) (s : State) (info : StreamInfo) (amount : I128) (r : I128 × State) :
    Prop where
  returned : ∃ available, withdrawable env s info = .ok available ∧
    r.1 = s.toSend env info amount available
  moved : ∃ ts, r.2.transfers = s.transfers ++ ts ∧ sent ts = r.1.val ∧
    ∀ t ∈ ts, t.token = info.token ∧ t.src = env.contract ∧ t.dst ∈ payees s info

theorem withdrew_of_withdraw (hs : Sound env.contract s info env.timestamp.val) {r : I128 × State}
    (h : withdraw env amount s = .ok r) : PaidOut env s info amount r := by
  obtain ⟨v, w, n, ts, hv, -, -, -, hpaid, hpo, -, hr⟩ :=
    withdraw_spec hs.config hs.withdrawn_nonneg hs.split_le h
  have hav : withdrawable env s info = .ok (max (v.saturatingSub info.withdrawn) (.lit 0)) := by
    unfold withdrawable
    rw [hv]
    rfl
  obtain ⟨v', hv', hval⟩ := withdrawable_val hs.withdrawn_nonneg hav
  obtain rfl := Except.ok.inj (hv.symm.trans hv')
  refine ⟨⟨_, hav, Ranged.ext ?_⟩, ts, hpaid.transfers, hr.symm, fun t ht =>
    ⟨(hpaid.outgoing t ht).1, (hpaid.outgoing t ht).2.1, hpo.payee t ht⟩⟩
  rw [hr, hpo.sent, State.toSend, Ranged.val_min, Ranged.val_min, hval]
  rfl

/-- The checks do not look at the guard. -/
theorem validateWithdraw_locked : validateWithdraw env amount s.locked = validateWithdraw env amount s :=
  rfl

theorem sound_locked {now : Int} (hs : Sound here s info now) : Sound here s.locked info now :=
  ⟨hs.config, hs.valid, hs.withdrawn_nonneg, hs.pool_token, hs.split_le, hs.sender_here⟩

theorem Ready.locked (h : Ready env s info amount) : Ready env s.locked info amount :=
  ⟨h.authorized, h.circulates, h.counter⟩

/-- The guard is free between calls, and the withdrawal inside it does the work. -/
theorem withdraw_alike (hs : Sound env.contract s info env.timestamp.val) (hfree : s.Free)
    (hready : Ready env s info amount) :
    Alike (fun _ _ => True) (validateWithdraw env amount s) (withdraw env amount s) := by
  have hbody := withdrawBody_alike (sound_locked hs) hready.locked
  rw [validateWithdraw_locked] at hbody
  unfold withdraw withGuard
  rw [bind_of_ok (lock_eq_ok.mpr ⟨hfree, rfl⟩)]
  exact alike_then hbody fun r => ⟨_, rfl⟩

/-- **An exact dry run.**  In every reachable state, at every later time and for every amount,
`validate_withdraw` fails as `withdraw` fails, and where it succeeds `withdraw` succeeds too, having
sent all of the amount that has accrued and that the stream holds. -/
theorem validateWithdraw_alike (hr : Reachable here m) (hi : m.state.store.config = some info)
    (henv : env.contract = here) (hclock : m.clock.val ≤ env.timestamp.val)
    (hready : Ready env m.state info amount) :
    Alike (fun _ r => PaidOut env m.state info amount r) (validateWithdraw env amount m.state)
      (withdraw env amount m.state) := by
  obtain ⟨info', hs⟩ := sound_of_reachable hr
  obtain rfl := Option.some.inj (hi.symm.trans hs.config)
  subst henv
  have hs := hs.wait hclock
  exact alike_right (withdraw_alike hs (free_of_reachable hr) hready) fun r h => withdrew_of_withdraw hs h

theorem withdrawalEvents_le {balance : I128} : withdrawalEvents env s x balance ≤ 3 := by
  unfold withdrawalEvents
  split <;> split <;> decide

theorem Sample.circulates_born :
    Circulates Sample.address Sample.token (Sample.born Sample.args).state.tokens := by
  intro a ha
  have hle : (Sample.tokens.balance Sample.token a).val ≤ 10000 := by
    dsimp only [Sample.tokens]
    split <;> decide
  have hhere : (Sample.tokens.balance Sample.token Sample.address).val = 10000 := by decide
  show (Sample.tokens.balance _ _).val + (Sample.tokens.balance _ _).val ≤ _
  have hmax := i128Max_eq
  omega

/-- The sample stream halfway, asked for three hundred. -/
theorem validateWithdraw_alike_born :
    let s := (Sample.born Sample.args).state
    let env := Sample.envAt (.lit 600)
    (validateWithdraw env (.lit 300) s).isOk = true ∧
      Alike (fun _ r => PaidOut env s (initialInfo Sample.args) (.lit 300) r)
        (validateWithdraw env (.lit 300) s) (withdraw env (.lit 300) s) := by
  have hreach : Reachable Sample.address (Sample.born Sample.args) :=
    ⟨Sample.args, _, [], Sample.born_of_initialize (by decide +kernel), .nil _⟩
  refine ⟨by decide +kernel, validateWithdraw_alike hreach (by decide +kernel) rfl (by decide +kernel)
    ⟨rfl, Sample.circulates_born, fun available _ => ?_⟩⟩
  exact (add_le_add_right withdrawalEvents_le _).trans (by decide)

end Drip.Stream
