import Drip.Stream.Footprint

/-!
# Stream — Issued

The token calls of each entry point.  Within a call, balances move by the transfers the stream
issues and by nothing else.

* `replay l ts` performs the transfers `ts` on the ledger `l`; `replay_balance` says what a holder
  gains and loses.
* `Call.Issues` are the transfers of each call; `issued_of_exec` says that a successful call issued
  such transfers and that they are all that happened to the balances.
-/

namespace Drip.Stream
open Chain

variable {env : Env} {here : Address} {s s₁ s' : State} {info : StreamInfo} {c : Call}
variable {ts us : List Transfer} {l l' : Ledger}

/-! ### Replaying transfers -/

/-- The ledger after the transfers, one after the other. -/
def replay (l : Ledger) (ts : List Transfer) : Option Ledger :=
  ts.foldlM (fun l t => l.transfer t.token t.src t.dst t.amount) l

/-- What the holder receives of the token. -/
def inflow (token holder : Address) (ts : List Transfer) : Int :=
  (ts.map fun t => if t.token = token ∧ t.dst = holder then t.amount.val else 0).sum

/-- What the holder sends of the token. -/
def outflow (token holder : Address) (ts : List Transfer) : Int :=
  (ts.map fun t => if t.token = token ∧ t.src = holder then t.amount.val else 0).sum

theorem replay_cons {t : Transfer} : replay l (t :: ts) = some l' ↔
    ∃ l₁, l.transfer t.token t.src t.dst t.amount = some l₁ ∧ replay l₁ ts = some l' := by
  simp only [replay, List.foldlM_cons, Option.bind_eq_bind, Option.bind_eq_some_iff]

theorem replay_append {l₁ : Ledger} (h : replay l ts = some l₁) (h' : replay l₁ us = some l') :
    replay l (ts ++ us) = some l' := by
  rw [replay, List.foldlM_append]
  exact Option.bind_eq_some_iff.mpr ⟨l₁, h, h'⟩

theorem replay_balance (h : replay l ts = some l') (token holder : Address) :
    (l'.balance token holder).val =
      (l.balance token holder).val - outflow token holder ts + inflow token holder ts := by
  induction ts generalizing l with
  | nil =>
      cases h
      simp [inflow, outflow]
  | cons t ts ih =>
      obtain ⟨l₁, ht, h⟩ := replay_cons.mp h
      obtain ⟨-, -, hbal⟩ := Ledger.transfer_spec ht
      have hb := hbal token holder
      have hih := ih h
      have hin : inflow token holder (t :: ts) =
        (if t.token = token ∧ t.dst = holder then t.amount.val else 0) + inflow token holder ts := rfl
      have hout : outflow token holder (t :: ts) =
        (if t.token = token ∧ t.src = holder then t.amount.val else 0) + outflow token holder ts := rfl
      simp only [eq_comm (a := token), eq_comm (a := holder)] at hb
      omega

/-- Transfers of other tokens move nothing. -/
theorem flow_of_other {token holder : Address} (h : ∀ t ∈ ts, t.token ≠ token) :
    inflow token holder ts = 0 ∧ outflow token holder ts = 0 :=
  ⟨sum_eq_zero fun t ht hh => h t ht hh.1, sum_eq_zero fun t ht hh => h t ht hh.1⟩

/-! ### Issuing -/

/-- From `s` to `s'` the stream issued the transfers `ts`. -/
def Issued (s : State) (ts : List Transfer) (s' : State) : Prop :=
  s'.transfers = s.transfers ++ ts ∧ replay s.tokens ts = some s'.tokens

theorem Issued.nil (ht : s'.tokens = s.tokens) (hx : s'.transfers = s.transfers) :
    Issued s [] s' :=
  ⟨by rw [hx, List.append_nil], by rw [ht]; rfl⟩

theorem Issued.append (h : Issued s ts s₁) (h' : Issued s₁ us s') : Issued s (ts ++ us) s' :=
  ⟨by rw [h'.1, h.1, List.append_assoc], replay_append h.2 h'.2⟩

/-- What only takes notes issues nothing. -/
theorem Issued.noted (h : Issued s ts s₁) (hn : Noted s₁ s') : Issued s ts s' :=
  ⟨by rw [hn.transfers]; exact h.1, by rw [hn.tokens]; exact h.2⟩

theorem issued_transfer {t : Transfer} (h : transfer s t = .ok s') : Issued s [t] s' := by
  obtain ⟨l, hl, rfl⟩ := transfer_eq_ok.mp h
  exact ⟨rfl, replay_cons.mpr ⟨l, hl, rfl⟩⟩

/-- A transfer of the stream token out of the contract. -/
def IsPayment (env : Env) (info : StreamInfo) (p : Purpose) (t : Transfer) : Prop :=
  t.token = info.token ∧ t.src = env.contract ∧ t.purpose = p

theorem issued_payPositive {dst : Address} {amount : I128} {p : Purpose}
    (h : payPositive env s info dst amount p = .ok s') :
    ∃ ts, Issued s ts s' ∧ ∀ t ∈ ts, IsPayment env info p t := by
  unfold payPositive at h
  split at h
  · refine ⟨_, issued_transfer h, fun t ht => ?_⟩
    obtain rfl := List.mem_singleton.mp ht
    exact ⟨rfl, rfl, rfl⟩
  · cases h
    exact ⟨[], .nil rfl rfl, fun t ht => absurd ht List.not_mem_nil⟩

theorem issued_payRecipient {amount : I128} (h : payRecipient env s info amount = .ok s') :
    ∃ ts, Issued s ts s' ∧ ∀ t ∈ ts, IsPayment env info .payout t := by
  unfold payRecipient at h
  split at h
  · simp only [bind_eq_ok, okOr_eq_ok] at h
    obtain ⟨_, -, _, -, s₁, h₁, h₂⟩ := h
    obtain ⟨ts, hts, hall⟩ := issued_payPositive h₁
    obtain ⟨us, hus, hall'⟩ := issued_payPositive h₂
    refine ⟨ts ++ us, hts.append hus, fun t ht => ?_⟩
    rcases List.mem_append.mp ht with ht | ht
    · exact hall t ht
    · exact hall' t ht
  · refine ⟨_, issued_transfer h, fun t ht => ?_⟩
    obtain rfl := List.mem_singleton.mp ht
    exact ⟨rfl, rfl, rfl⟩

theorem issued_payOwed {amount : I128} (h : payOwed env s info amount = .ok s') :
    ∃ ts, Issued s ts s' ∧ ∀ t ∈ ts, IsPayment env info .payout t := by
  unfold payOwed at h
  split at h
  · exact issued_payRecipient h
  · cases h
    exact ⟨[], .nil rfl rfl, fun t ht => absurd ht List.not_mem_nil⟩

theorem issued_deposit {caller : Address} {amount : I128}
    (h : deposit env s info caller amount = .ok s') :
    Issued s [⟨info.token, caller, env.contract, amount, .deposit⟩] s' := by
  simp only [deposit, addCumulativeDeposit, bind_eq_ok, okOr_eq_ok, pure_eq_ok] at h
  obtain ⟨_, ⟨_, -, d, -, rfl⟩, h⟩ := h
  have hts := issued_transfer h
  exact hts

theorem issued_payFromPool {token payee : Address} {amount : I128}
    (h : payFromPool env token payee amount s = .ok s') :
    Issued s [⟨token, env.contract, payee, amount, .keeper⟩] s' := by
  simp only [payFromPool, bind_eq_ok, okOr_eq_ok, pure_eq_ok] at h
  obtain ⟨_, -, _, -, s₁, h₁, -, -, rfl⟩ := h
  exact issued_transfer h₁

/-! ### Every call -/

/-- The transfers of a call. -/
def Call.Issues (c : Call) (env : Env) (s : State) (info : StreamInfo) (ts : List Transfer) : Prop :=
  match c with
  | .withdraw _ => ∀ t ∈ ts, IsPayment env info .payout t
  | .cancel _ | .forceCancel =>
      ∀ t ∈ ts, IsPayment env info .payout t ∨ IsPayment env info .refund t
  | .clawback _ => ∀ t ∈ ts, IsPayment env info .clawback t
  | .topUp caller amount | .topUpAndExtend caller amount _ =>
      caller ≠ env.contract ∧ ts = [⟨info.token, caller, env.contract, amount, .deposit⟩]
  | .extendDuration caller extra =>
      ∃ amount : I128, amount.val = extra.val * info.ratePerSecond.val ∧
        caller ≠ env.contract ∧ ts = [⟨info.token, caller, env.contract, amount, .deposit⟩]
  | .fundKeeperRewardPool caller amount =>
      ∃ pool ∈ s.store.keeperRewardPool, ts = [⟨pool.token, caller, env.contract, amount, .keeper⟩]
  | .withdrawKeeperRewardPool caller amount =>
      ∃ pool ∈ s.store.keeperRewardPool, ts = [⟨pool.token, env.contract, caller, amount, .keeper⟩]
  | .keeperPing keeper =>
      ∃ pool ∈ s.store.keeperRewardPool,
        ts = [⟨pool.token, env.contract, keeper, pool.rewardPerPing, .keeper⟩]
  | _ => ts = []

theorem issued_of_settle {event : Address → I128 → I128 → I128 → Event} {u : Unit}
    (h : settle env info event s.locked = .ok (u, s₁)) :
    ∃ ts, Issued s ts s₁.released ∧
      ∀ t ∈ ts, IsPayment env info .payout t ∨ IsPayment env info .refund t := by
  obtain ⟨d⟩ := exists_settling h
  obtain ⟨ts, hts, hall⟩ := issued_payOwed d.pays
  obtain ⟨us, hus, hall'⟩ := issued_payPositive d.refunds
  have hnote := (publish_noted d.publishes).trans (released_noted s₁)
  refine ⟨ts ++ us, (hts.append hus).noted hnote, fun t ht => ?_⟩
  rcases List.mem_append.mp ht with ht | ht
  · exact .inl (hall t ht)
  · exact .inr (hall' t ht)

/-- The transfers of a body that ends with a publication. -/
theorem issued_of_publish {s₂ : State} {e : Event} (hp : publish s₁ e = .ok s₂)
    (h : Issued s ts s₁) : Issued s ts s₂.released :=
  h.noted ((publish_noted hp).trans (released_noted s₂))

theorem Rescheduled.issued {m : Move} {info' : StreamInfo} (h : Rescheduled env s info m s' info') :
    Issued s [] s' :=
  .nil h.tokens h.transfers

theorem issued_of_exec {now : Int} (hs : Sound here s info now) (h : exec env s c = .ok s') :
    ∃ ts, Issued s ts s' ∧ c.Issues env s info ts := by
  have hi := hs.config
  cases c with
  | initializeStream args => simp [exec, initializeStream, initializeReading, hi] at h
  | withdraw amount =>
      obtain ⟨x, h⟩ := after_eq_ok.mp h
      obtain ⟨d⟩ := exists_withdrawing hi h
      obtain ⟨ts, hts, hall⟩ := issued_payRecipient d.pays
      exact ⟨ts, ⟨d.noted.transfers.trans hts.1, by rw [d.noted.tokens]; exact hts.2⟩, hall⟩
  | cancel caller =>
      obtain ⟨-, -, s₁, u, hset, rfl⟩ := settle_of_cancel hi h
      exact issued_of_settle hset
  | forceCancel =>
      obtain ⟨-, s₁, u, hset, rfl⟩ := settle_of_forceCancel hi h
      exact issued_of_settle hset
  | clawback caller =>
      simp [exec, clawback, clawbackBody, hi] at h
      obtain ⟨-, s₂, ⟨-, -, -, -, _, -, _, -, _, -, s₁, h₁, h₂⟩, rfl⟩ := h
      obtain ⟨ts, hts, hall⟩ := issued_payPositive h₁
      exact ⟨ts, issued_of_publish h₂ hts, hall⟩
  | topUp caller amount =>
      simp [exec, topUp, topUpBody, hi] at h
      obtain ⟨-, s₂, ⟨-, ha, -, -, s₁, h₁, h₂⟩, rfl⟩ := h
      have hts := issued_deposit h₁
      exact ⟨_, issued_of_publish h₂ hts, Env.ne_contract ha, rfl⟩
  | extendDuration caller x =>
      simp [exec, extendDuration, extendDurationBody, hi] at h
      obtain ⟨-, s₂, ⟨-, -, ⟨-, ha⟩, -, d, hd, s₁, h₁, e, -, h₂⟩, rfl⟩ := h
      have hts := issued_deposit h₁
      exact ⟨_, issued_of_publish h₂ hts, d, hd, Env.ne_contract ha, rfl⟩
  | topUpAndExtend caller amount x =>
      simp [exec, topUpAndExtend, topUpAndExtendBody, hi] at h
      obtain ⟨-, s₂, ⟨-, -, ⟨-, ha⟩, -, -, s₁, h₁, e, -, h₂⟩, rfl⟩ := h
      have hts := issued_deposit h₁
      exact ⟨_, issued_of_publish h₂ hts, Env.ne_contract ha, rfl⟩
  | pause caller =>
      obtain ⟨info', h⟩ := pause_moves hi hs.valid h
      exact ⟨[], h.issued, rfl⟩
  | resume caller =>
      obtain ⟨info', h⟩ := resume_moves hi h
      exact ⟨[], h.issued, rfl⟩
  | changeRate caller r =>
      obtain ⟨info', h⟩ := changeRate_moves hi hs.valid h
      exact ⟨[], h.issued, rfl⟩
  | setCliff caller time amount =>
      obtain ⟨info', h⟩ := setCliff_moves hi h
      exact ⟨[], h.issued, rfl⟩
  | configureKeeperRewardPool caller token reward =>
      simp [exec, configureKeeperRewardPool, configureKeeperRewardPoolBody, hi] at h
      obtain ⟨-, s₁, ⟨-, -, -, -, -, h₁⟩, rfl⟩ := h
      exact ⟨[], issued_of_publish h₁ (.nil rfl rfl), rfl⟩
  | fundKeeperRewardPool caller amount =>
      simp [exec, fundKeeperRewardPool, fundKeeperRewardPoolBody, hi] at h
      obtain ⟨-, s₂, ⟨-, -, -, pool, hpool, b, -, s₁, -, h₁, h₂⟩, rfl⟩ := h
      have hts := issued_transfer h₁
      exact ⟨_, issued_of_publish h₂ hts, pool, hpool, rfl⟩
  | withdrawKeeperRewardPool caller amount =>
      simp [exec, withdrawKeeperRewardPool, withdrawKeeperRewardPoolBody, hi] at h
      obtain ⟨-, s₂, ⟨-, -, pool, hpool, b, -, s₁, h₁, h₂⟩, rfl⟩ := h
      have hts := issued_payFromPool h₁
      exact ⟨_, issued_of_publish h₂ hts, pool, hpool, rfl⟩
  | keeperPing keeper =>
      simp [exec, keeperPing, keeperPingBody, hi] at h
      obtain ⟨-, s₂, ⟨-, -, pool, hpool, -, -, b, -, s₁, h₁, h₂⟩, rfl⟩ := h
      have hts := issued_payFromPool h₁
      exact ⟨_, issued_of_publish h₂ hts, pool, hpool, rfl⟩
  | transferRecipient | setAutoForwardAddress | setSplitRecipient | removeSplitRecipient
  | setOperator | revokeOperator | setStreamTitle | setReferenceTag | setInvoiceMetadataUri
  | setMilestoneMetadataUri | setMinWithdrawalInterval | setStreamConfig | isEmergencyPaused
  | emergencyPause | emergencyUnpause =>
      have hset := settings_of_exec hi rfl h
      exact ⟨[], .nil hset.tokens hset.transfers, rfl⟩

end Drip.Stream
