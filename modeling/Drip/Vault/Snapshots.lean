import Drip.Vault.Accounts

/-!
# Vault — Snapshots

The snapshot of a balance that the vault takes with each transfer of its own, to notice within the same
ledger that somebody else has moved the token.  Two of its entry points take none, so that a deposit after
them is refused until the next ledger: the migration, and `vault_batch_withdraw`, which has the streams pay
out to the vault where it is their recipient.

* `Accurate`: a snapshot of the current ledger says what the balance is; `Dated`: none is of a later one.
* `Quiet`: steps in which only the vault's own entry points move tokens into it or out of it.
* `drawn`: what the streams do in a `vault_batch_withdraw`.
* `Refreshes`: the steps that keep the snapshots accurate.
-/

namespace Drip.Vault
open Chain

variable {W : Type} {here : Address} {streams : Streams W} {env : Env} {m m' : Moment W}
variable {c : Call} {reply : Reply} {a : Action W} {as : List (Action W)} {b b' : Books} {s s' : State W}
variable {token src : Address} {amount : I128} {sequence : U32} {tokens : Ledger} {world : W}

def Books.snapshot (b : Books) (token : Address) : Option VaultBalanceSnapshot :=
  b.funds.balanceSnapshot token

def Accurate (here : Address) (sequence : U32) (b : Books) : Prop :=
  ∀ t snapshot, b.snapshot t = some snapshot → snapshot.ledger = sequence →
    snapshot.expectedBalance = b.balance t here

def Dated (sequence : U32) (b : Books) : Prop :=
  ∀ t snapshot, b.snapshot t = some snapshot → snapshot.ledger ≤ sequence

theorem Dated.later {sequence' : U32} (h : Dated sequence b) (hle : sequence ≤ sequence') :
    Dated sequence' b := fun t snapshot hsnapshot =>
  le_trans (a := snapshot.ledger.val) (h t snapshot hsnapshot) hle

/-- There is no snapshot of a later ledger yet. -/
theorem Accurate.later {sequence' : U32} (h : Accurate here sequence b) (hdated : Dated sequence b)
    (hle : sequence ≤ sequence') : Accurate here sequence' b := by
  intro t snapshot hsnapshot hledger
  have hold := hdated t snapshot hsnapshot
  rw [hledger] at hold
  have hsame : sequence' = sequence := Ranged.ext (le_antisymm hold hle)
  exact h t snapshot hsnapshot (hledger.trans hsame)

/-! ### Steps -/

/-- Between the calls nobody moves tokens into the vault or out of it. -/
def Quiet (here : Address) (m : Moment W) (a : Action W) (m' : Moment W) : Prop :=
  Step here m a m' ∧ ∀ l w, a = .outside l w → ∀ t, m'.state.balance t here = m.state.balance t here

/-- A deposit that is refused for a balance that is not the expected one. -/
def Action.trips : Action W → Prop
  | .failed _ _ c failure => c.deposits = true ∧ failure = err .vaultBalanceChanged
  | _ => False

/-- What the streams do in a `vault_batch_withdraw`: each says what it has for the recipient, and then
pays it out. -/
def drawn (streams : Streams W) (env : Env) (streamIds : List Address) (recipient : Address)
    (s : State W) : Result (State W) := do
  let x ← streamIds.foldlM (collect streams env recipient) { state := s }
  x.payouts.foldlM (withdrawStream streams env) x.state

/-- A migration that moves something away finds no snapshot of the current ledger, and no stream pays the
vault a token of which there is one. -/
def Refreshes (streams : Streams W) (env : Env) (s : State W) : Call → Prop
  | .executeEmergencyMigration _ => ∀ token migration, s.books.settings.token = some token →
      s.books.settings.emergencyMigration = some migration →
      (s.books.balance token env.contract).val = 0 ∨ migration.destination = env.contract ∨
        ∀ snapshot, s.books.snapshot token = some snapshot → snapshot.ledger ≠ env.sequence
  | .vaultBatchWithdraw streamIds recipient => ∀ s', drawn streams env streamIds recipient s = .ok s' →
      ∀ t snapshot, s.books.snapshot t = some snapshot → snapshot.ledger = env.sequence →
        s'.balance t env.contract = s.balance t env.contract
  | _ => True

def Action.Refreshes (s : State W) : Action W → Prop
  | .call streams env c _ => Vault.Refreshes streams env s c
  | _ => True

/-! ### The streams -/

/-- The same streams and the same tokens. -/
def Alongside (s s' : State W) : Prop := s'.world = s.world ∧ s'.tokens = s.tokens

variable {α : Type} {f : Visit W α} {stream recipient : Address} {streamIds : List Address}
variable {s₁ : State W}

/-- What a stream does is up to the streams and the tokens. -/
theorem callStream_alongside {r : α} (hs : Alongside s s')
    (h : callStream env stream f s = .ok (r, s₁)) :
    ∃ s₁', callStream env stream f s' = .ok (r, s₁') ∧ Alongside s₁ s₁' := by
  unfold callStream at h ⊢
  rw [hs.1, hs.2]
  simp only [bind_eq_ok, pure_eq_ok, Prod.mk.injEq] at h ⊢
  obtain ⟨u, hreject, ⟨_, w, l⟩, hcall, rfl, rfl⟩ := h
  exact ⟨_, ⟨u, hreject, _, hcall, rfl, rfl⟩, rfl, rfl⟩

/-- The same finds, of the same streams and tokens. -/
def Collected.Alongside (x y : Collected W) : Prop :=
  ∃ s', y = { x with state := s' } ∧ Vault.Alongside x.state s'

theorem collect_alongside {x x₁ y : Collected W} (hxy : x.Alongside y)
    (h : collect streams env recipient x stream = .ok x₁) :
    ∃ y₁, collect streams env recipient y stream = .ok y₁ ∧ x₁.Alongside y₁ := by
  obtain ⟨s', rfl, hs⟩ := hxy
  simp only [collect, bind_eq_ok, reject_eq_ok] at h ⊢
  obtain ⟨-, hnew, ⟨holder, s₁⟩, hrecipient, -, hholder, ⟨amount, s₂⟩, hamount, -, hnonneg, h⟩ := h
  obtain ⟨s₁', hrecipient', hs₁⟩ := callStream_alongside hs hrecipient
  obtain ⟨s₂', hamount', hs₂⟩ := callStream_alongside hs₁ hamount
  by_cases hzero : amount.val = 0
  · rw [if_pos hzero, pure_eq_ok] at h
    refine ⟨_, ⟨(), hnew, _, hrecipient', (), hholder, _, hamount', (), hnonneg, if_pos hzero⟩, ?_⟩
    exact h ▸ ⟨s₂', rfl, hs₂⟩
  · rw [if_neg hzero] at h
    simp only [bind_eq_ok, pure_eq_ok] at h
    obtain ⟨total, htotal, rfl⟩ := h
    refine ⟨_, ⟨(), hnew, _, hrecipient', (), hholder, _, hamount', (), hnonneg, ?_⟩, s₂', rfl, hs₂⟩
    rw [if_neg hzero]
    simp only [bind_eq_ok, pure_eq_ok]
    exact ⟨total, htotal, rfl⟩

theorem drawn_alongside (hs : Alongside s s') (h : drawn streams env streamIds recipient s = .ok s₁) :
    ∃ s₁', drawn streams env streamIds recipient s' = .ok s₁' ∧ Alongside s₁ s₁' := by
  simp only [drawn, bind_eq_ok] at h ⊢
  obtain ⟨x, hcollect, hwithdraw⟩ := h
  have hfirst : Collected.Alongside { state := s } { state := s' } := ⟨s', rfl, hs⟩
  obtain ⟨y, hcollect', hxy⟩ := foldlM_simulates (f := collect streams env recipient)
    (g := collect streams env recipient) (fun _ _ _ _ hxy h => collect_alongside hxy h) hfirst hcollect
  obtain ⟨s₂', rfl, hstate⟩ := hxy
  have hturn : ∀ (p : Address × I128) (u u₁ u' : State W), Alongside u u' →
      withdrawStream streams env u p = .ok u₁ →
      ∃ u₁', withdrawStream streams env u' p = .ok u₁' ∧ Alongside u₁ u₁' := by
    intro p u u₁ u' hu h
    simp only [withdrawStream, bind_eq_ok, pure_eq_ok] at h ⊢
    obtain ⟨⟨r, u₂⟩, hcall, rfl⟩ := h
    obtain ⟨u₂', hcall', hu₂⟩ := callStream_alongside hu hcall
    exact ⟨u₂', ⟨_, hcall', rfl⟩, hu₂⟩
  obtain ⟨s₁', hwithdraw', hs₁⟩ := foldlM_simulates hturn hstate hwithdraw
  exact ⟨s₁', ⟨_, hcollect', hwithdraw'⟩, hs₁⟩

/-- An accepted `vault_batch_withdraw` leaves the tokens that the streams leave. -/
theorem drawn_of_exec (h : vaultBatchWithdraw streams env streamIds recipient s = .ok (reply, s')) :
    ∃ s₁, drawn streams env streamIds recipient s = .ok s₁ ∧ s₁.tokens = s'.tokens := by
  simp only [vaultBatchWithdraw, assertNotPaused, nonReentrant, bind_eq_ok, pure_eq_ok, Prod.mk.injEq,
    Prod.exists] at h
  obtain ⟨-, -, s₀, ⟨-, -, rfl⟩, -, -, r, s₂, ⟨x, hcollect, s₃, hwithdraw, -, rfl⟩, -, rfl⟩ := h
  let s₁ : State W := (isPaused env s).2
  have hs₁ : Alongside { s₁ with store := { s₁.store with reentrancyLock := some true } } s := ⟨rfl, rfl⟩
  obtain ⟨s₂, hdrawn, -, htokens⟩ := drawn_alongside hs₁ (bind_eq_ok.mpr ⟨x, hcollect, hwithdraw⟩)
  exact ⟨s₂, hdrawn, htokens⟩

/-! ### Flows -/

/-- The token has a snapshot of its balance; the others are what they were. -/
structure Recorded (env : Env) (token : Address) (b b' : Books) : Prop where
  self : b'.snapshot token = some ⟨env.sequence, b'.balance token env.contract⟩
  snapshot : ∀ t ≠ token, b'.snapshot t = b.snapshot t
  balance : ∀ t ≠ token, b'.balance t env.contract = b.balance t env.contract

theorem recorded_of {funds : Funds} (h : b'.funds = b'.recorded env token funds)
    (hfunds : funds.balanceSnapshot = b.funds.balanceSnapshot)
    (hbalance : ∀ t ≠ token, b'.balance t env.contract = b.balance t env.contract) :
    Recorded env token b b' := by
  have hsnapshot : ∀ t, b'.snapshot t = Function.update b.funds.balanceSnapshot token
      (some ⟨env.sequence, b'.balance token env.contract⟩) t := by
    intro t
    unfold Books.snapshot
    rw [h, ← hfunds]
    rfl
  refine ⟨?_, fun t ht => ?_, hbalance⟩
  · rw [hsnapshot, Function.update_self]
  · rw [hsnapshot, Function.update_of_ne ht]
    rfl

theorem Recorded.dated (h : Recorded env token b b') (hdated : Dated env.sequence b) :
    Dated env.sequence b' := by
  intro t snapshot hsnapshot
  by_cases ht : t = token
  · subst ht
    obtain rfl := Option.some.inj (h.self.symm.trans hsnapshot)
    exact le_refl env.sequence.val
  · rw [h.snapshot t ht] at hsnapshot
    exact hdated t snapshot hsnapshot

theorem Recorded.accurate (h : Recorded env token b b') (hb : Accurate env.contract env.sequence b) :
    Accurate env.contract env.sequence b' := by
  intro t snapshot hsnapshot hledger
  by_cases ht : t = token
  · subst ht
    obtain rfl := Option.some.inj (h.self.symm.trans hsnapshot)
    rfl
  · rw [h.snapshot t ht] at hsnapshot
    rw [h.balance t ht]
    exact hb t snapshot hsnapshot hledger

theorem balanceSnapshot_credit (funds : Funds) (account : Address) :
    (funds.credit token account amount).balanceSnapshot = funds.balanceSnapshot := by
  unfold Funds.credit
  split <;> rfl

theorem balanceSnapshot_debit (funds : Funds) (account : Address) :
    (funds.debit token account amount).balanceSnapshot = funds.balanceSnapshot := by
  unfold Funds.debit
  split
  · split <;> rfl
  · rfl

theorem Migrated.snapshot {caller : Address} (h : Migrated env caller b b') :
    b'.snapshot = b.snapshot := by
  funext t
  unfold Books.snapshot
  rw [h.funds]

/-- The migration takes the balance away, and leaves the snapshot of it. -/
theorem Migrated.accurate_iff {caller : Address} (h : Migrated env caller s.books b')
    (hb : Accurate env.contract env.sequence s.books) : Accurate env.contract env.sequence b' ↔
      Refreshes streams env s (.executeEmergencyMigration caller) := by
  have hsnapshot := h.snapshot
  obtain ⟨token, migration, htoken, hmigration, hother, hself⟩ := h.balance
  constructor
  · intro hb' token' migration' htoken' hmigration'
    obtain rfl : token = token' := Option.some.inj (htoken.symm.trans htoken')
    obtain rfl : migration = migration' := Option.some.inj (hmigration.symm.trans hmigration')
    by_cases hdst : migration.destination = env.contract
    · exact .inr (.inl hdst)
    -- otherwise the vault is left with nothing, and a snapshot of this ledger would say so
    rw [if_neg hdst] at hself
    by_cases hzero : (s.books.balance token env.contract).val = 0
    · exact .inl hzero
    refine .inr (.inr fun snapshot hs hledger => hzero ?_)
    rw [← hb token snapshot hs hledger, hb' token snapshot (hsnapshot ▸ hs) hledger]
    exact hself
  · intro hrefreshes t snapshot hs hledger
    rw [hsnapshot] at hs
    rw [hb t snapshot hs hledger]
    by_cases ht : t = token
    · subst ht
      refine Ranged.ext ?_
      rw [hself]
      rcases hrefreshes t migration htoken hmigration with hzero | hdst | hnone
      · rw [hzero, ite_self]
      · rw [if_pos hdst]
      · exact absurd hledger (hnone snapshot hs)
    · rw [hother t ht]

/-- Where no snapshot has been taken, it is the tokens with one of this ledger that matter. -/
theorem accurate_iff_of_held (hsnapshot : b'.snapshot = b.snapshot)
    (hb : Accurate env.contract env.sequence b) : Accurate env.contract env.sequence b' ↔
      ∀ t snapshot, b.snapshot t = some snapshot → snapshot.ledger = env.sequence →
        b'.balance t env.contract = b.balance t env.contract := by
  unfold Accurate
  rw [hsnapshot]
  refine forall_congr' fun t => forall_congr' fun snapshot => ?_
  refine imp_congr_right fun hs => imp_congr_right fun hledger => ?_
  rw [hb t snapshot hs hledger]
  exact eq_comm

/-- A batch of withdrawals leaves the balances as its streams do. -/
theorem held_iff_of_batch
    (h : vaultBatchWithdraw streams env streamIds recipient s = .ok (reply, s')) :
    (∀ t snapshot, s.books.snapshot t = some snapshot → snapshot.ledger = env.sequence →
      s'.books.balance t env.contract = s.books.balance t env.contract) ↔
      Refreshes streams env s (.vaultBatchWithdraw streamIds recipient) := by
  obtain ⟨s₁, hdrawn, htokens⟩ := drawn_of_exec h
  have hbalance : ∀ t, s'.books.balance t env.contract = s₁.balance t env.contract := by
    intro t
    unfold State.balance
    rw [htokens]
    rfl
  constructor
  · intro hheld s₂ hs₂ t snapshot hs hledger
    obtain rfl := Except.ok.inj (hdrawn.symm.trans hs₂)
    exact (hbalance t).symm.trans (hheld t snapshot hs hledger)
  · intro hrefreshes t snapshot hs hledger
    exact (hbalance t).trans (hrefreshes s₁ hdrawn t snapshot hs hledger)

theorem refreshes_iff_of_exec (hstreams : streams.Spares env.contract)
    (h : exec streams env s c = .ok (reply, s')) (hdated : Dated env.sequence s.books) :
    Dated env.sequence s'.books ∧ (Accurate env.contract env.sequence s.books →
      (Accurate env.contract env.sequence s'.books ↔ Refreshes streams env s c)) := by
  have hflow := (effect_of_exec hstreams h).flow
  have hbatch : ∀ streamIds recipient, c = .vaultBatchWithdraw streamIds recipient →
      ((∀ t snapshot, s.books.snapshot t = some snapshot → snapshot.ledger = env.sequence →
        s'.books.balance t env.contract = s.books.balance t env.contract) ↔ Refreshes streams env s c) := by
    rintro streamIds recipient rfl
    exact held_iff_of_batch h
  have hmigration : ∀ {caller b'}, Migrated env caller s.books b' →
      Accurate env.contract env.sequence s.books → (Accurate env.contract env.sequence b' ↔
        Refreshes streams env s (.executeEmergencyMigration caller)) := fun h hb => h.accurate_iff hb
  generalize s'.books = b' at hflow hbatch ⊢
  have recorded : ∀ {token}, Recorded env token s.books b' → Refreshes streams env s c →
      Dated env.sequence b' ∧ (Accurate env.contract env.sequence s.books →
        (Accurate env.contract env.sequence b' ↔ Refreshes streams env s c)) := fun hrecorded hc =>
    ⟨hrecorded.dated hdated, fun hb => iff_of_true (hrecorded.accurate hb) hc⟩
  have unrecorded : b'.snapshot = s.books.snapshot →
      ((∀ t snapshot, s.books.snapshot t = some snapshot → snapshot.ledger = env.sequence →
        b'.balance t env.contract = s.books.balance t env.contract) ↔ Refreshes streams env s c) →
      Dated env.sequence b' ∧ (Accurate env.contract env.sequence s.books →
        (Accurate env.contract env.sequence b' ↔ Refreshes streams env s c)) := by
    intro hsnapshot hc
    exact ⟨fun t snapshot hs => hdated t snapshot (hsnapshot ▸ hs),
      fun hb => (accurate_iff_of_held hsnapshot hb).trans hc⟩
  cases hflow with
  | deposit h | depositWithFee h | depositToken h | reported h =>
      exact recorded (recorded_of h.funds (balanceSnapshot_credit _ _)
        fun t ht => h.balance_of_ne ht _) trivial
  | batchDeposit h =>
      exact recorded (recorded_of h.funds rfl fun t ht => h.balance_of_ne ht _) trivial
  | unsettled => exact unrecorded rfl (iff_of_true (fun _ _ _ _ => rfl) trivial)
  | withdraw h | withdrawBatch h =>
      exact recorded (recorded_of h.funds rfl fun t ht => h.balance_of_ne ht _) trivial
  | withdrawToken h =>
      exact recorded (recorded_of h.funds (balanceSnapshot_debit _ _)
        fun t ht => h.balance_of_ne ht _) trivial
  | vaultBatchWithdraw h =>
      refine unrecorded ?_ (hbatch _ _ rfl)
      rw [h.rest]
      rfl
  | executeEmergencyMigration h =>
      exact ⟨fun t snapshot hs => hdated t snapshot (h.snapshot ▸ hs), hmigration h⟩
  | still hstill h =>
      refine unrecorded ?_ (iff_of_true (fun t _ _ _ => ?_) ?_)
      · rw [h]
        rfl
      · rw [h]
        rfl
      · cases c with
        | executeEmergencyMigration | vaultBatchWithdraw => cases hstill
        | _ => trivial

/-! ### Deposits that are not refused -/

/-- The checks of the balance pass. -/
def Trusted (env : Env) (b : Books) : Prop :=
  ∀ token, b.funds.checkVaultBalance env token (b.balance token env.contract) = true

theorem Accurate.trusted (h : Accurate env.contract env.sequence b) : Trusted env b := by
  intro token
  unfold Funds.checkVaultBalance
  split
  · rename_i snapshot hsnapshot
    split
    · rename_i hledger
      exact decide_eq_true (h token snapshot hsnapshot hledger)
    · rfl
  · rfl

theorem avoids_nonReentrant {body : State W → Result (Reply × State W)}
    (h : ∀ s₁ : State W, s₁.books = s.books → Avoids (err .vaultBalanceChanged) (body s₁)) :
    Avoids (err .vaultBalanceChanged) (nonReentrant body s) :=
  avoids_bind (avoids_reject fun _ => by decide) fun _ _ =>
    avoids_bind (h _ rfl) fun _ _ => avoids_ok _

theorem avoids_assertNotPaused : Avoids (err .vaultBalanceChanged) (assertNotPaused env s) :=
  avoids_bind (avoids_reject fun _ => by decide) fun _ _ => avoids_ok _

theorem avoids_requireOwnerOrOperator {caller owner : Address} :
    Avoids (err .vaultBalanceChanged) (requireOwnerOrOperator env caller owner s) := by
  unfold requireOwnerOrOperator
  split
  · exact avoids_reject fun _ => by decide
  · intro h
    cases h

theorem avoids_vaultBalance : Avoids (err .vaultBalanceChanged) (vaultBalance env s) :=
  avoids_bind (avoids_okOr (by decide)) fun _ _ => avoids_ok _

theorem avoids_transfer {t : Transfer} : Avoids (err .vaultBalanceChanged) (transfer s t) :=
  avoids_bind (avoids_okOr (by decide)) fun _ _ => avoids_ok _

/-- The check of the balance, after the pause. -/
theorem Trusted.avoids (h : Trusted env s.books) (hs : s'.books = s.books) :
    Avoids (err .vaultBalanceChanged) (reject (s'.store.funds.checkVaultBalance env token
      (s'.balance token env.contract) = false) (err .vaultBalanceChanged)) := by
  refine avoids_reject fun hcheck => ?_
  have hpass := h token
  rw [← hs] at hpass
  exact absurd (hpass.symm.trans hcheck) (by decide)

theorem balance_of_vaultBalance {balance : I128} {e : Failure Error}
    (h : vaultBalance env s = .ok balance) (htoken : okOr s.store.settings.token e = .ok token) :
    s.balance token env.contract = balance := by
  simp only [vaultBalance, bind_eq_ok, okOr_eq_ok, pure_eq_ok] at h htoken
  obtain ⟨token', htoken', rfl⟩ := h
  obtain rfl : token = token' := Option.some.inj (htoken.symm.trans htoken')
  rfl

/-- Under the guard and the pause, a call finds the vault as it was. -/
theorem avoids_guarded {body : State W → Result (Reply × State W)}
    (h : ∀ s₁ : State W, s₁.books = s.books → Avoids (err .vaultBalanceChanged) (body s₁)) :
    Avoids (err .vaultBalanceChanged)
      (nonReentrant (fun s => do
        let s ← assertNotPaused env s
        body s) s) :=
  avoids_nonReentrant fun _ hs₁ => avoids_bind avoids_assertNotPaused fun s₂ hpaused =>
    h s₂ ((books_of_assertNotPaused hpaused).trans hs₁)

/-- What the deposits of one account check first. -/
theorem avoids_depositor {body : State W → Result (Reply × State W)}
    (h : ∀ s₁ : State W, s₁.books = s.books → Avoids (err .vaultBalanceChanged) (body s₁)) :
    Avoids (err .vaultBalanceChanged)
      (nonReentrant (fun s => do
        let s ← assertNotPaused env s
        let owner ← okOr s.store.settings.owner (err .notInitialized)
        requireOwnerOrOperator env src owner s
        reject (amount.val ≤ 0) (err .invalidAmount)
        reject (maxVaultDeposit < amount) (err .depositExceedsMax)
        body s) s) := by
  refine avoids_guarded fun s₁ hs₁ => ?_
  refine avoids_bind (avoids_okOr (by decide)) fun _ _ => ?_
  refine avoids_bind avoids_requireOwnerOrOperator fun _ _ => ?_
  refine avoids_bind (avoids_reject fun _ => by decide) fun _ _ => ?_
  exact avoids_bind (avoids_reject fun _ => by decide) fun _ _ => h s₁ hs₁

theorem avoids_deposit (h : Trusted env s.books) :
    Avoids (err .vaultBalanceChanged) (deposit env src amount s) := by
  refine avoids_depositor fun s₁ hs₁ => ?_
  refine avoids_bind avoids_vaultBalance fun balance hbalance => ?_
  refine avoids_bind (avoids_okOr (by decide)) fun token htoken => ?_
  obtain rfl := balance_of_vaultBalance hbalance htoken
  refine avoids_bind (avoids_reject fun _ => by decide) fun _ _ => ?_
  refine avoids_bind (avoids_okOr (by decide)) fun _ _ => ?_
  refine avoids_bind (avoids_okOr (by decide)) fun _ _ => ?_
  refine avoids_bind (avoids_reject fun _ => by decide) fun _ _ => ?_
  refine avoids_bind (h.avoids hs₁) fun _ _ => ?_
  refine avoids_bind avoids_transfer fun _ _ => ?_
  refine avoids_bind (avoids_reject fun _ => by decide) fun _ _ => ?_
  exact avoids_bind (avoids_reject fun _ => by decide) fun _ _ => avoids_ok _

theorem avoids_depositWithFee {grossAmount feeAmount : I128} (h : Trusted env s.books) :
    Avoids (err .vaultBalanceChanged) (depositWithFee env src grossAmount feeAmount s) := by
  refine avoids_bind (avoids_reject fun _ => by decide) fun _ _ => ?_
  refine avoids_bind (avoids_reject fun _ => by decide) fun _ _ => ?_
  refine avoids_bind (avoids_okOr (by decide)) fun _ _ => ?_
  exact avoids_bind (avoids_deposit h) fun _ _ => avoids_ok _

theorem avoids_addDeposit (total : I128) (d : DepositSpec) :
    Avoids (err .vaultBalanceChanged) (addDeposit env total d) := by
  refine avoids_bind (avoids_reject fun _ => by decide) fun _ _ => ?_
  refine avoids_bind (avoids_reject fun _ => by decide) fun _ _ => ?_
  exact avoids_bind (avoids_reject fun _ => by decide) fun _ _ => avoids_okOr (by decide)

theorem avoids_takeDeposit (s : State W) (d : DepositSpec) :
    Avoids (err .vaultBalanceChanged) (takeDeposit env token s d) :=
  avoids_bind avoids_transfer fun _ _ => avoids_ok _

theorem avoids_batchDeposit {deposits : List DepositSpec} (h : Trusted env s.books) :
    Avoids (err .vaultBalanceChanged) (batchDeposit env deposits s) := by
  refine avoids_guarded fun s₁ hs₁ => ?_
  refine avoids_bind (avoids_reject fun _ => by decide) fun _ _ => ?_
  refine avoids_bind (avoids_okOr (by decide)) fun _ _ => ?_
  refine avoids_bind (avoids_okOr (by decide)) fun _ _ => ?_
  refine avoids_bind (avoids_foldlM avoids_addDeposit _ _) fun _ _ => ?_
  refine avoids_bind avoids_vaultBalance fun balance hbalance => ?_
  refine avoids_bind (avoids_okOr (by decide)) fun token htoken => ?_
  obtain rfl := balance_of_vaultBalance hbalance htoken
  refine avoids_bind (avoids_reject fun _ => by decide) fun _ _ => ?_
  refine avoids_bind (avoids_okOr (by decide)) fun _ _ => ?_
  refine avoids_bind (avoids_reject fun _ => by decide) fun _ _ => ?_
  refine avoids_bind (h.avoids hs₁) fun _ _ => ?_
  refine avoids_bind (avoids_foldlM avoids_takeDeposit _ _) fun _ _ => ?_
  refine avoids_bind (avoids_reject fun _ => by decide) fun _ _ => ?_
  exact avoids_bind (avoids_reject fun _ => by decide) fun _ _ => avoids_ok _

theorem avoids_checkTokenMaxLimit {balance : I128} :
    Avoids (err .vaultBalanceChanged) (checkTokenMaxLimit token balance amount s) := by
  unfold checkTokenMaxLimit
  split
  · exact avoids_bind (avoids_okOr (by decide)) fun _ _ => avoids_reject fun _ => by decide
  · exact avoids_ok ()

theorem avoids_depositToken (h : Trusted env s.books) :
    Avoids (err .vaultBalanceChanged) (depositToken env src token amount s) := by
  refine avoids_depositor fun s₁ hs₁ => ?_
  refine avoids_bind (avoids_reject fun _ => by decide) fun _ _ => ?_
  refine avoids_bind (h.avoids hs₁) fun _ _ => ?_
  refine avoids_bind avoids_checkTokenMaxLimit fun _ _ => ?_
  refine avoids_bind avoids_transfer fun _ _ => ?_
  refine avoids_bind (avoids_okOr (by decide)) fun _ _ => ?_
  refine avoids_bind (avoids_reject fun _ => by decide) fun _ _ => ?_
  exact avoids_bind (avoids_okOr (by decide)) fun _ _ => avoids_ok _

theorem avoids_depositWithFailureReport (h : Trusted env s.books) :
    Avoids (err .vaultBalanceChanged) (depositWithFailureReport env src amount s) := by
  refine avoids_depositor fun s₁ hs₁ => ?_
  refine avoids_bind (avoids_okOr (by decide)) fun _ _ => ?_
  refine avoids_bind (avoids_reject fun _ => by decide) fun _ _ => ?_
  refine avoids_bind (avoids_okOr (by decide)) fun _ _ => ?_
  refine avoids_bind (avoids_okOr (by decide)) fun _ _ => ?_
  refine avoids_bind (avoids_reject fun _ => by decide) fun _ _ => ?_
  refine avoids_bind (h.avoids hs₁) fun _ _ => ?_
  split
  · exact avoids_ok _
  · refine avoids_bind (avoids_reject fun _ => by decide) fun _ _ => ?_
    exact avoids_bind (avoids_okOr (by decide)) fun _ _ => avoids_ok _

/-- Where the snapshots are accurate, no deposit is refused for the balance. -/
theorem avoids_exec (h : Trusted env s.books) (hc : c.deposits = true) :
    Avoids (err .vaultBalanceChanged) (exec streams env s c) := by
  cases c with
  | deposit => exact avoids_deposit h
  | depositWithFee => exact avoids_depositWithFee h
  | batchDeposit => exact avoids_batchDeposit h
  | depositToken => exact avoids_depositToken h
  | depositWithFailureReport => exact avoids_depositWithFailureReport h
  | _ => cases hc

/-! ### Runs -/

theorem Quiet.refreshes_iff (h : Quiet here m a m') (hdated : Dated m.sequence m.state.books) :
    Dated m'.sequence m'.state.books ∧ (Accurate here m.sequence m.state.books →
      (Accurate here m'.sequence m'.state.books ∧ ¬ a.trips ↔ a.Refreshes m.state)) := by
  obtain ⟨hstep, hquiet⟩ := h
  cases hstep with
  | call henv htime hseq hstreams hexec =>
      subst henv
      obtain ⟨hdated', hiff⟩ := refreshes_iff_of_exec hstreams hexec (hdated.later hseq)
      exact ⟨hdated', fun hb => (and_iff_left id).trans (hiff (hb.later hdated hseq))⟩
  | failed henv htime hseq hstreams hexec =>
      subst henv
      refine ⟨hdated.later hseq, fun hb => ?_⟩
      have hb' := hb.later hdated hseq
      refine iff_of_true ⟨hb', ?_⟩ trivial
      rintro ⟨hc, rfl⟩
      exact avoids_exec hb'.trusted hc hexec
  | outside hspares =>
      refine ⟨hdated, fun hb => iff_of_true ⟨fun t snapshot hs hledger => ?_, id⟩ trivial⟩
      exact (hb t snapshot hs hledger).trans (hquiet _ _ rfl t).symm

/-- **The snapshots.**  A run in which nobody else moves the vault's tokens keeps the snapshots accurate,
and has no deposit refused for the balance, exactly if each of its migrations and each of its batches of
stream withdrawals refreshes. -/
theorem accurate_of_run :
    (Run (fun m a m' => Quiet here m a m' ∧ Accurate here m'.sequence m'.state.books ∧ ¬ a.trips)
        (Moment.fresh tokens world) as m ↔
      Run (fun m a m' => Quiet here m a m' ∧ a.Refreshes m.state)
        (Moment.fresh tokens world) as m) ∧
    (Run (fun m a m' => Quiet here m a m' ∧ a.Refreshes m.state)
        (Moment.fresh tokens world) as m → Accurate here m.sequence m.state.books) := by
  have hdated : ∀ (m : Moment W) a m', Quiet here m a m' → Dated m.sequence m.state.books →
      Dated m'.sequence m'.state.books := fun m a m' hstep hs => (hstep.refreshes_iff hs).1
  have hiff : ∀ (m : Moment W) a m', Quiet here m a m' → Dated m.sequence m.state.books →
      Accurate here m.sequence m.state.books →
      (Accurate here m'.sequence m'.state.books ∧ ¬ a.trips ↔ a.Refreshes m.state) :=
    fun m a m' hstep hs => (hstep.refreshes_iff hs).2
  have hfresh : Dated (Moment.fresh tokens world).sequence (Moment.fresh tokens world).state.books :=
    fun _ _ h => by cases h
  have hempty : Accurate here (Moment.fresh tokens world).sequence
    (Moment.fresh tokens world).state.books := fun _ _ h => by cases h
  exact Run.keeps_and_spec (P := fun m : Moment W => Accurate here m.sequence m.state.books)
    (Q := fun m : Moment W => Dated m.sequence m.state.books) hdated hiff hfresh hempty

namespace Sample

/-- Streams that pay the vault. -/
def paying : Streams Unit where
  recipient _ _ := fun (w, l) => some (address, w, l)
  withdrawable _ _ := fun (w, l) => some (.lit 100, w, l)
  withdraw _ _ amount := fun (w, l) => (l.transfer Sample.token owner address amount).map
    fun l' => ((), w, l')

theorem paying_spares : paying.Spares address := by
  constructor
  · intro _ _ _ _ _ _ _ h
    cases h
    exact fun _ => le_rfl
  · intro _ _ _ _ _ _ _ h
    cases h
    exact fun _ => le_rfl
  · intro _ _ amount _ _ _ _ _ h
    obtain ⟨l', htransfer, heq⟩ := Option.map_eq_some_iff.mp h
    cases heq
    obtain ⟨hnn, -, hbalance⟩ := Ledger.transfer_spec htransfer
    intro t
    have hne : ¬ (t = Sample.token ∧ address = owner) := fun h => absurd h.2 (by decide)
    rw [hbalance, if_neg hne]
    split <;> omega

/-- In a computed run there are only calls. -/
theorem not_outside_of_mem {streams : Streams Unit} {m : Moment Unit} {xs : List (Env × Call)} {l : Ledger}
    {w : Unit} : Action.outside l w ∉ (m.tour streams xs).1 := by
  induction xs generalizing m with
  | nil => exact List.not_mem_nil
  | cons x rest ih =>
      intro hin
      rcases List.mem_cons.mp hin with hfirst | hrest
      · split at hfirst <;> cases hfirst
      · exact ih hrest

theorem quiet_tour {streams : Streams Unit} (hstreams : streams.Spares address) (xs : List (Env × Call))
    (h : Scheduled address (.lit 0) (.lit 0) (calls xs)) :
    Run (Quiet address) (Moment.fresh Sample.tokens ())
      ((Moment.fresh Sample.tokens ()).tour streams (calls xs)).1
      ((Moment.fresh Sample.tokens ()).tour streams (calls xs)).2 := by
  refine (run_tour hstreams _ h).mono fun hin hstep => ⟨hstep, fun l w ha => ?_⟩
  exact absurd (ha ▸ hin) not_outside_of_mem

end Sample

/-- A deposit and a payment in one ledger. -/
theorem accurate_of_run_paid :
    let deposit := Call.deposit Sample.owner (.lit 300)
    let pay := Call.withdraw Sample.owner (.account 3) (.lit 100)
    let m := Sample.visited [Sample.signed Sample.owner deposit, Sample.signed Sample.owner pay]
    Accurate Sample.address m.sequence m.state.books := by
  intro deposit pay m
  let xs := [Sample.signed Sample.owner deposit, Sample.signed Sample.owner pay]
  have hrefreshes : ∀ a ∈ ((Moment.fresh Sample.tokens ()).tour Sample.silent (Sample.calls xs)).1,
      ∀ s, a.Refreshes s :=
    List.forall_mem_cons.mpr ⟨fun _ => trivial, List.forall_mem_cons.mpr ⟨fun _ => trivial,
      List.forall_mem_singleton.mpr fun _ => trivial⟩⟩
  have hrun := Sample.quiet_tour Sample.silent_spares xs (by decide)
  exact accurate_of_run.2 (hrun.mono fun hin hstep => ⟨hstep, hrefreshes _ hin _⟩)

/-- A migration after a deposit in the same ledger, or a payment of streams to the vault; the next deposit
in that ledger is refused. -/
theorem migration_trips_deposit :
    (let env := Sample.signedBy Sample.owner (.lit 172900) (.lit 2)
     let xs := [Sample.signed Sample.owner (.initiateEmergencyMigration Sample.owner (.account 3)),
       (env, .deposit Sample.owner (.lit 300)), (env, .executeEmergencyMigration Sample.owner)]
     let m := Sample.visited xs
     Run (Quiet Sample.address) (Moment.fresh Sample.tokens ())
         ((Moment.fresh Sample.tokens ()).tour Sample.silent (Sample.calls xs)).1 m ∧
       (m.state.books.snapshot Sample.token = some ⟨m.sequence, .lit 300⟩ ∧
         m.state.balance Sample.token Sample.address = .lit 0) ∧
       Quiet Sample.address m (.failed Sample.silent env (.deposit Sample.owner (.lit 200))
         (err .vaultBalanceChanged)) m) ∧
    (let env := Sample.signedBy Sample.owner (.lit 100) (.lit 1)
     let xs := [(env, .deposit Sample.owner (.lit 300)),
       (env, .vaultBatchWithdraw [.contract 20] Sample.address)]
     let tour := (Moment.fresh Sample.tokens ()).tour Sample.paying (Sample.calls xs)
     Run (Quiet Sample.address) (Moment.fresh Sample.tokens ()) tour.1 tour.2 ∧
       (tour.2.state.books.snapshot Sample.token = some ⟨tour.2.sequence, .lit 300⟩ ∧
         tour.2.state.balance Sample.token Sample.address = .lit 400) ∧
       Quiet Sample.address tour.2 (.failed Sample.paying env (.deposit Sample.owner (.lit 50))
         (err .vaultBalanceChanged)) tour.2) := by
  refine ⟨?_, ?_⟩
  · intro env xs m
    exact ⟨Sample.quiet_tour Sample.silent_spares xs (by decide), ⟨rfl, rfl⟩,
      .failed rfl (by decide) (by decide) Sample.silent_spares rfl, fun _ _ h => by cases h⟩
  · intro env xs tour
    exact ⟨Sample.quiet_tour Sample.paying_spares xs (by decide), ⟨rfl, rfl⟩,
      .failed rfl (by decide) (by decide) Sample.paying_spares rfl, fun _ _ h => by cases h⟩

end Drip.Vault
