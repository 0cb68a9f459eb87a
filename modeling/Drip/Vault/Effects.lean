import Mathlib.Algebra.Order.BigOperators.Group.List
import Drip.Vault.Calls

/-!
# Vault — Effects

What a successful call did, said once for every entry point, of the part of the state that matters: the
settings, the accounts, the tokens and the transfers issued (`Books`).

* `Setting`: what a call makes of the settings; `Flow`: what it does to the rest.  `effect_of_exec` says
  so of every call; the results about runs are case analyses over the two.
* `Moved b b' ts`: the transfers `ts` have been issued, and the balances are what they make of them.
-/

namespace Drip.Vault
open Chain

variable {W : Type} {streams : Streams W} {env : Env} {s s' : State W} {c : Call} {reply : Reply}
variable {caller owner src dst token account : Address} {amount total : I128} {ts ts' : List Transfer}

/-- The vault without its pause flag, its lock, its log and the streams. -/
structure Books where
  settings : Settings
  funds : Funds
  tokens : Ledger
  transfers : List Transfer

def State.books (s : State W) : Books := ⟨s.store.settings, s.store.funds, s.tokens, s.transfers⟩

variable {b b' b₁ : Books} {settings : Settings}

def Books.balance (b : Books) (token holder : Address) : I128 := (b.tokens.balance token holder).widen

@[simp]
theorem books_publish (e : Event) : (s.publish e).books = s.books := rfl

/-! ### Guards -/

theorem books_of_guarded {body : State W → Result (Reply × State W)}
    (h : nonReentrant body s = .ok (reply, s')) :
    ∃ s₀ s₁, s₀.books = s.books ∧ body s₀ = .ok (reply, s₁) ∧ s'.books = s₁.books := by
  simp only [nonReentrant, bind_eq_ok, pure_eq_ok] at h
  obtain ⟨-, -, ⟨r, s₁⟩, hbody, h⟩ := h
  obtain ⟨rfl, rfl⟩ := Prod.mk.inj h
  let s₀ : State W := { s with store := { s.store with reentrancyLock := some true } }
  exact ⟨s₀, s₁, rfl, hbody, rfl⟩

theorem books_of_assertNotPaused (h : assertNotPaused env s = .ok s') : s'.books = s.books := by
  simp only [assertNotPaused, bind_eq_ok, pure_eq_ok] at h
  obtain ⟨-, -, rfl⟩ := h
  rfl

theorem books_of_setPaused {paused : Bool} (h : setPaused env paused s = .ok s') :
    s'.books = s.books := by
  unfold setPaused at h
  split at h
  · cases h
    rfl
  · cases h
    rfl
  · cases h

/-- The caller owns the vault, and has authorized the call. -/
def Owns (env : Env) (settings : Settings) (caller : Address) : Prop :=
  settings.owner = some caller ∧ env.authorized caller = true

/-- The caller owns the vault or operates it, and has authorized the call. -/
def Manages (env : Env) (settings : Settings) (caller : Address) : Prop :=
  (settings.owner = some caller ∨ settings.owner.isSome = true ∧ settings.operator = some caller) ∧
    env.authorized caller = true

/-- A payment of `total` in the name of the caller: the operator may make it within its limit. -/
def Capped (env : Env) (settings : Settings) (caller : Address) (total : Int) : Prop :=
  Manages env settings caller ∧ (settings.owner ≠ some caller →
    ∃ limit, settings.operatorWithdrawLimit = some limit ∧ total ≤ limit.val)

@[simp]
theorem requireOwner_eq_ok {u : Unit} :
    requireOwner env caller s = .ok u ↔ Owns env s.books.settings caller := by
  simp only [requireOwner, bind_eq_ok, okOr_eq_ok, reject_eq_ok, requireAuth_eq_ok, not_not, Owns]
  constructor
  · rintro ⟨owner, howner, -, rfl, hauth⟩
    exact ⟨howner, hauth⟩
  · rintro ⟨howner, hauth⟩
    exact ⟨caller, howner, (), rfl, hauth⟩

theorem requireOwnerOrOperator_eq_ok {u : Unit} (howner : s.books.settings.owner = some owner) :
    requireOwnerOrOperator env caller owner s = .ok u ↔ Manages env s.books.settings caller := by
  unfold requireOwnerOrOperator Manages
  rw [howner, Option.some.injEq, eq_comm (a := owner)]
  show (if caller = owner ∨ s.books.settings.operator = some caller then _ else _) = _ ↔ _
  split
  · rename_i hrole
    simp [hrole]
  · rename_i hrole
    simp [hrole]

theorem capped_of {cap : I128} (howner : s.books.settings.owner = some owner)
    (hmanages : Manages env s.books.settings caller) (hcap : withdrawCap caller owner s = .ok cap)
    (hle : ¬ cap < total) : Capped env s.books.settings caller total.val := by
  refine ⟨hmanages, fun hne => ?_⟩
  have hcaller : caller ≠ owner := by
    rintro rfl
    exact hne howner
  -- for anybody else the cap is the limit of the operator, which has to be set
  unfold withdrawCap at hcap
  rw [if_neg hcaller] at hcap
  simp only [bind_eq_ok, reject_eq_ok, okOr_eq_ok] at hcap
  obtain ⟨-, -, hlimit⟩ := hcap
  exact ⟨cap, hlimit, not_lt.mp hle⟩

/-! ### Transfers -/

/-- What the transfers take from `a`. -/
def sent (t a : Address) (ts : List Transfer) : Int :=
  (ts.map fun x => if t = x.token ∧ a = x.src then x.amount.val else 0).sum

/-- What they bring to `a`. -/
def received (t a : Address) (ts : List Transfer) : Int :=
  (ts.map fun x => if t = x.token ∧ a = x.dst then x.amount.val else 0).sum

@[simp]
theorem sent_append (t a : Address) : sent t a (ts ++ ts') = sent t a ts + sent t a ts' := by
  simp [sent]

@[simp]
theorem received_append (t a : Address) :
    received t a (ts ++ ts') = received t a ts + received t a ts' := by
  simp [received]

@[simp]
theorem sent_singleton (t a : Address) (x : Transfer) :
    sent t a [x] = if t = x.token ∧ a = x.src then x.amount.val else 0 := by
  simp [sent]

@[simp]
theorem received_singleton (t a : Address) (x : Transfer) :
    received t a [x] = if t = x.token ∧ a = x.dst then x.amount.val else 0 := by
  simp [received]

theorem sent_eq_zero {t a : Address} (h : ∀ x ∈ ts, x.token = t → x.src ≠ a) : sent t a ts = 0 := by
  unfold sent
  refine List.sum_eq_zero fun v hv => ?_
  obtain ⟨x, hx, rfl⟩ := List.mem_map.mp hv
  exact if_neg fun heq => h x hx heq.1.symm heq.2.symm

theorem received_eq_zero {t a : Address} (h : ∀ x ∈ ts, x.token = t → x.dst ≠ a) :
    received t a ts = 0 := by
  unfold received
  refine List.sum_eq_zero fun v hv => ?_
  obtain ⟨x, hx, rfl⟩ := List.mem_map.mp hv
  exact if_neg fun heq => h x hx heq.1.symm heq.2.symm

theorem received_nonneg {t a : Address} (h : ∀ x ∈ ts, 0 < x.amount.val) : 0 ≤ received t a ts := by
  unfold received
  refine List.sum_nonneg fun v hv => ?_
  obtain ⟨x, hx, rfl⟩ := List.mem_map.mp hv
  split
  · exact (h x hx).le
  · exact le_rfl

theorem sent_pos {a : Address} {x : Transfer} (h : ∀ x ∈ ts, 0 < x.amount.val) (hx : x ∈ ts)
    (hsrc : x.src = a) : 0 < sent x.token a ts := by
  let f := fun y : Transfer => if x.token = y.token ∧ a = y.src then y.amount.val else 0
  have hle : f x ≤ sent x.token a ts := by
    refine List.single_le_sum (fun v hv => ?_) _ (List.mem_map_of_mem hx)
    obtain ⟨y, hy, rfl⟩ := List.mem_map.mp hv
    split
    · exact (h y hy).le
    · exact le_rfl
  have hf : f x = x.amount.val := if_pos ⟨rfl, hsrc.symm⟩
  exact (hf ▸ h x hx).trans_le hle

/-- The transfers have been issued, and carried out. -/
structure Moved (b b' : Books) (ts : List Transfer) : Prop where
  transfers : b'.transfers = b.transfers ++ ts
  balance : ∀ t a, (b'.balance t a).val = (b.balance t a).val - sent t a ts + received t a ts

theorem Moved.refl (b : Books) : Moved b b [] :=
  ⟨(List.append_nil _).symm, fun t a => by simp [sent, received]⟩

theorem Moved.trans (h : Moved b b₁ ts) (h' : Moved b₁ b' ts') : Moved b b' (ts ++ ts') := by
  refine ⟨by rw [h'.transfers, h.transfers, List.append_assoc], fun t a => ?_⟩
  rw [h'.balance, h.balance, sent_append, received_append]
  ring

/-- The balances of other tokens stay. -/
theorem Moved.balance_of_ne {t : Address} (h : Moved b b' ts) (ht : ∀ x ∈ ts, x.token ≠ t)
    (a : Address) : b'.balance t a = b.balance t a := by
  refine Ranged.ext ?_
  rw [h.balance, sent_eq_zero fun x hx heq => absurd heq (ht x hx),
    received_eq_zero fun x hx heq => absurd heq (ht x hx)]
  ring

/-- A payment after which the balance is short of it goes to another holder. -/
theorem Moved.outward {here : Address} (h : Moved b b' [⟨token, here, dst, amount⟩])
    (hpos : 0 < amount.val)
    (hpaid : (b'.balance token here).val = (b.balance token here).val - amount.val) : dst ≠ here := by
  rintro rfl
  have hkept := h.balance token dst
  rw [sent_singleton, received_singleton, if_pos ⟨rfl, rfl⟩, sub_add_cancel, hpaid] at hkept
  omega

theorem moved_of_transfer {x : Transfer} (h : transfer s x = .ok s') :
    Moved s.books s'.books [x] ∧ s'.books.settings = s.books.settings ∧
      s'.books.funds = s.books.funds := by
  simp only [transfer, bind_eq_ok, okOr_eq_ok, pure_eq_ok] at h
  obtain ⟨tokens, htokens, rfl⟩ := h
  refine ⟨⟨rfl, fun t a => ?_⟩, rfl, rfl⟩
  rw [sent_singleton, received_singleton]
  exact (Ledger.transfer_spec htokens).2.2 t a

/-! ### Settings -/

/-- What a call makes of the settings, with the checks it has passed. -/
inductive Setting (env : Env) (old : Settings) : Call → Settings → Prop where
  | initializeVault {owner token : Address} {maxLimit : I128} (hnone : old.owner = none)
      (hauth : env.authorized owner = true) (hpos : 0 < maxLimit.val) :
      Setting env old (.initializeVault owner token maxLimit)
        { old.setTokenApproved token true with
          owner := some owner
          token := some token
          maxLimit := some maxLimit
          ownerProposalTtl := some ownerProposalTtlSeconds }
  | setOperatorWithdrawLimit {caller : Address} {newLimit : I128} (howns : Owns env old caller)
      (hpos : 0 < newLimit.val) : Setting env old (.setOperatorWithdrawLimit caller newLimit)
        { old with operatorWithdrawLimit := some newLimit }
  | setLimit {caller : Address} {oldLimit newLimit : I128} (hmanages : Manages env old caller)
      (hpos : 0 < newLimit.val) (hold : old.maxLimit = some oldLimit)
      (hraise : newLimit ≤ oldLimit ∨ Owns env old caller) :
      Setting env old (.setLimit caller newLimit) { old with maxLimit := some newLimit }
  | setTokenMaxLimit {caller token : Address} {limit : I128} (hmanages : Manages env old caller)
      (hpos : 0 < limit.val) :
      Setting env old (.setTokenMaxLimit caller token limit) (old.setTokenMaxLimit token limit)
  | approveToken {caller token : Address} {approved : Bool} (howns : Owns env old caller) :
      Setting env old (.approveToken caller token approved) (old.setTokenApproved token approved)
  | setOperator {caller operator : Address} (howns : Owns env old caller) :
      Setting env old (.setOperator caller operator) { old with operator := some operator }
  | revokeOperator {caller : Address} (howns : Owns env old caller) :
      Setting env old (.revokeOperator caller) { old with operator := none }
  | proposeOwner {caller newOwner : Address} (howns : Owns env old caller) :
      Setting env old (.proposeOwner caller newOwner) { old with
        pendingOwner := some newOwner
        pendingOwnerProposer := some caller
        pendingOwnerProposedAt := some env.timestamp }
  | acceptOwner {caller proposer : Address} {proposedAt : U64}
      (hauth : env.authorized caller = true) (hpending : old.pendingOwner = some caller)
      (hproposer : old.pendingOwnerProposer = some proposer)
      (hproposedAt : old.pendingOwnerProposedAt = some proposedAt)
      (hvalid : env.timestamp.val <
        proposedAt.val + (old.ownerProposalTtl.getD ownerProposalTtlSeconds).val) :
      Setting env old (.acceptOwner caller) { old with
        owner := some caller
        pendingOwner := none
        pendingOwnerProposer := none
        pendingOwnerProposedAt := none }
  | setOwnerProposalTtl {caller : Address} {ttlSeconds : U64} (howns : Owns env old caller) :
      Setting env old (.setOwnerProposalTtl caller ttlSeconds)
        { old with ownerProposalTtl := some ttlSeconds }
  | initiateEmergencyMigration {caller destination : Address} {executableAt : U64}
      (howns : Owns env old caller)
      (hexecutable : executableAt.val = env.timestamp.val + emergencyMigrationTimelockSeconds.val) :
      Setting env old (.initiateEmergencyMigration caller destination) { old with
        emergencyMigration := some ⟨destination, env.timestamp, executableAt⟩ }
  | executeEmergencyMigration {caller : Address} {migration : EmergencyMigration}
      (howns : Owns env old caller) (hmigration : old.emergencyMigration = some migration)
      (hdue : migration.executableAt ≤ env.timestamp) :
      Setting env old (.executeEmergencyMigration caller) { old with emergencyMigration := none }
  | cancelEmergencyMigration {caller : Address} (howns : Owns env old caller) :
      Setting env old (.cancelEmergencyMigration caller) { old with emergencyMigration := none }
  /-- the other calls leave them as they are -/
  | kept {c : Call} (h : c.sets = false) : Setting env old c old

/-! ### Deposits -/

/-- The entry of an account after a deposit; one that would overflow is left as it is. -/
def Funds.credit (funds : Funds) (token account : Address) (amount : I128) : Funds :=
  match (funds.getTokenAccountBalance token account).checkedAdd amount with
  | some credited => funds.setTokenAccountBalance token account credited
  | none => funds

theorem Funds.credit_of {funds : Funds} {credited : I128}
    (h : (funds.getTokenAccountBalance token account).checkedAdd amount = some credited) :
    funds.credit token account amount = funds.setTokenAccountBalance token account credited := by
  unfold Funds.credit
  rw [h]

/-- The balance of the vault is recorded as it is. -/
def Books.recorded (env : Env) (token : Address) (funds : Funds) (b : Books) : Funds :=
  funds.recordVaultBalance env token (b.balance token env.contract)

/-- One account's deposit. -/
structure Deposited (env : Env) (src token : Address) (amount : I128) (b b' : Books) : Prop where
  manages : Manages env b.settings src
  positive : 0 < amount.val
  settings : b'.settings = b.settings
  moved : Moved b b' [⟨token, src, env.contract, amount⟩]
  funds : b'.funds = b'.recorded env token (b.funds.credit token src amount)

/-- The deposits of a batch: no account is credited. -/
structure BatchDeposited (env : Env) (token : Address) (deposits : List DepositSpec) (b b' : Books) :
    Prop where
  nonempty : deposits ≠ []
  authorized : ∀ d ∈ deposits, env.authorized d.src = true ∧ 0 < d.amount.val
  settings : b'.settings = b.settings
  moved : Moved b b' (deposits.map fun d => ⟨token, d.src, env.contract, d.amount⟩)
  funds : b'.funds = b'.recorded env token b.funds

/-- The token is the vault's own, and its balance within the limit. -/
def Limited (env : Env) (b b' : Books) (token : Address) : Prop :=
  b.settings.token = some token ∧
    ∃ max, b.settings.maxLimit = some max ∧ b'.balance token env.contract ≤ max

@[simp]
theorem books_setTokenAccountBalance (balance : I128) :
    (setTokenAccountBalance token account balance s).books =
      { s.books with funds := s.books.funds.setTokenAccountBalance token account balance } := by
  unfold setTokenAccountBalance trackVaultKey
  dsimp only
  split <;> rfl

@[simp]
theorem books_creditAccount : (creditAccount token account amount s).books =
    { s.books with funds := s.books.funds.credit token account amount } := by
  unfold creditAccount Funds.credit
  show State.books (match Ranged.checkedAdd (s.books.funds.getTokenAccountBalance token account)
    amount with | some credited => _ | none => _) = _
  cases Ranged.checkedAdd (s.books.funds.getTokenAccountBalance token account) amount with
  | none => rfl
  | some credited => exact books_setTokenAccountBalance credited

@[simp]
theorem books_recordVaultBalance (balance : I128) : (recordVaultBalance env token balance s).books =
    { s.books with funds := s.books.funds.recordVaultBalance env token balance } := rfl

/-- A transfer to the vault, the credit for it and the snapshot after it. -/
theorem deposited_of (hmanages : Manages env s.books.settings src) (hpos : ¬ amount.val ≤ 0)
    (htransfer : transfer s ⟨token, src, env.contract, amount⟩ = .ok s')
    (hb : b = { s'.books with
      funds := s'.books.recorded env token (s'.books.funds.credit token src amount) }) :
    Deposited env src token amount s.books b := by
  obtain ⟨hmoved, hsettings, hfunds⟩ := moved_of_transfer htransfer
  subst hb
  refine ⟨hmanages, not_le.mp hpos, hsettings, ⟨hmoved.transfers, hmoved.balance⟩, ?_⟩
  rw [hfunds]
  rfl

theorem deposit_spec (h : deposit env src amount s = .ok (reply, s')) :
    ∃ token, Deposited env src token amount s.books s'.books ∧
      Limited env s.books s'.books token := by
  obtain ⟨s₀, s₁, hs₀, h, hs₁⟩ := books_of_guarded h
  rw [hs₁, ← hs₀]
  simp only [bind_eq_ok, okOr_eq_ok, reject_eq_ok, pure_eq_ok, vaultBalance, exists_const,
    Prod.mk.injEq] at h
  obtain ⟨s₂, hpaused, owner, howner, u, hmanages, hpos, -, balance, -, token, htoken, -,
    max, hmax, expected, -, -, -, s₃, htransfer, hle, -, -, rfl⟩ := h
  rw [books_publish, books_recordVaultBalance, books_creditAccount,
    ← books_of_assertNotPaused hpaused]
  rw [requireOwnerOrOperator_eq_ok howner] at hmanages
  -- the limit is checked before the transfer and after it, and the second check says what is left
  exact ⟨token, deposited_of hmanages hpos htransfer rfl, htoken, max, hmax, Ranged.not_lt.mp hle⟩

theorem depositWithFee_spec {grossAmount feeAmount : I128}
    (h : depositWithFee env src grossAmount feeAmount s = .ok (reply, s')) :
    ∃ token netAmount, Deposited env src token netAmount s.books s'.books ∧
      Limited env s.books s'.books token := by
  simp only [depositWithFee, bind_eq_ok, pure_eq_ok, Prod.mk.injEq] at h
  obtain ⟨-, -, -, -, netAmount, -, ⟨r, s₁⟩, hdeposit, -, rfl⟩ := h
  obtain ⟨token, hdeposited, hlimited⟩ := deposit_spec hdeposit
  exact ⟨token, netAmount, hdeposited, hlimited⟩

theorem depositToken_spec (h : depositToken env src token amount s = .ok (reply, s')) :
    Deposited env src token amount s.books s'.books := by
  obtain ⟨s₀, s₁, hs₀, h, hs₁⟩ := books_of_guarded h
  rw [hs₁, ← hs₀]
  simp only [bind_eq_ok, okOr_eq_ok, reject_eq_ok, pure_eq_ok, exists_const, Prod.mk.injEq] at h
  obtain ⟨s₂, hpaused, owner, howner, u, hmanages, hpos, -, -, -, -, -, s₃, htransfer, expected, -, -,
    credited, hcredited, -, rfl⟩ := h
  rw [books_publish, books_setTokenAccountBalance, books_recordVaultBalance,
    ← books_of_assertNotPaused hpaused]
  rw [requireOwnerOrOperator_eq_ok howner] at hmanages
  have hcredited : (s₃.books.funds.getTokenAccountBalance token src).checkedAdd amount =
      some credited := hcredited
  refine deposited_of hmanages hpos htransfer ?_
  rw [Funds.credit_of hcredited]
  rfl

theorem depositWithFailureReport_spec
    (h : depositWithFailureReport env src amount s = .ok (reply, s')) :
    (reply = .settled false ∧ s'.books = s.books) ∨
    (reply = .settled true ∧ ∃ token, Deposited env src token amount s.books s'.books ∧
      Limited env s.books s'.books token) := by
  obtain ⟨s₀, s₁, hs₀, h, hs₁⟩ := books_of_guarded h
  rw [hs₁, ← hs₀]
  simp only [bind_eq_ok, okOr_eq_ok, reject_eq_ok, exists_const] at h
  obtain ⟨s₂, hpaused, owner, howner, u, hmanages, hpos, -, token, htoken, -, max, hmax, expected, -,
    hle, -, h⟩ := h
  rw [← books_of_assertNotPaused hpaused]
  rw [requireOwnerOrOperator_eq_ok howner] at hmanages
  split at h
  · -- the transfer fails, and the call goes through
    rw [pure_eq_ok, Prod.mk.injEq] at h
    obtain ⟨rfl, rfl⟩ := h
    exact .inl ⟨rfl, rfl⟩
  · rename_i s₃ htransfer
    simp only [bind_eq_ok, okOr_eq_ok, reject_eq_ok, pure_eq_ok, exists_const, Prod.mk.injEq] at h
    obtain ⟨hafter, credited, hcredited, rfl, rfl⟩ := h
    rw [books_publish, books_recordVaultBalance, books_setTokenAccountBalance]
    obtain rfl := not_not.mp hafter
    have hcredited : (s₃.books.funds.getTokenAccountBalance token src).checkedAdd amount =
        some credited := hcredited
    refine .inr ⟨rfl, token, deposited_of hmanages hpos htransfer ?_, htoken, max, hmax,
      Ranged.not_lt.mp hle⟩
    rw [Funds.credit_of hcredited]
    rfl

theorem takeDeposits_spec {deposits : List DepositSpec}
    (h : deposits.foldlM (takeDeposit env token) s = .ok s') :
    Moved s.books s'.books (deposits.map fun d => ⟨token, d.src, env.contract, d.amount⟩) ∧
      s'.books.settings = s.books.settings ∧ s'.books.funds = s.books.funds := by
  induction deposits generalizing s with
  | nil =>
      cases h
      exact ⟨.refl _, rfl, rfl⟩
  | cons d rest ih =>
      simp only [List.foldlM_cons, takeDeposit, bind_eq_ok, pure_eq_ok] at h
      obtain ⟨s₁, ⟨s₂, htransfer, rfl⟩, h⟩ := h
      obtain ⟨hmoved, hsettings, hfunds⟩ := moved_of_transfer htransfer
      obtain ⟨hrest, hsettings', hfunds'⟩ := ih h
      exact ⟨hmoved.trans hrest, hsettings'.trans hsettings, hfunds'.trans hfunds⟩

theorem batchDeposit_spec {deposits : List DepositSpec}
    (h : batchDeposit env deposits s = .ok (reply, s')) :
    ∃ token, BatchDeposited env token deposits s.books s'.books ∧
      Limited env s.books s'.books token := by
  obtain ⟨s₀, s₁, hs₀, h, hs₁⟩ := books_of_guarded h
  rw [hs₁, ← hs₀]
  simp only [bind_eq_ok, okOr_eq_ok, reject_eq_ok, pure_eq_ok, exists_const, Prod.mk.injEq] at h
  obtain ⟨s₂, hpaused, hne, -, -, max, hmax, total, htotal, balance, -, token, htoken, -, expected, -,
    -, -, s₃, htake, hle, -, -, rfl⟩ := h
  rw [books_recordVaultBalance, ← books_of_assertNotPaused hpaused]
  obtain ⟨hmoved, hsettings, hfunds⟩ := takeDeposits_spec htake
  refine ⟨token, ⟨hne, fun d hd => ?_, hsettings, ⟨hmoved.transfers, hmoved.balance⟩, ?_⟩, htoken, max,
    hmax, Ranged.not_lt.mp hle⟩
  · -- the first of the two loops has asked for every depositor's authorization
    obtain ⟨b₁, b₂, hturn⟩ := turn_of_foldlM htotal hd
    simp only [addDeposit, bind_eq_ok, reject_eq_ok, requireAuth_eq_ok, exists_const] at hturn
    exact ⟨hturn.2.2.1, not_le.mp hturn.1⟩
  · dsimp only
    rw [hfunds]
    rfl

/-! ### Withdrawals -/

/-- Payments of the vault's own token, in the name of the caller. -/
structure PaidOut (env : Env) (caller token : Address) (payouts : List (Address × I128))
    (b b' : Books) : Prop where
  own : b.settings.token = some token
  capped : Capped env b.settings caller (payouts.map fun p => p.2.val).sum
  outward : ∀ p ∈ payouts, p.1 ≠ env.contract ∧ 0 < p.2.val
  settings : b'.settings = b.settings
  moved : Moved b b' (payouts.map fun p => ⟨token, env.contract, p.1, p.2⟩)
  funds : b'.funds = b'.recorded env token b.funds

theorem addPayouts_spec {payouts : List (Address × I128)} {x : I128}
    (h : payouts.foldlM addPayout x = .ok total) :
    total.val = x.val + (payouts.map fun p => p.2.val).sum ∧ ∀ p ∈ payouts, 0 < p.2.val := by
  induction payouts generalizing x with
  | nil =>
      cases h
      simp
  | cons p rest ih =>
      simp only [List.foldlM_cons, addPayout, bind_eq_ok, reject_eq_ok, okOr_eq_ok, exists_const,
        Ranged.checkedAdd_eq_some] at h
      obtain ⟨y, ⟨hpos, hy⟩, h⟩ := h
      obtain ⟨htotal, hrest⟩ := ih h
      refine ⟨?_, List.forall_mem_cons.mpr ⟨not_le.mp hpos, hrest⟩⟩
      rw [htotal, hy, List.map_cons, List.sum_cons, add_assoc]

theorem recordVaultBalance_idem (funds : Funds) (x y : I128) :
    (funds.recordVaultBalance env token x).recordVaultBalance env token y =
      funds.recordVaultBalance env token y := by
  unfold Funds.recordVaultBalance
  simp only [Function.update_idem]

theorem payOut_spec {byOperator : Bool} {x y : I128 × State W} {p : Address × I128}
    (hown : x.2.books.settings.token = some token) (hx : x.1 = x.2.balance token env.contract)
    (hpos : 0 < p.2.val) (h : payOut env caller token byOperator x p = .ok y) :
    p.1 ≠ env.contract ∧ y.2.books.settings = x.2.books.settings ∧
      Moved x.2.books y.2.books [⟨token, env.contract, p.1, p.2⟩] ∧
      y.2.books.funds = y.2.books.recorded env token x.2.books.funds ∧
      y.1 = y.2.balance token env.contract := by
  simp only [payOut, vaultBalance, bind_eq_ok, okOr_eq_ok, reject_eq_ok, pure_eq_ok, not_not,
    exists_const, Ranged.checkedSub_eq_some] at h
  obtain ⟨expected, hexpected, s₁, htransfer, balance, ⟨token', htoken', hbalance⟩, heq, rfl⟩ := h
  obtain ⟨hmoved, hsettings, hfunds⟩ := moved_of_transfer htransfer
  obtain rfl : token' = token := by
    have htoken : s₁.books.settings.token = some token := hsettings ▸ hown
    exact Option.some.inj (htoken'.symm.trans htoken)
  subst heq
  refine ⟨?_, hsettings, ⟨hmoved.transfers, hmoved.balance⟩, ?_, hbalance.symm⟩
  · refine hmoved.outward hpos ?_
    rw [hx] at hexpected
    exact (congrArg Ranged.val hbalance).trans hexpected
  · rw [books_publish, books_recordVaultBalance]
    dsimp only
    rw [hfunds, ← hbalance]
    rfl

theorem payOuts_spec {byOperator : Bool} {payouts : List (Address × I128)} {x y : I128 × State W}
    (hown : x.2.books.settings.token = some token) (hx : x.1 = x.2.balance token env.contract)
    (hpos : ∀ p ∈ payouts, 0 < p.2.val)
    (h : payouts.foldlM (payOut env caller token byOperator) x = .ok y) :
    (∀ p ∈ payouts, p.1 ≠ env.contract) ∧ y.2.books.settings = x.2.books.settings ∧
      Moved x.2.books y.2.books (payouts.map fun p => ⟨token, env.contract, p.1, p.2⟩) ∧
      (payouts ≠ [] → y.2.books.funds = y.2.books.recorded env token x.2.books.funds) := by
  induction payouts generalizing x with
  | nil =>
      cases h
      exact ⟨fun p hp => absurd hp List.not_mem_nil, rfl, .refl _, fun h => absurd rfl h⟩
  | cons p rest ih =>
      rw [List.foldlM_cons, bind_eq_ok] at h
      obtain ⟨z, hz, h⟩ := h
      obtain ⟨hfirst, hrest⟩ := List.forall_mem_cons.mp hpos
      obtain ⟨hdst, hsettings, hmoved, hfunds, hbalance⟩ := payOut_spec hown hx hfirst hz
      obtain ⟨hdsts, hsettings', hmoved', hfunds'⟩ := ih (hsettings ▸ hown) hbalance hrest h
      refine ⟨List.forall_mem_cons.mpr ⟨hdst, hdsts⟩, hsettings'.trans hsettings,
        hmoved.trans hmoved', fun _ => ?_⟩
      rcases rest with _ | ⟨q, rest⟩
      · cases h
        exact hfunds
      · -- the last snapshot is the one that stays
        rw [hfunds' (List.cons_ne_nil _ _), hfunds]
        exact recordVaultBalance_idem _ _ _

theorem withdrawPayouts_spec {payouts : List (Address × I128)}
    (h : withdrawPayouts env caller payouts s = .ok (reply, s')) :
    ∃ token, PaidOut env caller token payouts s.books s'.books := by
  obtain ⟨s₀, s₁, hs₀, h, hs₁⟩ := books_of_guarded h
  rw [hs₁, ← hs₀]
  simp only [vaultBalance, bind_eq_ok, okOr_eq_ok, reject_eq_ok, pure_eq_ok, exists_const,
    Prod.mk.injEq] at h
  obtain ⟨s₂, hpaused, owner, howner, u, hmanages, hne, token, htoken, u', -, total, htotal, cap, hcap,
    hle, balance, ⟨token', htoken', hbalance⟩, -, y, hpay, -, rfl⟩ := h
  rw [← books_of_assertNotPaused hpaused]
  rw [requireOwnerOrOperator_eq_ok howner] at hmanages
  obtain rfl : token' = token := Option.some.inj (htoken'.symm.trans htoken)
  obtain ⟨hsum, hpos⟩ := addPayouts_spec htotal
  obtain ⟨hdsts, hsettings, hmoved, hfunds⟩ :=
    payOuts_spec (x := (balance, s₂)) htoken hbalance.symm hpos hpay
  refine ⟨token', htoken, ?_, fun p hp => ⟨hdsts p hp, hpos p hp⟩, hsettings, hmoved, hfunds hne⟩
  have hcapped := capped_of howner hmanages hcap hle
  rw [hsum] at hcapped
  rwa [← zero_add (payouts.map fun p => p.2.val).sum]

/-- The entry of an account after a withdrawal; one that is too small is left as it is. -/
def Funds.debit (funds : Funds) (token account : Address) (amount : I128) : Funds :=
  if amount ≤ funds.getTokenAccountBalance token account then
    match (funds.getTokenAccountBalance token account).checkedSub amount with
    | some debited => funds.setTokenAccountBalance token account debited
    | none => funds
  else funds

/-- A payment of any token, in the name of the caller. -/
structure Withdrawn (env : Env) (caller token dst : Address) (amount : I128) (b b' : Books) : Prop where
  capped : Capped env b.settings caller amount.val
  held : b.settings.owner = some caller ∨ amount ≤ b.funds.getTokenAccountBalance token caller
  outward : dst ≠ env.contract ∧ 0 < amount.val
  settings : b'.settings = b.settings
  moved : Moved b b' [⟨token, env.contract, dst, amount⟩]
  funds : b'.funds = b'.recorded env token (b.funds.debit token caller amount)

theorem Funds.debit_of {funds : Funds} {debited : I128}
    (hle : amount ≤ funds.getTokenAccountBalance token account)
    (h : (funds.getTokenAccountBalance token account).checkedSub amount = some debited) :
    funds.debit token account amount = funds.setTokenAccountBalance token account debited := by
  unfold Funds.debit
  rw [if_pos hle, h]

theorem books_of_debitAccount (h : debitAccount token account amount s = .ok s') :
    s'.books = { s.books with funds := s.books.funds.debit token account amount } := by
  unfold debitAccount at h
  dsimp only at h
  split at h
  · rename_i hle
    simp only [bind_eq_ok, okOr_eq_ok, pure_eq_ok] at h
    obtain ⟨debited, hdebited, rfl⟩ := h
    have hdebit : s.books.funds.debit token account amount = _ := Funds.debit_of hle hdebited
    rw [books_setTokenAccountBalance, hdebit]
  · rename_i hsmall
    cases h
    have hdebit : s.books.funds.debit token account amount = s.books.funds := if_neg hsmall
    rw [hdebit]

theorem withdrawToken_spec (h : withdrawToken env caller token dst amount s = .ok (reply, s')) :
    Withdrawn env caller token dst amount s.books s'.books := by
  obtain ⟨s₀, s₁, hs₀, h, hs₁⟩ := books_of_guarded h
  rw [hs₁, ← hs₀]
  simp only [bind_eq_ok, okOr_eq_ok, reject_eq_ok, pure_eq_ok, exists_const, Prod.mk.injEq] at h
  obtain ⟨s₂, hpaused, owner, howner, u, hmanages, hpos, cap, hcap, hle, -, hheld, s₃, htransfer, s₄,
    hdebit, expected, hexpected, hafter, -, rfl⟩ := h
  rw [books_publish, books_recordVaultBalance, ← books_of_assertNotPaused hpaused]
  rw [requireOwnerOrOperator_eq_ok howner] at hmanages
  obtain ⟨hmoved, hsettings, hfunds⟩ := moved_of_transfer htransfer
  have hbooks := books_of_debitAccount hdebit
  have hbalance : s₄.balance token env.contract = s₃.books.balance token env.contract :=
    congrArg (·.balance token env.contract) hbooks
  rw [hbooks, hfunds, hbalance]
  rw [hbalance, not_not] at hafter
  subst hafter
  refine ⟨capped_of howner hmanages hcap hle, ?_, ⟨?_, not_le.mp hpos⟩, hsettings,
    ⟨hmoved.transfers, hmoved.balance⟩, ?_⟩
  · by_cases hcaller : caller = owner
    · exact .inl (hcaller ▸ howner)
    · exact .inr (Ranged.not_lt.mp fun hlt => hheld ⟨hcaller, hlt⟩)
  · exact hmoved.outward (not_le.mp hpos) (Ranged.checkedSub_eq_some.mp hexpected)
  · rfl

/-! ### Streams and the migration -/

/-- No holder named `here` has less of a token than before, and nothing else has changed. -/
structure Visited (here : Address) (b b' : Books) : Prop where
  spares : Ledger.Spares here b.tokens b'.tokens
  rest : b' = { b with tokens := b'.tokens }

theorem Visited.refl (here : Address) (b : Books) : Visited here b b := ⟨fun _ => le_rfl, rfl⟩

theorem Visited.trans {here : Address} (h : Visited here b b₁) (h' : Visited here b₁ b') :
    Visited here b b' := by
  refine ⟨fun t => (h.spares t).trans (h'.spares t), ?_⟩
  have hrest := h'.rest
  rw [h.rest] at hrest
  exact hrest

theorem visited_of_callStream {α : Type} {stream here : Address} {f : Visit W α} {a : α}
    (hf : ∀ w l a w' l', f (w, l) = some (a, w', l') → Ledger.Spares here l l')
    (h : callStream env stream f s = .ok (a, s')) : Visited here s.books s'.books := by
  simp only [callStream, bind_eq_ok, okOr_eq_ok, pure_eq_ok, Prod.mk.injEq] at h
  obtain ⟨-, -, ⟨a', w, l⟩, hcall, rfl, rfl⟩ := h
  exact ⟨hf _ _ _ _ _ hcall, rfl⟩

theorem visited_of_collect {here stream recipient : Address} {x y : Collected W}
    (hstreams : streams.Spares here) (h : collect streams env recipient x stream = .ok y) :
    Visited here x.state.books y.state.books := by
  simp only [collect, bind_eq_ok, reject_eq_ok, exists_const] at h
  obtain ⟨-, ⟨a, s₁⟩, hrecipient, -, ⟨amount, s₂⟩, hwithdrawable, -, h⟩ := h
  have hvisited := (visited_of_callStream (hstreams.recipient env stream) hrecipient).trans
    (visited_of_callStream (hstreams.withdrawable env stream) hwithdrawable)
  -- a stream with nothing to withdraw is seen, and left out of the payouts
  dsimp only at h
  split at h
  · rw [pure_eq_ok] at h
    exact h ▸ hvisited
  · simp only [bind_eq_ok, pure_eq_ok] at h
    obtain ⟨total, -, rfl⟩ := h
    exact hvisited

theorem vaultBatchWithdraw_spec {streamIds : List Address} {recipient here : Address}
    (hstreams : streams.Spares here)
    (h : vaultBatchWithdraw streams env streamIds recipient s = .ok (reply, s')) :
    Visited here s.books s'.books := by
  simp only [vaultBatchWithdraw, bind_eq_ok, reject_eq_ok, exists_const] at h
  obtain ⟨-, s₀, hpaused, h⟩ := h
  rw [← books_of_assertNotPaused hpaused]
  obtain ⟨s₁, s₂, hs₁, h, hs₂⟩ := books_of_guarded h
  rw [← hs₁, hs₂]
  simp only [bind_eq_ok, pure_eq_ok, Prod.mk.injEq] at h
  obtain ⟨x, hcollect, s₃, hwithdraw, -, rfl⟩ := h
  have hx : Visited here s₁.books x.state.books :=
    foldlM_invariant (P := fun x => Visited here s₁.books x.state.books)
      (fun stream _ y z hz hy => hy.trans (visited_of_collect hstreams hz)) hcollect (.refl here _)
  refine foldlM_invariant (P := fun s => Visited here s₁.books s.books) ?_ hwithdraw hx
  intro p _ y z hz hy
  simp only [withdrawStream, bind_eq_ok, pure_eq_ok] at hz
  obtain ⟨⟨u, s₄⟩, hcall, rfl⟩ := hz
  exact hy.trans (visited_of_callStream (hstreams.withdraw env p.1 p.2) hcall)

/-- The migration of all the vault has of its own token. -/
structure Migrated (env : Env) (caller : Address) (b b' : Books) : Prop where
  funds : b'.funds = b.funds
  moved : ∃ token migration, b.settings.token = some token ∧
    b.settings.emergencyMigration = some migration ∧
    Moved b b' (if 0 < (b.balance token env.contract).val then
      [⟨token, env.contract, migration.destination, b.balance token env.contract⟩] else [])

theorem executeEmergencyMigration_spec
    (h : executeEmergencyMigration env caller s = .ok (reply, s')) :
    Setting env s.books.settings (.executeEmergencyMigration caller) s'.books.settings ∧
      Migrated env caller s.books s'.books := by
  obtain ⟨s₀, s₁, hs₀, h, hs₁⟩ := books_of_guarded h
  rw [hs₁, ← hs₀]
  simp only [requireOwner_eq_ok, bind_eq_ok, okOr_eq_ok, reject_eq_ok, pure_eq_ok, exists_const,
    Prod.mk.injEq] at h
  obtain ⟨howns, migration, hmigration, hdue, token, htoken, s₂, htransfer, -, rfl⟩ := h
  have hmoved : Moved s₀.books s₂.books (if 0 < (s₀.balance token env.contract).val then
      [⟨token, env.contract, migration.destination, s₀.balance token env.contract⟩] else []) ∧
      s₂.books.settings = s₀.books.settings ∧ s₂.books.funds = s₀.books.funds := by
    unfold transferPositive at htransfer
    split at htransfer
    · rename_i hpos
      rw [if_pos hpos]
      exact moved_of_transfer htransfer
    · -- a vault that has nothing issues no transfer
      rename_i hzero
      rw [if_neg hzero]
      cases htransfer
      exact ⟨.refl _, rfl, rfl⟩
  obtain ⟨hmoved, hsettings, hfunds⟩ := hmoved
  rw [books_publish]
  constructor
  · show Setting _ _ _ { s₂.books.settings with emergencyMigration := none }
    rw [hsettings]
    exact .executeEmergencyMigration howns hmigration (Ranged.not_lt.mp hdue)
  · exact ⟨hfunds, token, migration, htoken, hmigration, hmoved.transfers, hmoved.balance⟩

/-! ### The other tokens -/

section

variable {t : Address}

theorem Deposited.balance_of_ne (h : Deposited env src token amount b b') (ht : t ≠ token) (a : Address) :
    b'.balance t a = b.balance t a := by
  refine h.moved.balance_of_ne (fun x hx => ?_) a
  obtain rfl := List.mem_singleton.mp hx
  exact ht.symm

theorem BatchDeposited.balance_of_ne {deposits : List DepositSpec}
    (h : BatchDeposited env token deposits b b') (ht : t ≠ token) (a : Address) :
    b'.balance t a = b.balance t a := by
  refine h.moved.balance_of_ne (fun x hx => ?_) a
  obtain ⟨d, -, rfl⟩ := List.mem_map.mp hx
  exact ht.symm

theorem PaidOut.balance_of_ne {payouts : List (Address × I128)}
    (h : PaidOut env caller token payouts b b') (ht : t ≠ token) (a : Address) :
    b'.balance t a = b.balance t a := by
  refine h.moved.balance_of_ne (fun x hx => ?_) a
  obtain ⟨p, -, rfl⟩ := List.mem_map.mp hx
  exact ht.symm

theorem Withdrawn.balance_of_ne (h : Withdrawn env caller token dst amount b b') (ht : t ≠ token)
    (a : Address) : b'.balance t a = b.balance t a := by
  refine h.moved.balance_of_ne (fun x hx => ?_) a
  obtain rfl := List.mem_singleton.mp hx
  exact ht.symm

/-- A migration leaves nothing of the vault's own token, unless it goes to the vault itself. -/
theorem Migrated.balance (h : Migrated env caller b b') :
    ∃ token migration, b.settings.token = some token ∧
      b.settings.emergencyMigration = some migration ∧
      (∀ t ≠ token, b'.balance t env.contract = b.balance t env.contract) ∧
      (b'.balance token env.contract).val =
        if migration.destination = env.contract then (b.balance token env.contract).val else 0 := by
  obtain ⟨token, migration, htoken, hmigration, hmoved⟩ := h.moved
  have hnonneg : 0 ≤ (b.balance token env.contract).val := (b.tokens.balance token env.contract).ge
  refine ⟨token, migration, htoken, hmigration, fun t ht => ?_, ?_⟩
  · refine hmoved.balance_of_ne (fun x hx => ?_) _
    split at hx
    · obtain rfl := List.mem_singleton.mp hx
      exact ht.symm
    · cases hx
  · rw [hmoved.balance]
    by_cases hpos : 0 < (b.balance token env.contract).val
    · rw [if_pos hpos, sent_singleton, received_singleton, if_pos ⟨rfl, rfl⟩, sub_self, zero_add]
      exact if_congr (and_iff_right rfl |>.trans eq_comm) rfl rfl
    · have hzero : (b.balance token env.contract).val = 0 := le_antisymm (not_lt.mp hpos) hnonneg
      rw [if_neg hpos, hzero, ite_self]
      rfl

end

/-! ### Every call -/

@[simp]
theorem books_trackVaultKey (key : TrackedKey) : (trackVaultKey key s).books = s.books := by
  unfold trackVaultKey
  dsimp only
  split <;> rfl

theorem authorizeLimit_spec {oldLimit newLimit : I128} {u : Unit}
    (howner : s.books.settings.owner = some owner)
    (h : authorizeLimit env caller owner oldLimit newLimit s = .ok u) :
    Manages env s.books.settings caller ∧ (newLimit ≤ oldLimit ∨ Owns env s.books.settings caller) := by
  unfold authorizeLimit at h
  split at h
  · simp only [bind_eq_ok, reject_eq_ok, requireAuth_eq_ok, not_not, exists_const] at h
    obtain ⟨rfl, hauth⟩ := h
    exact ⟨⟨.inl howner, hauth⟩, .inr ⟨howner, hauth⟩⟩
  · rename_i hlower
    rw [requireOwnerOrOperator_eq_ok howner] at h
    exact ⟨h, .inl (Ranged.not_lt.mp hlower)⟩

/-- The calls that move no tokens. -/
def Call.still : Call → Bool
  | .deposit _ _ | .depositWithFee _ _ _ | .batchDeposit _ | .withdraw _ _ _ | .withdrawBatch _ _
  | .vaultBatchWithdraw _ _ | .depositToken _ _ _ | .withdrawToken _ _ _ _
  | .depositWithFailureReport _ _ | .executeEmergencyMigration _ => false
  | _ => true

/-- What a call does to the accounts, the tokens and the transfers. -/
inductive Flow (env : Env) (b : Books) : Call → Reply → Books → Prop where
  | deposit {src token : Address} {amount : I128} {reply : Reply} {b' : Books}
      (h : Deposited env src token amount b b') (hlimit : Limited env b b' token) :
      Flow env b (.deposit src amount) reply b'
  | depositWithFee {src token : Address} {grossAmount feeAmount netAmount : I128} {reply : Reply}
      {b' : Books} (h : Deposited env src token netAmount b b') (hlimit : Limited env b b' token) :
      Flow env b (.depositWithFee src grossAmount feeAmount) reply b'
  | batchDeposit {deposits : List DepositSpec} {token : Address} {reply : Reply} {b' : Books}
      (h : BatchDeposited env token deposits b b') (hlimit : Limited env b b' token) :
      Flow env b (.batchDeposit deposits) reply b'
  | depositToken {src token : Address} {amount : I128} {reply : Reply} {b' : Books}
      (h : Deposited env src token amount b b') : Flow env b (.depositToken src token amount) reply b'
  | reported {src token : Address} {amount : I128} {b' : Books}
      (h : Deposited env src token amount b b') (hlimit : Limited env b b' token) :
      Flow env b (.depositWithFailureReport src amount) (.settled true) b'
  | unsettled {src : Address} {amount : I128} :
      Flow env b (.depositWithFailureReport src amount) (.settled false) b
  | withdraw {caller dst token : Address} {amount : I128} {reply : Reply} {b' : Books}
      (h : PaidOut env caller token [(dst, amount)] b b') :
      Flow env b (.withdraw caller dst amount) reply b'
  | withdrawBatch {caller token : Address} {payouts : List (Address × I128)} {reply : Reply}
      {b' : Books} (h : PaidOut env caller token payouts b b') :
      Flow env b (.withdrawBatch caller payouts) reply b'
  | withdrawToken {caller token dst : Address} {amount : I128} {reply : Reply} {b' : Books}
      (h : Withdrawn env caller token dst amount b b') :
      Flow env b (.withdrawToken caller token dst amount) reply b'
  | vaultBatchWithdraw {streamIds : List Address} {recipient : Address} {reply : Reply} {b' : Books}
      (h : Visited env.contract b b') : Flow env b (.vaultBatchWithdraw streamIds recipient) reply b'
  | executeEmergencyMigration {caller : Address} {reply : Reply} {b' : Books}
      (h : Migrated env caller b b') : Flow env b (.executeEmergencyMigration caller) reply b'
  | still {c : Call} {reply : Reply} {b' : Books} (hc : c.still = true)
      (h : b' = { b with settings := b'.settings }) : Flow env b c reply b'

structure Effect (env : Env) (b : Books) (c : Call) (reply : Reply) (b' : Books) : Prop where
  setting : Setting env b.settings c b'.settings
  flow : Flow env b c reply b'

/-- A call that only writes the settings. -/
theorem effect_of_setting (hc : c.still = true) (h : Setting env b.settings c settings) :
    Effect env b c reply { b with settings := settings } := ⟨h, .still hc rfl⟩

theorem effect_of_kept (hc : c.sets = false) (hstill : c.still = true) : Effect env b c reply b :=
  ⟨.kept hc, .still hstill rfl⟩

theorem effect_of_exec (hstreams : streams.Spares env.contract)
    (h : exec streams env s c = .ok (reply, s')) : Effect env s.books c reply s'.books := by
  cases c with
  -- the setup
  | initializeVault owner token maxLimit =>
      simp only [exec, initializeVault, bind_eq_ok, requireAuth_eq_ok, reject_eq_ok, pure_eq_ok,
        exists_const, Prod.mk.injEq] at h
      obtain ⟨hauth, hpos, -, -, hnone, -, rfl⟩ := h
      exact effect_of_setting rfl (.initializeVault (Option.not_isSome_iff_eq_none.mp hnone) hauth
        (not_le.mp hpos))
  -- the calls that move tokens have a specification each, and leave the settings alone
  | deposit src amount =>
      obtain ⟨token, hdeposited, hlimited⟩ := deposit_spec h
      exact ⟨hdeposited.settings ▸ .kept rfl, .deposit hdeposited hlimited⟩
  | depositWithFee src grossAmount feeAmount =>
      obtain ⟨token, netAmount, hdeposited, hlimited⟩ := depositWithFee_spec h
      exact ⟨hdeposited.settings ▸ .kept rfl, .depositWithFee hdeposited hlimited⟩
  | batchDeposit deposits =>
      obtain ⟨token, hdeposited, hlimited⟩ := batchDeposit_spec h
      exact ⟨hdeposited.settings ▸ .kept rfl, .batchDeposit hdeposited hlimited⟩
  | withdraw caller dst amount =>
      obtain ⟨token, hpaid⟩ := withdrawPayouts_spec h
      exact ⟨hpaid.settings ▸ .kept rfl, .withdraw hpaid⟩
  | withdrawBatch caller payouts =>
      obtain ⟨token, hpaid⟩ := withdrawPayouts_spec h
      exact ⟨hpaid.settings ▸ .kept rfl, .withdrawBatch hpaid⟩
  | vaultBatchWithdraw streamIds recipient =>
      have hvisited := vaultBatchWithdraw_spec hstreams h
      have hsettings : s'.books.settings = s.books.settings := by rw [hvisited.rest]
      exact ⟨hsettings ▸ .kept rfl, .vaultBatchWithdraw hvisited⟩
  | depositToken src token amount =>
      have hdeposited := depositToken_spec h
      exact ⟨hdeposited.settings ▸ .kept rfl, .depositToken hdeposited⟩
  | withdrawToken caller token dst amount =>
      have hwithdrawn := withdrawToken_spec h
      exact ⟨hwithdrawn.settings ▸ .kept rfl, .withdrawToken hwithdrawn⟩
  | depositWithFailureReport src amount =>
      rcases depositWithFailureReport_spec h with ⟨rfl, hbooks⟩ | ⟨rfl, token, hdeposited, hlimited⟩
      · rw [hbooks]
        exact ⟨.kept rfl, .unsettled⟩
      · exact ⟨hdeposited.settings ▸ .kept rfl, .reported hdeposited hlimited⟩
  | executeEmergencyMigration caller =>
      obtain ⟨hsetting, hmigrated⟩ := executeEmergencyMigration_spec h
      exact ⟨hsetting, .executeEmergencyMigration hmigrated⟩
  -- the calls that write one of the settings, and move nothing
  | setOperatorWithdrawLimit caller newLimit =>
      simp only [exec, setOperatorWithdrawLimit, bind_eq_ok, requireOwner_eq_ok, reject_eq_ok,
        pure_eq_ok, exists_const, Prod.mk.injEq] at h
      obtain ⟨s₁, hpaused, howns, hpos, -, rfl⟩ := h
      rw [← books_of_assertNotPaused hpaused]
      exact effect_of_setting rfl (.setOperatorWithdrawLimit howns (not_le.mp hpos))
  | setLimit caller newLimit =>
      simp only [exec, setLimit, bind_eq_ok, okOr_eq_ok, reject_eq_ok, pure_eq_ok, exists_const,
        Prod.mk.injEq] at h
      obtain ⟨s₁, hpaused, owner, howner, hpos, -, -, -, oldLimit, hold, u, hauth, -, rfl⟩ := h
      rw [← books_of_assertNotPaused hpaused]
      obtain ⟨hmanages, hraise⟩ := authorizeLimit_spec howner hauth
      exact effect_of_setting rfl (.setLimit hmanages (not_le.mp hpos) hold hraise)
  | setTokenMaxLimit caller token limit =>
      simp only [exec, setTokenMaxLimit, bind_eq_ok, okOr_eq_ok, reject_eq_ok, pure_eq_ok,
        exists_const, Prod.mk.injEq] at h
      obtain ⟨s₁, hpaused, owner, howner, u, hmanages, hpos, -, rfl⟩ := h
      rw [books_trackVaultKey, ← books_of_assertNotPaused hpaused]
      rw [requireOwnerOrOperator_eq_ok howner] at hmanages
      exact effect_of_setting rfl (.setTokenMaxLimit hmanages (not_le.mp hpos))
  | approveToken caller token approved =>
      simp only [exec, approveToken, bind_eq_ok, requireOwner_eq_ok, reject_eq_ok, pure_eq_ok,
        exists_const, Prod.mk.injEq] at h
      obtain ⟨howns, -, -, rfl⟩ := h
      exact effect_of_setting rfl (.approveToken howns)
  | setOperator caller operator =>
      simp only [exec, setOperator, bind_eq_ok, requireOwner_eq_ok, pure_eq_ok, exists_const,
        Prod.mk.injEq] at h
      obtain ⟨howns, -, rfl⟩ := h
      exact effect_of_setting rfl (.setOperator howns)
  | revokeOperator caller =>
      simp only [exec, revokeOperator, bind_eq_ok, requireOwner_eq_ok, pure_eq_ok, exists_const,
        Prod.mk.injEq] at h
      obtain ⟨howns, -, rfl⟩ := h
      exact effect_of_setting rfl (.revokeOperator howns)
  | proposeOwner caller newOwner =>
      simp only [exec, proposeOwner, bind_eq_ok, requireOwner_eq_ok, reject_eq_ok, pure_eq_ok,
        exists_const, Prod.mk.injEq] at h
      obtain ⟨howns, -, -, rfl⟩ := h
      exact effect_of_setting rfl (.proposeOwner howns)
  | acceptOwner caller =>
      simp only [exec, acceptOwner, bind_eq_ok, okOr_eq_ok, requireAuth_eq_ok, reject_eq_ok, pure_eq_ok,
        exists_const, Ranged.checkedAdd_eq_some, Prod.mk.injEq, not_not] at h
      obtain ⟨pending, hpending, rfl, hauth, proposedAt, hproposedAt, expiresAt, hexpires, hvalid,
        proposer, hproposer, -, rfl⟩ := h
      exact effect_of_setting rfl
        (.acceptOwner hauth hpending hproposer hproposedAt (hexpires ▸ not_le.mp hvalid))
  | setOwnerProposalTtl caller ttlSeconds =>
      simp only [exec, setOwnerProposalTtl, bind_eq_ok, requireOwner_eq_ok, reject_eq_ok, pure_eq_ok,
        exists_const, Prod.mk.injEq] at h
      obtain ⟨howns, -, -, rfl⟩ := h
      exact effect_of_setting rfl (.setOwnerProposalTtl howns)
  | effectiveWithdrawLimit caller =>
      simp only [exec, effectiveWithdrawLimit, bind_eq_ok, pure_eq_ok, Prod.mk.injEq] at h
      obtain ⟨s₁, hpaused, -, -, -, -, -, -, -, rfl⟩ := h
      rw [books_of_assertNotPaused hpaused]
      exact effect_of_kept rfl rfl
  | pause caller =>
      simp only [exec, pause, bind_eq_ok, pure_eq_ok, Prod.mk.injEq] at h
      obtain ⟨-, -, -, -, s₁, hset, -, rfl⟩ := h
      rw [books_publish, books_of_setPaused hset]
      exact effect_of_kept rfl rfl
  | unpause caller =>
      simp only [exec, unpause, bind_eq_ok, pure_eq_ok, Prod.mk.injEq] at h
      obtain ⟨-, -, -, -, s₁, hset, -, rfl⟩ := h
      rw [books_publish, books_of_setPaused hset]
      exact effect_of_kept rfl rfl
  | keepAlive =>
      cases h
      exact effect_of_kept rfl rfl
  | isPaused =>
      cases h
      exact effect_of_kept rfl rfl
  | upgrade caller newWasmHash =>
      simp only [exec, upgrade, bind_eq_ok, pure_eq_ok, Prod.mk.injEq] at h
      obtain ⟨-, -, s₁, hpaused, -, -, -, rfl⟩ := h
      rw [books_publish, books_of_assertNotPaused hpaused]
      exact effect_of_kept rfl rfl
  | bumpAllVaultKeys =>
      simp only [exec, bumpAllVaultKeys, bind_eq_ok, pure_eq_ok, Prod.mk.injEq] at h
      obtain ⟨-, -, count, -, -, rfl⟩ := h
      exact effect_of_kept rfl rfl
  | initiateEmergencyMigration caller destination =>
      simp only [exec, initiateEmergencyMigration, bind_eq_ok, okOr_eq_ok, requireOwner_eq_ok,
        reject_eq_ok, pure_eq_ok, exists_const, Ranged.checkedAdd_eq_some, Prod.mk.injEq] at h
      obtain ⟨howns, -, executableAt, hexecutable, -, rfl⟩ := h
      exact effect_of_setting rfl (.initiateEmergencyMigration howns hexecutable)
  | cancelEmergencyMigration caller =>
      simp only [exec, cancelEmergencyMigration, bind_eq_ok, requireOwner_eq_ok, pure_eq_ok,
        exists_const, Prod.mk.injEq] at h
      obtain ⟨howns, -, -, -, rfl⟩ := h
      exact effect_of_setting rfl (.cancelEmergencyMigration howns)

end Drip.Vault
