import Drip.Support.Indexed
import Drip.Vault.Effects

/-!
# Vault — Tracking

The persistent entries of the vault, and the index of their keys from which `bump_all_vault_keys` renews
them.

* `entries_of_exec`: the entries that each call writes (`Call.puts`).
* `world_of_exec`: only `vault_batch_withdraw` reaches the streams.
* `tracks_of_reachable`: the index lists the entries, each once.
-/

namespace Drip.Vault
open Chain

variable {W : Type} {streams : Streams W} {env : Env} {s s' : State W} {c : Call} {reply : Reply}
variable {token account caller here : Address} {amount : I128} {m : Moment W}

/-! ### Entries -/

/-- The entry under a key, out of the balances and the limits. -/
def TrackedKey.value (balances : Address → Address → Option I128) (limits : Address → Option I128) :
    TrackedKey → Option I128
  | .tokenAccountBalance token account => balances token account
  | .tokenMaxLimit token => limits token

/-- The persistent entries of a vault and its `TrackedVaultKeys`. -/
def State.entries (s : State W) : Entries TrackedKey I128 where
  value := TrackedKey.value s.store.funds.tokenAccountBalance s.store.settings.tokenMaxLimit
  index := s.store.trackedVaultKeys.getD []

/-- What a deposit writes. -/
def credits (e : Entries TrackedKey I128) (token account : Address) (amount : I128) :
    List (TrackedKey × I128) :=
  match ((e.value (.tokenAccountBalance token account)).getD (.lit 0)).checkedAdd amount with
  | some credited => [(.tokenAccountBalance token account, credited)]
  | none => []

/-- What a withdrawal writes. -/
def debits (e : Entries TrackedKey I128) (token account : Address) (amount : I128) :
    List (TrackedKey × I128) :=
  let held := (e.value (.tokenAccountBalance token account)).getD (.lit 0)
  if amount ≤ held then
    match held.checkedSub amount with
    | some debited => [(.tokenAccountBalance token account, debited)]
    | none => []
  else []

/-- What a deposit of the vault's own token writes. -/
def State.ownCredits (s : State W) (account : Address) (amount : I128) : List (TrackedKey × I128) :=
  match s.store.settings.token with
  | some token => credits s.entries token account amount
  | none => []

/-- The entries that a successful call writes. -/
def Call.puts (c : Call) (s : State W) (reply : Reply) : List (TrackedKey × I128) :=
  match c with
  | .deposit src amount => s.ownCredits src amount
  | .depositWithFee src grossAmount feeAmount =>
      match grossAmount.checkedSub feeAmount with
      | some netAmount => s.ownCredits src netAmount
      | none => []
  | .depositToken src token amount => credits s.entries token src amount
  | .depositWithFailureReport src amount => if reply = .settled true then s.ownCredits src amount else []
  | .withdrawToken caller token _ amount => debits s.entries token caller amount
  | .setTokenMaxLimit _ token limit => [(.tokenMaxLimit token, limit)]
  | _ => []

/-! ### What is beside the tokens -/

/-- The settings, the entries and the streams. -/
structure Rest (W : Type) where
  settings : Settings
  entries : Entries TrackedKey I128
  world : W

def State.rest (s : State W) : Rest W := ⟨s.store.settings, s.entries, s.world⟩

/-- Entries written. -/
def Rest.puts (r : Rest W) (ps : List (TrackedKey × I128)) : Rest W := { r with entries := r.entries.puts ps }

@[simp]
theorem rest_publish (e : Event) : (s.publish e).rest = s.rest := rfl

@[simp]
theorem rest_recordVaultBalance (balance : I128) : (recordVaultBalance env token balance s).rest = s.rest := rfl

theorem rest_trackVaultKey (key : TrackedKey) : (trackVaultKey key s).rest = { s.rest with
    entries := ⟨s.entries.value, if key ∈ s.entries.index then s.entries.index else s.entries.index ++ [key]⟩ } := by
  unfold trackVaultKey
  dsimp only
  split
  · rename_i hin
    have hin : key ∈ s.entries.index := hin
    rw [if_pos hin]
    rfl
  · rename_i hnew
    have hnew : key ∉ s.entries.index := hnew
    rw [if_neg hnew]
    rfl

theorem value_setTokenAccountBalance (funds : Funds) (limits : Address → Option I128) (balance : I128) :
    TrackedKey.value (funds.setTokenAccountBalance token account balance).tokenAccountBalance limits =
      Function.update (TrackedKey.value funds.tokenAccountBalance limits) (.tokenAccountBalance token account)
        (some balance) := by
  funext key
  cases key with
  | tokenMaxLimit t =>
      rw [Function.update_of_ne (fun h => by cases h)]
      rfl
  | tokenAccountBalance t a =>
      by_cases ht : t = token
      · subst ht
        by_cases ha : a = account
        · subst ha
          simp [TrackedKey.value, Funds.setTokenAccountBalance]
        · have hne : TrackedKey.tokenAccountBalance t a ≠ .tokenAccountBalance t account := by
            rintro ⟨⟩
            exact ha rfl
          rw [Function.update_of_ne hne]
          simp [TrackedKey.value, Funds.setTokenAccountBalance, ha]
      · have hne : TrackedKey.tokenAccountBalance t a ≠ .tokenAccountBalance token account := by
          rintro ⟨⟩
          exact ht rfl
        rw [Function.update_of_ne hne]
        simp [TrackedKey.value, Funds.setTokenAccountBalance, ht]

theorem value_setTokenMaxLimit (settings : Settings) (balances : Address → Address → Option I128)
    (limit : I128) : TrackedKey.value balances (settings.setTokenMaxLimit token limit).tokenMaxLimit =
      Function.update (TrackedKey.value balances settings.tokenMaxLimit) (.tokenMaxLimit token)
        (some limit) := by
  funext key
  cases key with
  | tokenAccountBalance t a =>
      rw [Function.update_of_ne (fun h => by cases h)]
      rfl
  | tokenMaxLimit t =>
      by_cases ht : t = token
      · subst ht
        simp [TrackedKey.value, Settings.setTokenMaxLimit]
      · have hne : TrackedKey.tokenMaxLimit t ≠ .tokenMaxLimit token := by
          rintro ⟨⟩
          exact ht rfl
        rw [Function.update_of_ne hne]
        simp [TrackedKey.value, Settings.setTokenMaxLimit, ht]

@[simp]
theorem rest_setTokenAccountBalance (balance : I128) :
    (setTokenAccountBalance token account balance s).rest =
      s.rest.puts [(.tokenAccountBalance token account, balance)] := by
  unfold setTokenAccountBalance
  rw [rest_trackVaultKey]
  unfold State.rest State.entries Rest.puts Entries.puts Entries.put
  dsimp only [State.withFunds, List.foldl]
  rw [value_setTokenAccountBalance]
  rfl

@[simp]
theorem rest_creditAccount : (creditAccount token account amount s).rest =
    s.rest.puts (credits s.rest.entries token account amount) := by
  unfold creditAccount credits
  show State.rest (match Ranged.checkedAdd (s.store.funds.getTokenAccountBalance token account) amount with
    | some credited => _ | none => _) = s.rest.puts (match Ranged.checkedAdd
      (s.store.funds.getTokenAccountBalance token account) amount with | some credited => _ | none => _)
  cases Ranged.checkedAdd (s.store.funds.getTokenAccountBalance token account) amount with
  | none => rfl
  | some credited => exact rest_setTokenAccountBalance credited

theorem rest_of_debitAccount (h : debitAccount token account amount s = .ok s') :
    s'.rest = s.rest.puts (debits s.rest.entries token account amount) := by
  unfold debitAccount at h
  dsimp only at h
  split at h
  · rename_i hle
    simp only [bind_eq_ok, okOr_eq_ok, pure_eq_ok] at h
    obtain ⟨debited, hdebited, rfl⟩ := h
    have hle : amount ≤ (s.rest.entries.value (.tokenAccountBalance token account)).getD (.lit 0) := hle
    have hdebited : ((s.rest.entries.value (.tokenAccountBalance token account)).getD (.lit 0)).checkedSub
        amount = some debited := hdebited
    unfold debits
    dsimp only
    rw [if_pos hle, hdebited]
    exact rest_setTokenAccountBalance debited
  · rename_i hsmall
    cases h
    have hsmall : ¬ amount ≤ (s.rest.entries.value (.tokenAccountBalance token account)).getD (.lit 0) := hsmall
    unfold debits
    dsimp only
    rw [if_neg hsmall]
    rfl

theorem rest_of_guarded {body : State W → Result (Reply × State W)}
    (h : nonReentrant body s = .ok (reply, s')) :
    ∃ s₀ s₁, s₀.rest = s.rest ∧ body s₀ = .ok (reply, s₁) ∧ s'.rest = s₁.rest := by
  simp only [nonReentrant, bind_eq_ok, pure_eq_ok] at h
  obtain ⟨-, -, ⟨r, s₁⟩, hbody, h⟩ := h
  obtain ⟨rfl, rfl⟩ := Prod.mk.inj h
  let s₀ : State W := { s with store := { s.store with reentrancyLock := some true } }
  exact ⟨s₀, s₁, rfl, hbody, rfl⟩

theorem rest_of_assertNotPaused (h : assertNotPaused env s = .ok s') : s'.rest = s.rest := by
  simp only [assertNotPaused, bind_eq_ok, pure_eq_ok] at h
  obtain ⟨-, -, rfl⟩ := h
  rfl

theorem rest_of_setPaused {paused : Bool} (h : setPaused env paused s = .ok s') : s'.rest = s.rest := by
  unfold setPaused at h
  split at h
  · cases h
    rfl
  · cases h
    rfl
  · cases h

theorem rest_of_transfer {t : Transfer} (h : transfer s t = .ok s') : s'.rest = s.rest := by
  simp only [transfer, bind_eq_ok, okOr_eq_ok, pure_eq_ok] at h
  obtain ⟨tokens, -, rfl⟩ := h
  rfl

/-! ### Deposits and withdrawals -/

theorem ownCredits_of {src : Address} (htoken : s.rest.settings.token = some token) :
    s.ownCredits src amount = credits s.rest.entries token src amount := by
  have htoken : s.store.settings.token = some token := htoken
  unfold State.ownCredits
  rw [htoken]
  rfl

theorem rest_of_deposit {src : Address} (h : deposit env src amount s = .ok (reply, s')) :
    s'.rest = s.rest.puts (s.ownCredits src amount) := by
  obtain ⟨s₀, s₁, hs₀, h, hs₁⟩ := rest_of_guarded h
  simp only [bind_eq_ok, okOr_eq_ok, reject_eq_ok, pure_eq_ok, vaultBalance, exists_const,
    Prod.mk.injEq] at h
  obtain ⟨s₂, hpaused, owner, -, u, -, -, -, balance, -, token, htoken, -, max, -, expected, -, -, -, s₃,
    htransfer, -, -, -, rfl⟩ := h
  have hs₂ : s₂.rest = s.rest := (rest_of_assertNotPaused hpaused).trans hs₀
  have htoken : s.rest.settings.token = some token := hs₂ ▸ htoken
  rw [hs₁, rest_publish, rest_recordVaultBalance, rest_creditAccount, rest_of_transfer htransfer, hs₂,
    ownCredits_of htoken]

theorem rest_of_batchDeposit {deposits : List DepositSpec}
    (h : batchDeposit env deposits s = .ok (reply, s')) : s'.rest = s.rest := by
  obtain ⟨s₀, s₁, hs₀, h, hs₁⟩ := rest_of_guarded h
  simp only [bind_eq_ok, okOr_eq_ok, reject_eq_ok, pure_eq_ok, exists_const, Prod.mk.injEq] at h
  obtain ⟨s₂, hpaused, -, owner, -, max, -, total, -, balance, -, token, -, -, expected, -, -, -, s₃,
    htake, -, -, -, rfl⟩ := h
  rw [hs₁, rest_recordVaultBalance, ← hs₀, ← rest_of_assertNotPaused hpaused]
  refine foldlM_invariant (P := fun s : State W => s.rest = s₂.rest) ?_ htake rfl
  intro d _ x y hturn hx
  simp only [takeDeposit, bind_eq_ok, pure_eq_ok] at hturn
  obtain ⟨z, htransfer, rfl⟩ := hturn
  exact (rest_of_transfer htransfer).trans hx

theorem rest_of_depositToken {src : Address} (h : depositToken env src token amount s = .ok (reply, s')) :
    s'.rest = s.rest.puts (credits s.rest.entries token src amount) := by
  obtain ⟨s₀, s₁, hs₀, h, hs₁⟩ := rest_of_guarded h
  simp only [bind_eq_ok, okOr_eq_ok, reject_eq_ok, pure_eq_ok, exists_const, Prod.mk.injEq] at h
  obtain ⟨s₂, hpaused, owner, -, u, -, -, -, -, -, -, -, s₃, htransfer, expected, -, -, credited,
    hcredited, -, rfl⟩ := h
  have hs₃ : s₃.rest = s.rest :=
    ((rest_of_transfer htransfer).trans (rest_of_assertNotPaused hpaused)).trans hs₀
  have hcredited : ((s₃.rest.entries.value (.tokenAccountBalance token src)).getD (.lit 0)).checkedAdd amount =
      some credited := hcredited
  rw [hs₁, rest_publish, rest_setTokenAccountBalance, rest_recordVaultBalance, hs₃]
  unfold credits
  rw [← hs₃, hcredited]

theorem rest_of_depositWithFailureReport {src : Address}
    (h : depositWithFailureReport env src amount s = .ok (reply, s')) :
    s'.rest = s.rest.puts (if reply = .settled true then s.ownCredits src amount else []) := by
  obtain ⟨s₀, s₁, hs₀, h, hs₁⟩ := rest_of_guarded h
  simp only [bind_eq_ok, okOr_eq_ok, reject_eq_ok, exists_const] at h
  obtain ⟨s₂, hpaused, owner, -, u, -, -, -, token, htoken, -, max, -, expected, -, -, -, h⟩ := h
  have hs₂ : s₂.rest = s.rest := (rest_of_assertNotPaused hpaused).trans hs₀
  have htoken : s.rest.settings.token = some token := hs₂ ▸ htoken
  rw [hs₁]
  split at h
  · rw [pure_eq_ok, Prod.mk.injEq] at h
    obtain ⟨rfl, rfl⟩ := h
    exact hs₂
  · rename_i s₃ htransfer
    simp only [bind_eq_ok, okOr_eq_ok, reject_eq_ok, pure_eq_ok, exists_const, Prod.mk.injEq] at h
    obtain ⟨-, credited, hcredited, rfl, rfl⟩ := h
    have hs₃ : s₃.rest = s.rest := (rest_of_transfer htransfer).trans hs₂
    have hcredited : ((s₃.rest.entries.value (.tokenAccountBalance token src)).getD (.lit 0)).checkedAdd
        amount = some credited := hcredited
    rw [rest_publish, rest_recordVaultBalance, rest_setTokenAccountBalance, hs₃, if_pos rfl,
      ownCredits_of htoken]
    unfold credits
    rw [← hs₃, hcredited]

theorem rest_of_withdrawPayouts {payouts : List (Address × I128)}
    (h : withdrawPayouts env caller payouts s = .ok (reply, s')) : s'.rest = s.rest := by
  obtain ⟨s₀, s₁, hs₀, h, hs₁⟩ := rest_of_guarded h
  simp only [vaultBalance, bind_eq_ok, okOr_eq_ok, reject_eq_ok, pure_eq_ok, exists_const,
    Prod.mk.injEq] at h
  obtain ⟨s₂, hpaused, owner, -, u, -, -, token, -, u', -, total, -, cap, -, -, balance, -, -, y, hpay, -,
    rfl⟩ := h
  rw [hs₁, ← hs₀, ← rest_of_assertNotPaused hpaused]
  refine foldlM_invariant (P := fun x : I128 × State W => x.2.rest = s₂.rest) ?_ hpay rfl
  intro q _ x z hturn hx
  simp only [payOut, bind_eq_ok, pure_eq_ok] at hturn
  obtain ⟨expected, -, s₃, htransfer, -, -, -, -, rfl⟩ := hturn
  exact (rest_of_transfer htransfer).trans hx

theorem rest_of_withdrawToken {dst : Address}
    (h : withdrawToken env caller token dst amount s = .ok (reply, s')) :
    s'.rest = s.rest.puts (debits s.rest.entries token caller amount) := by
  obtain ⟨s₀, s₁, hs₀, h, hs₁⟩ := rest_of_guarded h
  simp only [bind_eq_ok, okOr_eq_ok, reject_eq_ok, pure_eq_ok, exists_const, Prod.mk.injEq] at h
  obtain ⟨s₂, hpaused, owner, -, u, -, -, cap, -, -, -, -, s₃, htransfer, s₄, hdebit, expected, -, -, -,
    rfl⟩ := h
  rw [hs₁, rest_publish, rest_recordVaultBalance, rest_of_debitAccount hdebit, rest_of_transfer htransfer,
    rest_of_assertNotPaused hpaused, hs₀]

theorem rest_of_executeEmergencyMigration
    (h : executeEmergencyMigration env caller s = .ok (reply, s')) :
    s'.world = s.world ∧ s'.entries = s.entries := by
  obtain ⟨s₀, s₁, hs₀, h, hs₁⟩ := rest_of_guarded h
  simp only [bind_eq_ok, okOr_eq_ok, reject_eq_ok, pure_eq_ok, exists_const, Prod.mk.injEq] at h
  obtain ⟨u, -, migration, -, -, token, -, s₂, htransfer, -, rfl⟩ := h
  have hs₂ : s₂.rest = s₀.rest := by
    unfold transferPositive at htransfer
    split at htransfer
    · exact rest_of_transfer htransfer
    · cases htransfer
      rfl
  have hrest := hs₂.trans hs₀
  constructor
  · exact (congrArg Rest.world hs₁).trans (congrArg Rest.world hrest)
  · exact (congrArg Rest.entries hs₁).trans (congrArg Rest.entries hrest)

/-! ### Every call -/

theorem written_of {ps : List (TrackedKey × I128)} (h : s'.rest = s.rest.puts ps) :
    s'.world = s.world ∧ s'.entries = s.entries.puts ps :=
  ⟨congrArg Rest.world h, congrArg Rest.entries h⟩

theorem written_of_kept (h : s'.rest = s.rest) : s'.world = s.world ∧ s'.entries = s.entries :=
  ⟨congrArg Rest.world h, congrArg Rest.entries h⟩

theorem written_of_exec (hc : ∀ streamIds recipient, c ≠ .vaultBatchWithdraw streamIds recipient)
    (h : exec streams env s c = .ok (reply, s')) :
    s'.world = s.world ∧ s'.entries = s.entries.puts (c.puts s reply) := by
  cases c with
  | vaultBatchWithdraw streamIds recipient => exact absurd rfl (hc _ _)
  -- the calls that write entries
  | deposit src amount => exact written_of (rest_of_deposit h)
  | depositWithFee src grossAmount feeAmount =>
      simp only [exec, depositWithFee, bind_eq_ok, okOr_eq_ok, pure_eq_ok, Prod.mk.injEq] at h
      obtain ⟨-, -, -, -, netAmount, hnet, ⟨r, s₁⟩, hdeposit, -, rfl⟩ := h
      unfold Call.puts
      dsimp only
      rw [hnet]
      have hwritten := written_of (rest_of_deposit hdeposit)
      exact hwritten
  | depositToken src token amount => exact written_of (rest_of_depositToken h)
  | depositWithFailureReport src amount => exact written_of (rest_of_depositWithFailureReport h)
  | withdrawToken caller token dst amount => exact written_of (rest_of_withdrawToken h)
  | setTokenMaxLimit caller token limit =>
      simp only [exec, setTokenMaxLimit, bind_eq_ok, pure_eq_ok, Prod.mk.injEq] at h
      obtain ⟨s₁, hpaused, -, -, -, -, -, -, -, rfl⟩ := h
      obtain ⟨hworld, hentries⟩ := written_of_kept (rest_of_assertNotPaused hpaused)
      constructor
      · exact (congrArg Rest.world (rest_trackVaultKey _)).trans hworld
      · refine (congrArg Rest.entries (rest_trackVaultKey _)).trans ?_
        rw [← hentries]
        unfold State.entries Call.puts Entries.puts Entries.put
        dsimp only [State.rest, State.entries, State.withSettings, List.foldl]
        rw [value_setTokenMaxLimit]
        rfl
  -- the calls that move tokens and write none
  | batchDeposit deposits => exact written_of_kept (rest_of_batchDeposit h)
  | withdraw caller dst amount => exact written_of_kept (rest_of_withdrawPayouts h)
  | withdrawBatch caller payouts => exact written_of_kept (rest_of_withdrawPayouts h)
  | executeEmergencyMigration caller => exact rest_of_executeEmergencyMigration h
  -- the others write settings, the pause flag and the log
  | initializeVault owner token maxLimit =>
      simp only [exec, initializeVault, bind_eq_ok, pure_eq_ok, Prod.mk.injEq] at h
      obtain ⟨-, -, -, -, -, -, -, -, -, rfl⟩ := h
      exact ⟨rfl, rfl⟩
  | setOperatorWithdrawLimit caller newLimit =>
      simp only [exec, setOperatorWithdrawLimit, bind_eq_ok, pure_eq_ok, Prod.mk.injEq] at h
      obtain ⟨s₁, hpaused, -, -, -, -, -, rfl⟩ := h
      have hkept := written_of_kept (rest_of_assertNotPaused hpaused)
      exact hkept
  | setLimit caller newLimit =>
      simp only [exec, setLimit, bind_eq_ok, pure_eq_ok, Prod.mk.injEq] at h
      obtain ⟨s₁, hpaused, -, -, -, -, -, -, -, -, -, -, -, -, -, rfl⟩ := h
      have hkept := written_of_kept (rest_of_assertNotPaused hpaused)
      exact hkept
  | approveToken caller token approved =>
      simp only [exec, approveToken, bind_eq_ok, pure_eq_ok, Prod.mk.injEq] at h
      obtain ⟨-, -, -, -, -, rfl⟩ := h
      exact ⟨rfl, rfl⟩
  | setOperator caller operator =>
      simp only [exec, setOperator, bind_eq_ok, pure_eq_ok, Prod.mk.injEq] at h
      obtain ⟨-, -, -, rfl⟩ := h
      exact ⟨rfl, rfl⟩
  | revokeOperator caller =>
      simp only [exec, revokeOperator, bind_eq_ok, pure_eq_ok, Prod.mk.injEq] at h
      obtain ⟨-, -, -, rfl⟩ := h
      exact ⟨rfl, rfl⟩
  | proposeOwner caller newOwner =>
      simp only [exec, proposeOwner, bind_eq_ok, pure_eq_ok, Prod.mk.injEq] at h
      obtain ⟨-, -, -, -, -, rfl⟩ := h
      exact ⟨rfl, rfl⟩
  | acceptOwner caller =>
      simp only [exec, acceptOwner, bind_eq_ok, pure_eq_ok, Prod.mk.injEq] at h
      obtain ⟨-, -, -, -, -, -, -, -, -, -, -, -, -, -, -, rfl⟩ := h
      exact ⟨rfl, rfl⟩
  | setOwnerProposalTtl caller ttlSeconds =>
      simp only [exec, setOwnerProposalTtl, bind_eq_ok, pure_eq_ok, Prod.mk.injEq] at h
      obtain ⟨-, -, -, -, -, rfl⟩ := h
      exact ⟨rfl, rfl⟩
  | effectiveWithdrawLimit caller =>
      simp only [exec, effectiveWithdrawLimit, bind_eq_ok, pure_eq_ok, Prod.mk.injEq] at h
      obtain ⟨s₁, hpaused, -, -, -, -, -, -, -, rfl⟩ := h
      exact written_of_kept (rest_of_assertNotPaused hpaused)
  | pause caller =>
      simp only [exec, pause, bind_eq_ok, pure_eq_ok, Prod.mk.injEq] at h
      obtain ⟨-, -, -, -, s₁, hset, -, rfl⟩ := h
      have hkept := written_of_kept (rest_of_setPaused hset)
      exact hkept
  | unpause caller =>
      simp only [exec, unpause, bind_eq_ok, pure_eq_ok, Prod.mk.injEq] at h
      obtain ⟨-, -, -, -, s₁, hset, -, rfl⟩ := h
      have hkept := written_of_kept (rest_of_setPaused hset)
      exact hkept
  | keepAlive =>
      cases h
      exact ⟨rfl, rfl⟩
  | isPaused =>
      cases h
      exact ⟨rfl, rfl⟩
  | upgrade caller newWasmHash =>
      simp only [exec, upgrade, bind_eq_ok, pure_eq_ok, Prod.mk.injEq] at h
      obtain ⟨-, -, s₁, hpaused, -, -, -, rfl⟩ := h
      have hkept := written_of_kept (rest_of_assertNotPaused hpaused)
      exact hkept
  | bumpAllVaultKeys =>
      simp only [exec, bumpAllVaultKeys, bind_eq_ok, pure_eq_ok, Prod.mk.injEq] at h
      obtain ⟨-, -, count, -, -, rfl⟩ := h
      exact ⟨rfl, rfl⟩
  | initiateEmergencyMigration caller destination =>
      simp only [exec, initiateEmergencyMigration, bind_eq_ok, pure_eq_ok, Prod.mk.injEq] at h
      obtain ⟨-, -, -, -, executableAt, -, -, rfl⟩ := h
      exact ⟨rfl, rfl⟩
  | cancelEmergencyMigration caller =>
      simp only [exec, cancelEmergencyMigration, bind_eq_ok, pure_eq_ok, Prod.mk.injEq] at h
      obtain ⟨-, -, -, -, -, rfl⟩ := h
      exact ⟨rfl, rfl⟩

/-- Nothing but a withdrawal from streams calls a stream. -/
theorem world_of_exec (hc : ∀ streamIds recipient, c ≠ .vaultBatchWithdraw streamIds recipient)
    (h : exec streams env s c = .ok (reply, s')) : s'.world = s.world := (written_of_exec hc h).1

theorem entries_of_callStream {α : Type} {stream : Address} {f : Visit W α} {a : α}
    (h : callStream env stream f s = .ok (a, s')) : s'.entries = s.entries := by
  simp only [callStream, bind_eq_ok, pure_eq_ok, Prod.mk.injEq] at h
  obtain ⟨-, -, ⟨a', w, l⟩, -, -, rfl⟩ := h
  rfl

theorem entries_of_collect {stream recipient : Address} {x y : Collected W}
    (h : collect streams env recipient x stream = .ok y) : y.state.entries = x.state.entries := by
  simp only [collect, bind_eq_ok, reject_eq_ok, exists_const] at h
  obtain ⟨-, ⟨a, s₁⟩, hrecipient, -, ⟨amount, s₂⟩, hwithdrawable, -, h⟩ := h
  have hentries : s₂.entries = x.state.entries :=
    (entries_of_callStream hwithdrawable).trans (entries_of_callStream hrecipient)
  dsimp only at h
  split at h
  · rw [pure_eq_ok] at h
    exact h ▸ hentries
  · simp only [bind_eq_ok, pure_eq_ok] at h
    obtain ⟨total, -, rfl⟩ := h
    exact hentries

theorem entries_of_vaultBatchWithdraw {streamIds : List Address} {recipient : Address}
    (h : vaultBatchWithdraw streams env streamIds recipient s = .ok (reply, s')) :
    s'.entries = s.entries := by
  simp only [vaultBatchWithdraw, bind_eq_ok, reject_eq_ok, exists_const] at h
  obtain ⟨-, s₀, hpaused, h⟩ := h
  obtain ⟨s₁, s₂, hs₁, h, hs₂⟩ := rest_of_guarded h
  simp only [bind_eq_ok, pure_eq_ok, Prod.mk.injEq] at h
  obtain ⟨x, hcollect, s₃, hwithdraw, -, rfl⟩ := h
  have hstart : s₁.entries = s.entries :=
    congrArg Rest.entries (hs₁.trans (rest_of_assertNotPaused hpaused))
  have hx : x.state.entries = s.entries :=
    foldlM_invariant (P := fun x => x.state.entries = s.entries)
      (fun stream _ y z hz hy => (entries_of_collect hz).trans hy) hcollect hstart
  have hs₃ : s₃.entries = s.entries := by
    refine foldlM_invariant (P := fun z : State W => z.entries = s.entries) ?_ hwithdraw hx
    intro p _ y z hz hy
    simp only [withdrawStream, bind_eq_ok, pure_eq_ok] at hz
    obtain ⟨⟨u, s₄⟩, hcall, rfl⟩ := hz
    exact (entries_of_callStream hcall).trans hy
  exact (congrArg Rest.entries hs₂).trans hs₃

theorem entries_of_exec (h : exec streams env s c = .ok (reply, s')) :
    s'.entries = s.entries.puts (c.puts s reply) := by
  by_cases hc : ∃ streamIds recipient, c = .vaultBatchWithdraw streamIds recipient
  · obtain ⟨streamIds, recipient, rfl⟩ := hc
    exact entries_of_vaultBatchWithdraw h
  · exact (written_of_exec (fun streamIds recipient heq => hc ⟨streamIds, recipient, heq⟩) h).2

/-! ### Over runs -/

theorem tracks_of_step {a : Action W} {m' : Moment W} (hm : m.state.entries.Exact) (h : Step here m a m') :
    m'.state.entries.Exact := by
  cases h with
  | call _ _ _ _ h =>
      show Entries.Exact (State.entries _)
      rw [entries_of_exec h]
      exact Entries.exact_puts hm
  | failed _ _ _ _ _ => exact hm
  | outside _ => exact hm

theorem tracks_of_fresh (tokens : Ledger) (world : W) : (Moment.fresh tokens world).state.entries.Exact := by
  refine Roster.nil fun key h => ?_
  cases key <;> cases h

/-- The index of the keys lists the persistent entries, each once. -/
theorem tracks_of_reachable (h : Reachable here m) : m.state.entries.Exact := by
  obtain ⟨tokens, world, as, hrun⟩ := h
  exact hrun.invariant (P := fun m : Moment W => m.state.entries.Exact)
    (fun _ hstep hm => tracks_of_step hm hstep) (tracks_of_fresh tokens world)

end Drip.Vault
