import Drip.Vault.Limits

/-!
# Vault — Preview

`effective_withdraw_limit` foretells `withdraw`: it fails where a withdrawal of anything fails, with the
same error, and otherwise its answer is the most that can be withdrawn.

* `equipped_of_reachable`: an owner has a token, which is not the zero address.
* `exists_payOut`: a payment that the vault can afford is carried out.
* `withdraw_cases`: the two calls, check by check.
-/

namespace Drip.Vault
open Chain

variable {W : Type} {here : Address} {env : Env} {s : State W} {m : Moment W} {c : Call}
variable {caller dst owner token : Address} {amount cap : I128}

/-! ### A vault that is set up -/

/-- An owner, and whoever is to become one, has a token, and it is not the zero address. -/
structure Settings.Equipped (settings : Settings) : Prop where
  owned : settings.owner.isSome = true ∨ settings.pendingOwner.isSome = true →
    settings.token.isSome = true
  valid : ∀ token, settings.token = some token → isZeroAddress token = false

theorem Setting.equipped {old new : Settings} (h : Setting env old c new) (hold : old.Equipped)
    (hnew : ∀ owner token maxLimit, c = .initializeVault owner token maxLimit →
      isZeroAddress token = false) : new.Equipped := by
  cases h with
  | initializeVault =>
      exact ⟨fun _ => rfl, fun token h => Option.some.inj h ▸ hnew _ _ _ rfl⟩
  | proposeOwner howns =>
      exact ⟨fun _ => hold.owned (.inl (by rw [howns.1]; rfl)), hold.valid⟩
  | acceptOwner _ hpending =>
      exact ⟨fun _ => hold.owned (.inr (by rw [hpending]; rfl)), hold.valid⟩
  | _ => exact ⟨hold.owned, hold.valid⟩

theorem equipped_of_reachable (h : Reachable here m) : m.state.store.settings.Equipped := by
  obtain ⟨tokens, world, as, hrun⟩ := h
  refine hrun.invariant (P := fun m => m.state.store.settings.Equipped) ?_
    ⟨fun h => by cases h <;> contradiction, fun _ h => by cases h⟩
  intro m a m' _ hstep hm
  cases hstep with
  | call henv htime hseq hstreams h =>
      refine (effect_of_exec (henv ▸ hstreams) h).setting.equipped hm ?_
      rintro owner token maxLimit rfl
      simp only [exec, initializeVault, validateSep41Token, bind_eq_ok, reject_eq_ok] at h
      obtain ⟨-, -, -, -, _, hzero, -⟩ := h
      simpa using hzero
  | failed => exact hm
  | outside => exact hm

/-! ### The payment -/

/-- The vault and any other holder have no more of the token between them than an `i128` counts. -/
def Circulates (here token : Address) (l : Ledger) : Prop :=
  ∀ a, a ≠ here → (l.balance token a).val + (l.balance token here).val ≤ i128Max

theorem exists_payOut (byOperator : Bool) (caller : Address)
    (hown : s.store.settings.token = some token)
    (hdst : dst ≠ env.contract) (hpos : 0 < amount.val)
    (hheld : amount ≤ s.balance token env.contract) (htokens : Circulates env.contract token s.tokens) :
    ∃ y, payOut env caller token byOperator (s.balance token env.contract, s) (dst, amount) = .ok y := by
  obtain ⟨l, hl⟩ : ∃ l, s.tokens.transfer token env.contract dst amount = some l :=
    Ledger.exists_transfer hpos.le hheld fun _ => by
      have hsum := htokens dst hdst
      have hheld : amount.val ≤ (s.tokens.balance token env.contract).val := hheld
      omega
  obtain ⟨-, -, hmove⟩ := Ledger.transfer_spec hl
  have hhere := hmove token env.contract
  rw [if_pos ⟨rfl, rfl⟩, if_neg fun h => hdst h.2.symm, add_zero] at hhere
  let s' : State W := { s with tokens := l
                               transfers := s.transfers ++ [⟨token, env.contract, dst, amount⟩] }
  have hsub : (s.balance token env.contract).checkedSub amount = some (s'.balance token env.contract) :=
    Ranged.checkedSub_eq_some.mpr hhere
  have htransfer : transfer s ⟨token, env.contract, dst, amount⟩ = .ok s' := by
    unfold transfer
    rw [hl]
    rfl
  have hbalance : vaultBalance env s' = .ok (s'.balance token env.contract) := by
    have hown : s'.store.settings.token = some token := hown
    unfold vaultBalance
    rw [hown]
    rfl
  unfold payOut
  dsimp only
  rw [hsub]
  show ∃ y, (transfer s ⟨token, env.contract, dst, amount⟩ >>= _) = _
  rw [bind_of_ok htransfer, bind_of_ok hbalance, bind_of_ok (reject_eq_ok (u := ()).mpr (not_not.mpr rfl))]
  exact ⟨_, rfl⟩

/-! ### The calls check by check -/

/-- The state in which the body of a guarded call runs. -/
def State.locked (s : State W) : State W := { s with store := { s.store with reentrancyLock := some true } }

theorem nonReentrant_error {body : State W → Result (Reply × State W)} {e : Failure Error}
    (hlock : s.store.reentrancyLock.getD false = false) (h : body s.locked = .error e) :
    nonReentrant body s = .error e := by
  unfold nonReentrant
  rw [bind_of_ok (reject_eq_ok (u := ()).mpr (by simp [hlock]))]
  exact bind_of_error h

theorem nonReentrant_ok {body : State W → Result (Reply × State W)} {r : Reply × State W}
    (hlock : s.store.reentrancyLock.getD false = false) (h : body s.locked = .ok r) :
    ∃ r', nonReentrant body s = .ok r' := by
  unfold nonReentrant
  rw [bind_of_ok (reject_eq_ok (u := ()).mpr (by simp [hlock]))]
  show ∃ r', (body s.locked >>= _) = _
  rw [bind_of_ok h]
  exact ⟨_, rfl⟩

theorem assertNotPaused_of_paused (h : (isPaused env s).1 = true) :
    assertNotPaused env s = .error (err .contractPaused) := by
  show (reject ((isPaused env s).1 = true) _ >>= _) = _
  exact bind_of_error (reject_of _ h)

theorem assertNotPaused_of_running (h : (isPaused env s).1 = false) :
    assertNotPaused env s = .ok (isPaused env s).2 := by
  show (reject ((isPaused env s).1 = true) _ >>= _) = _
  rw [bind_of_ok (reject_eq_ok (u := ()).mpr (by simp [h]))]
  rfl

/-- The role that the withdrawal asks for first is asked for by the cap, too. -/
theorem requireOwnerOrOperator_cases (owner : Address) (s : State W)
    (hauth : env.authorized caller = true) :
    requireOwnerOrOperator env caller owner s = .ok () ∨
    requireOwnerOrOperator env caller owner s = .error (err .notAuthorized) ∧
      withdrawCap caller owner s = .error (err .notAuthorized) := by
  unfold requireOwnerOrOperator withdrawCap
  by_cases howns : caller = owner
  · rw [if_pos (.inl howns)]
    exact .inl (requireAuth_eq_ok.mpr hauth)
  · by_cases hop : s.store.settings.operator = some caller
    · rw [if_pos (.inr hop)]
      exact .inl (requireAuth_eq_ok.mpr hauth)
    · rw [if_neg (not_or.mpr ⟨howns, hop⟩), if_neg howns]
      exact .inr ⟨rfl, bind_of_error (reject_of _ hop)⟩

/-- The preview, once the vault is known to run and to be set up. -/
theorem effectiveWithdrawLimit_eq (hrun : (isPaused env s).1 = false)
    (howner : s.store.settings.owner = some owner) (hown : s.store.settings.token = some token) :
    effectiveWithdrawLimit env caller s = (withdrawCap caller owner s >>= fun cap =>
      .ok (.amount (min (s.balance token env.contract) cap), (isPaused env s).2)) := by
  have howner' : okOr (isPaused env s).2.store.settings.owner (err .notInitialized) = .ok owner :=
    okOr_eq_ok.mpr howner
  have hbalance : vaultBalance env (isPaused env s).2 = .ok (s.balance token env.contract) := by
    show (okOr s.store.settings.token _ >>= _) = _
    rw [hown]
    rfl
  unfold effectiveWithdrawLimit
  rw [bind_of_ok (assertNotPaused_of_running hrun), bind_of_ok howner']
  show (withdrawCap caller owner s >>= _) = _
  congr 1
  funext cap
  rw [bind_of_ok hbalance]
  rfl

/-- What is left of a withdrawal by then. -/
def payWithinCap (env : Env) (caller owner token dst : Address) (amount : I128) (s : State W) :
    Result (Reply × State W) := do
  let cap ← withdrawCap caller owner s
  reject (cap < amount) (err .limitExceeded)
  reject (s.balance token env.contract < amount) (err .limitExceeded)
  let (_, s) ← payOut env caller token (decide (caller ≠ owner)) (s.balance token env.contract, s)
    (dst, amount)
  return (.done, s)

theorem addPayout_single (dst : Address) (hpos : 0 < amount.val) :
    [(dst, amount)].foldlM addPayout (.lit 0) = .ok amount := by
  have hsum : (.lit 0 : I128).checkedAdd amount = some amount :=
    Ranged.checkedAdd_eq_some.mpr (zero_add amount.val).symm
  show ((reject (amount.val ≤ 0) _ >>= fun _ => okOr ((.lit 0 : I128).checkedAdd amount) _) >>= pure) = _
  rw [bind_of_ok (reject_eq_ok (u := ()).mpr (not_le.mpr hpos)), hsum]
  rfl

theorem withdraw_eq (caller dst : Address) (hrun : (isPaused env s).1 = false)
    (howner : s.store.settings.owner = some owner) (hown : s.store.settings.token = some token)
    (hvalid : isZeroAddress token = false) (hpos : 0 < amount.val) :
    ∃ body, withdraw env caller dst amount s = nonReentrant body s ∧
      body s.locked = (requireOwnerOrOperator env caller owner s >>= fun _ =>
        payWithinCap env caller owner token dst amount (isPaused env s.locked).2) := by
  unfold withdraw withdrawPayouts
  refine ⟨_, rfl, ?_⟩
  have hrun' : assertNotPaused env s.locked = .ok (isPaused env s.locked).2 :=
    assertNotPaused_of_running hrun
  have howner' : okOr (isPaused env s.locked).2.store.settings.owner (err .notInitialized) = .ok owner :=
    okOr_eq_ok.mpr howner
  have hown' : okOr (isPaused env s.locked).2.store.settings.token (err .notInitialized) = .ok token :=
    okOr_eq_ok.mpr hown
  have hvalid' : validateSep41Token token = .ok () := reject_eq_ok.mpr (by simp [hvalid])
  have hbalance : vaultBalance env (isPaused env s.locked).2 = .ok (s.balance token env.contract) := by
    show (okOr s.store.settings.token _ >>= _) = _
    rw [hown]
    rfl
  dsimp only
  rw [bind_of_ok hrun', bind_of_ok howner']
  show (requireOwnerOrOperator env caller owner s >>= _) = _
  congr 1
  funext _
  rw [bind_of_ok (reject_eq_ok (u := ()).mpr (List.cons_ne_nil _ _)), bind_of_ok hown', bind_of_ok hvalid',
    bind_of_ok (addPayout_single dst hpos)]
  unfold payWithinCap
  congr 1
  funext cap
  congr 1
  funext _
  rw [bind_of_ok hbalance]
  congr 1
  funext _
  simp only [List.foldlM_cons, List.foldlM_nil, bind_pure]
  rfl

theorem payWithinCap_cases (hcap : withdrawCap caller owner s = .ok cap)
    (hown : s.store.settings.token = some token) (hdst : dst ≠ env.contract) (hpos : 0 < amount.val)
    (htokens : Circulates env.contract token s.tokens) :
    amount ≤ min (s.balance token env.contract) cap ∧
      (∃ r, payWithinCap env caller owner token dst amount s = .ok r) ∨
    min (s.balance token env.contract) cap < amount ∧
      payWithinCap env caller owner token dst amount s = .error (err .limitExceeded) := by
  have hmin : (min (s.balance token env.contract) cap).val =
      min (s.balance token env.contract).val cap.val := Ranged.val_min _ _
  have hle : amount ≤ min (s.balance token env.contract) cap ↔
      amount.val ≤ (s.balance token env.contract).val ∧ amount.val ≤ cap.val := by
    rw [Ranged.le_def, hmin, le_min_iff]
  have hlt : min (s.balance token env.contract) cap < amount ↔
      (s.balance token env.contract).val < amount.val ∨ cap.val < amount.val := by
    rw [Ranged.lt_def, hmin, min_lt_iff]
  unfold payWithinCap
  rw [bind_of_ok hcap]
  by_cases hover : cap < amount
  · exact .inr ⟨hlt.mpr (.inr hover), bind_of_error (reject_of _ hover)⟩
  rw [bind_of_ok (reject_eq_ok (u := ()).mpr hover)]
  by_cases hshort : s.balance token env.contract < amount
  · exact .inr ⟨hlt.mpr (.inl hshort), bind_of_error (reject_of _ hshort)⟩
  rw [bind_of_ok (reject_eq_ok (u := ()).mpr hshort)]
  have hheld : amount.val ≤ (s.balance token env.contract).val := not_lt.mp hshort
  obtain ⟨y, hy⟩ := exists_payOut (decide (caller ≠ owner)) caller hown hdst hpos hheld htokens
  rw [bind_of_ok hy]
  exact .inl ⟨hle.mpr ⟨hheld, not_lt.mp hover⟩, _, rfl⟩

/-- Both fail alike, or a withdrawal goes through up to the limit. -/
theorem withdraw_cases (hs : s.store.settings.Equipped) (hauth : env.authorized caller = true)
    (hdst : dst ≠ env.contract) (hpos : 0 < amount.val) (hlock : s.store.reentrancyLock.getD false = false)
    (htokens : ∀ token, s.store.settings.token = some token → Circulates env.contract token s.tokens) :
    (∃ e, effectiveWithdrawLimit env caller s = .error e ∧ withdraw env caller dst amount s = .error e) ∨
    ∃ limit s', effectiveWithdrawLimit env caller s = .ok (.amount limit, s') ∧
      (amount ≤ limit ∧ (∃ r, withdraw env caller dst amount s = .ok r) ∨
        limit < amount ∧ withdraw env caller dst amount s = .error (err .limitExceeded)) := by
  cases hrun : (isPaused env s).1 with
  | true =>
      unfold effectiveWithdrawLimit withdraw withdrawPayouts
      refine .inl ⟨_, bind_of_error (assertNotPaused_of_paused hrun), nonReentrant_error hlock ?_⟩
      exact bind_of_error (assertNotPaused_of_paused (s := s.locked) hrun)
  | false =>
  cases howner : s.store.settings.owner with
  | none =>
      have hnone : okOr s.store.settings.owner (err .notInitialized) = .error (err .notInitialized) := by
        rw [howner]
        rfl
      unfold effectiveWithdrawLimit withdraw withdrawPayouts
      refine .inl ⟨err .notInitialized, ?_, nonReentrant_error hlock ?_⟩
      · show (assertNotPaused env s >>= _) = _
        rw [bind_of_ok (assertNotPaused_of_running hrun)]
        exact bind_of_error hnone
      · rw [bind_of_ok (assertNotPaused_of_running (s := s.locked) hrun)]
        exact bind_of_error hnone
  | some owner =>
  obtain ⟨token, hown⟩ := Option.isSome_iff_exists.mp (hs.owned (.inl (by rw [howner]; rfl)))
  obtain ⟨body, hbody, hrest⟩ := withdraw_eq caller dst hrun howner hown (hs.valid token hown) hpos
  rw [effectiveWithdrawLimit_eq hrun howner hown, hbody]
  rcases requireOwnerOrOperator_cases owner s hauth with hrole | ⟨hrole, hcap⟩
  · rw [bind_of_ok hrole] at hrest
    cases hcap : withdrawCap caller owner s with
    | error e =>
        exact .inl ⟨e, rfl, nonReentrant_error hlock (hrest.trans (bind_of_error hcap))⟩
    | ok cap =>
        refine .inr ⟨_, _, rfl, ?_⟩
        have hcases := payWithinCap_cases (s := (isPaused env s.locked).2) hcap hown hdst hpos
          (htokens token hown)
        refine hcases.imp (fun h => ⟨h.1, ?_⟩) fun h => ⟨h.1, nonReentrant_error hlock (hrest.trans h.2)⟩
        obtain ⟨r, hr⟩ := h.2
        exact nonReentrant_ok hlock (hrest.trans hr)
  · rw [bind_of_error hrole] at hrest
    rw [hcap]
    exact .inl ⟨_, rfl, nonReentrant_error hlock hrest⟩

/-- A call that fails leaves the vault as it is. -/
theorem perform_of_failed {streams : Streams W} (h : ¬ ∃ r, exec streams env m.state c = .ok r) :
    (m.perform streams (env, c)).2.state = m.state := by
  unfold Moment.perform
  split
  · rename_i hok
    exact absurd ⟨_, hok⟩ h
  · rfl

theorem fails_of_error {e : Failure Error} (h : withdraw env caller dst amount s = .error e) :
    ¬ ∃ r, withdraw env caller dst amount s = .ok r := by
  rw [h]
  rintro ⟨r, hr⟩
  cases hr

/-- **The preview is exact.**  In every reachable state, with the caller's authorization and the lock
free: `withdraw` succeeds exactly for the amounts up to `effective_withdraw_limit`, fails as it does, and
above it with `LimitExceeded`; a call that fails leaves everything as it is. -/
theorem withdraw_exact (hm : Reachable here m) (henv : env.contract = here)
    (hauth : env.authorized caller = true) (hdst : dst ≠ here) (hpos : 0 < amount.val)
    (hlock : m.state.store.reentrancyLock.getD false = false)
    (htokens : ∀ token, m.state.store.settings.token = some token →
      Circulates here token m.state.tokens) :
    ((∃ r, withdraw env caller dst amount m.state = .ok r) ↔
      ∃ limit s', effectiveWithdrawLimit env caller m.state = .ok (.amount limit, s') ∧
        amount ≤ limit) ∧
    (∀ e, effectiveWithdrawLimit env caller m.state = .error e →
      withdraw env caller dst amount m.state = .error e) ∧
    (∀ limit s', effectiveWithdrawLimit env caller m.state = .ok (.amount limit, s') → limit < amount →
      withdraw env caller dst amount m.state = .error (err .limitExceeded)) ∧
    ∀ streams, (¬ ∃ r, withdraw env caller dst amount m.state = .ok r) →
      (m.perform streams (env, .withdraw caller dst amount)).2.state = m.state := by
  subst henv
  have hstill : ∀ streams, (¬ ∃ r, withdraw env caller dst amount m.state = .ok r) →
      (m.perform streams (env, .withdraw caller dst amount)).2.state = m.state :=
    fun _ hfails => perform_of_failed hfails
  obtain ⟨e, hpreview, herror⟩ | ⟨limit, s', hpreview, hcases⟩ :=
    withdraw_cases (equipped_of_reachable hm) hauth hdst hpos hlock htokens
  · rw [hpreview]
    refine ⟨iff_of_false (fails_of_error herror) ?_, ?_, ?_, hstill⟩
    · rintro ⟨limit, s', hok, -⟩
      cases hok
    · rintro e' he
      cases he
      exact herror
    · intro limit s' hok
      cases hok
  · rw [hpreview]
    refine ⟨?_, nofun, ?_, hstill⟩
    · rcases hcases with ⟨hle, hok⟩ | ⟨hlt, herror⟩
      · exact iff_of_true hok ⟨limit, s', rfl, hle⟩
      · refine iff_of_false (fails_of_error herror) ?_
        rintro ⟨limit', s'', hok, hle⟩
        cases hok
        exact Ranged.not_lt.mpr hle hlt
    · intro limit' s'' hok hlt
      cases hok
      rcases hcases with ⟨hle, -⟩ | ⟨-, herror⟩
      · exact absurd hlt (Ranged.not_lt.mpr hle)
      · exact herror

/-- A deposit of 300, and an operator who may withdraw 100. -/
def Sample.operated : Moment Unit := Sample.visited [
  Sample.signed Sample.owner (.deposit Sample.owner (.lit 300)),
  Sample.signed Sample.owner (.setOperator Sample.owner Sample.operator),
  Sample.signed Sample.owner (.setOperatorWithdrawLimit Sample.owner (.lit 100))]

theorem Sample.circulates_operated : Circulates Sample.address Sample.token operated.state.tokens := by
  have hdeposit : Sample.tokens.transfer Sample.token Sample.owner Sample.address (.lit 300) =
      some operated.state.tokens := by rfl
  obtain ⟨-, -, hmove⟩ := Ledger.transfer_spec hdeposit
  have hheld : ∀ a, (tokens.balance token a).val ≤ 1000 := by
    intro a
    unfold tokens
    dsimp only
    split <;> decide
  intro a ha
  have hthere := hmove token a
  have hhere := hmove token address
  have hout := hheld a
  have hnone : (tokens.balance token address).val = 0 := by rfl
  have hamount : (.lit 300 : I128).val = 300 := rfl
  have hmax := i128Max_eq
  rw [if_neg (c := token = token ∧ a = address) fun h => ha h.2] at hthere
  rw [if_neg (by decide), if_pos ⟨rfl, rfl⟩] at hhere
  split at hthere <;> omega

theorem withdraw_exact_operated :
    let env := Sample.signedBy Sample.operator (.lit 110) (.lit 2)
    (∃ r, withdraw env Sample.operator (.account 3) (.lit 100) Sample.operated.state = .ok r) ∧
    withdraw env Sample.operator (.account 3) (.lit 101) Sample.operated.state =
      .error (err .limitExceeded) := by
  intro env
  have hreachable : Reachable Sample.address Sample.operated := Sample.reachable_visited _ (by decide)
  have hpreview : effectiveWithdrawLimit env Sample.operator Sample.operated.state =
      .ok (.amount (.lit 100), Sample.operated.state) := by rfl
  have htokens : ∀ token, Sample.operated.state.store.settings.token = some token →
      Circulates Sample.address token Sample.operated.state.tokens := by
    intro token htoken
    obtain rfl : Sample.token = token := Option.some.inj htoken
    exact Sample.circulates_operated
  have hauth : env.authorized Sample.operator = true := by decide
  have hdst : Address.account 3 ≠ Sample.address := by decide
  have h₁ : 0 < (.lit 100 : I128).val := by decide
  have h₂ : 0 < (.lit 101 : I128).val := by decide
  constructor
  · refine (withdraw_exact hreachable rfl hauth hdst h₁ rfl htokens).1.mpr ⟨_, _, hpreview, ?_⟩
    decide
  · exact (withdraw_exact hreachable rfl hauth hdst h₂ rfl htokens).2.2.1 _ _ hpreview (by decide)

end Drip.Vault
