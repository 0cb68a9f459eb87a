import Drip.Vault.Effects

/-!
# Vault — Limits

The limit on the vault's balance of its own token.  Four of the five deposits keep it.  `deposit_token`
checks the token's own limit only, which for the vault's token is another one.
-/

namespace Drip.Vault
open Chain

variable {W : Type} {here own : Address} {streams : Streams W} {env : Env} {m m' : Moment W}
variable {c : Call} {reply : Reply} {as : List (Action W)} {tokens : Ledger} {world : W}

/-! ### Settings along a run -/

theorem Step.effect (h : Step here m (.call streams env c reply) m') :
    Effect env m.state.books c reply m'.state.books := by
  cases h with
  | call henv htime hseq hstreams h => exact effect_of_exec (henv ▸ hstreams) h

/-- What every write of the settings keeps. -/
theorem settings_of_run {P : Settings → Prop} (hfresh : P {})
    (hkeep : ∀ env old c new, Setting env old c new → P old → P new)
    (h : Run (Step here) (Moment.fresh tokens world) as m) : P m.state.store.settings := by
  refine h.invariant (P := fun m => P m.state.store.settings) ?_ hfresh
  intro m a m' _ hstep hm
  cases hstep with
  | call henv htime hseq hstreams h =>
      exact hkeep _ _ _ _ (effect_of_exec (henv ▸ hstreams) h).setting hm
  | failed => exact hm
  | outside => exact hm

/-- A vault with a token has a limit. -/
def Settings.Founded (settings : Settings) : Prop :=
  settings.token.isSome = true → settings.maxLimit.isSome = true

theorem Setting.founded {old new : Settings} (h : Setting env old c new) (hold : old.Founded) :
    new.Founded := by
  cases h with
  | initializeVault | setLimit => exact fun _ => rfl
  | _ => exact hold

theorem maxLimit_of_reachable (h : Reachable here m) (hown : m.state.store.settings.token = some own) :
    ∃ max, m.state.store.settings.maxLimit = some max := by
  obtain ⟨tokens, world, as, hrun⟩ := h
  have hfounded : m.state.store.settings.Founded :=
    settings_of_run (fun h => by cases h) (fun _ _ _ _ h => h.founded) hrun
  exact Option.isSome_iff_exists.mp (hfounded (by rw [hown]; rfl))

/-! ### Deposits -/

/-- The call takes a deposit of the vault's own token. -/
def Deposits (own : Address) : Call → Reply → Prop
  | .deposit _ _, _ | .depositWithFee _ _ _, _ | .batchDeposit _, _ => True
  | .depositToken _ token _, _ => token = own
  | .depositWithFailureReport _ _, reply => reply = .settled true
  | _, _ => False

/-- What the call adds to the balance through `deposit_token` leaves it within the limit. -/
def WithinLimit (balance max : I128) : Call → Prop
  | .depositToken _ _ amount => balance.val + amount.val ≤ max.val
  | _ => True

theorem Deposited.balance {src token : Address} {amount : I128} {b b' : Books}
    (h : Deposited env src token amount b b') :
    (b'.balance token env.contract).val = (b.balance token env.contract).val + amount.val := by
  have hmoved := h.moved.balance token env.contract
  have hsrc : env.contract ≠ src := fun heq => Env.ne_contract h.manages.2 heq.symm
  rw [sent_singleton, received_singleton, if_neg fun heq => hsrc heq.2, if_pos ⟨rfl, rfl⟩,
    sub_zero] at hmoved
  exact hmoved

/-- **The limit.**  A deposit of the vault's own token leaves its balance within the limit, unless it is
made through `deposit_token` and exceeds the limit by itself. -/
theorem limit_of_deposit (hm : Reachable here m) (h : Step here m (.call streams env c reply) m')
    (hown : m.state.store.settings.token = some own) (hc : Deposits own c reply) :
    ∃ max, m.state.store.settings.maxLimit = some max ∧
      (m'.state.balance own here ≤ max ↔ WithinLimit (m.state.balance own here) max c) := by
  obtain ⟨max, hmax⟩ := maxLimit_of_reachable hm hown
  have hhere : env.contract = here := by
    cases h with
    | call henv => exact henv
  refine ⟨max, hmax, ?_⟩
  show m'.state.books.balance own here ≤ max ↔ _
  have hflow := h.effect.flow
  generalize m'.state.books = b' at hflow ⊢
  have hlimited : ∀ token, Limited env m.state.books b' token → b'.balance own here ≤ max := by
    rintro token ⟨htoken, max', hmax', hle⟩
    obtain rfl : own = token := Option.some.inj (hown.symm.trans htoken)
    obtain rfl : max = max' := Option.some.inj (hmax.symm.trans hmax')
    exact hhere ▸ hle
  cases hflow with
  | deposit _ hl | depositWithFee _ hl | batchDeposit _ hl | reported _ hl =>
      exact iff_of_true (hlimited _ hl) trivial
  | depositToken hdeposited =>
      -- nothing has been compared with the limit of the vault
      obtain rfl := hc
      have hbalance := hdeposited.balance
      rw [hhere] at hbalance
      rw [Ranged.le_def, hbalance]
      rfl
  | unsettled => cases hc
  | still hstill =>
      cases c with
      | deposit | depositWithFee | batchDeposit | depositToken | depositWithFailureReport =>
          cases hstill
      | _ => exact hc.elim
  | _ => exact hc.elim

/-- 600 through `deposit`, with a limit of 500, fails; 300 goes through. -/
theorem limit_of_deposit_within :
    let m := Sample.visited []
    let m' := Sample.visited [Sample.signed Sample.owner (.deposit Sample.owner (.lit 300))]
    m'.state.balance Sample.token Sample.address ≤ .lit 500 ∧
      (m.perform Sample.silent
        (Sample.signed Sample.owner (.deposit Sample.owner (.lit 600)))).2.state = m.state := by
  intro m m'
  have hstep : Step Sample.address m (.call Sample.silent
      (Sample.signedBy Sample.owner (.lit 100) (.lit 1)) (.deposit Sample.owner (.lit 300)) .done) m' :=
    .call rfl (by decide) (by decide) Sample.silent_spares rfl
  obtain ⟨max, hmax, hiff⟩ := limit_of_deposit (Sample.reachable_visited [] (by decide)) hstep rfl trivial
  obtain rfl : max = .lit 500 := (Option.some.inj hmax).symm
  exact ⟨hiff.mpr trivial, rfl⟩

/-- The same 600 through `deposit_token`. -/
theorem depositToken_exceeds_limit :
    let m := Sample.visited []
    let m' := Sample.visited [Sample.signed Sample.owner
      (.depositToken Sample.owner Sample.token (.lit 600))]
    Reachable Sample.address m ∧
      Step Sample.address m (.call Sample.silent (Sample.signedBy Sample.owner (.lit 100) (.lit 1))
        (.depositToken Sample.owner Sample.token (.lit 600)) .done) m' ∧
      m.state.store.settings.token = some Sample.token ∧
      m.state.store.settings.maxLimit = some (.lit 500) ∧
      m'.state.balance Sample.token Sample.address = .lit 600 := by
  intro m m'
  exact ⟨Sample.reachable_visited [] (by decide),
    .call rfl (by decide) (by decide) Sample.silent_spares rfl, rfl, rfl, rfl⟩

end Drip.Vault
