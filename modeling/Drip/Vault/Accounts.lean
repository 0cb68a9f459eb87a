import Drip.Support.Cover
import Drip.Vault.Delegation

/-!
# Vault — Accounts

The entries `TokenAccountBalance` against the vault's own balances.  `withdraw`, `withdraw_batch` and the
migration pay from the balance without a look at the entries, `withdraw_token` leaves an entry that is too
small as it is, and `batch_deposit` credits nobody.

* `Books.entries token`: the entry of each account; `Backed`: any of them could be paid at once.
* `Credited`: each depositor's entry grows by what it has paid.
* `Settles`: the steps after which both are so.
-/

namespace Drip.Vault
open Chain

variable {W : Type} {here : Address} {env : Env} {m m' : Moment W} {c : Call} {reply : Reply}
variable {a : Action W} {as : List (Action W)} {b b' : Books} {tokens : Ledger} {world : W}
variable {token account : Address} {amount x : I128}

/-! ### Entries -/

def Books.entries (b : Books) (token account : Address) : Int :=
  (b.funds.getTokenAccountBalance token account).val

/-- One entry is `v` now, and the others are what they were. -/
structure Entered (token account : Address) (v : Int) (b b' : Books) : Prop where
  self : b'.entries token = Function.update (b.entries token) account v
  other : ∀ t ≠ token, b'.entries t = b.entries t

theorem entered_of_set
    (h : b'.funds = b'.recorded env token (b.funds.setTokenAccountBalance token account x)) :
    Entered token account x.val b b' := by
  have hentry : ∀ t a, b'.entries t a = ((Function.update b.funds.tokenAccountBalance token
      (Function.update (b.funds.tokenAccountBalance token) account (some x)) t a).getD (.lit 0)).val := by
    intro t a
    unfold Books.entries
    rw [h]
    rfl
  constructor
  · funext a
    rw [hentry, Function.update_self]
    by_cases ha : a = account
    · subst ha
      rw [Function.update_self, Function.update_self]
      rfl
    · rw [Function.update_of_ne ha, Function.update_of_ne ha]
      rfl
  · intro t ht
    funext a
    rw [hentry, Function.update_of_ne ht]
    rfl

theorem entries_of_recorded (h : b'.funds = b'.recorded env token b.funds) : b'.entries = b.entries := by
  funext t a
  unfold Books.entries
  rw [h]
  rfl

/-- The vault has enough of each token to pay the accounts. -/
def Backed (here : Address) (b : Books) : Prop := ∀ t, Covers (b.balance t here).val (b.entries t)

theorem backed_fresh : Backed here (Moment.fresh tokens world).state.books := by
  intro t
  exact Covers.zero (tokens.balance t here).ge

/-- Each account's entry grows by what the account has less of the token. -/
def Credited (here : Address) (b b' : Books) : Prop :=
  ∀ t x, x ≠ here → b'.entries t x - b.entries t x = (b.balance t x).val - (b'.balance t x).val

/-- The deposits. -/
def Call.deposits : Call → Bool
  | .deposit _ _ | .depositWithFee _ _ _ | .batchDeposit _ | .depositToken _ _ _
  | .depositWithFailureReport _ _ => true
  | _ => false

/-- A deposit that goes through credits the depositors. -/
def Credits (here : Address) (m : Moment W) (a : Action W) (m' : Moment W) : Prop :=
  ∀ streams env c reply, a = .call streams env c reply → c.deposits = true →
    Credited here m.state.books m'.state.books

/-- What is left after a payment of the vault's own token is enough for the accounts. -/
def Spared (here : Address) (b : Books) (total : Int) : Prop :=
  ∀ token, b.settings.token = some token → Covers ((b.balance token here).val - total) (b.entries token)

/-- The calls that keep the accounts backed, and credit each deposit. -/
def Settles (here : Address) (b : Books) : Call → Prop
  | .batchDeposit _ => False
  | .withdraw _ _ amount => Spared here b amount.val
  | .withdrawBatch _ payouts => Spared here b (payouts.map fun p => p.2.val).sum
  | .withdrawToken caller token _ amount => amount.val ≤ b.entries token caller ∨
      Covers ((b.balance token here).val - amount.val) (b.entries token)
  | .executeEmergencyMigration _ =>
      (∃ migration, b.settings.emergencyMigration = some migration ∧ migration.destination = here) ∨
        ∀ token, b.settings.token = some token → Covers 0 (b.entries token)
  | _ => True

def Action.Settles (here : Address) (b : Books) : Action W → Prop
  | .call _ _ c _ => Vault.Settles here b c
  | _ => True

/-! ### Flows -/

/-- No entry is below zero. -/
def Sound (b : Books) : Prop := ∀ t x, 0 ≤ b.entries t x

theorem sound_fresh : Sound (Moment.fresh tokens world).state.books := by
  intro t x
  exact le_refl (0 : Int)

/-- Where the entries stay, and only one balance of the vault moves, that balance decides. -/
theorem backed_iff_of_moved (hb : Backed here b) (hentries : b'.entries = b.entries)
    (hbalance : ∀ t ≠ token, b'.balance t here = b.balance t here) :
    Backed here b' ↔ Covers (b'.balance token here).val (b.entries token) := by
  constructor
  · intro h
    have htoken := h token
    rwa [hentries] at htoken
  · intro h t
    rw [hentries]
    by_cases ht : t = token
    · subst ht
      exact h
    · rw [hbalance t ht]
      exact hb t

theorem Entered.sound {v : Int} (h : Entered token account v b b') (hv : 0 ≤ v) (hs : Sound b) :
    Sound b' := by
  intro t x
  by_cases ht : t = token
  · subst ht
    rw [h.self]
    by_cases hx : x = account
    · subst hx
      rw [Function.update_self]
      exact hv
    · rw [Function.update_of_ne hx]
      exact hs t x
  · rw [h.other t ht]
    exact hs t x

/-- The balance changes by as much as the entry. -/
theorem Entered.backed {v : Int} (h : Entered token account v b b') (hv : 0 ≤ v) (hb : Backed here b)
    (hself : (b'.balance token here).val = (b.balance token here).val + v - b.entries token account)
    (hother : ∀ t ≠ token, b'.balance t here = b.balance t here) : Backed here b' := by
  intro t
  by_cases ht : t = token
  · subst ht
    rw [h.self, hself]
    exact (hb t).update hv
  · rw [h.other t ht, hother t ht]
    exact hb t

theorem Deposited.sound {src : Address} (h : Deposited env src token amount b b') (hs : Sound b) :
    Sound b' := by
  have hfunds := h.funds
  unfold Funds.credit at hfunds
  cases hcredited : (b.funds.getTokenAccountBalance token src).checkedAdd amount with
  | some credited =>
      rw [hcredited] at hfunds
      refine (entered_of_set hfunds).sound ?_ hs
      rw [Ranged.checkedAdd_eq_some.mp hcredited]
      exact add_nonneg (hs token src) h.positive.le
  | none =>
      rw [hcredited] at hfunds
      exact fun t x => entries_of_recorded hfunds ▸ hs t x

/-- One deposit: the entry has room for it, for the balance has. -/
theorem Deposited.settles {src : Address} (h : Deposited env src token amount b b')
    (hb : Backed env.contract b) (hs : Sound b) :
    Backed env.contract b' ∧ Credited env.contract b b' := by
  have hsrc : src ≠ env.contract := Env.ne_contract h.manages.2
  have hbalance := h.balance
  -- the balance covers the entry, so that there is room in it for what the balance had room for
  have hheld : b.entries token src ≤ (b.balance token env.contract).val := by
    have hcovers := hb token {src}
    rwa [Finset.sum_singleton] at hcovers
  have hroom : b.entries token src + amount.val ≤ i128Max := by
    have hle : (b'.balance token env.contract).val ≤ i128Max := (b'.balance token env.contract).le
    omega
  have hnonneg : 0 ≤ b.entries token src + amount.val := add_nonneg (hs token src) h.positive.le
  have hcredited := Ranged.ofInt?_of_mem ((Ranged.lit 0 : I128).ge.trans hnonneg) hroom
  have hentered := entered_of_set (Funds.credit_of hcredited ▸ h.funds)
  refine ⟨hentered.backed hnonneg hb ?_ ?_, ?_⟩
  · rw [hbalance]
    ring
  · exact fun t ht => h.balance_of_ne ht _
  · intro t x hx
    have hreceived : received t x [⟨token, src, env.contract, amount⟩] = 0 := by
      rw [received_singleton, if_neg fun heq => hx heq.2]
    rw [h.moved.balance, hreceived, sent_singleton]
    by_cases ht : t = token
    · subst ht
      rw [hentered.self]
      by_cases hx : x = src
      · subst hx
        rw [Function.update_self, if_pos ⟨rfl, rfl⟩]
        ring
      · rw [Function.update_of_ne hx, if_neg fun heq => hx heq.2]
        ring
    · rw [hentered.other t ht, if_neg fun heq => ht heq.1]
      ring

/-- A batch takes from a depositor, and credits nobody. -/
theorem BatchDeposited.not_credited {deposits : List DepositSpec}
    (h : BatchDeposited env token deposits b b') : ¬ Credited env.contract b b' := by
  intro hcredited
  obtain ⟨d, hd⟩ := List.exists_mem_of_ne_nil _ h.nonempty
  obtain ⟨hauth, hpos⟩ := h.authorized d hd
  have hsrc : d.src ≠ env.contract := Env.ne_contract hauth
  -- the depositor has lost the amount, and the entries are what they were
  have hloss := hcredited token d.src hsrc
  let ts : List Transfer := deposits.map fun d => ⟨token, d.src, env.contract, d.amount⟩
  have hreceived : received token d.src ts = 0 := by
    refine received_eq_zero fun x hx _ => ?_
    obtain ⟨d', -, rfl⟩ := List.mem_map.mp hx
    exact hsrc.symm
  have hsent : 0 < sent token d.src ts := by
    have hin : (⟨token, d.src, env.contract, d.amount⟩ : Transfer) ∈ ts :=
      List.mem_map.mpr ⟨d, hd, rfl⟩
    refine sent_pos (fun x hx => ?_) hin rfl
    obtain ⟨d', hd', rfl⟩ := List.mem_map.mp hx
    exact (h.authorized d' hd').2
  have hmoved : Moved b b' ts := h.moved
  rw [entries_of_recorded h.funds, hmoved.balance, hreceived] at hloss
  omega

theorem PaidOut.backed_iff {caller : Address} {payouts : List (Address × I128)}
    (h : PaidOut env caller token payouts b b') (hb : Backed env.contract b) :
    Backed env.contract b' ↔ Spared env.contract b (payouts.map fun p => p.2.val).sum := by
  let ts : List Transfer := payouts.map fun p => ⟨token, env.contract, p.1, p.2⟩
  have hmoved : Moved b b' ts := h.moved
  have hreceived : received token env.contract ts = 0 := by
    refine received_eq_zero fun x hx _ => ?_
    obtain ⟨p, hp, rfl⟩ := List.mem_map.mp hx
    exact (h.outward p hp).1
  have hother : ∀ t ≠ token, b'.balance t env.contract = b.balance t env.contract := fun t ht =>
    h.balance_of_ne ht _
  have hself : (b'.balance token env.contract).val =
      (b.balance token env.contract).val - (payouts.map fun p => p.2.val).sum := by
    rw [hmoved.balance, hreceived, sent_payouts, if_pos rfl, add_zero]
  rw [backed_iff_of_moved hb (entries_of_recorded h.funds) hother, hself]
  constructor
  · intro hcovers token' htoken'
    obtain rfl : token = token' := Option.some.inj (h.own.symm.trans htoken')
    exact hcovers
  · exact fun hspared => hspared token h.own

theorem Withdrawn.backed_iff {caller dst : Address} (h : Withdrawn env caller token dst amount b b')
    (hs : Sound b) : Sound b' ∧ (Backed env.contract b →
      (Backed env.contract b' ↔ amount.val ≤ b.entries token caller ∨
        Covers ((b.balance token env.contract).val - amount.val) (b.entries token))) := by
  have hother : ∀ t ≠ token, b'.balance t env.contract = b.balance t env.contract := fun t ht =>
    h.balance_of_ne ht _
  have hself : (b'.balance token env.contract).val = (b.balance token env.contract).val - amount.val := by
    rw [h.moved.balance, sent_singleton, received_singleton, if_pos ⟨rfl, rfl⟩,
      if_neg fun heq => h.outward.1 heq.2.symm, add_zero]
  by_cases hle : amount ≤ b.funds.getTokenAccountBalance token caller
  · -- the entry is debited with the payment
    have hdebit : b.entries token caller - amount.val ≤ i128Max := by
      have hmax : b.entries token caller ≤ i128Max := Ranged.le _
      have hpos := h.outward.2
      omega
    have hnonneg : 0 ≤ b.entries token caller - amount.val := sub_nonneg.mpr hle
    have hdebited := Ranged.ofInt?_of_mem ((Ranged.lit 0 : I128).ge.trans hnonneg) hdebit
    have hentered := entered_of_set (Funds.debit_of hle hdebited ▸ h.funds)
    refine ⟨hentered.sound hnonneg hs, fun hb => iff_of_true ?_ (.inl hle)⟩
    refine hentered.backed hnonneg hb ?_ hother
    rw [hself]
    ring
  · -- the owner pays more than its entry, which stays
    have hfunds := h.funds
    unfold Funds.debit at hfunds
    rw [if_neg hle] at hfunds
    have hentries := entries_of_recorded hfunds
    refine ⟨fun t x => hentries ▸ hs t x, fun hb => ?_⟩
    rw [backed_iff_of_moved hb hentries hother, hself]
    exact (or_iff_right hle).symm

theorem Migrated.entries {caller : Address} (h : Migrated env caller b b') :
    b'.entries = b.entries := by
  funext t x
  unfold Books.entries
  rw [h.funds]

theorem Migrated.backed_iff {caller : Address} (h : Migrated env caller b b')
    (hb : Backed env.contract b) :
    Backed env.contract b' ↔ Settles env.contract b (.executeEmergencyMigration caller) := by
  obtain ⟨token, migration, htoken, hmigration, hother, hself⟩ := h.balance
  rw [backed_iff_of_moved hb h.entries hother, hself]
  by_cases hdst : migration.destination = env.contract
  · rw [if_pos hdst]
    exact iff_of_true (hb token) (.inl ⟨migration, hmigration, hdst⟩)
  · rw [if_neg hdst]
    constructor
    · intro hcovers
      refine .inr fun token' htoken' => ?_
      obtain rfl : token = token' := Option.some.inj (htoken.symm.trans htoken')
      exact hcovers
    · rintro (⟨migration', hmigration', hdst'⟩ | hcovers)
      · obtain rfl : migration = migration' := Option.some.inj (hmigration.symm.trans hmigration')
        exact absurd hdst' hdst
      · exact hcovers token htoken

/-! ### Runs -/

/-- What one call does to the accounts. -/
theorem settles_iff_of_flow (h : Flow env b c reply b') (hs : Sound b) :
    Sound b' ∧ (Backed env.contract b →
      (Backed env.contract b' ∧ (c.deposits = true → Credited env.contract b b') ↔
        Settles env.contract b c)) := by
  have kept : b'.entries = b.entries → Sound b' := fun hentries t x => hentries ▸ hs t x
  cases h with
  | deposit h | depositWithFee h | depositToken h | reported h =>
      refine ⟨h.sound hs, fun hb => ?_⟩
      obtain ⟨hb', hcredited⟩ := h.settles hb hs
      exact iff_of_true ⟨hb', fun _ => hcredited⟩ trivial
  | batchDeposit h =>
      refine ⟨kept (entries_of_recorded h.funds), fun _ => ?_⟩
      exact iff_of_false (fun h' => h.not_credited (h'.2 rfl)) id
  | unsettled => exact ⟨hs, fun hb => iff_of_true ⟨hb, fun _ t x _ => by ring⟩ trivial⟩
  | withdraw h =>
      refine ⟨kept (entries_of_recorded h.funds), fun hb => ?_⟩
      refine (and_iff_left fun hc => by cases hc).trans ?_
      rw [h.backed_iff hb, List.map_singleton, List.sum_singleton]
      rfl
  | withdrawBatch h =>
      refine ⟨kept (entries_of_recorded h.funds), fun hb => ?_⟩
      exact (and_iff_left fun hc => by cases hc).trans (h.backed_iff hb)
  | withdrawToken h =>
      obtain ⟨hs', hiff⟩ := h.backed_iff hs
      exact ⟨hs', fun hb => (and_iff_left fun hc => by cases hc).trans (hiff hb)⟩
  | vaultBatchWithdraw h =>
      have hentries : b'.entries = b.entries := by rw [h.rest]; rfl
      refine ⟨kept hentries, fun hb => iff_of_true ⟨fun t => ?_, fun hc => by cases hc⟩ trivial⟩
      rw [hentries]
      exact (hb t).mono (h.spares t)
  | executeEmergencyMigration h =>
      refine ⟨kept h.entries, fun hb => ?_⟩
      exact (and_iff_left fun hc => by cases hc).trans (h.backed_iff hb)
  | still hstill h =>
      have hentries : b'.entries = b.entries := by rw [h]; rfl
      refine ⟨kept hentries, fun hb => ?_⟩
      have hb' : Backed env.contract b' := by
        rw [h]
        exact hb
      cases c with
      | deposit | depositWithFee | batchDeposit | depositToken | depositWithFailureReport | withdraw
      | withdrawBatch | withdrawToken | executeEmergencyMigration => cases hstill
      | _ => exact iff_of_true ⟨hb', fun hc => by cases hc⟩ trivial

theorem Step.settles_iff (h : Step here m a m') (hs : Sound m.state.books) :
    Sound m'.state.books ∧ (Backed here m.state.books →
      (Backed here m'.state.books ∧ Credits here m a m' ↔ a.Settles here m.state.books)) := by
  cases h with
  | call henv htime hseq hstreams hexec =>
      subst henv
      obtain ⟨hs', hiff⟩ := settles_iff_of_flow (effect_of_exec hstreams hexec).flow hs
      refine ⟨hs', fun hb => Iff.trans (and_congr_right fun _ => ?_) (hiff hb)⟩
      constructor
      · exact fun h hc => h _ _ _ _ rfl hc
      · rintro h _ _ _ _ ⟨⟩ hc
        exact h hc
  | failed =>
      exact ⟨hs, fun hb => iff_of_true ⟨hb, fun _ _ _ _ hcall => by cases hcall⟩ trivial⟩
  | outside hspares =>
      refine ⟨hs, fun hb => iff_of_true ⟨fun t => ?_, fun _ _ _ _ hcall => by cases hcall⟩ trivial⟩
      exact (hb t).mono (hspares t)

/-- **The accounts.**  A run keeps the vault's balances enough for the entries of the accounts, and
credits each deposit to the depositor, exactly if each of its calls settles. -/
theorem backed_of_run :
    (Run (fun m a m' => Step here m a m' ∧ Backed here m'.state.books ∧ Credits here m a m')
        (Moment.fresh tokens world) as m ↔
      Run (fun m a m' => Step here m a m' ∧ a.Settles here m.state.books)
        (Moment.fresh tokens world) as m) ∧
    (Run (fun m a m' => Step here m a m' ∧ a.Settles here m.state.books)
        (Moment.fresh tokens world) as m → Backed here m.state.books) := by
  have hsound : ∀ (m : Moment W) a m', Step here m a m' → Sound m.state.books →
      Sound m'.state.books := fun m a m' hstep hs => (hstep.settles_iff hs).1
  have hiff : ∀ (m : Moment W) a m', Step here m a m' → Sound m.state.books →
      Backed here m.state.books → (Backed here m'.state.books ∧ Credits here m a m' ↔
        a.Settles here m.state.books) := fun m a m' hstep hs => (hstep.settles_iff hs).2
  exact Run.keeps_and_spec (P := fun m : Moment W => Backed here m.state.books)
    (Q := fun m : Moment W => Sound m.state.books) hsound hiff sound_fresh backed_fresh

/-- A deposit of 300, and 100 of it paid through `withdraw_token`. -/
theorem backed_of_run_withdrawn :
    let deposit := Call.deposit Sample.owner (.lit 300)
    let pay := Call.withdrawToken Sample.owner Sample.token (.account 3) (.lit 100)
    let m := Sample.visited [Sample.signed Sample.owner deposit, Sample.signed Sample.owner pay]
    Backed Sample.address m.state.books := by
  intro deposit pay m
  let env := Sample.signedBy Sample.owner (.lit 100) (.lit 1)
  let m₀ : Moment Unit := Moment.fresh Sample.tokens ()
  let m₁ := Sample.visited []
  let m₂ := Sample.visited [Sample.signed Sample.owner deposit]
  have first : Step Sample.address m₀ (.call Sample.silent env
      (.initializeVault Sample.owner Sample.token (.lit 500)) .done) m₁ :=
    .call rfl (by decide) (by decide) Sample.silent_spares rfl
  have second : Step Sample.address m₁ (.call Sample.silent env deposit .done) m₂ :=
    .call rfl (by decide) (by decide) Sample.silent_spares rfl
  have third : Step Sample.address m₂ (.call Sample.silent env pay .done) m :=
    .call rfl (by decide) (by decide) Sample.silent_spares rfl
  refine backed_of_run.2 (Run.snoc (Run.snoc (Run.snoc (.nil m₀) ⟨first, trivial⟩)
    ⟨second, trivial⟩) ⟨third, .inl ?_⟩)
  decide

/-- A deposit of 300, all of it paid through `withdraw`: the owner's entry is still 300.  And 300
deposited through `batch_deposit`: the owner's entry is still 0. -/
theorem withdraw_leaves_entry :
    let deposit := Sample.signed Sample.owner (.deposit Sample.owner (.lit 300))
    let paid := Sample.visited
      [deposit, Sample.signed Sample.owner (.withdraw Sample.owner (.account 3) (.lit 300))]
    let batch := Call.batchDeposit [⟨Sample.owner, .lit 300⟩]
    let m := Sample.visited []
    let m' := Sample.visited [Sample.signed Sample.owner batch]
    (Reachable Sample.address paid ∧ ¬ Backed Sample.address paid.state.books) ∧
      Step Sample.address m (.call Sample.silent (Sample.signedBy Sample.owner (.lit 100) (.lit 1))
        batch .done) m' ∧
      (m.state.balance Sample.token Sample.owner = .lit 1000 ∧
        m'.state.balance Sample.token Sample.owner = .lit 700) ∧
      m'.state.books.entries Sample.token Sample.owner = 0 := by
  intro deposit paid batch m m'
  refine ⟨⟨Sample.reachable_visited _ (by decide), fun hbacked => ?_⟩,
    .call rfl (by decide) (by decide) Sample.silent_spares rfl, ⟨rfl, rfl⟩, rfl⟩
  have hcovers := hbacked Sample.token {Sample.owner}
  rw [Finset.sum_singleton] at hcovers
  exact absurd hcovers (by decide)

end Drip.Vault
