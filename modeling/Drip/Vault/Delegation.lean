import Drip.Vault.Limits

/-!
# Vault — Delegation

What an operator can do on its own.  Its calls tighten the bounds of the vault or leave them alone, with
one exception: `set_token_max_limit` lets it raise the limit of a token.  What it pays out in one call is
within its limit.

* `OperatorOnly`: the call is authorized by the operator and nobody else.
* `Restrained`: the settings are no wider than before; `Tightens`: the calls that leave them so.
-/

namespace Drip.Vault
open Chain

variable {W : Type} {here : Address} {streams : Streams W} {env : Env} {m m' : Moment W}
variable {c : Call} {reply : Reply} {a : Action W} {as : List (Action W)} {old new settings : Settings}

/-- The operator has authorized the call, and nobody else; it is not the owner. -/
def OperatorOnly (env : Env) (settings : Settings) : Prop :=
  ∃ operator owner, settings.operator = some operator ∧ settings.owner = some owner ∧
    operator ≠ owner ∧ ∀ a, env.authorized a = true → a = operator

theorem OperatorOnly.not_owns {caller : Address} (h : OperatorOnly env settings) :
    ¬ Owns env settings caller := by
  obtain ⟨operator, owner, -, howner, hne, honly⟩ := h
  rintro ⟨howns, hauth⟩
  obtain rfl : owner = caller := Option.some.inj (howner.symm.trans howns)
  exact hne (honly owner hauth).symm

theorem OperatorOnly.of_signed {t : U64} {sequence : U32}
    (hoperator : settings.operator = some Sample.operator)
    (howner : settings.owner = some Sample.owner) :
    OperatorOnly (Sample.signedBy Sample.operator t sequence) settings := by
  refine ⟨Sample.operator, Sample.owner, hoperator, howner, by decide, fun a ha => ?_⟩
  simp only [Sample.signedBy, Bool.and_eq_true, beq_iff_eq] at ha
  exact ha.2

/-! ### Settings -/

/-- A limit that is there is not raised, nor taken away. -/
def Tightened (old new : Option I128) : Prop := ∀ x, old = some x → ∃ y, new = some y ∧ y ≤ x

theorem Tightened.refl (limit : Option I128) : Tightened limit limit := fun x h => ⟨x, h, le_refl x.val⟩

theorem Tightened.trans {limit : Option I128} {old new : Option I128} (h : Tightened old limit)
    (h' : Tightened limit new) : Tightened old new := by
  intro x hx
  obtain ⟨y, hy, hle⟩ := h x hx
  obtain ⟨z, hz, hle'⟩ := h' y hy
  exact ⟨z, hz, le_trans (a := z.val) hle' hle⟩

/-- The limits on deposits may be lower; the rest of what bounds the vault is what it was. -/
structure Restrained (old new : Settings) : Prop where
  maxLimit : Tightened old.maxLimit new.maxLimit
  tokenMaxLimit : ∀ token, Tightened (old.tokenMaxLimit token) (new.tokenMaxLimit token)
  operatorWithdrawLimit : new.operatorWithdrawLimit = old.operatorWithdrawLimit
  owner : new.owner = old.owner
  operator : new.operator = old.operator
  approvedToken : new.approvedToken = old.approvedToken
  emergencyMigration : new.emergencyMigration = old.emergencyMigration

theorem Restrained.refl (settings : Settings) : Restrained settings settings :=
  ⟨.refl _, fun _ => .refl _, rfl, rfl, rfl, rfl, rfl⟩

theorem Restrained.trans (h : Restrained old settings) (h' : Restrained settings new) :
    Restrained old new where
  maxLimit := h.maxLimit.trans h'.maxLimit
  tokenMaxLimit token := (h.tokenMaxLimit token).trans (h'.tokenMaxLimit token)
  operatorWithdrawLimit := h'.operatorWithdrawLimit.trans h.operatorWithdrawLimit
  owner := h'.owner.trans h.owner
  operator := h'.operator.trans h.operator
  approvedToken := h'.approvedToken.trans h.approvedToken
  emergencyMigration := h'.emergencyMigration.trans h.emergencyMigration

/-- The call does not raise the limit of a token, nor accept the ownership. -/
def Tightens (settings : Settings) : Call → Prop
  | .setTokenMaxLimit _ token limit => ∀ x, settings.tokenMaxLimit token = some x → limit ≤ x
  | .acceptOwner _ => False
  | _ => True

/-- A call of the operator alone restrains the settings exactly if it tightens them. -/
theorem Setting.restrained_iff (h : Setting env old c new) (honly : OperatorOnly env old) :
    Restrained old new ↔ Tightens old c := by
  cases h with
  | initializeVault hnone =>
      obtain ⟨-, owner, -, howner, -⟩ := honly
      rw [hnone] at howner
      cases howner
  | setLimit hmanages hpos hold hraise =>
      refine iff_of_true { Restrained.refl old with maxLimit := fun x hx => ⟨_, rfl, ?_⟩ } trivial
      obtain rfl := Option.some.inj (hold.symm.trans hx)
      exact hraise.resolve_right honly.not_owns
  | setTokenMaxLimit hmanages hpos =>
      -- the source asks for the owner or the operator, and does not look at the limit so far
      rename_i caller token limit
      constructor
      · intro h x hx
        obtain ⟨y, hy, hle⟩ := h.tokenMaxLimit token x hx
        have hset : (old.setTokenMaxLimit token limit).tokenMaxLimit token = some limit :=
          Function.update_self ..
        rw [hset, Option.some.injEq] at hy
        exact hy ▸ hle
      · intro htightens
        refine { Restrained.refl old with tokenMaxLimit := fun t => ?_ }
        by_cases ht : t = token
        · subst ht
          exact fun x hx => ⟨limit, Function.update_self .., htightens x hx⟩
        · have hkept : (old.setTokenMaxLimit token limit).tokenMaxLimit t = old.tokenMaxLimit t :=
            Function.update_of_ne ht ..
          rw [hkept]
          exact .refl _
  | acceptOwner hauth =>
      refine iff_of_false (fun h => ?_) id
      -- the operator itself would own the vault from then on
      obtain ⟨operator, owner, -, howner, hne, honly⟩ := honly
      have hkept := h.owner.trans howner
      rw [Option.some.injEq] at hkept
      exact hne ((honly _ hauth).symm.trans hkept)
  | proposeOwner howns | setOwnerProposalTtl howns | setOperatorWithdrawLimit howns
  | approveToken howns | setOperator howns | revokeOperator howns
  | initiateEmergencyMigration howns | executeEmergencyMigration howns
  | cancelEmergencyMigration howns => exact absurd howns honly.not_owns
  | kept hc =>
      refine iff_of_true (.refl old) ?_
      cases c with
      | setTokenMaxLimit | acceptOwner => cases hc
      | _ => trivial

/-- A step in which no one but the operator has a call carried out. -/
def Delegated (here : Address) (m : Moment W) (a : Action W) (m' : Moment W) : Prop :=
  Step here m a m' ∧
    ∀ streams env c reply, a = .call streams env c reply → OperatorOnly env m.state.store.settings

/-- A call that is carried out tightens the settings. -/
def Action.Tightens (settings : Settings) : Action W → Prop
  | .call _ _ c _ => Vault.Tightens settings c
  | _ => True

theorem Delegated.restrained_iff (h : Delegated here m a m') :
    Restrained m.state.store.settings m'.state.store.settings ↔
      a.Tightens m.state.store.settings := by
  obtain ⟨hstep, honly⟩ := h
  cases hstep with
  | call henv htime hseq hstreams hexec =>
      exact (effect_of_exec (henv ▸ hstreams) hexec).setting.restrained_iff (honly _ _ _ _ rfl)
  | failed | outside => exact iff_of_true (.refl _) trivial

/-- **Delegation.**  Over every run in which only the operator has calls carried out, each step restrains
the settings exactly if each tightens them, and then they are restrained at the end. -/
theorem restrained_of_run :
    (Run (fun m a m' => Delegated here m a m' ∧
        Restrained m.state.store.settings m'.state.store.settings) m as m' ↔
      Run (fun m a m' => Delegated here m a m' ∧ a.Tightens m.state.store.settings) m as m') ∧
    (Run (fun m a m' => Delegated here m a m' ∧ a.Tightens m.state.store.settings) m as m' →
      Restrained m.state.store.settings m'.state.store.settings) := by
  constructor
  · constructor
    · exact fun h => h.mono fun _ hstep => ⟨hstep.1, hstep.1.restrained_iff.mp hstep.2⟩
    · exact fun h => h.mono fun _ hstep => ⟨hstep.1, hstep.1.restrained_iff.mpr hstep.2⟩
  · intro h
    refine h.invariant (P := fun m' => Restrained m.state.store.settings m'.state.store.settings) ?_
      (.refl _)
    exact fun _ hstep hm => hm.trans (hstep.1.restrained_iff.mpr hstep.2)

/-- The operator lowers the limit of the vault, and then sets one for its token. -/
theorem restrained_of_run_lowered :
    let appointed := [Sample.signed Sample.owner (.setOperator Sample.owner Sample.operator)]
    let m := Sample.visited appointed
    let m' := Sample.visited (appointed ++
      [Sample.signed Sample.operator (.setLimit Sample.operator (.lit 400)),
        Sample.signed Sample.operator (.setTokenMaxLimit Sample.operator Sample.token (.lit 300))])
    Restrained m.state.store.settings m'.state.store.settings := by
  intro appointed m m'
  let m₁ := Sample.visited (appointed ++
    [Sample.signed Sample.operator (.setLimit Sample.operator (.lit 400))])
  let env := Sample.signedBy Sample.operator (.lit 100) (.lit 1)
  have lower : Delegated Sample.address m (.call Sample.silent env
      (.setLimit Sample.operator (.lit 400)) .done) m₁ := by
    refine ⟨.call rfl (by decide) (by decide) Sample.silent_spares rfl, ?_⟩
    rintro _ _ _ _ ⟨⟩
    exact .of_signed rfl rfl
  have limit : Delegated Sample.address m₁ (.call Sample.silent env
      (.setTokenMaxLimit Sample.operator Sample.token (.lit 300)) .done) m' := by
    refine ⟨.call rfl (by decide) (by decide) Sample.silent_spares rfl, ?_⟩
    rintro _ _ _ _ ⟨⟩
    exact .of_signed rfl rfl
  refine restrained_of_run.2 (Run.snoc (Run.snoc (.nil m) ⟨lower, trivial⟩) ⟨limit, ?_⟩)
  intro x hx
  cases hx

/-- The owner sets a limit of 300 for the token, and the operator raises it to 700. -/
theorem operator_raises_token_limit :
    let limited := [Sample.signed Sample.owner (.setOperator Sample.owner Sample.operator),
      Sample.signed Sample.owner (.setTokenMaxLimit Sample.owner Sample.token (.lit 300))]
    let raise := Call.setTokenMaxLimit Sample.operator Sample.token (.lit 700)
    let m := Sample.visited limited
    let m' := Sample.visited (limited ++ [Sample.signed Sample.operator raise])
    Reachable Sample.address m ∧
      Delegated Sample.address m (.call Sample.silent
        (Sample.signedBy Sample.operator (.lit 100) (.lit 1)) raise .done) m' ∧
      m.state.store.settings.tokenMaxLimit Sample.token = some (.lit 300) ∧
      m'.state.store.settings.tokenMaxLimit Sample.token = some (.lit 700) ∧
      ¬ Restrained m.state.store.settings m'.state.store.settings := by
  intro limited raise m m'
  refine ⟨Sample.reachable_visited _ (by decide), ⟨.call rfl (by decide) (by decide)
    Sample.silent_spares rfl, ?_⟩, rfl, rfl, fun h => ?_⟩
  · rintro _ _ _ _ ⟨⟩
    exact .of_signed rfl rfl
  · obtain ⟨y, hy, hle⟩ := h.tokenMaxLimit Sample.token (.lit 300) rfl
    obtain rfl : y = .lit 700 := (Option.some.inj hy).symm
    exact absurd hle (by decide)

/-! ### Payments -/

/-- What the call asks the vault to pay of a token. -/
def Call.requested (own : Option Address) (t : Address) : Call → Int
  | .withdraw _ _ amount => if own = some t then amount.val else 0
  | .withdrawBatch _ payouts => if own = some t then (payouts.map fun p => p.2.val).sum else 0
  | .withdrawToken _ token _ amount => if t = token then amount.val else 0
  | _ => 0

theorem sent_payouts (t a token : Address) (payouts : List (Address × I128)) :
    sent t a (payouts.map fun p => ⟨token, a, p.1, p.2⟩) =
      if t = token then (payouts.map fun p => p.2.val).sum else 0 := by
  induction payouts with
  | nil => simp [sent]
  | cons p rest ih =>
      rw [List.map_cons, ← List.singleton_append, sent_append, ih, sent_singleton, List.map_cons,
        List.sum_cons]
      by_cases ht : t = token
      · simp [ht]
      · simp [ht]

/-- A payment in the name of the caller, which does not own the vault, is within the limit of the
operator. -/
theorem OperatorOnly.le_limit {caller : Address} {total : Int} (honly : OperatorOnly env settings)
    (h : Capped env settings caller total) :
    total ≤ (settings.operatorWithdrawLimit.getD (.lit 0)).val := by
  obtain ⟨limit, hlimit, hle⟩ := h.2 fun howner => honly.not_owns ⟨howner, h.1.2⟩
  rw [hlimit]
  exact hle

theorem operatorWithdrawLimit_nonneg (h : Reachable here m) :
    0 ≤ (m.state.store.settings.operatorWithdrawLimit.getD (.lit 0)).val := by
  obtain ⟨tokens, world, as, hrun⟩ := h
  refine settings_of_run (P := fun s => 0 ≤ (s.operatorWithdrawLimit.getD (.lit 0)).val) (by decide)
    (fun env old c new h hold => ?_) hrun
  cases h with
  | setOperatorWithdrawLimit _ hpos => exact hpos.le
  | _ => exact hold

/-- The transfers, and the balances after them, take from the vault what the call asks for, and no
more. -/
structure Outflow (here : Address) (c : Call) (b b' : Books) (ts : List Transfer) : Prop where
  transfers : b'.transfers = b.transfers ++ ts
  sent : ∀ t, sent t here ts = c.requested b.settings.token t
  balance : ∀ t, (b.balance t here).val - c.requested b.settings.token t ≤ (b'.balance t here).val

theorem Moved.outflow {b b' : Books} {ts : List Transfer} (h : Moved b b' ts)
    (hpos : ∀ x ∈ ts, 0 < x.amount.val) (hsent : ∀ t, sent t here ts = c.requested b.settings.token t) :
    Outflow here c b b' ts := by
  refine ⟨h.transfers, hsent, fun t => ?_⟩
  rw [h.balance, hsent]
  have hreceived := received_nonneg (t := t) (a := here) hpos
  omega

/-- What issues no transfer, and spares the vault. -/
theorem Outflow.none {b b' : Books} (htransfers : b'.transfers = b.transfers)
    (hspares : Ledger.Spares here b.tokens b'.tokens) (hc : ∀ own t, c.requested own t = 0) :
    Outflow here c b b' [] := by
  refine ⟨by rw [htransfers, List.append_nil], fun t => (hc _ t).symm, fun t => ?_⟩
  rw [hc, sub_zero]
  exact hspares t

/-- A deposit takes nothing from the vault. -/
theorem Deposited.outflow {src token : Address} {amount : I128} {b b' : Books}
    (h : Deposited env src token amount b b') (hc : ∀ own t, c.requested own t = 0) :
    Outflow env.contract c b b' [⟨token, src, env.contract, amount⟩] := by
  refine h.moved.outflow (fun x hx => ?_) fun t => ?_
  · obtain rfl := List.mem_singleton.mp hx
    exact h.positive
  · rw [hc]
    refine sent_eq_zero fun x hx _ => ?_
    obtain rfl := List.mem_singleton.mp hx
    exact Env.ne_contract h.manages.2

theorem BatchDeposited.outflow {deposits : List DepositSpec} {token : Address} {b b' : Books}
    (h : BatchDeposited env token deposits b b') (hc : ∀ own t, c.requested own t = 0) :
    Outflow env.contract c b b' (deposits.map fun d => ⟨token, d.src, env.contract, d.amount⟩) := by
  refine h.moved.outflow (fun x hx => ?_) fun t => ?_
  · obtain ⟨d, hd, rfl⟩ := List.mem_map.mp hx
    exact (h.authorized d hd).2
  · rw [hc]
    refine sent_eq_zero fun x hx _ => ?_
    obtain ⟨d, hd, rfl⟩ := List.mem_map.mp hx
    exact Env.ne_contract (h.authorized d hd).1

theorem PaidOut.outflow {caller token : Address} {payouts : List (Address × I128)} {b b' : Books}
    (h : PaidOut env caller token payouts b b')
    (hc : ∀ t, c.requested b.settings.token t =
      if b.settings.token = some t then (payouts.map fun p => p.2.val).sum else 0) :
    Outflow env.contract c b b' (payouts.map fun p => ⟨token, env.contract, p.1, p.2⟩) := by
  refine h.moved.outflow (fun x hx => ?_) fun t => ?_
  · obtain ⟨p, hp, rfl⟩ := List.mem_map.mp hx
    exact (h.outward p hp).2
  · rw [hc, sent_payouts, h.own]
    exact if_congr (by rw [Option.some.injEq, eq_comm]) rfl rfl

/-- A call of the operator alone pays what it asks for, and that is within its limit. -/
theorem outflow_of_effect {b b' : Books} (h : Effect env b c reply b')
    (honly : OperatorOnly env b.settings)
    (hlimit : 0 ≤ (b.settings.operatorWithdrawLimit.getD (.lit 0)).val) :
    (∃ ts, Outflow env.contract c b b' ts) ∧
      ∀ t, c.requested b.settings.token t ≤ (b.settings.operatorWithdrawLimit.getD (.lit 0)).val := by
  obtain ⟨hsetting, hflow⟩ := h
  have bounded : ∀ {caller total}, Capped env b.settings caller total → ∀ (p : Prop) [Decidable p],
      (if p then total else 0) ≤ (b.settings.operatorWithdrawLimit.getD (.lit 0)).val := by
    intro caller total hcapped p _
    split
    · exact honly.le_limit hcapped
    · exact hlimit
  cases hflow with
  | deposit h | depositWithFee h | depositToken h | reported h =>
      exact ⟨⟨_, h.outflow fun _ _ => rfl⟩, fun _ => hlimit⟩
  | batchDeposit h => exact ⟨⟨_, h.outflow fun _ _ => rfl⟩, fun _ => hlimit⟩
  | unsettled => exact ⟨⟨[], .none rfl (fun _ => le_rfl) fun _ _ => rfl⟩, fun _ => hlimit⟩
  | withdraw h =>
      have hcapped := h.capped
      simp only [List.map_cons, List.map_nil, List.sum_singleton] at hcapped
      exact ⟨⟨_, h.outflow fun t => by simp [Call.requested]⟩, fun t => bounded hcapped _⟩
  | withdrawBatch h => exact ⟨⟨_, h.outflow fun _ => rfl⟩, fun t => bounded h.capped _⟩
  | withdrawToken h =>
      refine ⟨⟨_, h.moved.outflow (fun x hx => ?_) fun t => ?_⟩, fun t => bounded h.capped _⟩
      · obtain rfl := List.mem_singleton.mp hx
        exact h.outward.2
      · rw [sent_singleton]
        exact if_congr (and_iff_left rfl) rfl rfl
  | vaultBatchWithdraw h =>
      refine ⟨⟨[], .none ?_ h.spares fun _ _ => rfl⟩, fun _ => hlimit⟩
      rw [h.rest]
  | executeEmergencyMigration =>
      generalize b'.settings = new at hsetting
      cases hsetting with
      | executeEmergencyMigration howns => exact absurd howns honly.not_owns
      | kept hc => cases hc
  | still hstill h =>
      have hc : ∀ own t, c.requested own t = 0 := by
        cases c with
        | withdraw | withdrawBatch | withdrawToken => cases hstill
        | _ => exact fun _ _ => rfl
      refine ⟨⟨[], .none ?_ (fun t => ?_) hc⟩, fun t => (hc _ t).trans_le hlimit⟩
      · rw [h]
      · rw [h]

/-- The call of an action, carried out or not. -/
def Action.invocation : Action W → Option (Env × Call)
  | .call _ env c _ | .failed _ env c _ => some (env, c)
  | .outside _ _ => none

/-- **Payments of the operator.**  A call of the operator alone takes from the vault at most its limit of
any token, and nothing where it has none; one that asks for more leaves the vault as it is. -/
theorem outflow_of_operator (hm : Reachable here m) (h : Step here m a m')
    (ha : a.invocation = some (env, c)) (honly : OperatorOnly env m.state.store.settings) :
    let limit := (m.state.store.settings.operatorWithdrawLimit.getD (.lit 0)).val
    ∃ ts, m'.state.transfers = m.state.transfers ++ ts ∧
      ∀ t, sent t here ts ≤ limit ∧
        (m.state.balance t here).val - limit ≤ (m'.state.balance t here).val ∧
        (limit < c.requested m.state.store.settings.token t → m'.state = m.state) := by
  intro limit
  have hlimit : 0 ≤ limit := operatorWithdrawLimit_nonneg hm
  cases h with
  | call henv htime hseq hstreams hexec =>
      obtain ⟨rfl, rfl⟩ := Prod.mk.inj (Option.some.inj ha)
      obtain ⟨⟨ts, houtflow⟩, hle⟩ :=
        outflow_of_effect (effect_of_exec (henv ▸ hstreams) hexec) honly hlimit
      rw [henv] at houtflow
      refine ⟨ts, houtflow.transfers, fun t => ⟨(houtflow.sent t).trans_le (hle t), ?_, fun hlt => ?_⟩⟩
      · have hbalance := houtflow.balance t
        have hrequested : Call.requested m.state.books.settings.token t _ ≤ limit := hle t
        exact (sub_le_sub_left hrequested _).trans hbalance
      · exact absurd (hle t) (not_le.mpr hlt)
  | failed =>
      exact ⟨[], (List.append_nil _).symm, fun t => ⟨hlimit, sub_le_self _ hlimit, fun _ => rfl⟩⟩
  | outside => cases ha

/-- With a limit of 100, the operator pays 40 and 60 to one account; 40 and 61 it does not. -/
theorem outflow_of_operator_batch :
    let m := Sample.visited [Sample.signed Sample.owner (.setOperator Sample.owner Sample.operator),
      Sample.signed Sample.owner (.setOperatorWithdrawLimit Sample.owner (.lit 100)),
      Sample.signed Sample.owner (.deposit Sample.owner (.lit 300))]
    let pay (x y : I128) := Sample.signed Sample.operator
      (.withdrawBatch Sample.operator [(.account 3, x), (.account 3, y)])
    ((m.perform Sample.silent (pay (.lit 40) (.lit 60))).2.state.balance
      Sample.token Sample.address).val = 200 ∧
    (m.perform Sample.silent (pay (.lit 40) (.lit 61))).2.state = m.state := by
  intro m pay
  have hm : Reachable Sample.address m := Sample.reachable_visited _ (by decide)
  have hstep : ∀ x y, Step Sample.address m (m.perform Sample.silent (pay x y)).1
      (m.perform Sample.silent (pay x y)).2 := fun x y =>
    step_perform Sample.silent_spares rfl (le_refl (100 : Int)) (le_refl (1 : Int))
  constructor
  · obtain ⟨ts, -, hall⟩ := outflow_of_operator hm (hstep (.lit 40) (.lit 60)) rfl (.of_signed rfl rfl)
    exact le_antisymm (by decide) (hall Sample.token).2.1
  · obtain ⟨ts, -, hall⟩ := outflow_of_operator hm (hstep (.lit 40) (.lit 61)) rfl (.of_signed rfl rfl)
    exact (hall Sample.token).2.2 (by decide)

end Drip.Vault
