import Drip.Stream.Issued

/-!
# Stream — Pool

The books of the keeper reward pool.  The stored counter is a signed number beside the contract's
real balance of the reward token.  `keeper_ping` asks for a counter that covers the bounty, but
`withdraw_keeper_reward_pool` only subtracts, with a subtraction that fails below `i128::MIN`; what
stops a withdrawal is the real balance, which anyone can raise.

* `pool_of_step`: a step keeps the books exactly when it withdraws no more than the counter.
* `withdrawPool_avoids`: the refusal of the code is never given.
* `pool_of_run`: both along runs.
-/

namespace Drip.Stream
open Chain

variable {env : Env} {here : Address} {args : InitArgs} {m m' m₀ : Moment} {a : Action}
variable {as : List Action} {s s' : State} {info info' : StreamInfo} {c : Call} {now : Int}
variable {ts us : List Transfer}

/-! ### The books -/

/-- What was paid into the pool. -/
def poolFunded (here : Address) (ts : List Transfer) : Int :=
  (ts.map fun t => if t.purpose = .keeper ∧ t.dst = here then t.amount.val else 0).sum

/-- What was paid out of the pool, in bounties and withdrawals. -/
def poolSpent (here : Address) (ts : List Transfer) : Int :=
  (ts.map fun t => if t.purpose = .keeper ∧ t.src = here then t.amount.val else 0).sum

@[simp]
theorem poolFunded_append : poolFunded here (ts ++ us) = poolFunded here ts + poolFunded here us := by
  simp [poolFunded]

@[simp]
theorem poolSpent_append : poolSpent here (ts ++ us) = poolSpent here ts + poolSpent here us := by
  simp [poolSpent]

theorem pool_of_no_keeper (h : ∀ t ∈ ts, t.purpose ≠ .keeper) :
    poolFunded here ts = 0 ∧ poolSpent here ts = 0 :=
  ⟨sum_eq_zero fun t ht hh => h t ht hh.1, sum_eq_zero fun t ht hh => h t ht hh.1⟩

/-- The counter is what was paid in less what was paid out, is not negative, and is covered by the
contract's balance of the reward token. -/
structure PoolBooks (here : Address) (s : State) : Prop where
  balance : (s.store.keeperRewardPool.map (·.balance.val)).getD 0 =
    poolFunded here s.transfers - poolSpent here s.transfers
  nonneg : ∀ pool ∈ s.store.keeperRewardPool, 0 ≤ pool.balance.val
  covered : ∀ pool ∈ s.store.keeperRewardPool,
    pool.balance.val ≤ (s.tokens.balance pool.token here).val

/-- A withdrawal from the pool asks for no more than the counter. -/
def WithinPool (m : Moment) (a : Action) : Prop :=
  ∀ env caller amount pool, a = .call env (.withdrawKeeperRewardPool caller amount) →
    m.state.store.keeperRewardPool = some pool → amount.val ≤ pool.balance.val

/-! ### Calls that leave the pool alone -/

theorem Call.Issues.not_keeper (h : c.Issues env s info ts) (hc : c.IsKeeper = false) :
    ∀ t ∈ ts, t.token = info.token ∧ t.purpose ≠ .keeper := by
  intro t ht
  cases c with
  | withdraw | clawback =>
      obtain ⟨htok, -, hp⟩ := h t ht
      exact ⟨htok, by rw [hp]; decide⟩
  | cancel | forceCancel =>
      rcases h t ht with ⟨htok, -, hp⟩ | ⟨htok, -, hp⟩ <;> exact ⟨htok, by rw [hp]; decide⟩
  | topUp | topUpAndExtend =>
      obtain ⟨-, rfl⟩ := h
      obtain rfl := List.mem_singleton.mp ht
      exact ⟨rfl, fun hp => by cases hp⟩
  | extendDuration =>
      obtain ⟨d, -, -, rfl⟩ := h
      obtain rfl := List.mem_singleton.mp ht
      exact ⟨rfl, fun hp => by cases hp⟩
  | configureKeeperRewardPool | fundKeeperRewardPool | withdrawKeeperRewardPool | keeperPing =>
      cases hc
  | _ =>
      obtain rfl := h
      cases ht

theorem Wrote.pool (h : Wrote env c s info s' info') (hc : c.IsKeeper = false)
    (hx : ∀ args, c ≠ .initializeStream args) :
    s'.store.keeperRewardPool = s.store.keeperRewardPool := by
  rw [h.write]
  cases c with
  | initializeStream args => exact absurd rfl (hx args)
  | configureKeeperRewardPool | fundKeeperRewardPool | withdrawKeeperRewardPool | keeperPing =>
      cases hc
  | _ => rfl

theorem ne_initialize_of_exec (hi : s.store.config = some info) (h : exec env s c = .ok s') :
    ∀ args, c ≠ .initializeStream args := by
  rintro args rfl
  simp [exec, initializeStream, initializeReading, hi] at h

/-- The books hold in a state with the same pool, no new transfer of the pool, and no less of the
reward token. -/
theorem PoolBooks.congr (h : PoolBooks here s)
    (hpool : s'.store.keeperRewardPool = s.store.keeperRewardPool)
    (hts : s'.transfers = s.transfers ++ ts) (hno : ∀ t ∈ ts, t.purpose ≠ .keeper)
    (hbal : ∀ pool ∈ s.store.keeperRewardPool, (s.tokens.balance pool.token here).val ≤
      (s'.tokens.balance pool.token here).val) : PoolBooks here s' := by
  obtain ⟨hf, hsp⟩ : poolFunded here ts = 0 ∧ poolSpent here ts = 0 := pool_of_no_keeper hno
  refine ⟨?_, ?_, ?_⟩
  · rw [hpool, hts, poolFunded_append, poolSpent_append, hf, hsp, h.balance]
    omega
  · rw [hpool]
    exact h.nonneg
  · rw [hpool]
    exact fun pool hp => (h.covered pool hp).trans (hbal pool hp)

theorem pool_of_other (hs : Sound env.contract s info now) (hb : PoolBooks env.contract s)
    (hc : c.IsKeeper = false) (h : exec env s c = .ok s') : PoolBooks env.contract s' := by
  obtain ⟨ts, ⟨htr, htok⟩, hissues⟩ := issued_of_exec hs h
  obtain ⟨info', hw⟩ := wrote_of_exec hs.config h
  have hall := hissues.not_keeper hc
  refine hb.congr (hw.pool hc (ne_initialize_of_exec hs.config h)) htr (fun t ht => (hall t ht).2) ?_
  intro pool hpool
  have hne := hs.pool_token pool hpool
  obtain ⟨hin, hout⟩ : inflow pool.token env.contract ts = 0 ∧
      outflow pool.token env.contract ts = 0 :=
    flow_of_other fun t ht => by rw [(hall t ht).1]; exact hne.symm
  have := replay_balance htok pool.token env.contract
  omega

/-! ### The calls of the pool -/

/-- A payment into or out of the pool moves the counter and the real balance alike, so only the sign
of the counter is left to check. -/
theorem books_of_transfer {pool : StreamKeeperRewardPool} {b : I128} {t : Transfer}
    (hb : PoolBooks here s) (hpool : s.store.keeperRewardPool = some pool)
    (hpool' : s'.store.keeperRewardPool = some { pool with balance := b })
    (hts : Issued s [t] s') (hp : t.purpose = .keeper) (htok : t.token = pool.token)
    (hmove : b.val = pool.balance.val - (if t.src = here then t.amount.val else 0)
      + (if t.dst = here then t.amount.val else 0)) :
    PoolBooks here s' ↔ 0 ≤ b.val := by
  refine ⟨fun h => h.nonneg _ hpool', fun hb0 => ⟨?_, ?_, ?_⟩⟩
  · have hbal := hb.balance
    rw [hpool] at hbal
    have hbal : pool.balance.val = poolFunded here s.transfers - poolSpent here s.transfers := hbal
    rw [hpool', hts.1, poolFunded_append, poolSpent_append]
    show b.val = _
    simp only [poolFunded, poolSpent, List.map_cons, List.map_nil, List.sum_cons, List.sum_nil, hp,
      true_and] at hbal ⊢
    omega
  · intro q hq
    obtain rfl := Option.some.inj (hpool'.symm.trans hq)
    exact hb0
  · intro q hq
    obtain rfl := Option.some.inj (hpool'.symm.trans hq)
    have hcov := hb.covered pool hpool
    have hrep := replay_balance hts.2 pool.token here
    simp only [inflow, outflow, List.map_cons, List.map_nil, List.sum_cons, List.sum_nil, htok,
      true_and] at hrep
    show b.val ≤ (s'.tokens.balance pool.token here).val
    omega

theorem pool_of_configure {caller token : Address} {reward : I128}
    (hs : Sound env.contract s info now) (hb : PoolBooks env.contract s)
    (h : exec env s (.configureKeeperRewardPool caller token reward) = .ok s') :
    PoolBooks env.contract s' := by
  obtain ⟨ts, ⟨htr, htok⟩, rfl⟩ := issued_of_exec hs h
  simp [exec, configureKeeperRewardPool, configureKeeperRewardPoolBody, hs.config] at h
  obtain ⟨-, s₁, ⟨-, -, -, -, hsame, h₁⟩, rfl⟩ := h
  have hpool' : s₁.released.store.keeperRewardPool =
      some ⟨token, reward, (s.store.keeperRewardPool.map (·.balance)).getD (.lit 0)⟩ :=
    ((publish_noted h₁).trans (released_noted s₁)).pool
  have htok : s₁.released.tokens = s.tokens := (Option.some.inj htok).symm
  have hbal := hb.balance
  cases hp : s.store.keeperRewardPool with
  | none =>
      -- a new pool starts at zero, and nothing has been paid
      rw [hp] at hbal hpool'
      refine ⟨?_, ?_, ?_⟩
      · rw [hpool', htr, List.append_nil]
        exact hbal
      · intro q hq
        obtain rfl := Option.some.inj (hpool'.symm.trans hq)
        exact le_refl 0
      · intro q hq
        obtain rfl := Option.some.inj (hpool'.symm.trans hq)
        exact (s₁.released.tokens.balance token env.contract).ge
  | some pool =>
      -- the counter and the token of the pool stay
      obtain rfl : pool.token = token := hsame pool hp
      rw [hp] at hbal hpool'
      refine ⟨?_, ?_, ?_⟩
      · rw [hpool', htr, List.append_nil]
        exact hbal
      · intro q hq
        obtain rfl := Option.some.inj (hpool'.symm.trans hq)
        exact hb.nonneg pool hp
      · intro q hq
        obtain rfl := Option.some.inj (hpool'.symm.trans hq)
        rw [htok]
        exact hb.covered pool hp

theorem pool_of_fund {caller : Address} {amount : I128}
    (hs : Sound env.contract s info now) (hb : PoolBooks env.contract s)
    (h : exec env s (.fundKeeperRewardPool caller amount) = .ok s') : PoolBooks env.contract s' := by
  obtain ⟨ts, hts, pool, hpool, rfl⟩ := issued_of_exec hs h
  simp [exec, fundKeeperRewardPool, fundKeeperRewardPoolBody, hs.config] at h
  obtain ⟨-, s₂, ⟨⟨-, ha⟩, -, hpos, pool₁, hpool₁, b, hsum, s₁, -, h₁, h₂⟩, rfl⟩ := h
  obtain rfl : pool = pool₁ := Option.some.inj (hpool.symm.trans hpool₁)
  have hpool' := ((publish_noted h₂).trans (released_noted s₂)).pool
  rw [(transfer_silent h₁).1] at hpool'
  have hnn := hb.nonneg pool hpool
  refine (books_of_transfer hb hpool hpool' hts rfl rfl ?_).mpr (by omega)
  rw [if_neg (Env.ne_contract ha), if_pos rfl, sub_zero]
  exact hsum

theorem pool_of_withdraw {caller : Address} {amount : I128} {pool : StreamKeeperRewardPool}
    (hs : Sound env.contract s info now) (hb : PoolBooks env.contract s)
    (hpool : s.store.keeperRewardPool = some pool)
    (h : exec env s (.withdrawKeeperRewardPool caller amount) = .ok s') :
    PoolBooks env.contract s' ↔ amount.val ≤ pool.balance.val := by
  obtain ⟨ts, hts, pool₁, hpool₁, rfl⟩ := issued_of_exec hs h
  obtain rfl : pool = pool₁ := Option.some.inj (hpool.symm.trans hpool₁)
  simp [exec, withdrawKeeperRewardPool, withdrawKeeperRewardPoolBody, hs.config] at h
  obtain ⟨-, s₂, ⟨⟨-, ha⟩, -, pool₂, hpool₂, b, hsub, s₁, h₁, h₂⟩, rfl⟩ := h
  obtain rfl : pool = pool₂ := Option.some.inj (hpool.symm.trans hpool₂)
  have hpool' := ((publish_noted h₂).trans (released_noted s₂)).pool
  rw [(payFromPool_silent h₁).1] at hpool'
  rw [books_of_transfer hb hpool hpool' hts rfl rfl ?_]
  · omega
  · rw [if_pos rfl, if_neg (Env.ne_contract ha), add_zero]
    exact hsub

theorem pool_of_ping {keeper : Address} (hs : Sound env.contract s info now)
    (hb : PoolBooks env.contract s) (h : exec env s (.keeperPing keeper) = .ok s') :
    PoolBooks env.contract s' := by
  obtain ⟨ts, hts, pool, hpool, rfl⟩ := issued_of_exec hs h
  simp [exec, keeperPing, keeperPingBody, hs.config] at h
  obtain ⟨-, s₂, ⟨ha, -, pool₁, hpool₁, hcover, -, b, hsub, s₁, h₁, h₂⟩, rfl⟩ := h
  obtain rfl : pool = pool₁ := Option.some.inj (hpool.symm.trans hpool₁)
  have hpool' := ((publish_noted h₂).trans (released_noted s₂)).pool
  rw [(payFromPool_silent h₁).1] at hpool'
  refine (books_of_transfer hb hpool hpool' hts rfl rfl ?_).mpr (by omega)
  rw [if_pos rfl, if_neg (Env.ne_contract ha), add_zero]
  exact hsub

/-! ### Steps -/

theorem pool_of_exec (hs : Sound env.contract s info now) (hb : PoolBooks env.contract s)
    (h : exec env s c = .ok s') :
    PoolBooks env.contract s' ↔ ∀ caller amount pool, c = .withdrawKeeperRewardPool caller amount →
      s.store.keeperRewardPool = some pool → amount.val ≤ pool.balance.val := by
  cases hc : c.IsKeeper with
  | false =>
      refine ⟨fun _ caller amount pool hw => ?_, fun _ => pool_of_other hs hb hc h⟩
      subst hw
      cases hc
  | true =>
      cases c with
      | configureKeeperRewardPool caller token reward =>
          exact ⟨fun _ _ _ _ hw => (by cases hw), fun _ => pool_of_configure hs hb h⟩
      | fundKeeperRewardPool caller amount =>
          exact ⟨fun _ _ _ _ hw => (by cases hw), fun _ => pool_of_fund hs hb h⟩
      | withdrawKeeperRewardPool caller amount =>
          obtain ⟨ts, -, pool, hpool, -⟩ := issued_of_exec hs h
          rw [pool_of_withdraw hs hb hpool h]
          constructor
          · rintro hle _ _ pool₁ ⟨⟩ hpool₁
            obtain rfl : pool = pool₁ := Option.some.inj (hpool.symm.trans hpool₁)
            exact hle
          · exact fun hle => hle caller amount pool rfl hpool
      | keeperPing keeper =>
          exact ⟨fun _ _ _ _ hw => (by cases hw), fun _ => pool_of_ping hs hb h⟩
      | _ => cases hc

theorem pool_of_step (hs : Sound here m.state info m.clock.val) (hb : PoolBooks here m.state)
    (hstep : Step here m a m') : PoolBooks here m'.state ↔ WithinPool m a := by
  cases hstep with
  | call henv hclock h =>
      subst henv
      refine (pool_of_exec hs hb h).trans ⟨?_, ?_⟩
      · rintro hk env caller amount pool ⟨⟩ hpool
        exact hk caller amount pool rfl hpool
      · rintro hk caller amount pool rfl hpool
        exact hk _ caller amount pool rfl hpool
  | outside h =>
      refine ⟨fun _ env caller amount pool ha => (by cases ha), fun _ => ?_⟩
      refine hb.congr rfl (List.append_nil _).symm (fun t ht => ?_) fun pool _ => h pool.token
      cases ht

theorem books_of_born (h : Born here args m) : PoolBooks here m.state := by
  obtain ⟨env, -, hc⟩ := h.created
  refine ⟨?_, ?_, ?_⟩
  · rw [hc.pool, hc.transfers]
    rfl
  · intro pool hpool
    rw [hc.pool] at hpool
    cases hpool
  · intro pool hpool
    rw [hc.pool] at hpool
    cases hpool

/-! ### The refusal -/

/-- The difference of two amounts is an `i128`. -/
theorem avoids_checkedSub {a b : I128} {e e' : Error} (ha : 0 ≤ a.val) (hb : 0 ≤ b.val) :
    Avoids (err e) (okOr (a.checkedSub b) (err e') : Result I128) := by
  have ha' := a.le
  have hb' := b.le
  have hr : a.checkedSub b = some ⟨a.val - b.val, by omega, by omega⟩ :=
    Ranged.checkedSub_eq_some.mpr rfl
  rw [hr]
  exact avoids_ok _

/-- A withdrawal from a pool whose counter is not negative is never refused with
`InsufficientKeeperRewardPool`: both subtractions would have to pass `i128::MIN`. -/
theorem withdrawPool_avoids {caller : Address} {amount : I128}
    (hnn : ∀ pool ∈ s.store.keeperRewardPool, 0 ≤ pool.balance.val) :
    Avoids (err .insufficientKeeperRewardPool) (withdrawKeeperRewardPool env caller amount s) := by
  refine avoids_withGuard (by decide) ?_
  refine avoids_bind (avoids_okOr (by decide)) fun info _ => ?_
  refine avoids_bind (avoids_bind (avoids_reject fun _ => by decide)
    fun _ _ => avoids_reject fun _ => by decide) fun _ _ => ?_
  refine avoids_bind (avoids_reject fun _ => by decide) fun _ hpos => ?_
  have hpos : 0 ≤ amount.val := (not_le.mp (reject_eq_ok.mp hpos)).le
  refine avoids_bind (avoids_okOr (by decide)) fun pool hpool => ?_
  refine avoids_bind (avoids_checkedSub (hnn pool (okOr_eq_ok.mp hpool)) hpos) fun _ _ => ?_
  refine avoids_bind ?_ fun _ _ =>
    avoids_bind (avoids_publish (by decide) (by decide) (by decide)) fun _ _ => avoids_ok _
  refine avoids_bind (avoids_checkedSub (Ranged.ge _) hpos) fun _ _ => ?_
  refine avoids_bind (avoids_okOr (by decide)) fun _ _ => ?_
  exact avoids_bind avoids_transfer fun _ _ =>
    avoids_bind (avoids_reject fun _ => by decide) fun _ _ => avoids_ok _

/-- **The pool's books are kept exactly in the runs that withdraw no more than the counter.**  Where
they are kept, no withdrawal, of whatever amount, is refused with `InsufficientKeeperRewardPool`. -/
theorem pool_of_run (hborn : Born here args m₀) :
    (Run (fun m a m' => Step here m a m' ∧ WithinPool m a) m₀ as m →
      Holds (fun _ m => PoolBooks here m.state) m ∧
      ∀ env caller amount, withdrawKeeperRewardPool env caller amount m.state ≠
        .error (err .insufficientKeeperRewardPool)) ∧
    (Run (fun m a m' => Step here m a m' ∧ Holds (fun _ m => PoolBooks here m.state) m') m₀ as m ↔
      Run (fun m a m' => Step here m a m' ∧ WithinPool m a) m₀ as m) := by
  obtain ⟨hkeeps, hiff⟩ : _ ∧ (_ ↔ _) := Sound.keeps (P := fun _ m => PoolBooks here m.state)
    (fun _ _ _ h => h) (fun _ _ _ _ _ hstep hs _ hb => pool_of_step hs hb hstep) (sound_of_born hborn)
    (books_of_born hborn)
  refine ⟨fun hrun => ⟨hkeeps hrun, fun env caller amount => ?_⟩, hiff⟩
  obtain ⟨info, -, hb⟩ := hkeeps hrun
  exact withdrawPool_avoids hb.nonneg

/-! ### A sample pool

A pool of the sample stream, funded with a hundred reward tokens. -/

namespace Sample

def rewardToken : Address := .contract 8

/-- The sender holds a thousand reward tokens, the stream `donated`. -/
def rewardTokens (donated : Amount) : Ledger where
  balance t a :=
    if t = rewardToken ∧ a = sender then .lit 1000
    else if t = rewardToken ∧ a = address then donated
    else tokens.balance t a

/-- The sample stream among holders of reward tokens. -/
def rewarded (donated : Amount) : Moment where
  state := { (born Sample.args).state with tokens := rewardTokens donated }
  clock := .lit 100

def configured (donated : Amount) : Moment :=
  next (rewarded donated) (.lit 200) (.configureKeeperRewardPool sender rewardToken (.lit 5))

def pooled (donated : Amount) : Moment :=
  next (configured donated) (.lit 300) (.fundKeeperRewardPool sender (.lit 100))

theorem step_rewarded (donated : Amount) :
    Step address (born Sample.args) (.outside (rewardTokens donated)) (rewarded donated) := by
  refine .outside fun t => ?_
  show (tokens.balance t address).val ≤ ((rewardTokens donated).balance t address).val
  unfold rewardTokens
  dsimp only
  have hne : address ≠ sender := by decide
  rw [if_neg fun h => hne h.2]
  split
  · rename_i h
    obtain ⟨rfl, -⟩ := h
    exact donated.ge
  · exact le_refl _

theorem pooled_snoc {m : Moment} {as : List Action} {t : U64} {c : Call}
    (h : Run (fun m a m' => Step address m a m' ∧ WithinPool m a) (born Sample.args) as m)
    (hclock : m.clock.val ≤ t.val) (hok : (exec (envAt t) m.state c).isOk = true)
    (hc : ∀ caller amount pool, c = .withdrawKeeperRewardPool caller amount →
      m.state.store.keeperRewardPool = some pool → amount.val ≤ pool.balance.val) :
    Run (fun m a m' => Step address m a m' ∧ WithinPool m a) (born Sample.args)
      (as ++ [.call (envAt t) c]) (next m t c) := by
  refine h.snoc ⟨step_next hclock hok, ?_⟩
  rintro _ caller amount pool ⟨⟩
  exact hc caller amount pool rfl

/-- The run that sets up the pool. -/
theorem run_pooled (donated : Amount) (hc : (exec (envAt (.lit 200)) (rewarded donated).state
      (.configureKeeperRewardPool sender rewardToken (.lit 5))).isOk = true)
    (hf : (exec (envAt (.lit 300)) (configured donated).state
      (.fundKeeperRewardPool sender (.lit 100))).isOk = true)
    (hclock : (configured donated).clock.val ≤ 300) :
    ∃ as, Run (fun m a m' => Step address m a m' ∧ WithinPool m a) (born Sample.args) as
      (pooled donated) := by
  have h₁ : Run (fun m a m' => Step address m a m' ∧ WithinPool m a) (born Sample.args)
      [.outside (rewardTokens donated)] (rewarded donated) := by
    refine (Run.nil _).snoc ⟨step_rewarded donated, ?_⟩
    rintro _ _ _ _ ⟨⟩
  have hstart : (rewarded donated).clock.val ≤ 200 := show (100 : Int) ≤ 200 by decide
  have h₂ := pooled_snoc (t := .lit 200) h₁ hstart hc fun _ _ _ h => by cases h
  have h₃ := pooled_snoc (t := .lit 300) h₂ hclock hf fun _ _ _ h => by cases h
  exact ⟨_, h₃⟩

end Sample

/-- The pool after a ping and a withdrawal of ninety. -/
def Sample.drained : Moment := next (next (pooled (.lit 0)) (.lit 400) (.keeperPing (.account 6)))
  (.lit 500) (.withdrawKeeperRewardPool sender (.lit 90))

theorem pool_of_run_drained :
    Holds (fun _ m => PoolBooks Sample.address m.state) Sample.drained ∧
      Sample.drained.state.store.keeperRewardPool = some ⟨Sample.rewardToken, .lit 5, .lit 5⟩ := by
  have hborn : Born Sample.address Sample.args (Sample.born Sample.args) :=
    Sample.born_of_initialize (by decide +kernel)
  obtain ⟨as, h₃⟩ := Sample.run_pooled (.lit 0) (by decide +kernel) (by decide +kernel)
    (by decide +kernel)
  have h₄ := Sample.pooled_snoc (t := .lit 400) (c := .keeperPing (.account 6)) h₃
    (by decide +kernel) (by decide +kernel) fun _ _ _ h => by cases h
  have h₅ := Sample.pooled_snoc (t := .lit 500) (c := .withdrawKeeperRewardPool Sample.sender (.lit 90))
    h₄ (by decide +kernel) (by decide +kernel) ?_
  · exact ⟨((pool_of_run hborn).1 h₅).1, by decide +kernel⟩
  · rintro _ _ pool ⟨⟩ hpool
    have hleft : (Sample.next (Sample.pooled (.lit 0)) (.lit 400)
        (.keeperPing (.account 6))).state.store.keeperRewardPool =
          some ⟨Sample.rewardToken, .lit 5, .lit 95⟩ := by decide +kernel
    obtain rfl := Option.some.inj (hleft.symm.trans hpool)
    decide

/-- A pool of a hundred, given a thousand tokens by someone else, pays a withdrawal of five hundred
and is left with a counter of minus four hundred. -/
theorem withdrawPool_overdraws :
    ∃ m pool, Reachable Sample.address m ∧ m.state.store.keeperRewardPool = some pool ∧
      pool.balance.val = -400 := by
  obtain ⟨as, h₃⟩ := Sample.run_pooled (.lit 1000) (by decide +kernel) (by decide +kernel)
    (by decide +kernel)
  have hrun : Run (Step Sample.address) (Sample.born Sample.args) as (Sample.pooled (.lit 1000)) :=
    h₃.mono fun _ h => h.1
  refine ⟨Sample.next (Sample.pooled (.lit 1000)) (.lit 400)
    (.withdrawKeeperRewardPool Sample.sender (.lit 500)), ⟨Sample.rewardToken, .lit 5, .lit (-400)⟩,
    ⟨Sample.args, _, _, Sample.born_of_initialize (by decide +kernel),
      hrun.snoc (Sample.step_next (by decide +kernel) (by decide +kernel))⟩, by decide +kernel, rfl⟩

end Drip.Stream
