import Drip.Stream.Moves
import Drip.Stream.Escrow

/-!
# Stream — Effects

Every entry point performs one operation of the abstract escrow.

* `escrowOf here info s` is the escrow stored in a stream at the address `here`: the schedule, the
  balance, and the totals of the transfers it has issued, by purpose.
* `Call.op` is the operation of each call.
* `Sound` is what holds of every stream between calls; `effect_of_exec` says that a successful call
  on a sound stream performs its operation, having passed the operation's checks, and leaves a sound
  stream behind.
-/

namespace Drip.Stream
open Chain

variable {env : Env} {s s' : State} {info info' : StreamInfo} {here : Address} {now kept : Int}

def escrowOf (here : Address) (info : StreamInfo) (s : State) : Escrow where
  schedule := scheduleOf info s.store
  cancelled := info.isCancelled
  withdrawn := info.withdrawn.val
  balance := (s.tokens.balance info.token here).val
  totals := fun p => total info.token p s.transfers

/-- The operation of a call, on a stream of the given rate. -/
def Call.op (rate kept : Int) : Call → Op
  | .withdraw amount => .withdraw amount.val kept
  | .cancel _ | .forceCancel => .settle kept
  | .clawback _ => .clawback
  | .topUp _ amount => .adjust amount.val .idle
  | .extendDuration _ extra => .adjust (extra.val * rate) (.extend extra.val)
  | .topUpAndExtend _ amount extra => .adjust amount.val (.extend extra.val)
  | .pause _ => .adjust 0 .pause
  | .resume _ => .adjust 0 .resume
  | .changeRate _ r => .adjust 0 (.changeRate r.val)
  | .setCliff _ time amount => .adjust 0 (.setCliff time.val amount.val)
  | _ => .adjust 0 .idle

/-- The move of the schedule a call makes. -/
def Call.move : Call → Move
  | .pause _ => .pause
  | .resume _ => .resume
  | .changeRate _ r => .changeRate r.val
  | .extendDuration _ extra | .topUpAndExtend _ _ extra => .extend extra.val
  | .setCliff _ time amount => .setCliff time.val amount.val
  | _ => .idle

theorem move_op (c : Call) (rate kept : Int) : (c.op rate kept).move = c.move := by
  cases c <;> rfl

/-- What holds of a stream between calls. -/
structure Sound (here : Address) (s : State) (info : StreamInfo) (now : Int) : Prop where
  config : s.store.config = some info
  valid : (scheduleOf info s.store).Valid now
  withdrawn_nonneg : 0 ≤ info.withdrawn.val
  pool_token : ∀ p ∈ s.store.keeperRewardPool, p.token ≠ info.token
  split_le : ∀ sc ∈ s.store.splitConfig, sc.splitBps.val ≤ 10000
  /-- A stream sent by itself has no one to manage it. -/
  sender_here : info.sender = here → s.store.operator = none ∧ info.isPaused = false

/-- What a successful call did. -/
structure Effect (env : Env) (s : State) (info : StreamInfo) (c : Call) (s' : State)
    (info' : StreamInfo) (kept : Int) : Prop where
  sound : Sound env.contract s' info' env.timestamp.val
  sender : info'.sender = info.sender
  token : info'.token = info.token
  escrow : escrowOf env.contract info' s' = (escrowOf env.contract info s).apply env.timestamp.val
    (c.op info.ratePerSecond.val kept)
  allows : (escrowOf env.contract info s).Allows i128Max env.timestamp.val
    (c.op info.ratePerSecond.val kept)
  /-- What was paid to the contract itself stayed with it. -/
  kept_eq : kept = shareOf env.contract s info
    ((escrowOf env.contract info s).pays env.timestamp.val (c.op info.ratePerSecond.val kept))

theorem Effect.kept_eq_zero {c : Call} (h : Effect env s info c s' info' kept)
    (haway : ∀ a ∈ payees s info, a ≠ env.contract) : kept = 0 :=
  h.kept_eq.trans (shareOf_eq_zero haway _)

theorem Effect.schedule {c : Call} (h : Effect env s info c s' info' kept) :
    scheduleOf info' s'.store = (scheduleOf info s.store).move env.timestamp.val c.move := by
  rw [← move_op c info.ratePerSecond.val kept]
  exact (congrArg Escrow.schedule h.escrow).trans (Escrow.schedule_apply _ _ _)

theorem Effect.schedule_allows {c : Call} (h : Effect env s info c s' info' kept) :
    (scheduleOf info s.store).Allows i128Max env.timestamp.val c.move := by
  rw [← move_op c info.ratePerSecond.val kept]
  exact Escrow.schedule_allows h.allows

/-! ### Assembling an effect -/

theorem Sound.sender_ne (hs : Sound env.contract s info now) (hm : IsManager env s info) :
    info.sender ≠ env.contract := by
  intro h
  obtain ⟨caller, hc, ha⟩ := hm
  rcases hc with rfl | hc
  · exact Env.ne_contract ha h
  · rw [(hs.sender_here h).1] at hc
    cases hc

theorem Sound.wait {later : Int} (hs : Sound here s info now) (h : now ≤ later) :
    Sound here s info later :=
  { hs with valid := hs.valid.wait h }

/-- The parts of soundness that are about the escrow follow from the operation. -/
theorem Effect.of {c : Call} (hs : Sound env.contract s info env.timestamp.val)
    (config : s'.store.config = some info') (sender : info'.sender = info.sender)
    (token : info'.token = info.token)
    (pool : ∀ p ∈ s'.store.keeperRewardPool, p.token ≠ info.token)
    (split : ∀ sc ∈ s'.store.splitConfig, sc.splitBps.val ≤ 10000)
    (sender_here : info.sender = env.contract → s'.store.operator = none ∧ info'.isPaused = false)
    (escrow : escrowOf env.contract info' s' = (escrowOf env.contract info s).apply
      env.timestamp.val (c.op info.ratePerSecond.val kept))
    (allows : (escrowOf env.contract info s).Allows i128Max env.timestamp.val
      (c.op info.ratePerSecond.val kept))
    (kept_eq : kept = shareOf env.contract s info
      ((escrowOf env.contract info s).pays env.timestamp.val (c.op info.ratePerSecond.val kept))) :
    Effect env s info c s' info' kept := by
  refine ⟨⟨config, ?_, ?_, by rw [token]; exact pool, split, by rw [sender]; exact sender_here⟩,
    sender, token, escrow, allows, kept_eq⟩
  · show (escrowOf env.contract info' s').schedule.Valid _
    rw [escrow]
    exact Escrow.valid_apply hs.valid allows
  · show 0 ≤ (escrowOf env.contract info' s').withdrawn
    rw [escrow]
    exact hs.withdrawn_nonneg.trans (Escrow.withdrawn_le_apply (e := escrowOf env.contract info s)
      (s.tokens.balance info.token env.contract).ge allows)

/-- The same for a call that keeps the pool, the split and the operator. -/
theorem Effect.of_frame {c : Call} (hs : Sound env.contract s info env.timestamp.val) (hf : Frame s s')
    (config : s'.store.config = some info') (sender : info'.sender = info.sender)
    (token : info'.token = info.token) (paused : info'.isPaused = info.isPaused)
    (escrow : escrowOf env.contract info' s' = (escrowOf env.contract info s).apply
      env.timestamp.val (c.op info.ratePerSecond.val kept))
    (allows : (escrowOf env.contract info s).Allows i128Max env.timestamp.val
      (c.op info.ratePerSecond.val kept))
    (kept_eq : kept = shareOf env.contract s info
      ((escrowOf env.contract info s).pays env.timestamp.val (c.op info.ratePerSecond.val kept))) :
    Effect env s info c s' info' kept := by
  refine .of hs config sender token ?_ ?_ ?_ escrow allows kept_eq
  · rw [hf.pool]; exact hs.pool_token
  · rw [hf.splitConfig]; exact hs.split_le
  · rw [hf.operator, paused]; exact hs.sender_here

/-- Transfers of the token for one purpose add their sum to its total. -/
theorem book_transfers {rs ts us : List Transfer} {token : Address} {p : Purpose}
    (h : rs = us ++ ts) (ht : ∀ t ∈ ts, t.token = token) (hp : ∀ t ∈ ts, t.purpose = p) :
    (fun q => total token q rs) = book (fun q => total token q us) p (sent ts) := by
  funext q
  rw [h, total_append, total_of_purpose ht hp]
  rfl

/-! ### Payments -/

theorem effect_withdraw {amount : I128} (hs : Sound env.contract s info env.timestamp.val)
    (h : exec env s (.withdraw amount) = .ok s') :
    ∃ info' kept, Effect env s info (.withdraw amount) s' info' kept := by
  obtain ⟨x, h⟩ := after_eq_ok.mp h
  obtain ⟨v, w, n, ts, hv, hw, hc, hf, hpaid, hpo, hpos, -⟩ :=
    withdraw_spec hs.config hs.withdrawn_nonneg hs.split_le h
  have hval := value_of_streamedAmount hs.valid hv
  have hx : sent ts = (escrowOf env.contract info s).payout env.timestamp.val amount.val := by
    rw [hpo.sent, hval]
    rfl
  have hin : 0 ≤ sentTo env.contract ts ∧ sentTo env.contract ts ≤ sent ts :=
    sentTo_le_sent fun t ht => (hpaid.outgoing t ht).2.2
  refine ⟨_, sentTo env.contract ts, .of_frame hs hf hc rfl rfl rfl ?_ ?_ ?_⟩
  · ext1
    · exact scheduleOf_congr rfl rfl rfl rfl rfl hf.rateCheckpoint hf.cliffConfig
    · rfl
    · exact hw.trans (by rw [hx]; rfl)
    · exact hpaid.balance.trans (by rw [hx]; rfl)
    · refine (book_transfers hpaid.transfers ?_ hpo.purpose).trans (by rw [hx]; rfl)
      exact fun t ht => (hpaid.outgoing t ht).1
  · refine ⟨value_le_of_streamedAmount hs.valid hv, ?_, hin.1, ?_⟩
    · rw [← hx]; exact hpos
    · rw [← hx]; exact hin.2
  · refine (hpo.sentTo env.contract).trans ?_
    rw [← hpo.sent, hx]
    rfl

theorem effect_settle {event : Address → I128 → I128 → I128 → Event} {u : Unit} {c : Call}
    {s₁ : State} (hs : Sound env.contract s info env.timestamp.val)
    (hne : info.sender ≠ env.contract)
    (hop : ∀ rate kept, c.op rate kept = .settle kept)
    (h : settle env info event s.locked = .ok (u, s₁)) :
    ∃ info' kept, Effect env s info c s₁.released info' kept := by
  obtain ⟨v, w, n, ts, us, hv, hw, hc, hf, hpaid, hpo, hre⟩ := settle_spec h hs.split_le
  have hval := value_of_streamedAmount hs.valid hv
  have hx : sent ts = (escrowOf env.contract info s).share env.timestamp.val := by
    rw [hpo.sent, hval]
    rfl
  have hin : 0 ≤ sentTo env.contract ts ∧ sentTo env.contract ts ≤ sent ts :=
    sentTo_le_sent fun t ht => (hpaid.outgoing t (List.mem_append_left us ht)).2.2
  have hout : sentTo env.contract us = 0 :=
    sentTo_eq_zero fun t ht => by rw [hre.payee t ht]; exact hne
  have hus : sent us = (escrowOf env.contract info s).balance - sent ts := hre.sent
  refine ⟨_, sentTo env.contract ts, .of hs hc rfl rfl ?_ ?_ ?_ ?_ ?_ ?_⟩
  · show ∀ p ∈ s₁.store.keeperRewardPool, _
    rw [hf.pool]; exact hs.pool_token
  · show ∀ sc ∈ s₁.store.splitConfig, _
    rw [hf.splitConfig]; exact hs.split_le
  · exact fun h => absurd h hne
  · rw [hop]
    ext1
    · exact scheduleOf_congr rfl rfl rfl rfl info.isPaused_markCancelled hf.rateCheckpoint
        hf.cliffConfig
    · exact info.isCancelled_markCancelled
    · exact hw.trans (by rw [hx]; rfl)
    · refine hpaid.balance.trans ?_
      rw [sent_append, sentTo_append, hout, hus]
      show (s.tokens.balance info.token env.contract).val - (_ + ((s.tokens.balance info.token
        env.contract).val - _)) + (_ + 0) = sentTo env.contract ts
      omega
    · show (fun p => total info.token p s₁.transfers) = book (book _ .payout _) .refund _
      rw [hpaid.transfers, ← List.append_assoc,
        book_transfers rfl (fun t ht => (hpaid.outgoing t (List.mem_append_right ts ht)).1)
          hre.purpose,
        book_transfers rfl (fun t ht => (hpaid.outgoing t (List.mem_append_left us ht)).1)
          hpo.purpose, hus, hx]
      rfl
  · rw [hop]
    refine ⟨value_le_of_streamedAmount hs.valid hv, hin.1, ?_⟩
    rw [← hx]; exact hin.2
  · refine (hpo.sentTo env.contract).trans ?_
    rw [hop, ← hpo.sent, hx]
    rfl

theorem effect_clawback {caller : Address} (hs : Sound env.contract s info env.timestamp.val)
    (h : exec env s (.clawback caller) = .ok s') :
    ∃ info' kept, Effect env s info (.clawback caller) s' info' kept := by
  obtain ⟨hc, ha, hp, v, n, ts, hv, hc', hf, hpaid, hre⟩ := clawback_spec hs.config h
  have hne := hs.sender_ne ⟨caller, hc, ha⟩
  have hval := value_of_streamedAmount hs.valid hv
  have hx : sent ts = (escrowOf env.contract info s).surplus env.timestamp.val := by
    rw [hre.sent, hval]
    rfl
  have hout : sentTo env.contract ts = 0 :=
    sentTo_eq_zero fun t ht => by rw [hre.payee t ht]; exact hne
  refine ⟨_, 0, .of hs hc' rfl rfl ?_ ?_ (fun h => absurd h hne) ?_ ?_ shareOf_zero.symm⟩
  · rw [hf.pool]; exact hs.pool_token
  · rw [hf.splitConfig]; exact hs.split_le
  · ext1
    · exact scheduleOf_congr rfl rfl rfl rfl rfl hf.rateCheckpoint hf.cliffConfig
    · rfl
    · rfl
    · refine hpaid.balance.trans ?_
      rw [hout, hx]
      exact add_zero _
    · refine (book_transfers hpaid.transfers ?_ hre.purpose).trans (by rw [hx]; rfl)
      exact fun t ht => (hpaid.outgoing t ht).1
  · exact ⟨pausedAt_eq_none.mpr hp, value_le_of_streamedAmount hs.valid hv⟩

/-! ### Deposits -/

theorem book_deposit {token : Address} {d : Int} (h : Funded here token s d s') :
    (fun q => total token q s'.transfers) =
      book (fun q => total token q s.transfers) .deposit d := by
  obtain ⟨t, ht, htok, hp, rfl⟩ := h.transfers
  rw [← sent_singleton t]
  refine book_transfers ht ?_ ?_
  · intro u hu
    rw [List.mem_singleton] at hu
    rw [hu, htok]
  · intro u hu
    rw [List.mem_singleton] at hu
    rw [hu, hp]

theorem effect_topUp {caller : Address} {amount : I128}
    (hs : Sound env.contract s info env.timestamp.val)
    (h : exec env s (.topUp caller amount) = .ok s') :
    ∃ info' kept, Effect env s info (.topUp caller amount) s' info' kept := by
  obtain ⟨n, hc, hf, hfund⟩ := topUp_spec hs.config h
  refine ⟨_, 0, .of_frame hs hf hc rfl rfl rfl ?_ ⟨hfund.nonneg, trivial⟩ shareOf_zero.symm⟩
  ext1
  · exact scheduleOf_congr rfl rfl rfl rfl rfl hf.rateCheckpoint hf.cliffConfig
  · rfl
  · rfl
  · exact hfund.balance
  · exact book_deposit hfund

theorem effect_extended {c : Call} {extra d : Int}
    (hs : Sound env.contract s info env.timestamp.val)
    (hop : ∀ kept, c.op info.ratePerSecond.val kept = .adjust d (.extend extra))
    (h : Extended env s info extra d s') : ∃ info' kept, Effect env s info c s' info' kept := by
  obtain ⟨e, n, he, hc⟩ := h.config
  have hstop : (scheduleOf info s.store).stop = some info.endTime.val :=
    stop_eq_some.mpr ⟨h.bounded, rfl⟩
  refine ⟨_, 0, .of_frame hs h.frame hc rfl rfl rfl ?_ ?_ ?_⟩
  · rw [hop]
    ext1
    · show scheduleOf _ s'.store = (scheduleOf info s.store).move env.timestamp.val
        (.extend extra)
      rw [Schedule.move, hstop]
      unfold scheduleOf
      rw [h.frame.rateCheckpoint, h.frame.cliffConfig]
      ext1 <;> try rfl
      have := h.bounded
      have := h.extra_pos
      show (if e.val = 0 then none else some e.val) = _
      rw [if_neg (by omega), he]
      rfl
    · rfl
    · rfl
    · exact h.funded.balance
    · exact book_deposit h.funded
  · rw [hop]
    refine ⟨h.funded.nonneg, h.extra_pos, ?_⟩
    show (scheduleOf info s.store).stop.isSome = true
    rw [hstop]
    rfl
  · rw [hop]
    exact shareOf_zero.symm

/-! ### Moves of the schedule -/

theorem book_zero (totals : Purpose → Int) (p : Purpose) : book totals p 0 = totals := by
  funext q
  unfold book
  split <;> exact add_zero _

theorem effect_rescheduled {c : Call} {m : Move}
    (hs : Sound env.contract s info env.timestamp.val)
    (hop : ∀ rate kept, c.op rate kept = .adjust 0 m)
    (h : Rescheduled env s info m s' info') : Effect env s info c s' info' 0 := by
  have hne := hs.sender_ne h.manager
  refine .of hs h.config h.sender h.token ?_ ?_ (fun hh => absurd hh hne) ?_ ?_ ?_
  · rw [h.pool]; exact hs.pool_token
  · rw [h.splitConfig]; exact hs.split_le
  · rw [hop]
    ext1
    · exact h.schedule
    · exact h.cancelled
    · show info'.withdrawn.val = info.withdrawn.val
      rw [h.withdrawn]
    · show (s'.tokens.balance info'.token _).val = (s.tokens.balance info.token _).val + 0
      rw [h.tokens, h.token, add_zero]
    · show (fun p => total info'.token p s'.transfers) = book _ .deposit 0
      rw [h.transfers, h.token, book_zero]
      rfl
  · rw [hop]
    exact ⟨le_refl 0, h.allows⟩
  · rw [hop]
    exact shareOf_zero.symm

/-! ### Settings -/

theorem effect_settings {c : Call} (hs : Sound env.contract s info env.timestamp.val)
    (hop : ∀ rate kept, c.op rate kept = .adjust 0 .idle)
    (h : Settings env s info s') : ∃ info' kept, Effect env s info c s' info' kept := by
  obtain ⟨r, n, hc⟩ := h.config
  refine ⟨_, 0, .of hs hc rfl rfl ?_ ?_ ?_ ?_ ?_ ?_⟩
  · rw [h.pool]; exact hs.pool_token
  · intro sc hsc
    rcases h.split sc hsc with hsc | hle
    · exact hs.split_le sc hsc
    · exact hle
  · intro hh
    rcases h.operator with ho | ha
    · rw [ho]; exact hs.sender_here hh
    · exact absurd hh (Env.ne_contract ha)
  · rw [hop]
    ext1
    · exact scheduleOf_congr rfl rfl rfl rfl rfl h.rateCheckpoint h.cliffConfig
    · rfl
    · rfl
    · show (s'.tokens.balance info.token _).val = (s.tokens.balance info.token _).val + 0
      rw [h.tokens, add_zero]
    · show (fun p => total info.token p s'.transfers) = book _ .deposit 0
      rw [h.transfers, book_zero]
      rfl
  · rw [hop]
    exact ⟨le_refl 0, trivial⟩
  · rw [hop]
    exact shareOf_zero.symm

/-! ### The keeper pool -/

/-- A call that touched nothing but the keeper pool, whose token is not the stream token. -/
structure Pooled (env : Env) (s : State) (info : StreamInfo) (s' : State) : Prop where
  config : ∃ n, s'.store.config = some { info with eventSequence := n }
  rateCheckpoint : s'.store.rateCheckpoint = s.store.rateCheckpoint
  cliffConfig : s'.store.cliffConfig = s.store.cliffConfig
  pool : ∀ p ∈ s'.store.keeperRewardPool, p.token ≠ info.token
  splitConfig : s'.store.splitConfig = s.store.splitConfig
  operator : s'.store.operator = s.store.operator
  balance : s'.tokens.balance info.token env.contract = s.tokens.balance info.token env.contract
  transfers : ∃ ts, s'.transfers = s.transfers ++ ts ∧
    ∀ t ∈ ts, t.purpose = .keeper ∧ t.token ≠ info.token

theorem Pooled.noted {s₁ : State} (h : Pooled env s info s₁) (hn : Noted s₁ s') :
    Pooled env s info s' := by
  obtain ⟨n, hc⟩ := h.config
  obtain ⟨m, hm⟩ := hn.config hc
  refine ⟨⟨m, hm⟩, hn.rateCheckpoint.trans h.rateCheckpoint, hn.cliffConfig.trans h.cliffConfig, ?_,
    hn.splitConfig.trans h.splitConfig, hn.operator.trans h.operator, ?_, ?_⟩
  · rw [hn.pool]; exact h.pool
  · rw [hn.tokens]; exact h.balance
  · rw [hn.transfers]; exact h.transfers

theorem Pooled.transfer {s₁ : State} {t : Transfer} (h : Pooled env s info s₁)
    (hne : t.token ≠ info.token) (hp : t.purpose = .keeper) (ht : transfer s₁ t = .ok s') :
    Pooled env s info s' := by
  obtain ⟨l, hl, rfl⟩ := transfer_eq_ok.mp ht
  obtain ⟨-, -, hbal⟩ := Ledger.transfer_spec hl
  obtain ⟨ts, hts, hall⟩ := h.transfers
  refine ⟨h.config, h.rateCheckpoint, h.cliffConfig, h.pool, h.splitConfig, h.operator, ?_,
    ts ++ [t], ?_, ?_⟩
  · -- another token's balances do not move
    refine Eq.trans (Ranged.ext ?_) h.balance
    rw [hbal info.token env.contract, if_neg fun hh => hne hh.1.symm,
      if_neg fun hh => hne hh.1.symm]
    omega
  · show s₁.transfers ++ [t] = _
    rw [hts, List.append_assoc]
  · intro u hu
    rcases List.mem_append.mp hu with hu | hu
    · exact hall u hu
    · rw [List.mem_singleton] at hu
      subst hu
      exact ⟨hp, hne⟩

theorem pooled_setPool {pool : StreamKeeperRewardPool} (hi : s.store.config = some info)
    (hne : pool.token ≠ info.token) : Pooled env s info (s.locked.setPool pool) := by
  refine ⟨⟨info.eventSequence, hi⟩, rfl, rfl, ?_, rfl, rfl, rfl, [], (List.append_nil _).symm,
    fun t ht => absurd ht List.not_mem_nil⟩
  rintro p ⟨⟩
  exact hne

/-- The calls of the keeper pool. -/
def Call.IsKeeper : Call → Bool
  | .configureKeeperRewardPool .. | .fundKeeperRewardPool .. | .withdrawKeeperRewardPool ..
  | .keeperPing _ => true
  | _ => false

theorem pooled_of_exec {c : Call} (hs : Sound here s info now) (hc : c.IsKeeper = true)
    (h : exec env s c = .ok s') : Pooled env s info s' := by
  cases c with
  | configureKeeperRewardPool caller token reward =>
      simp [exec, configureKeeperRewardPool, configureKeeperRewardPoolBody, hs.config] at h
      obtain ⟨-, s₁, ⟨-, -, -, ⟨-, hne⟩, -, h₁⟩, rfl⟩ := h
      exact (pooled_setPool hs.config hne).noted ((publish_noted h₁).trans (released_noted s₁))
  | fundKeeperRewardPool caller amount =>
      simp [exec, fundKeeperRewardPool, fundKeeperRewardPoolBody, hs.config] at h
      obtain ⟨-, s₂, ⟨-, -, -, pool, hpool, b, -, s₁, -, h₁, h₂⟩, rfl⟩ := h
      have hne := hs.pool_token pool hpool
      have hset : Pooled env s info (s.locked.setPool { pool with balance := b }) :=
        pooled_setPool hs.config hne
      refine Pooled.noted ?_ ((publish_noted h₂).trans (released_noted s₂))
      exact hset.transfer (by exact hne) rfl h₁
  | withdrawKeeperRewardPool caller amount =>
      simp [exec, withdrawKeeperRewardPool, withdrawKeeperRewardPoolBody, payFromPool,
        hs.config] at h
      obtain ⟨-, s₂, ⟨-, -, pool, hpool, b, -, s₁, -, -, h₁, h₂⟩, rfl⟩ := h
      have hne := hs.pool_token pool hpool
      have hset : Pooled env s info (s.locked.setPool { pool with balance := b }) :=
        pooled_setPool hs.config hne
      refine Pooled.noted ?_ ((publish_noted h₂).trans (released_noted s₂))
      exact hset.transfer (by exact hne) rfl h₁
  | keeperPing keeper =>
      simp [exec, keeperPing, keeperPingBody, payFromPool, hs.config] at h
      obtain ⟨-, s₂, ⟨-, -, pool, hpool, -, -, b, -, s₁, -, -, h₁, h₂⟩, rfl⟩ := h
      have hne := hs.pool_token pool hpool
      have hset : Pooled env s info (s.locked.setPool { pool with balance := b }) :=
        pooled_setPool hs.config hne
      refine Pooled.noted ?_ ((publish_noted h₂).trans (released_noted s₂))
      refine Pooled.transfer ?_ (by exact hne) rfl h₁
      exact hset.noted (.of_config ⟨rfl, rfl, rfl, rfl, rfl⟩ rfl rfl rfl)
  | _ => cases hc

theorem effect_pooled {c : Call} (hs : Sound env.contract s info env.timestamp.val)
    (hop : ∀ rate kept, c.op rate kept = .adjust 0 .idle)
    (h : Pooled env s info s') : ∃ info' kept, Effect env s info c s' info' kept := by
  obtain ⟨n, hc⟩ := h.config
  obtain ⟨ts, hts, hall⟩ := h.transfers
  refine ⟨_, 0, .of hs hc rfl rfl h.pool ?_ ?_ ?_ ?_ ?_⟩
  · rw [h.splitConfig]; exact hs.split_le
  · rw [h.operator]; exact hs.sender_here
  · rw [hop]
    ext1
    · exact scheduleOf_congr rfl rfl rfl rfl rfl h.rateCheckpoint h.cliffConfig
    · rfl
    · rfl
    · show (s'.tokens.balance info.token _).val = (s.tokens.balance info.token _).val + 0
      rw [h.balance, add_zero]
    · show (fun p => total info.token p s'.transfers) = book _ .deposit 0
      rw [book_zero, hts]
      funext p
      rw [total_append, total_of_other fun t ht => (hall t ht).2]
      exact add_zero _
  · rw [hop]
    exact ⟨le_refl 0, trivial⟩
  · rw [hop]
    exact shareOf_zero.symm

/-! ### Every call -/

/-- **Each entry point performs its operation.** -/
theorem effect_of_exec {c : Call} (hs : Sound env.contract s info env.timestamp.val)
    (h : exec env s c = .ok s') : ∃ info' kept, Effect env s info c s' info' kept := by
  cases c with
  | initializeStream args =>
      simp [exec, initializeStream, initializeReading, hs.config] at h
  | withdraw amount => exact effect_withdraw hs h
  | cancel caller =>
      obtain ⟨hc, ha, s₁, u, hset, rfl⟩ := settle_of_cancel hs.config h
      exact effect_settle hs (hs.sender_ne ⟨caller, hc, ha⟩) (fun _ _ => rfl) hset
  | forceCancel =>
      obtain ⟨hp, s₁, u, hset, rfl⟩ := settle_of_forceCancel hs.config h
      refine effect_settle hs (fun hh => ?_) (fun _ _ => rfl) hset
      rw [(hs.sender_here hh).2] at hp
      cases hp
  | clawback caller => exact effect_clawback hs h
  | topUp caller amount => exact effect_topUp hs h
  | extendDuration caller extra =>
      exact effect_extended hs (fun _ => rfl) (extendDuration_spec hs.config h)
  | topUpAndExtend caller amount extra =>
      exact effect_extended hs (fun _ => rfl) (topUpAndExtend_spec hs.config h)
  | pause caller =>
      obtain ⟨info', h⟩ := pause_moves hs.config hs.valid h
      exact ⟨info', 0, effect_rescheduled hs (fun _ _ => rfl) h⟩
  | resume caller =>
      obtain ⟨info', h⟩ := resume_moves hs.config h
      exact ⟨info', 0, effect_rescheduled hs (fun _ _ => rfl) h⟩
  | changeRate caller rate =>
      obtain ⟨info', h⟩ := changeRate_moves hs.config hs.valid h
      exact ⟨info', 0, effect_rescheduled hs (fun _ _ => rfl) h⟩
  | setCliff caller time amount =>
      obtain ⟨info', h⟩ := setCliff_moves hs.config h
      exact ⟨info', 0, effect_rescheduled hs (fun _ _ => rfl) h⟩
  | configureKeeperRewardPool | fundKeeperRewardPool | withdrawKeeperRewardPool | keeperPing =>
      exact effect_pooled hs (fun _ _ => rfl) (pooled_of_exec hs rfl h)
  | transferRecipient | setAutoForwardAddress | setSplitRecipient | removeSplitRecipient
  | setOperator | revokeOperator | setStreamTitle | setReferenceTag | setInvoiceMetadataUri
  | setMilestoneMetadataUri | setMinWithdrawalInterval | setStreamConfig | isEmergencyPaused
  | emergencyPause | emergencyUnpause =>
      exact effect_settings hs (fun _ _ => rfl) (settings_of_exec hs.config rfl h)

end Drip.Stream
