import Drip.Stream.Runs

/-!
# Stream — Solvency

A bounded stream that was funded in full stays able to pay.  `Escrow.Solvent` says that the escrow
holds, with what it already paid, the whole of its linear schedule.  Every operation but a
settlement, a clawback, a rate change, a cliff and an extension that is not paid for keeps it
(`Escrow.Solvent.apply`), and a solvent escrow pays a withdrawal in full (`Escrow.Solvent.payout`).

* `solvent_of_run`: over runs of the contract.
* `avoids_withdraw`, `withdraw_pays`: what it means for `withdraw`.
-/

namespace Drip.Stream
open Chain

/-! ### Solvent escrows -/

/-- What a bounded schedule earns in all, from its start to its stop. -/
def Schedule.obligation (q : Schedule) : Int := q.stop.elim 0 fun e => q.rate * (e - q.start)

theorem Schedule.obligation_eq {q : Schedule} {e : Int} (h : q.stop = some e) :
    q.obligation = q.rate * (e - q.start) := by
  unfold obligation
  rw [h]
  rfl

/-- A resume moves start and stop together. -/
theorem Schedule.obligation_shift (q : Schedule) (p d : Int) :
    (q.shift p d).obligation = q.obligation := by
  unfold obligation shift
  cases q.stop with
  | none => rfl
  | some e =>
      show q.rate * (e + d - (q.start + d)) = q.rate * (e - q.start)
      rw [add_sub_add_right_eq_sub]

theorem Schedule.obligation_extend {q : Schedule} (h : q.stop.isSome = true) (now extra : Int) :
    (q.move now (.extend extra)).obligation = q.obligation + extra * q.rate := by
  obtain ⟨e, he⟩ := Option.isSome_iff_exists.mp h
  have hstop : (q.move now (.extend extra)).stop = some (e + extra) := by
    rw [move, he]
    rfl
  rw [obligation_eq hstop, obligation_eq he]
  show q.rate * (e + extra - q.start) = _
  ring

/-- A schedule without checkpoint and cliff earns at most its obligation. -/
theorem Schedule.Valid.value_le_obligation {q : Schedule} {now : Int} (hq : q.Valid now)
    (hc : q.checkpoint = none) (hk : q.cliff = none) (hs : q.stop.isSome = true) (t : Int) :
    q.value t ≤ q.obligation := by
  obtain ⟨e, he⟩ := Option.isSome_iff_exists.mp hs
  have hlt := hq.start_lt e he
  have hle : q.effective t ≤ e := by
    unfold effective clamp
    rw [he]
    exact min_le_right _ _
  have hpos : 0 ≤ q.rate * (e - q.start) := mul_nonneg hq.rate_pos.le (by omega)
  have hmul : q.rate * (q.effective t - q.start) ≤ q.rate * (e - q.start) :=
    mul_le_mul_of_nonneg_left (by omega) hq.rate_pos.le
  rw [obligation_eq he]
  unfold value valueAt anchor
  rw [hc, hk]
  show (if t < q.start then 0 else if q.effective t < q.start then 0 else
    0 + q.rate * (q.effective t - q.start)) ≤ q.rate * (e - q.start)
  split
  · exact hpos
  · split
    · exact hpos
    · omega

/-- The whole of a bounded linear schedule is held or has been paid. -/
structure Escrow.Solvent (e : Escrow) : Prop where
  bounded : e.schedule.stop.isSome = true
  no_checkpoint : e.schedule.checkpoint = none
  no_cliff : e.schedule.cliff = none
  covered : e.schedule.obligation ≤ e.balance + e.withdrawn

/-- The operations that pay for what they promise, on a stream of the given rate. -/
def Op.PaysItsWay (rate : Int) : Op → Prop
  | .withdraw .. => True
  | .adjust deposit (.extend extra) => extra * rate ≤ deposit
  | .adjust _ .pause | .adjust _ .resume | .adjust _ .idle => True
  | .adjust _ (.changeRate _) | .adjust _ (.setCliff ..) | .settle _ | .clawback => False

namespace Escrow.Solvent

variable {e : Escrow} {max now : Int}

theorem adjust {deposit : Int} {m : Move} (h : e.Solvent) (ha : e.Allows max now (.adjust deposit m))
    (hm : (Op.adjust deposit m).PaysItsWay e.schedule.rate) :
    (e.apply now (.adjust deposit m)).Solvent := by
  obtain ⟨hd, hallow⟩ := ha
  have hcov := h.covered
  cases m with
  | pause | idle =>
      refine ⟨h.bounded, h.no_checkpoint, h.no_cliff, ?_⟩
      show e.schedule.obligation ≤ e.balance + deposit + e.withdrawn
      omega
  | resume =>
      obtain ⟨p, hp, -⟩ := hallow
      have hmove : (e.apply now (.adjust deposit .resume)).schedule =
          e.schedule.shift p (now - p) := by
        show e.schedule.move now .resume = _
        rw [Schedule.move, Option.mem_def.mp hp]
        rfl
      refine ⟨?_, ?_, ?_, ?_⟩
      · rw [hmove, Schedule.shift, Option.isSome_map]
        exact h.bounded
      · rw [hmove, Schedule.shift, h.no_checkpoint]
        rfl
      · rw [hmove]
        exact h.no_cliff
      · rw [hmove, Schedule.obligation_shift]
        show e.schedule.obligation ≤ e.balance + deposit + e.withdrawn
        omega
  | extend extra =>
      have hm : extra * e.schedule.rate ≤ deposit := hm
      refine ⟨?_, h.no_checkpoint, h.no_cliff, ?_⟩
      · show (e.schedule.stop.map (· + extra)).isSome = true
        rw [Option.isSome_map]
        exact h.bounded
      · show (e.schedule.move now (.extend extra)).obligation ≤ e.balance + deposit + e.withdrawn
        rw [Schedule.obligation_extend h.bounded]
        omega
  | changeRate | setCliff => exact hm.elim

theorem apply {op : Op} (h : e.Solvent) (ha : e.Allows max now op)
    (hop : op.PaysItsWay e.schedule.rate) : (e.apply now op).Solvent := by
  cases op with
  | withdraw amount kept =>
      obtain ⟨-, -, hk, -⟩ := ha
      have := h.covered
      refine ⟨h.bounded, h.no_checkpoint, h.no_cliff, ?_⟩
      show e.schedule.obligation ≤
        e.balance - e.payout now amount + kept + (e.withdrawn + e.payout now amount)
      omega
  | adjust deposit m => exact h.adjust ha hop
  | settle | clawback => exact hop.elim

/-- What is owed is there. -/
theorem owed_le {t : Int} (h : e.Solvent) (hq : e.schedule.Valid now) (hb : 0 ≤ e.balance) :
    e.owed t ≤ e.balance := by
  have := hq.value_le_obligation h.no_checkpoint h.no_cliff h.bounded t
  have := h.covered
  exact max_le (by omega) hb

/-- A withdrawal is cut to what is owed, and never to the balance. -/
theorem payout {t amount : Int} (h : e.Solvent) (hq : e.schedule.Valid now) (hb : 0 ≤ e.balance) :
    e.payout t amount = min amount (e.owed t) :=
  min_eq_left ((min_le_right _ _).trans (h.owed_le hq hb))

end Escrow.Solvent

/-! ### Runs -/

variable {env : Env} {here : Address} {args : InitArgs} {m m₀ : Moment} {as : List Action}
variable {s s' : State} {info info₀ : StreamInfo}

/-- The calls that keep a stream solvent: all but the rate change, the cliff, the extension with an
arbitrary deposit, the clawback and the cancellations. -/
def Call.PaysItsWay : Call → Bool
  | .changeRate .. | .setCliff .. | .topUpAndExtend .. | .clawback _ | .cancel _
  | .forceCancel => false
  | _ => true

theorem paysItsWay_op {c : Call} (h : c.PaysItsWay = true) (rate kept : Int) :
    (c.op rate kept).PaysItsWay rate := by
  cases c with
  | changeRate | setCliff | topUpAndExtend | clawback | cancel | forceCancel => cases h
  | extendDuration caller extra => exact le_refl _
  | _ => trivial

/-- A new bounded stream that holds all it will ever earn is solvent. -/
theorem solvent_of_born (hborn : Born here args m) (hb : 0 < args.endTime.val)
    (hfund : args.ratePerSecond.val * (args.endTime.val - args.startTime.val) ≤
      (m.state.tokens.balance args.token here).val) :
    (escrowOf here (initialInfo args) m.state).Solvent := by
  obtain ⟨env, -, hc⟩ := hborn.created
  have hsched : (escrowOf here (initialInfo args) m.state).schedule = _ := hc.schedule
  rw [if_neg hb.ne'] at hsched
  refine ⟨by rw [hsched]; rfl, by rw [hsched], by rw [hsched], ?_⟩
  rw [hsched]
  show args.ratePerSecond.val * (args.endTime.val - args.startTime.val) ≤
    (m.state.tokens.balance args.token here).val + 0
  omega

theorem solvent_of_run (hs₀ : Sound here m₀.state info₀ m₀.clock.val)
    (h₀ : (escrowOf here info₀ m₀.state).Solvent) (hrun : Run (Step here) m₀ as m)
    (hcalls : ∀ env c, .call env c ∈ as → c.PaysItsWay = true) :
    ∃ info, Sound here m.state info m.clock.val ∧ (escrowOf here info m.state).Solvent := by
  refine Sound.along (P := fun info m => (escrowOf here info m.state).Solvent) id ?_ ?_ hrun hs₀ h₀
  · intro m info env c s' info' kept hin _ hc hsol
    have henv := hc.contract
    subst henv
    rw [show escrowOf _ info' s' = _ from hc.effect.escrow]
    exact hsol.apply hc.effect.allows (paysItsWay_op (hcalls env c hin) _ kept)
  · intro m info tokens _ h _ hsol
    refine ⟨hsol.bounded, hsol.no_checkpoint, hsol.no_cliff, ?_⟩
    exact hsol.covered.trans (add_le_add_left (h info.token) _)

/-- Solvency in the fields of the config. -/
theorem obligation_le (h : (escrowOf here info s).Solvent) :
    info.ratePerSecond.val * (info.endTime.val - info.startTime.val) ≤
      (s.tokens.balance info.token here).val + info.withdrawn.val := by
  obtain ⟨e, he⟩ := Option.isSome_iff_exists.mp h.bounded
  have hcov := h.covered
  unfold Schedule.obligation at hcov
  rw [he] at hcov
  obtain ⟨-, rfl⟩ := stop_eq_some.mp he
  exact hcov

/-! ### Withdrawals from a solvent stream -/

theorem avoids_payPositive {dst : Address} {amount : I128} {p : Purpose} :
    Avoids (err .streamUnderfunded) (payPositive env s info dst amount p) := by
  unfold payPositive
  split
  · exact avoids_transfer
  · exact avoids_ok s

theorem avoids_mulDiv {v : I128} {a d : U128} : Avoids (err .streamUnderfunded) (mulDiv v a d) :=
  avoids_bind (avoids_reject fun _ => by decide) fun _ _ =>
    avoids_bind (avoids_okOr (by decide)) fun _ _ =>
      avoids_bind (avoids_okOr (by decide)) fun _ _ => avoids_okOr (by decide)

theorem avoids_payRecipient {amount : I128} :
    Avoids (err .streamUnderfunded) (payRecipient env s info amount) := by
  unfold payRecipient
  split
  · refine avoids_bind avoids_mulDiv fun _ _ => ?_
    refine avoids_bind (avoids_okOr (by decide)) fun _ _ => ?_
    exact avoids_bind avoids_payPositive fun _ _ => avoids_payPositive
  · exact avoids_transfer

theorem avoids_markCliffReached :
    Avoids (err .streamUnderfunded) (markCliffReached env s info) := by
  unfold markCliffReached
  split
  · split
    · exact avoids_publish (by decide) (by decide) (by decide)
    · exact avoids_ok s
  · exact avoids_ok s

theorem avoids_markCompleted {balance remaining newWithdrawn : I128} :
    Avoids (err .streamUnderfunded) (markCompleted s info balance remaining newWithdrawn) := by
  unfold markCompleted
  split
  · exact avoids_publish (by decide) (by decide) (by decide)
  · exact avoids_ok s

theorem avoids_accrueSince {rate base : I128} {x since : U64} :
    Avoids (err .streamUnderfunded) (accrueSince rate x since base) := by
  unfold accrueSince
  split
  · exact avoids_ok _
  · refine avoids_bind (avoids_okOr (by decide)) fun _ _ => ?_
    exact avoids_bind avoids_mulDiv fun _ _ => avoids_okOr (by decide)

theorem avoids_withdrawable : Avoids (err .streamUnderfunded) (withdrawable env s info) := by
  refine avoids_bind ?_ fun _ _ => avoids_ok _
  unfold streamedAmount
  dsimp only
  split
  · exact avoids_ok _
  · cases s.store.rateCheckpoint with
    | some checkpoint => exact avoids_accrueSince
    | none =>
        cases s.store.cliffConfig with
        | some cfg => exact avoids_accrueSince
        | none => exact avoids_bind (avoids_okOr (by decide)) fun _ _ => avoids_mulDiv

/-- What a solvent stream has earned and not paid is in its balance. -/
theorem earned_le_balance {v : I128} (hs : Sound env.contract s info env.timestamp.val)
    (hsol : (escrowOf env.contract info s).Solvent) (hv : streamedAmount env s info = .ok v) :
    max (v.val - info.withdrawn.val) 0 ≤ (s.tokens.balance info.token env.contract).val := by
  rw [value_of_streamedAmount hs.valid hv]
  exact hsol.owed_le hs.valid (s.tokens.balance info.token env.contract).ge

/-- A solvent stream is never found empty by a withdrawal. -/
theorem avoids_withdraw {amount : I128} (hs : Sound env.contract s info env.timestamp.val)
    (hsol : (escrowOf env.contract info s).Solvent) :
    Avoids (err .streamUnderfunded) (withdraw env amount s) := by
  refine avoids_withGuard (by decide) ?_
  refine avoids_bind (avoids_reject fun _ => by decide) fun _ hamount => ?_
  refine avoids_bind (avoids_okOr (by decide)) fun info' hload => ?_
  refine avoids_bind (avoids_reject fun _ => by decide) fun _ _ => ?_
  refine avoids_bind (avoids_reject fun _ => by decide) fun _ _ => ?_
  refine avoids_bind (avoids_reject fun _ => by decide) fun _ _ => ?_
  refine avoids_bind avoids_withdrawable fun available hav => ?_
  refine avoids_bind (avoids_reject fun _ => by decide) fun _ hne => ?_
  refine avoids_bind (avoids_reject fun hzero => ?_) fun _ _ => ?_
  · obtain rfl : info = info' := Option.some.inj (hs.config.symm.trans (okOr_eq_ok.mp hload))
    obtain ⟨v, hv, hval⟩ := withdrawable_val hs.withdrawn_nonneg hav
    have hamount := reject_eq_ok.mp hamount
    have hne := reject_eq_ok.mp hne
    have hle := earned_le_balance hs hsol hv
    rw [Ranged.val_min, Ranged.val_min, hval] at hzero
    rw [hval] at hne
    have hzero : min (min amount.val (max (v.val - info.withdrawn.val) 0))
      (s.tokens.balance info.token env.contract).val = 0 := hzero
    omega
  refine avoids_bind (avoids_okOr (by decide)) fun _ _ => ?_
  refine avoids_bind avoids_payRecipient fun _ _ => ?_
  refine avoids_bind (avoids_okOr (by decide)) fun _ _ => ?_
  refine avoids_bind (avoids_publish (by decide) (by decide) (by decide)) fun _ _ => ?_
  refine avoids_bind avoids_markCliffReached fun _ _ => ?_
  exact avoids_bind avoids_markCompleted fun _ _ => avoids_ok _

/-- A withdrawal from a solvent stream pays all that was asked for, up to what is earned and not yet
withdrawn; and it returns what it paid. -/
theorem withdraw_pays {amount x : I128} (hs : Sound env.contract s info env.timestamp.val)
    (hsol : (escrowOf env.contract info s).Solvent) (h : withdraw env amount s = .ok (x, s')) :
    ∃ v ts, streamedAmount env s info = .ok v ∧ s'.transfers = s.transfers ++ ts ∧
      Payout s info x.val ts ∧ x.val = min amount.val (max (v.val - info.withdrawn.val) 0) := by
  obtain ⟨v, w, n, ts, hv, -, -, -, hpaid, hpo, -, hx⟩ :=
    withdraw_spec hs.config hs.withdrawn_nonneg hs.split_le h
  have hfull : payable v.val info.withdrawn.val amount.val
      (s.tokens.balance info.token env.contract).val =
        min amount.val (max (v.val - info.withdrawn.val) 0) := by
    rw [value_of_streamedAmount hs.valid hv]
    exact hsol.payout hs.valid (s.tokens.balance info.token env.contract).ge
  rw [hx, hpo.sent]
  exact ⟨v, ts, hv, hpaid.transfers, hpo, hfull⟩

end Drip.Stream
