import Drip.Stream.Accrual
import Drip.Stream.Books
import Drip.Stream.Earned
import Drip.Stream.Settlement

/-!
# Stream — Independence

The settlement does not depend on the withdrawals.  An `Account` is an escrow as seen by someone who
cannot tell what was withdrawn from what is still held; withdrawals do not change it, and the other
operations are functions of it (`account_apply`).  Two runs of one stream with the same other calls
at the same times therefore end in the same account (`account_of_run`), and a settlement leaves
nothing to tell apart: `settlement_independent`.
-/

namespace Drip.Stream

/-! ### The account -/

@[ext]
structure Account where
  schedule : Schedule
  /-- what is held or was withdrawn -/
  funds : Int
  clawedBack : Int
  refunded : Int

def Escrow.account (e : Escrow) : Account where
  schedule := e.schedule
  funds := e.balance + e.withdrawn
  clawedBack := e.totals .clawback
  refunded := e.totals .refund

namespace Account

/-- What the recipient is due of the funds. -/
def due (a : Account) (now : Int) : Int := min (a.schedule.value now) a.funds

def apply (a : Account) (now : Int) : Op → Account
  | .withdraw .. => a
  | .settle _ => { a with funds := a.due now, refunded := a.refunded + (a.funds - a.due now) }
  | .clawback => { a with funds := a.due now, clawedBack := a.clawedBack + (a.funds - a.due now) }
  | .adjust deposit m =>
      { a with schedule := a.schedule.move now m, funds := a.funds + deposit }

/-- The account after a call. -/
def next (a : Account) (x : U64 × Call) : Account :=
  a.apply x.1.val (x.2.op a.schedule.rate 0)

end Account

/-- The account takes part in every operation, as long as no more is withdrawn than is earned and
the payouts leave the contract. -/
theorem Escrow.account_apply {e : Escrow} {now : Int} {op : Op}
    (hw : e.withdrawn ≤ e.schedule.value now) (hk : op.kept = 0) :
    (e.apply now op).account = e.account.apply now op := by
  have howed : e.owed now = e.schedule.value now - e.withdrawn := max_eq_left (by omega)
  have hdue : e.account.due now = min (e.schedule.value now) (e.balance + e.withdrawn) := rfl
  cases op with
  | withdraw amount kept =>
      have hk : kept = 0 := hk
      ext1
      · rfl
      · show e.balance - e.payout now amount + kept + (e.withdrawn + e.payout now amount) =
          e.balance + e.withdrawn
        omega
      · exact add_zero _
      · exact add_zero _
  | settle kept =>
      have hk : kept = 0 := hk
      have hshare : e.withdrawn + e.share now = e.account.due now := by
        unfold share
        omega
      ext1
      · rfl
      · show kept + (e.withdrawn + e.share now) = e.account.due now
        omega
      · show e.totals .clawback + 0 + 0 = e.totals .clawback
        omega
      · show e.totals .refund + 0 + (e.balance - e.share now) =
          e.totals .refund + (e.balance + e.withdrawn - e.account.due now)
        omega
  | clawback =>
      have hsurplus : e.balance + e.withdrawn - e.surplus now = e.account.due now := by
        unfold surplus
        omega
      ext1
      · rfl
      · show e.balance - e.surplus now + e.withdrawn = e.account.due now
        omega
      · show e.totals .clawback + e.surplus now =
          e.totals .clawback + (e.balance + e.withdrawn - e.account.due now)
        omega
      · exact add_zero _
  | adjust deposit m =>
      ext1
      · rfl
      · show e.balance + deposit + e.withdrawn = e.balance + e.withdrawn + deposit
        omega
      · exact add_zero _
      · exact add_zero _

/-- What was withdrawn is what was paid out. -/
theorem Escrow.payout_apply {e : Escrow} {now : Int} {op : Op} (h : e.totals .payout = e.withdrawn) :
    (e.apply now op).totals .payout = (e.apply now op).withdrawn := by
  cases op with
  | withdraw amount kept =>
      show e.totals .payout + e.payout now amount = e.withdrawn + e.payout now amount
      omega
  | settle kept =>
      show e.totals .payout + e.share now + 0 = e.withdrawn + e.share now
      omega
  | clawback => exact (add_zero _).trans h
  | adjust deposit m => exact (add_zero _).trans h

/-! ### Runs -/

variable {here : Address} {args : InitArgs} {m m₀ m₁ m₂ : Moment} {as bs₁ bs₂ : List Action}
variable {env env₁ env₂ : Env} {c c₁ c₂ : Call} {info : StreamInfo}

/-- A call that is not a withdrawal, and its time. -/
def Action.other : Action → Option (U64 × Call)
  | .call _ (.withdraw _) | .outside _ => none
  | .call env c => some (env.timestamp, c)

/-- The calls of a run that are not withdrawals. -/
def otherCalls (as : List Action) : List (U64 × Call) := as.filterMap Action.other

theorem op_eq_of_kept {rate kept : Int} (h : c.IsPayout = true → kept = 0) :
    c.op rate kept = c.op rate 0 := by
  cases c with
  | withdraw amount =>
      show Op.withdraw amount.val kept = .withdraw amount.val 0
      rw [h rfl]
  | cancel caller =>
      show Op.settle kept = .settle 0
      rw [h rfl]
  | forceCancel =>
      show Op.settle kept = .settle 0
      rw [h rfl]
  | _ => rfl

/-- A call changes the account as `Account.next` says, and a withdrawal does not change it. -/
theorem account_other {a : Account} (env : Env) (c : Call) :
    a.apply env.timestamp.val (c.op a.schedule.rate 0) =
      ([Action.call env c].filterMap Action.other).foldl Account.next a := by
  cases c <;> rfl

/-- What holds of a stream without a cliff whose payouts leave the contract. -/
structure Accounted (here : Address) (args : InitArgs) (m : Moment) (info : StreamInfo)
    (account : Account) : Prop where
  sound : Sound here m.state info m.clock.val
  token : info.token = args.token
  cliff : (scheduleOf info m.state.store).cliff = none
  withdrawn_le : info.withdrawn.val ≤ (scheduleOf info m.state.store).value m.clock.val
  paid : total info.token .payout m.state.transfers = info.withdrawn.val
  account : (escrowOf here info m.state).account = account

theorem keeps_of_no_cliff {q : Schedule} {now : Int} {m : Move} (hq : q.cliff = none)
    (hm : ∀ t u, m ≠ .setCliff t u) : q.Keeps now m := by
  cases m with
  | changeRate r =>
      refine .inr (.inl fun c hc => ?_)
      rw [hq] at hc
      cases hc
  | setCliff t u => exact absurd rfl (hm t u)
  | pause | resume | extend | idle => trivial

theorem cliff_move {q : Schedule} {now : Int} {m : Move} (hm : ∀ t u, m ≠ .setCliff t u) :
    (q.move now m).cliff = q.cliff := by
  cases m with
  | setCliff t u => exact absurd rfl (hm t u)
  | resume =>
      unfold Schedule.move
      cases q.pausedAt <;> rfl
  | pause | changeRate | extend | idle => rfl

theorem Accounted.call {account : Account} {s' : State} (h : Accounted env.contract args m info account)
    (hclock : m.clock.val ≤ env.timestamp.val) (hexec : exec env m.state c = .ok s')
    (haway : PaysAway env.contract m (.call env c)) (hcliff : ∀ t u, c.move ≠ .setCliff t u) :
    ∃ info', Accounted env.contract args ⟨s', env.timestamp⟩ info'
      (account.apply env.timestamp.val (c.op account.schedule.rate 0)) := by
  have hs := h.sound.wait hclock
  obtain ⟨info', kept, he⟩ := effect_of_exec hs hexec
  have hkept : c.IsPayout = true → kept = 0 := fun hp =>
    he.kept_eq_zero (haway _ _ info rfl hp hs.config)
  have hw : info.withdrawn.val ≤ (scheduleOf info m.state.store).value env.timestamp.val :=
    h.withdrawn_le.trans (hs.valid.value_mono hclock)
  have hv := he.value_le hs (keeps_of_no_cliff h.cliff hcliff)
  refine ⟨info', he.sound, he.token.trans h.token, ?_, he.withdrawn_le hv hw, ?_, ?_⟩
  · show (scheduleOf info' s'.store).cliff = none
    rw [he.schedule, cliff_move hcliff]
    exact h.cliff
  · show (escrowOf env.contract info' s').totals .payout = (escrowOf env.contract info' s').withdrawn
    rw [he.escrow]
    exact Escrow.payout_apply h.paid
  · have hrate : account.schedule.rate = info.ratePerSecond.val := by rw [← h.account]; rfl
    rw [← h.account] at hrate ⊢
    show (escrowOf env.contract info' s').account = _
    rw [he.escrow, Escrow.account_apply hw (kept_op hkept), op_eq_of_kept hkept, hrate]

theorem account_of_run (hborn : Born here args m₀) (hrun : Run (BookedStep here) m₀ as m)
    (hcliff : NoCliff as) : ∃ info, Accounted here args m info
      ((otherCalls as).foldl Account.next (escrowOf here (initialInfo args) m₀.state).account) := by
  induction hrun with
  | nil =>
      have hs := sound_of_born hborn
      obtain ⟨env, -, hc⟩ := hborn.created
      refine ⟨initialInfo args, hs, rfl, ?_, hs.valid.value_nonneg _, ?_, rfl⟩
      · rw [hc.schedule]
      · rw [hc.transfers]; rfl
  | snoc hrun ha ih =>
      obtain ⟨info, hacc⟩ := ih fun env caller t u hin =>
        hcliff env caller t u (List.mem_append_left _ hin)
      obtain ⟨hstep, haway, hquiet⟩ := ha
      unfold otherCalls at hacc ⊢
      rw [List.filterMap_append, List.foldl_append]
      cases hstep with
      | call henv hclock h =>
          subst henv
          have hmove := not_setCliff_of_noCliff hcliff
            (List.mem_append_right _ List.mem_cons_self)
          obtain ⟨info', hacc'⟩ := hacc.call hclock h haway hmove
          rw [account_other] at hacc'
          exact ⟨info', hacc'⟩
      | outside h =>
          refine ⟨info, hacc.sound.outside, hacc.token, hacc.cliff, hacc.withdrawn_le, hacc.paid, ?_⟩
          rw [← hacc.account]
          unfold Escrow.account escrowOf
          rw [show _ = _ from hquiet _ info rfl hacc.sound.config]
          rfl

/-! ### The end of a run -/

theorem op_of_settlement (hc : c.IsSettlement = true) (rate kept : Int) :
    c.op rate kept = .settle kept := by
  cases c with
  | cancel | forceCancel => rfl
  | _ => cases hc

theorem isPayout_of_settlement (hc : c.IsSettlement = true) : c.IsPayout = true := by
  cases c with
  | cancel | forceCancel => rfl
  | _ => cases hc

/-- A settlement leaves nothing in the contract. -/
theorem Accounted.settle {account : Account} {s' : State}
    (h : Accounted env.contract args m info account) (hclock : m.clock.val ≤ env.timestamp.val)
    (hc : c.IsSettlement = true) (hexec : exec env m.state c = .ok s')
    (haway : PaysAway env.contract m (.call env c)) :
    ∃ info', Accounted env.contract args ⟨s', env.timestamp⟩ info'
        (account.apply env.timestamp.val (.settle 0)) ∧
      (s'.tokens.balance info'.token env.contract).val = 0 := by
  have hmove : ∀ t u, c.move ≠ .setCliff t u := by
    cases c with
    | cancel | forceCancel => exact nofun
    | _ => cases hc
  obtain ⟨info', hacc⟩ := h.call hclock hexec haway hmove
  rw [op_of_settlement hc] at hacc
  refine ⟨info', hacc, ?_⟩
  obtain ⟨info₁, kept, he⟩ := effect_of_exec (h.sound.wait hclock) hexec
  obtain rfl := Option.some.inj (he.sound.config.symm.trans hacc.sound.config)
  have hkept : kept = 0 :=
    he.kept_eq_zero (haway _ _ info rfl (isPayout_of_settlement hc) h.sound.config)
  have hb : (escrowOf env.contract info₁ s').balance = kept := by
    rw [he.escrow, op_of_settlement hc]
    rfl
  exact hb.trans hkept

/-- With nothing left in the contract, the account holds what was ever paid out. -/
theorem Accounted.totals {account : Account} (h : Accounted here args m info account)
    (hb : (m.state.tokens.balance info.token here).val = 0) :
    total args.token .payout m.state.transfers = account.funds ∧
      total args.token .clawback m.state.transfers + total args.token .refund m.state.transfers =
        account.clawedBack + account.refunded := by
  have hfunds : (m.state.tokens.balance info.token here).val + info.withdrawn.val =
    account.funds := congrArg Account.funds h.account
  have hclawed : total info.token .clawback m.state.transfers = account.clawedBack :=
    congrArg Account.clawedBack h.account
  have hrefunded : total info.token .refund m.state.transfers = account.refunded :=
    congrArg Account.refunded h.account
  have hpaid := h.paid
  rw [h.token] at hclawed hrefunded hpaid
  omega

theorem totals_of_settled_run (hborn : Born here args m₀)
    (hrun : Run (BookedStep here) m₀ (as ++ [.call env c]) m) (hcliff : NoCliff as)
    (hc : c.IsSettlement = true) : ∃ account,
      account = ((otherCalls as).foldl Account.next
        (escrowOf here (initialInfo args) m₀.state).account).apply env.timestamp.val (.settle 0) ∧
      total args.token .payout m.state.transfers = account.funds ∧
      total args.token .clawback m.state.transfers + total args.token .refund m.state.transfers =
        account.clawedBack + account.refunded := by
  obtain ⟨m', hrun, hstep, haway, -⟩ := hrun.of_snoc
  obtain ⟨info, hacc⟩ := account_of_run hborn hrun hcliff
  cases hstep with
  | call henv hclock h =>
      subst henv
      obtain ⟨info', hacc', hb⟩ := hacc.settle hclock hc h haway
      exact ⟨_, rfl, hacc'.totals hb⟩

/-- **The settlement does not depend on the withdrawals.**  Two runs of one stream that make the same
calls at the same times, withdrawals apart, and are settled at the same time, have paid the recipient
side the same and returned the same to the sender. -/
theorem settlement_independent (hborn : Born here args m₀)
    (hrun₁ : Run (BookedStep here) m₀ (bs₁ ++ [.call env₁ c₁]) m₁)
    (hrun₂ : Run (BookedStep here) m₀ (bs₂ ++ [.call env₂ c₂]) m₂)
    (hcliff₁ : NoCliff bs₁) (hcliff₂ : NoCliff bs₂) (hsame : otherCalls bs₁ = otherCalls bs₂)
    (hc₁ : c₁.IsSettlement = true) (hc₂ : c₂.IsSettlement = true)
    (htime : env₁.timestamp = env₂.timestamp) :
    total args.token .payout m₁.state.transfers = total args.token .payout m₂.state.transfers ∧
      total args.token .clawback m₁.state.transfers + total args.token .refund m₁.state.transfers =
        total args.token .clawback m₂.state.transfers +
          total args.token .refund m₂.state.transfers := by
  obtain ⟨account₁, heq₁, hpaid₁, hback₁⟩ := totals_of_settled_run hborn hrun₁ hcliff₁ hc₁
  obtain ⟨account₂, heq₂, hpaid₂, hback₂⟩ := totals_of_settled_run hborn hrun₂ hcliff₂ hc₂
  have heq : account₁ = account₂ := by rw [heq₁, heq₂, hsame, htime]
  rw [hpaid₁, hback₁, hpaid₂, hback₂, heq]
  exact ⟨rfl, rfl⟩

/-- The sample stream, clawed back at 400 and cancelled at 600. -/
def Sample.undrawn : Moment :=
  next (next (born Sample.args) (.lit 400) (.clawback sender)) (.lit 600) (.cancel sender)

/-- The same, after a withdrawal at 300. -/
def Sample.drawnBefore : Moment :=
  next (next (next (born Sample.args) (.lit 300) (.withdraw (.lit 700))) (.lit 400)
    (.clawback sender)) (.lit 600) (.cancel sender)

theorem settlement_independent_sample :
    total Sample.args.token .payout Sample.undrawn.state.transfers =
        total Sample.args.token .payout Sample.drawnBefore.state.transfers ∧
      total Sample.args.token .clawback Sample.undrawn.state.transfers +
          total Sample.args.token .refund Sample.undrawn.state.transfers =
        total Sample.args.token .clawback Sample.drawnBefore.state.transfers +
          total Sample.args.token .refund Sample.drawnBefore.state.transfers := by
  have hborn : Born Sample.address Sample.args (Sample.born Sample.args) :=
    Sample.born_of_initialize (by decide +kernel)
  have hrun₁ : Run (BookedStep Sample.address) (Sample.born Sample.args)
      (Sample.actions [(.lit 400, .clawback Sample.sender)] ++
        [.call (Sample.envAt (.lit 600)) (.cancel Sample.sender)]) Sample.undrawn :=
    ((Run.nil _).snoc
      (Sample.booked_next (by decide +kernel) (by decide +kernel) (by decide +kernel))).snoc
      (Sample.booked_next (by decide +kernel) (by decide +kernel) (by decide +kernel))
  have hrun₂ : Run (BookedStep Sample.address) (Sample.born Sample.args)
      (Sample.actions [(.lit 300, .withdraw (.lit 700)), (.lit 400, .clawback Sample.sender)] ++
        [.call (Sample.envAt (.lit 600)) (.cancel Sample.sender)]) Sample.drawnBefore :=
    (((Run.nil _).snoc
      (Sample.booked_next (by decide +kernel) (by decide +kernel) (by decide +kernel))).snoc
      (Sample.booked_next (by decide +kernel) (by decide +kernel) (by decide +kernel))).snoc
      (Sample.booked_next (by decide +kernel) (by decide +kernel) (by decide +kernel))
  refine settlement_independent hborn hrun₁ hrun₂ ?_ ?_ rfl rfl rfl rfl
  · intro env caller t u
    simp [Sample.actions]
  · intro env caller t u
    simp [Sample.actions]

end Drip.Stream
