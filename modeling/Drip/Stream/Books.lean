import Drip.Stream.Runs

/-!
# Stream — Books

The contract's books against its balance.  `Escrow.net` is what was paid in and is not accounted for
yet; an operation changes it by exactly the part of a payout that came back to the contract
(`net_apply`).  `books_of_run`: the balance is the initial funding and the deposits, less what was
withdrawn, clawed back and refunded, exactly as long as nothing of a payout goes to the contract itself.
-/

namespace Drip.Stream

/-! ### The net of an escrow -/

/-- The part of a payout that was sent to the contract's own address. -/
def Op.kept : Op → Int
  | .withdraw _ kept | .settle kept => kept
  | .clawback | .adjust .. => 0

/-- What the escrow holds and what it gave away, less what was deposited. -/
def Escrow.net (e : Escrow) : Int :=
  e.balance + e.withdrawn + e.totals .clawback + e.totals .refund - e.totals .deposit

theorem Escrow.net_apply (e : Escrow) (now : Int) (op : Op) :
    (e.apply now op).net = e.net + op.kept := by
  unfold net
  cases op with
  | withdraw amount kept =>
      show e.balance - e.payout now amount + kept + (e.withdrawn + e.payout now amount) +
        (e.totals .clawback + 0) + (e.totals .refund + 0) - (e.totals .deposit + 0) = _ + kept
      omega
  | settle kept =>
      show kept + (e.withdrawn + e.share now) + (e.totals .clawback + 0 + 0) +
        (e.totals .refund + 0 + (e.balance - e.share now)) - (e.totals .deposit + 0 + 0) = _ + kept
      omega
  | clawback =>
      show e.balance - e.surplus now + e.withdrawn + (e.totals .clawback + e.surplus now) +
        (e.totals .refund + 0) - (e.totals .deposit + 0) = _ + 0
      omega
  | adjust deposit m =>
      show e.balance + deposit + e.withdrawn + (e.totals .clawback + 0) + (e.totals .refund + 0) -
        (e.totals .deposit + deposit) = _ + 0
      omega

theorem Escrow.pays_op (e : Escrow) (now : Int) (c : Call) (rate kept : Int) :
    e.pays now (c.op rate kept) = e.pays now (c.op rate 0) := by
  cases c <;> rfl

/-- Only a call that pays the recipient keeps anything. -/
theorem Effect.op_kept {env : Env} {s s' : State} {info info' : StreamInfo} {c : Call} {kept : Int}
    (h : Effect env s info c s' info' kept) : (c.op info.ratePerSecond.val kept).kept =
      shareOf env.contract s info
        ((escrowOf env.contract info s).pays env.timestamp.val (c.op info.ratePerSecond.val 0)) := by
  rw [← Escrow.pays_op _ _ _ _ kept, ← h.kept_eq]
  cases c with
  | withdraw | cancel | forceCancel => rfl
  | _ => exact (h.kept_eq.trans shareOf_zero).symm

/-! ### Runs -/

variable {here : Address} {args : InitArgs} {m m₀ : Moment} {as : List Action}

/-- The calls that pay the recipient. -/
def Call.IsPayout : Call → Bool
  | .withdraw _ | .cancel _ | .forceCancel => true
  | _ => false

theorem kept_op {c : Call} {rate kept : Int} (h : c.IsPayout = true → kept = 0) :
    (c.op rate kept).kept = 0 := by
  cases c with
  | withdraw | cancel | forceCancel => exact h rfl
  | _ => rfl

/-- No payout of the step is addressed to the contract. -/
def PaysAway (here : Address) (m : Moment) (a : Action) : Prop :=
  ∀ env c info, a = .call env c → c.IsPayout = true → m.state.store.config = some info →
    ∀ x ∈ payees m.state info, x ≠ here

/-- No one sends the contract the stream token directly. -/
def NoInflow (here : Address) (m : Moment) (a : Action) : Prop :=
  ∀ tokens info, a = .outside tokens → m.state.store.config = some info →
    tokens.balance info.token here = m.state.tokens.balance info.token here

def BookedStep (here : Address) (m : Moment) (a : Action) (m' : Moment) : Prop :=
  Step here m a m' ∧ PaysAway here m a ∧ NoInflow here m a

/-- Of what the step pays the recipient, the contract itself gets nothing. -/
def KeepsNothing (here : Address) (m : Moment) (a : Action) : Prop :=
  ∀ env c info, a = .call env c → m.state.store.config = some info →
    shareOf here m.state info ((escrowOf here info m.state).pays env.timestamp.val
      (c.op info.ratePerSecond.val 0)) = 0

/-- A step that pays somebody else keeps nothing. -/
theorem PaysAway.keepsNothing {a : Action} (h : PaysAway here m a) : KeepsNothing here m a := by
  intro env c info ha hi
  cases hp : c.IsPayout with
  | true => exact shareOf_eq_zero (h env c info ha hp hi) _
  | false =>
      cases c with
      | withdraw | cancel | forceCancel => cases hp
      | _ => exact shareOf_zero

/-- The contract's balance is what it had at `m₀` and what was deposited, less the withdrawn amount, the
clawbacks and the refund. -/
def Balanced (here : Address) (m₀ : Moment) (info : StreamInfo) (m : Moment) : Prop :=
  (m.state.tokens.balance info.token here).val =
    (m₀.state.tokens.balance info.token here).val + total info.token .deposit m.state.transfers
      - info.withdrawn.val - total info.token .clawback m.state.transfers
      - total info.token .refund m.state.transfers

theorem balanced_iff_net {info : StreamInfo} : Balanced here m₀ info m ↔
    (escrowOf here info m.state).net = (m₀.state.tokens.balance info.token here).val := by
  show _ ↔ (m.state.tokens.balance info.token here).val + info.withdrawn.val +
    total info.token .clawback m.state.transfers + total info.token .refund m.state.transfers -
    total info.token .deposit m.state.transfers = _
  unfold Balanced
  omega

/-- A step without inflow keeps the books exactly when it keeps nothing. -/
theorem balanced_of_step {a : Action} {m' : Moment} {info info' : StreamInfo}
    (hstep : Step here m a m' ∧ NoInflow here m a) (hs : Sound here m.state info m.clock.val)
    (hs' : Sound here m'.state info' m'.clock.val) (hbooks : Balanced here m₀ info m) :
    Balanced here m₀ info' m' ↔ KeepsNothing here m a := by
  obtain ⟨hstep, hquiet⟩ := hstep
  have hnet := balanced_iff_net.mp hbooks
  cases hstep with
  | @call env c s' henv hclock h =>
      obtain ⟨info₁, kept, hc⟩ := called_of_exec hs henv hclock h
      subst henv
      obtain rfl := Option.some.inj (hc.effect.sound.config.symm.trans hs'.config)
      have hkept : KeepsNothing env.contract m (.call env c) ↔
          (c.op info.ratePerSecond.val kept).kept = 0 := by
        rw [hc.effect.op_kept]
        constructor
        · exact fun h => h env c info rfl hs.config
        · rintro hzero _ _ info₂ ⟨⟩ hi
          obtain rfl := Option.some.inj (hs.config.symm.trans hi)
          exact hzero
      rw [hkept, balanced_iff_net, hc.effect.token, hc.effect.escrow, Escrow.net_apply, hnet]
      omega
  | outside h =>
      obtain rfl := Option.some.inj (hs.config.symm.trans hs'.config)
      refine iff_of_true ?_ fun _ _ _ ha => by cases ha
      rw [balanced_iff_net, ← hnet]
      unfold Escrow.net escrowOf
      rw [show _ = _ from hquiet _ info rfl hs.config]

/-- **The books balance exactly when nothing of a payout goes to the contract itself.**  Where nobody sends
the contract the token, the balance is what it was funded with and what was deposited, less the withdrawn
amount, the clawbacks and the refund, at every state of a run, if and only if no step of the run keeps a
part of what it pays the recipient. -/
theorem books_of_run (hborn : Born here args m₀) :
    (Run (fun m a m' => (Step here m a m' ∧ NoInflow here m a) ∧ KeepsNothing here m a) m₀ as m →
      Holds (Balanced here m₀) m) ∧
    (Run (fun m a m' => (Step here m a m' ∧ NoInflow here m a) ∧ Holds (Balanced here m₀) m') m₀ as m ↔
      Run (fun m a m' => (Step here m a m' ∧ NoInflow here m a) ∧ KeepsNothing here m a) m₀ as m) := by
  obtain ⟨env, -, hc⟩ := hborn.created
  -- a new stream has withdrawn and transferred nothing
  have hnew : Balanced here m₀ (initialInfo args) m₀ := by
    show (m₀.state.tokens.balance args.token here).val = (m₀.state.tokens.balance args.token here).val +
      total args.token .deposit m₀.state.transfers - 0 - total args.token .clawback m₀.state.transfers -
      total args.token .refund m₀.state.transfers
    rw [hc.transfers, total_nil, total_nil, total_nil]
    omega
  have hsub : ∀ m a m', Step here m a m' ∧ NoInflow here m a → Step here m a m' := fun _ _ _ h => h.1
  exact Sound.keeps (P := Balanced here m₀) hsub
    (fun _ _ _ _ _ hstep hs hs' => balanced_of_step hstep hs hs') (sound_of_born hborn) hnew

theorem Sample.booked_next {t : U64} {c : Call} (hclock : m.clock.val ≤ t.val)
    (h : (exec (envAt t) m.state c).isOk = true)
    (haway : ∀ info ∈ m.state.store.config, ∀ x ∈ payees m.state info, x ≠ address) :
    BookedStep address m (.call (envAt t) c) (next m t c) :=
  ⟨step_next hclock h, fun _ _ info _ _ hi => haway info hi, fun _ _ ha => by cases ha⟩

/-- The sample stream after a withdrawal. -/
def Sample.booked : Moment := next (born Sample.args) (.lit 300) (.withdraw (.lit 500))

theorem books_of_run_booked :
    Holds (Balanced Sample.address (Sample.born Sample.args)) Sample.booked := by
  have hborn : Born Sample.address Sample.args (Sample.born Sample.args) :=
    Sample.born_of_initialize (by decide +kernel)
  obtain ⟨hstep, haway, hquiet⟩ : BookedStep Sample.address (Sample.born Sample.args)
      (.call (Sample.envAt (.lit 300)) (.withdraw (.lit 500))) Sample.booked :=
    Sample.booked_next (by decide +kernel) (by decide +kernel) (by decide +kernel)
  exact (books_of_run hborn).1 ((Run.nil _).snoc ⟨⟨hstep, hquiet⟩, haway.keepsNothing⟩)

/-- A stream whose recipient forwards the payouts to the stream itself. -/
def Sample.forwardedCalls : List (U64 × Call) :=
  [(.lit 200, .setAutoForwardAddress address), (.lit 200, .withdraw (.lit 500))]

/-- Five hundred tokens count as withdrawn; the contract still holds all ten thousand. -/
theorem selfForward_breaks_books :
    Born Sample.address Sample.args (Sample.born Sample.args) ∧
      Run (Step Sample.address) (Sample.born Sample.args) (Sample.actions Sample.forwardedCalls)
        (Sample.reached Sample.args Sample.forwardedCalls) ∧
      (∀ tokens, .outside tokens ∉ Sample.actions Sample.forwardedCalls) ∧
      ∃ info, (Sample.reached Sample.args Sample.forwardedCalls).state.store.config = some info ∧
        ((Sample.reached Sample.args Sample.forwardedCalls).state.tokens.balance info.token
          Sample.address).val ≠
        ((Sample.born Sample.args).state.tokens.balance info.token Sample.address).val
          + total info.token .deposit
            (Sample.reached Sample.args Sample.forwardedCalls).state.transfers
          - info.withdrawn.val
          - total info.token .clawback
            (Sample.reached Sample.args Sample.forwardedCalls).state.transfers
          - total info.token .refund
            (Sample.reached Sample.args Sample.forwardedCalls).state.transfers :=
  ⟨Sample.born_of_initialize (by decide +kernel), Sample.run_reached (by decide +kernel),
    fun tokens => by simp [Sample.actions, Sample.forwardedCalls],
    Sample.infoOf (Sample.reached Sample.args Sample.forwardedCalls).state, by decide +kernel,
    by decide +kernel⟩

end Drip.Stream
