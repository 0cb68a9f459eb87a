import Drip.Stream.Authority
import Drip.Stream.Settlement
import Drip.Stream.Solvency

/-!
# Stream — Silence

A stream whose sender and operator sign nothing.  Whatever everybody else does, nothing of its schedule
changes, and it gives its tokens to nobody but its recipient.

* `Call.IsManagers`: the calls of the sender and the operator.
* `Escrow.held_le_apply`: the operations that take nothing but payouts.
* `Left here info₀ s₀ info s`: managers, token and schedule are as in `s₀`, and the stream is cancelled or
  holds, with what it paid, no less.
* `left_along`: so it stays in a run in which its managers sign nothing.
-/

namespace Drip.Stream
open Chain

variable {here : Address} {m m₀ : Moment} {as : List Action}

/-- Nobody in `q` has signed the step. -/
def Action.Unsigned (q : Address → Prop) : Action → Prop
  | .call env _ => ∀ a, q a → env.authorized a ≠ true
  | .outside _ => True

/-! ### What the escrow keeps -/

/-- The operations that take nothing but payouts from the escrow. -/
def Op.Leaves : Op → Prop
  | .withdraw .. | .adjust .. => True
  | .settle _ | .clawback => False

theorem Escrow.held_le_apply {e : Escrow} {max now : Int} {op : Op} (ha : e.Allows max now op)
    (hop : op.Leaves) :
    e.balance + e.withdrawn ≤ (e.apply now op).balance + (e.apply now op).withdrawn := by
  cases op with
  | withdraw amount kept =>
      obtain ⟨-, -, hkept, -⟩ := ha
      show _ ≤ e.balance - e.payout now amount + kept + (e.withdrawn + e.payout now amount)
      omega
  | adjust deposit m =>
      obtain ⟨hdeposit, -⟩ := ha
      show _ ≤ e.balance + deposit + e.withdrawn
      omega
  | settle | clawback => exact hop.elim

/-- What is solvent stays so as long as the schedule stays and nothing but payouts is taken. -/
theorem Escrow.Solvent.held {e e₀ : Escrow} (h : e₀.Solvent) (hschedule : e.schedule = e₀.schedule)
    (hheld : e₀.balance + e₀.withdrawn ≤ e.balance + e.withdrawn) : e.Solvent where
  bounded := by rw [hschedule]; exact h.bounded
  no_checkpoint := by rw [hschedule]; exact h.no_checkpoint
  no_cliff := by rw [hschedule]; exact h.no_cliff
  covered := by rw [hschedule]; exact h.covered.trans hheld

/-! ### Who signs -/

variable {env : Env} {s s' : State} {info info' : StreamInfo} {c : Call} {kept : Int}
variable {info₀ : StreamInfo} {s₀ : State}

/-- The sender, and the operator. -/
def Manages (info : StreamInfo) (s : State) (a : Address) : Prop :=
  a = info.sender ∨ s.store.operator = some a

/-- The calls of the sender and the operator that change the schedule, or take from the escrow. -/
def Call.IsManagers : Call → Bool
  | .cancel _ | .clawback _ | .extendDuration .. | .topUpAndExtend .. | .pause _ | .resume _
  | .changeRate .. | .setCliff .. => true
  | _ => false

theorem manager_of_exec (hi : s.store.config = some info) (hc : c.IsManagers = true)
    (h : exec env s c = .ok s') :
    ∃ caller, Manages info s caller ∧ env.authorized caller = true := by
  cases c with
  | cancel caller =>
      simp [exec, cancel, cancelBody, hi] at h
      obtain ⟨-, _, _, ⟨-, -, hm, -⟩, -⟩ := h
      exact ⟨caller, hm⟩
  | clawback caller =>
      simp [exec, clawback, clawbackBody, hi] at h
      obtain ⟨-, _, ⟨-, -, -, hm, -⟩, -⟩ := h
      exact ⟨caller, hm⟩
  | extendDuration caller extra =>
      simp [exec, extendDuration, extendDurationBody, hi] at h
      obtain ⟨-, _, ⟨-, -, hm, -⟩, -⟩ := h
      exact ⟨caller, hm⟩
  | topUpAndExtend caller amount extra =>
      simp only [exec, after_eq_ok, topUpAndExtend, withGuard_eq_ok, topUpAndExtendBody, bind_eq_ok,
        reject_eq_ok, load_eq_ok, locked_config, hi, Option.some.injEq, assertNotCancelled_eq_ok,
        requireSenderOrOperator_eq_ok] at h
      obtain ⟨-, -, s₁, ⟨-, -, -, -, _, rfl, -, hm, -⟩, -⟩ := h
      exact ⟨caller, hm⟩
  | pause caller =>
      simp [exec, pause, pauseBody, hi] at h
      obtain ⟨-, _, ⟨-, -, hm, -⟩, -⟩ := h
      exact ⟨caller, hm⟩
  | resume caller =>
      simp [exec, resume, resumeBody, hi] at h
      obtain ⟨-, _, ⟨-, -, hm, -⟩, -⟩ := h
      exact ⟨caller, hm⟩
  | changeRate caller rate =>
      simp [exec, changeRate, changeRateBody, hi] at h
      obtain ⟨-, _, ⟨-, -, hm, -⟩, -⟩ := h
      exact ⟨caller, hm⟩
  | setCliff caller time amount =>
      simp [exec, setCliff, setCliffBody, hi] at h
      obtain ⟨-, _, ⟨-, hm, -⟩, -⟩ := h
      exact ⟨caller, hm⟩
  | _ => cases hc

/-- The operator is appointed and dismissed by the sender. -/
theorem operator_of_exec (hi : s.store.config = some info) (h : exec env s c = .ok s') :
    s'.store.operator = s.store.operator ∨ env.authorized info.sender = true := by
  obtain ⟨info', hw⟩ := wrote_of_exec hi h
  cases c with
  | initializeStream args => simp [exec, initializeStream, initializeReading, hi] at h
  | setOperator caller operator =>
      simp [exec, setOperator, hi] at h
      obtain ⟨rfl, ha⟩ := h.1.2
      exact .inr ha
  | revokeOperator caller =>
      simp [exec, revokeOperator, hi] at h
      obtain ⟨rfl, ha⟩ := h.1.2
      exact .inr ha
  | _ =>
      rw [hw.write]
      exact .inl rfl

/-- The others move no schedule. -/
theorem move_of_others (hc : c.IsManagers = false) : c.move = .idle := by
  cases c with
  | cancel | clawback | extendDuration | topUpAndExtend | pause | resume | changeRate | setCliff => cases hc
  | _ => rfl

/-- And they take nothing but payouts, but for the recipient's cancellation. -/
theorem leaves_of_others (hc : c.IsManagers = false) (hforce : c ≠ .forceCancel) (rate kept : Int) :
    (c.op rate kept).Leaves := by
  cases c with
  | cancel | clawback | extendDuration | topUpAndExtend | pause | resume | changeRate | setCliff => cases hc
  | forceCancel => exact absurd rfl hforce
  | _ => trivial

theorem cancelled_of_forceCancel (hi : s.store.config = some info)
    (hi' : s'.store.config = some info') (h : exec env s .forceCancel = .ok s') : info'.isCancelled = true := by
  obtain ⟨info₁, hw⟩ := wrote_of_exec hi h
  obtain rfl : info₁ = info' := Option.some.inj (hw.config.symm.trans hi')
  rw [hw.rewrite]
  exact info.isCancelled_markCancelled

/-! ### Streams left alone by their managers -/

/-- Managers, token and schedule are as they were, and the stream is settled or holds, with what it paid, no
less than it did. -/
structure Left (here : Address) (info₀ : StreamInfo) (s₀ : State) (info : StreamInfo) (s : State) : Prop where
  sender : info.sender = info₀.sender
  operator : s.store.operator = s₀.store.operator
  token : info.token = info₀.token
  schedule : scheduleOf info s.store = scheduleOf info₀ s₀.store
  held : info.isCancelled = true ∨ (s₀.tokens.balance info₀.token here).val + info₀.withdrawn.val ≤
    (s.tokens.balance info.token here).val + info.withdrawn.val

theorem Left.refl (here : Address) (info : StreamInfo) (s : State) : Left here info s info s :=
  ⟨rfl, rfl, rfl, rfl, .inr le_rfl⟩

/-- A solvent stream that is left stays solvent until it is cancelled. -/
theorem Left.solvent (hl : Left here info₀ s₀ info s) (h₀ : (escrowOf here info₀ s₀).Solvent)
    (hopen : info.isCancelled = false) : (escrowOf here info s).Solvent :=
  h₀.held hl.schedule (hl.held.resolve_left (Bool.eq_false_iff.mp hopen))

theorem Left.manages {a : Address} (hl : Left here info₀ s₀ info s) (ha : Manages info s a) :
    Manages info₀ s₀ a := by
  unfold Manages at ha ⊢
  rw [← hl.sender, ← hl.operator]
  exact ha

/-- A call that succeeded unsigned by the managers is not one of theirs. -/
theorem others_of_unsigned (hl : Left here info₀ s₀ info s) (hi : s.store.config = some info)
    (h : exec env s c = .ok s') (hq : ∀ a, Manages info₀ s₀ a → env.authorized a ≠ true) :
    c.IsManagers = false := by
  cases hc : c.IsManagers with
  | false => rfl
  | true =>
      obtain ⟨caller, hmanages, hsigned⟩ := manager_of_exec hi hc h
      exact absurd hsigned (hq caller (hl.manages hmanages))

theorem left_of_called (hc : Called here m info env c s' info' kept) (h : exec env m.state c = .ok s')
    (hq : ∀ a, Manages info₀ s₀ a → env.authorized a ≠ true) (hl : Left here info₀ s₀ info m.state) :
    Left here info₀ s₀ info' s' := by
  have hi := hc.before.config
  have hi' := hc.effect.sound.config
  have hothers := others_of_unsigned hl hi h hq
  refine ⟨hc.effect.sender.trans hl.sender, ?_, hc.effect.token.trans hl.token, ?_, ?_⟩
  · rcases operator_of_exec hi h with hsame | hsigned
    · exact hsame.trans hl.operator
    · exact absurd hsigned (hq _ (.inl hl.sender))
  · rw [hc.effect.schedule, move_of_others hothers]
    exact hl.schedule
  · rcases hl.held with hcancelled | hheld
    · obtain ⟨n, hn⟩ := (closed_of_exec hc.before hcancelled h).config
      obtain rfl := Option.some.inj (hi'.symm.trans hn)
      exact .inl hcancelled
    · by_cases hforce : c = .forceCancel
      · subst hforce
        exact .inl (cancelled_of_forceCancel hi hi' h)
      · have henv := hc.contract
        subst henv
        have hle := Escrow.held_le_apply hc.effect.allows (leaves_of_others hothers hforce _ _)
        rw [← hc.effect.escrow] at hle
        exact .inr (hheld.trans hle)

/-- **Silence does no harm**: nobody but its managers changes the schedule of a stream, or takes from it what
it does not owe. -/
theorem left_along (hs : Sound here m₀.state info₀ m₀.clock.val)
    (h : Run (fun m a m' => Step here m a m' ∧ a.Unsigned (Manages info₀ m₀.state)) m₀ as m) :
    ∃ info, Sound here m.state info m.clock.val ∧ Left here info₀ m₀.state info m.state := by
  refine Sound.along (P := fun info m => Left here info₀ m₀.state info m.state) And.left ?_ ?_ h hs
    (.refl _ _ _)
  · rintro m info env c s' info' kept - ⟨hstep, hunsigned⟩ hc hl
    cases hstep with
    | call _ _ h => exact left_of_called hc h hunsigned hl
  · rintro m info tokens - h - hl
    refine { hl with held := hl.held.imp_right fun hheld => hheld.trans ?_ }
    exact add_le_add_left (h info.token) _

end Drip.Stream
