import Drip.Stream.Footprint

/-!
# Stream — Parties

Who a stream is between.  `initialize` refuses a zero recipient and one that is the sender, and
`set_split_recipient` refuses a secondary recipient that is zero, the sender or the recipient.
`transfer_recipient` refuses only the zero address and the present recipient, so it can make the
recipient the sender, or the address that already receives the split.

* `parties_of_step`: a step keeps the parties distinct exactly when its `transfer_recipient` does.
* `parties_of_run`: the same along runs.
-/

namespace Drip.Stream
open Chain

variable {env : Env} {here : Address} {args : InitArgs} {m m' m₀ : Moment} {a : Action}
variable {as : List Action} {s s' : State} {info info' : StreamInfo} {c : Call}

/-- The recipient is a third address beside zero and the sender, and so is the address the split
goes to, which is not the recipient either. -/
structure Parties (s : State) (info : StreamInfo) : Prop where
  recipient_nonzero : isZeroAddress info.recipient = false
  recipient_ne : info.recipient ≠ info.sender
  split : ∀ sc ∈ s.store.splitConfig,
    0 < sc.splitBps.val ∧ sc.splitBps.val < 10000 ∧ isZeroAddress sc.secondaryRecipient = false ∧
      sc.secondaryRecipient ≠ info.sender ∧ sc.secondaryRecipient ≠ info.recipient

/-- A `transfer_recipient` goes neither to the sender nor to the address of the split. -/
def KeepsParties (m : Moment) (a : Action) : Prop :=
  ∀ env r info, a = .call env (.transferRecipient r) → m.state.store.config = some info →
    r ≠ info.sender ∧ ∀ sc ∈ m.state.store.splitConfig, r ≠ sc.secondaryRecipient

/-! ### Steps -/

/-- The calls that rewrite the recipient or the split. -/
def Call.IsParty : Call → Bool
  | .initializeStream _ | .transferRecipient _ | .setSplitRecipient ..
  | .removeSplitRecipient _ => true
  | _ => false

theorem Wrote.parties (h : Wrote env c s info s' info') (hc : c.IsParty = false) :
    info'.recipient = info.recipient ∧ info'.sender = info.sender ∧
      s'.store.splitConfig = s.store.splitConfig := by
  rw [h.rewrite, h.write]
  cases c <;> first | exact ⟨rfl, rfl, rfl⟩ | cases hc

theorem parties_of_exec (hi : s.store.config = some info) (hp : Parties s info)
    (h : exec env s c = .ok s') (hi' : s'.store.config = some info') :
    Parties s' info' ↔ ∀ r, c = .transferRecipient r →
      r ≠ info.sender ∧ ∀ sc ∈ s.store.splitConfig, r ≠ sc.secondaryRecipient := by
  cases hc : c.IsParty with
  | false =>
      obtain ⟨info₁, hw⟩ := wrote_of_exec hi h
      obtain rfl := Option.some.inj (hw.config.symm.trans hi')
      obtain ⟨hr, hs, hsc⟩ := hw.parties hc
      refine ⟨fun _ r hr => ?_, fun _ => ⟨?_, ?_, ?_⟩⟩
      · subst hr
        cases hc
      · rw [hr]; exact hp.recipient_nonzero
      · rw [hr, hs]; exact hp.recipient_ne
      · rw [hr, hs, hsc]; exact hp.split
  | true =>
      cases c with
      | initializeStream args => simp [exec, initializeStream, initializeReading, hi] at h
      | transferRecipient r =>
          simp [exec, transferRecipient, transferRecipientBody, publish_eq_ok, hi] at h
          obtain ⟨-, n, ⟨-, -, ⟨hz, -⟩, -⟩, rfl⟩ := h
          obtain rfl := Option.some.inj hi'
          constructor
          · rintro hp' _ ⟨⟩
            exact ⟨hp'.recipient_ne, fun sc hsc => ((hp'.split sc hsc).2.2.2.2).symm⟩
          · intro hk
            obtain ⟨hne, hsplit⟩ := hk r rfl
            refine ⟨hz, hne, fun sc hsc => ?_⟩
            obtain ⟨h₁, h₂, h₃, h₄, -⟩ := hp.split sc hsc
            exact ⟨h₁, h₂, h₃, h₄, (hsplit sc hsc).symm⟩
      | setSplitRecipient caller secondary bps =>
          simp [exec, setSplitRecipient, setSplitRecipientBody, publish_eq_ok, hi] at h
          obtain ⟨-, n, ⟨-, -, ⟨hpos, hbps⟩, ⟨hz, hns, hnr⟩, -⟩, rfl⟩ := h
          obtain rfl := Option.some.inj hi'
          refine ⟨fun _ r hr => (by cases hr), fun _ => ⟨hp.recipient_nonzero, hp.recipient_ne, ?_⟩⟩
          rintro sc ⟨⟩
          have := bps.ge
          exact ⟨by show 0 < bps.val; omega, hbps, hz, hns, hnr⟩
      | removeSplitRecipient caller =>
          simp [exec, removeSplitRecipient, removeSplitRecipientBody, publish_eq_ok, hi] at h
          obtain ⟨-, n, -, rfl⟩ := h
          obtain rfl := Option.some.inj hi'
          refine ⟨fun _ r hr => (by cases hr), fun _ => ⟨hp.recipient_nonzero, hp.recipient_ne, ?_⟩⟩
          intro sc hsc
          cases hsc
      | _ => cases hc

theorem parties_of_step (hi : m.state.store.config = some info) (hp : Parties m.state info)
    (hstep : Step here m a m') (hi' : m'.state.store.config = some info') :
    Parties m'.state info' ↔ KeepsParties m a := by
  cases hstep with
  | call henv hclock h =>
      refine (parties_of_exec hi hp h hi').trans ⟨?_, ?_⟩
      · rintro hk env r info₁ ⟨⟩ hi₁
        obtain rfl := Option.some.inj (hi.symm.trans hi₁)
        exact hk r rfl
      · rintro hk r rfl
        exact hk _ r info rfl hi
  | outside h =>
      obtain rfl := Option.some.inj (hi.symm.trans hi')
      refine ⟨fun _ env r info₁ ha => (by cases ha), fun _ => ?_⟩
      exact ⟨hp.recipient_nonzero, hp.recipient_ne, hp.split⟩

/-! ### Runs -/

theorem parties_of_born (h : Born here args m) : Parties m.state (initialInfo args) := by
  obtain ⟨env, -, hc⟩ := h.created
  obtain ⟨env, tokens, s₀, -, -, h₀, -⟩ := h
  simp [initializeStream, initializeReading, State.fresh, publish_eq_ok] at h₀
  obtain ⟨-, -, ⟨hz, hne⟩, -⟩ := h₀
  refine ⟨hz, hne, fun sc hsc => ?_⟩
  rw [hc.splitConfig] at hsc
  cases hsc

/-- **The parties stay distinct exactly in the runs whose `transfer_recipient`s keep them so.**  The
first part is the invariant; the second says that no other run has it at every state. -/
theorem parties_of_run (hborn : Born here args m₀) :
    (Run (fun m a m' => Step here m a m' ∧ KeepsParties m a) m₀ as m →
      Holds (fun info m => Parties m.state info) m) ∧
    (Run (fun m a m' => Step here m a m' ∧ Holds (fun info m => Parties m.state info) m') m₀ as m ↔
      Run (fun m a m' => Step here m a m' ∧ KeepsParties m a) m₀ as m) := by
  refine Sound.keeps (fun _ _ _ h => h) ?_ (sound_of_born hborn) (parties_of_born hborn)
  intro m₁ a m₂ info info' hstep hs hs' hp
  exact parties_of_step hs.config hp hstep hs'.config

/-- The sample stream handed on to a third address. -/
def Sample.handedOn : Moment := next (born Sample.args) (.lit 300) (.transferRecipient (.account 3))

theorem parties_of_run_handedOn : Holds (fun info m => Parties m.state info) Sample.handedOn := by
  have hborn : Born Sample.address Sample.args (Sample.born Sample.args) :=
    Sample.born_of_initialize (by decide +kernel)
  have hstep : Step Sample.address (Sample.born Sample.args)
      (.call (Sample.envAt (.lit 300)) (.transferRecipient (.account 3))) Sample.handedOn :=
    Sample.step_next (by decide +kernel) (by decide +kernel)
  have hkeeps : KeepsParties (Sample.born Sample.args)
      (.call (Sample.envAt (.lit 300)) (.transferRecipient (.account 3))) := by
    rintro _ r info ⟨⟩ hi
    have hconfig : (Sample.born Sample.args).state.store.config = some (initialInfo Sample.args) := by
      decide +kernel
    have hsplit : (Sample.born Sample.args).state.store.splitConfig = none := by decide +kernel
    obtain rfl := Option.some.inj (hconfig.symm.trans hi)
    refine ⟨by decide, fun sc hsc => ?_⟩
    rw [hsplit] at hsc
    cases hsc
  exact (parties_of_run hborn).1 ((Run.nil _).snoc ⟨hstep, hkeeps⟩)

/-- The recipient may hand the stream to its sender, or to the address of the split. -/
theorem transferRecipient_merges_parties :
    (∃ m info, Reachable Sample.address m ∧ m.state.store.config = some info ∧
      info.recipient = info.sender) ∧
    ∃ m info sc, Reachable Sample.address m ∧ m.state.store.config = some info ∧
      m.state.store.splitConfig = some sc ∧ sc.secondaryRecipient = info.recipient := by
  refine ⟨⟨Sample.reached Sample.args [(.lit 300, .transferRecipient Sample.sender)], _,
    Sample.reachable_reached (by decide +kernel) (by decide +kernel), rfl, by decide +kernel⟩, ?_⟩
  exact ⟨Sample.reached Sample.args
    [(.lit 200, .setSplitRecipient Sample.sender (.account 3) (.lit 2500)),
      (.lit 300, .transferRecipient (.account 3))], _, _,
    Sample.reachable_reached (by decide +kernel) (by decide +kernel), rfl, rfl, by decide +kernel⟩

end Drip.Stream
