import Drip.Stream.Runs

/-!
# Stream — Settlement

`cancel` and `force_cancel` empty the contract and are final.

* `settlement_of_exec`: what a settlement transfers, to whom, and what it adds to `withdrawn`.
* `closed_of_step` and `closed_of_run`: a cancelled stream moves its token no more, and only the
  event counter of its config still changes.
* `settlement_exact_and_final` joins the two.
-/

namespace Drip.Stream

variable {env : Env} {here : Address} {m m' : Moment} {a : Action} {as : List Action}
variable {s s' : State} {info info' : StreamInfo} {c : Call}

/-! ### The transfers of a settlement -/

/-- The calls that settle the escrow. -/
def Call.IsSettlement : Call → Bool
  | .cancel _ | .forceCancel => true
  | _ => false

/-- The transfers `ts` to the recipient side and `us` to the sender that settle a stream which has
earned `earned`. -/
structure Settled (here : Address) (s : State) (info : StreamInfo) (earned : Int)
    (ts us : List Transfer) : Prop where
  /-- every transfer is of the stream token, out of the contract -/
  outgoing : ∀ t ∈ ts ++ us, t.token = info.token ∧ t.src = here
  /-- together they are the whole balance -/
  whole : sent (ts ++ us) = (s.tokens.balance info.token here).val
  share : sent ts = min (max (earned - info.withdrawn.val) 0) (s.tokens.balance info.token here).val
  payees : ∀ t ∈ ts, t.dst ∈ payees s info
  refund : sent us = (s.tokens.balance info.token here).val - sent ts
  sender : ∀ t ∈ us, t.dst = info.sender

theorem settle_of_exec (hc : c.IsSettlement = true) (hi : s.store.config = some info)
    (h : exec env s c = .ok s') : ∃ event s₁ u,
      settle env info event s.locked = .ok (u, s₁) ∧ s' = s₁.released := by
  cases c with
  | cancel caller =>
      obtain ⟨-, -, s₁, u, hset, rfl⟩ := settle_of_cancel hi h
      exact ⟨_, s₁, u, hset, rfl⟩
  | forceCancel =>
      obtain ⟨-, s₁, u, hset, rfl⟩ := settle_of_forceCancel hi h
      exact ⟨_, s₁, u, hset, rfl⟩
  | _ => cases hc

theorem settlement_of_exec {now : Int} (hs : Sound env.contract s info now)
    (hc : c.IsSettlement = true) (h : exec env s c = .ok s') :
    ∃ v ts us w n, streamedAmount env s info = .ok v ∧ s'.transfers = s.transfers ++ (ts ++ us) ∧
      Settled env.contract s info v.val ts us ∧ w.val = info.withdrawn.val + sent ts ∧
      s'.store.config = some { info.markCancelled with withdrawn := w, eventSequence := n } := by
  obtain ⟨event, s₁, u, hset, rfl⟩ := settle_of_exec hc hs.config h
  obtain ⟨v, w, n, ts, us, hv, hw, hconf, -, hpaid, hpo, hre⟩ := settle_spec hset hs.split_le
  refine ⟨v, ts, us, w, n, hv, hpaid.transfers, ?_, hw, hconf⟩
  refine ⟨fun t ht => ⟨(hpaid.outgoing t ht).1, (hpaid.outgoing t ht).2.1⟩, ?_, hpo.sent, hpo.payee,
    hre.sent, hre.payee⟩
  have hre : sent us = (s.tokens.balance info.token env.contract).val - sent ts := hre.sent
  rw [sent_append, hre]
  omega

/-! ### Nothing moves afterwards -/

/-- From `s` to `s'` the stream token was not transferred, and the config changed at most in its
event counter. -/
structure Closed (info : StreamInfo) (s s' : State) : Prop where
  config : ∃ n, s'.store.config = some { info with eventSequence := n }
  transfers : ∃ ts, s'.transfers = s.transfers ++ ts ∧ ∀ t ∈ ts, t.token ≠ info.token

theorem closed_of_exec {now : Int} (hs : Sound here s info now) (hx : info.isCancelled = true)
    (h : exec env s c = .ok s') : Closed info s s' := by
  cases hc : c.OutlivesCancellation with
  | false =>
      rw [not_cancelled_of_exec hs.config hc h] at hx
      cases hx
  | true =>
      cases c with
      | withdrawKeeperRewardPool caller amount =>
          have hp := pooled_of_exec hs rfl h
          obtain ⟨ts, hts, hall⟩ := hp.transfers
          exact ⟨hp.config, ts, hts, fun t ht => (hall t ht).2⟩
      | isEmergencyPaused | emergencyPause | emergencyUnpause =>
          have hn := noted_of_emergency rfl h
          refine ⟨hn.config hs.config, [], ?_, fun t ht => absurd ht List.not_mem_nil⟩
          rw [hn.transfers, List.append_nil]
      | _ => cases hc

theorem closed_of_step (hs : Sound here m.state info m.clock.val) (hx : info.isCancelled = true)
    (h : Step here m a m') : Closed info m.state m'.state := by
  cases h with
  | call henv hclock h => exact closed_of_exec hs hx h
  | outside h =>
      exact ⟨⟨info.eventSequence, hs.config⟩, [], (List.append_nil _).symm,
        fun t ht => absurd ht List.not_mem_nil⟩

theorem Closed.trans {s₁ : State} {n : U64} (h : Closed info s s₁)
    (h' : Closed { info with eventSequence := n } s₁ s') : Closed info s s' := by
  obtain ⟨ts, hts, hall⟩ := h.transfers
  obtain ⟨us, hus, hall'⟩ := h'.transfers
  refine ⟨h'.config, ts ++ us, by rw [hus, hts, List.append_assoc], fun t ht => ?_⟩
  rcases List.mem_append.mp ht with ht | ht
  · exact hall t ht
  · exact hall' t ht

theorem closed_of_run (hs : Sound here m.state info m.clock.val) (hx : info.isCancelled = true)
    (h : Run (Step here) m as m') : Closed info m.state m'.state := by
  induction h with
  | nil =>
      exact ⟨⟨info.eventSequence, hs.config⟩, [], (List.append_nil _).symm,
        fun t ht => absurd ht List.not_mem_nil⟩
  | snoc hrun ha ih =>
      obtain ⟨n, hn⟩ := ih.config
      obtain ⟨info₁, hs₁, -, -⟩ := hs.run hrun
      obtain rfl := Option.some.inj (hs₁.config.symm.trans hn)
      exact ih.trans (closed_of_step hs₁ hx ha)

/-- **Cancellation settles exactly and is final.**  From any reachable state, a successful `cancel`
or `force_cancel` transfers the whole balance: to the recipient side what is earned and unpaid, up
to the balance, by which `withdrawn` grows, and to the sender the rest.  Whatever is called
afterwards, the stream token is not transferred again and the config stays as it is but for its
event counter. -/
theorem settlement_exact_and_final (hr : Reachable here m) (hi : m.state.store.config = some info)
    (henv : env.contract = here) (hclock : m.clock.val ≤ env.timestamp.val)
    (hc : c.IsSettlement = true) (h : exec env m.state c = .ok s') :
    ∃ v ts us info', streamedAmount env m.state info = .ok v ∧
      s'.transfers = m.state.transfers ++ (ts ++ us) ∧
      Settled here m.state info v.val ts us ∧
      s'.store.config = some info' ∧ info'.isCancelled = true ∧
      info'.withdrawn.val = info.withdrawn.val + sent ts ∧
      ∀ as m', Run (Step here) ⟨s', env.timestamp⟩ as m' → Closed info' s' m'.state := by
  subst henv
  obtain ⟨info₁, hs⟩ := sound_of_reachable hr
  obtain rfl : info₁ = info := Option.some.inj (hs.config.symm.trans hi)
  have hs := hs.wait hclock
  obtain ⟨v, ts, us, w, n, hv, htr, hset, hw, hconf⟩ := settlement_of_exec hs hc h
  refine ⟨v, ts, us, _, hv, htr, hset, hconf, info₁.isCancelled_markCancelled, hw, ?_⟩
  intro as m' hrun
  obtain ⟨info', kept, he⟩ := effect_of_exec hs h
  obtain rfl := Option.some.inj (he.sound.config.symm.trans hconf)
  have hs' : Sound env.contract (Moment.mk s' env.timestamp).state _
    (Moment.mk s' env.timestamp).clock.val := he.sound
  exact closed_of_run hs' info₁.isCancelled_markCancelled hrun

/-- A stream with a split that has paid 300. -/
def Sample.split : Moment := reached Sample.args
  [(.lit 500, .setSplitRecipient sender (.account 3) (.lit 2500)), (.lit 600, .withdraw (.lit 300))]

/-- Its cancellation at 700. -/
def Sample.closing : Moment := next split (.lit 700) (.cancel sender)

theorem settlement_exact_and_final_split :
    ∃ v ts us info', streamedAmount (Sample.envAt (.lit 700)) Sample.split.state
        (Sample.infoOf Sample.split.state) = .ok v ∧
      Sample.closing.state.transfers = Sample.split.state.transfers ++ (ts ++ us) ∧
      Settled Sample.address Sample.split.state (Sample.infoOf Sample.split.state) v.val ts us ∧
      Sample.closing.state.store.config = some info' ∧ info'.isCancelled = true ∧
      info'.withdrawn.val = (Sample.infoOf Sample.split.state).withdrawn.val + sent ts ∧
      ∀ as m', Run (Step Sample.address) ⟨Sample.closing.state, .lit 700⟩ as m' →
        Closed info' Sample.closing.state m'.state :=
  settlement_exact_and_final (Sample.reachable_reached (by decide +kernel) (by decide +kernel))
    (by decide +kernel) rfl (by decide +kernel) (c := .cancel Sample.sender) rfl
    (Sample.exec_next (by decide +kernel))

end Drip.Stream
