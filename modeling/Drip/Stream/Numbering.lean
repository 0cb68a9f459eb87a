import Drip.Stream.Footprint
import Drip.Stream.Earned

/-!
# Stream — Numbering

The event counter lives in the config, which every entry point loads, changes and saves whole.  The
numbering has no gap and no repetition, and no save of a copy loaded earlier undoes anything.

* `gapless_of_run`: the log of every run is numbered 1, 2, 3, …, and the counter is its length.
* `natural_of_run`: none of its events has a negative amount.
* `computes_of_effect`: the fields of the config that a call computes.
* `events_gapless` joins the two with `wrote_of_exec`.
-/

namespace Drip.Stream
open Chain

variable {env : Env} {here : Address} {args : InitArgs} {m m₀ : Moment} {as : List Action}
variable {s s' : State} {info info' : StreamInfo} {c : Call} {kept : Int}

/-- `event_sequence`. -/
def eventSequence (s : State) : Result U64 := do
  let info ← load s
  return info.eventSequence

/-! ### The log of a run -/

/-- The events are numbered from one on. -/
def Gapless (es : List Published) : Prop := ∀ k (h : k < es.length), es[k].sequence.val = k + 1

theorem Logged.gapless {n n' : U64} {es es' : List Published} (h : Logged n es n' es')
    (hn : n.val = es.length) (hg : Gapless es) : n'.val = es'.length ∧ Gapless es' := by
  obtain ⟨new, rfl, hlen, hnum⟩ := h
  refine ⟨?_, fun k hk => ?_⟩
  · rw [List.length_append]
    push_cast
    omega
  · by_cases hlt : k < es.length
    · rw [List.getElem_append_left hlt]
      exact hg k hlt
    · rw [List.length_append] at hk
      rw [List.getElem_append_right (by omega), hnum _ (by omega)]
      omega

theorem events_of_born (h : Born here args m) : ∃ e, m.state.events = [⟨.lit 1, e⟩] := by
  obtain ⟨env, tokens, s₀, -, -, h₀, hm⟩ := h
  simp [initializeStream, initializeReading, State.fresh, publish_eq_ok] at h₀
  obtain ⟨-, -, -, -, -, -, -, d, -, -, -, n, hn, rfl⟩ := h₀
  obtain rfl : n = .lit 1 := Ranged.ext hn
  rw [hm]
  exact ⟨_, rfl⟩

theorem natural_of_born (h : Born here args m) : Natural m.state.events := by
  obtain ⟨env, tokens, s₀, -, -, h₀, hm⟩ := h
  simp [initializeStream, initializeReading, State.fresh, publish_eq_ok] at h₀
  obtain ⟨-, -, -, -, -, -, -, d, -, -, hamounts, n, -, rfl⟩ := h₀
  rw [hm]
  exact List.forall_mem_singleton.mpr hamounts

/-- No event of a run has a negative amount. -/
theorem natural_of_run (hborn : Born here args m₀) (hrun : Run (Step here) m₀ as m) :
    Natural m.state.events := by
  have hinvariant : ∃ info, Sound here m.state info m.clock.val ∧ Natural m.state.events := by
    refine Sound.along (P := fun _ m => Natural m.state.events) id (fun _ hstep hc hP => ?_)
      (fun _ _ _ hP => hP) hrun (sound_of_born hborn) (natural_of_born hborn)
    cases hstep with
    | call henv hclock h =>
        obtain ⟨info₁, hw⟩ := wrote_of_exec hc.before.config h
        exact hw.natural hP
  obtain ⟨info, -, hnatural⟩ := hinvariant
  exact hnatural

theorem gapless_of_run (hborn : Born here args m₀) (hrun : Run (Step here) m₀ as m) :
    ∃ info, Sound here m.state info m.clock.val ∧
      info.eventSequence.val = m.state.events.length ∧ Gapless m.state.events := by
  refine Sound.along (P := fun info m =>
      info.eventSequence.val = m.state.events.length ∧ Gapless m.state.events)
    id (fun _ hstep hc hP => ?_) (fun _ _ _ hP => hP) hrun (sound_of_born hborn) ?_
  · cases hstep with
    | call henv hclock h =>
        obtain ⟨info₁, hw⟩ := wrote_of_exec hc.before.config h
        obtain rfl := Option.some.inj (hc.effect.sound.config.symm.trans hw.config)
        exact hw.logged.gapless hP.1 hP.2
  · obtain ⟨e, he⟩ := events_of_born hborn
    rw [he]
    refine ⟨rfl, fun k hk => ?_⟩
    obtain rfl : k = 0 := Nat.lt_one_iff.mp hk
    rfl

/-! ### The fields a call computes -/

/-- The fields of the config that a call computes from the old ones; `paid` is what it pays out. -/
def Call.Computes (c : Call) (env : Env) (paid : Int) (old new : StreamInfo) : Prop :=
  match c with
  | .withdraw _ | .cancel _ | .forceCancel => new.withdrawn.val = old.withdrawn.val + paid
  | .extendDuration _ extra | .topUpAndExtend _ _ extra =>
      new.endTime.val = old.endTime.val + extra.val
  | .resume _ =>
      new.startTime.val = old.startTime.val + (env.timestamp.val - old.pausedAt.val) ∧
        new.endTime.val = if old.endTime.val = 0 then 0
          else old.endTime.val + (env.timestamp.val - old.pausedAt.val)
  | _ => True

theorem endTime_of_stop {x : Int} {st st' : Storage}
    (h : (scheduleOf info' st').stop = (scheduleOf info st).stop.map (· + x)) :
    info'.endTime.val = if info.endTime.val = 0 then 0 else info.endTime.val + x := by
  change (if info'.endTime.val = 0 then none else some info'.endTime.val) =
    (if info.endTime.val = 0 then none else some info.endTime.val).map (· + x) at h
  split at h
  · split at h
    · rename_i h₁ h₂
      rw [if_pos h₂, h₁]
    · cases h
  · split at h
    · cases h
    · rename_i h₂
      rw [if_neg h₂]
      exact Option.some.inj h

theorem Effect.withdrawn_eq (he : Effect env s info c s' info' kept) :
    info'.withdrawn.val = info.withdrawn.val + (paidOut s' info' - paidOut s info) := by
  have h : ∀ (e : Escrow) (now : Int) (op : Op), (e.apply now op).withdrawn =
      e.withdrawn + ((e.apply now op).totals .payout - e.totals .payout) := by
    intro e now op
    cases op <;> simp [Escrow.apply, book]
  show (escrowOf env.contract info' s').withdrawn = (escrowOf env.contract info s).withdrawn +
    ((escrowOf env.contract info' s').totals .payout - (escrowOf env.contract info s).totals .payout)
  rw [he.escrow]
  exact h _ _ _

theorem computes_of_effect (he : Effect env s info c s' info' kept) :
    c.Computes env (paidOut s' info' - paidOut s info) info info' := by
  have hq := he.schedule
  have ha := he.schedule_allows
  cases c with
  | withdraw | cancel | forceCancel => exact he.withdrawn_eq
  | extendDuration caller extra | topUpAndExtend caller amount extra =>
      have hstop := endTime_of_stop (congrArg Schedule.stop hq)
      obtain ⟨e, hend⟩ := Option.isSome_iff_exists.mp ha.2
      have hpos := (stop_eq_some.mp hend).1
      rwa [if_neg (by omega)] at hstop
  | resume caller =>
      obtain ⟨p, hp, -⟩ := ha
      have hmove : (scheduleOf info s.store).move env.timestamp.val .resume =
          (scheduleOf info s.store).shift p (env.timestamp.val - p) := by
        rw [Schedule.move, hp]
        rfl
      obtain ⟨-, rfl⟩ := pausedAt_eq_some.mp hp
      have hq := hq.trans hmove
      exact ⟨congrArg Schedule.start hq, endTime_of_stop (congrArg Schedule.stop hq)⟩
  | _ => trivial

/-- **The event numbering has no gap.**  In every run, the `k`-th event carries the number `k` and
`event_sequence` answers the number of events published.  A call leaves the config with its own
fields written, by the values it computed, the counter moved past the events it published, and every
other field and key as it was. -/
theorem events_gapless (hborn : Born here args m₀) (hrun : Run (Step here) m₀ as m) :
    (∀ k (h : k < m.state.events.length), m.state.events[k].sequence.val = k + 1) ∧
    (∃ n, eventSequence m.state = .ok n ∧ n.val = m.state.events.length) ∧
    ∀ env c s', env.contract = here → m.clock.val ≤ env.timestamp.val →
      exec env m.state c = .ok s' →
      ∃ info info', m.state.store.config = some info ∧ s'.store.config = some info' ∧
        info' = { c.rewrite env info info' with eventSequence := info'.eventSequence } ∧
        c.Computes env (paidOut s' info' - paidOut m.state info) info info' ∧
        Logged info.eventSequence m.state.events info'.eventSequence s'.events ∧
        s'.store = { c.write m.state.store s'.store with guard := s'.store.guard } := by
  obtain ⟨info, hs, hn, hg⟩ := gapless_of_run hborn hrun
  refine ⟨hg, ⟨info.eventSequence, ?_, hn⟩, fun env c s' henv hclock h => ?_⟩
  · rw [eventSequence, load, hs.config]
    rfl
  · subst henv
    obtain ⟨info', kept, he⟩ := effect_of_exec (hs.wait hclock) h
    obtain ⟨info₁, hw⟩ := wrote_of_exec hs.config h
    obtain rfl := Option.some.inj (he.sound.config.symm.trans hw.config)
    exact ⟨info, info', hs.config, hw.config, hw.rewrite, computes_of_effect he, hw.logged, hw.write⟩

/-- A run that replaces an operator, publishes three events in one withdrawal, and goes on after the
cancellation. -/
def Sample.loggedCalls : List (U64 × Call) :=
  [(.lit 200, .setCliff sender (.lit 500) (.lit 4000)), (.lit 210, .setOperator sender (.account 3)),
    (.lit 220, .setOperator sender (.account 4)), (.lit 1200, .withdraw (.lit 10000)),
    (.lit 1300, .cancel sender), (.lit 1400, .emergencyPause (.account 5))]

theorem events_gapless_logged :
    (Sample.reached Sample.args Sample.loggedCalls).state.events.length = 10 ∧
    (∀ k (h : k < (Sample.reached Sample.args Sample.loggedCalls).state.events.length),
      (Sample.reached Sample.args Sample.loggedCalls).state.events[k].sequence.val = k + 1) ∧
    ∃ n, eventSequence (Sample.reached Sample.args Sample.loggedCalls).state = .ok n ∧
      n.val = (Sample.reached Sample.args Sample.loggedCalls).state.events.length := by
  have hborn : Born Sample.address Sample.args (Sample.born Sample.args) :=
    Sample.born_of_initialize (by decide +kernel)
  have hrun : Run (Step Sample.address) (Sample.born Sample.args) (Sample.actions Sample.loggedCalls)
      (Sample.reached Sample.args Sample.loggedCalls) := Sample.run_reached (by decide +kernel)
  obtain ⟨hnum, hcount, -⟩ := events_gapless hborn hrun
  exact ⟨by decide +kernel, hnum, hcount⟩

end Drip.Stream
