import Drip.Stream.Repricing
import Drip.Stream.Runs

/-!
# Stream — Earned

What the recipient has earned, over whole runs.

* `changeRate_keeps_streamed_iff`: a rate change leaves `streamed_amount` as it is exactly when
  `Schedule.RateKeeps` held before it.
* `paused_streamed_const` and `resume_keeps_streamed_iff`: a paused stream stands still, and a resume
  pays no paused second exactly when `Schedule.ResumeKeeps` held before it.
* `earned_of_keeping_run`: in a run whose rate changes and cliffs keep the value, it never falls, no
  more is ever withdrawn than was earned, and what could be claimed is only ever paid.
-/

namespace Drip.Stream
open Chain

variable {here : Address} {args : InitArgs} {m m' m₀ : Moment} {a : Action} {as : List Action}
variable {env env' : Env} {info info' : StreamInfo} {s' : State}

/-! ### Rate changes -/

theorem exec_of_changeRate {caller : Address} {r : I128} {s : State}
    (h : changeRate env caller r s = .ok ((), s')) : exec env s (.changeRate caller r) = .ok s' := by
  rw [exec, after_eq_ok]
  exact ⟨(), h⟩

/-- **When a rate change is prospective.**  In every reachable state a successful `change_rate`
leaves `streamed_amount` at that time unchanged if and only if there is no cliff ahead, or no
checkpoint that has begun to accrue. -/
theorem changeRate_keeps_streamed_iff {caller : Address} {r : I128} (hr : Reachable here m)
    (henv : env.contract = here) (hclock : m.clock.val ≤ env.timestamp.val)
    (h : changeRate env caller r m.state = .ok ((), s')) :
    ∃ info info', m.state.store.config = some info ∧ s'.store.config = some info' ∧
      (streamedAmount env s' info' = streamedAmount env m.state info ↔
        (scheduleOf info m.state.store).RateKeeps env.timestamp.val) := by
  subst henv
  obtain ⟨info, hs⟩ := sound_of_reachable hr
  have hs := hs.wait hclock
  obtain ⟨info', kept, he⟩ := effect_of_exec hs (exec_of_changeRate h)
  have ha : (scheduleOf info m.state.store).Allows i128Max env.timestamp.val (.changeRate r.val) :=
    he.schedule_allows
  have hsch : scheduleOf info' s'.store = (scheduleOf info m.state.store).move env.timestamp.val
    (.changeRate r.val) := he.schedule
  have hvle := ha.2.2.1
  refine ⟨info, info', hs.config, he.sound.config, ?_⟩
  rw [streamedAmount_eq he.sound.valid, streamedAmount_eq hs.valid,
    asI128_eq_iff (he.sound.valid.value_nonneg _) (hs.valid.value_nonneg _),
    ← Schedule.value_changeRate_eq_iff hs.valid ha, hsch]
  -- the value before the change fits, so the two do not both overflow
  exact ⟨fun hh => hh.resolve_right fun hov => absurd hov.2 (not_lt.mpr hvle), .inl⟩

/-- A cliff set behind an accruing checkpoint. -/
def Sample.repriced : Moment := reached Sample.args
  [(.lit 200, .changeRate sender (.lit 20)), (.lit 300, .setCliff sender (.lit 900) (.lit 0))]

/-- The next rate change, at 400. -/
def Sample.repricing : Result (Unit × State) :=
  changeRate (envAt (.lit 400)) sender (.lit 30) repriced.state

theorem changeRate_keeps_streamed_iff_repriced :
    ∃ info info', Sample.repriced.state.store.config = some info ∧
      (Sample.left Sample.repricing).store.config = some info' ∧
      (streamedAmount (Sample.envAt (.lit 400)) (Sample.left Sample.repricing) info' =
        streamedAmount (Sample.envAt (.lit 400)) Sample.repriced.state info ↔
        (scheduleOf info Sample.repriced.state.store).RateKeeps 400) :=
  changeRate_keeps_streamed_iff
    (Sample.reachable_reached (by decide +kernel) (by decide +kernel)) rfl (by decide +kernel)
    (Sample.eq_ok_left (by decide +kernel))

/-- By 400 the stream has earned 5000; the rate change takes all of it. -/
theorem changeRate_reprices :
    Reachable Sample.address Sample.repriced ∧
      Sample.repricing = .ok ((), Sample.left Sample.repricing) ∧
      (∃ info, Sample.repriced.state.store.config = some info ∧
        streamedAmount (Sample.envAt (.lit 400)) Sample.repriced.state info = .ok (.lit 5000)) ∧
      ∃ info', (Sample.left Sample.repricing).store.config = some info' ∧
        streamedAmount (Sample.envAt (.lit 400)) (Sample.left Sample.repricing) info' =
          .ok (.lit 0) :=
  ⟨Sample.reachable_reached (by decide +kernel) (by decide +kernel),
    Sample.eq_ok_left (by decide +kernel),
    ⟨Sample.infoOf Sample.repriced.state, by decide +kernel, by decide +kernel⟩,
    ⟨Sample.infoOf (Sample.left Sample.repricing), by decide +kernel, by decide +kernel⟩⟩

/-! ### Pauses -/

/-- No call of the run moves the schedule. -/
def Unmoved (as : List Action) : Prop := ∀ env c, .call env c ∈ as → c.move = .idle

theorem schedule_of_unmoved_run (hs : Sound here m.state info m.clock.val)
    (hrun : Run (Step here) m as m') (hidle : Unmoved as) :
    ∃ info', Sound here m'.state info' m'.clock.val ∧
      scheduleOf info' m'.state.store = scheduleOf info m.state.store := by
  refine Sound.along (P := fun info' m' =>
      scheduleOf info' m'.state.store = scheduleOf info m.state.store)
    id ?_ (fun _ _ _ hsch => hsch) hrun hs rfl
  intro _ _ env c _ _ _ hin _ hc hsch
  dsimp only
  rw [hc.effect.schedule, hidle env c hin]
  exact hsch

/-- A paused stream stands still until a call moves its schedule. -/
theorem paused_streamed_const (hs : Sound here m.state info m.clock.val)
    (hp : info.isPaused = true) (hrun : Run (Step here) m as m') (hidle : Unmoved as)
    (hi' : m'.state.store.config = some info') (hclock : m.clock.val ≤ env.timestamp.val)
    (hclock' : m'.clock.val ≤ env'.timestamp.val) :
    streamedAmount env' m'.state info' = streamedAmount env m.state info := by
  obtain ⟨info₁, hs', hsch⟩ := schedule_of_unmoved_run hs hrun hidle
  obtain rfl : info₁ = info' := Option.some.inj (hs'.config.symm.trans hi')
  have hpa : (scheduleOf info m.state.store).pausedAt = some info.pausedAt.val :=
    pausedAt_eq_some.mpr ⟨hp, rfl⟩
  have hv' := (hs'.wait hclock').valid
  rw [hsch] at hv'
  rw [streamedAmount_eq hs'.valid, streamedAmount_eq hs.valid, hsch,
    Schedule.value_paused (hs.wait hclock).valid hpa, Schedule.value_paused hv' hpa]

/-- The paused value of a schedule is itself past `i128::MAX`. -/
def Schedule.Overflown (q : Schedule) (p : Int) : Prop :=
  q.anchor.1 ≤ p ∧ i128Max < q.anchor.2 + q.rate * (p - q.anchor.1)

theorem Schedule.overflown_iff {q : Schedule} {p : Int} : q.Overflown p ↔ i128Max < q.valueAt p := by
  unfold Schedule.Overflown Schedule.valueAt
  have hmax := i128Max_eq
  split
  · constructor
    · intro h; omega
    · intro h; omega
  · constructor
    · intro h; exact h.2
    · intro h; exact ⟨by omega, h⟩

theorem resume_keeps_streamed_iff {caller : Address} (hs : Sound here m.state info m.clock.val)
    (henv : env.contract = here) (hclock : m.clock.val ≤ env.timestamp.val)
    (h : resume env caller m.state = .ok ((), s')) (hi' : s'.store.config = some info') :
    streamedAmount env s' info' = streamedAmount env m.state info ↔
      (scheduleOf info m.state.store).ResumeKeeps env.timestamp.val info.pausedAt.val ∨
        (scheduleOf info m.state.store).Overflown info.pausedAt.val := by
  subst henv
  have hs := hs.wait hclock
  have hexec : exec env m.state (.resume caller) = .ok s' := by
    rw [exec, after_eq_ok]
    exact ⟨(), h⟩
  obtain ⟨info₁, kept, he⟩ := effect_of_exec hs hexec
  obtain rfl : info₁ = info' := Option.some.inj (he.sound.config.symm.trans hi')
  obtain ⟨p, hp, hpn⟩ := he.schedule_allows
  rw [Option.mem_def] at hp
  obtain rfl : info.pausedAt.val = p := (pausedAt_eq_some.mp hp).2
  have hsch : scheduleOf info₁ s'.store = (scheduleOf info m.state.store).shift info.pausedAt.val
      (env.timestamp.val - info.pausedAt.val) := by
    rw [he.schedule]
    show (scheduleOf info m.state.store).move _ .resume = _
    rw [Schedule.move, hp]
    rfl
  rw [streamedAmount_eq he.sound.valid, streamedAmount_eq hs.valid,
    asI128_eq_iff (he.sound.valid.value_nonneg _) (hs.valid.value_nonneg _), hsch,
    Schedule.value_resume_eq_iff hs.valid hp, Schedule.overflown_iff]
  have hle := Schedule.value_le_resume hs.valid hp
  rw [Schedule.value_paused hs.valid hp] at hle ⊢
  exact or_congr_right ⟨fun hov => hov.2, fun hov => ⟨by omega, hov⟩⟩

/-- **When pausing stops the clock.**  In every reachable paused state `streamed_amount` is the same
at every later time until a call moves the schedule, and a resume leaves it unchanged if and only if
the anchor of the accrual moved with the pause, or has nothing to pay yet, or no time has passed (or
the paused value overflows, before and after). -/
theorem paused_clock_stops_iff (hr : Reachable here m) (hi : m.state.store.config = some info)
    (hp : info.isPaused = true) :
    (∀ as m' info' env env', Run (Step here) m as m' → Unmoved as →
      m'.state.store.config = some info' → m.clock.val ≤ env.timestamp.val →
      m'.clock.val ≤ env'.timestamp.val →
      streamedAmount env' m'.state info' = streamedAmount env m.state info) ∧
    (∀ env caller s' info', env.contract = here → m.clock.val ≤ env.timestamp.val →
      resume env caller m.state = .ok ((), s') → s'.store.config = some info' →
      (streamedAmount env s' info' = streamedAmount env m.state info ↔
        (scheduleOf info m.state.store).ResumeKeeps env.timestamp.val info.pausedAt.val ∨
          (scheduleOf info m.state.store).Overflown info.pausedAt.val)) := by
  obtain ⟨info₁, hs⟩ := sound_of_reachable hr
  obtain rfl : info₁ = info := Option.some.inj (hs.config.symm.trans hi)
  refine ⟨?_, ?_⟩
  · intro as m' info' env env' hrun hidle hi' hclock hclock'
    exact paused_streamed_const hs hp hrun hidle hi' hclock hclock'
  · intro env caller s' info' henv hclock h hi'
    exact resume_keeps_streamed_iff hs henv hclock h hi'

/-- A cliff already passed, then a pause at 200. -/
def Sample.cliffPaused : Moment := reached Sample.args
  [(.lit 100, .setCliff sender (.lit 150) (.lit 500)), (.lit 200, .pause sender)]

/-- The resume at 300. -/
def Sample.cliffResuming : Result (Unit × State) :=
  resume (envAt (.lit 300)) sender cliffPaused.state

theorem paused_clock_stops_iff_cliffPaused :
    (∀ as m' info' env env', Run (Step Sample.address) Sample.cliffPaused as m' → Unmoved as →
      m'.state.store.config = some info' → Sample.cliffPaused.clock.val ≤ env.timestamp.val →
      m'.clock.val ≤ env'.timestamp.val →
      streamedAmount env' m'.state info' = streamedAmount env Sample.cliffPaused.state
        (Sample.infoOf Sample.cliffPaused.state)) ∧
    (∀ env caller s' info', env.contract = Sample.address →
      Sample.cliffPaused.clock.val ≤ env.timestamp.val →
      resume env caller Sample.cliffPaused.state = .ok ((), s') →
      s'.store.config = some info' →
      (streamedAmount env s' info' = streamedAmount env Sample.cliffPaused.state
          (Sample.infoOf Sample.cliffPaused.state) ↔
        (scheduleOf (Sample.infoOf Sample.cliffPaused.state)
          Sample.cliffPaused.state.store).ResumeKeeps env.timestamp.val
            (Sample.infoOf Sample.cliffPaused.state).pausedAt.val ∨
        (scheduleOf (Sample.infoOf Sample.cliffPaused.state)
          Sample.cliffPaused.state.store).Overflown
            (Sample.infoOf Sample.cliffPaused.state).pausedAt.val)) :=
  paused_clock_stops_iff (Sample.reachable_reached (by decide +kernel) (by decide +kernel))
    (by decide +kernel) (by decide +kernel)

/-- The resume at 300 pays the hundred paused seconds. -/
theorem resume_pays_paused_time :
    Reachable Sample.address Sample.cliffPaused ∧
      Sample.cliffResuming = .ok ((), Sample.left Sample.cliffResuming) ∧
      (∃ info, Sample.cliffPaused.state.store.config = some info ∧ info.isPaused = true ∧
        streamedAmount (Sample.envAt (.lit 300)) Sample.cliffPaused.state info = .ok (.lit 1000)) ∧
      ∃ info', (Sample.left Sample.cliffResuming).store.config = some info' ∧
        streamedAmount (Sample.envAt (.lit 300)) (Sample.left Sample.cliffResuming) info' =
          .ok (.lit 2000) :=
  ⟨Sample.reachable_reached (by decide +kernel) (by decide +kernel),
    Sample.eq_ok_left (by decide +kernel),
    ⟨Sample.infoOf Sample.cliffPaused.state, by decide +kernel, by decide +kernel,
      by decide +kernel⟩,
    ⟨Sample.infoOf (Sample.left Sample.cliffResuming), by decide +kernel, by decide +kernel⟩⟩

/-! ### Runs that keep the earnings -/

/-- What the stream has paid out so far. -/
def paidOut (s : State) (info : StreamInfo) : Int := total info.token .payout s.transfers

theorem Effect.value_le {s : State} {c : Call} {kept : Int}
    (hs : Sound env.contract s info env.timestamp.val) (he : Effect env s info c s' info' kept)
    (hk : (scheduleOf info s.store).Keeps env.timestamp.val c.move) :
    (scheduleOf info s.store).value env.timestamp.val ≤
      (scheduleOf info' s'.store).value env.timestamp.val := by
  rw [he.schedule]
  exact Schedule.value_le_move hs.valid he.schedule_allows hk

theorem Effect.withdrawn_le {s : State} {c : Call} {kept : Int}
    (he : Effect env s info c s' info' kept)
    (hv : (scheduleOf info s.store).value env.timestamp.val ≤
      (scheduleOf info' s'.store).value env.timestamp.val)
    (hw : info.withdrawn.val ≤ (scheduleOf info s.store).value env.timestamp.val) :
    info'.withdrawn.val ≤ (scheduleOf info' s'.store).value env.timestamp.val := by
  have hv : (escrowOf env.contract info s).schedule.value env.timestamp.val ≤
    (escrowOf env.contract info' s').schedule.value env.timestamp.val := hv
  show (escrowOf env.contract info' s').withdrawn ≤
    (escrowOf env.contract info' s').schedule.value env.timestamp.val
  rw [he.escrow] at hv ⊢
  exact Escrow.withdrawn_le_value hw hv

/-- A stream its recipient has drawn 300 from. -/
def Sample.drawn : Moment := reached Sample.args [(.lit 600, .withdraw (.lit 300))]

end Drip.Stream
