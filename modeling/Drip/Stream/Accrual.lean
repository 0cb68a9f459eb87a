import Drip.Stream.History
import Drip.Stream.Runs

/-!
# Stream — Accrual

`streamed_amount` against the history of the run.  `historyOf args as` reads the pauses and the rate
changes off the actions of a run; `streamedAmount_eq_reference` says that, as long as `set_cliff` is
not called, the code computes the sum of the rate in force over the seconds outside the pauses.
-/

namespace Drip.Stream

variable {here : Address} {args : InitArgs} {m m₀ : Moment} {as : List Action}
variable {info : StreamInfo}

/-- The history of a new stream. -/
def History.initial (args : InitArgs) : History where
  start := args.startTime.val
  rate := args.ratePerSecond.val
  changes := []
  pauses := []
  since := none

/-- The history after one more action. -/
def History.record (h : History) : Action → History
  | .call env c => h.note env.timestamp.val c.move
  | .outside _ => h

def historyOf (args : InitArgs) (as : List Action) : History :=
  as.foldl History.record (History.initial args)

/-- The first second that is not counted at `now`: `now`, or the beginning of the present pause, but
not past the end of the stream. -/
def countedUntil (info : StreamInfo) (now : Int) : Int :=
  let reached := if info.isPaused then info.pausedAt.val else now
  if info.endTime.val = 0 then reached else min reached info.endTime.val

theorem countedUntil_eq (st : Storage) (now : Int) :
    countedUntil info now = (scheduleOf info st).effective now := by
  unfold countedUntil Schedule.effective Schedule.clamp scheduleOf
  cases info.isPaused <;> dsimp only <;> split <;> rfl

theorem tracks_of_born (h : Born here args m) :
    Tracks (History.initial args) (scheduleOf (initialInfo args) m.state.store) m.clock.val := by
  obtain ⟨env, hclock, hc⟩ := h.created
  have hstop : ∀ e ∈ (scheduleOf (initialInfo args) m.state.store).stop,
      args.startTime.val ≤ e := fun e he => ((sound_of_born h).valid.start_lt e he).le
  rw [hc.schedule] at hstop ⊢
  refine ⟨rfl, rfl, rfl, nofun, nofun, fun _ => rfl, fun _ => ?_, nofun⟩
  refine ⟨args.startTime.val, le_refl _, le_refl _, le_max_right _ _, hstop, fun x hx => ?_⟩
  -- nothing has changed yet: the rate is the original one throughout
  have := History.reference_after (h := History.initial args) (le_refl _) nofun nofun hx
  rw [this, show (History.initial args).reference (History.initial args).start = 0 from
    tally_empty (le_refl _)]
  rfl

/-- No action of the run sets a cliff. -/
def NoCliff (as : List Action) : Prop := ∀ env caller t u, .call env (.setCliff caller t u) ∉ as

theorem not_setCliff_of_noCliff {env : Env} {c : Call} (h : NoCliff as) (hin : .call env c ∈ as)
    (t u : Int) : c.move ≠ .setCliff t u := by
  cases c with
  | setCliff caller t u => exact absurd hin (h env caller t u)
  | _ => exact nofun

theorem tracks_of_run (hborn : Born here args m₀) (hrun : Run (Step here) m₀ as m)
    (hcliff : NoCliff as) : ∃ info, Sound here m.state info m.clock.val ∧
      Tracks (historyOf args as) (scheduleOf info m.state.store) m.clock.val := by
  induction hrun with
  | nil => exact ⟨_, sound_of_born hborn, tracks_of_born hborn⟩
  | snoc _ ha ih =>
      obtain ⟨info, hs, ht⟩ := ih fun env caller t u hin =>
        hcliff env caller t u (List.mem_append_left _ hin)
      unfold historyOf at ht ⊢
      rw [List.foldl_append]
      cases ha with
      | call henv hclock h =>
          subst henv
          obtain ⟨info', kept, he⟩ := effect_of_exec (hs.wait hclock) h
          refine ⟨info', he.sound, ?_⟩
          show Tracks _ (scheduleOf info' _) _
          rw [he.schedule]
          refine (ht.wait hclock).note (hs.wait hclock).valid he.schedule_allows ?_
          exact not_setCliff_of_noCliff hcliff (List.mem_append_right _ List.mem_cons_self)
      | outside h => exact ⟨info, hs.outside, ht⟩

/-- **Accrual is the sum over the history.**  At any later time `streamed_amount` returns the sum,
over the seconds counted so far, of the rate in force outside the pauses, and `ArithmeticOverflow`
exactly when that sum is past `i128::MAX`. -/
theorem streamedAmount_eq_reference {env : Env} (hborn : Born here args m₀)
    (hrun : Run (Step here) m₀ as m) (hcliff : NoCliff as)
    (hlater : m.clock.val ≤ env.timestamp.val) :
    ∃ info, m.state.store.config = some info ∧
      (∀ v, streamedAmount env m.state info = .ok v ↔
        v.val = (historyOf args as).reference (countedUntil info env.timestamp.val)) ∧
      (streamedAmount env m.state info = .error (err .arithmeticOverflow) ↔
        i128Max < (historyOf args as).reference (countedUntil info env.timestamp.val)) := by
  obtain ⟨info, hs, ht⟩ := tracks_of_run hborn hrun hcliff
  have hvalid := (hs.wait hlater).valid
  have hvalue := (ht.wait hlater).value hvalid
  have hcode : streamedAmount env m.state info = asI128 _ := streamedAmount_eq hvalid
  have hnonneg := hvalid.value_nonneg env.timestamp.val
  refine ⟨info, hs.config, ?_⟩
  rw [countedUntil_eq m.state.store, ← hvalue]
  refine ⟨fun v => ?_, ?_⟩
  · rw [hcode, asI128_eq_ok]
  · rw [hcode, asI128_eq_error hnonneg]

/-- A pause, a rate change during it, the resume, and a withdrawal. -/
def Sample.pausedRun : List (U64 × Call) :=
  [(.lit 200, .pause sender), (.lit 250, .changeRate sender (.lit 20)), (.lit 300, .resume sender),
    (.lit 400, .withdraw (.lit 500))]

theorem streamedAmount_eq_reference_pausedRun :
    ∃ info, (Sample.reached Sample.args Sample.pausedRun).state.store.config = some info ∧
      (∀ v, streamedAmount (Sample.envAt (.lit 500))
          (Sample.reached Sample.args Sample.pausedRun).state info = .ok v ↔
        v.val = (historyOf Sample.args (Sample.actions Sample.pausedRun)).reference
          (countedUntil info 500)) ∧
      (streamedAmount (Sample.envAt (.lit 500))
          (Sample.reached Sample.args Sample.pausedRun).state info =
            .error (err .arithmeticOverflow) ↔
        i128Max < (historyOf Sample.args (Sample.actions Sample.pausedRun)).reference
          (countedUntil info 500)) := by
  refine streamedAmount_eq_reference (Sample.born_of_initialize (by decide +kernel))
    (Sample.run_reached (by decide +kernel)) ?_ (by decide +kernel)
  intro env caller t u
  simp [Sample.actions, Sample.pausedRun]

end Drip.Stream
