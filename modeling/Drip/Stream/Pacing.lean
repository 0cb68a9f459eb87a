import Drip.Support.Paced
import Drip.Stream.Lifetime

/-!
# Stream — Pacing

How often a stream pays, over whole runs.  A withdrawal notes its time, and the next one is refused while
the minimum interval is not over; a ping of a keeper notes its ledger, and the next one is refused for
100000 ledgers.

* `withdrawals_of_run`: how many withdrawals there are at most in the time of a run.
* `pings_of_run`: how many pings there are at most in its ledgers.

Both bounds stop at the last moment of the machine integers, where the sums of the source are capped.
-/

namespace Drip.Stream
open Chain Lease

variable {host : Host} {here : Address} {m m₀ : Moment} {x x₀ : Leased} {env : Env} {s s' : State}
variable {info : StreamInfo} {amount : I128}

theorem config_of_exec {c : Call} (hi : s.store.config = some info) (h : exec env s c = .ok s') :
    ∃ info', s'.store.config = some info' := by
  obtain ⟨info', hw⟩ := wrote_of_exec hi h
  exact ⟨info', hw.config⟩

/-! ### Withdrawals -/

def Action.isWithdrawal : Action → Bool
  | .call _ (.withdraw _) => true
  | _ => false

theorem lastWithdrawal_of_marks (h : markCliffReached env s info = .ok s') :
    s'.store.lastWithdrawalTime = s.store.lastWithdrawalTime := by
  unfold markCliffReached at h
  split at h
  · split at h
    · obtain ⟨-, i, n, -, -, rfl⟩ := publish_eq_ok.mp h
      rfl
    · cases h
      rfl
  · cases h
    rfl

theorem lastWithdrawal_of_completes {balance remaining total : I128}
    (h : markCompleted s info balance remaining total = .ok s') :
    s'.store.lastWithdrawalTime = s.store.lastWithdrawalTime := by
  unfold markCompleted at h
  split at h
  · obtain ⟨-, i, n, -, -, rfl⟩ := publish_eq_ok.mp h
    rfl
  · cases h
    rfl

/-- `withdraw` notes its time, and has checked the time of the last one. -/
theorem lastWithdrawal_of_withdraw (hi : s.store.config = some info)
    (h : exec env s (.withdraw amount) = .ok s') :
    s'.store.lastWithdrawalTime = some env.timestamp ∧
      ¬ (0 < (s.store.minWithdrawalInterval.getD (.lit 0)).val ∧
        0 < (s.store.lastWithdrawalTime.getD (.lit 0)).val ∧
        env.timestamp < (s.store.lastWithdrawalTime.getD (.lit 0)).saturatingAdd
          (s.store.minWithdrawalInterval.getD (.lit 0))) := by
  obtain ⟨x, h⟩ := after_eq_ok.mp h
  obtain ⟨w⟩ := exists_withdrawing hi h
  obtain ⟨-, i, n, -, -, hpublished⟩ := publish_eq_ok.mp w.publishes
  refine ⟨?_, ?_⟩
  · rw [w.releases]
    show w.done.store.lastWithdrawalTime = _
    rw [lastWithdrawal_of_completes w.completes, lastWithdrawal_of_marks w.marks, hpublished]
    rfl
  · simp only [withdraw, withGuard_eq_ok, withdrawBody, bind_eq_ok, checkWithdrawalInterval,
      reject_eq_ok] at h
    obtain ⟨-, s₁, ⟨-, -, info', -, -, -, -, -, -, hcheck, -⟩, -⟩ := h
    exact hcheck

/-- No other call does. -/
theorem lastWithdrawal_of_other {c : Call} (hi : s.store.config = some info)
    (hc : (Action.call env c).isWithdrawal = false) (h : exec env s c = .ok s') :
    s'.store.lastWithdrawalTime = s.store.lastWithdrawalTime := by
  obtain ⟨info', hw⟩ := wrote_of_exec hi h
  rw [hw.write]
  cases c with
  | withdraw amount => cases hc
  | initializeStream args => simp [exec, initializeStream, initializeReading, hi] at h
  | _ => rfl

/-- What the bound asks of a step: a minimum interval of `gap` at every withdrawal. -/
structure Spaced (gap : Int) (m : Moment) (a : Action) (m' : Moment) : Prop where
  interval : a.isWithdrawal = true → gap ≤ (m.state.store.minWithdrawalInterval.getD (.lit 0)).val
  clock : m'.clock.val < 18446744073709551615

/-- The stream has been initialized, and not at time zero. -/
structure Begun (m : Moment) : Prop where
  config : ∃ info, m.state.store.config = some info
  clock : 0 < m.clock.val
  last : ∀ l ∈ m.state.store.lastWithdrawalTime, 0 < l.val

theorem begun_of_born {args : InitArgs} (h : Born here args m) (hclock : 0 < m.clock.val) : Begun m := by
  refine ⟨⟨_, (sound_of_born h).config⟩, hclock, ?_⟩
  obtain ⟨env, tokens, s₀, -, -, h₀, hm⟩ := h
  rw [hm]
  simp [initializeStream, initializeReading, State.fresh, publish_eq_ok] at h₀
  obtain ⟨-, -, -, -, -, -, -, d, -, -, -, n, -, rfl⟩ := h₀
  intro l hl
  cases hl

theorem begun_of_step {a : Action} {m' : Moment} (hm : Begun m) (h : Step here m a m') : Begun m' := by
  obtain ⟨⟨info, hi⟩, hpos, hlast⟩ := hm
  cases h with
  | outside _ => exact ⟨⟨info, hi⟩, hpos, hlast⟩
  | @call env c s' henv hclock h =>
      have hlater : 0 < env.timestamp.val := hpos.trans_le hclock
      refine ⟨config_of_exec hi h, hlater, ?_⟩
      cases hc : (Action.call env c).isWithdrawal with
      | true =>
          cases c with
          | withdraw amount =>
              intro l hl
              obtain rfl : env.timestamp = l :=
                Option.some.inj ((lastWithdrawal_of_withdraw hi h).1.symm.trans hl)
              exact hlater
          | _ => cases hc
      | false =>
          intro l hl
          exact hlast l ((lastWithdrawal_of_other hi hc h) ▸ hl)

theorem paced_withdrawals {gap : Int} (hgap : 0 < gap) :
    Paced (fun m a m' => Step here m a m' ∧ Spaced gap m a m') Begun Action.isWithdrawal
      (fun _ => false) (fun m => m.state.store.lastWithdrawalTime.map Ranged.val) (fun m => m.clock.val) gap := by
  refine ⟨fun hm hstep => begun_of_step hm hstep.1, ?_, ?_, ?_⟩
  · rintro m a m' - ⟨hstep, -⟩
    cases hstep with
    | call _ hclock _ => exact hclock
    | outside _ => exact le_refl _
  · rintro m a m' hm ⟨hstep, hspaced⟩ hmarked
    obtain ⟨info, hi⟩ := hm.config
    cases hstep with
    | outside _ => cases hmarked
    | @call env c s' henv hclock h =>
        cases c with
        | withdraw amount =>
            obtain ⟨hnoted, hcheck⟩ := lastWithdrawal_of_withdraw hi h
            have hinterval := hspaced.interval rfl
            have hmax : env.timestamp.val < 18446744073709551615 := hspaced.clock
            refine ⟨congrArg (Option.map Ranged.val) hnoted, ?_⟩
            intro l hl
            obtain ⟨last, hlast, rfl⟩ := Option.map_eq_some_iff.mp hl
            have hpos := hm.last last hlast
            rw [hlast] at hcheck
            have hlate : ¬ env.timestamp < last.saturatingAdd
                (m.state.store.minWithdrawalInterval.getD (.lit 0)) :=
              fun hearly => hcheck ⟨hgap.trans_le hinterval, hpos, hearly⟩
            rw [Ranged.lt_def, Ranged.saturatingAdd, Ranged.val_clamp] at hlate
            show last.val + gap ≤ env.timestamp.val
            have hge := last.ge
            omega
        | _ => cases hmarked
  · rintro m a m' hm ⟨hstep, -⟩ hmarked -
    obtain ⟨info, hi⟩ := hm.config
    cases hstep with
    | outside _ => rfl
    | call _ _ h => exact congrArg (Option.map Ranged.val) (lastWithdrawal_of_other hi hmarked h)

/-- **Withdrawals are paced**: in any part of a run in which the minimum interval is never below `gap` when
somebody withdraws, there are no more withdrawals than such intervals fit into its time, and one. -/
theorem withdrawals_of_run {gap : Int} {args : InitArgs} {m₁ : Moment} {as bs : List Action}
    (hgap : 0 < gap) (hborn : Born here args m₁) (hclock : 0 < m₁.clock.val)
    (hbefore : Run (Step here) m₁ bs m₀)
    (h : Run (fun m a m' => Step here m a m' ∧ Spaced gap m a m') m₀ as m) :
    (as.countP Action.isWithdrawal : Int) * gap ≤ m.clock.val - m₀.clock.val + gap := by
  have hbegun : Begun m₀ := hbefore.invariant (P := Begun) (fun _ hstep hm => begun_of_step hm hstep)
    (begun_of_born hborn hclock)
  exact (paced_withdrawals hgap).count_le hgap.le h hbegun

namespace Sample

/-- The sample stream with a minimum interval of fifty seconds, and two withdrawals. -/
def intervalled : Moment := reached Sample.args [(.lit 150, .setMinWithdrawalInterval sender (.lit 50))]
def drawnOnce : Moment := next intervalled (.lit 200) (.withdraw (.lit 100))
def drawnTwice : Moment := next drawnOnce (.lit 250) (.withdraw (.lit 100))

theorem run_drawnTwice : Run (fun m a m' => Step address m a m' ∧ Spaced 50 m a m') intervalled
    (actions [(.lit 200, .withdraw (.lit 100)), (.lit 250, .withdraw (.lit 100))]) drawnTwice := by
  have h₁ : Step address intervalled (.call (envAt (.lit 200)) (.withdraw (.lit 100))) drawnOnce :=
    step_next (by decide +kernel) (by decide +kernel)
  have h₂ : Step address drawnOnce (.call (envAt (.lit 250)) (.withdraw (.lit 100))) drawnTwice :=
    step_next (by decide +kernel) (by decide +kernel)
  exact ((Run.nil _).snoc ⟨h₁, fun _ => by decide +kernel, by decide +kernel⟩).snoc
    ⟨h₂, fun _ => by decide +kernel, by decide +kernel⟩

end Sample

theorem withdrawals_of_run_drawnTwice : (2 : Int) * 50 ≤
    Sample.drawnTwice.clock.val - Sample.intervalled.clock.val + 50 := by
  have hborn : Born Sample.address Sample.args (Sample.born Sample.args) :=
    Sample.born_of_initialize (by decide +kernel)
  exact withdrawals_of_run (by decide) hborn (by decide) (Sample.run_reached (by decide +kernel))
    Sample.run_drawnTwice

/-! ### Pings -/

def Leased.Action.isPing : Leased.Action → Bool
  | .stream (.call _ (.keeperPing _)) => true
  | _ => false

/-- `keeper_ping` has checked the ledger of the last one. -/
theorem lastPing_apart {keeper : Address}
    (h : exec env s (.keeperPing keeper) = .ok s') :
    ∀ last ∈ s.store.lastKeeperPingLedger, ¬ env.sequence < last.saturatingAdd minTtlLedgers := by
  obtain ⟨x, h⟩ := after_eq_ok.mp h
  simp only [keeperPing, withGuard_eq_ok, keeperPingBody, bind_eq_ok, reject_eq_ok] at h
  obtain ⟨-, s₁, ⟨-, -, info', -, -, -, pool, -, -, -, -, hcheck, -⟩, -⟩ := h
  exact fun last hlast hearly => hcheck ⟨last, hlast, hearly⟩

/-- A step before the last ledger of all. -/
def Leased.Early (host : Host) (here : Address) (x : Leased) (a : Leased.Action) (y : Leased) : Prop :=
  x.Move host here a y ∧ y.sequence.val < 4294967295

theorem config_of_move {a : Leased.Action} {y : Leased} (hi : x.moment.state.store.config = some info)
    (h : x.Move host here a y) : ∃ info', y.moment.state.store.config = some info' := by
  cases h with
  | extended _ => exact ⟨info, hi⟩
  | outside h =>
      cases h with
      | outside _ => exact ⟨info, hi⟩
  | call _ h =>
      cases h with
      | call _ _ h => exact config_of_exec hi h

theorem paced_pings : Paced (Leased.Early host here)
    (fun x : Leased => ∃ info, x.moment.state.store.config = some info) Leased.Action.isPing (fun _ => false)
    (fun x : Leased => x.moment.state.store.lastKeeperPingLedger.map Ranged.val)
    (fun x : Leased => x.sequence.val) minTtlLedgers.val := by
  refine ⟨?_, ?_, ?_, ?_⟩
  · rintro x a y ⟨info, hi⟩ ⟨hmove, -⟩
    exact config_of_move hi hmove
  · rintro x a y - ⟨hmove, -⟩
    cases hmove with
    | call hsequence _ => exact hsequence
    | outside _ => exact le_refl _
    | extended _ => exact le_refl _
  · rintro x a y ⟨info, hi⟩ ⟨hmove, hearly⟩ hmarked
    cases hmove with
    | outside _ => cases hmarked
    | extended _ => cases hmarked
    | @call env c m hsequence h =>
        cases c with
        | keeperPing keeper =>
            cases h with
            | @call _ _ s' henv hclock h =>
                refine ⟨congrArg (Option.map Ranged.val) (lastPing_of_keeperPing hi h), ?_⟩
                intro l hl
                obtain ⟨last, hlast, rfl⟩ := Option.map_eq_some_iff.mp hl
                have hlate := lastPing_apart h last hlast
                have hmax : env.sequence.val < 4294967295 := hearly
                rw [Ranged.lt_def, Ranged.saturatingAdd, Ranged.val_clamp] at hlate
                show last.val + minTtlLedgers.val ≤ env.sequence.val
                have hge := last.ge
                have hgap := minTtlLedgers.ge
                omega
        | _ => cases hmarked
  · rintro x a y ⟨info, hi⟩ ⟨hmove, -⟩ hmarked -
    cases hmove with
    | extended _ => rfl
    | outside h =>
        cases h with
        | outside _ => rfl
    | @call env c m hsequence h =>
        cases h with
        | @call _ _ s' henv hclock h =>
            have hother : ∀ keeper, c ≠ .keeperPing keeper := by
              rintro keeper rfl
              cases hmarked
            exact congrArg (Option.map Ranged.val) (lastPing_of_other hi hother h)

/-- **Keepers are paid once in 100000 ledgers**: in any part of a run, there are no more pings than such
intervals fit into its ledgers, and one. -/
theorem pings_of_run {args : InitArgs} {stop : Int} {x₁ : Leased} {as bs : List Leased.Action}
    (hborn : x₁.Born host here args stop) (hbefore : Run (Leased.Move host here) x₁ bs x₀)
    (h : Run (Leased.Early host here) x₀ as x) :
    (as.countP Leased.Action.isPing : Int) * minTtlLedgers.val ≤
      x.sequence.val - x₀.sequence.val + minTtlLedgers.val :=
  paced_pings.count_le minTtlLedgers.ge h (Leased.config_of_moves hborn hbefore)

namespace Sample

/-- A ping in the first ledger in which it is accepted after the sample ping. -/
def pingedTwice : Leased := renewed pinged (.lit 500000) (.lit 100060) (.keeperPing (.account 6))

def pings : List Leased.Action :=
  [.stream (.call (envIn (.lit 400) (.lit 60)) (.keeperPing (.account 6))),
    .stream (.call (envIn (.lit 500000) (.lit 100060)) (.keeperPing (.account 6)))]

theorem run_pingedTwice : Run (Leased.Early leaseHost address) funded pings pingedTwice := by
  have hsecond : pinged.Move leaseHost address _ pingedTwice :=
    move_renewed (by decide +kernel) (by decide +kernel) (by decide +kernel)
  exact ((Run.nil _).snoc ⟨move_pinged, by decide +kernel⟩).snoc ⟨hsecond, by decide +kernel⟩

end Sample

theorem pings_of_run_pingedTwice : (Sample.pings.countP Leased.Action.isPing : Int) * minTtlLedgers.val ≤
    Sample.pingedTwice.sequence.val - Sample.funded.sequence.val + minTtlLedgers.val :=
  pings_of_run Sample.born_leased Sample.run_funded Sample.run_pingedTwice

end Drip.Stream
