import Drip.Stream.Earned

/-!
# Stream — Overflow

Whether the settlement of a bounded stream can always be computed.  `initialize` and `change_rate`
refuse a schedule whose obligation at its stop is past `i128::MAX`; the extensions, `set_cliff` and
`resume` rewrite the same obligation without that check.

* `Schedule.Fits` is what the check protects, and `Schedule.Guarded` the check the other moves would
  need (`fits_move`).
* `settlement_of_guarded_run`: in a run whose moves are guarded, `streamed_amount` and the amounts
  of a settlement are computed in every bounded state at every later time.
-/

namespace Drip.Stream

/-! ### Obligations -/

namespace Schedule

variable {q : Schedule} {now max : Int}

/-- Accruing from the anchor `a` to `x` comes to at most `max`. -/
def Within (q : Schedule) (max : Int) (a : Int × Int) (x : Int) : Prop :=
  a.1 ≤ x → a.2 + q.rate * (x - a.1) ≤ max

/-- The most a bounded schedule comes to, unless a move rewrites it: the value at its stop, or at
the pause it is in. -/
def Fits (q : Schedule) (max : Int) : Prop := ∀ e ∈ q.stop, q.valueAt (q.pausedAt.getD e) ≤ max

/-- The obligation check, on what the move is about to change. -/
def Guarded (q : Schedule) (max now : Int) : Move → Prop
  | .extend x => q.pausedAt = none → ∀ e ∈ q.stop, q.Within max q.anchor (e + x)
  | .setCliff c u => q.checkpoint = none → ∀ e ∈ q.stop, q.Within max (c, u) (q.pausedAt.getD e)
  | .resume => ∀ p ∈ q.pausedAt, ∀ e ∈ q.stop,
      (q.AnchorShifts p → q.Within max q.anchor e) ∧
      (¬ q.AnchorShifts p → q.Within max q.anchor (e + (now - p)))
  | .pause | .changeRate _ | .idle => True

instance (q : Schedule) (max : Int) (a : Int × Int) (x : Int) : Decidable (q.Within max a x) :=
  inferInstanceAs (Decidable (a.1 ≤ x → a.2 + q.rate * (x - a.1) ≤ max))

instance (q : Schedule) (p : Int) : Decidable (q.AnchorShifts p) :=
  inferInstanceAs (Decidable ((∃ c ∈ q.checkpoint, c.1 ≤ p) ∨ (q.checkpoint = none ∧ q.cliff = none)))

instance (q : Schedule) (max now : Int) : (m : Move) → Decidable (q.Guarded max now m)
  | .extend x =>
      inferInstanceAs (Decidable (q.pausedAt = none → ∀ e ∈ q.stop, q.Within max q.anchor (e + x)))
  | .setCliff c u => inferInstanceAs (Decidable
      (q.checkpoint = none → ∀ e ∈ q.stop, q.Within max (c, u) (q.pausedAt.getD e)))
  | .resume => inferInstanceAs (Decidable (∀ p ∈ q.pausedAt, ∀ e ∈ q.stop,
      (q.AnchorShifts p → q.Within max q.anchor e) ∧
      (¬ q.AnchorShifts p → q.Within max q.anchor (e + (now - p)))))
  | .pause | .changeRate _ | .idle => inferInstanceAs (Decidable True)

theorem valueAt_le_iff (hmax : 0 ≤ max) {x : Int} :
    q.valueAt x ≤ max ↔ q.Within max q.anchor x := by
  unfold valueAt Within
  split
  · rename_i h
    exact ⟨fun _ hle => absurd h (not_lt.mpr hle), fun _ => hmax⟩
  · rename_i h
    exact ⟨fun hv _ => hv, fun hv => hv (not_lt.mp h)⟩

theorem Fits.value_le {e : Int} (hf : q.Fits max) (hmax : 0 ≤ max) (hq : q.Valid now)
    (he : q.stop = some e) (t : Int) : q.value t ≤ max := by
  unfold value
  split
  · exact hmax
  · refine le_trans (hq.valueAt_mono ?_) (hf e he)
    unfold effective clamp
    rw [he]
    cases q.pausedAt with
    | none => exact min_le_right t e
    | some p => exact min_le_left p e

/-! ### The check is enough -/

theorem fits_shift {p d : Int} (hmax : 0 ≤ max)
    (hshift : q.AnchorShifts p → ∀ e ∈ q.stop, q.Within max q.anchor e)
    (hstay : ¬ q.AnchorShifts p → ∀ e ∈ q.stop, q.Within max q.anchor (e + d)) :
    (q.shift p d).Fits max := by
  intro e' he'
  obtain ⟨e, he, rfl⟩ := Option.mem_map.mp he'
  show (q.shift p d).valueAt (e + d) ≤ max
  rw [valueAt_le_iff hmax]
  by_cases hsh : q.AnchorShifts p
  · rw [anchor_shift hsh]
    intro hle
    have hsub : e + d - (q.anchor.1 + d) = e - q.anchor.1 := by omega
    show q.anchor.2 + q.rate * (e + d - (q.anchor.1 + d)) ≤ max
    rw [hsub]
    exact hshift hsh e he (by dsimp only at hle; omega)
  · rw [anchor_shift_of_not hsh]
    exact hstay hsh e he

/-- A rate change runs the check itself, where the new checkpoint lies before the stop. -/
theorem fits_changeRate {r : Int} (hmax : 0 ≤ max) (hq : q.Valid now)
    (hcliff : ∀ c ∈ q.cliff, c.2 ≤ max) (ha : q.Allows max now (.changeRate r)) :
    (q.move now (.changeRate r)).Fits max := by
  obtain ⟨hr, -, hval, hob⟩ := ha
  intro e he
  have he : e ∈ q.stop := he
  show (q.move now (.changeRate r)).valueAt (q.pausedAt.getD e) ≤ max
  rw [valueAt_le_iff hmax]
  show (q.checkpointFor now).1 ≤ q.pausedAt.getD e →
    (q.checkpointFor now).2 + r * (q.pausedAt.getD e - (q.checkpointFor now).1) ≤ max
  intro hle
  -- the amount the new checkpoint starts from
  have hbase : (q.checkpointFor now).2 ≤ max := by
    unfold checkpointFor
    dsimp only
    cases hk : q.cliff with
    | some c =>
        dsimp only
        split
        · exact hcliff c hk
        · exact hval
    | none =>
        dsimp only
        split
        · exact hmax
        · exact hval
  by_cases hat : q.pausedAt.getD e = (q.checkpointFor now).1
  · rw [hat, sub_self, mul_zero, add_zero]
    exact hbase
  · have hstop : q.pausedAt.getD e ≤ e := by
      cases hp : q.pausedAt with
      | none => exact le_refl e
      | some p => exact hq.paused_le_stop p hp e he
    have hcheck := hob e he (by omega)
    have hmono : r * (q.pausedAt.getD e - (q.checkpointFor now).1) ≤
        r * (e - (q.checkpointFor now).1) := mul_le_mul_of_nonneg_left (by omega) hr.le
    omega

theorem fits_move {m : Move} (hmax : 0 ≤ max) (hq : q.Valid now)
    (hcliff : ∀ c ∈ q.cliff, c.2 ≤ max) (ha : q.Allows max now m) (hf : q.Fits max)
    (hg : q.Guarded max now m) : (q.move now m).Fits max := by
  cases m with
  | pause =>
      obtain ⟨hp, hs, hend, hval⟩ := ha
      intro e he
      show q.valueAt now ≤ max
      rw [value_of_start_le hs, effective_running hp, clamp_of_le hend] at hval
      exact hval
  | resume =>
      obtain ⟨p, hp, -⟩ := ha
      have hmove : q.move now .resume = q.shift p (now - p) := by
        rw [move, Option.mem_def.mp hp]; rfl
      rw [hmove]
      exact fits_shift hmax (fun hsh e he => (hg p hp e he).1 hsh)
        fun hsh e he => (hg p hp e he).2 hsh
  | changeRate r => exact fits_changeRate hmax hq hcliff ha
  | extend x =>
      intro e' he'
      obtain ⟨e, he, rfl⟩ := Option.mem_map.mp he'
      show q.valueAt (q.pausedAt.getD (e + x)) ≤ max
      cases hp : q.pausedAt with
      | none => exact (valueAt_le_iff hmax).mpr (hg hp e he)
      | some p =>
          have := hf e he
          rw [hp] at this
          exact this
  | setCliff c u =>
      intro e he
      have he : e ∈ q.stop := he
      show (q.move now (.setCliff c u)).valueAt (q.pausedAt.getD e) ≤ max
      rw [valueAt_le_iff hmax]
      cases hk : q.checkpoint with
      | none =>
          have hanchor : (q.move now (.setCliff c u)).anchor = (c, u) := by
            show (q.checkpoint.or _).getD _ = _
            rw [hk]; rfl
          rw [hanchor]
          exact hg hk e he
      | some k =>
          -- the checkpoint overrides the cliff
          have hanchor : (q.move now (.setCliff c u)).anchor = q.anchor := by
            show (q.checkpoint.or _).getD _ = (q.checkpoint.or _).getD _
            rw [hk]; rfl
          rw [hanchor]
          exact (valueAt_le_iff hmax).mp (hf e he)
  | idle => exact hf

end Schedule

/-! ### Runs -/

variable {here : Address} {args : InitArgs} {m m' m₀ : Moment} {a : Action} {as : List Action}
variable {env : Env} {info : StreamInfo}

/-- A step whose move passes the obligation check. -/
def GuardedStep (here : Address) (m : Moment) (a : Action) (m' : Moment) : Prop :=
  Step here m a m' ∧ ∀ env c info, a = .call env c → m.state.store.config = some info →
    (scheduleOf info m.state.store).Guarded i128Max env.timestamp.val c.move

theorem unlock_le (info : StreamInfo) (st : Storage) :
    ∀ c ∈ (scheduleOf info st).cliff, c.2 ≤ i128Max := by
  intro c hc
  obtain ⟨k, -, rfl⟩ := Option.mem_map.mp hc
  exact k.cliffUnlockAmount.le

theorem fits_of_born (h : Born here args m) :
    (scheduleOf (initialInfo args) m.state.store).Fits i128Max := by
  obtain ⟨env, -, hc⟩ := h.created
  intro e he
  obtain ⟨hpos, rfl⟩ := mem_stop.mp he
  rw [Schedule.valueAt_le_iff (by decide), hc.schedule]
  intro _
  show 0 + args.ratePerSecond.val * (args.endTime.val - args.startTime.val) ≤ i128Max
  rw [zero_add]
  exact hc.obligation hpos

theorem fits_of_guarded_run (hborn : Born here args m₀) (hrun : Run (GuardedStep here) m₀ as m) :
    ∃ info, Sound here m.state info m.clock.val ∧
      (scheduleOf info m.state.store).Fits i128Max := by
  refine Sound.along (P := fun info m => (scheduleOf info m.state.store).Fits i128Max)
    (fun h => h.1) ?_ (fun _ _ _ hf => hf) hrun (sound_of_born hborn) (fits_of_born hborn)
  intro m info env c s' info' kept _ ⟨_, hguard⟩ hc hf
  dsimp only
  rw [hc.effect.schedule]
  exact Schedule.fits_move (by decide) hc.sound.valid (unlock_le info _) hc.effect.schedule_allows
    hf (hguard env c info rfl hc.before.config)

/-- The amounts of a settlement fit once the streamed amount does. -/
theorem settlement_fits {v balance : I128} (hv : 0 ≤ v.val) (hw : 0 ≤ info.withdrawn.val) :
    ∃ owed paid, v.checkedSub info.withdrawn = some owed ∧
      info.withdrawn.checkedAdd (min (max owed (.lit 0)) balance) = some paid := by
  have hvm := v.le
  have hwm := info.withdrawn.le
  have hbm := balance.ge
  obtain ⟨owed, howed⟩ : ∃ owed : I128, owed.val = v.val - info.withdrawn.val :=
    ⟨⟨v.val - info.withdrawn.val, by omega, by omega⟩, rfl⟩
  have hpaid : (min (max owed (.lit 0)) balance).val =
      min (max (v.val - info.withdrawn.val) 0) balance.val := by
    rw [Ranged.val_min, Ranged.val_max, howed]
  refine ⟨owed, ⟨info.withdrawn.val + min (max (v.val - info.withdrawn.val) 0) balance.val, by omega,
    by omega⟩, Ranged.checkedSub_eq_some.mpr howed, Ranged.checkedAdd_eq_some.mpr ?_⟩
  rw [hpaid]

/-- **Settlement stays computable under the check.**  In every bounded state that a run of guarded
moves reaches, and at every later time, `streamed_amount` returns, and so do the checked operations
by which `cancel` and `force_cancel` settle. -/
theorem settlement_of_guarded_run (hborn : Born here args m₀)
    (hrun : Run (GuardedStep here) m₀ as m) :
    ∃ info, m.state.store.config = some info ∧ (0 < info.endTime.val →
      ∀ env : Env, m.clock.val ≤ env.timestamp.val →
        ∃ v, streamedAmount env m.state info = .ok v ∧
          ∃ owed paid, v.checkedSub info.withdrawn = some owed ∧
            info.withdrawn.checkedAdd (min (max owed (.lit 0)) (m.state.balance info.token here)) =
              some paid) := by
  obtain ⟨info, hs, hf⟩ := fits_of_guarded_run hborn hrun
  refine ⟨info, hs.config, fun hpos env hclock => ?_⟩
  have hstop : (scheduleOf info m.state.store).stop = some info.endTime.val :=
    stop_eq_some.mpr ⟨hpos, rfl⟩
  have hle := hf.value_le (by decide) hs.valid hstop env.timestamp.val
  have hnonneg := hs.valid.value_nonneg env.timestamp.val
  obtain ⟨v, hv⟩ : ∃ v : I128, v.val = (scheduleOf info m.state.store).value env.timestamp.val :=
    ⟨⟨_, le_trans (by decide) hnonneg, hle⟩, rfl⟩
  refine ⟨v, ?_, settlement_fits (by rw [hv]; exact hnonneg) hs.withdrawn_nonneg⟩
  rw [streamedAmount_eq hs.valid, asI128_eq_ok]
  exact hv

/-- The sample stream, extended by ten seconds. -/
def Sample.extended : Moment :=
  next (born Sample.args) (.lit 200) (.topUpAndExtend sender (.lit 100) (.lit 10))

theorem settlement_of_guarded_run_extended :
    ∃ info, Sample.extended.state.store.config = some info ∧ (0 < info.endTime.val →
      ∀ env : Env, Sample.extended.clock.val ≤ env.timestamp.val →
        ∃ v, streamedAmount env Sample.extended.state info = .ok v ∧
          ∃ owed paid, v.checkedSub info.withdrawn = some owed ∧
            info.withdrawn.checkedAdd (min (max owed (.lit 0))
              (Sample.extended.state.balance info.token Sample.address)) = some paid) := by
  have hborn : Born Sample.address Sample.args (Sample.born Sample.args) :=
    Sample.born_of_initialize (by decide +kernel)
  have hstep : Step Sample.address (Sample.born Sample.args) _ Sample.extended :=
    Sample.step_next (by decide +kernel) (by decide +kernel)
  refine settlement_of_guarded_run hborn (Run.snoc (.nil _) ⟨hstep, ?_⟩)
  rintro env c info ⟨⟩ hi
  have hinfo : (Sample.born Sample.args).state.store.config = some (initialInfo Sample.args) := by
    decide +kernel
  obtain rfl : initialInfo Sample.args = info := Option.some.inj (hinfo.symm.trans hi)
  decide +kernel

/-- A stream whose obligation is just below `i128::MAX`, extended by ten seconds for one token. -/
def Sample.overfull : Moment :=
  reached { Sample.args with ratePerSecond := .lit 170141183460469231731687303715884105 }
    [(.lit 200, .topUpAndExtend sender (.lit 1) (.lit 10))]

/-- From 1101 on the value of the stream is past `i128::MAX`; nothing can settle it any more. -/
theorem extension_locks_settlement :
    Reachable Sample.address Sample.overfull ∧
      ∃ info, Sample.overfull.state.store.config = some info ∧ 0 < info.endTime.val ∧
        streamedAmount (Sample.envAt (.lit 1105)) Sample.overfull.state info =
          .error (err .arithmeticOverflow) :=
  ⟨Sample.reachable_reached (by decide +kernel) (by decide +kernel),
    Sample.infoOf Sample.overfull.state, by decide +kernel, by decide +kernel, by decide +kernel⟩

end Drip.Stream
