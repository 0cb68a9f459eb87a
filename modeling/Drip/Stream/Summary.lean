import Drip.Stream.Overflow
import Drip.Stream.Views

/-!
# Stream — Summary

When `get_summary` can be relied on.  It takes the present rate over the whole duration for the total,
in arithmetic that traps, while the streamed amount follows the checkpoint and the cliff.

* `Schedule.Straight`: the schedule accrues as if its rate had been paid since its start.
* `reliable_iff`: from a given state on, `get_summary` returns, and its two amounts agree, exactly where
  the total fits and the schedule is straight (`Summable`).
* `Schedule.Steady`: the check that a move of the schedule would need to keep it straight.
* `reliable_of_stream`: both, for every reachable state and for every run.
-/

namespace Drip.Stream
open Chain

/-! ### Straight schedules -/

namespace Schedule

variable {q : Schedule} {now max e : Int}

/-- The present rate over the whole duration. -/
def nominal (q : Schedule) (e : Int) : Int := q.rate * (e - q.start)

/-- The anchor lies on the line from the start at the present rate, and not past the stop `e`. -/
def Straight (q : Schedule) (e : Int) : Prop :=
  q.anchor.1 ≤ e ∧ q.anchor.2 = q.rate * (q.anchor.1 - q.start)

theorem Valid.nominal_pos (hq : q.Valid now) (he : q.stop = some e) : 0 < q.nominal e :=
  mul_pos hq.rate_pos (sub_pos.mpr (hq.start_lt e he))

/-- A straight schedule comes to its nominal total, and no other does. -/
theorem Valid.valueAt_eq_nominal (hq : q.Valid now) (he : q.stop = some e) :
    q.valueAt e = q.nominal e ↔ q.Straight e := by
  have hpos := hq.nominal_pos he
  unfold valueAt Straight
  split
  · rename_i h
    exact ⟨fun heq => by omega, fun hs => absurd hs.1 (not_le.mpr h)⟩
  · rename_i h
    have hsplit : q.nominal e = q.rate * (q.anchor.1 - q.start) + q.rate * (e - q.anchor.1) := by
      unfold nominal
      ring
    rw [hsplit, add_left_inj]
    exact ⟨fun heq => ⟨not_lt.mp h, heq⟩, fun hs => hs.2⟩

theorem Valid.value_ended (hq : q.Valid now) (he : q.stop = some e) (hp : q.pausedAt = none) {t : Int}
    (ht : e ≤ t) : q.value t = q.valueAt e := by
  have hlt := hq.start_lt e he
  rw [value_of_start_le (by omega), effective_running hp, clamp, he]
  exact congrArg q.valueAt (min_eq_right ht)

theorem Straight.value_le (h : q.Straight e) (hq : q.Valid now) (he : q.stop = some e)
    (hp : q.pausedAt = none) (t : Int) : q.value t ≤ q.nominal e := by
  rw [← (hq.valueAt_eq_nominal he).mpr h, ← hq.value_ended he hp (le_max_right t e)]
  exact hq.value_mono (le_max_left t e)

/-- What a move has to meet for the schedule to stay straight, and its total below `max`. -/
def Steady (q : Schedule) (max now : Int) : Move → Prop
  | .extend x => ∀ e ∈ q.stop, q.nominal (e + x) ≤ max
  | .setCliff c u => q.checkpoint = none → q.stop.isSome → u = q.rate * (c - q.start)
  | .resume => ∀ p ∈ q.pausedAt, ¬ q.AnchorShifts p → q.stop.isSome →
      q.anchor.2 = q.rate * (q.anchor.1 - (q.start + (now - p)))
  | .changeRate r => ∀ e ∈ q.stop, r * (e - q.start) ≤ max ∧ (q.checkpointFor now).1 ≤ e ∧
      (q.checkpointFor now).2 = r * ((q.checkpointFor now).1 - q.start)
  | .pause | .idle => True

/-- The schedule is straight and its total fits. -/
def Even (q : Schedule) (max : Int) : Prop := ∀ e ∈ q.stop, q.nominal e ≤ max ∧ q.Straight e

theorem even_shift {p : Int} (hq : q.Valid now) (hp : q.pausedAt = some p) (h : q.Even max)
    (hstay : ¬ q.AnchorShifts p → q.stop.isSome →
      q.anchor.2 = q.rate * (q.anchor.1 - (q.start + (now - p)))) :
    (q.shift p (now - p)).Even max := by
  have hle := hq.paused_le_now p hp
  intro e' he'
  obtain ⟨e, he, rfl⟩ := Option.mem_map.mp he'
  obtain ⟨hfits, hstop, hbase⟩ := h e he
  have hnominal : (q.shift p (now - p)).nominal (e + (now - p)) = q.nominal e := by
    show q.rate * (e + (now - p) - (q.start + (now - p))) = q.rate * (e - q.start)
    congr 1
    omega
  refine ⟨by rw [hnominal]; exact hfits, ?_⟩
  unfold Straight
  by_cases hsh : q.AnchorShifts p
  · rw [anchor_shift hsh]
    refine ⟨by dsimp only; omega, hbase.trans ?_⟩
    show q.rate * _ = q.rate * (q.anchor.1 + (now - p) - (q.start + (now - p)))
    congr 1
    omega
  · rw [anchor_shift_of_not hsh]
    exact ⟨by omega, hstay hsh (Option.isSome_of_mem he)⟩

theorem even_move {m : Move} (hq : q.Valid now) (ha : q.Allows max now m) (h : q.Even max)
    (hg : q.Steady max now m) : (q.move now m).Even max := by
  cases m with
  | pause => exact h
  | resume =>
      obtain ⟨p, hp, -⟩ := ha
      have hmove : q.move now .resume = q.shift p (now - p) := by
        rw [move, Option.mem_def.mp hp]; rfl
      rw [hmove]
      exact even_shift hq hp h (hg p hp)
  | changeRate r => exact hg
  | extend x =>
      have hx := ha.1
      intro e' he'
      obtain ⟨e, he, rfl⟩ := Option.mem_map.mp he'
      obtain ⟨-, hstop, hbase⟩ := h e he
      exact ⟨hg e he, by show q.anchor.1 ≤ _; omega, hbase⟩
  | setCliff c u =>
      intro e he
      have he : e ∈ q.stop := he
      obtain ⟨hfits, hs⟩ := h e he
      refine ⟨hfits, ?_⟩
      cases hk : q.checkpoint with
      | none =>
          have hanchor : (q.move now (.setCliff c u)).anchor = (c, u) := by
            show (q.checkpoint.or _).getD _ = _
            rw [hk]; rfl
          unfold Straight
          rw [hanchor]
          exact ⟨ha.2.2 e he, hg hk (Option.isSome_of_mem he)⟩
      | some k =>
          -- the checkpoint overrides the cliff
          have hanchor : (q.move now (.setCliff c u)).anchor = q.anchor := by
            show (q.checkpoint.or _).getD _ = (q.checkpoint.or _).getD _
            rw [hk]; rfl
          unfold Straight
          rw [hanchor]
          exact hs
  | idle => exact h

theorem stop_move (m : Move) : (q.move now m).stop = none ↔ q.stop = none := by
  cases m with
  | resume =>
      cases hp : q.pausedAt with
      | none => simp only [move, hp, Option.elim]
      | some p => simp only [move, hp, Option.elim, shift, Option.map_eq_none_iff]
  | extend x => exact Option.map_eq_none_iff
  | _ => exact Iff.rfl

end Schedule

/-! ### What the summary says -/

variable {env : Env} {here : Address} {args : InitArgs} {m m' m₀ : Moment} {a : Action}
variable {as : List Action} {s : State} {info : StreamInfo} {now : Int}

/-- The total of the summary, without its bounds. -/
def summaryTotal (here : Address) (s : State) (info : StreamInfo) : Int :=
  match (scheduleOf info s.store).stop with
  | some e => (scheduleOf info s.store).nominal e
  | none => (s.tokens.balance info.token here).val + info.withdrawn.val

theorem summaryTotal_bounded {e : Int} (he : (scheduleOf info s.store).stop = some e) :
    summaryTotal here s info = (scheduleOf info s.store).nominal e := by
  rw [summaryTotal, he]

theorem summaryTotal_open (he : (scheduleOf info s.store).stop = none) :
    summaryTotal here s info = (s.tokens.balance info.token here).val + info.withdrawn.val := by
  rw [summaryTotal, he]

/-- The streamed amount of the summary: `0` for a cancelled stream, and where it overflows. -/
def summaryStreamed (s : State) (info : StreamInfo) (now : Int) : Int :=
  if info.isCancelled ∨ i128Max < (scheduleOf info s.store).value now then 0
  else (scheduleOf info s.store).value now

theorem totalAmount_eq_ok (hs : Sound env.contract s info now) {v : I128} :
    totalAmount env s info = .ok v ↔ v.val = summaryTotal env.contract s info := by
  unfold totalAmount summaryTotal
  cases he : (scheduleOf info s.store).stop with
  | none =>
      have hopen : info.endTime.val = 0 := by
        by_contra hne
        have := info.endTime.ge
        rw [(stop_eq_some (e := info.endTime.val)).mpr ⟨by omega, rfl⟩] at he
        cases he
      have := info.startTime.ge
      rw [if_neg (by rw [Ranged.lt_def]; omega), okOr_eq_ok, Ranged.checkedAdd_eq_some]
      rfl
  | some e =>
      have hlt := hs.valid.start_lt e he
      obtain ⟨-, rfl⟩ := stop_eq_some.mp he
      rw [if_pos (Ranged.lt_def.mpr hlt)]
      simp only [bind_eq_ok, okOr_eq_ok, Ranged.checkedSub_eq_some, Ranged.checkedMul_eq_some,
        Ranged.val_widen]
      constructor
      · rintro ⟨d, hd, hv⟩
        rw [hv, hd]
        exact mul_comm _ _
      · intro hv
        have hlt : info.startTime.val < info.endTime.val := hlt
        have hstart := info.startTime.ge
        have hend := info.endTime.le
        refine ⟨⟨info.endTime.val - info.startTime.val, by omega, by omega⟩, rfl, hv.trans ?_⟩
        exact mul_comm _ _

theorem unwrapOrZero_asI128 {v : Int} (hv : 0 ≤ v) {r : I128} :
    unwrapOrZero (asI128 v) = .ok r ↔ r.val = if i128Max < v then 0 else v := by
  split
  · rename_i h
    rw [(asI128_eq_error hv).mpr h]
    exact ⟨fun h => by cases h; rfl, fun h => congrArg Except.ok (Ranged.ext h.symm)⟩
  · rename_i h
    obtain ⟨w, hw⟩ : ∃ w : I128, w.val = v := ⟨⟨v, le_trans (by decide) hv, not_lt.mp h⟩, rfl⟩
    rw [asI128_eq_ok.mpr hw]
    exact ⟨fun h => by cases h; exact hw, fun h => congrArg Except.ok (Ranged.ext (hw.trans h.symm))⟩

theorem streamed_eq_ok (hs : Sound here s info now) {v : I128} :
    unwrapOrZero (streamedTotal env s) = .ok v ↔ v.val = summaryStreamed s info env.timestamp.val := by
  unfold streamedTotal summaryStreamed
  rw [bind_of_ok (load_eq_ok.mpr hs.config)]
  cases hx : info.isCancelled with
  | true =>
      simp only [if_true, true_or]
      exact ⟨fun h => by cases h; rfl, fun h => congrArg Except.ok (Ranged.ext h.symm)⟩
  | false =>
      simp only [Bool.false_eq_true, if_false, false_or]
      rw [streamedAmount_eq hs.valid]
      exact unwrapOrZero_asI128 (hs.valid.value_nonneg _)

theorem getSummary_eq_ok (hs : Sound env.contract s info now) {r : StreamSummary} :
    getSummary env s = .ok r ↔ r.totalAmount.val = summaryTotal env.contract s info ∧
      r.streamedAmount.val = summaryStreamed s info env.timestamp.val ∧
      r = { sender := info.sender, recipient := info.recipient, token := info.token
            totalAmount := r.totalAmount, streamedAmount := r.streamedAmount
            status := statusAt env.timestamp info
            startTime := info.startTime, stopTime := info.endTime } := by
  unfold getSummary
  rw [bind_of_ok (load_eq_ok.mpr hs.config)]
  simp only [bind_eq_ok, streamed_eq_ok hs, totalAmount_eq_ok hs, pure_eq_ok]
  constructor
  · rintro ⟨v, hv, t, ht, rfl⟩
    exact ⟨ht, hv, rfl⟩
  · rintro ⟨ht, hv, hr⟩
    exact ⟨_, hv, _, ht, hr.symm⟩

/-! ### When it can be relied on -/

/-- `get_summary` returns, and where the stream is bounded and not cancelled, the streamed amount does
not pass the total, and equals it once the stream has ended unpaused. -/
def Reliable (env : Env) (s : State) (info : StreamInfo) : Prop :=
  ∃ r, getSummary env s = .ok r ∧ (info.isCancelled = false → 0 < info.endTime.val →
    r.streamedAmount ≤ r.totalAmount ∧ (info.endTime ≤ env.timestamp → info.isPaused = false →
      r.streamedAmount = r.totalAmount))

/-- The total fits, and the schedule of a stream that is not cancelled is straight; while it is paused, it
is enough that the value at the pause is not past the total. -/
structure Summable (here : Address) (s : State) (info : StreamInfo) : Prop where
  held : (scheduleOf info s.store).stop = none →
    (s.tokens.balance info.token here).val + info.withdrawn.val ≤ i128Max
  total : ∀ e ∈ (scheduleOf info s.store).stop, (scheduleOf info s.store).nominal e ≤ i128Max
  running : info.isCancelled = false → info.isPaused = false →
    ∀ e ∈ (scheduleOf info s.store).stop, (scheduleOf info s.store).Straight e
  paused : info.isCancelled = false → info.isPaused = true →
    ∀ e ∈ (scheduleOf info s.store).stop,
      (scheduleOf info s.store).valueAt info.pausedAt.val ≤ (scheduleOf info s.store).nominal e ∨
        i128Max < (scheduleOf info s.store).valueAt info.pausedAt.val

/-- An invocation at `t` that nobody has signed. -/
def unsigned (here : Address) (t : U64) : Env := ⟨here, t, .lit 0, fun _ => false, rfl⟩

theorem summaryTotal_nonneg (hs : Sound here s info now) : 0 ≤ summaryTotal here s info := by
  unfold summaryTotal
  cases he : (scheduleOf info s.store).stop with
  | none =>
      have := (s.tokens.balance info.token here).ge
      have := hs.withdrawn_nonneg
      dsimp only
      omega
  | some e => exact (hs.valid.nominal_pos he).le

theorem exists_summary (hs : Sound env.contract s info now)
    (hfits : summaryTotal env.contract s info ≤ i128Max) :
    ∃ r, getSummary env s = .ok r ∧ r.totalAmount.val = summaryTotal env.contract s info ∧
      r.streamedAmount.val = summaryStreamed s info env.timestamp.val := by
  have hstreamed : 0 ≤ summaryStreamed s info env.timestamp.val ∧
      summaryStreamed s info env.timestamp.val ≤ i128Max := by
    have := hs.valid.value_nonneg env.timestamp.val
    unfold summaryStreamed
    split
    · exact ⟨le_rfl, by decide⟩
    · rename_i h
      exact ⟨this, not_lt.mp fun hlt => h (.inr hlt)⟩
  let t : I128 := ⟨_, le_trans (by decide) (summaryTotal_nonneg hs), hfits⟩
  let v : I128 := ⟨_, le_trans (by decide) hstreamed.1, hstreamed.2⟩
  refine ⟨⟨info.sender, info.recipient, info.token, t, v, statusAt env.timestamp info, info.startTime,
    info.endTime⟩, (getSummary_eq_ok hs).mpr ⟨rfl, rfl, rfl⟩, rfl, rfl⟩

theorem reliable_of_summable (hs : Sound env.contract s info env.timestamp.val)
    (h : Summable env.contract s info) : Reliable env s info := by
  have hfits : summaryTotal env.contract s info ≤ i128Max := by
    cases he : (scheduleOf info s.store).stop with
    | none => exact (summaryTotal_open he).le.trans (h.held he)
    | some e => exact (summaryTotal_bounded he).le.trans (h.total e he)
  obtain ⟨r, hr, ht, hv⟩ := exists_summary hs hfits
  refine ⟨r, hr, fun hx hpos => ?_⟩
  have he : (scheduleOf info s.store).stop = some info.endTime.val := stop_eq_some.mpr ⟨hpos, rfl⟩
  have ht : r.totalAmount.val = (scheduleOf info s.store).nominal info.endTime.val := by
    rw [ht, summaryTotal_bounded he]
  have hnn := hs.valid.nominal_pos he
  unfold summaryStreamed at hv
  rw [hx] at hv
  simp only [Bool.false_eq_true, false_or] at hv
  cases hp : info.isPaused with
  | true =>
      refine ⟨?_, fun _ h => by cases h⟩
      have hval := Schedule.value_paused hs.valid (pausedAt_eq_some.mpr ⟨hp, rfl⟩)
      rw [hval] at hv
      rw [Ranged.le_def, ht, hv]
      have := h.paused hx hp _ he
      split <;> omega
  | false =>
      have hstraight := h.running hx hp _ he
      have hle := hstraight.value_le hs.valid he (pausedAt_eq_none.mpr hp) env.timestamp.val
      have htotal := h.total _ he
      rw [if_neg (by omega)] at hv
      refine ⟨by rw [Ranged.le_def]; omega, fun hend _ => Ranged.ext ?_⟩
      rw [hv, ht, hs.valid.value_ended he (pausedAt_eq_none.mpr hp) hend,
        (hs.valid.valueAt_eq_nominal he).mpr hstraight]

/-- From `now` on. -/
def ReliableFrom (here : Address) (s : State) (info : StreamInfo) (now : Int) : Prop :=
  ∀ env : Env, env.contract = here → now ≤ env.timestamp.val → Reliable env s info

theorem summable_of_reliable {clock : U64} (hs : Sound here s info clock.val)
    (h : ReliableFrom here s info clock.val) : Summable here s info := by
  have hsummary : ∀ t : U64, clock.val ≤ t.val → ∃ total streamed : I128,
      total.val = summaryTotal here s info ∧ streamed.val = summaryStreamed s info t.val ∧
      (info.isCancelled = false → 0 < info.endTime.val → streamed.val ≤ total.val ∧
        (info.endTime ≤ t → info.isPaused = false → streamed.val = total.val)) := by
    intro t ht
    obtain ⟨r, hr, hagree⟩ := h (unsigned here t) rfl ht
    have hspec : getSummary (unsigned here t) s = .ok r ↔ _ := getSummary_eq_ok hs
    obtain ⟨htotal, hstreamed, -⟩ := hspec.mp hr
    refine ⟨_, _, htotal, hstreamed, fun hx hpos => ?_⟩
    obtain ⟨hle, heq⟩ := hagree hx hpos
    exact ⟨hle, fun hend hp => congrArg Ranged.val (heq hend hp)⟩
  refine ⟨fun he => ?_, fun e he => ?_, fun hx hp e he => ?_, fun hx hp e he => ?_⟩
  · obtain ⟨total, -, ht, -⟩ := hsummary clock le_rfl
    rw [← summaryTotal_open he, ← ht]
    exact total.le
  · obtain ⟨total, -, ht, -⟩ := hsummary clock le_rfl
    rw [← summaryTotal_bounded he, ← ht]
    exact total.le
  · -- seen once the stream has ended
    obtain ⟨hpos, hend⟩ := mem_stop.mp he
    obtain ⟨total, streamed, ht, hv, hagree⟩ := hsummary (max clock info.endTime) (by
      rw [Ranged.val_max]
      exact le_max_left _ _)
    have hafter : info.endTime ≤ max clock info.endTime := by
      rw [Ranged.le_def, Ranged.val_max]
      exact le_max_right _ _
    have heq := (hagree hx hpos).2 hafter hp
    have hnn := hs.valid.nominal_pos he
    rw [summaryTotal_bounded he] at ht
    rw [heq, summaryStreamed, hx, hs.valid.value_ended he (pausedAt_eq_none.mpr hp) (by
      rw [← hend]
      exact hafter)] at hv
    simp only [Bool.false_eq_true, false_or] at hv
    refine (hs.valid.valueAt_eq_nominal he).mp ?_
    split at hv <;> omega
  · obtain ⟨hpos, -⟩ := mem_stop.mp he
    obtain ⟨total, streamed, ht, hv, hagree⟩ := hsummary clock le_rfl
    have hle := (hagree hx hpos).1
    rw [summaryTotal_bounded he] at ht
    rw [summaryStreamed, hx, Schedule.value_paused hs.valid (pausedAt_eq_some.mpr ⟨hp, rfl⟩)] at hv
    simp only [Bool.false_eq_true, false_or] at hv
    split at hv <;> omega

theorem reliable_iff {clock : U64} (hs : Sound here s info clock.val) :
    ReliableFrom here s info clock.val ↔ Summable here s info := by
  refine ⟨summable_of_reliable hs, fun h env henv hclock => ?_⟩
  subst henv
  exact reliable_of_summable (hs.wait hclock) h

/-! ### Runs -/

/-- The calls that pay the recipient. -/
def Call.pays : Call → Bool
  | .withdraw _ | .cancel _ | .forceCancel => true
  | _ => false

/-- What an operation brings in. -/
def Op.inflow : Op → Int
  | .withdraw _ kept | .settle kept => kept
  | .clawback => 0
  | .adjust deposit _ => deposit

theorem Escrow.held_apply {e : Escrow} {op : Op} : (e.apply now op).balance +
    (e.apply now op).withdrawn ≤ e.balance + e.withdrawn + op.inflow := by
  cases op with
  | withdraw amount kept =>
      show e.balance - e.payout now amount + kept + (e.withdrawn + e.payout now amount) ≤
        e.balance + e.withdrawn + kept
      omega
  | settle kept =>
      have hshare : e.share now ≤ e.balance := min_le_right _ _
      show kept + (e.withdrawn + e.share now) ≤ e.balance + e.withdrawn + kept
      omega
  | clawback =>
      have hsurplus : 0 ≤ e.surplus now := le_max_right _ _
      show e.balance - e.surplus now + e.withdrawn ≤ e.balance + e.withdrawn + 0
      omega
  | adjust deposit m =>
      show e.balance + deposit + e.withdrawn ≤ e.balance + e.withdrawn + deposit
      omega

/-- What the contract of an open-ended stream may bring in. -/
def Call.Admits (here : Address) (s : State) (info : StreamInfo) (c : Call) : Prop :=
  (s.tokens.balance info.token here).val + info.withdrawn.val +
      (c.op info.ratePerSecond.val 0).inflow ≤ i128Max ∧
    (c.pays = true → ∀ a ∈ payees s info, a ≠ here)

/-- A step that keeps the summary reliable: a bounded schedule stays straight and its total fits, and what
an open-ended stream holds and has paid out stays countable. -/
structure SteadyStep (here : Address) (m : Moment) (a : Action) (m' : Moment) : Prop where
  step : Step here m a m'
  steady : ∀ env c info, a = .call env c → m.state.store.config = some info →
    (scheduleOf info m.state.store).Steady i128Max env.timestamp.val c.move
  admits : ∀ env c info, a = .call env c → m.state.store.config = some info →
    (scheduleOf info m.state.store).stop = none → c.Admits here m.state info
  outside : ∀ tokens info, a = .outside tokens → m.state.store.config = some info →
    (scheduleOf info m.state.store).stop = none →
      (tokens.balance info.token here).val + info.withdrawn.val ≤ i128Max

/-- What steady steps keep. -/
structure EvenState (here : Address) (info : StreamInfo) (m : Moment) : Prop where
  even : (scheduleOf info m.state.store).Even i128Max
  held : (scheduleOf info m.state.store).stop = none →
    (m.state.tokens.balance info.token here).val + info.withdrawn.val ≤ i128Max

theorem EvenState.summable (h : EvenState here info m) (hs : Sound here m.state info now) :
    Summable here m.state info := by
  refine ⟨h.held, fun e he => (h.even e he).1, fun _ _ e he => (h.even e he).2, fun _ hp e he => ?_⟩
  obtain ⟨-, hstraight⟩ := h.even e he
  rw [← (hs.valid.valueAt_eq_nominal he).mpr hstraight]
  exact .inl (hs.valid.valueAt_mono (hs.valid.paused_le_stop _ (pausedAt_eq_some.mpr ⟨hp, rfl⟩) e he))

theorem evenState_of_born (h : Born here args m) : EvenState here (initialInfo args) m := by
  obtain ⟨env, -, hc⟩ := h.created
  have hstart := hc.schedule
  refine ⟨fun e he => ?_, fun _ => ?_⟩
  · obtain ⟨hpos, rfl⟩ := mem_stop.mp he
    have hlt := hc.start_lt hpos
    rw [hstart]
    refine ⟨hc.obligation hpos, hlt.le, ?_⟩
    show (0 : Int) = _ * (args.startTime.val - args.startTime.val)
    rw [sub_self, mul_zero]
  · have := (m.state.tokens.balance (initialInfo args).token here).le
    show _ + 0 ≤ i128Max
    omega

theorem Effect.held_le {c : Call} {s' : State} {info' : StreamInfo} {kept : Int}
    (h : Effect env s info c s' info' kept) (ha : c.Admits env.contract s info) :
    (s'.tokens.balance info'.token env.contract).val + info'.withdrawn.val ≤ i128Max := by
  obtain ⟨hfits, hpayees⟩ := ha
  have hop : c.op info.ratePerSecond.val kept = c.op info.ratePerSecond.val 0 := by
    cases hp : c.pays with
    | true => rw [h.kept_eq_zero (hpayees hp)]
    | false => cases c <;> first | rfl | cases hp
  have hle : (escrowOf env.contract info' s').balance + (escrowOf env.contract info' s').withdrawn ≤
      (escrowOf env.contract info s).balance + (escrowOf env.contract info s).withdrawn +
        (c.op info.ratePerSecond.val 0).inflow := by
    rw [h.escrow, hop]
    exact Escrow.held_apply
  exact hle.trans hfits

theorem EvenState.call {c : Call} {s' : State} {info' : StreamInfo} {kept : Int}
    (h : EvenState here info m) (hstep : SteadyStep here m (.call env c) ⟨s', env.timestamp⟩)
    (hc : Called here m info env c s' info' kept) : EvenState here info' ⟨s', env.timestamp⟩ := by
  have hschedule := hc.effect.schedule
  refine ⟨?_, fun he => ?_⟩
  · show (scheduleOf info' s'.store).Even i128Max
    rw [hschedule]
    exact Schedule.even_move hc.sound.valid hc.effect.schedule_allows h.even
      (hstep.steady env c info rfl hc.before.config)
  · have he : (scheduleOf info' s'.store).stop = none := he
    rw [hschedule, Schedule.stop_move] at he
    have hadmits := hstep.admits env c info rfl hc.before.config he
    rw [← hc.contract] at hadmits ⊢
    exact hc.effect.held_le hadmits

theorem even_of_run (hborn : Born here args m₀) (hrun : Run (SteadyStep here) m₀ as m) :
    ∃ info, Sound here m.state info m.clock.val ∧ EvenState here info m :=
  Sound.along (P := EvenState here) (fun h => h.step) (fun _ hstep hc h => h.call hstep hc)
    (fun hstep _ hi h => ⟨h.even, hstep.outside _ _ rfl hi⟩) hrun (sound_of_born hborn)
    (evenState_of_born hborn)

/-- **A summary to rely on.**  In every state that a run reaches, `get_summary` returns from then on with
amounts that agree exactly where the total fits and the schedule is straight; and a run of steady steps
leads to such states only. -/
theorem reliable_of_stream (hborn : Born here args m₀) (hrun : Run (Step here) m₀ as m) :
    ∃ info, m.state.store.config = some info ∧
      (ReliableFrom here m.state info m.clock.val ↔ Summable here m.state info) ∧
      (Run (SteadyStep here) m₀ as m → ReliableFrom here m.state info m.clock.val) := by
  obtain ⟨info, hs, -⟩ := (sound_of_born hborn).run hrun
  refine ⟨info, hs.config, reliable_iff hs, fun hsteady => ?_⟩
  obtain ⟨info', hs', heven⟩ := even_of_run hborn hsteady
  obtain rfl := Option.some.inj (hs.config.symm.trans hs'.config)
  exact (reliable_iff hs).mpr (heven.summable hs)

/-- The sample stream with a cliff on its line. -/
def Sample.stepped : Moment :=
  next (born Sample.args) (.lit 100) (.setCliff sender (.lit 600) (.lit 5000))

theorem reliable_of_stream_stepped :
    ∃ info, Sample.stepped.state.store.config = some info ∧
      ReliableFrom Sample.address Sample.stepped.state info Sample.stepped.clock.val := by
  have hborn : Born Sample.address Sample.args (Sample.born Sample.args) :=
    Sample.born_of_initialize (by decide +kernel)
  have hstep : Step Sample.address (Sample.born Sample.args) _ Sample.stepped :=
    Sample.step_next (by decide +kernel) (by decide +kernel)
  have hinfo : (Sample.born Sample.args).state.store.config = some (initialInfo Sample.args) := by
    decide +kernel
  have hsteady : SteadyStep Sample.address (Sample.born Sample.args)
      (.call (Sample.envAt (.lit 100)) (.setCliff Sample.sender (.lit 600) (.lit 5000)))
      Sample.stepped := by
    refine ⟨hstep, ?_, ?_, fun _ _ h => by cases h⟩
    · rintro env c info ⟨⟩ hi
      obtain rfl : initialInfo Sample.args = info := Option.some.inj (hinfo.symm.trans hi)
      intro _ _
      decide +kernel
    · rintro env c info ⟨⟩ hi he
      obtain rfl : initialInfo Sample.args = info := Option.some.inj (hinfo.symm.trans hi)
      cases he
  obtain ⟨info, hi, -, hrun⟩ := reliable_of_stream hborn (Run.snoc (.nil _) hstep)
  exact ⟨info, hi, hrun (Run.snoc (.nil _) hsteady)⟩

/-- The sample stream at a rate that is raised in its last second. -/
def Sample.raised : Moment := reached Sample.args
  [(.lit 1099, .changeRate sender (.lit 170141183460469231731687303715884106))]

/-- The sample stream at a rate that is lowered halfway. -/
def Sample.lowered : Moment := reached Sample.args [(.lit 600, .changeRate sender (.lit 1))]

/-- The summary of a reachable stream traps, and that of another passes its own total. -/
theorem summary_disagrees :
    (Reachable Sample.address Sample.raised ∧
      getSummary (Sample.envAt (.lit 1099)) Sample.raised.state = .error .trap) ∧
    Reachable Sample.address Sample.lowered ∧
      ((getSummary (Sample.envAt (.lit 1100)) Sample.lowered.state).map
        fun r => (r.streamedAmount.val, r.totalAmount.val)) = .ok (5500, 1000) :=
  ⟨⟨Sample.reachable_reached (by decide +kernel) (by decide +kernel), by decide +kernel⟩,
    Sample.reachable_reached (by decide +kernel) (by decide +kernel), by decide +kernel⟩

end Drip.Stream
