import Drip.Stream.Schedule

/-!
# Stream — Repricing

What each move does to the value already earned.

* A pause keeps it and an extension does not lower it (`value_pause`, `value_le_extend`).
* A rate change keeps it, unless a cliff is pending while a checkpoint is already accruing: then the
  new checkpoint waits at the cliff and the value falls to zero (`value_changeRate`).
* A new cliff re-anchors a stream that has no checkpoint, and may lower the value.
* A resume moves the start and an active checkpoint with the pause, but neither a pending checkpoint
  nor the cliff (`value_shift`): paused time then counts.

`Schedule.Keeps` is the condition under which a move does not lower the value (`value_le_move`).
-/

namespace Drip.Stream.Schedule

variable {q : Schedule} {now max : Int}

/-! ### The value and its zeros -/

theorem value_of_start_le (h : q.start ≤ now) : q.value now = q.valueAt (q.effective now) :=
  if_neg (not_lt.mpr h)

theorem value_of_lt_start (h : now < q.start) : q.value now = 0 := if_pos h

theorem Valid.valueAt_eq_zero_iff (hq : q.Valid now) {x : Int} :
    q.valueAt x = 0 ↔ x < q.anchor.1 ∨ (x = q.anchor.1 ∧ q.anchor.2 = 0) := by
  unfold valueAt
  have hb := hq.base_nonneg
  have hr := hq.rate_pos
  by_cases hx : x < q.anchor.1
  · rw [if_pos hx]
    exact ⟨fun _ => .inl hx, fun _ => rfl⟩
  · rw [if_neg hx]
    constructor
    · intro h
      by_cases he : x = q.anchor.1
      · rw [he, sub_self, mul_zero, add_zero] at h
        exact .inr ⟨he, h⟩
      · have : 0 < q.rate * (x - q.anchor.1) := mul_pos hr (by omega)
        omega
    · rintro (h | ⟨rfl, h⟩)
      · exact absurd h hx
      · rw [h, sub_self, mul_zero, add_zero]

/-- A running or paused stream that has started is evaluated past its start. -/
theorem Valid.start_le_reached (hq : q.Valid now) (h : q.start ≤ now) :
    q.start ≤ q.pausedAt.getD now := by
  cases hp : q.pausedAt with
  | none => exact h
  | some p => exact hq.start_le_paused p hp

/-! ### Pauses and extensions -/

theorem value_pause (ha : q.Allows max now .pause) : (q.move now .pause).value now = q.value now := by
  obtain ⟨hp, -, -, -⟩ := ha
  have heff : (q.move now .pause).effective now = q.effective now := by
    unfold effective
    rw [hp]
    rfl
  unfold value
  rw [heff]
  rfl

theorem value_le_extend {x : Int} (hq : q.Valid now) (ha : q.Allows max now (.extend x)) :
    q.value now ≤ (q.move now (.extend x)).value now := by
  have heff : q.effective now ≤ (q.move now (.extend x)).effective now := by
    show q.clamp (q.pausedAt.getD now) ≤ (q.move now (.extend x)).clamp (q.pausedAt.getD now)
    unfold clamp move
    have := ha.1
    cases q.stop with
    | none => exact le_refl _
    | some e =>
        show min _ e ≤ min _ (e + x)
        omega
  by_cases hs : now < q.start
  · rw [value_of_lt_start hs]
    exact (valid_move hq ha).value_nonneg now
  · rw [value_of_start_le (not_lt.mp hs), value_of_start_le (q := q.move now (.extend x))
      (not_lt.mp hs)]
    exact hq.valueAt_mono heff

/-! ### Rate changes -/

/-- A cliff lies ahead. -/
def CliffPending (q : Schedule) (now : Int) : Prop := ∃ c ∈ q.cliff, q.effective now < c.1

instance (q : Schedule) (now : Int) : Decidable (q.CliffPending now) :=
  inferInstanceAs (Decidable (∃ c ∈ q.cliff, q.effective now < c.1))

theorem Valid.effective_changeRate {r : Int} (hq : q.Valid now)
    (ha : q.Allows max now (.changeRate r)) : q.effective now = q.pausedAt.getD now := by
  refine clamp_of_le fun e he => ?_
  cases hp : q.pausedAt with
  | none => exact (ha.2.1 e he).le
  | some p => exact hq.paused_le_stop p hp e he

/-- With a cliff ahead the new checkpoint waits there. -/
theorem checkpointFor_pending {c : Int × Int} (hc : q.cliff = some c)
    (hlt : q.pausedAt.getD now < c.1) : q.checkpointFor now = c := by
  unfold checkpointFor
  rw [hc]
  exact if_pos hlt

/-- Otherwise it holds what has been earned so far. -/
theorem checkpointFor_active (hs : q.start ≤ q.pausedAt.getD now)
    (hc : ∀ c ∈ q.cliff, c.1 ≤ q.pausedAt.getD now) :
    q.checkpointFor now = (q.pausedAt.getD now, q.value now) := by
  unfold checkpointFor
  cases hk : q.cliff with
  | none => exact if_neg (not_lt.mpr hs)
  | some c => exact if_neg (not_lt.mpr (hc c hk))

/-- A rate change keeps the value unless a cliff is pending; then it sets it to zero. -/
theorem value_changeRate {r : Int} (hq : q.Valid now) (ha : q.Allows max now (.changeRate r)) :
    (q.move now (.changeRate r)).value now = if q.CliffPending now then 0 else q.value now := by
  by_cases hs : now < q.start
  · rw [value_of_lt_start (q := q.move now (.changeRate r)) hs, value_of_lt_start hs, ite_self]
  have hs : q.start ≤ now := not_lt.mp hs
  have heff := hq.effective_changeRate ha
  rw [value_of_start_le (q := q.move now (.changeRate r)) hs]
  show (if q.effective now < (q.checkpointFor now).1 then 0
    else (q.checkpointFor now).2 + r * (q.effective now - (q.checkpointFor now).1)) = _
  by_cases hp : q.CliffPending now
  · obtain ⟨c, hc, hlt⟩ := hp
    rw [checkpointFor_pending hc (heff ▸ hlt), if_pos hlt,
      if_pos (show q.CliffPending now from ⟨c, hc, hlt⟩)]
  · rw [if_neg hp, checkpointFor_active (hq.start_le_reached hs), ← heff, if_neg (lt_irrefl _),
      sub_self, mul_zero, add_zero]
    intro c hc
    rw [← heff]
    by_contra hlt
    exact hp ⟨c, hc, not_le.mp hlt⟩

/-- What a rate change needs in order not to reprice: no pending cliff, or no checkpoint that has
accrued anything yet. -/
def RateKeeps (q : Schedule) (now : Int) : Prop :=
  now < q.start ∨ (∀ c ∈ q.cliff, c.1 ≤ q.effective now) ∨
    ∀ c ∈ q.checkpoint, q.effective now < c.1 ∨ (q.effective now = c.1 ∧ c.2 = 0)

/-- **When a rate change is prospective.** -/
theorem value_changeRate_eq_iff {r : Int} (hq : q.Valid now)
    (ha : q.Allows max now (.changeRate r)) :
    (q.move now (.changeRate r)).value now = q.value now ↔ q.RateKeeps now := by
  rw [value_changeRate hq ha]
  by_cases hs : now < q.start
  · rw [value_of_lt_start hs, ite_self]
    exact ⟨fun _ => .inl hs, fun _ => rfl⟩
  by_cases hp : q.CliffPending now
  · obtain ⟨c, hc, hlt⟩ := hp
    rw [if_pos (show q.CliffPending now from ⟨c, hc, hlt⟩), value_of_start_le (not_lt.mp hs),
      eq_comm, hq.valueAt_eq_zero_iff]
    constructor
    · intro h
      refine .inr (.inr fun k hk => ?_)
      have hanchor : q.anchor = k := by
        unfold anchor; rw [Option.mem_def.mp hk]; rfl
      rw [hanchor] at h
      exact h
    · rintro (h | h | h)
      · exact absurd h hs
      · have := h c hc
        omega
      · cases hk : q.checkpoint with
        | some k =>
            have hanchor : q.anchor = k := by unfold anchor; rw [hk]; rfl
            rw [hanchor]
            exact h k hk
        | none =>
            have hanchor : q.anchor = c := by
              unfold anchor; rw [hk, Option.mem_def.mp hc]; rfl
            rw [hanchor]
            exact .inl hlt
  · rw [if_neg hp]
    refine ⟨fun _ => .inr (.inl fun c hc => ?_), fun _ => rfl⟩
    by_contra hlt
    exact hp ⟨c, hc, not_le.mp hlt⟩

/-! ### Resumes -/

/-- Right before a resume the value is that of the pause; right after it, that of the shifted
schedule at the present time. -/
theorem value_paused {p : Int} (hq : q.Valid now) (hp : q.pausedAt = some p) :
    q.value now = q.valueAt p := by
  rw [value_of_start_le (hq.started_of_paused hp), hq.effective_paused hp]

theorem value_shift {p : Int} (hq : q.Valid now) (hp : q.pausedAt = some p) :
    (q.shift p (now - p)).value now = (q.shift p (now - p)).valueAt now := by
  have hs := hq.start_le_paused p hp
  rw [value_of_start_le (by show q.start + (now - p) ≤ now; omega), effective_running rfl]
  congr 1
  refine clamp_of_le fun e he => ?_
  obtain ⟨e₀, he₀, rfl⟩ := Option.mem_map.mp he
  have := hq.paused_le_stop p hp e₀ he₀
  omega

/-- The anchor moves with the pause: it is the start or a checkpoint active at the pause. -/
def AnchorShifts (q : Schedule) (p : Int) : Prop :=
  (∃ c ∈ q.checkpoint, c.1 ≤ p) ∨ (q.checkpoint = none ∧ q.cliff = none)

theorem anchor_shift {p d : Int} (h : q.AnchorShifts p) :
    (q.shift p d).anchor = (q.anchor.1 + d, q.anchor.2) := by
  unfold anchor shift
  rcases h with ⟨c, hc, hle⟩ | ⟨hc, hk⟩
  · rw [Option.mem_def.mp hc]
    show (if c.1 ≤ p then (c.1 + d, c.2) else c) = _
    rw [if_pos hle]
    rfl
  · rw [hc, hk]
    rfl

theorem anchor_shift_of_not {p d : Int} (h : ¬ q.AnchorShifts p) :
    (q.shift p d).anchor = q.anchor := by
  unfold anchor shift
  cases hc : q.checkpoint with
  | some c =>
      show (if c.1 ≤ p then (c.1 + d, c.2) else c) = c
      rw [if_neg fun hle => h (.inl ⟨c, hc, hle⟩)]
  | none =>
      cases hk : q.cliff with
      | some c => rfl
      | none => exact absurd (.inr ⟨hc, hk⟩) h

/-- When a resume pays no paused second: the anchor moves with the pause, or it lies ahead and has
nothing to pay yet, or no time has passed. -/
def ResumeKeeps (q : Schedule) (now p : Int) : Prop :=
  q.AnchorShifts p ∨ now < q.anchor.1 ∨ (now = q.anchor.1 ∧ q.anchor.2 = 0) ∨ now = p

theorem value_resume_eq_iff {p : Int} (hq : q.Valid now) (hp : q.pausedAt = some p) :
    (q.shift p (now - p)).value now = q.value now ↔ q.ResumeKeeps now p := by
  rw [value_shift hq hp, value_paused hq hp]
  have hpn := hq.paused_le_now p hp
  have hr := hq.rate_pos
  by_cases hsh : q.AnchorShifts p
  · refine iff_of_true ?_ (.inl hsh)
    unfold valueAt
    rw [anchor_shift hsh]
    dsimp only
    have hsub : now - (q.anchor.1 + (now - p)) = p - q.anchor.1 := by omega
    rw [hsub]
    by_cases hlt : p < q.anchor.1
    · rw [if_pos (by omega), if_pos hlt]
    · rw [if_neg (by omega), if_neg hlt]
      rfl
  · have hval : (q.shift p (now - p)).valueAt now = q.valueAt now := by
      unfold valueAt
      rw [anchor_shift_of_not hsh]
      rfl
    rw [hval]
    constructor
    · intro heq
      by_cases hnow : now = p
      · exact .inr (.inr (.inr hnow))
      · -- the line is strictly increasing past the anchor, so both sides are zero
        have hz : q.valueAt now = 0 := by
          by_contra hne
          have hge : ¬ now < q.anchor.1 := fun hlt => hne (if_pos hlt)
          have hmul : q.rate * (p - q.anchor.1) < q.rate * (now - q.anchor.1) :=
            mul_lt_mul_of_pos_left (by omega) hr
          have hvn : q.valueAt now = q.anchor.2 + q.rate * (now - q.anchor.1) := if_neg hge
          by_cases hlt : p < q.anchor.1
          · rw [show q.valueAt p = 0 from if_pos hlt] at heq
            exact hne heq
          · rw [show q.valueAt p = q.anchor.2 + q.rate * (p - q.anchor.1) from if_neg hlt] at heq
            omega
        rcases hq.valueAt_eq_zero_iff.mp hz with h | h
        · exact .inr (.inl h)
        · exact .inr (.inr (.inl h))
    · intro hk
      rcases hk with h | h | h | h
      · exact absurd h hsh
      · rw [hq.valueAt_eq_zero_iff.mpr (.inl h), hq.valueAt_eq_zero_iff.mpr (.inl (by omega))]
      · have hz := hq.valueAt_eq_zero_iff.mpr (.inr h)
        have := hq.valueAt_mono hpn
        have := hq.valueAt_nonneg p
        omega
      · rw [h]

theorem value_le_resume {p : Int} (hq : q.Valid now) (hp : q.pausedAt = some p) :
    q.value now ≤ (q.shift p (now - p)).value now := by
  by_cases hsh : q.AnchorShifts p
  · exact ((value_resume_eq_iff hq hp).mpr (.inl hsh)).ge
  · rw [value_shift hq hp, value_paused hq hp]
    have hval : (q.shift p (now - p)).valueAt now = q.valueAt now := by
      unfold valueAt
      rw [anchor_shift_of_not hsh]
      rfl
    rw [hval]
    exact hq.valueAt_mono (hq.paused_le_now p hp)

/-! ### Cliffs -/

/-- What a new cliff needs in order not to lower the value: a checkpoint that overrides it, nothing
earned yet, or a cliff already passed that unlocks at least what was earned up to it. -/
def CliffKeeps (q : Schedule) (now c u : Int) : Prop :=
  now < q.start ∨ q.checkpoint.isSome ∨
    (q.effective now < q.anchor.1 ∨ (q.effective now = q.anchor.1 ∧ q.anchor.2 = 0)) ∨
    (c ≤ q.effective now ∧ q.anchor.2 + q.rate * (c - q.anchor.1) ≤ u)

/-- A checkpoint overrides the cliff. -/
theorem value_setCliff_of_checkpoint {c u : Int} (h : q.checkpoint.isSome) :
    (q.move now (.setCliff c u)).value now = q.value now := by
  obtain ⟨k, hk⟩ := Option.isSome_iff_exists.mp h
  have hanchor : (q.move now (.setCliff c u)).anchor = q.anchor := by
    show (q.checkpoint.or _).getD _ = (q.checkpoint.or _).getD _
    rw [hk]
    rfl
  unfold value valueAt
  rw [hanchor]
  rfl

theorem value_le_setCliff {c u : Int} (hq : q.Valid now) (ha : q.Allows max now (.setCliff c u))
    (hk : q.CliffKeeps now c u) : q.value now ≤ (q.move now (.setCliff c u)).value now := by
  have hq' := valid_move hq ha
  by_cases hck : q.checkpoint.isSome
  · exact (value_setCliff_of_checkpoint hck).ge
  by_cases hs : now < q.start
  · rw [value_of_lt_start hs]
    exact hq'.value_nonneg now
  rcases hk with h | h | h | ⟨hc, hu⟩
  · exact absurd h hs
  · exact absurd h hck
  · rw [value_of_start_le (not_lt.mp hs), hq.valueAt_eq_zero_iff.mpr h]
    exact hq'.value_nonneg now
  · -- the new line runs above the old one
    have hanchor : (q.move now (.setCliff c u)).anchor = (c, u) := by
      show (q.checkpoint.or _).getD _ = _
      rw [Option.not_isSome_iff_eq_none.mp hck]
      rfl
    have hnew : (q.move now (.setCliff c u)).value now = u + q.rate * (q.effective now - c) := by
      rw [value_of_start_le (q := q.move now (.setCliff c u)) (not_lt.mp hs)]
      show (if q.effective now < _ then _ else _) = _
      rw [hanchor, if_neg (not_lt.mpr hc)]
      rfl
    rw [hnew, value_of_start_le (not_lt.mp hs)]
    by_cases hlt : q.effective now < q.anchor.1
    · rw [show q.valueAt (q.effective now) = 0 from if_pos hlt]
      have : 0 ≤ q.rate * (q.effective now - c) := mul_nonneg hq.rate_pos.le (by omega)
      have : 0 ≤ u := ha.1
      omega
    · rw [show q.valueAt (q.effective now) = _ from if_neg hlt]
      have hsum : q.rate * (q.effective now - q.anchor.1) =
          q.rate * (c - q.anchor.1) + q.rate * (q.effective now - c) := by
        rw [← mul_add]
        congr 1
        omega
      omega

/-! ### All moves -/

/-- The condition under which a move does not lower the value. -/
def Keeps (q : Schedule) (now : Int) : Move → Prop
  | .changeRate _ => q.RateKeeps now
  | .setCliff c u => q.CliffKeeps now c u
  | .pause | .resume | .extend _ | .idle => True

theorem value_le_move {m : Move} (hq : q.Valid now) (ha : q.Allows max now m)
    (hk : q.Keeps now m) : q.value now ≤ (q.move now m).value now := by
  cases m with
  | pause => exact (value_pause ha).ge
  | resume =>
      obtain ⟨p, hp, -⟩ := ha
      have hmove : q.move now .resume = q.shift p (now - p) := by
        rw [move, Option.mem_def.mp hp]; rfl
      rw [hmove]
      exact value_le_resume hq hp
  | changeRate r => exact ((value_changeRate_eq_iff hq ha).mpr hk).ge
  | extend x => exact value_le_extend hq ha
  | setCliff c u => exact value_le_setCliff hq ha hk
  | idle => exact le_refl _

end Drip.Stream.Schedule
