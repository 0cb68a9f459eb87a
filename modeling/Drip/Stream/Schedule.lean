import Mathlib.Tactic.Linarith
import Mathlib.Data.Option.Basic

/-!
# Stream — Schedule

The accrual schedule of a stream as a machine of its own, over unbounded integers: what the
accrual formula reads (rate, start, stop, pause, rate checkpoint, cliff), the value it gives at
each time, and the moves that rewrite it.  `stop = none` is an open-ended stream.

* `Schedule.value now` is what the stream has earned by `now`: nothing before the anchor, then the
  anchor's base and the rate times the seconds since.  The anchor is the rate checkpoint if there
  is one, else the cliff, else the start.
* `Schedule.move now m` is the schedule after the move `m` at `now`; `Schedule.Allows now m` are
  the checks the move passed.
* `Schedule.Valid now` holds of every schedule the moves reach (`valid_move`, `Valid.wait`).

`Effects.lean` shows that each entry point of the contract makes one of these moves.
-/

namespace Drip.Stream

@[ext]
structure Schedule where
  rate : Int
  start : Int
  stop : Option Int
  pausedAt : Option Int
  /-- time, and the value accrued by it -/
  checkpoint : Option (Int × Int)
  /-- time, and the amount unlocked at it -/
  cliff : Option (Int × Int)

/-- A rewrite of the schedule. -/
inductive Move where
  | pause
  | resume
  | changeRate (rate : Int)
  | extend (extra : Int)
  | setCliff (time unlock : Int)
  | idle

namespace Schedule

variable {q : Schedule} {now later : Int}

/-! ### The value -/

/-- `x`, not past the stop. -/
def clamp (q : Schedule) (x : Int) : Int := q.stop.elim x (min x)

/-- The time the formula is evaluated at. -/
def effective (q : Schedule) (now : Int) : Int := q.clamp (q.pausedAt.getD now)

/-- Where the linear part starts, and the value there. -/
def anchor (q : Schedule) : Int × Int := (q.checkpoint.or q.cliff).getD (q.start, 0)

/-- The value at an effective time `x`. -/
def valueAt (q : Schedule) (x : Int) : Int :=
  if x < q.anchor.1 then 0 else q.anchor.2 + q.rate * (x - q.anchor.1)

/-- The value earned by `now`. -/
def value (q : Schedule) (now : Int) : Int :=
  if now < q.start then 0 else q.valueAt (q.effective now)

/-! ### The moves -/

/-- The checkpoint a rate change writes. -/
def checkpointFor (q : Schedule) (now : Int) : Int × Int :=
  let t := q.pausedAt.getD now
  match q.cliff with
  | some c => if t < c.1 then c else (t, q.value now)
  | none => if t < q.start then (q.start, 0) else (t, q.value now)

/-- The schedule resumed after a pause of `d` seconds that began at `p`: start and stop move, the
checkpoint moves when it was active at the pause, the cliff stays. -/
def shift (q : Schedule) (p d : Int) : Schedule :=
  { q with
    start := q.start + d
    stop := q.stop.map (· + d)
    pausedAt := none
    checkpoint := q.checkpoint.map fun c => if c.1 ≤ p then (c.1 + d, c.2) else c }

def move (q : Schedule) (now : Int) : Move → Schedule
  | .pause => { q with pausedAt := some now }
  | .resume => q.pausedAt.elim q fun p => q.shift p (now - p)
  | .changeRate r => { q with rate := r, checkpoint := some (q.checkpointFor now) }
  | .extend x => { q with stop := q.stop.map (· + x) }
  | .setCliff c u => { q with cliff := some (c, u) }
  | .idle => q

/-- The checks a move passed, with the bound `max` on what a successful computation of the value
returned. -/
def Allows (q : Schedule) (max now : Int) : Move → Prop
  | .pause => q.pausedAt = none ∧ q.start ≤ now ∧ (∀ e ∈ q.stop, now ≤ e) ∧ q.value now ≤ max
  | .resume => ∃ p ∈ q.pausedAt, p ≤ now
  | .changeRate r => 0 < r ∧ (∀ e ∈ q.stop, now < e) ∧ q.value now ≤ max ∧
      ∀ e ∈ q.stop, (q.checkpointFor now).1 < e →
        (q.checkpointFor now).2 + r * (e - (q.checkpointFor now).1) ≤ max
  | .extend x => 0 < x ∧ q.stop.isSome
  | .setCliff c u => 0 ≤ u ∧ q.start ≤ c ∧ ∀ e ∈ q.stop, c ≤ e
  | .idle => True

/-! ### Schedules that can occur -/

structure Valid (q : Schedule) (now : Int) : Prop where
  rate_pos : 0 < q.rate
  start_lt : ∀ e ∈ q.stop, q.start < e
  start_le_paused : ∀ p ∈ q.pausedAt, q.start ≤ p
  paused_le_now : ∀ p ∈ q.pausedAt, p ≤ now
  paused_le_stop : ∀ p ∈ q.pausedAt, ∀ e ∈ q.stop, p ≤ e
  accrued_nonneg : ∀ c ∈ q.checkpoint, 0 ≤ c.2
  unlock_nonneg : ∀ c ∈ q.cliff, 0 ≤ c.2
  /-- Before the start, the cliff is not behind the start. -/
  pending : now < q.start → ∀ c ∈ q.cliff, q.start ≤ c.1

theorem clamp_le (x : Int) : q.clamp x ≤ x := by
  unfold clamp
  cases q.stop with
  | none => exact le_refl x
  | some e => exact min_le_left x e

theorem clamp_mono {x y : Int} (h : x ≤ y) : q.clamp x ≤ q.clamp y := by
  unfold clamp
  cases q.stop with
  | none => exact h
  | some e => exact min_le_min_right e h

theorem clamp_of_le {x : Int} (h : ∀ e ∈ q.stop, x ≤ e) : q.clamp x = x := by
  unfold clamp
  cases hq : q.stop with
  | none => rfl
  | some e => exact min_eq_left (h e hq)

theorem effective_running (h : q.pausedAt = none) : q.effective now = q.clamp now := by
  unfold effective; rw [h]; rfl

/-- A paused schedule is evaluated at the pause. -/
theorem Valid.effective_paused (hq : q.Valid now) {p : Int} (h : q.pausedAt = some p) (t : Int) :
    q.effective t = p := by
  unfold effective
  rw [h]
  exact clamp_of_le fun e he => hq.paused_le_stop p h e he

theorem Valid.base_nonneg (hq : q.Valid now) : 0 ≤ q.anchor.2 := by
  unfold anchor
  cases hc : q.checkpoint with
  | some c => exact hq.accrued_nonneg c hc
  | none =>
      cases hk : q.cliff with
      | some c => exact hq.unlock_nonneg c hk
      | none => exact le_refl 0

theorem Valid.valueAt_nonneg (hq : q.Valid now) (x : Int) : 0 ≤ q.valueAt x := by
  unfold valueAt
  split
  · exact le_refl 0
  · rename_i h
    have := mul_nonneg hq.rate_pos.le (sub_nonneg.mpr (not_lt.mp h))
    have := hq.base_nonneg
    omega

theorem Valid.value_nonneg (hq : q.Valid now) (t : Int) : 0 ≤ q.value t := by
  unfold value
  split
  · exact le_refl 0
  · exact hq.valueAt_nonneg _

theorem Valid.valueAt_mono (hq : q.Valid now) {x y : Int} (h : x ≤ y) :
    q.valueAt x ≤ q.valueAt y := by
  by_cases hx : x < q.anchor.1
  · rw [valueAt, if_pos hx]
    exact hq.valueAt_nonneg y
  · rw [valueAt, if_neg hx, valueAt, if_neg (by omega)]
    have : q.rate * (x - q.anchor.1) ≤ q.rate * (y - q.anchor.1) :=
      mul_le_mul_of_nonneg_left (by omega) hq.rate_pos.le
    omega

/-- **Time only adds.**  The value of an unchanged schedule does not decrease. -/
theorem Valid.value_mono (hq : q.Valid now) {t t' : Int} (h : t ≤ t') : q.value t ≤ q.value t' := by
  by_cases ht : t < q.start
  · rw [value, if_pos ht]
    exact hq.value_nonneg t'
  · rw [value, if_neg ht, value, if_neg (by omega)]
    refine hq.valueAt_mono (clamp_mono ?_)
    cases q.pausedAt with
    | none => exact h
    | some p => exact le_refl p

/-! ### Validity is preserved -/

theorem Valid.wait (hq : q.Valid now) (h : now ≤ later) : q.Valid later :=
  { hq with
    paused_le_now := fun p hp => (hq.paused_le_now p hp).trans h
    pending := fun hs => hq.pending (by omega) }

theorem checkpointFor_nonneg (hq : q.Valid now) : 0 ≤ (q.checkpointFor now).2 := by
  unfold checkpointFor
  dsimp only
  cases hk : q.cliff with
  | some c =>
      dsimp only
      split
      · exact hq.unlock_nonneg c hk
      · exact hq.value_nonneg now
  | none =>
      dsimp only
      split
      · exact le_refl 0
      · exact hq.value_nonneg now

/-- A paused stream has started. -/
theorem Valid.started_of_paused (hq : q.Valid now) {p : Int} (h : q.pausedAt = some p) :
    q.start ≤ now :=
  (hq.start_le_paused p h).trans (hq.paused_le_now p h)

theorem valid_shift (hq : q.Valid now) {p : Int} (hp : q.pausedAt = some p) :
    (q.shift p (now - p)).Valid now := by
  have hle := hq.paused_le_now p hp
  have hs := hq.start_le_paused p hp
  refine ⟨hq.rate_pos, ?_, nofun, nofun, nofun, ?_, hq.unlock_nonneg, ?_⟩
  · intro e he
    obtain ⟨e₀, he₀, rfl⟩ := Option.mem_map.mp he
    have := hq.start_lt e₀ he₀
    show q.start + _ < _
    omega
  · intro c hc
    obtain ⟨c₀, hc₀, rfl⟩ := Option.mem_map.mp hc
    have := hq.accrued_nonneg c₀ hc₀
    split <;> exact this
  · -- the shifted start is not ahead of the resume
    intro h
    have : q.start + (now - p) ≤ now := by omega
    exact absurd h (not_lt.mpr this)

theorem valid_move {max : Int} (hq : q.Valid now) {m : Move} (ha : q.Allows max now m) :
    (q.move now m).Valid now := by
  cases m with
  | pause =>
      obtain ⟨-, hs, he, -⟩ := ha
      refine { hq with start_le_paused := ?_, paused_le_now := ?_, paused_le_stop := ?_ }
      · rintro p ⟨⟩; exact hs
      · rintro p ⟨⟩; exact le_refl _
      · rintro p ⟨⟩; exact he
  | resume =>
      obtain ⟨p, hp, -⟩ := ha
      rw [Option.mem_def] at hp
      simp only [move, hp, Option.elim]
      exact valid_shift hq hp
  | changeRate r =>
      refine { hq with rate_pos := ha.1, accrued_nonneg := ?_ }
      rintro c ⟨⟩
      exact checkpointFor_nonneg hq
  | extend x =>
      have grow : ∀ {e}, e ∈ q.stop.map (· + x) → ∃ e₀ ∈ q.stop, e₀ ≤ e := by
        intro e he
        obtain ⟨e₀, he₀, rfl⟩ := Option.mem_map.mp he
        have := ha.1
        exact ⟨e₀, he₀, by omega⟩
      refine { hq with start_lt := fun e he => ?_, paused_le_stop := fun p hp e he => ?_ }
      · obtain ⟨e₀, he₀, hle⟩ := grow he
        exact (hq.start_lt e₀ he₀).trans_le hle
      · obtain ⟨e₀, he₀, hle⟩ := grow he
        exact (hq.paused_le_stop p hp e₀ he₀).trans hle
  | setCliff c u =>
      refine { hq with unlock_nonneg := ?_, pending := fun _ => ?_ }
      · rintro k ⟨⟩; exact ha.1
      · rintro k ⟨⟩; exact ha.2.1
  | idle => exact hq

end Schedule

end Drip.Stream
