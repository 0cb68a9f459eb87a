import Drip.Support.Tally
import Drip.Stream.Repricing

/-!
# Stream — History

The accrual of a stream told by its whole history: every pause and every rate change, with the time
of the call.  The contract keeps none of it; a stream that never had a cliff accrues, all the same,
exactly the sum over the seconds outside the pauses of the rate in force (`Tracks.value`).

* `History.reference upper` is that sum, over the seconds from the start up to `upper`.
* `History.note` records a move; `Tracks h q clock` links a history to the schedule it led to, and
  every move preserves it (`Tracks.note`).
-/

namespace Drip.Stream

structure History where
  /-- the original start -/
  start : Int
  /-- the original rate -/
  rate : Int
  /-- call time and new rate, oldest first -/
  changes : List (Int × Int)
  /-- the completed pauses `[paused, resumed)`, oldest first -/
  pauses : List (Int × Int)
  /-- when the present pause began -/
  since : Option Int

namespace History

variable {h : History} {now s t x : Int}

def note (h : History) (now : Int) : Move → History
  | .pause => { h with since := some now }
  | .resume =>
      { h with pauses := h.pauses ++ (h.since.map fun p => (p, now)).toList, since := none }
  | .changeRate r => { h with changes := h.changes ++ [(now, r)] }
  | .extend _ | .setCliff .. | .idle => h

/-! ### The reference value -/

/-- The second `s` lies in a completed pause. -/
def Paused (h : History) (s : Int) : Prop := ∃ p ∈ h.pauses, p.1 ≤ s ∧ s < p.2

instance (h : History) (s : Int) : Decidable (h.Paused s) :=
  inferInstanceAs (Decidable (∃ p ∈ h.pauses, p.1 ≤ s ∧ s < p.2))

/-- When a rate changed at `t` takes effect: not before the start, and after the pause the change
was made in. -/
def takesEffect (h : History) (t : Int) : Int :=
  max h.start ((h.pauses.find? fun p => p.1 ≤ t ∧ t < p.2).elim t (·.2))

/-- The rate in force at the second `s`: that of the last change in effect. -/
def rateAt (h : History) (s : Int) : Int :=
  h.changes.foldl (fun r c => if h.takesEffect c.1 ≤ s then c.2 else r) h.rate

def perSecond (h : History) (s : Int) : Int := if h.Paused s then 0 else h.rateAt s

/-- The sum over the seconds of `[start, upper)` outside the pauses of the rate in force. -/
def reference (h : History) (upper : Int) : Int := tally h.perSecond h.start upper

/-! ### The rate in force -/

/-- The rate of the last change. -/
def latest (h : History) : Int := h.changes.foldl (fun _ c => c.2) h.rate

theorem le_takesEffect (h : History) (t : Int) : t ≤ h.takesEffect t := by
  unfold takesEffect
  cases hf : h.pauses.find? fun p => p.1 ≤ t ∧ t < p.2 with
  | none => exact le_max_right _ _
  | some p =>
      have hp := List.find?_some hf
      simp only [decide_eq_true_eq] at hp
      exact hp.2.le.trans (le_max_right _ _)

theorem takesEffect_le (hs : h.start ≤ x) (ht : t ≤ x) (hp : ∀ p ∈ h.pauses, p.2 ≤ x) :
    h.takesEffect t ≤ x := by
  unfold takesEffect
  refine max_le hs ?_
  cases hf : h.pauses.find? fun p => p.1 ≤ t ∧ t < p.2 with
  | none => exact ht
  | some p => exact hp p (List.mem_of_find?_eq_some hf)

/-- A change that is in effect overrides whatever came before. -/
theorem foldl_latest {f : Int → Int} {cs : List (Int × Int)} {r r' : Int}
    (hc : ∀ c ∈ cs, f c.1 ≤ s) (hr : cs = [] → r = r') :
    cs.foldl (fun r c => if f c.1 ≤ s then c.2 else r) r = cs.foldl (fun _ c => c.2) r' := by
  induction cs generalizing r r' with
  | nil => exact hr rfl
  | cons c cs ih =>
      rw [List.foldl_cons, List.foldl_cons, if_pos (hc c List.mem_cons_self)]
      exact ih (fun d hd => hc d (List.mem_cons_of_mem c hd)) fun _ => rfl

/-- Past everything recorded the stream earns the latest rate. -/
theorem perSecond_after (hs : h.start ≤ x) (hc : ∀ c ∈ h.changes, c.1 ≤ x)
    (hp : ∀ p ∈ h.pauses, p.2 ≤ x) (hx : x ≤ s) : h.perSecond s = h.latest := by
  unfold perSecond
  rw [if_neg]
  · refine foldl_latest (fun c hc' => ?_) fun _ => rfl
    exact (takesEffect_le hs (hc c hc') hp).trans hx
  · rintro ⟨p, hp', -, hlt⟩
    have := hp p hp'
    omega

theorem reference_after {y : Int} (hs : h.start ≤ x) (hc : ∀ c ∈ h.changes, c.1 ≤ x)
    (hp : ∀ p ∈ h.pauses, p.2 ≤ x) (hxy : x ≤ y) :
    h.reference y = h.reference x + h.latest * (y - x) :=
  tally_linear hs hxy fun _ hs' => perSecond_after hs hc hp hs'

/-! ### What a note does not change -/

theorem latest_changeRate (r : Int) : (h.note now (.changeRate r)).latest = r := by
  show List.foldl _ _ (h.changes ++ [(now, r)]) = r
  rw [List.foldl_append]
  rfl

/-- A change of rate leaves the past alone. -/
theorem reference_changeRate {r : Int} (hx : x ≤ now) :
    (h.note now (.changeRate r)).reference x = h.reference x := by
  refine tally_congr fun s _ hs => ?_
  show (if h.Paused s then 0 else List.foldl _ _ (h.changes ++ [(now, r)])) = _
  rw [List.foldl_append]
  have := h.le_takesEffect now
  show (if h.Paused s then 0 else if h.takesEffect now ≤ s then r else h.rateAt s) = _
  rw [if_neg (show ¬ h.takesEffect now ≤ s by omega)]
  rfl

theorem foldl_congr_effect {f g : Int → Int} {cs : List (Int × Int)} {r : Int}
    (hfg : ∀ c ∈ cs, f c.1 ≤ s ↔ g c.1 ≤ s) :
    cs.foldl (fun r c => if f c.1 ≤ s then c.2 else r) r =
      cs.foldl (fun r c => if g c.1 ≤ s then c.2 else r) r := by
  induction cs generalizing r with
  | nil => rfl
  | cons c cs ih =>
      rw [List.foldl_cons, List.foldl_cons, ih fun d hd => hfg d (List.mem_cons_of_mem c hd)]
      simp only [hfg c List.mem_cons_self]

theorem note_resume_pauses {p : Int} (hp : h.since = some p) :
    (h.note now .resume).pauses = h.pauses ++ [(p, now)] := by
  show h.pauses ++ (h.since.map fun p => (p, now)).toList = _
  rw [hp]
  rfl

/-- Closing a pause leaves the seconds before it alone. -/
theorem reference_resume {p : Int} (hp : h.since = some p) (hpn : p ≤ now) (hx : x ≤ p) :
    (h.note now .resume).reference x = h.reference x := by
  refine tally_congr fun s _ hs => ?_
  have hpauses : (h.note now .resume).pauses = h.pauses ++ [(p, now)] := note_resume_pauses hp
  have hpaused : (h.note now .resume).Paused s ↔ h.Paused s := by
    unfold Paused
    rw [hpauses]
    constructor
    · rintro ⟨y, hy, hys⟩
      rcases List.mem_append.mp hy with hy | hy
      · exact ⟨y, hy, hys⟩
      · rw [List.mem_singleton] at hy
        subst hy
        exact absurd hys.1 (by dsimp only; omega)
    · rintro ⟨y, hy, hys⟩
      exact ⟨y, List.mem_append_left _ hy, hys⟩
  have hrate : (h.note now .resume).rateAt s = h.rateAt s := by
    refine foldl_congr_effect fun c _ => ?_
    -- a change made in the closing pause was not in effect before it, and is not now
    unfold takesEffect
    rw [hpauses, List.find?_append]
    cases h.pauses.find? fun p => p.1 ≤ c.1 ∧ c.1 < p.2 with
    | some y => rfl
    | none =>
        by_cases hin : p ≤ c.1 ∧ c.1 < now
        · rw [List.find?_cons_of_pos (by simpa using hin)]
          show max h.start now ≤ s ↔ max h.start c.1 ≤ s
          omega
        · rw [List.find?_cons_of_neg (by simpa using hin)]
          rfl
  unfold perSecond
  simp only [hpaused, hrate]

end History

/-! ### The schedule tracks the history -/

/-- The line a schedule accrues along. -/
def Schedule.line (q : Schedule) (x : Int) : Int := q.anchor.2 + q.rate * (x - q.anchor.1)

theorem Schedule.valueAt_eq_line {q : Schedule} {x : Int} (h : q.anchor.1 ≤ x) :
    q.valueAt x = q.line x := if_neg (not_lt.mpr h)

/-- A schedule without a cliff and the history that led to it.  A running schedule accrues along the
reference from the instant `k` of the last change on; a paused one stands at it. -/
structure Tracks (h : History) (q : Schedule) (clock : Int) : Prop where
  cliff : q.cliff = none
  latest : h.latest = q.rate
  since : h.since = q.pausedAt
  changes_le : ∀ c ∈ h.changes, c.1 ≤ clock
  pauses_le : ∀ p ∈ h.pauses, p.2 ≤ clock
  pending : clock < q.start → q.start = h.start
  running : q.pausedAt = none → ∃ k, q.anchor.1 ≤ k ∧ h.start ≤ k ∧ k ≤ max clock q.start ∧
    (∀ e ∈ q.stop, k ≤ e) ∧ ∀ x, k ≤ x → h.reference x = q.line x
  paused : ∀ p, q.pausedAt = some p → q.anchor.1 ≤ p ∧ h.start ≤ p ∧ (∀ y ∈ h.pauses, y.2 ≤ p) ∧
    h.reference p = q.line p

namespace Tracks

variable {h : History} {q : Schedule} {clock now max : Int}

theorem wait (ht : Tracks h q clock) (hle : clock ≤ now) : Tracks h q now where
  cliff := ht.cliff
  latest := ht.latest
  since := ht.since
  changes_le := fun c hc => (ht.changes_le c hc).trans hle
  pauses_le := fun p hp => (ht.pauses_le p hp).trans hle
  pending := fun hlt => ht.pending (by omega)
  running := fun hp => by
    obtain ⟨k, hak, hsk, hk, hek, hline⟩ := ht.running hp
    exact ⟨k, hak, hsk, by omega, hek, hline⟩
  paused := ht.paused

/-- **The compact state accrues the sum over the history.** -/
theorem value (ht : Tracks h q now) (hq : q.Valid now) :
    q.value now = h.reference (q.effective now) := by
  cases hp : q.pausedAt with
  | some p =>
      obtain ⟨hap, -, -, href⟩ := ht.paused p hp
      have hstart := hq.started_of_paused hp
      rw [Schedule.value, if_neg (not_lt.mpr hstart), hq.effective_paused hp, href,
        Schedule.valueAt_eq_line hap]
  | none =>
      obtain ⟨k, hak, -, hk, hek, hline⟩ := ht.running hp
      rw [Schedule.effective_running hp, Schedule.value]
      split
      · -- before the start no second has been counted
        rename_i hlt
        refine (tally_empty ?_).symm
        rw [← ht.pending hlt]
        exact (Schedule.clamp_le now).trans hlt.le
      · rename_i hge
        rw [Schedule.effective_running hp]
        have hkc : k ≤ q.clamp now := by
          have hkn : k ≤ now := by omega
          rw [← Schedule.clamp_of_le hek]
          exact Schedule.clamp_mono hkn
        rw [hline _ hkc, Schedule.valueAt_eq_line (hak.trans hkc)]

/-! ### Preservation -/

theorem note_pause (ht : Tracks h q now) (ha : q.Allows max now .pause) :
    Tracks (h.note now .pause) (q.move now .pause) now := by
  obtain ⟨hp, hstart, hend, -⟩ := ha
  obtain ⟨k, hak, hsk, hk, -, hline⟩ := ht.running hp
  have hkn : k ≤ now := by omega
  refine ⟨ht.cliff, ht.latest, rfl, ht.changes_le, ht.pauses_le, ht.pending, nofun, ?_⟩
  rintro p ⟨⟩
  exact ⟨hak.trans hkn, hsk.trans hkn, ht.pauses_le, hline now hkn⟩

theorem note_resume (ht : Tracks h q now) (hq : q.Valid now) (ha : q.Allows max now .resume) :
    Tracks (h.note now .resume) (q.move now .resume) now := by
  obtain ⟨p, hp, hpn⟩ := ha
  rw [Option.mem_def] at hp
  obtain ⟨hap, hsp, hpp, href⟩ := ht.paused p hp
  have hsince : h.since = some p := ht.since.trans hp
  have hpauses : (h.note now .resume).pauses = h.pauses ++ [(p, now)] :=
    History.note_resume_pauses hsince
  have hmove : q.move now .resume = q.shift p (now - p) := by
    rw [Schedule.move, hp]; rfl
  -- the anchor was active at the pause, so it moves with the start
  have hshifts : q.AnchorShifts p := by
    unfold Schedule.anchor at hap
    cases hck : q.checkpoint with
    | none => exact .inr ⟨hck, ht.cliff⟩
    | some c =>
        rw [hck] at hap
        exact .inl ⟨c, hck, hap⟩
  have hanchor : (q.shift p (now - p)).anchor = (q.anchor.1 + (now - p), q.anchor.2) :=
    Schedule.anchor_shift hshifts
  have hpauses_le : ∀ y ∈ (h.note now .resume).pauses, y.2 ≤ now := by
    intro y hy
    rw [hpauses] at hy
    rcases List.mem_append.mp hy with hy | hy
    · exact ht.pauses_le y hy
    · rw [List.mem_singleton] at hy
      rw [hy]
  rw [hmove]
  refine ⟨ht.cliff, ht.latest, rfl, ht.changes_le, hpauses_le, ?_, fun _ => ?_, ?_⟩
  · intro hlt
    have hstart := hq.start_le_paused p hp
    have : now < q.start + (now - p) := hlt
    omega
  · refine ⟨now, by rw [hanchor]; dsimp only; omega, hsp.trans hpn, le_max_left _ _, ?_, ?_⟩
    · intro e he
      obtain ⟨e₀, he₀, rfl⟩ := Option.mem_map.mp he
      have := hq.paused_le_stop p hp e₀ he₀
      omega
    · intro x hx
      have hafter := History.reference_after (h := h.note now .resume) (hsp.trans hpn)
        ht.changes_le hpauses_le hx
      -- the seconds of the pause itself are not counted
      have hgap : (h.note now .resume).reference now = h.reference p := by
        rw [← History.reference_resume hsince hpn (le_refl p)]
        show tally _ h.start now = tally _ h.start p
        rw [tally_split hsp hpn, tally_const (r := 0) hpn, zero_mul, add_zero]
        intro s hs hsn
        refine if_pos ⟨(p, now), ?_, hs, hsn⟩
        rw [hpauses]
        exact List.mem_append_right _ List.mem_cons_self
      rw [hafter, hgap, href, show (h.note now .resume).latest = q.rate from ht.latest]
      unfold Schedule.line
      rw [hanchor]
      show _ = q.anchor.2 + q.rate * (x - (q.anchor.1 + (now - p)))
      ring
  · intro p' hp'
    cases hp'

theorem note_changeRate {r : Int} (ht : Tracks h q now) (hq : q.Valid now)
    (ha : q.Allows max now (.changeRate r)) :
    Tracks (h.note now (.changeRate r)) (q.move now (.changeRate r)) now := by
  obtain ⟨-, hend, -, -⟩ := ha
  have hval := ht.value hq
  have hchanges : ∀ c ∈ (h.note now (.changeRate r)).changes, c.1 ≤ now := by
    intro c hc
    rcases List.mem_append.mp hc with hc | hc
    · exact ht.changes_le c hc
    · rw [List.mem_singleton] at hc
      rw [hc]
  have hanchor : (q.move now (.changeRate r)).anchor = q.checkpointFor now := rfl
  have hlatest : (h.note now (.changeRate r)).latest = r := History.latest_changeRate r
  refine ⟨ht.cliff, hlatest, ht.since, hchanges, ht.pauses_le, ht.pending, fun hp => ?_,
    fun p hp => ?_⟩
  · have hp : q.pausedAt = none := hp
    by_cases hs : now < q.start
    · -- a pending stream: the new rate holds from the start
      have hcp : q.checkpointFor now = (q.start, 0) := by
        unfold Schedule.checkpointFor
        rw [ht.cliff, hp]
        exact if_pos hs
      have hstart := ht.pending hs
      refine ⟨q.start, by rw [hanchor, hcp], hstart.ge, le_max_right _ _,
        fun e he => (hq.start_lt e he).le, fun x hx => ?_⟩
      have hafter := History.reference_after (h := h.note now (.changeRate r)) hstart.ge
        (fun c hc => (hchanges c hc).trans hs.le) (fun y hy => (ht.pauses_le y hy).trans hs.le) hx
      have hnone : (h.note now (.changeRate r)).reference q.start = 0 := tally_empty hstart.le
      rw [hafter, hnone, hlatest]
      unfold Schedule.line
      rw [hanchor, hcp]
      rfl
    · have hcp : q.checkpointFor now = (now, q.value now) := by
        unfold Schedule.checkpointFor
        rw [ht.cliff, hp]
        exact if_neg hs
      obtain ⟨k, -, hsk, hk, -, -⟩ := ht.running hp
      have hsn : h.start ≤ now := by omega
      have heff : q.effective now = now := by
        rw [Schedule.effective_running hp]
        exact Schedule.clamp_of_le fun e he => (hend e he).le
      refine ⟨now, by rw [hanchor, hcp], hsn, le_max_left _ _, fun e he => (hend e he).le,
        fun x hx => ?_⟩
      have hafter := History.reference_after (h := h.note now (.changeRate r)) hsn hchanges
        ht.pauses_le hx
      rw [hafter, History.reference_changeRate (le_refl now), hlatest]
      unfold Schedule.line
      rw [hanchor, hcp, hval, heff]
      rfl
  · have hp : q.pausedAt = some p := hp
    obtain ⟨hap, hsp, hpp, href⟩ := ht.paused p hp
    have hstart := hq.start_le_paused p hp
    have hcp : q.checkpointFor now = (p, q.value now) := by
      unfold Schedule.checkpointFor
      rw [ht.cliff, hp]
      exact if_neg (not_lt.mpr hstart)
    refine ⟨by rw [hanchor, hcp], hsp, hpp, ?_⟩
    rw [History.reference_changeRate (hq.paused_le_now p hp)]
    unfold Schedule.line
    rw [hanchor, hcp, hval, hq.effective_paused hp]
    show _ = h.reference p + _ * (p - p)
    ring

/-- Every move but the setting of a cliff is tracked. -/
theorem note (ht : Tracks h q now) (hq : q.Valid now) {m : Move} (ha : q.Allows max now m)
    (hm : ∀ c u, m ≠ .setCliff c u) : Tracks (h.note now m) (q.move now m) now := by
  cases m with
  | pause => exact ht.note_pause ha
  | resume => exact ht.note_resume hq ha
  | changeRate r => exact ht.note_changeRate hq ha
  | extend x =>
      have hgrow : ∀ e ∈ q.stop.map (· + x), ∃ e₀ ∈ q.stop, e₀ ≤ e := by
        intro e he
        obtain ⟨e₀, he₀, rfl⟩ := Option.mem_map.mp he
        have := ha.1
        exact ⟨e₀, he₀, by omega⟩
      refine ⟨ht.cliff, ht.latest, ht.since, ht.changes_le, ht.pauses_le, ht.pending, fun hp => ?_,
        ht.paused⟩
      obtain ⟨k, hak, hsk, hk, hek, hline⟩ := ht.running hp
      refine ⟨k, hak, hsk, hk, fun e he => ?_, hline⟩
      obtain ⟨e₀, he₀, hle⟩ := hgrow e he
      exact (hek e₀ he₀).trans hle
  | setCliff c u => exact absurd rfl (hm c u)
  | idle => exact ht

end Tracks

end Drip.Stream
