import Drip.Support.Paced
import Drip.Oracle.Majority

/-!
# Oracle — Pacing

How often a feeder submits, over whole runs.  `submit_price` looks at the time of the feeder's own last
submission, which is forgotten when the feeder is purged or revoked, and when the scale of the prices changes.

* `submissions_of_run`: how many submissions of a feeder there are at most in the time of a run.
-/

namespace Drip.Oracle
open Chain

variable {here f caller : Address} {m m₀ m' : Moment} {v : Visit} {vs us : List Visit} {i : Invocation}
variable {s s' : State} {env : Env} {price : U64} {b b' : Book} {gap : Int}

/-- An accepted submission of `f`. -/
def Visit.submits (f : Address) : Visit → Bool
  | .made i _ =>
      match i.entry with
      | .submitPrice caller _ => caller == f
      | _ => false
  | .refused _ _ => false

/-- An accepted call that may drop the submission of `f`. -/
def Visit.drops (f : Address) : Visit → Bool
  | .made i _ => i.dropped == some f || i.entry.configures
  | .refused _ _ => false

/-- When `f` has submitted last, as the oracle knows it. -/
def Book.submittedAt (b : Book) (f : Address) : Option Int := (b.submission f).map fun data => data.updatedAt.val

/-- What the bound asks of a visit: an interval of `gap` at every submission of `f`. -/
def Limited (gap : Int) (f : Address) (m : Moment) (v : Visit) : Prop :=
  v.submits f = true → ∃ config ∈ m.state.store.config, gap ≤ config.minSubmitInterval.val

/-! ### A single visit -/

theorem checked_of_submitPrice (h : submitPrice env caller price s = .ok s') :
    checkPrice env.timestamp caller price s = .ok () := by
  simp only [submitPrice, bind_eq_ok] at h
  obtain ⟨s₁, hpaused, -, -, u, hcheck, -⟩ := h
  obtain ⟨stored, rfl⟩ := requireNotPaused_spec hpaused
  exact hcheck

/-- The last submission of the feeder is long enough ago. -/
theorem interval_of_check {config : OracleConfig} (hconfig : s.store.config = some config)
    (hgap : 0 < gap) (hle : gap ≤ config.minSubmitInterval.val)
    (h : checkPrice env.timestamp caller price s = .ok ()) :
    ∀ l ∈ s.store.toBook.submittedAt caller, l + gap ≤ env.timestamp.val := by
  simp only [checkPrice, hconfig, bind_eq_ok, reject_eq_ok] at h
  obtain ⟨-, -, -, -, -, -, -, -, -, -, hsoon⟩ := h
  intro l hl
  obtain ⟨last, hlast, rfl⟩ := Option.map_eq_some_iff.mp hl
  have hlate : ¬ age env.timestamp last.updatedAt < config.minSubmitInterval :=
    fun hearly => hsoon ⟨hgap.trans_le hle, last, hlast, hearly⟩
  have hage : (age env.timestamp last.updatedAt).val = max 0 (env.timestamp.val - last.updatedAt.val) := by
    have hge := last.updatedAt.ge
    have hmax := env.timestamp.le
    rw [age, Ranged.saturatingSub, Ranged.val_clamp]
    omega
  rw [Ranged.lt_def, hage] at hlate
  omega

theorem submittedAt_of_submit : (b.submit env.timestamp caller price).submittedAt caller =
    some env.timestamp.val := by
  unfold Book.submittedAt
  show (((b.post env.timestamp caller price).enroll caller).submission caller).map _ = _
  rw [posted_submission, Function.update_self]
  rfl

/-- No other change of the book touches the submission of `f`. -/
theorem Book.Change.submittedAt (h : b.Change i b') (hsubmits : ∀ price, i.entry ≠ .submitPrice f price)
    (hdropped : i.dropped ≠ some f) (hconfigures : i.entry.configures = false) :
    b'.submittedAt f = b.submittedAt f := by
  unfold Book.submittedAt
  cases h with
  | same _ | limited _ _ | connected _ _ => rfl
  | @dropped account hd =>
      have hne : f ≠ account := fun heq => hdropped (hd.trans (congrArg some heq.symm))
      rw [drop_submission, Function.update_of_ne hne]
  | @submitted caller price hentry _ _ _ =>
      have hne : f ≠ caller := fun heq => hsubmits price (heq ▸ hentry)
      show (((b.post i.env.timestamp caller price).enroll caller).submission f).map _ = _
      rw [posted_submission, Function.update_of_ne hne]
  | configured hc _ => exact absurd (hc.symm.trans hconfigures) Bool.false_ne_true.symm
  | read _ _ => rw [read_rest.1]

/-! ### Over runs -/

theorem paced_submissions (hgap : 0 < gap) :
    Paced (fun m v m' => Visits here m v m' ∧ Limited gap f m v) (fun m => Sound m.state)
      (Visit.submits f) (Visit.drops f) (fun m => m.state.store.toBook.submittedAt f)
      (fun m => m.now.val) gap := by
  refine ⟨fun hs hstep => hstep.1.sound hs, fun _ hstep => hstep.1.time.1, ?_, ?_⟩
  · rintro m v m' hs ⟨hvisit, hlimited⟩ hmarked
    obtain ⟨config, hconfig, hle⟩ := hlimited hmarked
    cases hvisit with
    | refused _ _ _ => cases hmarked
    | @made i reply s' _ _ h =>
        obtain ⟨feeds, env, entry⟩ := i
        cases entry with
        | submitPrice caller price =>
            obtain rfl : caller = f := eq_of_beq hmarked
            have hbook := (enters_of_enter hs h).book
            simp only [enter, done, bind_eq_ok, pure_eq_ok] at h
            obtain ⟨s₁, hsubmit, -⟩ := h
            refine ⟨?_, interval_of_check hconfig hgap hle (checked_of_submitPrice hsubmit)⟩
            show s'.store.toBook.submittedAt caller = _
            rw [hbook]
            exact submittedAt_of_submit
        | _ => cases hmarked
  · rintro m v m' hs ⟨hvisit, -⟩ hmarked hresets
    cases hvisit with
    | refused _ _ _ => rfl
    | @made i reply s' _ _ h =>
        obtain ⟨hdropped, hconfigures⟩ := Bool.or_eq_false_iff.mp hresets
        refine (enters_of_enter hs h).change.submittedAt (fun price hentry => ?_) (fun heq => ?_) hconfigures
        · unfold Visit.submits at hmarked
          dsimp only at hmarked
          rw [hentry] at hmarked
          exact Bool.false_ne_true (hmarked.symm.trans (beq_self_eq_true f))
        · rw [heq, beq_self_eq_true] at hdropped
          cases hdropped

/-- **Submissions are paced**: in any part of a run in which the minimum interval is never below `gap` when `f`
submits, there are no more accepted submissions of `f` than such intervals fit into its time, and one, and one
more for each purge or revocation of `f` and each configuration. -/
theorem submissions_of_run (hgap : 0 < gap) (hbefore : Run (Visits here) Moment.fresh us m₀)
    (h : Run (fun m v m' => Visits here m v m' ∧ Limited gap f m v) m₀ vs m) :
    (vs.countP (Visit.submits f) : Int) * gap ≤
      m.now.val - m₀.now.val + (vs.countP (Visit.drops f) + 1) * gap :=
  (paced_submissions hgap).count_le_resets hgap.le h (sound_of_run hbefore)

namespace Sample

/-- One feeder, and half a minute between its submissions. -/
def spaced : Moment := visited silent [
  (.lit 100, .administer (.grantRole (.account 1) .priceFeeder (.account 2))),
  (.lit 100, .configureOracle (.account 1) ⟨.lit 8, .lit 1, .lit 300, .lit 0, .lit 30, .lit 1⟩)]

def early : Visit × Moment := lodged spaced (.account 2) (.lit 100) (.lit 110)
def refused : Visit × Moment := lodged early.2 (.account 2) (.lit 101) (.lit 139)
def late : Visit × Moment := lodged refused.2 (.account 2) (.lit 101) (.lit 140)

theorem run_late : Run (fun m v m' => Visits address m v m' ∧ Limited 30 (.account 2) m v) early.2
    [refused.1, late.1] late.2 :=
  ((Run.nil _).snoc ⟨visits_visit rfl (by decide), fun _ => by decide +kernel⟩).snoc
    ⟨visits_visit rfl (by decide), fun _ => by decide +kernel⟩

end Sample

/-- A second submission is refused a second too early: one in the thirty seconds after the first. -/
theorem submissions_of_run_late :
    ([Sample.refused.1, Sample.late.1].countP (Visit.submits (.account 2)) : Int) = 1 ∧
    ([Sample.refused.1, Sample.late.1].countP (Visit.submits (.account 2)) : Int) * 30 ≤
      Sample.late.2.now.val - Sample.early.2.now.val +
        ([Sample.refused.1, Sample.late.1].countP (Visit.drops (.account 2)) + 1) * 30 := by
  have hrun : Run (Visits Sample.address) Moment.fresh _ Sample.spaced :=
    Sample.run_visited Sample.silent _ (by decide)
  exact ⟨by decide +kernel, submissions_of_run (by decide)
    (hrun.snoc (visits_visit rfl (by decide))) Sample.run_late⟩

end Drip.Oracle
