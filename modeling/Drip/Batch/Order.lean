import Mathlib.Data.List.TakeWhile
import Drip.Batch.Chunks

/-!
# Batch — Order

Which check a batch fails first.  `process_batch` documents an order: lengths, size, the sign of every
amount, and last the sum.  The last two share one pass, which stops at the first amount that is not
positive or at which the sum so far no longer fits, whichever comes first in the list.

* `addAmounts_eq_error`: what the pass reports, by the amounts before the first bad one.
* `process_reports`: both entry points report the same.
* `reported_iff`: they follow the documented order unless the amounts before a bad one already
  overflow.
-/

namespace Drip.Batch
open Chain

variable {host : Host} {env : Env} {funder token : Address} {recipients : List Address}
variable {amounts : List I128} {s : State} {e : Failure Error}

def sumOf (amounts : List I128) : Int := (amounts.map (·.val)).sum

@[simp] theorem sumOf_nil : sumOf [] = 0 := rfl

@[simp]
theorem sumOf_cons (x : I128) : sumOf (x :: amounts) = x.val + sumOf amounts := List.sum_cons

/-! ### The documented order -/

/-- The first of checks 1 to 4 that a batch fails, as documented. -/
def firstFailing (recipients : List Address) (amounts : List I128) : Option Error :=
  if recipients.length ≠ amounts.length then some .lengthMismatch
  else if maxBatchSize < amounts.length then some .batchTooLarge
  else if ∃ x ∈ amounts, x.val ≤ 0 then some .invalidAmount
  else if (Ranged.ofInt? (sumOf amounts) : Option I128) = none then some .arithmeticOverflow
  else none

/-- Among checks 1 to 4, a call fails with `c` alone, or with none. -/
def Reports {α : Type} (c : Option Error) (x : Result α) : Prop :=
  ∀ c' : Error, c'.ofTotal = true → (x = .error (err c') ↔ c = some c')

/-! ### The pass over the amounts -/

/-- The amounts before the first that is not positive. -/
def leading (amounts : List I128) : List I128 := amounts.takeWhile fun x => 0 < x.val

@[simp] theorem leading_nil : leading [] = [] := rfl

theorem leading_cons_pos {x : I128} (h : 0 < x.val) : leading (x :: amounts) = x :: leading amounts :=
  List.takeWhile_cons_of_pos (decide_eq_true h)

theorem leading_cons_neg {x : I128} (h : x.val ≤ 0) : leading (x :: amounts) = [] :=
  List.takeWhile_cons_of_neg (by simp [h])

theorem sumOf_leading_nonneg (amounts : List I128) : 0 ≤ sumOf (leading amounts) := by
  refine List.sum_nonneg fun v hv => ?_
  obtain ⟨x, hx, rfl⟩ := List.mem_map.mp hv
  have hpos : 0 < x.val := by simpa using List.mem_takeWhile_imp hx
  exact hpos.le

/-- Where every amount is positive, none is left out. -/
theorem leading_of_pos (h : ∀ x ∈ amounts, 0 < x.val) : leading amounts = amounts :=
  List.takeWhile_eq_self_iff.mpr fun x hx => decide_eq_true (h x hx)

theorem addAmount_of_nonpos {t x : I128} (h : x.val ≤ 0) : addAmount t x = .error (err .invalidAmount) :=
  bind_of_error (reject_of _ h)

theorem addAmount_of_pos {t x : I128} (h : 0 < x.val) :
    addAmount t x = okOr (t.checkedAdd x) (err .arithmeticOverflow) := by
  unfold addAmount
  rw [reject, if_neg (by omega)]
  rfl

theorem addAmounts_eq_error {t : I128} (ht : 0 ≤ t.val) : amounts.foldlM addAmount t = .error e ↔
    (e = err .arithmeticOverflow ∧ i128Max < t.val + sumOf (leading amounts)) ∨
    (e = err .invalidAmount ∧ t.val + sumOf (leading amounts) ≤ i128Max ∧
      ∃ x ∈ amounts, x.val ≤ 0) := by
  induction amounts generalizing t with
  | nil =>
      have hle := t.le
      simp [pure, Except.pure, hle]
  | cons x xs ih =>
      rw [List.foldlM_cons]
      rcases le_or_gt x.val 0 with hx | hx
      · -- a bad amount: nothing before it overflowed
        have hle := t.le
        rw [bind_of_error (addAmount_of_nonpos hx), leading_cons_neg hx]
        simp [hx, hle, eq_comm]
      · have hnn := sumOf_leading_nonneg xs
        rw [addAmount_of_pos hx, leading_cons_pos hx, sumOf_cons]
        cases hadd : t.checkedAdd x with
        | none =>
            have hover := Ranged.ofInt?_eq_none.mp hadd
            have hmax := i128Max_eq
            have hlt : i128Max < t.val + (x.val + sumOf (leading xs)) := by omega
            have hfail : okOr (none : Option I128) (err .arithmeticOverflow) =
                .error (err .arithmeticOverflow) := rfl
            rw [bind_of_error hfail]
            simp [hlt, hlt.not_ge, eq_comm]
        | some u =>
            have hu := Ranged.checkedAdd_eq_some.mp hadd
            rw [bind_of_ok (okOr_eq_ok.mpr rfl), ih (by omega), hu, add_assoc]
            simp [hx.not_ge]

theorem validateTotal_eq_error : validateTotal recipients amounts = .error e ↔
    (recipients.length ≠ amounts.length ∧ e = err .lengthMismatch) ∨
    (recipients.length = amounts.length ∧ maxBatchSize < amounts.length ∧ e = err .batchTooLarge) ∨
    (recipients.length = amounts.length ∧ amounts.length ≤ maxBatchSize ∧
      amounts.foldlM addAmount (.lit 0) = .error e) := by
  unfold validateTotal
  by_cases hlen : recipients.length = amounts.length
  · rw [bind_of_ok (a := ()) (reject_eq_ok.mpr (not_not_intro hlen))]
    rcases Nat.lt_or_ge maxBatchSize amounts.length with hsize | hsize
    · rw [bind_of_error (reject_of _ hsize)]
      simp [hlen, hsize, hsize.not_ge, eq_comm]
    · rw [bind_of_ok (a := ()) (reject_eq_ok.mpr hsize.not_gt)]
      simp [hlen, hsize, hsize.not_gt]
  · rw [bind_of_error (reject_of _ hlen)]
    simp [hlen, eq_comm]

/-- `process_batch` fails checks 1 to 4 as the preview does. -/
theorem process_reports (h : Checked e) : processBatch host env funder token recipients amounts s =
    .error e ↔ validateTotal recipients amounts = .error e := by
  cases htotal : validateTotal recipients amounts with
  | ok n =>
      refine ⟨fun hfail => ?_, nofun⟩
      exact absurd h (only_unchecked htotal e hfail)
  | error e' =>
      unfold processBatch
      rw [bind_of_error htotal]
      simp

theorem reports_process {c : Option Error} :
    Reports c (processBatch host env funder token recipients amounts s) ↔
    Reports c (previewBatch recipients amounts) :=
  forall_congr' fun _ => forall_congr' fun hc => by
    rw [process_reports ⟨_, hc, rfl⟩, previewBatch]

/-! ### When the order is kept -/

/-- No amount is bad, or those before the first bad one add up without overflow. -/
def SignFirst (amounts : List I128) : Prop :=
  (∃ x ∈ amounts, x.val ≤ 0) → sumOf (leading amounts) ≤ i128Max

theorem firstFailing_of_bad (hlen : recipients.length = amounts.length)
    (hsize : amounts.length ≤ maxBatchSize) (hbad : ∃ x ∈ amounts, x.val ≤ 0) :
    firstFailing recipients amounts = some .invalidAmount := by
  simp [firstFailing, hlen, hsize.not_gt, hbad]

theorem firstFailing_of_pos (hlen : recipients.length = amounts.length)
    (hsize : amounts.length ≤ maxBatchSize) (hpos : ∀ x ∈ amounts, 0 < x.val) {c : Error} :
    firstFailing recipients amounts = some c ↔ c = .arithmeticOverflow ∧ i128Max < sumOf amounts := by
  have hnn := sumOf_leading_nonneg amounts
  rw [leading_of_pos hpos] at hnn
  have hgood : ¬ ∃ x ∈ amounts, x.val ≤ 0 := fun ⟨x, hx, h⟩ => h.not_gt (hpos x hx)
  have hmax := i128Max_eq
  rw [firstFailing, if_neg (not_not_intro hlen), if_neg hsize.not_gt, if_neg hgood]
  split
  next hover =>
    have hlt : i128Max < sumOf amounts := by have := Ranged.ofInt?_eq_none.mp hover; omega
    simp [hlt, eq_comm]
  next hfits =>
    rw [Ranged.ofInt?_eq_none] at hfits
    have hle : ¬ i128Max < sumOf amounts := by omega
    simp [hle]

theorem preview_reports (hlen : recipients.length = amounts.length)
    (hsize : amounts.length ≤ maxBatchSize) :
    Reports (firstFailing recipients amounts) (previewBatch recipients amounts) ↔
    SignFirst amounts := by
  have hfails : ∀ e, previewBatch recipients amounts = .error e ↔
      (e = err .arithmeticOverflow ∧ i128Max < sumOf (leading amounts)) ∨
      (e = err .invalidAmount ∧ sumOf (leading amounts) ≤ i128Max ∧ ∃ x ∈ amounts, x.val ≤ 0) := by
    intro e
    have hloop := @addAmounts_eq_error amounts e (.lit 0) le_rfl
    simpa [previewBatch, validateTotal_eq_error, hlen, hsize, hsize.not_gt] using hloop
  unfold Reports
  simp only [hfails]
  constructor
  · -- an overflow before a bad amount would be reported in its place
    intro h hbad
    by_contra hover
    have hcase := (h .arithmeticOverflow rfl).mp (.inl ⟨rfl, not_le.mp hover⟩)
    rw [firstFailing_of_bad hlen hsize hbad] at hcase
    cases hcase
  · intro h c _
    by_cases hbad : ∃ x ∈ amounts, x.val ≤ 0
    · have hle := h hbad
      rw [firstFailing_of_bad hlen hsize hbad]
      simp [hbad, hle, hle.not_gt, eq_comm]
    · have hpos : ∀ x ∈ amounts, 0 < x.val := fun x hx => not_le.mp fun hx' => hbad ⟨x, hx, hx'⟩
      rw [firstFailing_of_pos hlen hsize hpos, leading_of_pos hpos]
      simp [hbad]

/-- **The documented order.**  Both entry points report the documented first failing check, unless
a batch of the right shape has amounts that overflow before one that is not positive. -/
theorem reported_iff :
    (Reports (firstFailing recipients amounts) (previewBatch recipients amounts) ∧
      ∀ host env funder token s, Reports (firstFailing recipients amounts)
        (processBatch host env funder token recipients amounts s)) ↔
    (recipients.length = amounts.length → amounts.length ≤ maxBatchSize → SignFirst amounts) := by
  simp only [reports_process]
  constructor
  · intro ⟨h, _⟩ hlen hsize
    exact (preview_reports hlen hsize).mp h
  · intro h
    have hpreview : Reports (firstFailing recipients amounts) (previewBatch recipients amounts) := by
      by_cases hlen : recipients.length = amounts.length
      · rcases Nat.lt_or_ge maxBatchSize amounts.length with hsize | hsize
        · intro c _
          simp [firstFailing, previewBatch, validateTotal_eq_error, hlen, hsize, hsize.not_ge, eq_comm]
        · exact (preview_reports hlen hsize).mpr (h hlen hsize)
      · intro c _
        simp [firstFailing, previewBatch, validateTotal_eq_error, hlen, eq_comm]
    exact ⟨hpreview, fun _ _ _ _ _ => hpreview⟩

/-- Two amounts that overflow, then a zero. -/
theorem overflow_before_sign :
    firstFailing (List.replicate 3 Sample.payer) [.lit i128Max, .lit 1, .lit 0] =
      some .invalidAmount ∧
    previewBatch (List.replicate 3 Sample.payer) [.lit i128Max, .lit 1, .lit 0] =
      .error (err .arithmeticOverflow) ∧
    processBatch Sample.others Sample.invocation Sample.payer Sample.asset
      (List.replicate 3 Sample.payer) [.lit i128Max, .lit 1, .lit 0] Sample.state =
      .error (err .arithmeticOverflow) := by
  have hpreview : previewBatch (List.replicate 3 Sample.payer) [.lit i128Max, .lit 1, .lit 0] =
      .error (err .arithmeticOverflow) := rfl
  refine ⟨by decide, hpreview, ?_⟩
  exact (process_reports ⟨_, rfl, rfl⟩).mpr hpreview

end Drip.Batch
