import Mathlib.Algebra.BigOperators.Group.List.Basic
import Mathlib.Algebra.Order.BigOperators.Group.List
import Mathlib.Data.Rat.Floor

/-!
# Support — Weighted

Means of values with weights: a list of pairs of a value and a weight that is not negative.

* `weight_pos_iff`: there is a mean where some weight is positive.
* `floor_mean`: the mean rounded down is a quotient of integers.
* `floor_mean_mem`: it lies between any bounds on the values that count.
-/

namespace Weighted

variable {xs : List (Int × Int)} {lo hi : Int}

/-- The sum of the weights. -/
def weight (xs : List (Int × Int)) : Int := (xs.map Prod.snd).sum

/-- The sum of the values, each as often as its weight says. -/
def sum (xs : List (Int × Int)) : Int := (xs.map fun x => x.1 * x.2).sum

/-- The exact mean. -/
def mean (xs : List (Int × Int)) : ℚ := sum xs / weight xs

@[simp] theorem weight_nil : weight [] = 0 := rfl
@[simp] theorem sum_nil : sum [] = 0 := rfl

@[simp]
theorem weight_cons (x : Int × Int) : weight (x :: xs) = x.2 + weight xs := List.sum_cons

@[simp]
theorem sum_cons (x : Int × Int) : sum (x :: xs) = x.1 * x.2 + sum xs := List.sum_cons

/-- No weight is negative. -/
def Proper (xs : List (Int × Int)) : Prop := ∀ x ∈ xs, 0 ≤ x.2

theorem Proper.tail {x : Int × Int} (h : Proper (x :: xs)) : Proper xs :=
  fun y hy => h y (List.mem_cons_of_mem x hy)

theorem weight_nonneg (h : Proper xs) : 0 ≤ weight xs := by
  refine List.sum_nonneg fun w hw => ?_
  obtain ⟨x, hx, rfl⟩ := List.mem_map.mp hw
  exact h x hx

theorem weight_pos_iff (h : Proper xs) : 0 < weight xs ↔ ∃ x ∈ xs, 0 < x.2 := by
  induction xs with
  | nil => simp
  | cons x xs ih =>
      have hx := h x List.mem_cons_self
      have hxs := weight_nonneg h.tail
      rw [weight_cons, List.exists_mem_cons_iff, ← ih h.tail]
      omega

/-! ### Bounds -/

/-- A bound on the values that count. -/
theorem mul_weight_le (h : Proper xs) (hlo : ∀ x ∈ xs, 0 < x.2 → lo ≤ x.1) :
    lo * weight xs ≤ sum xs := by
  induction xs with
  | nil => simp
  | cons x xs ih =>
      have hxs := ih h.tail fun y hy => hlo y (List.mem_cons_of_mem x hy)
      have hx : lo * x.2 ≤ x.1 * x.2 := by
        rcases (h x List.mem_cons_self).eq_or_lt with hzero | hpos
        · rw [← hzero, mul_zero, mul_zero]
        · exact mul_le_mul_of_nonneg_right (hlo x List.mem_cons_self hpos) hpos.le
      rw [weight_cons, sum_cons, mul_add]
      exact add_le_add hx hxs

theorem le_mul_weight (h : Proper xs) (hhi : ∀ x ∈ xs, 0 < x.2 → x.1 ≤ hi) :
    sum xs ≤ hi * weight xs := by
  induction xs with
  | nil => simp
  | cons x xs ih =>
      have hxs := ih h.tail fun y hy => hhi y (List.mem_cons_of_mem x hy)
      have hx : x.1 * x.2 ≤ hi * x.2 := by
        rcases (h x List.mem_cons_self).eq_or_lt with hzero | hpos
        · rw [← hzero, mul_zero, mul_zero]
        · exact mul_le_mul_of_nonneg_right (hhi x List.mem_cons_self hpos) hpos.le
      rw [weight_cons, sum_cons, mul_add]
      exact add_le_add hx hxs

theorem floor_mean (h : Proper xs) : ⌊mean xs⌋ = sum xs / weight xs := by
  obtain ⟨n, hn⟩ := Int.eq_ofNat_of_zero_le (weight_nonneg h)
  unfold mean
  rw [hn]
  exact Rat.floor_intCast_div_natCast (sum xs) n

theorem floor_mean_mem (h : Proper xs) (hpos : 0 < weight xs)
    (hlo : ∀ x ∈ xs, 0 < x.2 → lo ≤ x.1) (hhi : ∀ x ∈ xs, 0 < x.2 → x.1 ≤ hi) :
    lo ≤ ⌊mean xs⌋ ∧ ⌊mean xs⌋ ≤ hi := by
  rw [floor_mean h]
  refine ⟨(Int.le_ediv_iff_mul_le hpos).mpr (mul_weight_le h hlo), ?_⟩
  exact Int.ediv_le_of_le_mul hpos (le_mul_weight h hhi)

end Weighted
