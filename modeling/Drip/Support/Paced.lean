import Mathlib.Algebra.Order.Ring.Int
import Drip.Support.Runs

/-!
# Support — Paced

Systems in which some of the steps keep a distance.  A marked step writes down its time, and is taken only
when the time written down last is long enough ago.  Some steps may reset what is written down.

* `Paced.count_le_resets`: how many marked steps a run has at most for the time it takes and its resets.
* `Paced.count_le`: the same without resets.
-/

variable {σ α : Type} {step : σ → α → σ → Prop} {s t : σ} {as : List α}

/-- The marked steps from states that satisfy `inv` are `gap` apart. -/
structure Paced (step : σ → α → σ → Prop) (inv : σ → Prop) (marked resets : α → Bool) (last : σ → Option Int)
    (clock : σ → Int) (gap : Int) : Prop where
  keeps : ∀ {s a t}, inv s → step s a t → inv t
  forward : ∀ {s a t}, inv s → step s a t → clock s ≤ clock t
  apart : ∀ {s a t}, inv s → step s a t → marked a = true →
    last t = some (clock t) ∧ ∀ l ∈ last s, l + gap ≤ clock t
  alone : ∀ {s a t}, inv s → step s a t → marked a = false → resets a = false → last t = last s

namespace Paced

variable {inv : σ → Prop} {marked resets : α → Bool} {last : σ → Option Int} {clock : σ → Int}
variable {gap start : Int} {k r : Nat}

/-- Where a run stands after `k` marked steps and `r` resets: either the next marked step may be taken at
once, or the last one is known. -/
def Spent (last : σ → Option Int) (clock : σ → Int) (gap start : Int) (k r : Nat) (t : σ) : Prop :=
  k * gap ≤ clock t - start + r * gap ∨
    ∃ l, last t = some l ∧ l ≤ clock t ∧ k * gap ≤ l - start + (r + 1) * gap

theorem spent_marked (hlast : last t = some (clock t)) (hapart : ∀ l ∈ last s, l + gap ≤ clock t)
    (hforward : clock s ≤ clock t) (h : Spent last clock gap start k r s) :
    Spent last clock gap start (k + 1) r t := by
  refine .inr ⟨_, hlast, le_refl _, ?_⟩
  rw [Nat.cast_add, Nat.cast_one, Int.add_mul, Int.add_mul, Int.one_mul]
  obtain h | ⟨l, hl, -, h⟩ := h
  · omega
  · have hgap := hapart l hl
    rw [Int.add_mul, Int.one_mul] at h
    omega

theorem spent_reset (hgap : 0 ≤ gap) (hforward : clock s ≤ clock t) (h : Spent last clock gap start k r s) :
    Spent last clock gap start k (r + 1) t := by
  refine .inl ?_
  rw [Nat.cast_add, Nat.cast_one, Int.add_mul, Int.one_mul]
  obtain h | ⟨l, -, hle, h⟩ := h
  · omega
  · rw [Int.add_mul, Int.one_mul] at h
    omega

theorem spent_alone (hlast : last t = last s) (hforward : clock s ≤ clock t)
    (h : Spent last clock gap start k r s) : Spent last clock gap start k r t := by
  obtain h | ⟨l, hl, hle, h⟩ := h
  · exact .inl (by omega)
  · exact .inr ⟨l, hlast.trans hl, hle.trans hforward, h⟩

theorem spent_of_run (hp : Paced step inv marked resets last clock gap) (hgap : 0 ≤ gap)
    (h : Run step s as t) (hs : inv s) :
    inv t ∧ Spent last clock gap (clock s) (as.countP marked) (as.countP resets) t := by
  induction h with
  | nil => exact ⟨hs, .inl (by simp)⟩
  | @snoc t u as a _ hstep ih =>
      obtain ⟨ht, hspent⟩ := ih
      have hforward := hp.forward ht hstep
      refine ⟨hp.keeps ht hstep, ?_⟩
      rw [List.countP_append, List.countP_append, List.countP_singleton, List.countP_singleton]
      cases hmarked : marked a with
      | true =>
          obtain ⟨hlast, hapart⟩ := hp.apart ht hstep hmarked
          have hnext := spent_marked hlast hapart hforward hspent
          cases hresets : resets a with
          -- a reset only helps
          | true => exact spent_reset hgap (le_refl _) hnext
          | false => exact hnext
      | false =>
          cases hresets : resets a with
          | true => exact spent_reset hgap hforward hspent
          | false => exact spent_alone (hp.alone ht hstep hmarked hresets) hforward hspent

/-- A run has no more marked steps than gaps fit into the time it takes, and one, and one for each reset. -/
theorem count_le_resets (hp : Paced step inv marked resets last clock gap) (hgap : 0 ≤ gap)
    (h : Run step s as t) (hs : inv s) :
    as.countP marked * gap ≤ clock t - clock s + (as.countP resets + 1) * gap := by
  obtain ⟨-, hspent⟩ := hp.spent_of_run hgap h hs
  rw [Int.add_mul, Int.one_mul]
  obtain hle | ⟨l, -, hle, hspan⟩ := hspent
  · omega
  · rw [Int.add_mul, Int.one_mul] at hspan
    omega

/-- Without resets: no more than gaps fit into the time, and one. -/
theorem count_le (hp : Paced step inv marked (fun _ => false) last clock gap) (hgap : 0 ≤ gap)
    (h : Run step s as t) (hs : inv s) : as.countP marked * gap ≤ clock t - clock s + gap := by
  have hle := hp.count_le_resets hgap h hs
  rw [List.countP_false, Function.const_apply] at hle
  rw [Int.add_mul, Int.one_mul] at hle
  omega

end Paced
