import Mathlib.Logic.Function.Iterate

/-!
# Support — Circuit

A walk round a circle of `n` places, in turns: from the place `c` a turn goes `w c` places on, and
passes each of them.

* `passed_iff`: what has been passed is what lies within the distance travelled.
* `covers_iff`: the walk has been everywhere once it has travelled `n` places.
* `capped_covers`: where a turn is cut short at a last number `m`, at most one turn of the first
  round is.
-/

namespace Circuit

variable {n c x t b m : Nat} {w : Nat → Nat}

/-- Where a turn from `c` ends. -/
def turn (n : Nat) (w : Nat → Nat) (c : Nat) : Nat := (c + w c) % n

/-- A turn from `c` passes `x`. -/
def Passes (n : Nat) (w : Nat → Nat) (c x : Nat) : Prop := ∃ j < w c, (c + (j + 1)) % n = x

/-- How far `t` turns go. -/
def travelled (n : Nat) (w : Nat → Nat) (c : Nat) : Nat → Nat
  | 0 => 0
  | t + 1 => travelled n w c t + w ((turn n w)^[t] c)

@[simp] theorem travelled_zero : travelled n w c 0 = 0 := rfl

@[simp]
theorem travelled_succ : travelled n w c (t + 1) = travelled n w c t + w ((turn n w)^[t] c) := rfl

theorem turns_eq (hc : c < n) : (turn n w)^[t] c = (c + travelled n w c t) % n := by
  induction t with
  | zero => simp [Nat.mod_eq_of_lt hc]
  | succ t ih =>
      rw [Function.iterate_succ_apply', travelled_succ, turn, ih, Nat.mod_add_mod, Nat.add_assoc]

/-! ### What has been passed -/

/-- One of the first `t` turns passes `x`. -/
def Passed (n : Nat) (w : Nat → Nat) (c t x : Nat) : Prop := ∃ i < t, Passes n w ((turn n w)^[i] c) x

theorem passed_succ :
    Passed n w c (t + 1) x ↔ Passed n w c t x ∨ Passes n w ((turn n w)^[t] c) x :=
  Nat.exists_lt_succ_right

theorem passed_iff (hc : c < n) :
    Passed n w c t x ↔ ∃ s, 0 < s ∧ s ≤ travelled n w c t ∧ (c + s) % n = x := by
  induction t with
  | zero =>
      simp only [Passed, travelled_zero, Nat.not_lt_zero, false_and, exists_false, false_iff]
      rintro ⟨s, hs, hs', -⟩
      omega
  | succ t ih =>
      -- the turn adds the distances after those travelled before it
      have hlast : Passes n w ((turn n w)^[t] c) x ↔
          ∃ j < w ((turn n w)^[t] c), (c + (travelled n w c t + j + 1)) % n = x := by
        refine exists_congr fun j => and_congr_right fun _ => ?_
        rw [turns_eq hc, Nat.mod_add_mod, Nat.add_assoc, Nat.add_assoc]
      rw [passed_succ, ih, hlast, travelled_succ]
      constructor
      · rintro (⟨s, hs, hle, hx⟩ | ⟨j, hj, hx⟩)
        · exact ⟨s, hs, by omega, hx⟩
        · exact ⟨travelled n w c t + j + 1, by omega, by omega, hx⟩
      · rintro ⟨s, hs, hle, hx⟩
        rcases Nat.lt_or_ge (travelled n w c t) s with hlt | hge
        · obtain ⟨j, rfl⟩ := Nat.exists_eq_add_of_lt hlt
          exact .inr ⟨j, by omega, hx⟩
        · exact .inl ⟨s, hs, hge, hx⟩

/-- The place a walk starts from is passed last. -/
theorem start_passed_iff (hc : c < n) : Passed n w c t c ↔ n ≤ travelled n w c t := by
  rw [passed_iff hc]
  constructor
  · rintro ⟨s, hs, hle, hx⟩
    by_contra hlt
    rcases Nat.lt_or_ge (c + s) n with hs' | hs'
    · rw [Nat.mod_eq_of_lt hs'] at hx
      omega
    · rw [Nat.mod_eq_sub_mod hs', Nat.mod_eq_of_lt (by omega)] at hx
      omega
  · intro h
    exact ⟨n, by omega, h, by rw [Nat.add_mod_right, Nat.mod_eq_of_lt hc]⟩

theorem covers_iff (hc : c < n) : (∀ x < n, Passed n w c t x) ↔ n ≤ travelled n w c t := by
  refine ⟨fun h => (start_passed_iff hc).mp (h c hc), fun h x hx => ?_⟩
  rw [passed_iff hc]
  rcases Nat.lt_or_ge c x with hlt | hge
  · exact ⟨x - c, by omega, by omega, by rw [Nat.add_sub_cancel' (by omega), Nat.mod_eq_of_lt hx]⟩
  · refine ⟨x + n - c, by omega, by omega, ?_⟩
    rw [Nat.add_sub_cancel' (by omega), Nat.add_mod_right, Nat.mod_eq_of_lt hx]

/-! ### Turns cut short -/

/-- Turns of `b` places, none past the number `m`. -/
def capped (b m c : Nat) : Nat := min b (m - c)

theorem travelled_le (hw : ∀ c, w c ≤ b) : travelled n w c (t + 1) ≤ w c + b * t := by
  induction t with
  | zero => simp
  | succ t ih =>
      have hlast := hw ((turn n w)^[t + 1] c)
      rw [travelled_succ, Nat.mul_succ]
      omega

/-- Either the walk has not come round, at its full pace; or it has, and one turn may have been cut
short; or it has been everywhere. -/
def Progress (n b m c t : Nat) (s : Nat) : Prop :=
  (s = b * t ∧ c + s < n) ∨ (n ≤ c + s ∧ b * t ≤ s + (b - 1 - (m - n))) ∨ n ≤ s

theorem progress (hc : c < n) (hn : n ≤ m) : Progress n b m c t (travelled n (capped b m) c t) := by
  induction t with
  | zero => exact .inl ⟨rfl, hc⟩
  | succ t ih =>
      rw [travelled_succ, turns_eq hc]
      generalize travelled n (capped b m) c t = s at ih
      unfold Progress capped
      rw [Nat.mul_succ]
      rcases ih with ⟨hs, hlt⟩ | ⟨hge, hs⟩ | hs
      · rw [Nat.mod_eq_of_lt hlt]
        omega
      · rcases Nat.lt_or_ge s n with hlt | hround
        · rw [Nat.mod_eq_sub_mod hge, Nat.mod_eq_of_lt (by omega)]
          omega
        · omega
      · omega

theorem capped_covers (hc : c < n) (hn : n ≤ m) (ht : n + (b - 1 - (m - n)) ≤ b * t) :
    n ≤ travelled n (capped b m) c t := by
  have h : Progress n b m c t (travelled n (capped b m) c t) := progress hc hn
  unfold Progress at h
  omega

end Circuit
