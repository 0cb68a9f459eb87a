import Mathlib.Order.Defs.LinearOrder
import Mathlib.Tactic.Ring

/-!
# Support — Ranged

Integers confined to an interval `[lo, hi]`, and the arithmetic a language with checked machine
integers offers on them.  The bounds are part of the type, so a value out of range cannot be
built; every operation either proves its result in range or says what it does instead:

* `ofInt?`, `checkedAdd`, `checkedSub`, `checkedMul` return `none` out of range;
* `clamp`, `saturatingAdd`, `saturatingSub` move to the nearest bound;
* `widen` embeds an interval into a larger one.

Each operation has one characterisation by its exact integer value (`ofInt?_eq_some` and
`val_clamp` below); the proofs of a development that uses these types read those and never
unfold an operation.
-/

/-- The integers of the interval `[lo, hi]`. -/
@[ext]
structure Ranged (lo hi : Int) where
  val : Int
  ge : lo ≤ val
  le : val ≤ hi
deriving DecidableEq

namespace Ranged

variable {lo hi : Int}

instance : LE (Ranged lo hi) := ⟨fun a b => a.val ≤ b.val⟩
instance : LT (Ranged lo hi) := ⟨fun a b => a.val < b.val⟩
instance (a b : Ranged lo hi) : Decidable (a ≤ b) := inferInstanceAs (Decidable (a.val ≤ b.val))
instance (a b : Ranged lo hi) : Decidable (a < b) := inferInstanceAs (Decidable (a.val < b.val))
instance : Min (Ranged lo hi) := ⟨fun a b => if a.val ≤ b.val then a else b⟩
instance : Max (Ranged lo hi) := ⟨fun a b => if a.val ≤ b.val then b else a⟩

@[simp]
theorem le_def {a b : Ranged lo hi} : a ≤ b ↔ a.val ≤ b.val := Iff.rfl
@[simp]
theorem lt_def {a b : Ranged lo hi} : a < b ↔ a.val < b.val := Iff.rfl

protected theorem not_lt {a b : Ranged lo hi} : ¬ a < b ↔ b ≤ a := Int.not_lt
protected theorem not_le {a b : Ranged lo hi} : ¬ a ≤ b ↔ b < a := Int.not_le

theorem val_min (a b : Ranged lo hi) : (min a b).val = min a.val b.val := by
  show (if a.val ≤ b.val then a else b).val = _
  split <;> omega

theorem val_max (a b : Ranged lo hi) : (max a b).val = max a.val b.val := by
  show (if a.val ≤ b.val then b else a).val = _
  split <;> omega

/-! ### Building a value -/

/-- The value `n`, when it lies in the interval. -/
def ofInt? (n : Int) : Option (Ranged lo hi) :=
  if h : lo ≤ n ∧ n ≤ hi then some ⟨n, h.1, h.2⟩ else none

/-- A value known to lie in the interval. -/
abbrev lit (n : Int) (h : decide (lo ≤ n ∧ n ≤ hi) = true := by exact Eq.refl true) :
    Ranged lo hi :=
  ⟨n, (of_decide_eq_true h).1, (of_decide_eq_true h).2⟩

/-- The value of the interval nearest to `n`. -/
def clamp (n : Int) (h : lo ≤ hi) : Ranged lo hi :=
  ⟨max lo (min n hi), by omega, by omega⟩

/-- The same integer in a larger interval. -/
def widen {lo' hi' : Int} (a : Ranged lo hi)
    (h : decide (lo' ≤ lo ∧ hi ≤ hi') = true := by exact Eq.refl true) : Ranged lo' hi' :=
  ⟨a.val, (of_decide_eq_true h).1.trans a.ge, a.le.trans (of_decide_eq_true h).2⟩

@[simp]
theorem val_widen {lo' hi' : Int} (a : Ranged lo hi) (h : decide (lo' ≤ lo ∧ hi ≤ hi') = true) :
    (a.widen h).val = a.val := rfl

theorem val_clamp (n : Int) (h : lo ≤ hi) : (clamp n h).val = max lo (min n hi) := rfl

/-- The exact integer decides the result. -/
@[simp]
theorem ofInt?_eq_some {n : Int} {r : Ranged lo hi} : ofInt? n = some r ↔ r.val = n := by
  unfold ofInt?
  split
  · rename_i h
    rw [Option.some.injEq, Ranged.ext_iff]
    exact eq_comm
  · rename_i h
    refine ⟨nofun, fun e => absurd ⟨?_, ?_⟩ h⟩
    · rw [← e]; exact r.ge
    · rw [← e]; exact r.le

@[simp]
theorem ofInt?_eq_none {n : Int} : (ofInt? n : Option (Ranged lo hi)) = none ↔ n < lo ∨ hi < n := by
  unfold ofInt?
  split
  · rename_i h; simp; omega
  · rename_i h; simp; omega

theorem ofInt?_of_mem {n : Int} (h₁ : lo ≤ n) (h₂ : n ≤ hi) :
    (ofInt? n : Option (Ranged lo hi)) = some ⟨n, h₁, h₂⟩ :=
  ofInt?_eq_some.mpr rfl

/-! ### Checked and saturating arithmetic -/

def checkedAdd (a b : Ranged lo hi) : Option (Ranged lo hi) := ofInt? (a.val + b.val)
def checkedSub (a b : Ranged lo hi) : Option (Ranged lo hi) := ofInt? (a.val - b.val)
def checkedMul (a b : Ranged lo hi) : Option (Ranged lo hi) := ofInt? (a.val * b.val)

def saturatingAdd (a b : Ranged lo hi) : Ranged lo hi := clamp (a.val + b.val) (a.ge.trans a.le)
def saturatingSub (a b : Ranged lo hi) : Ranged lo hi := clamp (a.val - b.val) (a.ge.trans a.le)

@[simp]
theorem checkedAdd_eq_some {a b r : Ranged lo hi} :
    a.checkedAdd b = some r ↔ r.val = a.val + b.val := ofInt?_eq_some

@[simp]
theorem checkedSub_eq_some {a b r : Ranged lo hi} :
    a.checkedSub b = some r ↔ r.val = a.val - b.val := ofInt?_eq_some

@[simp]
theorem checkedMul_eq_some {a b r : Ranged lo hi} :
    a.checkedMul b = some r ↔ r.val = a.val * b.val := ofInt?_eq_some

end Ranged
