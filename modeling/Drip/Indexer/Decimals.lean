import Drip.Indexer.Effects

/-!
# Indexer — Decimals

The decimal text of a natural number, which is how an `i128` arrives.

* `digit_spec`: what the indexer makes of a single digit.
* `natural_toDigits`, `bigInt_toString`, `bigint_toString`: the text is read back as the number it was
  written from, by `BigInt` and by a `BIGINT` column.
-/

namespace Drip.Indexer
open Chain

variable {n : Nat} {c : Char} {cs : List Char} {s : String}

/-! ### Digits -/

theorem mem_digits (h : c.isDigit = true) : c ∈ "0123456789".toList := by
  obtain ⟨hlow, hhigh⟩ := Char.isDigit_iff_toNat.mp h
  have hall : ∀ k < 58, 48 ≤ k → Char.ofNat k ∈ "0123456789".toList := by decide +kernel
  rw [← Char.ofNat_toNat c]
  exact hall c.toNat (Nat.lt_succ_of_le hhigh) hlow

/-- A digit: its value, and what it is not. -/
theorem digit_spec (h : c.isDigit = true) :
    digitValue c = some (c.toNat - '0'.toNat) ∧ c.toNat - '0'.toNat < 10 ∧ isBlank c = false ∧
      isSpace c = false := by
  have hmem : c ∈ ['0', '1', '2', '3', '4', '5', '6', '7', '8', '9'] := mem_digits h
  simp only [List.mem_cons, List.not_mem_nil, or_false] at hmem
  rcases hmem with rfl | rfl | rfl | rfl | rfl | rfl | rfl | rfl | rfl | rfl
  all_goals exact ⟨rfl, by decide, rfl, rfl⟩

theorem foldlM_digits (h : ∀ c ∈ cs, c.isDigit = true) (n : Nat) :
    cs.foldlM (fun n c => ((digitValue c).filter (· < 10)).map (n * 10 + ·)) n =
      some (Nat.ofDigitChars 10 cs n) := by
  induction cs generalizing n with
  | nil => rfl
  | cons c cs ih =>
      obtain ⟨hvalue, hlt, -⟩ := digit_spec (h c List.mem_cons_self)
      have hhead : ((digitValue c).filter (· < 10)).map (n * 10 + ·) =
          some (10 * n + (c.toNat - '0'.toNat)) := by
        rw [hvalue, Option.filter_some, if_pos (decide_eq_true hlt), Option.map_some, mul_comm n 10]
      rw [List.foldlM_cons, hhead, Nat.ofDigitChars_cons]
      exact ih (fun c hc => h c (List.mem_cons_of_mem _ hc)) _

theorem isDigit_of_mem (h : c ∈ Nat.toDigits 10 n) : c.isDigit = true :=
  Nat.isDigit_of_mem_toDigits (by decide) (by decide) h

theorem natural_toDigits (n : Nat) : natural 10 (Nat.toDigits 10 n) = some n := by
  unfold natural
  rw [if_neg Nat.toDigits_ne_nil, foldlM_digits (fun c hc => isDigit_of_mem hc),
    Nat.ofDigitChars_ten_toDigits]

/-! ### Texts -/

theorem toList_toString (n : Nat) : (toString n).toList = Nat.toDigits 10 n := by
  rw [Nat.toString_eq_ofList_toDigits, String.toList_ofList]

theorem trimmed_of_none {blank : Char → Bool} (h : ∀ c ∈ s.toList, blank c = false) :
    trimmed blank s = s.toList := by
  have hkeep : ∀ cs : List Char, (∀ c ∈ cs, blank c = false) → cs.dropWhile blank = cs := by
    intro cs hcs
    cases cs with
    | nil => rfl
    | cons c cs => exact List.dropWhile_cons_of_neg (by simp [hcs c List.mem_cons_self])
  unfold trimmed
  rw [hkeep _ h, hkeep _ fun c hc => h c (List.mem_reverse.mp hc), List.reverse_reverse]

theorem trimmed_toString {blank : Char → Bool} (h : ∀ c, c.isDigit = true → blank c = false) (n : Nat) :
    trimmed blank (toString n) = Nat.toDigits 10 n := by
  rw [trimmed_of_none, toList_toString]
  intro c hc
  rw [toList_toString] at hc
  exact h c (isDigit_of_mem hc)

theorem signed_toDigits (n : Nat) : signed (Nat.toDigits 10 n) = some (n : Int) := by
  unfold signed
  split
  · rename_i ds hds
    have hdigit : ('-' : Char).isDigit = true := isDigit_of_mem (n := n) (hds ▸ List.mem_cons_self)
    cases hdigit
  · rename_i ds hds
    have hdigit : ('+' : Char).isDigit = true := isDigit_of_mem (n := n) (hds ▸ List.mem_cons_self)
    cases hdigit
  · rw [natural_toDigits]
    rfl

/-- `BigInt(String(n))`. -/
theorem bigInt_toString (n : Nat) : bigInt (toString n) = .ok (n : Int) := by
  have htrim : trimmed isBlank (toString n) = Nat.toDigits 10 n :=
    trimmed_toString (fun c hc => (digit_spec hc).2.2.1) n
  have hsecond : ∀ a b ds, Nat.toDigits 10 n = a :: b :: ds → b.isDigit = true := by
    intro a b ds hds
    exact isDigit_of_mem (n := n) (hds ▸ List.mem_cons_of_mem _ List.mem_cons_self)
  unfold bigInt
  rw [htrim]
  refine okOr_eq_ok.mpr ?_
  split
  · rename_i hnil
    exact absurd hnil Nat.toDigits_ne_nil
  all_goals first
    | exact signed_toDigits n
    | rename_i hds; exact absurd (hsecond _ _ _ hds) (by decide)

/-- The text as a parameter for a `BIGINT` column. -/
theorem bigint_toString (n : Nat) : bigint (toString n) = storedBigint n := by
  unfold bigint
  rw [trimmed_toString (fun c hc => (digit_spec hc).2.2.2), signed_toDigits]
  rfl

theorem plain_toString (n : Nat) : '\x00' ∉ (toString n).toList := by
  rw [toList_toString]
  intro h
  exact absurd (isDigit_of_mem h) (by decide)

end Drip.Indexer
