import Mathlib.Data.List.Induction
import Drip.Indexer.Decimals
import Drip.Factory.Funding

/-!
# Frontend — Payload

`frontend/lib/validateStreamPayload.ts`: what the form checks before a stream is asked for.  Amounts are texts
there, and `i128` on the chain.

* `valid_iff`: the texts that are accepted are the decimals of positive numbers, without anything around them,
  of which the amount is not below the rate.
* `payload_predicts`: the form never refuses what the factory takes; for a stream without an end it accepts what
  the factory accepts.
-/

namespace Drip.Frontend
open Indexer Chain

/-- `Partial<StreamPayload>`. -/
structure StreamPayload where
  recipient : Option String
  amount : Option String
  ratePerSecond : Option String

/-- `STELLAR_ADDRESS_RE`. -/
def isStellarAddress (s : String) : Bool :=
  let isBase32 (c : Char) : Bool := 'A' ≤ c && c ≤ 'Z' || '2' ≤ c && c ≤ '7'
  match s.toList with
  | c :: cs => (c == 'G' || c == 'C') && cs.length == 55 && cs.all isBase32
  | [] => false

/-- `POSITIVE_INT_RE`. -/
def isPositiveInt (s : String) : Bool :=
  match s.toList with
  | c :: cs => '1' ≤ c && c ≤ '9' && cs.all Char.isDigit
  | [] => false

/-- `null` where there is no canonical positive integer. -/
def parsePositiveInt (value : Option String) : Option Int :=
  match value with
  | some s => if isPositiveInt s then (bigInt s).toOption else none
  | none => none

inductive PayloadError where
  | recipient | amount | ratePerSecond | belowRate
deriving DecidableEq

def PayloadError.text : PayloadError → String
  | .recipient => "Recipient must be a valid Stellar address: a public account (starts with G) or a contract " ++
      "address (starts with C), 56 characters."
  | .amount => "Amount must be a positive integer, entered as a whole number."
  | .ratePerSecond => "Rate per second must be a positive integer, entered as a whole number."
  | .belowRate => "Amount must be greater than or equal to the rate per second: the deposit has to cover at " ++
      "least one second of streaming."

structure ValidationResult where
  valid : Bool
  errors : List String

/-- The checks, in the order in which they are reported. -/
def payloadErrors (payload : StreamPayload) : List PayloadError :=
  let amount := parsePositiveInt payload.amount
  let ratePerSecond := parsePositiveInt payload.ratePerSecond
  (if payload.recipient.any isStellarAddress then [] else [.recipient]) ++
  (if amount = none then [.amount] else []) ++
  (if ratePerSecond = none then [.ratePerSecond] else []) ++
  (match amount, ratePerSecond with
    | some amount, some ratePerSecond => if amount < ratePerSecond then [.belowRate] else []
    | _, _ => [])

def validateStreamPayload (payload : StreamPayload) : ValidationResult :=
  let errors := (payloadErrors payload).map PayloadError.text
  ⟨errors.length == 0, errors⟩

variable {n : Nat} {s : String} {c : Char} {cs : List Char} {payload : StreamPayload}

/-! ### Positive integers -/

theorem digitChar_sub (h : c.isDigit = true) : Nat.digitChar (c.toNat - '0'.toNat) = c := by
  have hmem : c ∈ ['0', '1', '2', '3', '4', '5', '6', '7', '8', '9'] := mem_digits h
  simp only [List.mem_cons, List.not_mem_nil, or_false] at hmem
  rcases hmem with rfl | rfl | rfl | rfl | rfl | rfl | rfl | rfl | rfl | rfl
  all_goals rfl

theorem isDigit_of_first (h : '1' ≤ c ∧ c ≤ '9') : c.isDigit = true ∧ 0 < c.toNat - '0'.toNat := by
  have hlow : 49 ≤ c.toNat := UInt32.le_iff_toNat_le.mp (Char.le_def.mp h.1)
  have hhigh : c.toNat ≤ 57 := UInt32.le_iff_toNat_le.mp (Char.le_def.mp h.2)
  have hzero : '0'.toNat = 48 := rfl
  exact ⟨Char.isDigit_iff_toNat.mpr ⟨by omega, hhigh⟩, by omega⟩

/-- Digits, of which the first is not zero: the decimal of a positive number. -/
theorem exists_toDigits (hfirst : '1' ≤ c ∧ c ≤ '9') (hrest : ∀ d ∈ cs, d.isDigit = true) :
    ∃ n, 0 < n ∧ c :: cs = Nat.toDigits 10 n := by
  induction cs using List.reverseRecOn with
  | nil =>
      obtain ⟨hdigit, hpos⟩ := isDigit_of_first hfirst
      obtain ⟨-, hlt, -⟩ := digit_spec hdigit
      refine ⟨_, hpos, ?_⟩
      rw [Nat.toDigits_of_lt_base hlt, digitChar_sub hdigit]
  | append_singleton cs d ih =>
      obtain ⟨n, hpos, hn⟩ := ih fun d hd => hrest d (List.mem_append_left _ hd)
      have hd := hrest d (List.mem_append_right _ List.mem_cons_self)
      obtain ⟨-, hlt, -⟩ := digit_spec hd
      refine ⟨10 * n + (d.toNat - '0'.toNat), by omega, ?_⟩
      rw [← Nat.toDigits_append_toDigits (by decide) hpos hlt, ← hn, Nat.toDigits_of_lt_base hlt,
        digitChar_sub hd]
      rfl

/-- The decimal of a positive number does not begin with a zero. -/
theorem first_of_toDigits (h : 0 < n) : ∃ c cs, Nat.toDigits 10 n = c :: cs ∧ '1' ≤ c ∧ c ≤ '9' := by
  induction n using Nat.strongRecOn with
  | ind n ih =>
      rcases Nat.lt_or_ge n 10 with hlt | hge
      · have hall : ∀ k < 10, 0 < k → '1' ≤ Nat.digitChar k ∧ Nat.digitChar k ≤ '9' := by decide
        exact ⟨_, [], Nat.toDigits_of_lt_base hlt, hall n hlt h⟩
      · obtain ⟨c, cs, hcs, hc⟩ := ih (n / 10) (by omega) (by omega)
        refine ⟨c, cs ++ [Nat.digitChar (n % 10)], ?_, hc⟩
        rw [Nat.toDigits_of_base_le (by decide) hge, hcs]
        rfl

theorem isPositiveInt_iff : isPositiveInt s = true ↔ ∃ n : Nat, 0 < n ∧ s = toString n := by
  unfold isPositiveInt
  constructor
  · intro h
    split at h
    · rename_i c cs hcs
      simp only [Bool.and_eq_true, decide_eq_true_eq, List.all_eq_true] at h
      obtain ⟨n, hpos, hn⟩ := exists_toDigits h.1 h.2
      refine ⟨n, hpos, ?_⟩
      rw [Nat.toString_eq_ofList_toDigits, ← hn, ← hcs, String.ofList_toList]
    · cases h
  · rintro ⟨n, hpos, rfl⟩
    obtain ⟨c, cs, hcs, hc⟩ := first_of_toDigits hpos
    rw [toList_toString, hcs]
    simp only [Bool.and_eq_true, decide_eq_true_eq, List.all_eq_true]
    refine ⟨hc, fun d hd => isDigit_of_mem (n := n) ?_⟩
    rw [hcs]
    exact List.mem_cons_of_mem c hd

theorem parsePositiveInt_toString (h : 0 < n) : parsePositiveInt (some (toString n)) = some (n : Int) := by
  unfold parsePositiveInt
  dsimp only
  rw [if_pos (isPositiveInt_iff.mpr ⟨n, h, rfl⟩), bigInt_toString]
  rfl

/-- What is read as a number is its decimal. -/
theorem parsePositiveInt_eq_some {value : Option String} {z : Int} :
    parsePositiveInt value = some z ↔ ∃ n : Nat, 0 < n ∧ z = n ∧ value = some (toString n) := by
  constructor
  · intro h
    cases value with
    | none => cases h
    | some s =>
        by_cases hs : isPositiveInt s = true
        · obtain ⟨n, hpos, rfl⟩ := isPositiveInt_iff.mp hs
          rw [parsePositiveInt_toString hpos] at h
          exact ⟨n, hpos, (Option.some.inj h).symm, rfl⟩
        · unfold parsePositiveInt at h
          dsimp only at h
          rw [if_neg hs] at h
          cases h
  · rintro ⟨n, hpos, rfl, rfl⟩
    exact parsePositiveInt_toString hpos

/-! ### What is accepted -/

/-- The checks together. -/
theorem valid_iff_read : (validateStreamPayload payload).valid = true ↔
    payload.recipient.any isStellarAddress = true ∧ ∃ amount rate,
      parsePositiveInt payload.amount = some amount ∧ parsePositiveInt payload.ratePerSecond = some rate ∧
      rate ≤ amount := by
  have herrors : (validateStreamPayload payload).valid = true ↔ payloadErrors payload = [] := by
    unfold validateStreamPayload
    dsimp only
    rw [List.length_map, beq_iff_eq, List.length_eq_zero_iff]
  rw [herrors]
  unfold payloadErrors
  cases hrecipient : payload.recipient.any isStellarAddress with
  | false => exact iff_of_false (fun h => by cases h) fun h => Bool.false_ne_true h.1
  | true =>
      cases hamount : parsePositiveInt payload.amount with
      | none => exact iff_of_false (fun h => by cases h) fun ⟨_, _, _, h, _⟩ => by cases h
      | some amount =>
          cases hrate : parsePositiveInt payload.ratePerSecond with
          | none => exact iff_of_false (fun h => by cases h) fun ⟨_, _, _, _, h, _⟩ => by cases h
          | some rate =>
              by_cases hlt : amount < rate
              · refine iff_of_false (fun h => ?_) fun ⟨_, _, _, ha, hr, hle⟩ => ?_
                · simp [hlt] at h
                · obtain rfl := Option.some.inj ha
                  obtain rfl := Option.some.inj hr
                  exact absurd hlt (not_lt.mpr hle)
              · refine iff_of_true ?_ ⟨rfl, amount, rate, rfl, rfl, not_lt.mp hlt⟩
                simp [hlt]

/-- **What the form accepts**: an address of the right shape, and the decimals of two positive numbers, of which
the amount is not below the rate. -/
theorem valid_iff : (validateStreamPayload payload).valid = true ↔
    ∃ (recipient : String) (amount rate : Nat), isStellarAddress recipient = true ∧ 0 < rate ∧ rate ≤ amount ∧
      payload = ⟨some recipient, some (toString amount), some (toString rate)⟩ := by
  rw [valid_iff_read]
  constructor
  · rintro ⟨hrecipient, z, y, hamount, hrate, hle⟩
    obtain ⟨recipient, haddress, hshape⟩ := (Option.any_eq_true _ _).mp hrecipient
    obtain ⟨amount, -, rfl, hamountText⟩ := parsePositiveInt_eq_some.mp hamount
    obtain ⟨rate, hpos, rfl, hrateText⟩ := parsePositiveInt_eq_some.mp hrate
    refine ⟨recipient, amount, rate, hshape, hpos, Int.ofNat_le.mp hle, ?_⟩
    rw [← haddress, ← hamountText, ← hrateText]
  · rintro ⟨recipient, amount, rate, hshape, hpos, hle, rfl⟩
    exact ⟨(Option.any_eq_true _ _).mpr ⟨recipient, rfl, hshape⟩, amount, rate,
      parsePositiveInt_toString (hpos.trans_le hle), parsePositiveInt_toString hpos, Int.ofNat_le.mpr hle⟩

/-! ### What the factory makes of it -/

/-- The payload for a request: its numbers as decimals. -/
def payloadOf (recipient : String) (p : Factory.StreamInitParams) : StreamPayload :=
  ⟨some recipient, some (toString p.deposit.val), some (toString p.ratePerSec.val)⟩

theorem not_isPositiveInt_of_nonpos {z : Int} (h : z ≤ 0) : isPositiveInt (toString z) = false := by
  cases z with
  | ofNat n =>
      obtain rfl : n = 0 := Int.ofNat_eq_zero.mp (le_antisymm h (Int.natCast_nonneg n))
      rfl
  | negSucc n =>
      -- the text begins with the sign
      unfold isPositiveInt
      have htext : (toString (Int.negSucc n)).toList = '-' :: (toString (n + 1)).toList :=
        String.toList_append
      rw [htext]
      rfl

theorem parsePositiveInt_int (z : Int) :
    parsePositiveInt (some (toString z)) = if 0 < z then some z else none := by
  split
  · rename_i hpos
    obtain ⟨n, rfl⟩ := Int.eq_ofNat_of_zero_le hpos.le
    exact parsePositiveInt_toString (Int.natCast_pos.mp hpos)
  · rename_i hneg
    unfold parsePositiveInt
    dsimp only
    rw [not_isPositiveInt_of_nonpos (not_lt.mp hneg)]
    rfl

theorem valid_payloadOf {recipient : String} {p : Factory.StreamInitParams}
    (h : isStellarAddress recipient = true) :
    (validateStreamPayload (payloadOf recipient p)).valid = true ↔
      0 < p.ratePerSec.val ∧ p.ratePerSec.val ≤ p.deposit.val := by
  rw [valid_iff_read]
  unfold payloadOf
  dsimp only
  rw [parsePositiveInt_int, parsePositiveInt_int]
  constructor
  · rintro ⟨-, amount, rate, hamount, hrate, hle⟩
    split at hamount
    · split at hrate
      · obtain rfl := Option.some.inj hamount
        obtain rfl := Option.some.inj hrate
        exact ⟨‹0 < p.ratePerSec.val›, hle⟩
      · cases hrate
    · cases hamount
  · rintro ⟨hrate, hle⟩
    exact ⟨h, _, _, if_pos (hrate.trans_le hle), if_pos hrate, hle⟩

/-- A request without an end, for parties that the factory takes. -/
structure Endless (env : Env) (p : Factory.StreamInitParams) : Prop where
  recipient : ¬ (isZeroAddress p.recipient = true ∨ p.recipient = p.sender)
  token : ¬ isZeroAddress p.token = true
  ends : p.endTime.val = 0
  start : env.timestamp ≤ p.startTime

theorem Endless.validates {env : Env} {p : Factory.StreamInitParams} (h : Endless env p) :
    Factory.validateStreamRequest env p = .ok env.timestamp ↔
      0 < p.deposit.val ∧ 0 < p.ratePerSec.val ∧ p.ratePerSec.val ≤ p.deposit.val := by
  have hends : ¬ 0 < p.endTime.val := by rw [h.ends]; exact lt_irrefl _
  have hfunded : Factory.validateFunding p = .ok () := if_neg hends
  simp only [Factory.validateStreamRequest, bind_eq_ok, reject_eq_ok, pure_eq_ok, hfunded, not_le]
  constructor
  · rintro ⟨-, -, -, -, -, -, -, -, -, hdeposit, -, hrate, -, hle, -⟩
    exact ⟨hdeposit, hrate, not_lt.mp hle⟩
  · rintro ⟨hdeposit, hrate, hle⟩
    exact ⟨(), h.recipient, (), h.token, (), fun he => hends he.1, (), fun he => hends he.1, (), hdeposit, (),
      hrate, (), not_lt.mpr hle, (), Ranged.not_lt.mpr h.start, (), trivial, trivial⟩

/-- **The form predicts the factory**: what the factory takes, the form does not refuse; and for a stream without
an end, of parties and a start that the factory takes, the form accepts what the factory accepts. -/
theorem payload_predicts (env : Env) (p : Factory.StreamInitParams) (recipient : String)
    (haddress : isStellarAddress recipient = true) :
    (∀ now, Factory.validateStreamRequest env p = .ok now →
      (validateStreamPayload (payloadOf recipient p)).valid = true) ∧
    (Endless env p →
      ((validateStreamPayload (payloadOf recipient p)).valid = true ↔
        Factory.validateStreamRequest env p = .ok env.timestamp)) := by
  rw [valid_payloadOf haddress]
  constructor
  · intro now h
    simp only [Factory.validateStreamRequest, bind_eq_ok, reject_eq_ok, not_le] at h
    obtain ⟨-, -, -, -, -, -, -, -, -, -, -, hrate, -, hle, -⟩ := h
    exact ⟨hrate, not_lt.mp hle⟩
  · intro h
    rw [h.validates]
    exact ⟨fun ⟨hrate, hle⟩ => ⟨hrate.trans_le hle, hrate, hle⟩, fun ⟨_, hrate, hle⟩ => ⟨hrate, hle⟩⟩

namespace Sample

def recipient : String := "GA7QYNF7SOWQ3GLR2BGMZEHXAVIRZA4KVWLTJJFC7MGXUA74P7UJVSGZ"

def request : Factory.StreamInitParams := { Factory.Sample.request with endTime := .lit 0 }

end Sample

/-- A request without an end that both sides take. -/
theorem payload_predicts_endless :
    Factory.validateStreamRequest Factory.Sample.env Sample.request = .ok Factory.Sample.env.timestamp ∧
    (validateStreamPayload (payloadOf Sample.recipient Sample.request)).valid = true := by
  have hpredicts := payload_predicts Factory.Sample.env Sample.request Sample.recipient (by decide +kernel)
  have hendless : Endless Factory.Sample.env Sample.request :=
    ⟨by decide, by decide, by decide, by decide⟩
  have hvalid := hpredicts.1 Factory.Sample.env.timestamp (by decide +kernel)
  exact ⟨(hpredicts.2 hendless).mp hvalid, hvalid⟩

end Drip.Frontend
