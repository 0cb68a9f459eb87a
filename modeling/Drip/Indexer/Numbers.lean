import Drip.Indexer.Values

/-!
# Indexer — Numbers

`Number(v)` in JavaScript: a text is read as a decimal, rounded to a double, and printed with the fewest
digits that are read back as the same double.  A `BIGINT` column takes it only where it is printed as an
integer, so that integer is all that is kept of it.

* `double`: the double nearest to a fraction, where it is a natural number.
* `printed`: the digits such a double is printed with.
* `number`: `Number(s)` for a text.
-/

namespace Drip.Indexer

/-- The natural number nearest to `n / d`, and of two the even one. -/
def roundEven (n d : Nat) : Nat :=
  if 2 * (n % d) < d ∨ 2 * (n % d) = d ∧ n / d % 2 = 0 then n / d else n / d + 1

/-- `n / d` over the power of two, as a fraction. -/
def overPower (n d : Nat) (k : Int) : Nat × Nat := (n * 2 ^ (-k).toNat, d * 2 ^ k.toNat)

/-- The exponent of the largest power of two that `n / d` reaches. -/
def binaryLog (n d : Nat) : Int :=
  let k := (n.log2 : Int) - d.log2
  let x := overPower n d k
  if x.1 < x.2 then k - 1 else k

/-- The double nearest to `n / d`; `none` where it is no natural number. -/
def double (n d : Nat) : Option Nat :=
  if n = 0 then some 0
  else
    -- 53 binary digits, and none beyond the 1074th place
    let k := max (-1074) (binaryLog n d - 52)
    let x := overPower n d k
    let m := roundEven x.1 x.2
    if m * 2 ^ k.toNat % 2 ^ (-k).toNat = 0 then some (m * 2 ^ k.toNat / 2 ^ (-k).toNat) else none

/-- The nearest of the two numbers with `zeros` zeros at the end around `v` that are read back as `v`. -/
def candidate (v zeros : Nat) : Option Nat :=
  let low := v / 10 ^ zeros * 10 ^ zeros
  let high := low + 10 ^ zeros
  let reads (c : Nat) : Bool := double c 1 = some v
  if reads low ∧ (¬ reads high ∨ v - low < high - v ∨ v - low = high - v ∧ v / 10 ^ zeros % 2 = 0) then
    some low
  else if reads high then some high
  else none

/-- The digits a double is printed with; from `10 ^ 21` on there is an exponent. -/
def printed (v : Nat) : Option Nat :=
  if v < 10 ^ 21 then (List.range 22).reverse.findSome? (candidate v) else none

/-! ### Texts -/

/-- `digits * 10 ^ exponent`. -/
def decimal (digits : Nat) (exponent : Int) : Option Nat :=
  double (digits * 10 ^ exponent.toNat) (10 ^ (-exponent).toNat) >>= printed

/-- Decimal digits with a point or without, and with an exponent or without. -/
def unsignedDecimal (cs : List Char) : Option Nat := do
  let isE (c : Char) : Bool := c = 'e' || c = 'E'
  let mantissa := cs.takeWhile (!isE ·)
  let whole := mantissa.takeWhile (· ≠ '.')
  let fraction := (mantissa.dropWhile (· ≠ '.')).tail
  let digits ← natural 10 (whole ++ fraction)
  let exponent ← match cs.dropWhile (!isE ·) with
    | [] => some 0
    | _ :: ds => signed ds
  decimal digits (exponent - fraction.length)

/-- `Number(s)` where it is printed as an integer. -/
def number (s : String) : Option Int :=
  match trimmed isBlank s with
  | [] => some 0
  | '0' :: 'x' :: ds | '0' :: 'X' :: ds => (natural 16 ds >>= (decimal · 0)).map Int.ofNat
  | '0' :: 'o' :: ds | '0' :: 'O' :: ds => (natural 8 ds >>= (decimal · 0)).map Int.ofNat
  | '0' :: 'b' :: ds | '0' :: 'B' :: ds => (natural 2 ds >>= (decimal · 0)).map Int.ofNat
  | '-' :: cs => (unsignedDecimal cs).map fun n => -(n : Int)
  | '+' :: cs => (unsignedDecimal cs).map Int.ofNat
  | cs => (unsignedDecimal cs).map Int.ofNat

end Drip.Indexer
