import Drip.Host.Basic

/-!
# Indexer — Values

The values an event's payload carries into the indexer (`indexer/src/handlers.ts`), as JavaScript reads
them, and the columns Postgres stores them in.

* `Value.text`, `Value.truthy`: `String(v)` and `Boolean(v)`; `bigInt`: `BigInt(s)`.
* `column`, `bigint`, `storedBigint`: a `TEXT` and a `BIGINT` parameter, with what Postgres refuses.
-/

namespace Drip.Indexer

/-- A `BIGINT`. -/
abbrev I64 := Ranged (-9223372036854775808) 9223372036854775807

/-- Why folding an event throws. -/
inductive Failure where
  /-- `BigInt` of a text that is no number -/
  | syntaxError
  /-- a call of what is no handler -/
  | typeError
  /-- a text Postgres cannot store -/
  | invalidText
  /-- no number for a `BIGINT` -/
  | invalidNumber
  | outOfRange
  | foreignKey
deriving DecidableEq

/-- A value of an event's `data`.  An object is known by its text, and so is a number that is no integer
or is printed with an exponent. -/
inductive Value where
  | null
  | bool (b : Bool)
  | num (n : Int)
  | str (s : String)
  | object (text : String)
deriving DecidableEq

/-- `String(v)`. -/
def Value.text : Value → String
  | .null => "null"
  | .bool b => if b then "true" else "false"
  | .num n => toString n
  | .str s => s
  | .object text => text

/-- `Boolean(v)`. -/
def Value.truthy : Value → Bool
  | .null => false
  | .bool b => b
  | .num n => n != 0
  | .str s => s != ""
  | .object _ => true

/-! ### Numbers in texts -/

def digitValue (c : Char) : Option Nat :=
  if '0' ≤ c ∧ c ≤ '9' then some (c.toNat - '0'.toNat)
  else if 'a' ≤ c ∧ c ≤ 'f' then some (c.toNat - 'a'.toNat + 10)
  else if 'A' ≤ c ∧ c ≤ 'F' then some (c.toNat - 'A'.toNat + 10)
  else none

/-- The digits of a natural number, at least one. -/
def natural (base : Nat) (cs : List Char) : Option Nat :=
  if cs = [] then none
  else cs.foldlM (fun n c => ((digitValue c).filter (· < base)).map (n * base + ·)) 0

/-- Decimal digits, with a sign or without. -/
def signed : List Char → Option Int
  | '-' :: ds => (natural 10 ds).map fun n => -(n : Int)
  | '+' :: ds => (natural 10 ds).map Int.ofNat
  | ds => (natural 10 ds).map Int.ofNat

/-- Without the blanks at both ends. -/
def trimmed (blank : Char → Bool) (s : String) : List Char :=
  ((s.toList.dropWhile blank).reverse.dropWhile blank).reverse

def isSpace (c : Char) : Bool :=
  c = ' ' || ('\t' ≤ c && c ≤ '\r')

/-- White space and line ends in JavaScript. -/
def isBlank (c : Char) : Bool :=
  isSpace c || c = '\u00a0' || c = '\u1680' || ('\u2000' ≤ c && c ≤ '\u200a') || c = '\u2028' ||
    c = '\u2029' || c = '\u202f' || c = '\u205f' || c = '\u3000' || c = '\ufeff'

/-- `BigInt(s)`. -/
def bigInt (s : String) : Except Failure Int :=
  let n := match trimmed isBlank s with
    | [] => some 0
    | '0' :: 'x' :: ds | '0' :: 'X' :: ds => (natural 16 ds).map Int.ofNat
    | '0' :: 'o' :: ds | '0' :: 'O' :: ds => (natural 8 ds).map Int.ofNat
    | '0' :: 'b' :: ds | '0' :: 'B' :: ds => (natural 2 ds).map Int.ofNat
    | cs => signed cs
  Chain.okOr n .syntaxError

/-! ### Columns -/

/-- A text for a `TEXT` column, which holds no NUL. -/
def column (s : String) : Except Failure String := do
  Chain.reject ('\x00' ∈ s.toList) .invalidText
  return s

/-- A number for a `BIGINT` column. -/
def storedBigint (n : Int) : Except Failure I64 := Chain.okOr (Ranged.ofInt? n) .outOfRange

/-- A text for a `BIGINT` column. -/
def bigint (s : String) : Except Failure I64 := do
  let n ← Chain.okOr (signed (trimmed isSpace s)) .invalidNumber
  storedBigint n

end Drip.Indexer
