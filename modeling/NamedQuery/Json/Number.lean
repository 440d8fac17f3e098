import NamedQuery.Text.Basic
import NamedQuery.Text.CharSet

/-!
# Numbers in JSON text

A number is a sign, digits without a needless leading zero, and possibly a
fraction and an exponent.  It is refused when it is too large for a double: its
leading digits that fit into 64 bits are taken as a double and multiplied by a
double power of ten, and the product has to be finite.
-/

namespace NamedQuery.JsonNumber

open Text

/-! ## Range of a double -/

/-- The largest number of 64 bits. -/
def wordLimit : Nat := Nat.pow 2 64 - 1

/-- The nearest number with at most 53 significant bits, the even one of two. -/
def roundToDouble (n : Nat) : Nat :=
  let excess := Nat.log2 n - 52
  let unit := Nat.pow 2 excess
  let quotient := n / unit
  let twice := 2 * (n % unit)
  if twice > unit || (twice == unit && quotient % 2 == 1) then
    (quotient + 1) * unit
  else
    quotient * unit

/-- Whether the product of the two doubles nearest to `significand` and to a
power of ten is finite. -/
def isFinite (significand : Nat) (exponent : Int) : Bool :=
  if significand = 0 || exponent < 0 then
    true
  else if exponent > 308 then
    false
  else
    roundToDouble (roundToDouble significand * roundToDouble (Nat.pow 10 exponent.toNat)) <
      Nat.pow 2 1024

/-! ## Reading -/

/-- The value of the leading digits that fit into 64 bits, and how many are
left. -/
def leadingDigits : Nat → List Char → Nat × Nat
  | value, [] => (value, 0)
  | value, c :: rest =>
      let next := value * 10 + digitValue c
      if next ≤ wordLimit then leadingDigits next rest else (value, rest.length + 1)

/-- A number as it is written, without its sign. -/
structure Decimal where
  whole : List Char
  fraction : Option (List Char)
  exponent : Option Int

def Decimal.isFinite (decimal : Decimal) : Bool :=
  let fraction := decimal.fraction.getD []
  let (significand, left) := leadingDigits 0 (decimal.whole ++ fraction)
  JsonNumber.isFinite significand (decimal.exponent.getD 0 + left - fraction.length)

/-- The value of a number written with digits alone. -/
def Decimal.digits? (decimal : Decimal) : Option Nat :=
  match decimal.fraction, decimal.exponent with
  | none, none => some (numeral decimal.whole)
  | _, _ => none

/-- The digits before the point: a single zero, or a run that starts with none. -/
def readWhole (text : List Char) : Option (List Char × List Char) :=
  match text.span isDigit with
  | ([], _) => none
  | ('0' :: _ :: _, _) => none
  | (digits, rest) => some (digits, rest)

def readFraction : List Char → Option (Option (List Char) × List Char)
  | '.' :: text =>
      match text.span isDigit with
      | ([], _) => none
      | (digits, rest) => some (some digits, rest)
  | text => some (none, text)

/-- The exponent after its mark. -/
def readExponentDigits (negative : Bool) (text : List Char) : Option (Option Int × List Char) :=
  match text.span isDigit with
  | ([], _) => none
  | (digits, rest) =>
      let value : Int := numeral digits
      some (some (if negative then -value else value), rest)

def readExponent : List Char → Option (Option Int × List Char)
  | [] => some (none, [])
  | mark :: text =>
      if mark = 'e' ∨ mark = 'E' then
        match text with
        | '+' :: text => readExponentDigits false text
        | '-' :: text => readExponentDigits true text
        | text => readExponentDigits false text
      else
        some (none, mark :: text)

def readDecimal (text : List Char) : Option (Decimal × List Char) := do
  let (whole, text) ← readWhole text
  let (fraction, text) ← readFraction text
  let (exponent, text) ← readExponent text
  let decimal : Decimal := ⟨whole, fraction, exponent⟩
  if decimal.isFinite then some (decimal, text) else none

/-- A number at the start of a text: its value if it is digits alone, and the
text after it. -/
def read : List Char → Option (Option Nat × List Char)
  | '-' :: text => (readDecimal text).map fun found => (none, found.2)
  | text => (readDecimal text).map fun found => (found.1.digits?, found.2)

end NamedQuery.JsonNumber
