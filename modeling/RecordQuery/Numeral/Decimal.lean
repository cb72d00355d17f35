import RecordQuery.Numeral.BinaryFloat
import RecordQuery.Numeral.Integer
import RecordQuery.Text

/-!
# Decimal numerals

The grammar of decimal numbers with a fraction and an exponent, and the bit pattern that is nearest
to such a number. The number is kept exactly until it is rounded once, straight into the target
format.

1. `readLiteral`: the grammar.
2. `BinaryFormat.nearest`, `BinaryFormat.readBits`: the pattern for a number, and for a text.
-/
namespace RecordQuery.Numeral

/-- Why a text is not a decimal number. -/
inductive DecimalFault where
  | empty
  | invalid
  deriving DecidableEq, Repr

def DecimalFault.message : DecimalFault → String
  | .empty => "cannot parse float from empty string"
  | .invalid => "invalid float literal"

/-- What a numeral denotes, its sign apart. -/
inductive Magnitude where
  | nan
  | infinite
  /-- The number `digits * 10 ^ exponent`. -/
  | finite (digits : Nat) (exponent : Int)
  deriving DecidableEq, Repr

/-- The exponent after the fraction: nothing, or `e` with an optional sign and digits. -/
def readExponent : List Char → Option Int
  | [] => some 0
  | e :: cs =>
    if e = 'e' ∨ e = 'E' then
      match cs with
      | '+' :: ds => digitsOnly ds
      | '-' :: ds => (digitsOnly ds).map fun n => -n
      | ds => digitsOnly ds
    else none
where
  /-- At least one digit and nothing else. -/
  digitsOnly (ds : List Char) : Option Int :=
    if ds ≠ [] ∧ ds.all Char.isDigit then some (Nat.ofDigitChars 10 ds 0) else none

/-- The digits before the point, the digits after it if there is one, and what follows. -/
def splitPoint (cs : List Char) : List Char × List Char × List Char :=
  let whole := cs.takeWhile Char.isDigit
  match cs.dropWhile Char.isDigit with
  | '.' :: ds => (whole, ds.takeWhile Char.isDigit, ds.dropWhile Char.isDigit)
  | rest => (whole, [], rest)

/-- Digits with an optional point among them, and an optional exponent; one digit at least. -/
def readFinite (cs : List Char) : Option Magnitude :=
  let (whole, fraction, rest) := splitPoint cs
  if whole ++ fraction = [] then none
  else (readExponent rest).map fun e =>
    .finite (Nat.ofDigitChars 10 (whole ++ fraction) 0) (e - fraction.length)

/-- A number, or one of the words for infinity and not-a-number in any case. -/
def readMagnitudeText (cs : List Char) : Option Magnitude :=
  match readFinite cs with
  | some m => some m
  | none =>
    let word := Text.lowerAscii (String.ofList cs)
    if word = "inf" ∨ word = "infinity" then some .infinite
    else if word = "nan" then some .nan
    else none

/-- Read an optional sign and a magnitude; the sign is true for a minus. -/
def readLiteral (s : String) : Except DecimalFault (Bool × Magnitude) :=
  match s.toList with
  | [] => .error .empty
  | '+' :: cs => finish false cs
  | '-' :: cs => finish true cs
  | cs => finish false cs
where
  /-- The literal with its sign, or the fault of a text that is no magnitude. -/
  finish (negative : Bool) (cs : List Char) : Except DecimalFault (Bool × Magnitude) :=
    match readMagnitudeText cs with
    | some m => .ok (negative, m)
    | none => .error .invalid

/-- The number of decimal digits of a positive number. -/
def decimalLength (n : Nat) : Nat := (Nat.toDigits 10 n).length

namespace BinaryFormat

/-- The magnitude nearest to `digits * 10 ^ exponent`.

The order of magnitude decides first: at `10 ^ (bias + 2)` everything is infinite, and below the
half of the smallest number everything is zero. Between the two the ratio is rounded exactly. -/
def nearest (f : BinaryFormat) (digits : Nat) (exponent : Int) : Nat :=
  if digits = 0 then 0
  else
    let order := exponent + decimalLength digits
    if (f.bias : Int) + 2 < order then f.infinity
    else if order < f.minExponent - 1 then 0
    else if 0 ≤ exponent then f.ofRatio (digits * Nat.pow 10 exponent.toNat) 1
    else f.ofRatio digits (Nat.pow 10 (-exponent).toNat)

/-- The pattern of a magnitude with its sign, which not-a-number has as well. -/
def ofMagnitude (f : BinaryFormat) (negative : Bool) : Magnitude → Nat
  | .nan => f.withSign negative f.quietNaN
  | .infinite => f.withSign negative f.infinity
  | .finite digits exponent => f.withSign negative (f.nearest digits exponent)

/-- The pattern nearest to the number that a text spells. -/
def readBits (f : BinaryFormat) (s : String) : Except DecimalFault Nat :=
  (readLiteral s).map fun p => f.ofMagnitude p.1 p.2

end BinaryFormat

def readFloat32 (s : String) : Except DecimalFault UInt32 :=
  (BinaryFormat.single.readBits s).map UInt32.ofNat

def readFloat64 (s : String) : Except DecimalFault UInt64 :=
  (BinaryFormat.double.readBits s).map UInt64.ofNat

end RecordQuery.Numeral
