import RecordQuery.Numeral.BinaryFloat

/-!
# Shortest decimals

The fewest decimal digits that read back as a given floating-point number, and two ways to write
them down. The number and the interval of reals that round to it are scaled to whole numbers; the
coarsest power of ten with a multiple inside the interval gives the digits. Of a power's multiples
only the two neighbours of the number can be nearest, so only these are tried.

1. `pick_eq_some`: the digits found are those of a multiple next to the number, in the interval.
2. `positional` writes digits without an exponent, `scientific` with one outside a range.
-/
namespace RecordQuery.Numeral

/-- A decimal number `digits * 10 ^ exponent`. -/
structure Decimal where
  digits : Nat
  exponent : Int
  deriving DecidableEq, Repr

/-- Which of two equally near decimals is taken. -/
inductive TieRule where
  | up
  | even
  deriving DecidableEq, Repr

/-- The whole numbers that round to a number, in a unit that makes everything whole. -/
structure Interval where
  low : Nat
  value : Nat
  high : Nat
  /-- Whether the ends belong to the interval. -/
  closed : Bool
  deriving DecidableEq, Repr

namespace Interval

def holds (i : Interval) (n : Nat) : Bool :=
  if i.closed then i.low ≤ n && n ≤ i.high else i.low < n && n < i.high

/-- `below` or the number after it, whichever is at the smaller distance. -/
def nearer (tie : TieRule) (below distanceBelow distanceAbove : Nat) : Nat :=
  if distanceBelow < distanceAbove then below
  else if distanceAbove < distanceBelow then below + 1
  else match tie with
    | .up => below + 1
    | .even => if below % 2 = 0 then below else below + 1

/-- The multiple of `unit` nearest to the value among its two neighbours in the interval. -/
def pick (i : Interval) (tie : TieRule) (unit : Nat) : Option Nat :=
  let below := i.value / unit
  let lower := below * unit
  let upper := (below + 1) * unit
  if i.holds lower then
    if i.holds upper then some (nearer tie below (i.value - lower) (upper - i.value))
    else some below
  else if i.holds upper then some (below + 1)
  else none

/-- The multiple of the largest power of ten in the interval, down from the given power. -/
def coarsest (i : Interval) (tie : TieRule) : Nat → Nat × Nat
  | 0 => (i.value, 0)
  | power + 1 =>
    match i.pick tie (Nat.pow 10 (power + 1)) with
    | some digits => (digits, power + 1)
    | none => i.coarsest tie power

theorem nearer_eq_or (tie : TieRule) (below a b : Nat) :
    nearer tie below a b = below ∨ nearer tie below a b = below + 1 := by
  unfold nearer
  cases tie <;> grind

/-- What is picked is one of the two multiples around the value, and lies in the interval. -/
theorem pick_eq_some {i : Interval} {tie : TieRule} {unit n : Nat} (h : i.pick tie unit = some n) :
    (n = i.value / unit ∨ n = i.value / unit + 1) ∧ i.holds (n * unit) = true := by
  unfold pick at h
  have hn := nearer_eq_or tie (i.value / unit) (i.value - i.value / unit * unit)
    ((i.value / unit + 1) * unit - i.value)
  grind

end Interval

namespace BinaryFormat

/-- The interval of a positive number `significand * 2 ^ exponent`, and the power of ten that is
its unit.

The ends lie half a step away, and a quarter below a power of two that starts a new binade, so a
quarter of a step is scaled to a whole number. An even significand wins the ties at both ends. -/
def interval (f : BinaryFormat) (significand : Nat) (exponent : Int) : Interval × Int :=
  let quarter := exponent - 2
  let scale := if 0 ≤ quarter then 1 <<< quarter.toNat else Nat.pow 5 (-quarter).toNat
  let below := if significand = f.leadingBit ∧ f.minExponent < exponent then 1 else 2
  (⟨(4 * significand - below) * scale, 4 * significand * scale, (4 * significand + 2) * scale,
    significand % 2 = 0⟩, min quarter 0)

/-- The fewest digits that read back as `significand * 2 ^ exponent`. -/
def shortest (f : BinaryFormat) (tie : TieRule) (significand : Nat) (exponent : Int) : Decimal :=
  let (i, unit) := f.interval significand exponent
  let (digits, power) := i.coarsest tie (Nat.toDigits 10 i.high).length
  ⟨digits, unit + power⟩

end BinaryFormat

namespace Decimal

/-- The digits with the point put after the first `point` of them; `point` may lie outside. -/
def withPoint (digits : String) (point : Int) : String :=
  let length : Int := digits.length
  if length ≤ point then digits ++ String.ofList (List.replicate (point - length).toNat '0')
  else if 0 < point then
    String.ofList (digits.toList.take point.toNat) ++ "."
      ++ String.ofList (digits.toList.drop point.toNat)
  else "0." ++ String.ofList (List.replicate (-point).toNat '0') ++ digits

/-- The number without an exponent, and without a point when it is whole. -/
def positional (d : Decimal) : String :=
  let digits := toString d.digits
  withPoint digits (digits.length + d.exponent)

/-- The number with a signed exponent when its point lies far outside the digits, and with one
decimal when it is whole otherwise. -/
def scientific (d : Decimal) : String :=
  let digits := toString d.digits
  let point := digits.length + d.exponent
  if 0 ≤ d.exponent ∧ point ≤ 16 then withPoint digits point ++ ".0"
  else if -5 < point ∧ point ≤ 16 then withPoint digits point
  else
    let fraction := digits.toList.drop 1
    let mantissa := String.ofList (digits.toList.take 1)
      ++ (if fraction.isEmpty then "" else "." ++ String.ofList fraction)
    mantissa ++ (if 0 < point then "e+" else "e") ++ toString (point - 1)

end Decimal

namespace BinaryFormat

/-- The text of a pattern, given how to write a finite positive number. -/
def render (f : BinaryFormat) (tie : TieRule) (zero : String) (write : Decimal → String)
    (bits : Nat) : String :=
  match f.decode bits with
  | .nan => "NaN"
  | .infinite negative => if negative then "-inf" else "inf"
  | .finite negative significand exponent =>
    let magnitude :=
      if significand = 0 then zero else write (f.shortest tie significand exponent)
    if negative then "-" ++ magnitude else magnitude

/-- The shortest text without an exponent; a whole number has no point, and a tie between two
shortest candidates goes up. -/
def renderPositional (f : BinaryFormat) (bits : Nat) : String :=
  f.render .up "0" Decimal.positional bits

end BinaryFormat

end RecordQuery.Numeral
