import RecordQuery.Numeral.Decimal

/-!
# Numerals by scaling

A quick way to read a decimal number as a 64-bit one. The digits that fit 64 bits are taken as an
integer, the others only count as places, and the integer is scaled by one power of ten. Every step
is rounded, so a short numeral is read as the nearest number, and a long one may come out one place
beside it.

1. `exists_gather_eq`: which digits make the integer.
2. `scaleDigits_of_lt`: with few digits, the integer is all of them.
-/
namespace RecordQuery.Numeral

/-- Append digits to an integer while it fits 64 bits; the digits from the first that does not fit
are left. -/
def gather (n : Nat) : List Char → Nat × List Char
  | [] => (n, [])
  | d :: ds =>
    let next := 10 * n + (d.toNat - '0'.toNat)
    if next < UInt64.size then gather next ds else (n, d :: ds)

/-- The digits taken are the first ones, and as many as fit. -/
theorem exists_gather_eq {n : Nat} (h : n < UInt64.size) (ds : List Char) :
    ∃ taken left, ds = taken ++ left ∧ gather n ds = (Nat.ofDigitChars 10 taken n, left) ∧
      Nat.ofDigitChars 10 taken n < UInt64.size ∧
      ∀ d rest, left = d :: rest → UInt64.size ≤ Nat.ofDigitChars 10 (taken ++ [d]) n := by
  induction ds generalizing n with
  | nil => exact ⟨[], [], rfl, rfl, h, fun _ _ e => nomatch e⟩
  | cons d ds ih =>
    unfold gather
    dsimp only
    split
    · rename_i hd
      obtain ⟨taken, left, rfl, hg, hlt, hleft⟩ := ih hd
      exact ⟨d :: taken, left, rfl, hg, hlt, hleft⟩
    · rename_i hd
      refine ⟨[], d :: ds, rfl, rfl, h, ?_⟩
      rintro _ _ ⟨⟩
      exact Nat.not_lt.1 hd

theorem gather_of_lt {n : Nat} {ds : List Char} (h : Nat.ofDigitChars 10 ds n < UInt64.size) :
    gather n ds = (Nat.ofDigitChars 10 ds n, []) := by
  obtain ⟨taken, left, rfl, hg, -, hleft⟩ :=
    exists_gather_eq (Nat.lt_of_le_of_lt (le_ofDigitChars ds n) h) ds
  cases left with
  | nil => rw [hg, List.append_nil]
  | cons d rest =>
    -- more digits make a number no smaller
    have hle :
        Nat.ofDigitChars 10 (taken ++ [d]) n ≤ Nat.ofDigitChars 10 (taken ++ d :: rest) n := by
      rw [Nat.ofDigitChars_append, Nat.ofDigitChars_append]
      exact le_ofDigitChars rest _
    exact absurd (Nat.lt_of_le_of_lt hle h) (Nat.not_lt.2 (hleft d rest rfl))

namespace BinaryFormat

/-- A finite magnitude as a numerator and a denominator. -/
def ratio (f : BinaryFormat) (magnitude : Nat) : Nat × Nat :=
  match f.decode magnitude with
  | .finite _ significand exponent => scaleDown significand 1 (-exponent)
  | .nan | .infinite _ => (0, 1)

def product (f : BinaryFormat) (a b : Nat) : Nat :=
  let (n, d) := f.ratio a
  let (p, q) := f.ratio b
  f.ofRatio (n * p) (d * q)

def quotient (f : BinaryFormat) (a b : Nat) : Nat :=
  let (n, d) := f.ratio a
  let (p, q) := f.ratio b
  f.ofRatio (n * q) (d * p)

def tenPower (f : BinaryFormat) (k : Nat) : Nat := f.ofRatio (Nat.pow 10 k) 1

end BinaryFormat

/-- The largest power of ten among the 64-bit numbers. -/
def largestTenPower : Nat := 308

/-- A magnitude times a power of ten, unless that is too large. -/
def scaleUp (magnitude k : Nat) : Option Nat :=
  let f := BinaryFormat.double
  if magnitude = 0 then some 0
  else if largestTenPower < k then none
  else
    let scaled := f.product magnitude (f.tenPower k)
    if scaled < f.infinity then some scaled else none

/-- A magnitude divided by a power of ten, by the largest one at a time. -/
def scaleBack (magnitude k : Nat) : Nat :=
  let f := BinaryFormat.double
  if magnitude = 0 then 0
  else if largestTenPower < k then
    scaleBack (f.quotient magnitude (f.tenPower largestTenPower)) (k - largestTenPower)
  else f.quotient magnitude (f.tenPower k)
termination_by k
decreasing_by simp only [largestTenPower] at *; omega

/-- The magnitude that `n * 10 ^ exponent` is read as, unless it is too large. -/
def scale (n : Nat) (exponent : Int) : Option Nat :=
  let magnitude := BinaryFormat.double.ofRatio n 1
  if 0 ≤ exponent then scaleUp magnitude exponent.toNat
  else some (scaleBack magnitude (-exponent).toNat)

/-- The magnitude that digits before and after a point and an exponent are read as, unless it is too
large. -/
def scaleDigits (whole fraction : List Char) (exponent : Int) : Option Nat :=
  let (n, wholeLeft) := gather 0 whole
  let (n, fractionLeft) := gather n fraction
  scale n (wholeLeft.length + fractionLeft.length - fraction.length + exponent)

/-- Digits that fit 64 bits are all read, so the only rounding is that of the scale. -/
theorem scaleDigits_of_lt {whole fraction : List Char} (exponent : Int)
    (h : Nat.ofDigitChars 10 (whole ++ fraction) 0 < UInt64.size) :
    scaleDigits whole fraction exponent
      = scale (Nat.ofDigitChars 10 (whole ++ fraction) 0) (exponent - fraction.length) := by
  rw [Nat.ofDigitChars_append] at h ⊢
  have hwhole := gather_of_lt (Nat.lt_of_le_of_lt (le_ofDigitChars fraction _) h)
  simp only [scaleDigits, hwhole, gather_of_lt h]
  congr 1
  simp
  omega

end RecordQuery.Numeral
