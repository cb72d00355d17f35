/-!
# Binary floating-point numbers

The interchange formats of 32 and 64 bits, handled as bit patterns: rounding a ratio of two natural
numbers to the nearest number of a format, and taking a bit pattern apart. All arithmetic is exact
and on natural numbers.

1. `roundQuotient_eq_iff`: to which integer a quotient is rounded.
2. `BinaryFormat.ofRatio` rounds to a pattern; `BinaryFormat.decode` takes a pattern apart.
-/
namespace RecordQuery.Numeral

/-- A binary interchange format, by the widths of its two fields. -/
structure BinaryFormat where
  /-- Stored bits of the significand; a normal number has one more, the leading one. -/
  fractionBits : Nat
  /-- Bits of the exponent field. -/
  exponentBits : Nat
  deriving DecidableEq, Repr

/-- What a bit pattern stands for. -/
inductive Decoded where
  | nan
  | infinite (negative : Bool)
  /-- The number `significand * 2 ^ exponent`, negated when `negative`. -/
  | finite (negative : Bool) (significand : Nat) (exponent : Int)
  deriving DecidableEq, Repr

/-- `n / d` to the nearest integer; a half goes to the even neighbour. -/
def roundQuotient (n d : Nat) : Nat :=
  let quotient := n / d
  let remainder := n % d
  if 2 * remainder < d then quotient
  else if d < 2 * remainder then quotient + 1
  else if quotient % 2 = 0 then quotient
  else quotient + 1

/-- The rounded quotient is the integer within a half of the quotient, and even if there are two. -/
theorem roundQuotient_eq_iff {n d q : Nat} (h : 0 < d) :
    roundQuotient n d = q ↔
      2 * q * d ≤ 2 * n + d ∧ 2 * n ≤ 2 * q * d + d ∧
        (2 * q * d = 2 * n + d ∨ 2 * n = 2 * q * d + d → q % 2 = 0) := by
  have hn := Nat.div_add_mod' n d
  have hr := Nat.mod_lt n h
  unfold roundQuotient
  generalize n / d = k at hn ⊢
  generalize n % d = r at hn hr ⊢
  subst hn
  -- only the integers on both sides of the quotient are within a half of it
  obtain hq | rfl | rfl | hq : q < k ∨ q = k ∨ q = k + 1 ∨ k + 1 < q := by omega
  · obtain ⟨c, rfl⟩ := Nat.exists_eq_add_of_le (Nat.succ_le_of_lt hq)
    have : (q + 1 + c) * d = q * d + d + c * d := by simp only [Nat.add_mul, Nat.one_mul]
    have : 2 * q * d = 2 * (q * d) := Nat.mul_assoc 2 q d
    generalize c * d = x at *
    grind
  · have : 2 * q * d = 2 * (q * d) := Nat.mul_assoc 2 q d
    grind
  · have : 2 * (k + 1) * d = 2 * (k * d) + 2 * d := by
      rw [Nat.mul_assoc, Nat.add_mul, Nat.one_mul, Nat.mul_add]
    grind
  · obtain ⟨c, rfl⟩ := Nat.exists_eq_add_of_le (Nat.succ_le_of_lt hq)
    have : 2 * (k + 1 + 1 + c) * d = 2 * (k * d) + 2 * d + 2 * d + 2 * (c * d) := by
      simp only [Nat.mul_assoc, Nat.add_mul, Nat.one_mul, Nat.mul_add]
    generalize c * d = x at *
    grind
namespace BinaryFormat

def single : BinaryFormat := ⟨23, 8⟩

def double : BinaryFormat := ⟨52, 11⟩

/-- The exponent of one: the middle of the exponent field. -/
def bias (f : BinaryFormat) : Nat := 1 <<< (f.exponentBits - 1) - 1

/-- The exponent of the smallest positive number, and of every subnormal one. -/
def minExponent (f : BinaryFormat) : Int := 1 - (f.bias : Int) - f.fractionBits

/-- The significand of a power of two among the normal numbers. -/
def leadingBit (f : BinaryFormat) : Nat := 1 <<< f.fractionBits

/-- The pattern of positive infinity; the finite magnitudes are the patterns below it. -/
def infinity (f : BinaryFormat) : Nat := (1 <<< f.exponentBits - 1) * f.leadingBit

/-- The pattern without a sign that is written for a value that is not a number. -/
def quietNaN (f : BinaryFormat) : Nat := f.infinity + f.leadingBit / 2

def signBit (f : BinaryFormat) : Nat := 1 <<< (f.fractionBits + f.exponentBits)

def withSign (f : BinaryFormat) (negative : Bool) (magnitude : Nat) : Nat :=
  if negative then f.signBit + magnitude else magnitude

/-- The numerator and denominator of `n / d` divided by `2 ^ e`. -/
def scaleDown (n d : Nat) (e : Int) : Nat × Nat :=
  if 0 ≤ e then (n, d <<< e.toNat) else (n <<< (-e).toNat, d)

/-- The exponent at which `n / d` has a significand of the format's width, or the least one.

The logarithms place `n / d` strictly between two powers of two whose exponents differ by two, so
the first guess is right or one too small. -/
def exponentOf (f : BinaryFormat) (n d : Nat) : Int :=
  let guess := max f.minExponent ((n.log2 : Int) - d.log2 - f.fractionBits - 1)
  let (a, b) := scaleDown n d guess
  if a / b < 2 * f.leadingBit then guess else guess + 1

/-- The magnitude nearest to `n / d`, a half going to the even neighbour; infinity when that is
beyond the largest number.

Consecutive patterns are consecutive numbers, so a significand that rounds up to the next power of
two carries into the exponent field by itself. -/
def ofRatio (f : BinaryFormat) (n d : Nat) : Nat :=
  if n = 0 then 0
  else
    let e := f.exponentOf n d
    let (a, b) := scaleDown n d e
    let magnitude := (e - f.minExponent).toNat * f.leadingBit + roundQuotient a b
    min magnitude f.infinity

def decode (f : BinaryFormat) (bits : Nat) : Decoded :=
  let negative := f.signBit ≤ bits
  let magnitude := bits % f.signBit
  let exponentField := magnitude / f.leadingBit
  let fraction := magnitude % f.leadingBit
  if magnitude = f.infinity then .infinite negative
  else if f.infinity < magnitude then .nan
  else if exponentField = 0 then .finite negative fraction f.minExponent
  else .finite negative (fraction + f.leadingBit) (f.minExponent + exponentField - 1)

end BinaryFormat

end RecordQuery.Numeral
