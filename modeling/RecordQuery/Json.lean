import RecordQuery.Numeral.Scaled
import RecordQuery.Numeral.Shortest

/-!
# JSON

JSON values and their compact text. An integer that fits 64 bits is kept exactly, any other number
is a 64-bit floating-point number. The members of an object keep their order; a record read from
text has them in the order of their names.

1. `Json.compact`: the text without blanks.
2. `Json.ofNumeral`: which numerals are integers, and what the others are.
-/
namespace RecordQuery

/-- A JSON value. -/
inductive Json where
  | null
  | bool (value : Bool)
  | natural (value : Nat)
  | negative (value : Int)
  /-- A number by its 64-bit pattern. -/
  | float (bits : UInt64)
  | text (value : String)
  | array (items : List Json)
  | object (members : List (String × Json))

namespace Json

def ofInt : Int → Json
  | .ofNat n => natural n
  | .negSucc n => negative (.negSucc n)

/-- The number that a numeral spells, unless it is too large. An integer within 64 bits is exact;
minus zero is none, for an integer has no sign of its own there. Any other number is read by
scaling. -/
def ofNumeral (numeral : List Char) : Option Json :=
  let isNegative := numeral.head? = some '-'
  let (whole, fraction, rest) := Numeral.splitPoint (if isNegative then numeral.tail else numeral)
  let n := Nat.ofDigitChars 10 whole 0
  if fraction = [] ∧ rest = [] ∧ ¬isNegative ∧ n < UInt64.size then some (natural n)
  else if fraction = [] ∧ rest = [] ∧ isNegative ∧ 0 < n ∧ n ≤ 0x8000000000000000 then some (negative (-n))
  else do
    let magnitude ← Numeral.scaleDigits whole fraction (← Numeral.readExponent rest)
    return float (UInt64.ofNat (Numeral.BinaryFormat.double.withSign isNegative magnitude))

/-- A member put at the place of its name among members in order; an earlier one of that name is
replaced. -/
def insertMember (name : String) (value : Json) : List (String × Json) → List (String × Json)
  | [] => [(name, value)]
  | (n, v) :: rest =>
    if name < n then (name, value) :: (n, v) :: rest
    else if name = n then (name, value) :: rest
    else (n, v) :: insertMember name value rest

/-- The object of members in the order of their names; of several with one name the last counts. -/
def ofMembers (members : List (String × Json)) : Json :=
  object (members.foldl (fun sorted m => insertMember m.1 m.2 sorted) [])

/-! ## Text -/

/-- The two lower-case hexadecimal digits of a number below 256. -/
def hexPair (n : Nat) : List Char := [Nat.digitChar (n / 16 % 16), Nat.digitChar (n % 16)]

/-- A character inside quotes. Only the quote, the backslash and control characters are escaped. -/
def escapeChar (c : Char) : List Char :=
  if c = '\x22' ∨ c = '\x5c' then ['\x5c', c]
  else if c = '\x08' then ['\x5c', 'b']
  else if c = '\t' then ['\x5c', 't']
  else if c = '\n' then ['\x5c', 'n']
  else if c = '\x0c' then ['\x5c', 'f']
  else if c = '\r' then ['\x5c', 'r']
  else if c.toNat < 32 then ['\x5c', 'u', '0', '0'] ++ hexPair c.toNat
  else [c]

def quote (s : String) : String :=
  String.ofList ('\x22' :: s.toList.flatMap escapeChar ++ ['\x22'])

/-- The text of a floating-point number: a point or an exponent is always there, and what is no
number is written as null. -/
def floatText (bits : UInt64) : String :=
  match Numeral.BinaryFormat.double.decode bits.toNat with
  | .nan | .infinite _ => "null"
  | .finite .. =>
    Numeral.BinaryFormat.double.render .even "0.0" Numeral.Decimal.scientific bits.toNat

mutual

/-- The compact text of a value. -/
def compact : Json → String
  | null => "null"
  | bool value => if value then "true" else "false"
  | natural value => toString value
  | negative value => toString value
  | float bits => floatText bits
  | text value => quote value
  | array items => "[" ++ ",".intercalate (compactItems items) ++ "]"
  | object members => "\x7b" ++ ",".intercalate (compactMembers members) ++ "\x7d"

def compactItems : List Json → List String
  | [] => []
  | item :: rest => item.compact :: compactItems rest

def compactMembers : List (String × Json) → List String
  | [] => []
  | (name, value) :: rest => (quote name ++ ":" ++ value.compact) :: compactMembers rest

end

end Json

end RecordQuery
