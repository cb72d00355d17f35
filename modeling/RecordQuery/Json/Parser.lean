import RecordQuery.Json
import RecordQuery.Text.Hexadecimal

/-!
# Reading JSON text

The JSON value that a text spells. Each reader takes characters and gives what it read together
with the characters after it; blanks may stand around every value and sign.

1. `Json.readNumber`, `Json.readChars`, `Json.readValue`: numbers, quoted texts, and values.
2. `Json.parse`: the value of a text, if it is one value and nothing else.
-/
namespace RecordQuery.Json

/-- What is left after blanks at the front. -/
def afterBlanks (cs : List Char) : List Char :=
  cs.dropWhile fun c => c == ' ' || c == '\t' || c == '\n' || c == '\r'

/-! ## Numbers -/

/-- What is left after at least one digit. -/
def afterDigits : List Char → Option (List Char)
  | c :: rest => if c.isDigit then some (rest.dropWhile Char.isDigit) else none
  | [] => none

/-- What is left after the whole part of a number, which has no needless zero in front. -/
def afterWhole : List Char → Option (List Char)
  | '0' :: rest => some rest
  | cs => afterDigits cs

/-- What is left after a fraction, if there is one. -/
def afterFraction : List Char → Option (List Char)
  | '.' :: rest => afterDigits rest
  | cs => some cs

def afterSign : List Char → List Char
  | '+' :: rest | '-' :: rest => rest
  | cs => cs

/-- What is left after an exponent, if there is one. -/
def afterExponent : List Char → Option (List Char)
  | 'e' :: rest | 'E' :: rest => afterDigits (afterSign rest)
  | cs => some cs

/-- A number, unless it is too large. -/
def readNumber (cs : List Char) : Option (Json × List Char) := do
  let unsigned := match cs with
    | '-' :: rest => rest
    | cs => cs
  let rest ← afterExponent (← afterFraction (← afterWhole unsigned))
  return (← ofNumeral (cs.take (cs.length - rest.length)), rest)

/-! ## Texts -/

/-- The value of four hexadecimal digits. -/
def unit? (a b c d : Char) : Option Nat := do
  let value := Text.hexDigit?
  return (((← value a) * 16 + (← value b)) * 16 + (← value c)) * 16 + (← value d)

/-- The character of a letter after a backslash. -/
def escaped? (c : Char) : Option Char :=
  match c with
  | '\x22' | '\x5c' | '/' => some c
  | 'b' => some '\x08'
  | 'f' => some '\x0c'
  | 'n' => some '\n'
  | 'r' => some '\r'
  | 't' => some '\t'
  | _ => none

/-- The characters up to a closing quote. A character beyond four hexadecimal digits is written as
two surrogates, and half of such a pair is no character. -/
def readChars : List Char → Option (List Char × List Char)
  | '\x22' :: rest => some ([], rest)
  | '\x5c' :: 'u' :: a :: b :: c :: d :: '\x5c' :: 'u' :: e :: f :: g :: h :: rest =>
    match unit? a b c d with
    | none => none
    | some high =>
      if 0xd800 ≤ high ∧ high < 0xdc00 then
        match unit? e f g h with
        | none => none
        | some low =>
          if 0xdc00 ≤ low ∧ low < 0xe000 then
            (readChars rest).map fun p =>
              (Char.ofNat (0x10000 + (high - 0xd800) * 0x400 + (low - 0xdc00)) :: p.1, p.2)
          else none
      else if 0xdc00 ≤ high ∧ high < 0xe000 then none
      else (readChars ('\x5c' :: 'u' :: e :: f :: g :: h :: rest)).map fun p =>
        (Char.ofNat high :: p.1, p.2)
  | '\x5c' :: 'u' :: a :: b :: c :: d :: rest =>
    match unit? a b c d with
    | none => none
    | some unit =>
      if 0xd800 ≤ unit ∧ unit < 0xe000 then none
      else (readChars rest).map fun p => (Char.ofNat unit :: p.1, p.2)
  | '\x5c' :: c :: rest =>
    match escaped? c with
    | none => none
    | some e => (readChars rest).map fun p => (e :: p.1, p.2)
  | c :: rest => if c.toNat < 32 then none else (readChars rest).map fun p => (c :: p.1, p.2)
  | [] => none

/-! ## Values -/

mutual

/-- A value. The first argument bounds the depth of the reading. -/
def readValue : Nat → List Char → Option (Json × List Char)
  | 0, _ => none
  | depth + 1, cs =>
    match afterBlanks cs with
    | '\x22' :: rest => (readChars rest).map fun p => (text (String.ofList p.1), p.2)
    | '[' :: rest =>
      match afterBlanks rest with
      | ']' :: rest => some (array [], rest)
      | _ => (readItems depth rest).map fun p => (array p.1, p.2)
    | '\x7b' :: rest =>
      match afterBlanks rest with
      | '\x7d' :: rest => some (object [], rest)
      | _ => (readMembers depth rest).map fun p => (ofMembers p.1, p.2)
    | 't' :: 'r' :: 'u' :: 'e' :: rest => some (bool true, rest)
    | 'f' :: 'a' :: 'l' :: 's' :: 'e' :: rest => some (bool false, rest)
    | 'n' :: 'u' :: 'l' :: 'l' :: rest => some (null, rest)
    | cs => readNumber cs

def readItems : Nat → List Char → Option (List Json × List Char)
  | 0, _ => none
  | depth + 1, cs =>
    match readValue depth cs with
    | none => none
    | some (item, rest) =>
      match afterBlanks rest with
      | ',' :: rest => (readItems depth rest).map fun p => (item :: p.1, p.2)
      | ']' :: rest => some ([item], rest)
      | _ => none

def readMembers : Nat → List Char → Option (List (String × Json) × List Char)
  | 0, _ => none
  | depth + 1, cs =>
    match afterBlanks cs with
    | '\x22' :: rest =>
      match readChars rest with
      | none => none
      | some (name, rest) =>
        match afterBlanks rest with
        | ':' :: rest =>
          match readValue depth rest with
          | none => none
          | some (value, rest) =>
            match afterBlanks rest with
            | ',' :: rest =>
              (readMembers depth rest).map fun p => ((String.ofList name, value) :: p.1, p.2)
            | '\x7d' :: rest => some ([(String.ofList name, value)], rest)
            | _ => none
        | _ => none
    | _ => none

end

/-- The value of a text. A value takes at least one character and a list of values two steps for
each, which bounds the depth. -/
def parse (s : String) : Option Json :=
  match readValue (2 * s.length + 2) s.toList with
  | some (json, rest) => if (afterBlanks rest).isEmpty then some json else none
  | none => none

end RecordQuery.Json
