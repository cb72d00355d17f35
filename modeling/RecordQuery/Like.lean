/-!
# Patterns

The patterns of `LIKE`. A request's value is searched for as a part of the text, so its pattern has
a wildcard for any text at both ends. In the escaped form, every character that means something in
a pattern stands for itself.

1. `escape`: the special characters of a text made plain.
2. `pattern`: the pattern for a part of a text.
-/
namespace RecordQuery.Like

/-- The character that makes the next one stand for itself. -/
def escapeChar : Char := '!'

/-- Whether a character means something in a pattern. -/
def isSpecial (c : Char) : Bool := c == '!' || c == '%' || c == '_' || c == '['

/-- The characters with the escape in front of every special one. -/
def escapeChars (cs : List Char) : List Char :=
  cs.flatMap fun c => if isSpecial c then [escapeChar, c] else [c]

/-- The text with the escape in front of every special character. -/
def escape (s : String) : String := String.ofList (escapeChars s.toList)

/-- The pattern for a text that contains `s`. -/
def pattern (s : String) (escaped : Bool) : String :=
  "%" ++ (if escaped then escape s else s) ++ "%"

end RecordQuery.Like
