import RecordQuery.Database
import RecordQuery.Numeral.Shortest
import RecordQuery.Value

/-!
# Literals

How three databases write names and values in the text of a query. A name is always quoted, the
quote inside it doubled. Text is escaped with backslashes by two of them, and by doubling the quote
in the third.

1. `Database.quoteName`: names; `Database.literal`: values.
-/
namespace RecordQuery.Database

/-- The quote around names. -/
def nameQuote : Database → Char
  | .mySql => '\x60'
  | .postgres | .sqlite => '\x22'

/-- The characters with every quote doubled. -/
def doubled (quote : Char) (cs : List Char) : List Char :=
  cs.flatMap fun c => if c = quote then [c, c] else [c]

def quoteName (db : Database) (name : String) : String :=
  String.ofList (db.nameQuote :: doubled db.nameQuote name.toList ++ [db.nameQuote])

/-- The letter that stands after a backslash for a character that text cannot hold. -/
def backslashLetter? (c : Char) : Option Char :=
  if c = '\x5c' ∨ c = '\x22' ∨ c = '\x27' then some c
  else if c = '\x00' then some '0'
  else if c = '\x08' then some 'b'
  else if c = '\t' then some 't'
  else if c = '\x1a' then some 'z'
  else if c = '\n' then some 'n'
  else if c = '\r' then some 'r'
  else none

/-- The characters with backslashes where they are needed. -/
def backslashed (cs : List Char) : List Char :=
  cs.flatMap fun c => match backslashLetter? c with
    | some letter => ['\x5c', letter]
    | none => [c]

/-- Text in quotes; a database that does not always read backslashes as escapes is told to. -/
def quoteText (db : Database) (text : String) : String :=
  match db with
  | .sqlite => "'" ++ String.ofList (doubled '\x27' text.toList) ++ "'"
  | .mySql => "'" ++ String.ofList (backslashed text.toList) ++ "'"
  | .postgres =>
    let escaped := backslashed text.toList
    (if '\x5c' ∈ escaped then "E'" else "'") ++ String.ofList escaped ++ "'"

/-- A value in the text of a query. -/
def literal (db : Database) : Value → String
  | .bool value => if value then "TRUE" else "FALSE"
  | .int32 value => toString value.toInt
  | .int64 value => toString value.toInt
  | .uint64 value => toString value.toNat
  | .float32 bits => Numeral.BinaryFormat.single.renderPositional bits.toNat
  | .float64 bits => Numeral.BinaryFormat.double.renderPositional bits.toNat
  | .text value => db.quoteText value
  | .uuid value => "'" ++ value.hyphenated ++ "'"
  | .timestamp value => "'" ++ value.utcText ++ "'"

end RecordQuery.Database
