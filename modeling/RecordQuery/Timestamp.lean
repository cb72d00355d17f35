import RecordQuery.Timestamp.Calendar

/-!
# Timestamps

An instant, as the seconds since the start of 1970 and the nanoseconds within the second. A leap
second is the second before it with a full second more of nanoseconds. Timestamps are read in the
RFC 3339 form, byte by byte, and written as the UTC date and time with six decimals.

1. `Timestamp.parse` reads: date, time, fraction, and the offset last.
2. `Timestamp.utcText` writes.
-/
namespace RecordQuery

/-- An instant in UTC. -/
structure Timestamp where
  seconds : Int
  nanos : Nat
  deriving DecidableEq, Repr

/-- Why a text is not a timestamp. -/
inductive TimestampFault where
  | invalid
  | short
  | outOfRange
  | trailing
  deriving DecidableEq, Repr

def TimestampFault.message : TimestampFault → String
  | .invalid => "input contains invalid characters"
  | .short => "premature end of input"
  | .outOfRange => "input is out of range"
  | .trailing => "trailing input"

namespace Timestamp

/-- The bytes that are still to be read. -/
abbrev Input := List UInt8

/-- The value of a byte that is an ASCII digit. -/
def digit? (b : UInt8) : Option Nat :=
  if 48 ≤ b ∧ b ≤ 57 then some (b.toNat - 48) else none

/-- Read exactly `count` digits onto the number `acc`. -/
def takeDigits : Nat → Nat → Input → Except TimestampFault (Nat × Input)
  | 0, acc, bytes => .ok (acc, bytes)
  | count + 1, acc, b :: bytes =>
    match digit? b with
    | some d => takeDigits count (10 * acc + d) bytes
    | none => .error .invalid
  | _ + 1, _, [] => .error .invalid

/-- Read one of the given bytes. -/
def takeByte (allowed : List UInt8) : Input → Except TimestampFault Input
  | b :: bytes => if b ∈ allowed then .ok bytes else .error .invalid
  | [] => .error .invalid

/-- Read the date; it has to be in the calendar. -/
def takeDate (bytes : Input) : Except TimestampFault (Calendar.Date × Input) := do
  let (year, bytes) ← takeDigits 4 0 bytes
  let bytes ← takeByte [45] bytes
  let (month, bytes) ← takeDigits 2 0 bytes
  let bytes ← takeByte [45] bytes
  let (day, bytes) ← takeDigits 2 0 bytes
  let date : Calendar.Date := ⟨year, month, day⟩
  if date.isValid then .ok (date, bytes) else .error .outOfRange

/-- The digits at the front, as nanoseconds: the ninth decimal is the last one that counts. -/
def fractionNanos (digits : List Nat) : Nat :=
  (digits.take 9 ++ List.replicate (9 - digits.length) 0).foldl (fun n d => 10 * n + d) 0

/-- Read the decimals of the second when a point stands in front of them. -/
def takeFraction : Input → Except TimestampFault (Nat × Input)
  | 46 :: [] => .error .short
  | 46 :: bytes =>
    let digits := (bytes.takeWhile fun b => (digit? b).isSome).filterMap digit?
    if digits.isEmpty then .error .invalid
    else .ok (fractionNanos digits, bytes.dropWhile fun b => (digit? b).isSome)
  | bytes => .ok (0, bytes)

/-- Read two digits of an offset. -/
def takeOffsetPair : Input → Except TimestampFault (Nat × Input)
  | a :: b :: bytes => takeDigits 2 0 (a :: b :: bytes)
  | _ => .error .short

/-- Read the hours and minutes of an offset, in seconds. -/
def takeOffsetTime (bytes : Input) : Except TimestampFault (Nat × Input) := do
  let (hours, bytes) ← takeOffsetPair bytes
  let bytes ← if bytes.isEmpty then .error .short else takeByte [58] bytes
  let (minutes, bytes) ← takeOffsetPair bytes
  if minutes < 60 then .ok (hours * 3600 + minutes * 60, bytes) else .error .outOfRange

/-- Read an offset from UTC, in seconds: the letter of UTC itself, or a sign and a time. The minus
sign may also be the typographic one. -/
def takeOffset : Input → Except TimestampFault (Int × Input)
  | [] => .error .short
  | 90 :: bytes | 122 :: bytes => .ok (0, bytes)
  | 43 :: bytes => (takeOffsetTime bytes).map fun p => ((p.1 : Int), p.2)
  | 45 :: bytes | 0xE2 :: 0x88 :: 0x92 :: bytes =>
    (takeOffsetTime bytes).map fun p => (-(p.1 : Int), p.2)
  | _ => .error .invalid

/-- Read an RFC 3339 timestamp. A second of 60 is a leap second, in any minute. -/
def parse (s : String) : Except TimestampFault Timestamp := do
  let bytes := s.toList.flatMap String.utf8EncodeChar
  if bytes.length < 19 then .error .short
  let (date, bytes) ← takeDate bytes
  let bytes ← takeByte [84, 116, 32] bytes
  let (hour, bytes) ← takeDigits 2 0 bytes
  let bytes ← takeByte [58] bytes
  let (minute, bytes) ← takeDigits 2 0 bytes
  let bytes ← takeByte [58] bytes
  let (second, bytes) ← takeDigits 2 0 bytes
  let (nanos, bytes) ← takeFraction bytes
  if 24 ≤ hour ∨ 60 ≤ minute ∨ 60 < second then .error .outOfRange
  let (offset, bytes) ← takeOffset bytes
  if ¬bytes.isEmpty then .error .trailing
  if 86400 ≤ offset.natAbs then .error .outOfRange
  let leap := second = 60
  let secondOfDay := hour * 3600 + minute * 60 + (if leap then 59 else second)
  .ok ⟨date.dayNumber * 86400 + secondOfDay - offset, if leap then nanos + 1000000000 else nanos⟩

/-- A number with zeros in front up to a width. -/
def padded (width n : Nat) : String :=
  let digits := toString n
  String.ofList (List.replicate (width - digits.length) '0') ++ digits

/-- A year has four digits at least, and a sign when it is outside of 0 to 9999. -/
def yearText (year : Int) : String :=
  if year < 0 then "-" ++ padded 4 year.natAbs
  else if 9999 < year then "+" ++ padded 4 year.natAbs
  else padded 4 year.natAbs

/-- The UTC date and time, in microseconds; further decimals are cut off, and a leap second shows
as the second 60. -/
def utcText (t : Timestamp) : String :=
  let date := Calendar.Date.ofDayNumber (t.seconds / 86400)
  let daySecond := (t.seconds % 86400).toNat
  let leap := if 1000000000 ≤ t.nanos then 1 else 0
  yearText date.year ++ "-" ++ padded 2 date.month ++ "-" ++ padded 2 date.day ++ " "
    ++ padded 2 (daySecond / 3600) ++ ":" ++ padded 2 (daySecond / 60 % 60) ++ ":"
    ++ padded 2 (daySecond % 60 + leap) ++ "."
    ++ padded 6 (t.nanos % 1000000000 / 1000) ++ " +00:00"

end Timestamp

end RecordQuery
