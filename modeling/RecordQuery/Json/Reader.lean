import RecordQuery.Error
import RecordQuery.Json
import RecordQuery.Text.Quoted

/-!
# Reading JSON values

Reading a JSON value as a typed one. A record is read from an object, whose further members do not
matter, or from an array with a value for each field in order; a value that cannot be read is
described by its kind.

1. `readUInt64_eq_ok_iff`: which values are unsigned integers of 64 bits.
-/
namespace RecordQuery

/-- Why a JSON value cannot be read as what is wanted. -/
inductive JsonFault where
  /-- The value is of another kind. -/
  | wrongKind (found : Json) (wanted : String)
  /-- The value is an integer, but not one of the range. -/
  | outOfRange (found : Int) (wanted : String)
  /-- An array has too few items, or too many. -/
  | wrongLength (count : Nat) (wanted : String)
  /-- The value is of the kind, but means nothing. -/
  | refused (error : QueryError)

namespace Json

/-- What a value is, as faults name it. -/
def describe : Json → String
  | null => "null"
  | bool value => "boolean `" ++ (if value then "true" else "false") ++ "`"
  | natural value => "integer `" ++ toString value ++ "`"
  | negative value => "integer `" ++ toString value ++ "`"
  | float bits => "floating point `" ++ floatText bits ++ "`"
  | text value => "string " ++ Text.quoted value
  | array _ => "sequence"
  | object _ => "map"

end Json

def JsonFault.message : JsonFault → String
  | .wrongKind found wanted => "invalid type: " ++ found.describe ++ ", expected " ++ wanted
  | .outOfRange found wanted =>
    "invalid value: integer `" ++ toString found ++ "`, expected " ++ wanted
  | .wrongLength count wanted => "invalid length " ++ toString count ++ ", expected " ++ wanted
  | .refused error => error.message

namespace Json

/-! ## Scalars -/

def readUInt64 (wanted : String) : Json → Except JsonFault UInt64
  | natural value =>
    if value < UInt64.size then .ok (UInt64.ofNat value) else .error (.outOfRange value wanted)
  | negative value => .error (.outOfRange value wanted)
  | other => .error (.wrongKind other wanted)

def readInt64 (wanted : String) : Json → Except JsonFault Int64
  | natural value =>
    if value < 0x8000000000000000 then .ok (Int64.ofNat value) else .error (.outOfRange value wanted)
  | negative value =>
    if -0x8000000000000000 ≤ value then .ok (Int64.ofInt value) else .error (.outOfRange value wanted)
  | other => .error (.wrongKind other wanted)

def readText : Json → Except JsonFault String
  | text value => .ok value
  | other => .error (.wrongKind other "a string")

/-- A value that may be missing; null says that it is. -/
def readOptional {α : Type} (read : Json → Except JsonFault α) : Json → Except JsonFault (Option α)
  | null => .ok none
  | value => (read value).map some

/-! ## Records -/

/-- The value of the member with a name; of several, the first. -/
def member? (members : List (String × Json)) (name : String) : Option Json :=
  (members.find? fun m => m.1 == name).map Prod.snd

/-- The value of a field that may be left out. -/
def readField {α : Type} (read : Json → Except JsonFault α) (absent : α) :
    Option Json → Except JsonFault α
  | some value => read value
  | none => .ok absent

/-- A record of `fieldCount` fields has no value left over in an array. -/
def noFurther (items : List Json) (fieldCount : Nat) : Except JsonFault Unit :=
  if items.length ≤ fieldCount then .ok ()
  else .error (.wrongLength items.length "fewer elements in array")

/-- The numbers that are unsigned 64-bit integers. -/
theorem readUInt64_eq_ok_iff {wanted : String} {json : Json} {n : UInt64} :
    readUInt64 wanted json = .ok n ↔ json = natural n.toNat := by
  constructor
  · intro h
    unfold readUInt64 at h
    split at h
    · split at h
      · rename_i hlt
        cases h
        rw [UInt64.toNat_ofNat_of_lt' hlt]
      · cases h
    · cases h
    · cases h
  · rintro rfl
    simp [readUInt64, n.toNat_lt]

end Json

end RecordQuery
