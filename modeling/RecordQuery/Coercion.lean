import RecordQuery.Error
import RecordQuery.Numeral.Decimal
import RecordQuery.Shape
import RecordQuery.Value

/-!
# Coercion

Reading a raw value as a value of a field's type. A list is compared element by element, so its raw
values are read as elements, and errors name the element type. A related record has no values.

1. `FieldType.coerce`: the value of a type, or the error that names the type and the reason.
-/
namespace RecordQuery

namespace FieldType

/-- A value that was read, or the error that names the type and the reason. -/
def orCoercionError {ε α : Type} (target : FieldType) (raw : String) (message : ε → String)
    (read : Except ε α) (toValue : α → Value) : Except CoercionError Value :=
  match read with
  | .ok a => .ok (toValue a)
  | .error e => .error ⟨raw, target.name, message e⟩

/-- The truth value that a text spells exactly. -/
def readBool (raw : String) : Except Unit Bool :=
  match raw with
  | "true" => .ok true
  | "false" => .ok false
  | _ => .error ()

/-- The value of a type that a raw text spells. -/
def coerce (raw : String) : FieldType → Except CoercionError Value
  | .bool =>
    orCoercionError .bool raw (fun _ => "provided string was not `true` or `false`")
      (readBool raw) .bool
  | .int32 => orCoercionError .int32 raw (·.message) (Numeral.readInt32 raw) .int32
  | .int64 => orCoercionError .int64 raw (·.message) (Numeral.readInt64 raw) .int64
  | .float32 => orCoercionError .float32 raw (·.message) (Numeral.readFloat32 raw) .float32
  | .float64 => orCoercionError .float64 raw (·.message) (Numeral.readFloat64 raw) .float64
  | .text => .ok (.text raw)
  | .uuid => orCoercionError .uuid raw (·.message) (Uuid.parse raw) .uuid
  | .timestamp => orCoercionError .timestamp raw (·.message) (Timestamp.parse raw) .timestamp
  | .enum members =>
    if raw ∈ members then .ok (.text raw)
    else .error ⟨raw, (FieldType.enum members).name,
      "expected one of " ++ ", ".intercalate members⟩
  | .list element => coerce raw element
  | .relation fields =>
    .error ⟨raw, (FieldType.relation fields).name, "a related record cannot be compared to a value"⟩

end FieldType

end RecordQuery
