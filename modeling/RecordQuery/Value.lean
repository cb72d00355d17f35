import RecordQuery.Timestamp
import RecordQuery.Uuid

/-!
# Values

The typed values that a query binds. Floating-point numbers are their bit patterns, so two values
are equal exactly when they are the same value of the same width.
-/
namespace RecordQuery

/-- A value bound to a placeholder. -/
inductive Value where
  | bool (value : Bool)
  | int32 (value : Int32)
  | int64 (value : Int64)
  | uint64 (value : UInt64)
  | float32 (bits : UInt32)
  | float64 (bits : UInt64)
  | text (value : String)
  | uuid (value : Uuid)
  | timestamp (value : Timestamp)
  deriving DecidableEq, Repr

end RecordQuery
