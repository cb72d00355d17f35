import RecordQuery.Text

/-!
# Operators

The operators of filters, the literals of `is`, and the directions of sorting, each with its
spelling in requests and its spelling in database queries. Operators and directions are read
without regard to ASCII case, literals exactly.

1. `Comparison.flipped_flipped`: swapping the operands twice changes nothing.
2. `Operator.parse_symbol`, `IsLiteral.parse_name`, `Direction.parse_name`: each spelling that is
   written is read back.
-/
namespace RecordQuery

/-- A comparison with one value. -/
inductive Comparison where
  | eq
  | ne
  | gt
  | ge
  | lt
  | le
  deriving DecidableEq, Repr

namespace Comparison

def sql : Comparison → String
  | .eq => "="
  | .ne => "<>"
  | .gt => ">"
  | .ge => ">="
  | .lt => "<"
  | .le => "<="

/-- The comparison with its operands swapped. -/
def flipped : Comparison → Comparison
  | .eq => .eq
  | .ne => .ne
  | .gt => .lt
  | .ge => .le
  | .lt => .gt
  | .le => .ge

@[simp]
theorem flipped_flipped (c : Comparison) : c.flipped.flipped = c := by
  cases c <;> rfl

end Comparison

/-- The operator of a filter. -/
inductive Operator where
  | compare (comparison : Comparison)
  /-- The text contains the value. -/
  | like
  /-- The field is one of the values. -/
  | isIn
  /-- The field is a truth value, or is null or not. -/
  | is
  deriving DecidableEq, Repr

namespace Operator

/-- The canonical spelling in a request. -/
def symbol : Operator → String
  | .compare c => c.sql
  | .like => "like"
  | .isIn => "in"
  | .is => "is"

/-- Read an operator in any case; `!=` is another spelling of `<>`. -/
def parse (raw : String) : Option Operator :=
  match Text.lowerAscii raw with
  | "=" => some (.compare .eq)
  | "<>" => some (.compare .ne)
  | "!=" => some (.compare .ne)
  | ">" => some (.compare .gt)
  | ">=" => some (.compare .ge)
  | "<" => some (.compare .lt)
  | "<=" => some (.compare .le)
  | "like" => some .like
  | "in" => some .isIn
  | "is" => some .is
  | _ => none

def comparison? : Operator → Option Comparison
  | .compare c => some c
  | _ => none

@[simp]
theorem parse_symbol (o : Operator) : parse o.symbol = some o := by
  cases o with
  | compare c => cases c <;> rfl
  | _ => rfl

end Operator

/-- What an `is` filter tests for. -/
inductive IsLiteral where
  | true
  | false
  | null
  | notNull
  deriving DecidableEq, Repr

namespace IsLiteral

def name : IsLiteral → String
  | .true => "true"
  | .false => "false"
  | .null => "null"
  | .notNull => "not_null"

/-- What follows the column in a database query; no value is bound for it. -/
def sql : IsLiteral → String
  | .true => "= true"
  | .false => "= false"
  | .null => "IS NULL"
  | .notNull => "IS NOT NULL"

/-- Read a literal, spelled exactly. -/
def parse (raw : String) : Option IsLiteral :=
  match raw with
  | "true" => some .true
  | "false" => some .false
  | "null" => some .null
  | "not_null" => some .notNull
  | _ => none

/-- Whether the literal is compared with a truth value. -/
def isBoolean : IsLiteral → Bool
  | .true | .false => Bool.true
  | .null | .notNull => Bool.false

@[simp]
theorem parse_name (l : IsLiteral) : parse l.name = some l := by
  cases l <;> rfl

end IsLiteral

/-- The direction of a sort. -/
inductive Direction where
  | ascending
  | descending
  deriving DecidableEq, Repr, Inhabited

namespace Direction

def name : Direction → String
  | .ascending => "asc"
  | .descending => "desc"

def sql : Direction → String
  | .ascending => "ASC"
  | .descending => "DESC"

def parse (raw : String) : Option Direction :=
  match Text.lowerAscii raw with
  | "asc" => some .ascending
  | "desc" => some .descending
  | _ => none

@[simp]
theorem parse_name (d : Direction) : parse d.name = some d := by
  cases d <;> rfl

end Direction

end RecordQuery
