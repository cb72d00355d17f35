import RecordQuery.Like
import RecordQuery.Plan

/-!
# Clauses

A clause is the text of a part of a query, with a question mark for each value, and the values in
the order of their marks. Raw values are never written into the text.

1. `Clause.join_empty`, `Clause.empty_join`: the empty clause changes nothing.
2. `Clause.join_assoc`: clauses whose values have marks can be joined in any grouping.
3. `Clause.values_ofFilters`: the values of a plan are those of its conditions, in order.
-/
namespace RecordQuery

/-- Text with placeholders, and the values for them in order. -/
structure Clause where
  text : String
  values : List Value
  deriving DecidableEq

namespace Clause

def empty : Clause := ⟨"", []⟩

instance : Inhabited Clause := ⟨empty⟩

def isEmpty (c : Clause) : Bool := c.text == ""

/-- The clause followed by another, with a space between two texts. A clause without text adds
nothing, not even its values. -/
def join (c d : Clause) : Clause :=
  if d.text = "" then c
  else ⟨if c.text = "" then d.text else c.text ++ " " ++ d.text, c.values ++ d.values⟩

@[simp]
theorem join_empty (c : Clause) : c.join empty = c := rfl

@[simp]
theorem empty_join (c : Clause) (h : c.text = "" → c.values = []) : empty.join c = c := by
  unfold join empty
  split
  · rename_i ht
    cases c
    simp_all
  · simp

/-- Clauses whose values have marks can be joined in any grouping: a clause without text may have
no values either. -/
theorem join_assoc {a b c : Clause} (hb : b.text = "" → b.values = []) :
    (a.join b).join c = a.join (b.join c) := by
  unfold join
  by_cases ha : a.text = "" <;> by_cases hbt : b.text = "" <;> by_cases hc : c.text = "" <;>
    simp_all [String.append_assoc]

end Clause

namespace PlannedField

/-- The column of the field in the text of a query: its columns with points between them, after a
qualifier, inside its function. -/
def column (f : PlannedField) (qualifier : String) : String :=
  match f.function with
  | none => qualifier ++ f.dotted
  | some function => function.sqlName ++ "(" ++ qualifier ++ f.dotted ++ ")"

end PlannedField

namespace Operand

/-- What stands beside the column, with a question mark for each value. -/
def sql : Operand → String
  | .compare c _ => c.sql ++ " ?"
  | .isIn values => "IN (" ++ ",".intercalate (values.map fun _ => "?") ++ ")"
  | .like _ => "LIKE ? ESCAPE '" ++ String.singleton Like.escapeChar ++ "'"
  | .is literal => literal.sql

/-- The values of the question marks. -/
def values : Operand → List Value
  | .compare _ value => [value]
  | .isIn values => values
  | .like raw => [.text (Like.pattern raw true)]
  | .is _ => []

end Operand

namespace PlannedFilter

def sql (qualifier : String) (f : PlannedFilter) : String :=
  f.field.column qualifier ++ " " ++ f.operand.sql

end PlannedFilter

namespace PlannedSort

def sql (qualifier : String) (s : PlannedSort) : String :=
  s.field.column qualifier ++ " " ++ s.direction.sql

end PlannedSort

namespace Clause

/-- The conditions of a plan, all of which have to hold; nothing when there are none. -/
def ofFilters (qualifier : String) (plan : List PlannedFilter) : Clause :=
  if plan.isEmpty then empty
  else ⟨"WHERE " ++ " AND ".intercalate (plan.map (·.sql qualifier)),
    plan.flatMap (·.operand.values)⟩

/-- The order of a plan; nothing when there are no terms. -/
def ofSorts (qualifier : String) (plan : List PlannedSort) : Clause :=
  if plan.isEmpty then empty
  else ⟨"ORDER BY " ++ ", ".intercalate (plan.map (·.sql qualifier)), []⟩

/-- The values of a plan are those of its conditions, in order. -/
theorem values_ofFilters (qualifier : String) (plan : List PlannedFilter) :
    (ofFilters qualifier plan).values = plan.flatMap (·.operand.values) := by
  cases plan <;> rfl

end Clause

namespace Compiler

def compileText (c : Compiler) (spec : FilterSpec) (qualifier : String) :
    Except QueryError Clause :=
  (c.planFilters spec).map (Clause.ofFilters qualifier)

def compileSortText (c : Compiler) (spec : SortSpec) (qualifier : String) :
    Except QueryError String :=
  (c.planSorts spec).map fun plan => (Clause.ofSorts qualifier plan).text

end Compiler

end RecordQuery
