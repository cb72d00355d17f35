import RecordQuery.Condition

/-!
# Orders

The order of a plan as terms on the columns of tables.

1. `OrderTerm.ofSorts`: the terms of a plan.
2. `Compiler.compileOrder`: the terms of a spec.
-/
namespace RecordQuery

/-- A target and the direction in which it is sorted. -/
structure OrderTerm where
  target : Target
  direction : Direction
  deriving DecidableEq, Repr

namespace OrderTerm

/-- The terms of a plan in the tables of a source. -/
def ofSorts (source : Source) (plan : List PlannedSort) : Except QueryError (List OrderTerm) :=
  collect (fun s => (s.field.target source).map fun target => ⟨target, s.direction⟩) plan

end OrderTerm

namespace Compiler

/-- The order of a sort spec, the first term taking precedence. -/
def compileOrder (c : Compiler) (spec : SortSpec) (source : Source) :
    Except QueryError (List OrderTerm) :=
  (c.planSorts spec).bind (OrderTerm.ofSorts source)

end Compiler

end RecordQuery
