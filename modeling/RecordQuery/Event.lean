import RecordQuery.ListQuery
import RecordQuery.Response

/-!
# Events

What is logged while a request is made into a query. The events of an operation are determined by
what it was given and what came out: a compilation that fails logs nothing, and an error is logged
when it becomes an answer. The events of compilations hold names and numbers, and no value.

1. `Event`: what can be logged, with its sentence and what stands beside it.
2. `Event.ofClause`, `Event.ofCondition`, `Event.ofOrder`: what is logged for a result; nothing for
   a failure.
-/
namespace RecordQuery

/-- How much an event matters. -/
inductive Severity where
  | debug
  | error
  deriving DecidableEq, Repr

def Severity.name : Severity → String
  | .debug => "debug"
  | .error => "error"

/-- Something that is logged. -/
inductive Event where
  /-- Conditions were written as text. -/
  | clauseCompiled (shape : String) (conditions values : Nat)
  /-- Conditions were put into a tree. -/
  | conditionCompiled (shape table : String) (predicates : Nat)
  /-- An order was made of terms. -/
  | orderCompiled (shape : String) (terms : Nat)
  /-- A soft-delete condition was wanted for a shape without the field for it. -/
  | noSoftDelete (shape : String)
  /-- A request was answered with an error of its own. -/
  | rejected (error : String)
  /-- A request was answered with an error of the configuration. -/
  | misconfigured (error : String)
  deriving DecidableEq, Repr

namespace Event

def severity : Event → Severity
  | misconfigured _ => .error
  | _ => .debug

def message : Event → String
  | clauseCompiled .. => "Compiled filter clause"
  | conditionCompiled .. => "Compiled filter condition"
  | orderCompiled .. => "Compiled order list"
  | noSoftDelete _ => "No soft-delete field declared"
  | rejected _ => "Rejected list parameters"
  | misconfigured _ => "Query configuration error"

/-- What is logged beside the sentence. -/
def fields : Event → List (String × Json)
  | clauseCompiled shape conditions values =>
    [("shape", .text shape), ("conditions", .natural conditions), ("params", .natural values)]
  | conditionCompiled shape table predicates =>
    [("shape", .text shape), ("table", .text table), ("predicates", .natural predicates)]
  | orderCompiled shape terms => [("shape", .text shape), ("terms", .natural terms)]
  | noSoftDelete shape => [("shape", .text shape)]
  | rejected error => [("error", .text error), ("status", .text "400 Bad Request")]
  | misconfigured error => [("error", .text error)]

/-! ## Events of results -/

/-- Writing conditions as text, given the clause or error that came out. Nothing is logged when
there is no condition. -/
def ofClause (shape : Shape) (spec : FilterSpec) : Except QueryError Clause → List Event
  | .ok clause =>
    if spec.isEmpty then [] else [clauseCompiled shape.name spec.size clause.values.length]
  | .error _ => []

/-- Putting conditions into a tree, given the tree or error that came out. -/
def ofCondition (shape : Shape) (source : Source) : Except QueryError Condition → List Event
  | .ok condition => [conditionCompiled shape.name source.table condition.size]
  | .error _ => []

/-- Making an order, given the terms or error that came out. -/
def ofOrder (shape : Shape) : Except QueryError (List OrderTerm) → List Event
  | .ok terms => [orderCompiled shape.name terms.length]
  | .error _ => []

@[simp]
theorem ofClause_error (shape : Shape) (spec : FilterSpec) (e : QueryError) :
    ofClause shape spec (.error e) = [] := rfl

@[simp]
theorem ofCondition_error (shape : Shape) (source : Source) (e : QueryError) :
    ofCondition shape source (.error e) = [] := rfl

end Event

/-! ## Events of operations -/

namespace QueryError

/-- What is logged when the error becomes an answer. -/
def responseEvents (e : QueryError) : List Event :=
  [if e.isConfigurationError then .misconfigured e.message else .rejected e.message]

end QueryError

namespace FilterSpec

/-- What is logged when a soft-delete condition is wanted. -/
def softDeleteEvents (shape : Shape) : List Event :=
  match shape.softDeleteField? with
  | none => [.noSoftDelete shape.name]
  | some _ => []

end FilterSpec

namespace Compiler

/-- What is logged when conditions are written as text. -/
def textEvents (c : Compiler) (spec : FilterSpec) (qualifier : String) : List Event :=
  Event.ofClause c.shape spec (c.compileText spec qualifier)

def conditionEvents (c : Compiler) (spec : FilterSpec) (source : Source) : List Event :=
  Event.ofCondition c.shape source (c.compileCondition spec source)

def orderEvents (c : Compiler) (spec : SortSpec) (source : Source) : List Event :=
  Event.ofOrder c.shape (c.compileOrder spec source)

end Compiler

namespace ListQuery

/-- What is logged when a list request is written as text: its conditions come first, and nothing
after them is logged. -/
def textEvents (q : ListQuery) (c : Compiler) (qualifier : String) : List Event :=
  c.textEvents q.filter qualifier

/-- What is logged when a list request is put on a select. The order is made only when the
conditions are. -/
def applyEvents (q : ListQuery) (c : Compiler) (source : Source) : List Event :=
  match c.compileCondition q.filter source with
  | .ok _ => c.conditionEvents q.filter source ++ c.orderEvents q.sort source
  | .error _ => []

end ListQuery

end RecordQuery
