import RecordQuery.Clause
import RecordQuery.Select

/-!
# List queries

A whole list request: which records, in which order, which page of them. It is written as text with
the values beside it, or put on a select of the records' columns.

1. `ListQuery.windowSql_of_isUnpaged`: a request for every row needs no dialect.
-/
namespace RecordQuery

/-- Conditions, order and page of a list. -/
structure ListQuery where
  filter : FilterSpec
  sort : SortSpec
  pagination : Pagination
  deriving DecidableEq, Inhabited

namespace ListQuery

/-- The text of the page's window. Every row needs none; a page needs a dialect. -/
def windowSql (q : ListQuery) (c : Compiler) : Except QueryError String :=
  if q.pagination.isUnpaged then .ok ""
  else match c.config.dialect with
    | none => .error (.unsupportedDialect "none configured")
    | some dialect => q.pagination.sql dialect

/-- The conditions, the order and the window as one clause. -/
def toSql (q : ListQuery) (c : Compiler) (qualifier : String) : Except QueryError Clause := do
  let filter ← c.compileText q.filter qualifier
  let order ← c.compileSortText q.sort qualifier
  let window ← q.windowSql c
  return (filter.join ⟨order, []⟩).join ⟨window, []⟩

/-- A select with the conditions, the order and the window added to what it asks for already. -/
def apply (q : ListQuery) (c : Compiler) (source : Source) (select : Select) :
    Except QueryError Select := do
  let condition ← c.compileCondition q.filter source
  let order ← c.compileOrder q.sort source
  let window ← q.pagination.window?
  return ((select.filter condition).orderBy order).page window

/-- A request for every row needs no dialect. -/
theorem windowSql_of_isUnpaged {q : ListQuery} (h : q.pagination.isUnpaged = true) (c : Compiler) :
    q.windowSql c = .ok "" := by
  simp [windowSql, h]

end ListQuery

end RecordQuery
