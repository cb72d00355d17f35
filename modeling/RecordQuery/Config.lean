import RecordQuery.Pagination

/-!
# Configuration

The limits that an application puts on requests, the page size of requests that name none, and the
dialect of its database.
-/
namespace RecordQuery

/-- The settings of a compiler. -/
structure Config where
  /-- The most filter tokens of a request. -/
  maxFilterParams : Option Nat := none
  /-- The most sort tokens of a request. -/
  maxSortParams : Option Nat := none
  /-- The most characters of a filter value. -/
  maxValueLength : Nat := 10000
  defaultPageSize : UInt64 := Pagination.defaultSize
  dialect : Option Dialect := none
  deriving DecidableEq, Repr, Inhabited

end RecordQuery
