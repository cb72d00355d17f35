import RecordQuery.Config

/-!
# Databases

The databases that queries are written for. Each speaks a dialect with a window, so a compiler that
is set up for a database can write every page.

1. `Database.window_dialect`: the dialect of a database writes every window.
-/
namespace RecordQuery

/-- A database that queries are written for. -/
inductive Database where
  | postgres
  | mySql
  | sqlite
  deriving DecidableEq, Repr

namespace Database

def dialect : Database → Dialect
  | .postgres => .postgres
  | .mySql => .mySql
  | .sqlite => .sqlite

/-- The standard settings, with the dialect of the database. -/
def config (db : Database) : Config := { dialect := some db.dialect }

theorem window_dialect (db : Database) (offset limit : UInt64) :
    ∃ s, db.dialect.window offset limit = .ok s := by
  refine Dialect.window_ok_iff.mpr ?_
  cases db <;> decide

end Database

end RecordQuery
