import RecordQuery.Error
import RecordQuery.Text

/-!
# Dialects

The dialects of databases, by the text with which each selects a window of rows.

1. `Dialect.parse_name`: every name is read back, except that of the dialect without a window.
2. `Dialect.window_ok_iff`: only that dialect cannot write a window.
-/
namespace RecordQuery

/-- A family of databases. -/
inductive Dialect where
  | postgres
  | mySql
  | mariaDb
  | sqlite
  | h2
  | oracle
  | sqlServer
  | db2
  /-- Any database whose window syntax is not known. -/
  | other
  deriving DecidableEq, Repr

namespace Dialect

def name : Dialect → String
  | .postgres => "postgres"
  | .mySql => "mysql"
  | .mariaDb => "mariadb"
  | .sqlite => "sqlite"
  | .h2 => "h2"
  | .oracle => "oracle"
  | .sqlServer => "sql_server"
  | .db2 => "db2"
  | .other => "other"

/-- Read a name in any case; some dialects have further names. -/
def parse (raw : String) : Except QueryError Dialect :=
  match Text.lowerAscii raw with
  | "postgres" => .ok .postgres
  | "postgresql" => .ok .postgres
  | "mysql" => .ok .mySql
  | "mariadb" => .ok .mariaDb
  | "sqlite" => .ok .sqlite
  | "h2" => .ok .h2
  | "oracle" => .ok .oracle
  | "sql_server" => .ok .sqlServer
  | "sqlserver" => .ok .sqlServer
  | "mssql" => .ok .sqlServer
  | "db2" => .ok .db2
  | _ => .error (.unsupportedDialect raw)

/-- The text that selects `limit` rows after the first `offset`. -/
def window (d : Dialect) (offset limit : UInt64) : Except QueryError String :=
  let offset := toString offset.toNat
  let limit := toString limit.toNat
  match d with
  | .postgres | .mySql | .mariaDb | .sqlite | .h2 => .ok ("LIMIT " ++ limit ++ " OFFSET " ++ offset)
  | .oracle | .sqlServer =>
    .ok ("OFFSET " ++ offset ++ " ROWS FETCH NEXT " ++ limit ++ " ROWS ONLY")
  | .db2 =>
    .ok ("OFFSET " ++ offset ++ " ROWS FETCH FIRST " ++ limit ++ " ROWS ONLY")
  | .other => .error (.unsupportedDialect d.name)

/-- Every name is read back, except that of the dialect without a window. -/
theorem parse_name (d : Dialect) (h : d ≠ .other) : parse d.name = .ok d := by
  cases d with
  | other => exact absurd rfl h
  | _ => rfl

/-- Only the dialect without a window syntax cannot write one. -/
theorem window_ok_iff {d : Dialect} {offset limit : UInt64} :
    (∃ s, d.window offset limit = .ok s) ↔ d ≠ .other := by
  cases d <;> simp [window]

end Dialect

end RecordQuery
