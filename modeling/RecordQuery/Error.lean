import RecordQuery.NameSet

/-!
# Errors

Everything that can go wrong between a request and a query. Each error carries the token or field
that it is about, as the request wrote it, so that a client can correct the request from the
message alone. A request is at fault in all of them but one: a missing or unknown dialect is a
fault of the configuration.

1. `QueryError.status_eq_500_iff`: only a dialect error is a server error.
-/
namespace RecordQuery

/-- The list parameter that a token belongs to. -/
inductive ParamKind where
  | filter
  | sort
  deriving DecidableEq, Repr

def ParamKind.name : ParamKind → String
  | .filter => "filter"
  | .sort => "sort"

/-- A raw value that is not of the type it should have. -/
structure CoercionError where
  raw : String
  /-- The name of the wanted type. -/
  target : String
  cause : String
  deriving DecidableEq, Repr

def CoercionError.message (e : CoercionError) : String :=
  "cannot convert `" ++ e.raw ++ "` to " ++ e.target ++ ": " ++ e.cause

/-- Why list parameters cannot be made into a query. -/
inductive QueryError where
  /-- The token has the wrong number of parts, or its field is not a path. -/
  | malformedToken (kind : ParamKind) (token reason : String)
  /-- The fields of the request that are neither declared nor allowed, all of them. -/
  | disallowedFields (kind : ParamKind) (fields : NameSet)
  | unknownOperator (token operator : String)
  | invalidIsLiteral (token literal : String)
  | coercion (token : String) (source : CoercionError)
  /-- A function on a field that does not have it, or under an operator that means nothing for
  it. -/
  | unsupportedFunction (token function field fieldType : String)
  /-- A path that cannot be walked or used. -/
  | resolution (token field fieldType cause : String)
  | invalidDirection (token direction : String)
  | tooManyParams (kind : ParamKind) (count limit : Nat)
  | valueTooLong (field : String) (limit : Nat)
  | invalidPageSize (size : Int64)
  /-- The page's first row, or its size, is beyond a signed 64-bit integer. -/
  | invalidPage (page size : UInt64)
  | unsupportedDialect (dialect : String)
  deriving DecidableEq

namespace QueryError

def message : QueryError → String
  | malformedToken kind token reason =>
    "malformed " ++ kind.name ++ " token `" ++ token ++ "`: " ++ reason
  | disallowedFields kind fields =>
    "disallowed " ++ kind.name ++ " fields: " ++ ", ".intercalate fields.names
  | unknownOperator token operator =>
    "unknown operator `" ++ operator ++ "` in filter token `" ++ token ++ "`"
  | invalidIsLiteral token literal =>
    "invalid IS value `" ++ literal ++ "` in filter token `" ++ token
      ++ "`, expected one of true, false, null, not_null"
  | coercion token source => "invalid value in filter token `" ++ token ++ "`: " ++ source.message
  | unsupportedFunction token function field fieldType =>
    "`" ++ function ++ "()` in token `" ++ token ++ "` is not supported on field `" ++ field
      ++ "` of type " ++ fieldType
  | resolution token field fieldType cause =>
    "cannot resolve field `" ++ field ++ "` of type " ++ fieldType ++ " in token `" ++ token
      ++ "`: " ++ cause
  | invalidDirection token direction =>
    "invalid sort direction `" ++ direction ++ "` in sort token `" ++ token
      ++ "`, expected asc or desc"
  | tooManyParams kind count limit =>
    "too many " ++ kind.name ++ " parameters: " ++ toString count ++ ", at most "
      ++ toString limit ++ " allowed"
  | valueTooLong field limit =>
    "value for filter field `" ++ field ++ "` is longer than " ++ toString limit ++ " characters"
  | invalidPageSize size =>
    "invalid page size " ++ toString size.toInt ++ ", expected a positive size or -1 for unpaged"
  | invalidPage page size =>
    "page " ++ toString page.toNat ++ " of size " ++ toString size.toNat ++ " is out of range"
  | unsupportedDialect dialect => "unsupported pagination dialect `" ++ dialect ++ "`"

/-- The status of the response to the request. -/
def status : QueryError → Nat
  | unsupportedDialect _ => 500
  | _ => 400

/-- Whether the configuration is at fault, and not the request. -/
def isConfigurationError (e : QueryError) : Bool := 500 ≤ e.status

/-- The field names of an error that concerns a set of fields. -/
def details? : QueryError → Option (List String)
  | disallowedFields _ fields => some fields.names
  | _ => none

/-- The error that explains another. -/
def source? : QueryError → Option CoercionError
  | coercion _ source => some source
  | _ => none

/-- Only a dialect error is a server error. -/
theorem status_eq_500_iff {e : QueryError} : e.status = 500 ↔ ∃ d, e = .unsupportedDialect d := by
  cases e <;> simp [status]

theorem isConfigurationError_iff {e : QueryError} :
    e.isConfigurationError = true ↔ ∃ d, e = .unsupportedDialect d := by
  cases e <;> simp [isConfigurationError, status]

end QueryError

end RecordQuery
