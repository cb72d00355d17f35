import RecordQuery.ListParams
import RecordQuery.PageResult

/-!
# Responses

What a client is answered: a page, or the error in its request. A client is told what is wrong with
its parameters, but not what is wrong with the configuration.

1. `QueryError.response_of_isConfigurationError`: the answers to all configuration errors are the
   same.
-/
namespace RecordQuery

/-- An answer to a request. -/
structure Response where
  status : Nat
  contentType : String
  body : String
  deriving DecidableEq, Repr

namespace Response

def json (status : Nat) (body : Json) : Response := ⟨status, "application/json", body.compact⟩

def plain (status : Nat) (body : String) : Response := ⟨status, "text/plain; charset=utf-8", body⟩

end Response

namespace QueryError

/-- What a client is told about an error. -/
def publicMessage (e : QueryError) : String :=
  if e.isConfigurationError then "Query could not be built" else e.message

/-- The answer to a request that is no query. -/
def response (e : QueryError) : Response :=
  .json e.status <| .object <|
    ("error", .text e.publicMessage) ::
      match e.details? with
      | some fields => [("details", .array (fields.map .text))]
      | none => []

/-- The answers to all configuration errors are the same. -/
theorem response_of_isConfigurationError {e f : QueryError} (he : e.isConfigurationError = true)
    (hf : f.isConfigurationError = true) : e.response = f.response := by
  obtain ⟨_, rfl⟩ := isConfigurationError_iff.1 he
  obtain ⟨_, rfl⟩ := isConfigurationError_iff.1 hf
  rfl

end QueryError

namespace QueryStringFault

def status (_ : QueryStringFault) : Nat := 400

def response (fault : QueryStringFault) : Response := .plain fault.status fault.message

end QueryStringFault

namespace PageResult

def response (r : PageResult Json) : Response := .json 200 r.toJson

end PageResult

end RecordQuery
