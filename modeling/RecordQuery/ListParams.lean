import RecordQuery.Config
import RecordQuery.FormData
import RecordQuery.Json.Reader
import RecordQuery.ListQuery
import RecordQuery.Numeral.Integer

/-!
# List parameters

The parameters of a list request as they arrive, in the query of a URL or as JSON: tokens separated
by commas, a page index and a page size. Parameters of other names do not matter.

1. `ListParams.tokens_intercalate`: tokens without commas come back from their joined text.
2. `ListParams.toQuery`: what the parameters ask for, or the first of them that is wrong.
-/
namespace RecordQuery

/-- A parameter of a list request. -/
inductive ListParam where
  | filter
  | sort
  | page
  | size
  deriving DecidableEq, Repr

namespace ListParam

def name : ListParam → String
  | .filter => ParamKind.filter.name
  | .sort => ParamKind.sort.name
  | .page => "page"
  | .size => "size"

def all : List ListParam := [.filter, .sort, .page, .size]

def ofName? (name : String) : Option ListParam := all.find? fun p => p.name == name

end ListParam

/-- The parameters of a list request. -/
structure ListParams where
  filter : List String := []
  sort : List String := []
  page : Option UInt64 := none
  size : Option Int64 := none
  deriving DecidableEq, Repr, Inhabited

/-- Why the query of a URL has no list parameters. -/
inductive QueryStringFault where
  | duplicate (param : ListParam)
  | notInteger (param : ListParam) (fault : Numeral.IntegerFault)
  deriving DecidableEq, Repr

def QueryStringFault.message (fault : QueryStringFault) : String :=
  "Failed to deserialize query string: " ++ match fault with
    | .duplicate param => "duplicate field `" ++ param.name ++ "`"
    | .notInteger param fault => param.name ++ ": " ++ fault.message

namespace ListParams

/-- The tokens of a parameter; the empty text has none. -/
def tokens (text : String) : List String := if text = "" then [] else Text.pieces ',' text

/-! ## From the query of a URL -/

/-- The parameters with one of them read from a text. -/
def set (p : ListParams) (param : ListParam) (value : String) :
    Except QueryStringFault ListParams :=
  match param with
  | .filter => .ok { p with filter := tokens value }
  | .sort => .ok { p with sort := tokens value }
  | .page =>
    match Numeral.readUInt64 value with
    | .ok page => .ok { p with page := some page }
    | .error fault => .error (.notInteger .page fault)
  | .size =>
    match Numeral.readInt64 value with
    | .ok size => .ok { p with size := some size }
    | .error fault => .error (.notInteger .size fault)

/-- Read pairs in order, after the parameters in `seen` have been read. -/
def readPairs (p : ListParams) (seen : List ListParam) :
    List (String × String) → Except QueryStringFault ListParams
  | [] => .ok p
  | (name, value) :: rest =>
    match ListParam.ofName? name with
    | none => readPairs p seen rest
    | some param =>
      if param ∈ seen then .error (.duplicate param)
      else match p.set param value with
        | .error fault => .error fault
        | .ok p => readPairs p (param :: seen) rest

/-- The parameters in the query of a URL. -/
def ofQueryString (query : String) : Except QueryStringFault ListParams :=
  readPairs {} [] (FormData.parse query)

/-! ## From JSON -/

/-- The parameters with one of them read from a JSON value. -/
def setJson (p : ListParams) (param : ListParam) (value : Json) : Except JsonFault ListParams :=
  match param with
  | .filter => value.readText.map fun text => { p with filter := tokens text }
  | .sort => value.readText.map fun text => { p with sort := tokens text }
  | .page => (value.readOptional (Json.readUInt64 "u64")).map fun page => { p with page := page }
  | .size => (value.readOptional (Json.readInt64 "i64")).map fun size => { p with size := size }

/-- The parameters with a member of an object read into them. -/
def setMember (p : ListParams) (member : String × Json) : Except JsonFault ListParams :=
  match ListParam.ofName? member.1 with
  | none => .ok p
  | some param => p.setJson param member.2

/-- An array holds page and size, since only tokens may be left out of it. -/
def checkItems (items : List Json) : Except JsonFault Unit :=
  if items.length < 4 then
    .error (.wrongLength (max items.length 2) "struct ListParams with 4 elements")
  else Json.noFurther items 4

/-- The parameters in a JSON value. -/
def ofJson : Json → Except JsonFault ListParams
  | .object members => members.foldlM setMember {}
  | .array items =>
    ((ListParam.all.zip items).foldlM (fun (p : ListParams) q => p.setJson q.1 q.2) {}).bind
      fun p => (checkItems items).map fun () => p
  | other => .error (.wrongKind other "struct ListParams")

/-! ## To a query -/

/-- What the parameters ask for. The filter is read first, then the sort, then the page. -/
def toQuery (p : ListParams) (c : Config) : Except QueryError ListQuery := do
  let filter ← FilterSpec.parse p.filter
  let sort ← SortSpec.parse p.sort
  let pagination ← Pagination.ofRequest p.page p.size c.defaultPageSize
  return ⟨filter, sort, pagination⟩

/-- Tokens without commas come back from their joined text, unless all that is joined is one empty
token. -/
theorem tokens_intercalate {texts : List String} (h : ∀ t ∈ texts, ',' ∉ t.toList)
    (hne : texts ≠ [""]) : tokens ((String.singleton ',').intercalate texts) = texts := by
  cases texts with
  | nil => rfl
  | cons t ts =>
    unfold tokens
    rw [if_neg, Text.pieces_intercalate h]
    intro he
    -- Only a single empty token is joined to the empty text.
    have hp := Text.pieces_intercalate h
    rw [he] at hp
    exact hne (hp ▸ rfl)

end ListParams

end RecordQuery
