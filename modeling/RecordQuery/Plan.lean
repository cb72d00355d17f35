import RecordQuery.Access
import RecordQuery.Coercion
import RecordQuery.Collect
import RecordQuery.Config
import RecordQuery.Spec

/-!
# Plans

What a spec asks for, before it is written in any form: for every token the columns of its field,
the field's type, and the typed right-hand side. Both backends write plans, so they accept the same
tokens, bind the same values and report the same errors.

The checks run in a fixed order. The number of tokens comes first, then the length of the values,
then the permission of the fields; each of these looks at the whole spec. Then every token is
planned by itself, in order: its path is walked, its function is checked, its value is read.

1. `admitFilters_ok_iff`, `admitSorts_ok_iff`: the checks of a whole spec, and what passes them.
2. `length_planFilters`, `length_planSorts`: a plan has one entry for each token.
-/
namespace RecordQuery

/-- Compiles specs against one shape. -/
structure Compiler where
  shape : Shape
  config : Config := {}

/-- A permitted field with its columns and its type. -/
structure PlannedField where
  /-- The token that names the field, as written. -/
  token : String
  path : FieldPath
  /-- The storage name of every segment. -/
  columns : List String
  /-- The declared type; `none` for a field that is only allowed by name. -/
  type : Option FieldType

/-- The typed right-hand side of a condition. -/
inductive Operand where
  | compare (comparison : Comparison) (value : Value)
  | isIn (values : List Value)
  /-- The raw text to search for. -/
  | like (raw : String)
  | is (literal : IsLiteral)
  deriving DecidableEq

/-- A condition on a field. -/
structure PlannedFilter where
  field : PlannedField
  operand : Operand

/-- A term of an order. -/
structure PlannedSort where
  field : PlannedField
  direction : Direction

namespace PlannedField

def function (f : PlannedField) : Option FieldFunction := f.path.function

/-- The columns with points between them. -/
def dotted (f : PlannedField) : String := ".".intercalate f.columns

/-- The type as errors name it. -/
def typeName (f : PlannedField) : String := (f.type.map FieldType.name).getD "untyped"

/-- Whether a comparison is with the elements of a list. -/
def isMembership (f : PlannedField) : Bool :=
  f.function.isNone && (f.type.map FieldType.isList).getD false

/-- The field of a declared root, given where the walk below it arrived. A related record is not a
field by itself, except for a function. -/
def ofWalk (token : String) (r : ResolvedPath) (field : Field)
    (walked : Except WalkFault ResolvedField) : Except QueryError PlannedField :=
  match walked with
  | .error fault => .error (.resolution token r.path.display field.type.name fault.message)
  | .ok arrival =>
    if arrival.type.isRelation && r.path.function.isNone then
      .error (.resolution token r.path.display arrival.type.name
        "a related record must be followed by one of its fields")
    else .ok ⟨token, r.path, r.root :: arrival.storage, some arrival.type⟩

/-- The field of a root that is only allowed by name: the segments as the request wrote them. -/
def untyped (token : String) (r : ResolvedPath) : PlannedField :=
  ⟨token, r.path, r.root :: r.path.nested, none⟩

/-- The field of a permitted path. -/
def ofPath (token : String) (r : ResolvedPath) : Except QueryError PlannedField :=
  match r.field with
  | none => .ok (untyped token r)
  | some field => ofWalk token r field (field.walk r.path.nested)

/-- Whether a field of the type has the function: a text has a length, a list has a size, and of a
field without a declared type nothing is known. -/
def typeHas (function : FieldFunction) : Option FieldType → Bool
  | none => true
  | some type =>
    match function with
    | .length => type.isText
    | .size => type.isList

/-- Whether a number can stand on the other side of the operator. -/
def takesNumber (operator : Operator) : Bool :=
  operator.comparison?.isSome || operator == .isIn

/-- A function needs a type that has it and, in a condition, an operator that compares. -/
def checkFunction (f : PlannedField) (operator : Option Operator) : Except QueryError Unit :=
  match f.function with
  | none => .ok ()
  | some function =>
    if typeHas function f.type && (operator.map takesNumber).getD true then .ok ()
    else .error (.unsupportedFunction f.token function.name f.path.dotted f.typeName)

/-- The type that raw values are read as: the count that a function gives, or the declared type. -/
def valueType (f : PlannedField) : Option FieldType :=
  if f.function.isSome then some .int64 else f.type

/-- Read a raw value; a field without a type is compared as text. -/
def value (f : PlannedField) (raw : String) : Except QueryError Value :=
  match f.valueType with
  | none => .ok (.text raw)
  | some type =>
    match type.coerce raw with
    | .ok v => .ok v
    | .error e => .error (.coercion f.token e)

/-- Whether `like` applies to a type: to text, restricted or not. -/
def takesLike : Option FieldType → Bool
  | none | some .text | some (.enum _) => true
  | some _ => false

/-- Whether a literal applies to a type: truth values are only compared with truth values. -/
def takesLiteral (literal : IsLiteral) : Option FieldType → Bool
  | none => true
  | some type => !literal.isBoolean || type.isBool

/-- The typed right-hand side of a condition on the field. -/
def operand (f : PlannedField) (operator : Operator) (raw : String) : Except QueryError Operand :=
  match operator with
  | .compare c => (f.value raw).map (.compare c)
  | .isIn => (collect f.value (Text.pieces ';' raw)).map .isIn
  | .like =>
    if takesLike f.type then .ok (.like raw)
    else .error (.coercion f.token ⟨raw, f.typeName, "like needs a text field"⟩)
  | .is =>
    match IsLiteral.parse raw with
    | none => .error (.invalidIsLiteral f.token raw)
    | some literal =>
      if takesLiteral literal f.type then .ok (.is literal)
      else .error (.coercion f.token ⟨raw, f.typeName, "is true/false needs a bool field"⟩)

/-- The condition of a token on its field. -/
def filter (f : PlannedField) (t : FilterToken) : Except QueryError PlannedFilter :=
  match f.checkFunction (some t.operator) with
  | .error e => .error e
  | .ok () => (f.operand t.operator t.value).map fun operand => ⟨f, operand⟩

def sort (f : PlannedField) (t : SortToken) : Except QueryError PlannedSort :=
  (f.checkFunction none).map fun () => ⟨f, t.direction⟩

end PlannedField

namespace Compiler

/-- A spec has no more tokens than the limit. -/
def checkCount (kind : ParamKind) (count : Nat) (limit : Option Nat) : Except QueryError Unit :=
  match limit with
  | none => .ok ()
  | some limit => if limit < count then .error (.tooManyParams kind count limit) else .ok ()

/-- No value has more characters than the limit; the first that has is reported. -/
def checkLengths (limit : Nat) (tokens : List FilterToken) : Except QueryError Unit :=
  match tokens.find? fun t => limit < t.value.length with
  | some t => .error (.valueTooLong t.path.display limit)
  | none => .ok ()

/-- The filter tokens with their resolved paths, after the checks of the whole spec. -/
def admitFilters (c : Compiler) (spec : FilterSpec) :
    Except QueryError (List (FilterToken × ResolvedPath)) := do
  checkCount .filter spec.size c.config.maxFilterParams
  checkLengths c.config.maxValueLength spec.tokens
  let places ← Access.resolve .filter c.shape.fields spec.allowed (spec.tokens.map (·.path))
  return spec.tokens.zip places

/-- The sort tokens with their resolved paths, after the checks of the whole spec. -/
def admitSorts (c : Compiler) (spec : SortSpec) :
    Except QueryError (List (SortToken × ResolvedPath)) := do
  checkCount .sort spec.size c.config.maxSortParams
  let places ← Access.resolve .sort c.shape.fields spec.allowed (spec.tokens.map (·.path))
  return spec.tokens.zip places

def planFilter (t : FilterToken) (r : ResolvedPath) : Except QueryError PlannedFilter :=
  (PlannedField.ofPath t.raw r).bind fun field => field.filter t

def planSort (t : SortToken) (r : ResolvedPath) : Except QueryError PlannedSort :=
  (PlannedField.ofPath t.raw r).bind fun field => field.sort t

/-- The conditions of a spec, one for each token, in order. -/
def planFilters (c : Compiler) (spec : FilterSpec) : Except QueryError (List PlannedFilter) :=
  (c.admitFilters spec).bind (collect fun p => planFilter p.1 p.2)

/-- The order terms of a spec, one for each token, in order. -/
def planSorts (c : Compiler) (spec : SortSpec) : Except QueryError (List PlannedSort) :=
  (c.admitSorts spec).bind (collect fun p => planSort p.1 p.2)

/-- Each token is paired with the place of its own path. -/
theorem zip_locate {τ : Type} (fields : List Field) (path : τ → FieldPath) (tokens : List τ) :
    tokens.zip ((tokens.map path).map (Access.locate fields)) =
      tokens.map fun t => (t, Access.locate fields (path t)) := by
  rw [List.map_map]
  induction tokens with
  | nil => rfl
  | cons t rest ih => simp [ih]

/-- The checks of a whole filter spec, in their order, and what they let through. -/
theorem admitFilters_ok_iff {c : Compiler} {spec : FilterSpec}
    {pairs : List (FilterToken × ResolvedPath)} :
    c.admitFilters spec = .ok pairs ↔
      checkCount .filter spec.size c.config.maxFilterParams = .ok () ∧
      checkLengths c.config.maxValueLength spec.tokens = .ok () ∧
      Access.check .filter c.shape.fields spec.allowed (spec.tokens.map (·.path)) = .ok () ∧
      pairs = spec.tokens.map fun t => (t, Access.locate c.shape.fields t.path) := by
  unfold admitFilters
  simp only [bind, Except.bind, pure, Except.pure, Access.resolve_eq]
  split
  · simp_all
  · split
    · simp_all
    · cases Access.check .filter c.shape.fields spec.allowed (spec.tokens.map (·.path)) with
      | error e => simp [Except.map]
      | ok u =>
      simp only [Except.map, zip_locate]
      simp_all [eq_comm]

theorem admitSorts_ok_iff {c : Compiler} {spec : SortSpec}
    {pairs : List (SortToken × ResolvedPath)} :
    c.admitSorts spec = .ok pairs ↔
      checkCount .sort spec.size c.config.maxSortParams = .ok () ∧
      Access.check .sort c.shape.fields spec.allowed (spec.tokens.map (·.path)) = .ok () ∧
      pairs = spec.tokens.map fun t => (t, Access.locate c.shape.fields t.path) := by
  unfold admitSorts
  simp only [bind, Except.bind, pure, Except.pure, Access.resolve_eq]
  split
  · simp_all
  · cases Access.check .sort c.shape.fields spec.allowed (spec.tokens.map (·.path)) with
    | error e => simp [Except.map]
    | ok u =>
      simp only [Except.map, zip_locate]
      simp_all [eq_comm]

theorem length_planFilters {c : Compiler} {spec : FilterSpec} {plan : List PlannedFilter}
    (h : c.planFilters spec = .ok plan) : plan.length = spec.size := by
  unfold planFilters at h
  cases ha : c.admitFilters spec with
  | error e =>
    rw [ha] at h
    cases h
  | ok pairs =>
    rw [ha] at h
    rw [length_of_collect h, (admitFilters_ok_iff.1 ha).2.2.2, List.length_map]
    rfl

theorem length_planSorts {c : Compiler} {spec : SortSpec} {plan : List PlannedSort}
    (h : c.planSorts spec = .ok plan) : plan.length = spec.size := by
  unfold planSorts at h
  cases ha : c.admitSorts spec with
  | error e =>
    rw [ha] at h
    cases h
  | ok pairs =>
    rw [ha] at h
    rw [length_of_collect h, (admitSorts_ok_iff.1 ha).2.2, List.length_map]
    rfl

end Compiler

end RecordQuery
