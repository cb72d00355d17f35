/-!
# Record shapes

The declared fields of a record type: their types, the names they have in storage, and the fields
of the records they relate to. A field answers to its declared name and to its storage alias. A
path below a field is walked one segment at a time, through relations and lists of relations only.

1. `walkFrom_append`: a walk along two paths in a row is the first walk followed by the second.
2. `length_storage`: a walk gives one storage name for each segment.
-/
namespace RecordQuery

mutual

/-- The declared type of a field. A type is a finite tree, with each table of fields inside the
relation that has it: tables that lead back to themselves are left out, and so are tables that share
a part. -/
inductive FieldType where
  | bool
  | int32
  | int64
  | float32
  | float64
  | text
  | uuid
  | timestamp
  /-- Text that is one of the named members. -/
  | enum (members : List String)
  /-- Several values of one type. -/
  | list (element : FieldType)
  /-- A related record with fields of its own. -/
  | relation (fields : List Field)

/-- A declared field. -/
structure Field where
  /-- The name that requests use. -/
  name : String
  type : FieldType
  /-- The name in storage, when it differs. -/
  storedAs : Option String := none
  /-- Whether the field identifies the record. -/
  identity : Bool := false
  /-- Whether the field marks the record as deleted. -/
  softDelete : Bool := false

end

namespace FieldType

def name : FieldType → String
  | .bool => "bool"
  | .int32 => "i32"
  | .int64 => "i64"
  | .float32 => "f32"
  | .float64 => "f64"
  | .text => "text"
  | .uuid => "uuid"
  | .timestamp => "timestamp"
  | .enum members => "enum(" ++ "|".intercalate members ++ ")"
  | .list element => "list<" ++ element.name ++ ">"
  | .relation _ => "relation"

/-- The type of the elements of a list. -/
def element? : FieldType → Option FieldType
  | .list element => some element
  | _ => none

/-- Whether a field of the type holds several values. -/
def isList (t : FieldType) : Bool := t.element?.isSome

def isText : FieldType → Bool
  | .text => true
  | _ => false

def isBool : FieldType → Bool
  | .bool => true
  | _ => false

def isRelation : FieldType → Bool
  | .relation _ => true
  | _ => false

/-- The fields one level below a relation or a list of relations. -/
def nestedFields? : FieldType → Option (List Field)
  | .relation fields => some fields
  | .list (.relation fields) => some fields
  | _ => none

end FieldType

/-- Where a walk below a field arrives. -/
structure ResolvedField where
  /-- The type of the last segment. -/
  type : FieldType
  /-- The storage name of every segment, in order. -/
  storage : List String

/-- Why a path cannot be walked. -/
inductive WalkFault where
  /-- The owner has no fields below it. -/
  | notNavigable (owner : String) (type : FieldType) (segment : String)
  /-- None of the owner's fields answers to the segment. -/
  | unknownField (owner segment : String)

/-- The sentence that reports a fault; the owner goes by its declared name. -/
def WalkFault.message : WalkFault → String
  | .notNavigable owner type segment =>
    "`" ++ owner ++ "` is of type " ++ type.name ++ " and has no nested field `" ++ segment ++ "`"
  | .unknownField owner segment => "`" ++ owner ++ "` has no field `" ++ segment ++ "`"

namespace Field

def storageName (f : Field) : String := f.storedAs.getD f.name

/-- Whether a segment refers to the field, by its declared name or by its storage alias. -/
def answersTo (f : Field) (segment : String) : Bool :=
  f.name == segment || f.storedAs == some segment

/-- The first field of a table that answers to a segment. -/
def lookup (fields : List Field) (segment : String) : Option Field :=
  fields.find? (·.answersTo segment)

/-- Walk along segments, starting below a type whose owner has the given name. -/
def walkFrom (owner : String) (type : FieldType) : List String → Except WalkFault ResolvedField
  | [] => .ok ⟨type, []⟩
  | segment :: rest =>
    match type.nestedFields? with
    | none => .error (.notNavigable owner type segment)
    | some fields =>
      match lookup fields segment with
      | none => .error (.unknownField owner segment)
      | some field =>
        (walkFrom field.name field.type rest).map fun r => ⟨r.type, field.storageName :: r.storage⟩

/-- Walk along segments below a field. -/
def walk (f : Field) (segments : List String) : Except WalkFault ResolvedField :=
  walkFrom f.name f.type segments

theorem walkFrom_cons (owner : String) (type : FieldType) (segment : String) (rest : List String) :
    walkFrom owner type (segment :: rest) =
      match type.nestedFields? with
      | none => .error (.notNavigable owner type segment)
      | some fields =>
        match lookup fields segment with
        | none => .error (.unknownField owner segment)
        | some field =>
          (walkFrom field.name field.type rest).map fun r =>
            ⟨r.type, field.storageName :: r.storage⟩ :=
  rfl

/-- The name that the field reached by a walk has in errors: that of the last field entered. -/
def ownerAfter (owner : String) (type : FieldType) : List String → String
  | [] => owner
  | segment :: rest =>
    match type.nestedFields?.bind (lookup · segment) with
    | none => owner
    | some field => ownerAfter field.name field.type rest

/-- A walk gives one storage name for each segment. -/
theorem length_storage {owner : String} {type : FieldType} {segments : List String}
    {r : ResolvedField} (h : walkFrom owner type segments = .ok r) :
    r.storage.length = segments.length := by
  induction segments generalizing owner type r with
  | nil =>
    cases h
    rfl
  | cons segment rest ih =>
    unfold walkFrom at h
    split at h
    · cases h
    · split at h
      · cases h
      · rename_i field _
        cases hr : walkFrom field.name field.type rest with
        | error e =>
          rw [hr] at h
          cases h
        | ok s =>
          rw [hr] at h
          cases h
          simp [ih hr]

/-- A walk along `xs ++ ys` is the walk along `xs`, and from where it arrives the walk along `ys`.
A fault of the first walk is the fault of the whole. -/
theorem walkFrom_append (owner : String) (type : FieldType) (xs ys : List String) :
    walkFrom owner type (xs ++ ys) =
      (walkFrom owner type xs).bind fun r =>
        (walkFrom (ownerAfter owner type xs) r.type ys).map fun s =>
          ⟨s.type, r.storage ++ s.storage⟩ := by
  induction xs generalizing owner type with
  | nil =>
    simp only [List.nil_append, walkFrom, Except.bind, ownerAfter]
    cases walkFrom owner type ys <;> rfl
  | cons segment rest ih =>
    rw [List.cons_append, walkFrom_cons, walkFrom_cons]
    cases hn : type.nestedFields? with
    | none => rfl
    | some fields =>
      dsimp only
      cases hf : lookup fields segment with
      | none => rfl
      | some field =>
        -- The owner after the front part is the one that a fault in the back part names.
        have ho : ownerAfter owner type (segment :: rest) =
            ownerAfter field.name field.type rest := by
          simp [ownerAfter, hn, hf]
        simp only [ih, ho]
        cases walkFrom field.name field.type rest with
        | error e => rfl
        | ok r =>
          simp only [Except.bind, Except.map]
          cases walkFrom (ownerAfter field.name field.type rest) r.type ys <;> rfl

end Field

/-- A record type: its name and its fields, of which the first that answers to a name is meant. -/
structure Shape where
  name : String
  fields : List Field

namespace Shape

def field? (shape : Shape) (name : String) : Option Field := Field.lookup shape.fields name

/-- The first field that identifies a record. -/
def identityField? (shape : Shape) : Option Field := shape.fields.find? (·.identity)

/-- The first field that marks a record as deleted. -/
def softDeleteField? (shape : Shape) : Option Field := shape.fields.find? (·.softDelete)

end Shape

end RecordQuery
