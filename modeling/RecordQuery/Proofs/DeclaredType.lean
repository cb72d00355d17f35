import RecordQuery.Proofs.StoragePath

/-!
# Declared types

The type that a shape declares for a path, said of its tables and without a walk, and the place at
which a path leaves them. Every permitted path either has one type or leaves the tables in one way.

1. `Field.Declares`: the type of segments. `Field.Stops`: why segments have none.
2. `Field.walkFrom_eq_error_iff`: a walk fails where the segments stop.
3. `Access.Typed`: the type of a permitted path, which is none when the root is allowed by name.
4. `Access.typed_of_ofPath`: plans have these types.
5. `Operator.ReadsValues`, `FieldType.HasFunction`, `FieldType.IsTextual`: what types allow.
-/
namespace RecordQuery

namespace Field

/-! ## Segments -/

/-- The type of segments: that of the field which the last of them stands for. -/
inductive Declares : List Field → List String → FieldType → Prop
  | last {fields : List Field} {segment : String} {field : Field} :
      IsFirst fields segment field → Declares fields [segment] field.type
  | step {fields inner : List Field} {segment : String} {field : Field} {rest : List String}
      {type : FieldType} :
      IsFirst fields segment field → field.type.Holds inner → Declares inner rest type →
      Declares fields (segment :: rest) type

/-- Why segments below an owner have no type. The first that does not fit decides: there is no table
to look for it in, or none of the fields in that table answers to it. -/
inductive Stops : String → FieldType → List String → WalkFault → Prop
  | notNavigable {owner segment : String} {type : FieldType} {rest : List String} :
      (∀ fields, ¬type.Holds fields) →
      Stops owner type (segment :: rest) (.notNavigable owner type segment)
  | unknownField {owner segment : String} {type : FieldType} {fields : List Field}
      {rest : List String} :
      type.Holds fields → (∀ f ∈ fields, ¬f.Answers segment) →
      Stops owner type (segment :: rest) (.unknownField owner segment)
  | deeper {owner segment : String} {type : FieldType} {fields : List Field} {field : Field}
      {rest : List String} {fault : WalkFault} :
      type.Holds fields → IsFirst fields segment field → Stops field.name field.type rest fault →
      Stops owner type (segment :: rest) fault

theorem nestedFields?_eq_none_iff {t : FieldType} :
    t.nestedFields? = none ↔ ∀ fields, ¬t.Holds fields := by
  simp only [← FieldType.nestedFields?_eq_some_iff, Option.eq_none_iff_forall_ne_some]

/-- A walk fails where the segments stop. -/
theorem walkFrom_eq_error_iff {owner : String} {type : FieldType} {segments : List String}
    {fault : WalkFault} :
    walkFrom owner type segments = .error fault ↔ Stops owner type segments fault := by
  induction segments generalizing owner type with
  | nil => exact iff_of_false nofun nofun
  | cons segment rest ih =>
    rw [walkFrom_cons]
    cases hn : type.nestedFields? with
    | none =>
      have hno := nestedFields?_eq_none_iff.1 hn
      constructor
      · intro h
        cases h
        exact .notNavigable hno
      · intro h
        cases h with
        | notNavigable _ => rfl
        | unknownField ht _ => exact absurd ht (hno _)
        | deeper ht _ _ => exact absurd ht (hno _)
    | some fields =>
      have ht := FieldType.nestedFields?_eq_some_iff.1 hn
      dsimp only
      rcases exists_isFirst_or fields segment with ⟨field, hf⟩ | hnone
      · rw [lookup_eq_some_iff.2 hf]
        -- A fault of the rest is a fault of the whole.
        have hrest : ((walkFrom field.name field.type rest).map fun r =>
            (⟨r.type, field.storageName :: r.storage⟩ : ResolvedField)) = .error fault ↔
            Stops field.name field.type rest fault := by
          rw [← ih]
          cases walkFrom field.name field.type rest <;> simp [Except.map]
        refine hrest.trans ⟨.deeper ht hf, fun h => ?_⟩
        cases h with
        | notNavigable hno => exact absurd ht (hno _)
        | unknownField ho hnone =>
          cases ht.unique ho
          exact absurd hnone hf.not_forall_not
        | deeper ho hg hs =>
          cases ht.unique ho
          cases hf.unique hg
          exact hs
      · rw [lookup_eq_none_iff.2 hnone]
        constructor
        · intro h
          cases h
          exact .unknownField ht hnone
        · intro h
          cases h with
          | notNavigable hno => exact absurd ht (hno _)
          | unknownField _ _ => rfl
          | deeper ho hf _ =>
            cases ht.unique ho
            exact absurd hnone hf.not_forall_not

/-- Where a walk below a field arrives, it has the type of the segments. -/
theorem declares_of_walk {fields : List Field} {segment : String} {field : Field}
    {rest : List String} {arrival : ResolvedField} (hf : IsFirst fields segment field)
    (h : field.walk rest = .ok arrival) : Declares fields (segment :: rest) arrival.type := by
  induction rest generalizing fields segment field arrival with
  | nil =>
    cases h
    exact .last hf
  | cons next rest ih =>
    obtain ⟨inner, below, r, ht, hb, hr, rfl⟩ := walk_cons_eq_ok_iff.1 h
    have hbelow : Declares inner (next :: rest) r.type := ih hb hr
    exact .step hf ht hbelow

/-- Segments have no type but this one. -/
theorem Declares.unique {fields : List Field} {segments : List String} {type other : FieldType}
    (h : Declares fields segments type) (ho : Declares fields segments other) : type = other := by
  induction h generalizing other with
  | last hf =>
    cases ho with
    | last hg => rw [hf.unique hg]
    | step _ _ hbelow => nomatch hbelow
  | step hf ht hbelow ih =>
    cases ho with
    | last _ => nomatch hbelow
    | step hg hu hother =>
      cases hf.unique hg
      cases ht.unique hu
      exact ih hother

/-- Segments with a type can be walked, from the field that the first of them stands for. -/
theorem Declares.exists_walk {fields : List Field} {segment : String} {rest : List String}
    {type : FieldType} (h : Declares fields (segment :: rest) type) :
    ∃ field arrival, IsFirst fields segment field ∧ field.walk rest = .ok arrival ∧
      arrival.type = type := by
  induction rest generalizing fields segment with
  | nil =>
    cases h with
    | last hf => exact ⟨_, _, hf, rfl, rfl⟩
    | step _ _ hbelow => nomatch hbelow
  | cons next rest ih =>
    cases h with
    | @step _ inner _ field _ _ hf ht hbelow =>
      obtain ⟨below, r, hb, hr, rfl⟩ := ih hbelow
      exact ⟨field, _, hf, walk_cons_eq_ok_iff.2 ⟨inner, below, r, ht, hb, hr, rfl⟩, rfl⟩

end Field

/-! ## Permitted paths -/

namespace Access

/-- The type of a path: the declared one, or none when the shape does not declare the root. -/
inductive Typed (fields : List Field) (path : FieldPath) : Option FieldType → Prop
  | declared {type : FieldType} :
      Field.Declares fields path.segments type → Typed fields path (some type)
  | untyped : (∀ f ∈ fields, ¬f.Answers path.root) → Typed fields path none

/-- A path has no type but this one. -/
theorem Typed.unique {fields : List Field} {path : FieldPath} {type other : Option FieldType}
    (h : Typed fields path type) (ho : Typed fields path other) : type = other := by
  have hnone : ∀ {type}, Field.Declares fields path.segments type →
      ¬∀ f ∈ fields, ¬f.Answers path.root := by
    intro type hd hn
    obtain ⟨_, _, hf, _, _⟩ := hd.exists_walk
    exact hf.not_forall_not hn
  cases h with
  | declared hd =>
    cases ho with
    | declared hu => rw [hd.unique hu]
    | untyped hn => exact absurd hn (hnone hd)
  | untyped hn =>
    cases ho with
    | declared hu => exact absurd hn (hnone hu)
    | untyped _ => rfl

/-- A planned field has the type of its path. -/
theorem typed_of_ofPath {fields : List Field} {path : FieldPath} {token : String}
    {f : PlannedField} (h : PlannedField.ofPath token (locate fields path) = .ok f) :
    Typed fields path f.type := by
  rcases ofPath_locate_eq_ok h with ⟨hn, rfl⟩ | ⟨field, arrival, hf, hw, _, rfl⟩
  · exact .untyped hn
  · exact .declared (Field.declares_of_walk hf hw)

end Access

namespace Compiler

variable {c : Compiler} {allowed : NameSet}

theorem PlansField.typed {path : FieldPath} {f : PlannedField} (h : c.PlansField allowed path f) :
    Access.Typed c.shape.fields path f.type := by
  obtain ⟨_, hf⟩ := h.planned
  exact Access.typed_of_ofPath hf

end Compiler

/-! ## What types allow -/

/-- An operator whose right-hand side is read as values. -/
inductive Operator.ReadsValues : Operator → Prop
  | compare (c : Comparison) : ReadsValues (.compare c)
  | isIn : ReadsValues .isIn

namespace FieldType

/-- A text has a length, and a list has a size. -/
inductive HasFunction : FieldType → FieldFunction → Prop
  | length : HasFunction .text .length
  | size (element : FieldType) : HasFunction (.list element) .size

/-- Text, restricted or not. -/
inductive IsTextual : FieldType → Prop
  | text : IsTextual .text
  | enum (members : List String) : IsTextual (.enum members)

theorem isList_iff {type : FieldType} : type.isList = true ↔ ∃ element, type = .list element := by
  cases type <;> simp [isList, element?]

theorem isRelation_iff {type : FieldType} :
    type.isRelation = true ↔ ∃ fields, type = .relation fields := by
  cases type <;> simp [isRelation]

theorem isBool_iff {type : FieldType} : type.isBool = true ↔ type = .bool := by
  cases type <;> simp [isBool]

end FieldType

/-- The type that the values for a path are read as: beside a function a number, else the type of the
path. -/
inductive FieldPath.ReadsAs (path : FieldPath) (type : Option FieldType) : FieldType → Prop
  | counted {function : FieldFunction} : path.function = some function → ReadsAs path type .int64
  | declared {t : FieldType} : path.function = none → type = some t → ReadsAs path type t

namespace PlannedField

theorem valueType_eq_some_iff {f : PlannedField} {target : FieldType} :
    f.valueType = some target ↔ f.path.ReadsAs f.type target := by
  unfold valueType PlannedField.function
  constructor
  · intro h
    split at h
    · rename_i hf
      obtain ⟨function, hf⟩ := Option.isSome_iff_exists.1 hf
      cases h
      exact .counted hf
    · rename_i hf
      exact .declared (Option.not_isSome_iff_eq_none.1 hf) h
  · intro h
    cases h with
    | counted hf => rw [hf]; rfl
    | declared hf ht => rw [hf]; exact ht

/-- A value is read as the type that there is for it, and as text where there is none. -/
theorem value_eq_ok_iff {f : PlannedField} {raw : String} {v : Value} :
    f.value raw = .ok v ↔
      (∃ target, f.path.ReadsAs f.type target ∧ target.coerce raw = .ok v) ∨
      f.path.function = none ∧ f.type = none ∧ v = .text raw := by
  simp only [← valueType_eq_some_iff]
  unfold value
  split
  · rename_i hn
    have hboth : f.path.function = none ∧ f.type = none := by
      unfold valueType PlannedField.function at hn
      split at hn
      · cases hn
      · rename_i hf
        exact ⟨Option.not_isSome_iff_eq_none.1 hf, hn⟩
    simp [hn, hboth, eq_comm]
  · rename_i target ht
    have hboth : ¬(f.path.function = none ∧ f.type = none ∧ v = .text raw) := by
      rintro ⟨hf, hn, _⟩
      unfold valueType PlannedField.function at ht
      rw [hf, hn] at ht
      cases ht
    simp only [ht, Option.some.injEq, exists_eq_left', hboth, or_false]
    cases target.coerce raw <;> simp

theorem value_eq_error_iff {f : PlannedField} {raw : String} {e : QueryError} :
    f.value raw = .error e ↔ ∃ target cause, f.path.ReadsAs f.type target ∧
      target.coerce raw = .error cause ∧ e = .coercion f.token cause := by
  simp only [← valueType_eq_some_iff]
  unfold value
  split
  · rename_i hn
    simp [hn]
  · rename_i target ht
    simp only [ht, Option.some.injEq, exists_and_left, exists_eq_left']
    cases target.coerce raw <;> simp [eq_comm]

theorem takesNumber_iff {operator : Operator} :
    takesNumber operator = true ↔ operator.ReadsValues := by
  cases operator with
  | compare c => exact iff_of_true rfl (.compare c)
  | isIn => exact iff_of_true rfl .isIn
  | like => exact iff_of_false (by decide) nofun
  | is => exact iff_of_false (by decide) nofun

theorem typeHas_iff {function : FieldFunction} {type : Option FieldType} :
    typeHas function type = true ↔ ∀ t, type = some t → t.HasFunction function := by
  cases type with
  | none => exact iff_of_true rfl nofun
  | some t =>
    simp only [Option.some.injEq, forall_eq']
    cases function with
    | length => cases t <;> first | exact iff_of_true rfl .length | exact iff_of_false nofun nofun
    | size => cases t <;> first | exact iff_of_true rfl (.size _) | exact iff_of_false nofun nofun

theorem takesLike_iff {type : Option FieldType} :
    takesLike type = true ↔ ∀ t, type = some t → t.IsTextual := by
  cases type with
  | none => exact iff_of_true rfl nofun
  | some t =>
    simp only [Option.some.injEq, forall_eq']
    cases t <;> first
      | exact iff_of_true rfl .text
      | exact iff_of_true rfl (.enum _)
      | exact iff_of_false nofun nofun

theorem takesLiteral_iff {literal : IsLiteral} {type : Option FieldType} :
    takesLiteral literal type = true ↔
      (literal.isBoolean = true → ∀ t, type = some t → t = .bool) := by
  cases type with
  | none => exact iff_of_true rfl nofun
  | some t => cases literal <;> simp [takesLiteral, IsLiteral.isBoolean, FieldType.isBool_iff]

theorem checkFunction_eq_ok_iff {f : PlannedField} {operator : Option Operator} :
    f.checkFunction operator = .ok () ↔
      ∀ function, f.path.function = some function →
        (∀ t, f.type = some t → t.HasFunction function) ∧
        ∀ o, operator = some o → o.ReadsValues := by
  have hoperator : (operator.map takesNumber).getD true = true ↔
      ∀ o, operator = some o → o.ReadsValues := by
    cases operator with
    | none => exact iff_of_true rfl nofun
    | some o => simp [takesNumber_iff]
  unfold checkFunction PlannedField.function
  cases f.path.function with
  | none => simp
  | some function =>
    simp only [Option.some.injEq, forall_eq', ← typeHas_iff, ← hoperator, ← Bool.and_eq_true]
    split <;> simp_all

/-- Elements are compared where the type is a list and no function is applied to it. -/
theorem isMembership_iff {f : PlannedField} :
    f.isMembership = true ↔ f.path.function = none ∧ ∃ element, f.type = some (.list element) := by
  unfold isMembership PlannedField.function
  rw [Bool.and_eq_true, Option.isNone_iff_eq_none]
  cases f.type with
  | none => simp
  | some type => simp [FieldType.isList_iff]

end PlannedField

/-- A planned field is compared by its elements when the shape declares its path as a list and the
path has no function. -/
theorem Compiler.PlansField.isMembership_iff {c : Compiler} {allowed : NameSet} {path : FieldPath}
    {f : PlannedField} (h : c.PlansField allowed path f) :
    f.isMembership = true ↔ path.function = none ∧
      ∃ element, Field.Declares c.shape.fields path.segments (.list element) := by
  rw [PlannedField.isMembership_iff, h.path_eq]
  refine and_congr_right fun _ => exists_congr fun element => ?_
  constructor
  · intro ht
    have htyped := h.typed
    rw [ht] at htyped
    cases htyped with
    | declared hd => exact hd
  · exact fun hd => h.typed.unique (.declared hd)

end RecordQuery
