import RecordQuery.Proofs.EitherSpelling

/-!
# The order of declarations

A segment refers to the first field that answers to it, so the order in which fields are declared
could matter. It does not where no segment refers to two fields of a table: two shapes that differ
only in the order of their fields, at any depth, compile every spec to the same query or refuse it
with the same error.

A walk below two such shapes arrives at types that are not the same either, for these hold tables in
their turn. But nothing after the walk looks into a table.

1. `FieldType.Reorders`, `Shape.Reorders`: types and shapes that differ in the order of fields.
2. `FieldType.Reorders.lookup_cases`: a segment refers to one field in both.
3. `Field.alike_walkFrom`: walks below them are alike.
4. `PlannedField.Reorders`: fields on which all that follows a walk is the same.
5. `Compiler.declaration_order_irrelevant`: specs are compiled to the same.
-/
namespace RecordQuery

/-! ## Types and shapes -/

/-- The field with another type. -/
def Field.withType (f : Field) (type : FieldType) : Field := { f with type := type }

/-- Two types that differ in the order in which the fields of related records are declared, at any
depth. -/
inductive FieldType.Reorders : FieldType → FieldType → Prop
  | refl (type : FieldType) : Reorders type type
  | list {element other : FieldType} : Reorders element other →
      Reorders (.list element) (.list other)
  /-- The types of the fields are reordered, and then the fields. -/
  | relation {fields others : List Field} (inner : Field → FieldType) :
      (∀ f ∈ fields, Reorders f.type (inner f)) →
      (fields.map fun f => f.withType (inner f)).Perm others →
      Reorders (.relation fields) (.relation others)

/-- Two shapes of one name that differ in the order of their fields, at any depth. -/
structure Shape.Reorders (s t : Shape) : Prop where
  name : s.name = t.name
  fields : (FieldType.relation s.fields).Reorders (.relation t.fields)

namespace Field

variable {f : Field} {type : FieldType} {segment : String}

theorem answers_withType : (f.withType type).Answers segment ↔ f.Answers segment := Iff.rfl

theorem withType_type : f.withType f.type = f := by
  cases f
  rfl

end Field

namespace FieldType

variable {s t : FieldType}

/-- Errors name both types alike. -/
theorem Reorders.name_eq (h : s.Reorders t) : s.name = t.name := by
  induction h with
  | refl _ => rfl
  | list _ ih => exact congrArg (fun name => "list<" ++ name ++ ">") ih
  | relation _ _ _ => rfl

/-- A test that sees no further than that a type is a list or a related record tells nothing apart.
-/
theorem Reorders.test_eq {α : Type} (h : s.Reorders t) (test : FieldType → α)
    (hlist : ∀ a b, test (.list a) = test (.list b))
    (hrelation : ∀ a b, test (.relation a) = test (.relation b)) : test s = test t := by
  cases h with
  | refl _ => rfl
  | list _ => exact hlist _ _
  | relation _ _ _ => exact hrelation _ _

theorem Reorders.isList_eq (h : s.Reorders t) : s.isList = t.isList :=
  h.test_eq isList (fun _ _ => rfl) fun _ _ => rfl

theorem Reorders.isRelation_eq (h : s.Reorders t) : s.isRelation = t.isRelation :=
  h.test_eq isRelation (fun _ _ => rfl) fun _ _ => rfl

/-- Both types have the same values. -/
theorem Reorders.coerce_eq (h : s.Reorders t) (raw : String) : s.coerce raw = t.coerce raw := by
  induction h with
  | refl _ => rfl
  | list _ ih => exact ih
  | relation _ _ _ => rfl

theorem tables_refl (type : FieldType) :
    (type.nestedFields? = none ∧ type.nestedFields? = none) ∨
    ∃ fields others, type.nestedFields? = some fields ∧ type.nestedFields? = some others ∧
      (FieldType.relation fields).Reorders (.relation others) := by
  cases type.nestedFields? with
  | none => exact .inl ⟨rfl, rfl⟩
  | some fields => exact .inr ⟨fields, fields, rfl, rfl, .refl _⟩

/-- Both types hold tables, which differ in the order of fields, or neither does. -/
theorem Reorders.tables (h : s.Reorders t) :
    (s.nestedFields? = none ∧ t.nestedFields? = none) ∨
    ∃ fields others, s.nestedFields? = some fields ∧ t.nestedFields? = some others ∧
      (FieldType.relation fields).Reorders (.relation others) := by
  cases h with
  | refl _ => exact tables_refl _
  | relation inner htypes hperm => exact .inr ⟨_, _, rfl, rfl, .relation inner htypes hperm⟩
  | list h =>
    cases h with
    | refl _ => exact tables_refl _
    | list _ => exact .inl ⟨rfl, rfl⟩
    | relation inner htypes hperm => exact .inr ⟨_, _, rfl, rfl, .relation inner htypes hperm⟩

variable {fields others : List Field}

/-- Two tables have the same fields but for their types. -/
theorem Reorders.members (h : (FieldType.relation fields).Reorders (.relation others)) :
    ∃ inner : Field → FieldType, (∀ f ∈ fields, f.type.Reorders (inner f)) ∧
      ∀ g, g ∈ others ↔ ∃ f ∈ fields, f.withType (inner f) = g := by
  cases h with
  | refl _ =>
    refine ⟨Field.type, fun f _ => .refl f.type, fun g => ?_⟩
    simp only [Field.withType_type, exists_eq_right]
  | relation inner htypes hperm =>
    refine ⟨inner, htypes, fun g => ?_⟩
    rw [← hperm.mem_iff, List.mem_map]

/-- In both tables a segment refers to one field, or to none. -/
theorem Reorders.lookup_cases (h : (FieldType.relation fields).Reorders (.relation others))
    (hu : Field.Unambiguous fields) (segment : String) :
    (Field.lookup fields segment = none ∧ Field.lookup others segment = none) ∨
    ∃ f type, f ∈ fields ∧ f.type.Reorders type ∧ Field.lookup fields segment = some f ∧
      Field.lookup others segment = some (f.withType type) := by
  obtain ⟨inner, htypes, hmem⟩ := h.members
  rcases Field.exists_isFirst_or fields segment with ⟨f, hf⟩ | hn
  · refine .inr ⟨f, inner f, hf.mem, htypes f hf.mem, Field.lookup_eq_some_iff.2 hf, ?_⟩
    have hother : f.withType (inner f) ∈ others := (hmem _).2 ⟨f, hf.mem, rfl⟩
    rcases Field.exists_isFirst_or others segment with ⟨g, hg⟩ | hn
    · -- The first that answers in the other table is some field of this one, which answers too.
      obtain ⟨f', hf', rfl⟩ := (hmem g).1 hg.mem
      have hsame : f' = f := hu fields .self f' hf' f hf.mem segment hg.answers hf.answers
      rw [← hsame]
      exact Field.lookup_eq_some_iff.2 hg
    · exact absurd (Field.answers_withType.2 hf.answers) (hn _ hother)
  · refine .inl ⟨Field.lookup_eq_none_iff.2 hn, Field.lookup_eq_none_iff.2 fun g hg => ?_⟩
    obtain ⟨f, hf, rfl⟩ := (hmem g).1 hg
    exact hn f hf

end FieldType

/-! ## Walks -/

/-- Two places of a walk that differ in the order of fields. -/
structure ResolvedField.Reorders (a b : ResolvedField) : Prop where
  type : a.type.Reorders b.type
  storage : a.storage = b.storage

/-- Walks below types that differ in the order of fields are alike, and fail with the same
message. -/
theorem Field.alike_walkFrom {s t : FieldType} (h : s.Reorders t)
    (hu : ∀ fields, s.Holds fields → Field.Unambiguous fields) (owner : String)
    (segments : List String) :
    Alike (fun e f => e.message = f.message) ResolvedField.Reorders
      (Field.walkFrom owner s segments) (Field.walkFrom owner t segments) := by
  induction segments generalizing owner s t with
  | nil => exact .ok ⟨h, rfl⟩
  | cons segment rest ih =>
    rw [Field.walkFrom_cons, Field.walkFrom_cons]
    rcases h.tables with ⟨hs, ht⟩ | ⟨fields, others, hs, ht, htables⟩
    · rw [hs, ht]
      refine .error ?_
      simp only [WalkFault.message, h.name_eq]
    · rw [hs, ht]
      dsimp only
      have hfields := hu fields (FieldType.nestedFields?_eq_some_iff.1 hs)
      rcases htables.lookup_cases hfields segment with ⟨hf, hg⟩ | ⟨f, type, hmem, htype, hf, hg⟩
      · rw [hf, hg]
        exact .error rfl
      · rw [hf, hg]
        have hinner := ih htype (fun inner hi => hfields.below hmem hi) f.name
        exact hinner.map fun a b hab => ⟨hab.type, congrArg (f.storageName :: ·) hab.storage⟩

/-! ## Planned fields -/

namespace PlannedField

/-- Two fields of types that differ in the order of fields, and alike in all else. -/
structure Reorders (f g : PlannedField) : Prop where
  token : f.token = g.token
  path : f.path = g.path
  columns : f.columns = g.columns
  type : Option.Rel FieldType.Reorders f.type g.type

variable {f g : PlannedField}

/-- Paths are planned alike, with the same errors. -/
theorem reorders_ofPath {fields others : List Field}
    (h : (FieldType.relation fields).Reorders (.relation others))
    (hu : Field.Unambiguous fields) (token : String) (path : FieldPath) :
    Alike Eq Reorders (ofPath token (Access.locate fields path))
      (ofPath token (Access.locate others path)) := by
  unfold ofPath Access.locate
  rcases h.lookup_cases hu path.root with ⟨hf, hg⟩ | ⟨f, type, hmem, htype, hf, hg⟩
  · rw [hf, hg]
    exact .ok ⟨rfl, rfl, rfl, .none⟩
  · rw [hf, hg]
    have hwalk : Alike _ ResolvedField.Reorders (f.walk path.nested)
        ((f.withType type).walk path.nested) :=
      Field.alike_walkFrom htype (fun inner hi => hu.below hmem hi) f.name path.nested
    have hname : f.type.name = (f.withType type).type.name := htype.name_eq
    dsimp only [ofWalk]
    generalize f.walk path.nested = walked, (f.withType type).walk path.nested = other at hwalk
    cases hwalk with
    | error hmessage =>
      dsimp only
      rw [hname, hmessage]
      exact .error rfl
    | @ok a b hab =>
      dsimp only
      rw [hab.type.isRelation_eq, hab.type.name_eq, hab.storage]
      split
      · exact .error rfl
      · exact .ok ⟨rfl, rfl, rfl, .some hab.type⟩

/-- A test of a field's type tells nothing apart when it tells no two types apart that differ in the
order of fields. -/
theorem Reorders.test_eq {α : Type} (h : f.Reorders g) (test : Option FieldType → α)
    (htest : ∀ s t, s.Reorders t → test (some s) = test (some t)) : test f.type = test g.type := by
  generalize f.type = s, g.type = t, h.type = htype
  cases htype with
  | none => rfl
  | some htype => exact htest _ _ htype

theorem Reorders.typeName_eq (h : f.Reorders g) : f.typeName = g.typeName :=
  h.test_eq (fun type => (type.map FieldType.name).getD "untyped") fun _ _ ht => ht.name_eq

theorem Reorders.isMembership_eq (h : f.Reorders g) : f.isMembership = g.isMembership := by
  have hlist := h.test_eq (fun type => (type.map FieldType.isList).getD false)
    fun _ _ ht => ht.isList_eq
  unfold isMembership function
  rw [h.path, hlist]

theorem Reorders.checkFunction_eq (h : f.Reorders g) (operator : Option Operator) :
    f.checkFunction operator = g.checkFunction operator := by
  have htypes : ∀ function, typeHas function f.type = typeHas function g.type := by
    intro function
    refine h.test_eq (typeHas function) fun s t ht => ?_
    cases function with
    | length => exact ht.test_eq FieldType.isText (fun _ _ => rfl) fun _ _ => rfl
    | size => exact ht.isList_eq
  unfold checkFunction function
  simp only [h.token, h.path, h.typeName_eq, htypes]

theorem Reorders.valueType (h : f.Reorders g) :
    Option.Rel FieldType.Reorders f.valueType g.valueType := by
  unfold PlannedField.valueType function
  rw [h.path]
  split
  · exact .some (.refl _)
  · exact h.type

theorem Reorders.value_eq (h : f.Reorders g) (raw : String) : f.value raw = g.value raw := by
  unfold value
  rw [h.token]
  generalize f.valueType = s, g.valueType = t, h.valueType = htype
  cases htype with
  | none => rfl
  | some htype =>
    dsimp only
    rw [htype.coerce_eq]

theorem Reorders.operand_eq (h : f.Reorders g) (operator : Operator) (raw : String) :
    f.operand operator raw = g.operand operator raw := by
  cases operator with
  | compare c =>
    dsimp only [operand]
    rw [h.value_eq]
  | isIn =>
    have hvalue : f.value = g.value := funext h.value_eq
    dsimp only [operand]
    rw [hvalue]
  | like =>
    have hlike := h.test_eq takesLike fun s t ht =>
      ht.test_eq (fun type => takesLike (some type)) (fun _ _ => rfl) fun _ _ => rfl
    dsimp only [operand]
    rw [hlike, h.token, h.typeName_eq]
  | is =>
    have hliteral : ∀ literal, takesLiteral literal f.type = takesLiteral literal g.type := by
      intro literal
      refine h.test_eq (takesLiteral literal) fun s t ht => ?_
      exact ht.test_eq (fun type => takesLiteral literal (some type)) (fun _ _ => rfl)
        fun _ _ => rfl
    dsimp only [operand]
    simp only [hliteral, h.token, h.typeName_eq]

theorem Reorders.target_eq (h : f.Reorders g) (source : Source) :
    f.target source = g.target source := by
  unfold target function
  rw [h.columns, h.path, h.token, h.typeName_eq]

end PlannedField

/-! ## Plans -/

structure PlannedFilter.Reorders (p q : PlannedFilter) : Prop where
  field : p.field.Reorders q.field
  operand : p.operand = q.operand

structure PlannedSort.Reorders (p q : PlannedSort) : Prop where
  field : p.field.Reorders q.field
  direction : p.direction = q.direction

namespace Access

variable {fields others : List Field}

/-- Both tables permit the same names. -/
theorem permits_eq_of_reorders (h : (FieldType.relation fields).Reorders (.relation others))
    (hu : Field.Unambiguous fields) (allowed : NameSet) :
    permits fields allowed = permits others allowed := by
  funext root
  unfold permits
  rcases h.lookup_cases hu root with ⟨hf, hg⟩ | ⟨_, _, _, _, hf, hg⟩
  · rw [hf, hg]
  · rw [hf, hg]
    rfl

theorem check_eq_of_reorders (h : (FieldType.relation fields).Reorders (.relation others))
    (hu : Field.Unambiguous fields) (kind : ParamKind) (allowed : NameSet)
    (paths : List FieldPath) :
    check kind fields allowed paths = check kind others allowed paths := by
  unfold check offenders
  rw [permits_eq_of_reorders h hu]

end Access

namespace Compiler

section Tokens

variable {fields others : List Field} (h : (FieldType.relation fields).Reorders (.relation others))
  (hu : Field.Unambiguous fields)

include h hu

theorem reorders_planFilter (t : FilterToken) :
    Alike Eq PlannedFilter.Reorders (planFilter t (Access.locate fields t.path))
      (planFilter t (Access.locate others t.path)) := by
  refine (PlannedField.reorders_ofPath h hu t.raw t.path).bind fun f g hfg => ?_
  rw [PlannedField.filter_eq, PlannedField.filter_eq, hfg.checkFunction_eq, hfg.operand_eq]
  refine (Alike.self _).bind fun () () _ => (Alike.self _).map ?_
  rintro operand _ rfl
  exact ⟨hfg, rfl⟩

theorem reorders_planSort (t : SortToken) :
    Alike Eq PlannedSort.Reorders (planSort t (Access.locate fields t.path))
      (planSort t (Access.locate others t.path)) := by
  refine (PlannedField.reorders_ofPath h hu t.raw t.path).bind fun f g hfg => ?_
  unfold PlannedField.sort
  rw [hfg.checkFunction_eq]
  exact (Alike.self _).map fun () () _ => ⟨hfg, rfl⟩

end Tokens

section Specs

variable {s t : Shape} (h : s.Reorders t) (hu : Field.Unambiguous s.fields) (config : Config)

include h hu

/-- Specs are planned alike, token by token. -/
theorem reorders_planFilters (spec : FilterSpec) :
    Alike Eq (List.Forall₂ PlannedFilter.Reorders) ((Compiler.mk s config).planFilters spec)
      ((Compiler.mk t config).planFilters spec) := by
  have htokens : List.Forall₂ Eq spec.tokens spec.tokens := List.forall₂_same.2 fun _ _ => rfl
  rw [planFilters_eq, planFilters_eq]
  dsimp only
  rw [Access.check_eq_of_reorders h.fields hu]
  refine (Alike.self _).bind fun () () _ => (Alike.self _).bind fun () () _ =>
    (Alike.self _).bind fun () () _ => Alike.collect htokens ?_
  rintro token _ rfl
  exact reorders_planFilter h.fields hu token

theorem reorders_planSorts (spec : SortSpec) :
    Alike Eq (List.Forall₂ PlannedSort.Reorders) ((Compiler.mk s config).planSorts spec)
      ((Compiler.mk t config).planSorts spec) := by
  have htokens : List.Forall₂ Eq spec.tokens spec.tokens := List.forall₂_same.2 fun _ _ => rfl
  rw [planSorts_eq, planSorts_eq]
  dsimp only
  rw [Access.check_eq_of_reorders h.fields hu]
  refine (Alike.self _).bind fun () () _ => (Alike.self _).bind fun () () _ =>
    Alike.collect htokens ?_
  rintro token _ rfl
  exact reorders_planSort h.fields hu token

end Specs

end Compiler

/-! ## Both forms -/

section Backends

theorem PlannedField.Reorders.column_eq {f g : PlannedField} (h : f.Reorders g)
    (qualifier : String) : f.column qualifier = g.column qualifier := by
  unfold column dotted function
  rw [h.path, h.columns]

theorem PlannedFilter.Reorders.clause_eq {p q : PlannedFilter} (h : p.Reorders q)
    (qualifier : String) : p.clause qualifier = q.clause qualifier := by
  unfold clause sql
  rw [h.field.column_eq, h.operand]

theorem PlannedSort.Reorders.sql_eq {p q : PlannedSort} (h : p.Reorders q) (qualifier : String) :
    p.sql qualifier = q.sql qualifier := by
  unfold sql
  rw [h.field.column_eq, h.direction]

/-- Two planned conditions have one conjunct in the tree, and it is in the group of one path. -/
theorem PlannedFilter.Reorders.entry_eq {p q : PlannedFilter} (h : p.Reorders q)
    (source : Source) :
    (p.conjunct source).map (fun conjunct => (p.field.dotted, conjunct)) =
      (q.conjunct source).map fun conjunct => (q.field.dotted, conjunct) := by
  unfold conjunct PlannedField.dotted
  rw [h.field.target_eq, h.field.isMembership_eq, h.field.columns, h.operand]

end Backends

namespace Compiler

section Compilations

variable {s t : Shape} (h : s.Reorders t) (hu : Field.Unambiguous s.fields) (config : Config)

include h hu

theorem compileText_eq_of_reorders (spec : FilterSpec) (qualifier : String) :
    (Compiler.mk s config).compileText spec qualifier =
      (Compiler.mk t config).compileText spec qualifier :=
  (alike_compileText_of_plans (reorders_planFilters h hu config spec) fun _ _ hpq =>
    hpq.clause_eq qualifier).eq

theorem compileCondition_eq_of_reorders (spec : FilterSpec) (source : Source) :
    (Compiler.mk s config).compileCondition spec source =
      (Compiler.mk t config).compileCondition spec source := by
  refine (alike_compileCondition_of_plans (reorders_planFilters h hu config spec)
    fun p q hpq => ?_).eq
  rw [hpq.entry_eq]
  exact .self _

theorem compileSortText_eq_of_reorders (spec : SortSpec) (qualifier : String) :
    (Compiler.mk s config).compileSortText spec qualifier =
      (Compiler.mk t config).compileSortText spec qualifier :=
  (alike_compileSortText_of_plans (reorders_planSorts h hu config spec) fun _ _ hpq =>
    hpq.sql_eq qualifier).eq

theorem compileOrder_eq_of_reorders (spec : SortSpec) (source : Source) :
    (Compiler.mk s config).compileOrder spec source =
      (Compiler.mk t config).compileOrder spec source := by
  refine (alike_compileOrder_of_plans (reorders_planSorts h hu config spec)
    fun p q hpq => ⟨hpq.direction, ?_⟩).eq
  rw [hpq.field.target_eq]
  exact .self _

end Compilations

end Compiler

namespace Sample

/-- The archive with its fields, and those of its addresses, declared the other way round. -/
def mirrored : Shape :=
  ⟨"archive", [
    { name := "removed", type := .bool, storedAs := some "is_removed", softDelete := true },
    { name := "address", type := .relation addressTable.reverse, storedAs := some "addr" }]⟩

/-- The type that a field of the archive has in the mirrored one. -/
def mirroredType (f : Field) : FieldType :=
  match f.type with
  | .relation fields => .relation fields.reverse
  | type => type

theorem reorders_mirrored : archive.Reorders mirrored where
  name := rfl
  fields := by
    have htable : (FieldType.relation addressTable).Reorders (.relation addressTable.reverse) := by
      refine .relation Field.type (fun f _ => .refl f.type) ?_
      simp only [Field.withType_type, List.map_id']
      exact (List.reverse_perm _).symm
    refine .relation mirroredType ?_ (.swap _ _ _)
    simp [archive, mirroredType, htable, FieldType.Reorders.refl]

/-- A field, and another that is stored under its name. -/
def twoKeys : List Field :=
  [{ name := "key", type := .int64 }, { name := "code", type := .text, storedAs := some "key" }]

def textKey : FilterToken := ⟨⟨"key", [], none, by decide⟩, .compare .eq, "x", "key:=:x"⟩

end Sample

namespace Compiler

/-- The order of declarations decides nothing. Two shapes that differ in it alone, at any depth,
compile every spec to the same text and to the same tree, or refuse it with the same error, as long
as no segment refers to two fields of a table. -/
theorem declaration_order_irrelevant {s t : Shape} (h : s.Reorders t)
    (hu : Field.Unambiguous s.fields) (config : Config) :
    (∀ spec qualifier, (Compiler.mk s config).compileText spec qualifier =
      (Compiler.mk t config).compileText spec qualifier) ∧
    (∀ spec source, (Compiler.mk s config).compileCondition spec source =
      (Compiler.mk t config).compileCondition spec source) ∧
    (∀ spec qualifier, (Compiler.mk s config).compileSortText spec qualifier =
      (Compiler.mk t config).compileSortText spec qualifier) ∧
    ∀ spec source, (Compiler.mk s config).compileOrder spec source =
      (Compiler.mk t config).compileOrder spec source :=
  ⟨compileText_eq_of_reorders h hu config, compileCondition_eq_of_reorders h hu config,
    compileSortText_eq_of_reorders h hu config, compileOrder_eq_of_reorders h hu config⟩

/-- A city is found in the archive and in the mirrored one alike, and the truth value that is asked
of a number is refused alike. -/
theorem declaration_order_irrelevant_mirrored :
    Sample.archive.Reorders Sample.mirrored ∧ Field.Unambiguous Sample.archive.fields ∧
    (∃ clause,
      (Compiler.mk Sample.archive {}).compileText ⟨[Sample.cityByName], ∅⟩ "" = .ok clause ∧
      (Compiler.mk Sample.mirrored {}).compileText ⟨[Sample.cityByName], ∅⟩ "" = .ok clause) ∧
    ∃ e, (Compiler.mk Sample.archive {}).compileCondition ⟨[Sample.zipByName], ∅⟩
        ⟨"archive", []⟩ = .error e ∧
      (Compiler.mk Sample.mirrored {}).compileCondition ⟨[Sample.zipByName], ∅⟩
        ⟨"archive", []⟩ = .error e := by
  obtain ⟨htext, htree, _⟩ :=
    declaration_order_irrelevant Sample.reorders_mirrored Sample.unambiguous_archive {}
  refine ⟨Sample.reorders_mirrored, Sample.unambiguous_archive, ?_, ?_⟩
  · obtain ⟨clause, hc⟩ : ∃ clause, (Compiler.mk Sample.archive {}).compileText
        ⟨[Sample.cityByName], ∅⟩ "" = .ok clause := ⟨_, rfl⟩
    exact ⟨clause, hc, (htext _ _).symm.trans hc⟩
  · obtain ⟨e, he⟩ : ∃ e, (Compiler.mk Sample.archive {}).compileCondition
        ⟨[Sample.zipByName], ∅⟩ ⟨"archive", []⟩ = .error e := ⟨_, rfl⟩
    exact ⟨e, he, (htree _ _).symm.trans he⟩

/-- Where a segment refers to two fields, the first of them decides how a value is read. -/
example :
    (Compiler.mk ⟨"keys", Sample.twoKeys⟩ {}).compileText ⟨[Sample.textKey], ∅⟩ "" =
      .error (.coercion "key:=:x" ⟨"x", "i64", "invalid digit found in string"⟩) ∧
    (Compiler.mk ⟨"keys", Sample.twoKeys.reverse⟩ {}).compileText ⟨[Sample.textKey], ∅⟩ "" =
      .ok ⟨"WHERE key = ?", [.text "x"]⟩ :=
  ⟨rfl, rfl⟩

end Compiler

end RecordQuery
