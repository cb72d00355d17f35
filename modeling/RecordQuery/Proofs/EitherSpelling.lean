import RecordQuery.Proofs.Faults
import RecordQuery.Proofs.Placeholders
import RecordQuery.Proofs.Spelling

/-!
# Either spelling, one query

A request may spell its fields in any mixture of declared names and storage aliases. As long as no
segment refers to two fields of one table, the spelling decides nothing: not the query in either
form, not whether the request is refused, and not whether the soft-delete condition is added. It is
seen only in errors, which name a token as the request wrote it.

1. `FilterToken.Respells`, `SortToken.Respells`: tokens that differ in their spelling.
2. `QueryError.SameFault`: errors that say the same of two specs.
3. `Compiler.alike_planFilters`, `Compiler.alike_planSorts`: two spellings are planned alike.
4. `Compiler.alike_compileText_of_plans` and the like: what is planned alike is compiled alike.
5. `Compiler.either_spelling_same_query`: two spellings are compiled alike.
-/
namespace RecordQuery

/-! ## Two spellings of a spec -/

/-- Two conditions that differ in how they spell their paths. -/
structure FilterToken.Respells (fields : List Field) (t u : FilterToken) : Prop where
  path : t.path.Respells fields u.path
  operator : t.operator = u.operator
  value : t.value = u.value

/-- Two terms of an order that differ in how they spell their paths. -/
structure SortToken.Respells (fields : List Field) (t u : SortToken) : Prop where
  path : t.path.Respells fields u.path
  direction : t.direction = u.direction

/-- Two specs that allow the same names and whose tokens are related one by one. -/
structure Spec.TokenByToken {τ : Type} (related : τ → τ → Prop) (s t : Spec τ) : Prop where
  allowed : s.allowed = t.allowed
  tokens : List.Forall₂ related s.tokens t.tokens

theorem Spec.TokenByToken.paths {τ : Type} {related : τ → τ → Prop} {path : τ → FieldPath}
    {fields : List Field} {s t : Spec τ} (h : s.TokenByToken related t)
    (hpath : ∀ a b, related a b → (path a).Respells fields (path b)) :
    List.Forall₂ (FieldPath.Respells fields) (s.tokens.map path) (t.tokens.map path) :=
  List.forall₂_map_left_iff.2 (List.forall₂_map_right_iff.2 (h.tokens.imp hpath))

def FilterToken.label (t : FilterToken) : TokenLabel := ⟨t.raw, t.path⟩

def SortToken.label (t : SortToken) : TokenLabel := ⟨t.raw, t.path⟩

def FilterSpec.labels (s : FilterSpec) : List TokenLabel := s.tokens.map FilterToken.label

def SortSpec.labels (s : SortSpec) : List TokenLabel := s.tokens.map SortToken.label

/-- Two errors that say the same of two specs. Where they are about a token, it stands at one
position of both, and each of them gives it the name that it has there. -/
inductive QueryError.SameFault (labels : List (TokenLabel × TokenLabel)) :
    QueryError → QueryError → Prop
  | tooManyParams (kind : ParamKind) (count limit : Nat) :
      SameFault labels (.tooManyParams kind count limit) (.tooManyParams kind count limit)
  | disallowedFields (kind : ParamKind) (fields : NameSet) :
      SameFault labels (.disallowedFields kind fields) (.disallowedFields kind fields)
  | valueTooLong {n m : TokenLabel} (limit : Nat) : (n, m) ∈ labels →
      SameFault labels (.valueTooLong n.path.display limit) (.valueTooLong m.path.display limit)
  | token {n m : TokenLabel} {e f : QueryError} : (n, m) ∈ labels → SameToken n m e f →
      SameFault labels e f

/-- Related tokens have their labels at one position. -/
theorem forall₂_labels {τ : Type} (label : τ → TokenLabel) {related : τ → τ → Prop}
    {ss ts : List τ} (h : List.Forall₂ related ss ts) :
    List.Forall₂ (fun s t => (label s, label t) ∈ (ss.map label).zip (ts.map label) ∧ related s t)
      ss ts := by
  refine List.forall₂_iff_zip.2 ⟨h.length_eq, fun {s t} hmem => ⟨?_, List.forall₂_zip h hmem⟩⟩
  rw [List.zip_map]
  exact List.mem_map.2 ⟨(s, t), hmem, rfl⟩

/-! ## Checks of the whole spec -/

namespace Compiler

variable {labels : List (TokenLabel × TokenLabel)}

theorem alike_checkCount (kind : ParamKind) (count : Nat) (limit : Option Nat) :
    Alike (QueryError.SameFault labels) Eq (checkCount kind count limit)
      (checkCount kind count limit) := by
  unfold checkCount
  split
  · exact .ok rfl
  · split
    · exact .error (.tooManyParams kind count _)
    · exact .ok rfl

/-- The lengths of the values are checked alike: the first value that is too long stands at one
position. -/
theorem alike_checkLengths {fields : List Field} {limit : Nat} {ts us : List FilterToken}
    (h : List.Forall₂ (fun t u => (t.label, u.label) ∈ labels ∧ t.Respells fields u) ts us) :
    Alike (QueryError.SameFault labels) Eq (checkLengths limit ts) (checkLengths limit us) := by
  induction h with
  | nil => exact .ok rfl
  | @cons t u _ _ htu _ ih =>
    unfold checkLengths at ih ⊢
    rw [List.find?_cons, List.find?_cons, ← htu.2.value]
    by_cases hl : limit < t.value.length
    · simp only [hl, decide_true]
      exact .error (.valueTooLong limit htu.1)
    · simp only [hl, decide_false]
      exact ih

end Compiler

namespace Access

variable {fields : List Field}

/-- Two spellings of paths have the same roots that are not permitted: such a root refers to no
field. -/
theorem offenders_eq {ps qs : List FieldPath} (h : List.Forall₂ (FieldPath.Respells fields) ps qs)
    (hu : Field.Unambiguous fields) (allowed : NameSet) :
    offenders fields allowed ps = offenders fields allowed qs := by
  induction h with
  | nil => rfl
  | cons hpq _ ih =>
    unfold offenders at ih ⊢
    rw [List.map_cons, List.map_cons, List.filter_cons, List.filter_cons, ih]
    rcases hpq.roots hu with ⟨field, hp, hq, _⟩ | ⟨_, hroot, _⟩
    · simp [permits, hp, hq]
    · rw [hroot]

theorem alike_check {labels : List (TokenLabel × TokenLabel)} {ps qs : List FieldPath}
    (h : List.Forall₂ (FieldPath.Respells fields) ps qs) (hu : Field.Unambiguous fields)
    (kind : ParamKind) (allowed : NameSet) :
    Alike (QueryError.SameFault labels) Eq (check kind fields allowed ps)
      (check kind fields allowed qs) := by
  unfold check
  rw [offenders_eq h hu]
  split
  · exact .ok rfl
  · exact .error (.disallowedFields kind _)

end Access

/-! ## Plans -/

/-- Two planned conditions that differ in the labels of their fields. -/
structure PlannedFilter.Same (n m : TokenLabel) (p q : PlannedFilter) : Prop where
  field : p.field.Same n m q.field
  operand : p.operand = q.operand

/-- Two planned terms that differ in the labels of their fields. -/
structure PlannedSort.Same (n m : TokenLabel) (p q : PlannedSort) : Prop where
  field : p.field.Same n m q.field
  direction : p.direction = q.direction

namespace Compiler

variable {fields : List Field}

theorem alike_planFilter {t u : FilterToken} (h : t.Respells fields u)
    (hu : Field.Unambiguous fields) :
    Alike (QueryError.SameToken t.label u.label) (PlannedFilter.Same t.label u.label)
      (planFilter t (Access.locate fields t.path))
      (planFilter u (Access.locate fields u.path)) := by
  refine (PlannedField.alike_ofPath h.path hu).bind fun f g hfg => ?_
  rw [PlannedField.filter_eq, PlannedField.filter_eq, ← h.operator, ← h.value]
  refine (hfg.alike_checkFunction (some t.operator)).bind fun () () _ => ?_
  exact (hfg.alike_operand t.operator t.value).map fun _ _ hoperand => ⟨hfg, hoperand⟩

theorem alike_planSort {t u : SortToken} (h : t.Respells fields u)
    (hu : Field.Unambiguous fields) :
    Alike (QueryError.SameToken t.label u.label) (PlannedSort.Same t.label u.label)
      (planSort t (Access.locate fields t.path)) (planSort u (Access.locate fields u.path)) := by
  refine (PlannedField.alike_ofPath h.path hu).bind fun f g hfg => ?_
  exact (hfg.alike_checkFunction none).map fun () () _ => ⟨hfg, h.direction⟩

variable {c : Compiler}

/-- Two spellings of a filter spec are planned alike. -/
theorem alike_planFilters {s t : FilterSpec} (hu : Field.Unambiguous c.shape.fields)
    (h : s.TokenByToken (FilterToken.Respells c.shape.fields) t) :
    Alike (QueryError.SameFault (s.labels.zip t.labels))
      (List.Forall₂ fun p q => ∃ n m, (n, m) ∈ s.labels.zip t.labels ∧ PlannedFilter.Same n m p q)
      (c.planFilters s) (c.planFilters t) := by
  have hlabels := forall₂_labels FilterToken.label h.tokens
  have hsize : s.size = t.size := h.tokens.length_eq
  have hpaths := h.paths fun _ _ => FilterToken.Respells.path
  rw [planFilters_eq, planFilters_eq, ← hsize, ← h.allowed]
  refine (alike_checkCount ..).bind fun () () _ => (alike_checkLengths hlabels).bind fun () () _ =>
    (Access.alike_check hpaths hu ..).bind fun () () _ => ?_
  refine Alike.collect hlabels fun a b ⟨hmem, hab⟩ => ?_
  exact (alike_planFilter hab hu).mono (fun _ _ => .token hmem) fun _ _ hpq => ⟨_, _, hmem, hpq⟩

theorem alike_planSorts {s t : SortSpec} (hu : Field.Unambiguous c.shape.fields)
    (h : s.TokenByToken (SortToken.Respells c.shape.fields) t) :
    Alike (QueryError.SameFault (s.labels.zip t.labels))
      (List.Forall₂ fun p q => ∃ n m, (n, m) ∈ s.labels.zip t.labels ∧ PlannedSort.Same n m p q)
      (c.planSorts s) (c.planSorts t) := by
  have hlabels := forall₂_labels SortToken.label h.tokens
  have hsize : s.size = t.size := h.tokens.length_eq
  have hpaths := h.paths fun _ _ => SortToken.Respells.path
  rw [planSorts_eq, planSorts_eq, ← hsize, ← h.allowed]
  refine (alike_checkCount ..).bind fun () () _ =>
    (Access.alike_check hpaths hu ..).bind fun () () _ => ?_
  refine Alike.collect hlabels fun a b ⟨hmem, hab⟩ => ?_
  exact (alike_planSort hab hu).mono (fun _ _ => .token hmem) fun _ _ hpq => ⟨_, _, hmem, hpq⟩

end Compiler

/-! ## Backends -/

section Backends

variable {n m : TokenLabel}

theorem PlannedField.Same.column_eq {f g : PlannedField} (h : f.Same n m g) (qualifier : String) :
    f.column qualifier = g.column qualifier := by
  unfold column dotted
  rw [h.function, h.columns]

theorem PlannedField.Same.isMembership_eq {f g : PlannedField} (h : f.Same n m g) :
    f.isMembership = g.isMembership := by
  unfold isMembership
  rw [h.function, h.type]

theorem PlannedFilter.Same.clause_eq {p q : PlannedFilter} (h : p.Same n m q) (qualifier : String) :
    p.clause qualifier = q.clause qualifier := by
  unfold clause sql
  rw [h.field.column_eq, h.operand]

theorem PlannedSort.Same.sql_eq {p q : PlannedSort} (h : p.Same n m q) (qualifier : String) :
    p.sql qualifier = q.sql qualifier := by
  unfold sql
  rw [h.field.column_eq, h.direction]

/-- Two planned conditions have one conjunct in the tree, and it is in the group of one path. -/
theorem PlannedFilter.Same.alike_entry {p q : PlannedFilter} (h : p.Same n m q) (source : Source) :
    Alike (QueryError.SameToken n m) Eq
      ((p.conjunct source).map fun conjunct => (p.field.dotted, conjunct))
      ((q.conjunct source).map fun conjunct => (q.field.dotted, conjunct)) := by
  have hdotted : p.field.dotted = q.field.dotted :=
    congrArg (String.intercalate ".") h.field.columns
  have hconjunct : Alike (QueryError.SameToken n m) Eq (p.conjunct source) (q.conjunct source) := by
    unfold conjunct
    rw [h.field.isMembership_eq, h.operand]
    exact (h.field.alike_target source).map fun _ _ => congrArg (conjunctOn _ · _)
  rw [hdotted]
  exact hconjunct.map fun _ _ => congrArg _

end Backends

/-! ## The soft-delete condition -/

namespace FilterSpec

/-- What becomes of two specs that grow by the same token, if by any. -/
inductive GrowsAlike (s t : FilterSpec) : FilterSpec → FilterSpec → Prop
  | unchanged : GrowsAlike s t s t
  | appended (token : FilterToken) :
      GrowsAlike s t (s.concat (.ofTokens [token])) (t.concat (.ofTokens [token]))

/-- The soft-delete condition is appended to both spellings of a spec or to neither. -/
theorem alike_withSoftDelete {shape : Shape} {s t : FilterSpec}
    (hu : Field.Unambiguous shape.fields)
    (h : s.TokenByToken (FilterToken.Respells shape.fields) t) (deleted : Bool) :
    Alike Eq (GrowsAlike s t) (s.withSoftDelete shape deleted)
      (t.withSoftDelete shape deleted) := by
  unfold withSoftDelete
  cases hd : shape.softDeleteField? with
  | none => exact .ok .unchanged
  | some field =>
    have hmem : field ∈ shape.fields := List.mem_of_find?_eq_some hd
    have hany : ∀ u : FilterSpec, u.roots.any field.answersTo =
        (u.tokens.map fun t => field.answersTo t.path.root).any id := by
      intro u
      rw [roots, List.any_map, List.any_map]
      rfl
    have hanswers : (s.tokens.map fun t => field.answersTo t.path.root) =
        t.tokens.map fun t => field.answersTo t.path.root :=
      map_eq_map_of_forall₂ h.tokens fun _ _ hab => hab.path.answersTo_eq hu hmem
    dsimp only
    rw [hany s, hany t, hanswers]
    split
    · exact .ok .unchanged
    · unfold softDelete
      dsimp only
      -- The token depends on the field alone, so both get the same one or the same error.
      generalize FilterToken.ofParts field.name .is _ = parsed
      cases parsed with
      | error e => exact .error rfl
      | ok token => exact .ok (.appended token)

end FilterSpec

/-! ## Both forms -/

namespace Compiler

section Plans

variable {c d : Compiler} {sameError : QueryError → QueryError → Prop}

/-- Conditions that are planned alike, and written alike one by one, have the same text. -/
theorem alike_compileText_of_plans {related : PlannedFilter → PlannedFilter → Prop}
    {s t : FilterSpec} {qualifier : String}
    (h : Alike sameError (List.Forall₂ related) (c.planFilters s) (d.planFilters t))
    (hclause : ∀ p q, related p q → p.clause qualifier = q.clause qualifier) :
    Alike sameError Eq (c.compileText s qualifier) (d.compileText t qualifier) := by
  refine h.map fun plan other hplan => ?_
  have hclauses : plan.map (·.clause qualifier) = other.map (·.clause qualifier) :=
    map_eq_map_of_forall₂ hplan hclause
  rw [Clause.ofFilters_eq, Clause.ofFilters_eq, hclauses]

theorem alike_compileSortText_of_plans {related : PlannedSort → PlannedSort → Prop}
    {s t : SortSpec} {qualifier : String}
    (h : Alike sameError (List.Forall₂ related) (c.planSorts s) (d.planSorts t))
    (hsql : ∀ p q, related p q → p.sql qualifier = q.sql qualifier) :
    Alike sameError Eq (c.compileSortText s qualifier) (d.compileSortText t qualifier) := by
  refine h.map fun plan other hplan => ?_
  have hterms : plan.map (·.sql qualifier) = other.map (·.sql qualifier) :=
    map_eq_map_of_forall₂ hplan hsql
  rw [Clause.text_ofSorts, Clause.text_ofSorts, hterms]

/-- Conditions that are planned alike, and have the same entries in the tree one by one, have the
same tree: the entries are grouped in the same way. -/
theorem alike_compileCondition_of_plans {related : PlannedFilter → PlannedFilter → Prop}
    {s t : FilterSpec} {source : Source}
    (h : Alike sameError (List.Forall₂ related) (c.planFilters s) (d.planFilters t))
    (hentry : ∀ p q, related p q → Alike sameError Eq
      ((p.conjunct source).map fun conjunct => (p.field.dotted, conjunct))
      ((q.conjunct source).map fun conjunct => (q.field.dotted, conjunct))) :
    Alike sameError Eq (c.compileCondition s source) (d.compileCondition t source) :=
  h.bind fun _ _ hplan =>
    (Alike.collect_eq hplan hentry).map fun _ _ => congrArg Condition.ofEntries

theorem alike_compileOrder_of_plans {related : PlannedSort → PlannedSort → Prop}
    {s t : SortSpec} {source : Source}
    (h : Alike sameError (List.Forall₂ related) (c.planSorts s) (d.planSorts t))
    (htarget : ∀ p q, related p q → p.direction = q.direction ∧
      Alike sameError Eq (p.field.target source) (q.field.target source)) :
    Alike sameError Eq (c.compileOrder s source) (d.compileOrder t source) := by
  refine h.bind fun plan other hplan => Alike.collect_eq hplan fun p q hpq => ?_
  obtain ⟨hdirection, halike⟩ := htarget p q hpq
  rw [hdirection]
  exact halike.map fun _ _ => congrArg (OrderTerm.mk · _)

end Plans

variable {c : Compiler}

theorem alike_compileText {s t : FilterSpec} (hu : Field.Unambiguous c.shape.fields)
    (h : s.TokenByToken (FilterToken.Respells c.shape.fields) t) (qualifier : String) :
    Alike (QueryError.SameFault (s.labels.zip t.labels)) Eq (c.compileText s qualifier)
      (c.compileText t qualifier) :=
  alike_compileText_of_plans (alike_planFilters hu h) fun _ _ ⟨_, _, _, hpq⟩ =>
    hpq.clause_eq qualifier

theorem alike_compileSortText {s t : SortSpec} (hu : Field.Unambiguous c.shape.fields)
    (h : s.TokenByToken (SortToken.Respells c.shape.fields) t) (qualifier : String) :
    Alike (QueryError.SameFault (s.labels.zip t.labels)) Eq (c.compileSortText s qualifier)
      (c.compileSortText t qualifier) :=
  alike_compileSortText_of_plans (alike_planSorts hu h) fun _ _ ⟨_, _, _, hpq⟩ =>
    hpq.sql_eq qualifier

theorem alike_compileCondition {s t : FilterSpec} (hu : Field.Unambiguous c.shape.fields)
    (h : s.TokenByToken (FilterToken.Respells c.shape.fields) t) (source : Source) :
    Alike (QueryError.SameFault (s.labels.zip t.labels)) Eq (c.compileCondition s source)
      (c.compileCondition t source) :=
  alike_compileCondition_of_plans (alike_planFilters hu h) fun _ _ ⟨_, _, hmem, hpq⟩ =>
    (hpq.alike_entry source).mono_error fun _ _ => .token hmem

theorem alike_compileOrder {s t : SortSpec} (hu : Field.Unambiguous c.shape.fields)
    (h : s.TokenByToken (SortToken.Respells c.shape.fields) t) (source : Source) :
    Alike (QueryError.SameFault (s.labels.zip t.labels)) Eq (c.compileOrder s source)
      (c.compileOrder t source) :=
  alike_compileOrder_of_plans (alike_planSorts hu h) fun _ _ ⟨_, _, hmem, hpq⟩ =>
    ⟨hpq.direction, (hpq.field.alike_target source).mono_error fun _ _ => .token hmem⟩

end Compiler

namespace Sample

/-- Records with a renamed relation and a renamed mark of deletion. -/
def archive : Shape :=
  ⟨"archive", [{ name := "address", type := .relation addressTable, storedAs := some "addr" },
    { name := "removed", type := .bool, storedAs := some "is_removed", softDelete := true }]⟩

/-- A compiler for the archive. -/
def archivist : Compiler := ⟨archive, {}⟩

def cityByName : FilterToken := ⟨city, .like, "Par", "address.city:like:Par"⟩

def cityByAlias : FilterToken :=
  ⟨⟨"addr", ["city_name"], none, by decide⟩, .like, "Par", "addr.city_name:like:Par"⟩

def zipByName : FilterToken :=
  ⟨⟨"address", ["zip"], none, by decide⟩, .is, "true", "address.zip:is:true"⟩

def zipByAlias : FilterToken :=
  ⟨⟨"addr", ["zip"], none, by decide⟩, .is, "true", "addr.zip:is:true"⟩

theorem unambiguous_addressTable : Field.Unambiguous addressTable :=
  Field.unambiguous_of_nodup (by decide) (by simp [addressTable, FieldType.Holds])

theorem unambiguous_archive : Field.Unambiguous archive.fields := by
  refine Field.unambiguous_of_nodup (by decide) ?_
  simp [archive, FieldType.Holds, unambiguous_addressTable]

theorem respells_city : cityByName.Respells archive.fields cityByAlias where
  path := ⟨rfl, .step List.mem_cons_self (.inl rfl) (.inr rfl) (.inl rfl)
    (.last List.mem_cons_self (.inl rfl) (.inr rfl))⟩
  operator := rfl
  value := rfl

theorem respells_zip : zipByName.Respells archive.fields zipByAlias where
  path := ⟨rfl, .last List.mem_cons_self (.inl rfl) (.inr rfl)⟩
  operator := rfl
  value := rfl

end Sample

namespace Compiler

/-- The spelling of a path decides nothing. Two requests that differ in it alone are compiled to the
same text and to the same tree, or both are refused for the same fault of the same token; and the
soft-delete condition is appended to both or to neither. -/
theorem either_spelling_same_query (c : Compiler) (hu : Field.Unambiguous c.shape.fields) :
    (∀ s t : FilterSpec, s.TokenByToken (FilterToken.Respells c.shape.fields) t →
      (∀ qualifier, Alike (QueryError.SameFault (s.labels.zip t.labels)) Eq
        (c.compileText s qualifier) (c.compileText t qualifier)) ∧
      (∀ source, Alike (QueryError.SameFault (s.labels.zip t.labels)) Eq
        (c.compileCondition s source) (c.compileCondition t source)) ∧
      ∀ deleted, Alike Eq (FilterSpec.GrowsAlike s t)
        (s.withSoftDelete c.shape deleted) (t.withSoftDelete c.shape deleted)) ∧
    ∀ s t : SortSpec, s.TokenByToken (SortToken.Respells c.shape.fields) t →
      (∀ qualifier, Alike (QueryError.SameFault (s.labels.zip t.labels)) Eq
        (c.compileSortText s qualifier) (c.compileSortText t qualifier)) ∧
      ∀ source, Alike (QueryError.SameFault (s.labels.zip t.labels)) Eq
        (c.compileOrder s source) (c.compileOrder t source) :=
  ⟨fun _ _ h => ⟨alike_compileText hu h, alike_compileCondition hu h,
      FilterSpec.alike_withSoftDelete hu h⟩,
    fun _ _ h => ⟨alike_compileSortText hu h, alike_compileOrder hu h⟩⟩

/-- A city by its declared name and by its alias: both requests are compiled to the same text, and
the soft-delete condition is appended to both. With a truth value asked of a number as well, both
are refused for their second token, each by its own spelling. -/
theorem either_spelling_same_query_archive :
    (∃ clause, Sample.archivist.compileText ⟨[Sample.cityByName], ∅⟩ "" = .ok clause ∧
      Sample.archivist.compileText ⟨[Sample.cityByAlias], ∅⟩ "" = .ok clause) ∧
    (∃ s t, FilterSpec.withSoftDelete ⟨[Sample.cityByName], ∅⟩ Sample.archive false = .ok s ∧
      FilterSpec.withSoftDelete ⟨[Sample.cityByAlias], ∅⟩ Sample.archive false = .ok t ∧
      s.size = 2 ∧ FilterSpec.GrowsAlike ⟨[Sample.cityByName], ∅⟩ ⟨[Sample.cityByAlias], ∅⟩ s t) ∧
    ∃ e f, Sample.archivist.compileText ⟨[Sample.cityByName, Sample.zipByName], ∅⟩ "" = .error e ∧
      Sample.archivist.compileText ⟨[Sample.cityByAlias, Sample.zipByAlias], ∅⟩ "" = .error f ∧
      e.token? = some "address.zip:is:true" ∧ f.token? = some "addr.zip:is:true" := by
  have halike := (either_spelling_same_query Sample.archivist Sample.unambiguous_archive).1
  have hone := halike ⟨[Sample.cityByName], ∅⟩ ⟨[Sample.cityByAlias], ∅⟩
    ⟨rfl, .cons Sample.respells_city .nil⟩
  have htwo := halike ⟨[Sample.cityByName, Sample.zipByName], ∅⟩
    ⟨[Sample.cityByAlias, Sample.zipByAlias], ∅⟩
    ⟨rfl, .cons Sample.respells_city (.cons Sample.respells_zip .nil)⟩
  refine ⟨?_, ?_, ?_⟩
  · obtain ⟨clause, hc⟩ : ∃ clause,
        Sample.archivist.compileText ⟨[Sample.cityByName], ∅⟩ "" = .ok clause := ⟨_, rfl⟩
    have h := hone.1 ""
    rw [hc] at h
    obtain ⟨_, ho, rfl⟩ := h.exists_ok
    exact ⟨clause, hc, ho⟩
  · obtain ⟨s, hs⟩ : ∃ s,
        FilterSpec.withSoftDelete ⟨[Sample.cityByName], ∅⟩ Sample.archive false = .ok s := ⟨_, rfl⟩
    have h := hone.2.2 false
    have hsize : s.size = 2 := by
      cases hs
      rfl
    rw [show Sample.archivist.shape = Sample.archive from rfl, hs] at h
    obtain ⟨t, ht, hgrow⟩ := h.exists_ok
    exact ⟨s, t, hs, ht, hsize, hgrow⟩
  · obtain ⟨e, he⟩ : ∃ e, Sample.archivist.compileText
        ⟨[Sample.cityByName, Sample.zipByName], ∅⟩ "" = .error e := ⟨_, rfl⟩
    have h := htwo.1 ""
    rw [he] at h
    obtain ⟨f, hf, hsame⟩ := h.exists_error
    exact ⟨e, f, he, hf, by cases he; rfl, by cases hf; rfl⟩

end Compiler

end RecordQuery
