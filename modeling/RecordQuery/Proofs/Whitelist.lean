import RecordQuery.Proofs.ClauseText
import RecordQuery.Proofs.Tree

/-!
# Whitelisting

No output is about anything but the columns of its tokens' paths, and these are storage names that
the shape declares, or a request's own segments under a root that is allowed by name. So without
allowed names nothing outside the shape can be tested or sorted by.

1. `PermittedText`, `PermittedTarget`: a column that a path may stand for, as text and in a tree.
2. `WritesConditions`, `WritesOrder`, `TestsConditions`, `SortsBy`: outputs about such columns.
3. `Compiler.outputs_on_permitted_columns`: all four outputs are about such columns only.
-/
namespace RecordQuery

/-- The columns of a permitted path. Without allowed names, they are storage names of the shape. -/
def PermittedColumns (fields : List Field) (allowed : NameSet) (path : FieldPath)
    (names : List String) : Prop :=
  Access.Columns fields allowed path names ∧ (allowed = ∅ → Field.Reachable fields names)

/-- A text writes the columns of a permitted path, after a qualifier and in the path's function. -/
def PermittedText (fields : List Field) (allowed : NameSet) (qualifier : String)
    (path : FieldPath) (text : String) : Prop :=
  ∃ names, PermittedColumns fields allowed path names ∧
    text = columnText path.function qualifier names

/-- A target is the place of the columns of a permitted path, in the path's function. -/
def PermittedTarget (fields : List Field) (allowed : NameSet) (source : Source)
    (path : FieldPath) (target : Target) : Prop :=
  ∃ names column, PermittedColumns fields allowed path names ∧ source.Placed names column ∧
    target = ⟨column, path.function⟩

/-- A text writes the conditions of a spec: each is a column of its token's path and one of the
fixed texts beside it. -/
def WritesConditions (fields : List Field) (qualifier : String) (spec : FilterSpec)
    (text : String) : Prop :=
  ∃ conditions, text = whereText conditions ∧
    List.Forall₂ (fun (t : FilterToken) condition => ∃ column comparand,
      PermittedText fields spec.allowed qualifier t.path column ∧ Comparand comparand ∧
      condition = column ++ " " ++ comparand) spec.tokens conditions

/-- A text writes the order of a spec: each term is a column of its token's path and a direction. -/
def WritesOrder (fields : List Field) (qualifier : String) (spec : SortSpec) (text : String) :
    Prop :=
  ∃ terms, text = orderText terms ∧
    List.Forall₂ (fun (t : SortToken) term => ∃ column,
      PermittedText fields spec.allowed qualifier t.path column ∧
      term = column ++ " " ++ t.direction.sql) spec.tokens terms

/-- A condition tests what a spec asks for: its conjuncts are those of the tokens in some order, and
each is about its token's target and nothing else. -/
def TestsConditions (fields : List Field) (source : Source) (spec : FilterSpec)
    (condition : Condition) : Prop :=
  ∃ conjuncts, condition.conjuncts.Perm conjuncts ∧
    List.Forall₂ (fun (t : FilterToken) (conjunct : Conjunct) => ∃ target,
      PermittedTarget fields spec.allowed source t.path target ∧
      conjunct.targets ≠ [] ∧ ∀ x ∈ conjunct.targets, x = target) spec.tokens conjuncts

/-- Terms sort as a spec asks for: each is on its token's target, in its token's direction. -/
def SortsBy (fields : List Field) (source : Source) (spec : SortSpec) (terms : List OrderTerm) :
    Prop :=
  List.Forall₂ (fun (t : SortToken) (term : OrderTerm) =>
    PermittedTarget fields spec.allowed source t.path term.target ∧
    term.direction = t.direction) spec.tokens terms

theorem Access.Columns.permittedColumns {fields : List Field} {allowed : NameSet}
    {path : FieldPath} {names : List String} (h : Access.Columns fields allowed path names) :
    PermittedColumns fields allowed path names := by
  refine ⟨h, ?_⟩
  rintro rfl
  exact h.reachable

namespace Compiler

variable {c : Compiler} {allowed : NameSet}

theorem PlansField.permittedText {path : FieldPath} {f : PlannedField}
    (h : c.PlansField allowed path f) (qualifier : String) :
    PermittedText c.shape.fields allowed qualifier path
      (columnText path.function qualifier f.columns) :=
  ⟨f.columns, h.columns.permittedColumns, rfl⟩

theorem PlansField.permittedTarget {path : FieldPath} {f : PlannedField} {source : Source}
    {target : Target} (h : c.PlansField allowed path f) (ht : f.target source = .ok target) :
    PermittedTarget c.shape.fields allowed source path target := by
  obtain ⟨column, hp, rfl⟩ := PlannedField.target_eq_ok_iff.1 ht
  exact ⟨f.columns, column, h.columns.permittedColumns, hp, by rw [h.path_eq]⟩

/-- All outputs are about permitted columns only. -/
theorem outputs_on_permitted_columns (c : Compiler) :
    (∀ spec qualifier clause, c.compileText spec qualifier = .ok clause →
      WritesConditions c.shape.fields qualifier spec clause.text) ∧
    (∀ spec qualifier text, c.compileSortText spec qualifier = .ok text →
      WritesOrder c.shape.fields qualifier spec text) ∧
    (∀ spec source condition, c.compileCondition spec source = .ok condition →
      TestsConditions c.shape.fields source spec condition) ∧
    (∀ spec source terms, c.compileOrder spec source = .ok terms →
      SortsBy c.shape.fields source spec terms) := by
  refine ⟨?_, ?_, ?_, ?_⟩
  -- The texts are those of the entries of the plan.
  · intro spec qualifier clause h
    obtain ⟨plan, hp, rfl⟩ := compileText_eq_ok_iff.1 h
    refine ⟨plan.map (·.sql qualifier), Clause.text_ofFilters qualifier plan, ?_⟩
    refine List.forall₂_map_right_iff.2 ((planFilters_eq_ok_iff.1 hp).2.imp fun t p htp => ?_)
    exact ⟨_, _, htp.plansField.permittedText qualifier, htp.reads.comparand, htp.sql_eq qualifier⟩
  · intro spec qualifier text h
    obtain ⟨plan, hp, rfl⟩ := compileSortText_eq_ok_iff.1 h
    refine ⟨plan.map (·.sql qualifier), rfl, ?_⟩
    refine List.forall₂_map_right_iff.2 ((planSorts_eq_ok_iff.1 hp).2.imp fun t p htp => ?_)
    exact ⟨_, htp.plansField.permittedText qualifier, htp.sql_eq qualifier⟩
  -- The trees have a target for each entry; grouping changes the order of conjuncts only.
  · intro spec source condition h
    obtain ⟨plan, entries, hp, he, rfl⟩ := compileCondition_eq_ok_iff.1 h
    refine ⟨entries.map Prod.snd, perm_groupBy entries, ?_⟩
    have hboth := forall₂_comp (planFilters_eq_ok_iff.1 hp).2 (entries_eq_ok_iff.1 he)
    refine List.forall₂_map_right_iff.2 (hboth.imp fun t e hte => ?_)
    obtain ⟨p, htp, target, ht, rfl⟩ := hte
    exact ⟨target, htp.plansField.permittedTarget ht, PlannedFilter.targets_conjunctOn htp.reads _ target⟩
  · intro spec source terms h
    obtain ⟨plan, hp, ho⟩ := compileOrder_eq_ok_iff.1 h
    refine (forall₂_comp (planSorts_eq_ok_iff.1 hp).2 ho).imp fun t term hte => ?_
    obtain ⟨p, htp, target, ht, rfl⟩ := hte
    exact ⟨htp.plansField.permittedTarget ht, htp.direction⟩

/-- The sample request, whose second field is not of the shape: it is written and put into a tree
under its own name, and the declared fields under their storage names. -/
theorem outputs_on_permitted_columns_people :
    WritesConditions Sample.people.fields "p." Sample.conditions
      "WHERE LENGTH(p.addr.city_name) IN (?,?) AND p.tenant.key LIKE ? ESCAPE '!'" ∧
    WritesOrder Sample.people.fields "p." Sample.order
      "ORDER BY p.tenant.key DESC, CARDINALITY(p.tags) ASC" ∧
    TestsConditions Sample.people.fields ⟨"people", [("addr", "a"), ("tenant", "t")]⟩
      Sample.conditions
      ⟨[.one (.oneOf ⟨⟨"a", "city_name"⟩, some .length⟩ [.int64 4, .int64 5]),
        .one (.like ⟨⟨"t", "key"⟩, none⟩ "%' OR 1=1%")]⟩ ∧
    SortsBy Sample.people.fields ⟨"people", [("addr", "a"), ("tenant", "t")]⟩ Sample.order
      [⟨⟨⟨"t", "key"⟩, none⟩, .descending⟩, ⟨⟨⟨"people", "tags"⟩, some .size⟩, .ascending⟩] := by
  obtain ⟨htext, hsort, htree, horder⟩ := outputs_on_permitted_columns ⟨Sample.people, {}⟩
  refine ⟨htext Sample.conditions "p." ⟨_, [.int64 4, .int64 5, .text "%' OR 1=1%"]⟩ ?_,
    hsort Sample.order "p." _ ?_, htree Sample.conditions _ _ ?_, horder Sample.order _ _ ?_⟩
  · rfl
  · rfl
  · rfl
  · rfl

end Compiler

end RecordQuery
