import RecordQuery.Proofs.EitherSpelling
import RecordQuery.Proofs.MergedSpecs
import RecordQuery.Proofs.OneOf

/-!
# The soft-delete guard

A spec is guarded by a condition on the field that marks deleted records, unless it has a condition
on that field already. The guard is a token like any other: it is written, read and merged, so that
its field has to be found again by the name that it was written with. It is, when the name is a
segment and its first bearer is the field itself.

Of the two guards, at most one holds of a row. For a field that is there or not this needs nothing
of the database. A truth value is compared, so the database has to tell the two truth values apart.

1. `FilterSpec.withSoftDelete_of_isAbout`, `FilterSpec.withSoftDelete_of_not_isAbout`: what becomes
   of a spec.
2. `Field.guards_exclusive`: nothing passes both guards.
3. `Compiler.planFilters_concat_guardToken`: the plan of a guarded spec.
4. `FilterSpec.withSoftDelete_guards`: the guard is added when it is needed, once, and is compiled.
-/
namespace RecordQuery

/-! ## The guard -/

namespace Field

variable (f : Field)

/-- The literal that a field is tested for, with a truth value for itself and any other for being
there. -/
def guardLiteral (deleted : Bool) : IsLiteral :=
  match f.type.isBool, deleted with
  | true, true => .true
  | true, false => .false
  | false, true => .notNull
  | false, false => .null

/-- What the guard reads beside the column. -/
def guardWords : Bool → String
  | true => if f.type.isBool then "= true" else "IS NOT NULL"
  | false => if f.type.isBool then "= false" else "IS NULL"

/-- The guard as a test of the field's column. -/
def guard (qualifier : String) (deleted : Bool) : SqlTest :=
  ⟨none, qualifier ++ f.storageName, (Operand.is (f.guardLiteral deleted)).comparand⟩

/-- The guard in a tree. -/
def guardOn (source : Source) (deleted : Bool) : Conjunct :=
  PlannedFilter.conjunctOn false ⟨⟨source.table, f.storageName⟩, none⟩
    (.is (f.guardLiteral deleted))

theorem sql_guardLiteral (deleted : Bool) :
    (f.guardLiteral deleted).sql = f.guardWords deleted := by
  unfold guardLiteral guardWords
  cases deleted <;> cases f.type.isBool <;> rfl

variable {f}

/-- The path of a field whose name is a segment. -/
def path (h : IsSegment f.name) : FieldPath := ⟨f.name, [], none, List.forall_mem_singleton.2 h⟩

/-- The token that the guard is written as. -/
def guardToken (h : IsSegment f.name) (deleted : Bool) : FilterToken :=
  .on (path h) .is (f.guardLiteral deleted).name

theorem display_path (h : IsSegment f.name) : (path h).display = f.name := by
  show ".".intercalate [f.name] ++ "" = f.name
  rw [String.intercalate_singleton, String.append_empty]

end Field

namespace FilterSpec

/-- Some token of the spec is on the field, by its name or by its alias. -/
def IsAbout (spec : FilterSpec) (f : Field) : Prop := ∃ t ∈ spec.tokens, f.Answers t.path.root

variable {shape : Shape} {f : Field} {spec : FilterSpec}

theorem any_answersTo_iff : spec.roots.any f.answersTo = true ↔ spec.IsAbout f := by
  simp [roots, IsAbout, Field.answersTo_iff]

theorem softDelete_eq (h : IsSegment f.name) (deleted : Bool) :
    softDelete f deleted = .ok (.ofTokens [Field.guardToken h deleted]) := by
  have hread := @FilterToken.ofParts_display (Field.path h) .is (f.guardLiteral deleted).name
    fun _ => ⟨_, rfl⟩
  rw [Field.display_path] at hread
  show (FilterToken.ofParts f.name .is (f.guardLiteral deleted).name).map _ = _
  rw [hread]
  rfl

/-- A spec that is on the field stays as it is, and any other gets the guard. -/
theorem withSoftDelete_of_isAbout (hf : shape.softDeleteField? = some f) (ha : spec.IsAbout f)
    (deleted : Bool) : spec.withSoftDelete shape deleted = .ok spec := by
  unfold withSoftDelete
  rw [hf]
  exact if_pos (any_answersTo_iff.2 ha)

theorem withSoftDelete_of_not_isAbout (hf : shape.softDeleteField? = some f)
    (h : IsSegment f.name) (ha : ¬spec.IsAbout f) (deleted : Bool) :
    spec.withSoftDelete shape deleted =
      .ok (spec.concat (.ofTokens [Field.guardToken h deleted])) := by
  unfold withSoftDelete
  rw [hf]
  dsimp only
  rw [if_neg (mt any_answersTo_iff.1 ha), softDelete_eq h]
  rfl

/-- A spec with the guard is on the field. -/
theorem isAbout_concat (h : IsSegment f.name) (deleted : Bool) :
    (spec.concat (.ofTokens [Field.guardToken h deleted])).IsAbout f :=
  ⟨_, List.mem_append_right _ List.mem_cons_self, .inl rfl⟩

end FilterSpec

/-! ## Rows -/

/-- A database tells the truth values apart: truth values that are equal to one thing are equal to
each other, and the two of them are not. Nothing is asked of its equality beyond truth values. -/
structure Engine.TellsTruth (e : Engine) : Prop where
  equal_of_equal : ∀ a x y, e.order a (.value (.bool x)) = some .eq →
    e.order a (.value (.bool y)) = some .eq →
    e.order (.value (.bool x)) (.value (.bool y)) = some .eq
  apart : e.order (.value (.bool true)) (.value (.bool false)) ≠ some .eq

theorem Engine.compare_eq_iff {e : Engine} {a b : Option Datum} :
    e.compare .eq a b = .true ↔ ∃ x y, a = some x ∧ b = some y ∧ e.order x y = some .eq := by
  unfold compare
  cases a with
  | none => exact iff_of_false nofun nofun
  | some x =>
    cases b with
    | none => exact iff_of_false nofun nofun
    | some y =>
      simp only [Option.bind_some, Option.some.injEq, exists_eq_left', exists_and_left]
      cases e.order x y with
      | none => exact iff_of_false nofun nofun
      | some o => cases o <;> simp [Comparison.accepts, Truth.ofOption, Truth.ofBool]

namespace Field

variable {f : Field} {e : Engine}

/-- Nothing that a column holds passes both guards. -/
theorem guards_exclusive (he : f.type = .bool → e.TellsTruth) (a : Option Datum) :
    ¬((Operand.is (f.guardLiteral true)).comparand.holds e a = .true ∧
      (Operand.is (f.guardLiteral false)).comparand.holds e a = .true) := by
  rintro ⟨htrue, hfalse⟩
  cases hb : f.type.isBool with
  | true =>
    have hlaws := he (FieldType.isBool_iff.1 hb)
    simp only [guardLiteral, hb, Operand.comparand, SqlComparand.holds] at htrue hfalse
    obtain ⟨x, _, hx, hv, hequal⟩ := Engine.compare_eq_iff.1 htrue
    obtain ⟨y, _, hy, hw, hother⟩ := Engine.compare_eq_iff.1 hfalse
    cases hx.symm.trans hy
    cases hv
    cases hw
    exact hlaws.apart (hlaws.equal_of_equal _ _ _ hequal hother)
  | false =>
    simp only [guardLiteral, hb, Operand.comparand, SqlComparand.holds] at htrue hfalse
    cases a with
    | none => cases htrue
    | some x => cases hfalse

/-- In a tree the guard says of its column what it says in a text. -/
theorem holds_guardOn (source : Source) (deleted : Bool) (row : Row) :
    (f.guardOn source deleted).holds e row =
      (Operand.is (f.guardLiteral deleted)).comparand.holds e
        (row.placed ⟨source.table, f.storageName⟩) := by
  unfold guardOn
  cases f.guardLiteral deleted <;> rfl

end Field

/-! ## The plan of the guard -/

namespace Field

variable {f : Field}

/-- The entry of the guard in a plan. -/
def guardPlan (h : IsSegment f.name) (deleted : Bool) : PlannedFilter :=
  ⟨⟨(guardToken h deleted).raw, path h, [f.storageName], some f.type⟩, .is (f.guardLiteral deleted)⟩

theorem test_guardPlan (h : IsSegment f.name) (deleted : Bool) (qualifier : String) :
    (guardPlan h deleted).test qualifier = f.guard qualifier deleted := by
  show (⟨none, qualifier ++ ".".intercalate [f.storageName], _⟩ : SqlTest) = _
  rw [String.intercalate_singleton]
  rfl

theorem clause_guardPlan (h : IsSegment f.name) (deleted : Bool) (qualifier : String) :
    (guardPlan h deleted).clause qualifier =
      ⟨qualifier ++ f.storageName ++ " " ++ f.guardWords deleted, []⟩ := by
  show (⟨qualifier ++ ".".intercalate [f.storageName] ++ " " ++ (f.guardLiteral deleted).sql, []⟩ :
    Clause) = _
  rw [String.intercalate_singleton, sql_guardLiteral]

/-- The guard is written with its column and its words. -/
theorem text_guard (h : IsSegment f.name) (deleted : Bool) (qualifier : String) :
    (f.guard qualifier deleted).text =
      qualifier ++ f.storageName ++ " " ++ f.guardWords deleted := by
  rw [← test_guardPlan h, PlannedFilter.text_test]
  exact congrArg Clause.text (clause_guardPlan h deleted qualifier)

theorem takesLiteral_guardLiteral (deleted : Bool) :
    PlannedField.takesLiteral (f.guardLiteral deleted) (some f.type) = true := by
  unfold guardLiteral
  cases hb : f.type.isBool <;> cases deleted <;> simp [PlannedField.takesLiteral, hb,
    IsLiteral.isBoolean]

theorem length_guardLiteral_le (deleted : Bool) : (f.guardLiteral deleted).name.length ≤ 8 := by
  cases f.guardLiteral deleted <;> decide

/-- A field that its name leads to is planned for the guard, unless it is a relation. -/
theorem planFilter_guardToken {fields : List Field} (h : IsSegment f.name)
    (hfirst : IsFirst fields f.name f) (htype : ∀ nested, f.type ≠ .relation nested)
    (deleted : Bool) :
    Compiler.planFilter (guardToken h deleted) (Access.locate fields (path h)) =
      .ok (guardPlan h deleted) := by
  have hrelation : f.type.isRelation = false :=
    Bool.eq_false_iff.2 fun hr => (FieldType.isRelation_iff.1 hr).elim htype
  have hlocate : Access.locate fields (path h) = ⟨path h, f.storageName, some f⟩ :=
    Access.locate_of_isFirst hfirst
  rw [hlocate]
  refine Compiler.planFilter_eq_ok_iff.2 ⟨?_, rfl, ?_⟩
  · refine PlannedField.ofPath_eq_ok_iff.2 (.inr ⟨f, ⟨f.type, []⟩, rfl, rfl, ?_, rfl⟩)
    rw [hrelation]
    rfl
  · exact .is (IsLiteral.parse_name _) (takesLiteral_guardLiteral deleted)

end Field

/-! ## Guarded specs -/

namespace Compiler

variable {c : Compiler} {f : Field} {spec : FilterSpec}

/-- What is compiled of a spec before and after it was guarded: the guard is the last condition of
the text and one more conjunct of the tree. -/
structure CompilesGuarded (c : Compiler) (f : Field) (deleted : Bool) (spec guarded : FilterSpec) :
    Prop where
  text : ∀ qualifier clause, c.compileText spec qualifier = .ok clause →
    ∃ conditions, c.Conditions spec qualifier conditions ∧ clause = .ofConditions conditions ∧
      (spec.IsAbout f → c.compileText guarded qualifier = .ok clause) ∧
      (¬spec.IsAbout f → c.compileText guarded qualifier = .ok (.ofConditions
        (conditions ++ [⟨qualifier ++ f.storageName ++ " " ++ f.guardWords deleted, []⟩])))
  tree : ∀ source condition, c.compileCondition spec source = .ok condition →
    ∃ made, c.compileCondition guarded source = .ok made ∧
      (spec.IsAbout f → made = condition) ∧
      (¬spec.IsAbout f → made.conjuncts.Perm (condition.conjuncts ++ [f.guardOn source deleted]))

/-- A spec that stays as it is is compiled as it was. -/
theorem compilesGuarded_of_isAbout (ha : spec.IsAbout f) (deleted : Bool) :
    c.CompilesGuarded f deleted spec spec where
  text qualifier clause h := by
    obtain ⟨plan, hp, rfl⟩ := compileText_eq_ok_iff.1 h
    exact ⟨_, conditions_of_planFilters hp, Clause.ofFilters_eq qualifier plan, fun _ => h,
      fun hn => absurd ha hn⟩
  tree _ condition h := ⟨condition, h, fun _ => rfl, fun hn => absurd ha hn⟩

/-- The column of the guard is in the table that is queried. -/
theorem entries_guardPlan (h : IsSegment f.name) (deleted : Bool) (source : Source) :
    Condition.entries source [Field.guardPlan h deleted] =
      .ok [((Field.guardPlan h deleted).field.dotted, f.guardOn source deleted)] := by
  refine entries_eq_ok_iff.2 (.cons ⟨⟨⟨source.table, f.storageName⟩, none⟩, ?_, ?_⟩ .nil)
  · exact PlannedField.target_eq_ok_iff.2 ⟨_, .root, rfl⟩
  · unfold Field.guardOn Field.guardPlan
    cases f.guardLiteral deleted <;> rfl

section Appended

variable (h : IsSegment f.name) (hfirst : Field.IsFirst c.shape.fields f.name f)
  (htype : ∀ nested, f.type ≠ .relation nested)
  (hcount : ∀ l, c.config.maxFilterParams = some l → spec.size + 1 ≤ l)
  (hlength : 8 ≤ c.config.maxValueLength) (deleted : Bool)

include hfirst htype hcount hlength

/-- The plan of a spec with the guard is the plan of the spec with that of the guard after it. -/
theorem planFilters_concat_guardToken {plan : List PlannedFilter}
    (hp : c.planFilters spec = .ok plan) :
    c.planFilters (spec.concat (.ofTokens [Field.guardToken h deleted])) =
      .ok (plan ++ [Field.guardPlan h deleted]) := by
  have hone : ∀ l, c.config.maxFilterParams = some l → 1 ≤ l :=
    fun l hl => Nat.le_trans (Nat.le_add_left 1 _) (hcount l hl)
  have hshort := Nat.le_trans (f.length_guardLiteral_le deleted) hlength
  have hpermitted : Access.permits c.shape.fields ∅ f.name = true :=
    Access.permits_iff.2 (.inl ⟨f, hfirst.mem, hfirst.answers⟩)
  have hplanned := Field.planFilter_guardToken h hfirst htype deleted
  have hguard : c.planFilters (.ofTokens [Field.guardToken h deleted]) =
      .ok [Field.guardPlan h deleted] :=
    planFilters_eq_ok_iff.2 ⟨hone, .cons ⟨hshort, hpermitted, hplanned⟩ .nil⟩
  exact planFilters_concat hcount hp hguard

theorem compilesGuarded_concat (ha : ¬spec.IsAbout f) :
    c.CompilesGuarded f deleted spec (spec.concat (.ofTokens [Field.guardToken h deleted])) where
  text qualifier clause hc := by
    obtain ⟨plan, hp, rfl⟩ := compileText_eq_ok_iff.1 hc
    have hplan := planFilters_concat_guardToken h hfirst htype hcount hlength deleted hp
    refine ⟨_, conditions_of_planFilters hp, Clause.ofFilters_eq qualifier plan,
      fun hn => absurd hn ha, fun _ => compileText_eq_ok_iff.2 ⟨_, hplan, ?_⟩⟩
    rw [Clause.ofFilters_eq, List.map_append, List.map_singleton, Field.clause_guardPlan]
    rfl
  tree source condition hc := by
    obtain ⟨plan, entries, hp, he, rfl⟩ := compileCondition_eq_ok_iff.1 hc
    have hplan := planFilters_concat_guardToken h hfirst htype hcount hlength deleted hp
    have hentries := entries_eq_ok_iff.2 (List.rel_append (entries_eq_ok_iff.1 he)
      (entries_eq_ok_iff.1 (entries_guardPlan h deleted source)))
    refine ⟨_, compileCondition_eq_ok_iff.2 ⟨_, _, hplan, hentries, rfl⟩,
      fun hn => absurd hn ha, fun _ => (perm_groupBy _).trans ?_⟩
    -- Grouping may move the guard beside another condition on its column, but loses nothing.
    rw [List.map_append]
    exact (perm_groupBy entries).symm.append_right _

end Appended

end Compiler

namespace FilterSpec

variable {shape : Shape} {f : Field}

/-- The guard is added when it is needed, and once. What was asked for already is asked for as
before, with the guard after it, and of the guards for deleted records and for the others no row
passes both. -/
theorem withSoftDelete_guards (hf : shape.softDeleteField? = some f) (hname : IsSegment f.name)
    (hfirst : Field.IsFirst shape.fields f.name f) (htype : ∀ nested, f.type ≠ .relation nested)
    (spec : FilterSpec) (deleted : Bool) :
    ∃ guarded, spec.withSoftDelete shape deleted = .ok guarded ∧
      (spec.IsAbout f → guarded = spec) ∧
      (¬spec.IsAbout f → ∃ token, guarded.tokens = spec.tokens ++ [token]) ∧
      (∀ again, guarded.withSoftDelete shape again = .ok guarded) ∧
      (∀ c : Compiler, c.shape = shape →
        (∀ l, c.config.maxFilterParams = some l → spec.size + 1 ≤ l) →
        8 ≤ c.config.maxValueLength → c.CompilesGuarded f deleted spec guarded) ∧
      (∀ qualifier d, (f.guard qualifier d).text =
        qualifier ++ f.storageName ++ " " ++ f.guardWords d) ∧
      ∀ (e : Engine) (row : Row), (f.type = .bool → e.TellsTruth) →
        (∀ qualifier, ¬((f.guard qualifier true).holds e row = .true ∧
          (f.guard qualifier false).holds e row = .true)) ∧
        ∀ source, ¬((f.guardOn source true).holds e row = .true ∧
          (f.guardOn source false).holds e row = .true) := by
  have htext : ∀ qualifier d, (f.guard qualifier d).text =
      qualifier ++ f.storageName ++ " " ++ f.guardWords d :=
    fun qualifier d => Field.text_guard hname d qualifier
  have hrows : ∀ (e : Engine) (row : Row), (f.type = .bool → e.TellsTruth) →
      (∀ qualifier, ¬((f.guard qualifier true).holds e row = .true ∧
        (f.guard qualifier false).holds e row = .true)) ∧
      ∀ source, ¬((f.guardOn source true).holds e row = .true ∧
        (f.guardOn source false).holds e row = .true) := by
    intro e row he
    refine ⟨fun qualifier => Field.guards_exclusive he _, fun source => ?_⟩
    rw [Field.holds_guardOn, Field.holds_guardOn]
    exact Field.guards_exclusive he _
  by_cases ha : spec.IsAbout f
  · refine ⟨spec, withSoftDelete_of_isAbout hf ha deleted, fun _ => rfl, fun hn => absurd ha hn,
      fun again => withSoftDelete_of_isAbout hf ha again, ?_, htext, hrows⟩
    exact fun c _ _ _ => Compiler.compilesGuarded_of_isAbout ha deleted
  · refine ⟨_, withSoftDelete_of_not_isAbout hf hname ha deleted, fun h => absurd h ha,
      fun _ => ⟨_, rfl⟩, withSoftDelete_of_isAbout hf (isAbout_concat hname deleted), ?_, htext,
      hrows⟩
    rintro c rfl hcount hlength
    exact Compiler.compilesGuarded_concat hname hfirst htype hcount hlength deleted ha

end FilterSpec

namespace Sample

/-- A database that compares truth values. -/
def truthEngine : Engine where
  order
    | .value (.bool a), .value (.bool b) => some (compare a b)
    | _, _ => none
  call _ _ := none
  text? _ := none
  backslash := false
  classes := false
  same := (· == ·)

theorem tellsTruth_truthEngine : truthEngine.TellsTruth := by
  have hsame : ∀ a b, truthEngine.order a b = some .eq → a = b := by
    intro a b h
    unfold truthEngine at h
    dsimp only at h
    split at h
    · rename_i x y
      have hxy : x = y := by
        revert h
        cases x <;> cases y <;> decide
      rw [hxy]
    · cases h
  refine ⟨fun a x y hx hy => ?_, by decide⟩
  cases hsame a _ hx
  exact hy

/-- The field that marks a record of the archive as removed. -/
def removed : Field :=
  { name := "removed", type := .bool, storedAs := some "is_removed", softDelete := true }

/-- A record of the archive, with its mark. -/
def archived (mark : Bool) : Row where
  written
    | "is_removed" => some (.value (.bool mark))
    | _ => none
  placed _ := none

end Sample

namespace FilterSpec

/-- The sample request for a city, guarded against what is removed: the guard is on the column that
the mark is renamed to, it is not added twice, and a record that passes it does not pass the other
one. -/
theorem withSoftDelete_guards_archive :
    ∃ guarded, withSoftDelete ⟨[Sample.cityByName], ∅⟩ Sample.archive false = .ok guarded ∧
      guarded.withSoftDelete Sample.archive true = .ok guarded ∧ guarded.size = 2 ∧
      (∃ conditions, Sample.archivist.compileText guarded "" =
        .ok (.ofConditions (conditions ++ [⟨"is_removed = false", []⟩]))) ∧
      (Sample.removed.guard "" false).holds Sample.truthEngine (Sample.archived false) = .true ∧
      (Sample.removed.guard "" true).holds Sample.truthEngine (Sample.archived false) ≠ .true := by
  have hneeded : ¬IsAbout ⟨[Sample.cityByName], ∅⟩ Sample.removed := by
    rintro ⟨t, ht, hanswers⟩
    cases List.mem_singleton.1 ht
    exact absurd (Field.answersTo_iff.2 hanswers) (by decide)
  have hfirst : Field.IsFirst Sample.archive.fields Sample.removed.name Sample.removed :=
    Field.lookup_eq_some_iff.1 rfl
  obtain ⟨guarded, hguarded, _, happended, honce, hcompiled, _, hrows⟩ :=
    @withSoftDelete_guards Sample.archive Sample.removed rfl (by decide) hfirst nofun
      ⟨[Sample.cityByName], ∅⟩ false
  obtain ⟨token, htokens⟩ := happended hneeded
  have hcompiles := hcompiled Sample.archivist rfl nofun (by decide)
  obtain ⟨conditions, _, _, _, htext⟩ := hcompiles.text "" _ rfl
  have hholds : (Sample.removed.guard "" false).holds Sample.truthEngine (Sample.archived false) =
      .true := by decide
  refine ⟨guarded, hguarded, honce true, ?_, ⟨conditions, htext hneeded⟩, hholds, fun h => ?_⟩
  · show guarded.tokens.length = 2
    rw [htokens]
    rfl
  · exact (hrows Sample.truthEngine (Sample.archived false)
      fun _ => Sample.tellsTruth_truthEngine).1 "" ⟨h, hholds⟩

end FilterSpec

end RecordQuery
