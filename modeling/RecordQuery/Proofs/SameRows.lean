import RecordQuery.Proofs.Backends
import RecordQuery.Proofs.DeclaredType
import RecordQuery.Proofs.Reading

/-!
# Two backends, the same rows

What a clause says of a row is what the condition in a tree says of it, whatever the database and
whatever the row holds, as long as the row gives a column the same under its written name and at its
place in the source.

Two things are kept apart from this. A list that is compared as a whole in the text is compared by
its elements in the tree. And a pattern is only escaped in the text, so what is searched for must
not mean anything in a pattern.

1. `Row.Agrees`: one row under both names of its columns.
2. `Compiler.PlansFilter.holds_eq`: one planned condition, written and in the tree.
3. `Compiler.backends_select_same_rows`: the two backends select the same rows.
-/
namespace RecordQuery

/-- A row gives the columns of a spec the same under their written name as at their place. -/
def Row.Agrees (row : Row) (fields : List Field) (source : Source) (qualifier : String)
    (spec : FilterSpec) : Prop :=
  ∀ t ∈ spec.tokens, ∀ names column, Access.Columns fields spec.allowed t.path names →
    source.Placed names column →
    row.written (qualifier ++ ".".intercalate names) = row.placed column

/-- A token that compares a list itself, and not a function of it. -/
structure FilterToken.ComparesList (fields : List Field) (t : FilterToken) : Prop where
  readsValues : t.operator.ReadsValues
  function : t.path.function = none
  declares : ∃ element, Field.Declares fields t.path.segments (.list element)

namespace Sample

/-- A database that compares numbers with numbers and texts with texts. -/
def engine : Engine where
  order
    | .value (.int64 a), .value (.int64 b) =>
      some (if a < b then .lt else if a = b then .eq else .gt)
    | .value (.text a), .value (.text b) =>
      some (if a < b then .lt else if a = b then .eq else .gt)
    | _, _ => none
  call
    | .length, .value (.text s) => some (.value (.int64 (Int64.ofNat s.length)))
    | .size, .list elements => some (.value (.int64 (Int64.ofNat elements.length)))
    | _, _ => none
  text?
    | .value (.text s) => some s
    | _ => none
  backslash := true
  classes := false
  same := (· == ·)

/-- A person who lives in a city of four letters, and what is known of the tenant. -/
def row (key : Option Datum) : Row where
  written
    | "p.addr.city_name" => some (.value (.text "Oslo"))
    | "p.tenant.key" => key
    | _ => none
  placed
    | ⟨"a", "city_name"⟩ => some (.value (.text "Oslo"))
    | ⟨"t", "key"⟩ => key
    | _ => none

theorem agrees_row (key : Option Datum) :
    (row key).Agrees people.fields source "p." conditions := by
  -- Both paths are permitted, so that their columns are those which they are planned with.
  have hplace : ∀ {path f names column},
      PlannedField.ofPath "" (Access.locate people.fields path) = .ok f →
      Access.permits people.fields conditions.allowed path.root = true →
      Access.Columns people.fields conditions.allowed path names → source.Placed names column →
      names = f.columns ∧ source.navigate f.columns = .ok column := by
    intro path f names column hf hp hn hc
    cases hn.unique (Access.columns_of_ofPath hp hf)
    exact ⟨rfl, Source.navigate_eq_ok_iff.2 hc⟩
  refine List.forall_mem_cons.2 ⟨?_, List.forall_mem_singleton.2 ?_⟩
  · intro names column hn hc
    obtain ⟨rfl, hcity⟩ := @hplace cityLength ⟨"", cityLength, ["addr", "city_name"], some .text⟩
      names column rfl rfl hn hc
    cases hcity
    rfl
  · intro names column hn hc
    obtain ⟨rfl, hkey⟩ := @hplace tenantKey ⟨"", tenantKey, ["tenant", "key"], none⟩
      names column rfl rfl hn hc
    cases hkey
    rfl

end Sample

namespace Compiler

variable {c : Compiler} {allowed : NameSet}

/-- The comparison of a token is with elements only if the token compares a list itself. -/
theorem PlansFilter.comparesList {t : FilterToken} {p : PlannedFilter}
    (h : c.PlansFilter allowed t p) (ho : t.operator.ReadsValues)
    (hm : p.field.isMembership = true) : t.ComparesList c.shape.fields := by
  obtain ⟨hfunction, hdeclares⟩ := h.plansField.isMembership_iff.1 hm
  exact ⟨ho, hfunction, hdeclares⟩

/-- A planned condition says of a row as a clause what it says of it in a tree. -/
theorem PlansFilter.holds_eq {t : FilterToken} {p : PlannedFilter} (h : c.PlansFilter allowed t p)
    (hlist : ¬t.ComparesList c.shape.fields)
    (hlike : t.operator = .like → Like.IsPlainText t.value) {qualifier : String} {target : Target}
    {row : Row} (hfun : target.function = p.field.function)
    (hrow : row.written (qualifier ++ p.field.dotted) = row.placed target.column) (e : Engine) :
    (p.test qualifier).holds e row =
      (PlannedFilter.conjunctOn p.field.isMembership target p.operand).holds e row := by
  have hdatum : e.apply p.field.function (row.written (qualifier ++ p.field.dotted)) =
      target.datum e row := by
    rw [hrow, ← hfun]
    rfl
  have hmember : t.operator.ReadsValues → p.field.isMembership = false := fun ho =>
    Bool.eq_false_iff.2 fun hm => hlist (h.comparesList ho hm)
  have hreads := h.reads
  show p.operand.comparand.holds e
    (e.apply p.field.function (row.written (qualifier ++ p.field.dotted))) = _
  rw [hdatum]
  generalize p.operand = operand at hreads
  generalize t.operator = operator at hreads hmember hlike
  cases hreads with
  | @compare comparison _ _ _ =>
    rw [hmember (.compare comparison)]
    rfl
  | isIn _ =>
    rw [hmember .isIn]
    rfl
  | like _ => exact (e.like_plain (hlike rfl) _).symm
  | @is _ literal _ _ => cases literal <;> rfl

/-- The two backends select the same rows. -/
theorem backends_select_same_rows {spec : FilterSpec} {qualifier : String} {source : Source}
    {clause : Clause} {condition : Condition} (ht : c.compileText spec qualifier = .ok clause)
    (hc : c.compileCondition spec source = .ok condition)
    (hlist : ∀ t ∈ spec.tokens, ¬t.ComparesList c.shape.fields)
    (hlike : ∀ t ∈ spec.tokens, t.operator = .like → Like.IsPlainText t.value) :
    ∃ tests, clause.Says tests ∧
      (IsPlain qualifier → (∀ name ∈ c.shape.storageNames, IsPlain name) →
        ∀ others, clause.Says others → (∀ t ∈ others, IsPlain t.column) → others = tests) ∧
      ∀ (e : Engine) (row : Row), row.Agrees c.shape.fields source qualifier spec →
        Truth.all (tests.map (·.holds e row)) = condition.holds e row := by
  obtain ⟨plan, hp, rfl⟩ := compileText_eq_ok_iff.1 ht
  obtain ⟨_, entries, hp', he, rfl⟩ := compileCondition_eq_ok_iff.1 hc
  cases hp.symm.trans hp'
  have hplan := (planFilters_eq_ok_iff.1 hp).2
  refine ⟨plan.map (·.test qualifier), Clause.says_ofFilters qualifier plan, ?_, ?_⟩
  · intro hq hn others hothers hplain
    exact hothers.unique (Clause.says_ofFilters qualifier plan) hplain
      (List.forall_mem_map.2 (forall_mem_of_forall₂ hplan fun t p htp =>
        htp.plansField.columns.isPlain hq hn))
  · intro e row hrow
    -- Each entry of the tree comes from a planned condition, and this from a token.
    have hall : ∀ t ∈ spec.tokens, ∀ p, c.PlansFilter spec.allowed t p → ∀ target,
        p.field.target source = .ok target → (p.test qualifier).holds e row =
          (PlannedFilter.conjunctOn p.field.isMembership target p.operand).holds e row := by
      intro t hmem p htp target htarget
      obtain ⟨column, hplaced, rfl⟩ := PlannedField.target_eq_ok_iff.1 htarget
      exact htp.holds_eq (hlist t hmem) (hlike t hmem) rfl
        (hrow t hmem p.field.columns column htp.plansField.columns hplaced) e
    have hentries : List.Forall₂ (fun (p : PlannedFilter) (entry : String × Conjunct) =>
        (p.test qualifier).holds e row = entry.2.holds e row) plan entries := by
      have hboth := forall_mem_of_forall₂ ((List.forall₂_and_left _ _).2 ⟨hall, hplan⟩)
        fun t p h => h.1 p h.2
      refine ((List.forall₂_and_left _ _).2 ⟨hboth, entries_eq_ok_iff.1 he⟩).imp ?_
      rintro p entry ⟨hp, target, htarget, rfl⟩
      exact hp target htarget
    rw [Condition.holds_ofEntries, List.map_map]
    refine congrArg Truth.all ?_
    rw [← List.forall₂_eq_eq_eq, List.forall₂_map_left_iff, List.forall₂_map_right_iff]
    exact hentries

/-- The sample conditions, for a person in Oslo: a tenant with the text in its key is selected by
both, and when nothing is known of the tenant, neither knows. -/
theorem backends_select_same_rows_people :
    ∃ (clause : Clause) (condition : Condition) (tests : List SqlTest),
      Sample.compiler.compileText Sample.conditions "p." = .ok clause ∧
      Sample.compiler.compileCondition Sample.conditions Sample.source = .ok condition ∧
      clause.Says tests ∧
      (∀ others, clause.Says others → (∀ t ∈ others, IsPlain t.column) → others = tests) ∧
      (∀ key, Truth.all (tests.map (·.holds Sample.engine (Sample.row key))) =
        condition.holds Sample.engine (Sample.row key)) ∧
      condition.holds Sample.engine (Sample.row (some (.value (.text "x' OR 1=1")))) = .true ∧
      condition.holds Sample.engine (Sample.row none) = .unknown := by
  obtain ⟨clause, ht⟩ : ∃ clause,
      Sample.compiler.compileText Sample.conditions "p." = .ok clause := ⟨_, rfl⟩
  have hc : Sample.compiler.compileCondition Sample.conditions Sample.source =
      .ok ⟨[.one (.oneOf ⟨⟨"a", "city_name"⟩, some .length⟩ [.int64 4, .int64 5]),
        .one (.like ⟨⟨"t", "key"⟩, none⟩ "%' OR 1=1%")]⟩ := rfl
  have hlist : ∀ t ∈ Sample.conditions.tokens, ¬t.ComparesList Sample.people.fields := by
    refine List.forall_mem_cons.2 ⟨fun h => ?_, List.forall_mem_singleton.2 fun h => ?_⟩
    · cases h.function
    · cases h.readsValues
  have hlike : ∀ t ∈ Sample.conditions.tokens, t.operator = .like → Like.IsPlainText t.value := by
    decide
  obtain ⟨tests, hsays, hone, hsame⟩ := backends_select_same_rows ht hc hlist hlike
  refine ⟨clause, _, tests, ht, hc, hsays, hone (by decide) (by decide), ?_, ?_, ?_⟩
  · exact fun key => hsame Sample.engine (Sample.row key) (Sample.agrees_row key)
  · decide +kernel
  · decide +kernel

end Compiler

end RecordQuery
