import RecordQuery.ListQuery
import RecordQuery.Proofs.StoragePath

/-!
# Trees, entry by entry

What a condition and an order say about the plan that they come from: the columns of a path have one
place among the tables of a source, and a condition has one conjunct for every entry of the plan, in
which no other place appears.

1. `Source.Placed`: the place of columns. `Source.navigate_eq_ok_iff`: navigation finds it.
2. `Compiler.compileCondition_eq_ok_iff`, `Compiler.compileOrder_eq_ok_iff`: what trees are made of.
3. `PlannedFilter.targets_conjunctOn`: the targets of a conjunct.
4. `ListQuery.apply_eq_ok_iff`: what a whole request puts on a select.
-/
namespace RecordQuery

namespace Source

/-- The alias of the first join that is registered for a path. -/
def IsFirstJoin (s : Source) (path joined : String) : Prop :=
  ∃ front back, s.joins = front ++ (path, joined) :: back ∧ ∀ j ∈ front, j.1 ≠ path

/-- The place of columns among the tables of a source. A single column belongs to the table that is
queried. Of several, the last belongs to the relation that is joined for those before it. -/
inductive Placed (s : Source) : List String → Column → Prop
  | root {name : String} : Placed s [name] ⟨s.table, name⟩
  | joined {relation : List String} {name joined : String} :
      relation ≠ [] → s.IsFirstJoin (".".intercalate relation) joined →
      Placed s (relation ++ [name]) ⟨joined, name⟩

theorem alias?_eq_some_iff {s : Source} {path joined : String} :
    s.alias? path = some joined ↔ s.IsFirstJoin path joined := by
  unfold alias? IsFirstJoin
  rw [Option.map_eq_some_iff]
  constructor
  · rintro ⟨⟨p, a⟩, hf, rfl⟩
    obtain ⟨hp, front, back, hj, hn⟩ := List.find?_eq_some_iff_append.1 hf
    have hpath : p = path := by simpa using hp
    subst hpath
    exact ⟨front, back, hj, fun j hm => by simpa using hn j hm⟩
  · rintro ⟨front, back, hj, hn⟩
    refine ⟨(path, joined), List.find?_eq_some_iff_append.2 ⟨by simp, front, back, hj, ?_⟩, rfl⟩
    exact fun j hm => by simpa using hn j hm

theorem exists_isFirstJoin {s : Source} {path joined : String} (h : (path, joined) ∈ s.joins) :
    ∃ first, s.IsFirstJoin path first := by
  cases ha : s.alias? path with
  | some first => exact ⟨first, alias?_eq_some_iff.1 ha⟩
  | none =>
    have hn := List.find?_eq_none.1 (Option.map_eq_none_iff.1 ha) _ h
    simp at hn

/-- Navigation finds the place of columns, where there is one. -/
theorem navigate_eq_ok_iff {s : Source} {names : List String} {column : Column} :
    s.navigate names = .ok column ↔ s.Placed names column := by
  constructor
  · intro h
    -- The source looks from the end: the last name, and the relation before it.
    rcases List.eq_nil_or_concat names with rfl | ⟨relation, name, rfl⟩
    · cases h
    · unfold navigate at h
      simp only [List.concat_eq_append, List.getLast?_append, List.getLast?_singleton,
        Option.some_or, List.dropLast_concat] at h
      cases relation with
      | nil =>
        cases h
        exact .root
      | cons head rest =>
        dsimp only at h
        split at h
        · rename_i joined ha
          cases h
          rw [List.concat_eq_append]
          exact .joined (List.cons_ne_nil head rest) (alias?_eq_some_iff.1 ha)
        · cases h
  · intro h
    cases h with
    | root => rfl
    | @joined relation name joined hr hj =>
      unfold navigate
      simp only [List.getLast?_append, List.getLast?_singleton, Option.some_or,
        List.dropLast_concat]
      cases relation with
      | nil => exact absurd rfl hr
      | cons head rest =>
        rw [alias?_eq_some_iff.2 hj]

end Source

/-! ## Targets -/

namespace PlannedField

theorem target_eq_ok_iff {f : PlannedField} {source : Source} {target : Target} :
    f.target source = .ok target ↔
      ∃ column, source.Placed f.columns column ∧ target = ⟨column, f.path.function⟩ := by
  simp only [← Source.navigate_eq_ok_iff]
  unfold PlannedField.target PlannedField.function
  split
  · rename_i column hn
    simp [hn, eq_comm]
  · rename_i fault hn
    simp [hn]

end PlannedField

namespace Predicate

/-- What a predicate is about. -/
def target : Predicate → Target
  | .compare target _ _ => target
  | .member _ _ _ target => target
  | .oneOf target _ => target
  | .like target _ => target
  | .null target => target
  | .notNull target => target

end Predicate

namespace Conjunct

def predicates : Conjunct → List Predicate
  | .one predicate => [predicate]
  | .anyOf predicates => predicates

def targets (conjunct : Conjunct) : List Target := conjunct.predicates.map Predicate.target

@[simp]
theorem predicates_ofChoice (ps : List Predicate) : (ofChoice ps).predicates = ps := by
  unfold ofChoice
  split <;> rfl

end Conjunct

/-- A conjunct is about its own target only, and it is about something. -/
theorem PlannedFilter.targets_conjunctOn {f : PlannedField} {operator : Operator} {raw : String}
    {o : Operand} (h : f.Reads operator raw o) (isMembership : Bool) (target : Target) :
    (conjunctOn isMembership target o).targets ≠ [] ∧
      ∀ x ∈ (conjunctOn isMembership target o).targets, x = target := by
  cases h with
  | compare _ => cases isMembership <;> simp [conjunctOn, Conjunct.targets, Conjunct.predicates,
      Predicate.target, Predicate.membership]
  | @isIn _ vs hvs =>
    have hne : vs ≠ [] := by
      rintro rfl
      cases hvs
    cases isMembership with
    | false => simp [conjunctOn, Conjunct.targets, Conjunct.predicates, Predicate.target]
    | true => simp [conjunctOn, Conjunct.targets, Predicate.target, Predicate.membership, hne]
  | like _ => simp [conjunctOn, Conjunct.targets, Conjunct.predicates, Predicate.target]
  | @is _ literal _ _ => cases literal <;>
      simp [conjunctOn, Conjunct.targets, Conjunct.predicates, Predicate.target]

/-! ## Conditions and orders -/

namespace Compiler

variable {c : Compiler}

theorem entries_eq_ok_iff {source : Source} {plan : List PlannedFilter}
    {entries : List (String × Conjunct)} :
    Condition.entries source plan = .ok entries ↔
      List.Forall₂ (fun p e => ∃ target, p.field.target source = .ok target ∧
        e = (p.field.dotted, PlannedFilter.conjunctOn p.field.isMembership target p.operand))
        plan entries := by
  unfold Condition.entries
  rw [collect_eq_ok_iff_forall₂]
  refine iff_of_eq (congrArg (List.Forall₂ · plan entries) ?_)
  funext p e
  simp only [map_eq_ok_iff, PlannedFilter.conjunct, eq_iff_iff]
  constructor
  · rintro ⟨_, ⟨target, ht, rfl⟩, rfl⟩
    exact ⟨target, ht, rfl⟩
  · rintro ⟨target, ht, rfl⟩
    exact ⟨_, ⟨target, ht, rfl⟩, rfl⟩

/-- A condition has the conjuncts of the entries of its plan. -/
theorem compileCondition_eq_ok_iff {spec : FilterSpec} {source : Source} {condition : Condition} :
    c.compileCondition spec source = .ok condition ↔
      ∃ plan entries, c.planFilters spec = .ok plan ∧
        Condition.entries source plan = .ok entries ∧ Condition.ofEntries entries = condition := by
  unfold compileCondition Condition.ofFilters
  simp only [bind_eq_ok_iff, map_eq_ok_iff]
  constructor
  · rintro ⟨plan, hp, entries, he, rfl⟩
    exact ⟨plan, entries, hp, he, rfl⟩
  · rintro ⟨plan, entries, hp, he, rfl⟩
    exact ⟨plan, hp, entries, he, rfl⟩

theorem compileOrder_eq_ok_iff {spec : SortSpec} {source : Source} {terms : List OrderTerm} :
    c.compileOrder spec source = .ok terms ↔
      ∃ plan, c.planSorts spec = .ok plan ∧
        List.Forall₂ (fun p term => ∃ target, p.field.target source = .ok target ∧
          ⟨target, p.direction⟩ = term) plan terms := by
  unfold compileOrder OrderTerm.ofSorts
  simp only [bind_eq_ok_iff, collect_eq_ok_iff_forall₂, map_eq_ok_iff]

end Compiler

namespace ListQuery

/-- A request is put on a select when its three parts are there. -/
theorem apply_eq_ok_iff {q : ListQuery} {c : Compiler} {source : Source} {select result : Select} :
    q.apply c source select = .ok result ↔
      ∃ condition order window, c.compileCondition q.filter source = .ok condition ∧
        c.compileOrder q.sort source = .ok order ∧ q.pagination.window? = .ok window ∧
        result = ((select.filter condition).orderBy order).page window := by
  constructor
  · intro h
    obtain ⟨condition, hc, h⟩ := bind_eq_ok_iff.1 h
    obtain ⟨order, ho, h⟩ := bind_eq_ok_iff.1 h
    obtain ⟨window, hw, h⟩ := bind_eq_ok_iff.1 h
    cases h
    exact ⟨condition, order, window, hc, ho, hw, rfl⟩
  · rintro ⟨condition, order, window, hc, ho, hw, rfl⟩
    exact bind_eq_ok_iff.2 ⟨condition, hc, bind_eq_ok_iff.2 ⟨order, ho,
      bind_eq_ok_iff.2 ⟨window, hw, rfl⟩⟩⟩

end ListQuery

end RecordQuery
