import RecordQuery.Like
import RecordQuery.Plan

/-!
# Conditions

The conditions of a plan as a tree of predicates on the columns of tables. A column of the record
itself belongs to the table that is queried; a column of a related record belongs to the alias
under which the relation is joined.

A list field is not compared as a whole but by its elements: some element equals the value, and for
`<>` no element does. The predicates of one storage path are put together, in the order in which
the paths are first named.

1. `perm_groupBy`: grouping loses nothing and adds nothing.
2. `Condition.size_ofEntries`: a condition has one conjunct for each planned filter.
-/
namespace RecordQuery

/-- A column of a table, or of the alias of a joined relation. -/
structure Column where
  table : String
  name : String
  deriving DecidableEq, Repr

/-- A column, or a function of one. -/
structure Target where
  column : Column
  function : Option FieldFunction
  deriving DecidableEq, Repr

/-- Why a path of columns leads nowhere. -/
inductive NavigateFault where
  | emptyPath
  | noJoin (relation : String)
  deriving DecidableEq, Repr

def NavigateFault.message : NavigateFault → String
  | .emptyPath => "empty field path"
  | .noJoin relation => "no join registered for `" ++ relation ++ "`"

/-- The table that is queried, with the aliases under which relations are joined. -/
structure Source where
  table : String
  /-- Storage paths of relations and their aliases; the first entry of a path counts. -/
  joins : List (String × String) := []
  deriving DecidableEq, Repr

namespace Source

/-- Register the alias under which a relation is joined. -/
def join (s : Source) (path joined : String) : Source :=
  { s with joins := s.joins ++ [(path, joined)] }

def alias? (s : Source) (relation : String) : Option String :=
  (s.joins.find? fun j => j.1 == relation).map Prod.snd

/-- The column that a path of storage names leads to. -/
def navigate (s : Source) (columns : List String) : Except NavigateFault Column :=
  match columns.getLast? with
  | none => .error .emptyPath
  | some name =>
    match columns.dropLast with
    | [] => .ok ⟨s.table, name⟩
    | relation =>
      let path := ".".intercalate relation
      match s.alias? path with
      | some joined => .ok ⟨joined, name⟩
      | none => .error (.noJoin path)

end Source

/-- How many elements of a list have to pass a comparison. -/
inductive Quantifier where
  | any
  | all
  deriving DecidableEq, Repr

def Quantifier.sql : Quantifier → String
  | .any => "ANY"
  | .all => "ALL"

/-- A test of one row. -/
inductive Predicate where
  | compare (target : Target) (comparison : Comparison) (value : Value)
  /-- The value compared with the elements of the target, the value on the left. -/
  | member (value : Value) (comparison : Comparison) (quantifier : Quantifier) (target : Target)
  | oneOf (target : Target) (values : List Value)
  | like (target : Target) (pattern : String)
  | null (target : Target)
  | notNull (target : Target)
  deriving DecidableEq

namespace Predicate

/-- The test that an element of the list compares with the value: the value stands on the left, so
the comparison is flipped, and an element that differs from the value is not enough for `<>`. -/
def membership (target : Target) (comparison : Comparison) (value : Value) : Predicate :=
  .member value comparison.flipped (if comparison = .ne then .all else .any) target

end Predicate

/-- A part of a condition: one predicate, or several of which one has to hold. -/
inductive Conjunct where
  | one (predicate : Predicate)
  | anyOf (predicates : List Predicate)
  deriving DecidableEq

/-- A choice of a single predicate is that predicate. -/
def Conjunct.ofChoice : List Predicate → Conjunct
  | [predicate] => .one predicate
  | predicates => .anyOf predicates

/-- Conjuncts that all have to hold. -/
structure Condition where
  conjuncts : List Conjunct
  deriving DecidableEq

namespace PlannedField

/-- The column of the field, or its function of it, in the tables of a source. -/
def target (f : PlannedField) (source : Source) : Except QueryError Target :=
  match source.navigate f.columns with
  | .ok column => .ok ⟨column, f.function⟩
  | .error fault => .error (.resolution f.token f.path.display f.typeName fault.message)

end PlannedField

namespace PlannedFilter

/-- The test of a right-hand side on a target. -/
def conjunctOn (isMembership : Bool) (target : Target) : Operand → Conjunct
  | .compare c value =>
    .one (if isMembership then .membership target c value else .compare target c value)
  | .isIn values =>
    if isMembership then .ofChoice (values.map (.membership target .eq))
    else .one (.oneOf target values)
  | .like raw => .one (.like target (Like.pattern raw false))
  | .is .true => .one (.compare target .eq (.bool true))
  | .is .false => .one (.compare target .eq (.bool false))
  | .is .null => .one (.null target)
  | .is .notNull => .one (.notNull target)

def conjunct (source : Source) (f : PlannedFilter) : Except QueryError Conjunct :=
  (f.field.target source).map fun target => conjunctOn f.field.isMembership target f.operand

end PlannedFilter

/-! ## Grouping -/

/-- Put a member into the group of its key; a new key starts a group at the end. -/
def addToGroup {α : Type} (key : String) (a : α) : List (String × List α) → List (String × List α)
  | [] => [(key, [a])]
  | (k, members) :: rest =>
    if k = key then (k, members ++ [a]) :: rest else (k, members) :: addToGroup key a rest

/-- The members by their keys. Groups come in the order in which their keys first appear, and the
members of a group keep their order. -/
def groupBy {α : Type} (entries : List (String × α)) : List (String × List α) :=
  entries.foldl (fun groups entry => addToGroup entry.1 entry.2 groups) []

theorem perm_addToGroup {α : Type} (key : String) (a : α) (groups : List (String × List α)) :
    ((addToGroup key a groups).flatMap Prod.snd).Perm (groups.flatMap Prod.snd ++ [a]) := by
  induction groups with
  | nil => simp [addToGroup]
  | cons g rest ih =>
    obtain ⟨k, members⟩ := g
    by_cases h : k = key
    · simp only [addToGroup, h, if_true, List.flatMap_cons, List.append_assoc]
      exact List.perm_append_comm.append_left members
    · simp only [addToGroup, h, if_false, List.flatMap_cons, List.append_assoc]
      exact ih.append_left members

/-- Grouping loses nothing and adds nothing. -/
theorem perm_groupBy {α : Type} (entries : List (String × α)) :
    ((groupBy entries).flatMap Prod.snd).Perm (entries.map Prod.snd) := by
  -- The fold starts from any groups, so that the induction can go on from those of the first entry.
  suffices h : ∀ groups : List (String × List α),
      ((entries.foldl (fun groups entry => addToGroup entry.1 entry.2 groups) groups).flatMap
        Prod.snd).Perm (groups.flatMap Prod.snd ++ entries.map Prod.snd) by
    simpa [groupBy] using h []
  induction entries with
  | nil => simp
  | cons entry rest ih =>
    intro groups
    rw [List.foldl_cons, List.map_cons, ← List.singleton_append, ← List.append_assoc]
    exact (ih _).trans ((perm_addToGroup entry.1 entry.2 groups).append_right _)

namespace Condition

/-- The condition without conjuncts, which every row meets. -/
def empty : Condition := ⟨[]⟩

instance : Inhabited Condition := ⟨empty⟩

def and (c d : Condition) : Condition := ⟨c.conjuncts ++ d.conjuncts⟩

def size (c : Condition) : Nat := c.conjuncts.length

def isEmpty (c : Condition) : Bool := c.conjuncts.isEmpty

/-- The conjuncts of a plan with the storage paths that they test. -/
def entries (source : Source) (plan : List PlannedFilter) :
    Except QueryError (List (String × Conjunct)) :=
  collect (fun f => (f.conjunct source).map fun conjunct => (f.field.dotted, conjunct)) plan

/-- The condition of conjuncts with their storage paths. -/
def ofEntries (entries : List (String × Conjunct)) : Condition :=
  ⟨(groupBy entries).flatMap Prod.snd⟩

def ofFilters (source : Source) (plan : List PlannedFilter) : Except QueryError Condition :=
  (entries source plan).map ofEntries

theorem size_ofEntries (entries : List (String × Conjunct)) :
    (ofEntries entries).size = entries.length := by
  simpa [size, ofEntries] using (perm_groupBy entries).length_eq

end Condition

namespace Compiler

def compileCondition (c : Compiler) (spec : FilterSpec) (source : Source) :
    Except QueryError Condition :=
  (c.planFilters spec).bind (Condition.ofFilters source)

end Compiler

end RecordQuery
