import RecordQuery.Cache
import RecordQuery.Clause
import RecordQuery.Order

/-!
# Compiling with a cache

The compilations of a compiler with a cache of walks passed through them. Only paths with segments
below their root are walks worth keeping. A compilation that fails keeps what it had walked by then.

1. `Cache.fieldOf_of_faithful`: with true entries, fields are those of a compiler without a cache.
2. `Cache.planFilters_of_faithful`, `Cache.planSorts_of_faithful`: so are plans.
3. `Cache.compileText_of_faithful` and the like: so are compilations.
-/
namespace RecordQuery

/-- A compiler whose shape has a place of its own in a cache. -/
structure CachedCompiler extends Compiler where
  /-- The place of the shape's table. -/
  table : Nat

namespace Cache

/-- The position of the field that a name refers to. -/
def position (fields : List Field) (name : String) : Nat := fields.findIdx (·.answersTo name)

/-- Walk below a declared field. -/
def walk (cache : Cache) (place : FieldPlace) (field : Field) (path : FieldPath) :
    Except WalkFault ResolvedField × Cache :=
  if path.isNested then
    let lookup := cache.getOrResolve ⟨place, path.nestedDotted⟩ fun () => field.walk path.nested
    (lookup.result, lookup.cache)
  else (field.walk path.nested, cache)

/-- The field of a permitted path. -/
def fieldOf (c : CachedCompiler) (token : String) (r : ResolvedPath) (cache : Cache) :
    Except QueryError PlannedField × Cache :=
  match r.field with
  | none => (.ok (PlannedField.untyped token r), cache)
  | some field =>
    let walked := cache.walk ⟨c.table, position c.shape.fields r.path.root⟩ field r.path
    (PlannedField.ofWalk token r field walked.1, walked.2)

def planFilter (c : CachedCompiler) (cache : Cache) (p : FilterToken × ResolvedPath) :
    Except QueryError PlannedFilter × Cache :=
  let field := fieldOf c p.1.raw p.2 cache
  (field.1.bind fun f => f.filter p.1, field.2)

def planSort (c : CachedCompiler) (cache : Cache) (p : SortToken × ResolvedPath) :
    Except QueryError PlannedSort × Cache :=
  let field := fieldOf c p.1.raw p.2 cache
  (field.1.bind fun f => f.sort p.1, field.2)

end Cache

namespace CachedCompiler

def planFilters (c : CachedCompiler) (spec : FilterSpec) (cache : Cache) :
    Except QueryError (List PlannedFilter) × Cache :=
  match c.admitFilters spec with
  | .error e => (.error e, cache)
  | .ok pairs => collectState (Cache.planFilter c) cache pairs

def planSorts (c : CachedCompiler) (spec : SortSpec) (cache : Cache) :
    Except QueryError (List PlannedSort) × Cache :=
  match c.admitSorts spec with
  | .error e => (.error e, cache)
  | .ok pairs => collectState (Cache.planSort c) cache pairs

def compileText (c : CachedCompiler) (spec : FilterSpec) (qualifier : String) (cache : Cache) :
    Except QueryError Clause × Cache :=
  let plan := c.planFilters spec cache
  (plan.1.map (Clause.ofFilters qualifier), plan.2)

def compileSortText (c : CachedCompiler) (spec : SortSpec) (qualifier : String) (cache : Cache) :
    Except QueryError String × Cache :=
  let plan := c.planSorts spec cache
  (plan.1.map fun p => (Clause.ofSorts qualifier p).text, plan.2)

def compileCondition (c : CachedCompiler) (spec : FilterSpec) (source : Source) (cache : Cache) :
    Except QueryError Condition × Cache :=
  let plan := c.planFilters spec cache
  (plan.1.bind (Condition.ofFilters source), plan.2)

def compileOrder (c : CachedCompiler) (spec : SortSpec) (source : Source) (cache : Cache) :
    Except QueryError (List OrderTerm) × Cache :=
  let plan := c.planSorts spec cache
  (plan.1.bind (OrderTerm.ofSorts source), plan.2)

end CachedCompiler

/-! ## With true entries -/

/-- Whether a walk arrives there: its key has the place of a field and the joined segments of a
path, and it is the walk along these segments below this field. -/
def WalkKey.Arrives (fieldAt : FieldPlace → Option Field) (key : WalkKey)
    (arrival : ResolvedField) : Prop :=
  ∃ (field : Field) (path : FieldPath), fieldAt key.place = some field ∧ path.isNested = true ∧
    key.nested = path.nestedDotted ∧ field.walk path.nested = .ok arrival

/-- The fields of the compiler's shape are where the cache takes them to be. -/
def CachedCompiler.LiesIn (c : CachedCompiler) (fieldAt : FieldPlace → Option Field) : Prop :=
  ∀ (i : Nat) field, c.shape.fields[i]? = some field → fieldAt ⟨c.table, i⟩ = some field

namespace Cache

theorem getElem?_position {fields : List Field} {name : String} {field : Field}
    (h : Field.lookup fields name = some field) :
    fields[position fields name]? = some field :=
  List.find?_eq_getElem?_findIdx.symm.trans h

variable {fieldAt : FieldPlace → Option Field} {cache : Cache}

/-- With true entries, a walk arrives where it arrives without a cache. -/
theorem walk_of_faithful (hc : cache.Faithful (WalkKey.Arrives fieldAt)) {place : FieldPlace}
    {field : Field} (hf : fieldAt place = some field) (path : FieldPath) :
    (cache.walk place field path).1 = field.walk path.nested ∧
      (cache.walk place field path).2.Faithful (WalkKey.Arrives fieldAt) := by
  unfold walk
  split
  · rename_i hn
    refine ⟨?_, faithful_getOrResolve hc fun arrival ha => ⟨field, path, hf, hn, rfl, ha⟩⟩
    obtain ⟨_, hfound, hg⟩ | ⟨_, _, hfault, hg⟩ | ⟨_, _, hok, hg⟩ :=
      cache.getOrResolve_cases ⟨place, path.nestedDotted⟩ fun () => field.walk path.nested
    · -- An entry of this key is of this field, and of no other segments.
      obtain ⟨other, way, ho, hway, hkey, hw⟩ := hc _ _ hfound
      cases hf.symm.trans ho
      rw [hg, FieldPath.nestedDotted_injective hn hway hkey]
      exact hw.symm
    · rw [hg]
      exact hfault.symm
    · rw [hg]
      exact hok.symm
  · exact ⟨rfl, hc⟩

theorem fieldOf_of_faithful (hc : cache.Faithful (WalkKey.Arrives fieldAt)) {c : CachedCompiler}
    (hl : c.LiesIn fieldAt) (token : String) (path : FieldPath) :
    (fieldOf c token (Access.locate c.shape.fields path) cache).1 =
        PlannedField.ofPath token (Access.locate c.shape.fields path) ∧
      (fieldOf c token (Access.locate c.shape.fields path) cache).2.Faithful
        (WalkKey.Arrives fieldAt) := by
  unfold fieldOf PlannedField.ofPath Access.locate
  cases hf : Field.lookup c.shape.fields path.root with
  | none => exact ⟨rfl, hc⟩
  | some field =>
    have hw := walk_of_faithful hc (hl _ field (getElem?_position hf)) path
    exact ⟨congrArg (PlannedField.ofWalk token ⟨path, field.storageName, some field⟩ field) hw.1,
      hw.2⟩

/-- With true entries, the plan of filters is that of a compiler without a cache. -/
theorem planFilters_of_faithful (hc : cache.Faithful (WalkKey.Arrives fieldAt))
    {c : CachedCompiler} (hl : c.LiesIn fieldAt) (spec : FilterSpec) :
    (c.planFilters spec cache).1 = c.toCompiler.planFilters spec ∧
      (c.planFilters spec cache).2.Faithful (WalkKey.Arrives fieldAt) := by
  unfold CachedCompiler.planFilters Compiler.planFilters
  cases ha : c.admitFilters spec with
  | error e => exact ⟨rfl, hc⟩
  | ok pairs =>
    have hp := (Compiler.admitFilters_ok_iff.1 ha).2.2.2
    refine collectState_of_forall
      (fun (p : FilterToken × ResolvedPath) => Compiler.planFilter p.1 p.2)
      (Faithful · (WalkKey.Arrives fieldAt)) hc fun s hs p hm => ?_
    subst hp
    obtain ⟨t, _, rfl⟩ := List.mem_map.1 hm
    have hf := fieldOf_of_faithful hs hl t.raw t.path
    refine ⟨?_, hf.2⟩
    exact congrArg (fun (r : Except QueryError PlannedField) => r.bind fun f => f.filter t) hf.1

theorem planSorts_of_faithful (hc : cache.Faithful (WalkKey.Arrives fieldAt))
    {c : CachedCompiler} (hl : c.LiesIn fieldAt) (spec : SortSpec) :
    (c.planSorts spec cache).1 = c.toCompiler.planSorts spec ∧
      (c.planSorts spec cache).2.Faithful (WalkKey.Arrives fieldAt) := by
  unfold CachedCompiler.planSorts Compiler.planSorts
  cases ha : c.admitSorts spec with
  | error e => exact ⟨rfl, hc⟩
  | ok pairs =>
    have hp := (Compiler.admitSorts_ok_iff.1 ha).2.2
    refine collectState_of_forall (fun (p : SortToken × ResolvedPath) => Compiler.planSort p.1 p.2)
      (Faithful · (WalkKey.Arrives fieldAt)) hc fun s hs p hm => ?_
    subst hp
    obtain ⟨t, _, rfl⟩ := List.mem_map.1 hm
    have hf := fieldOf_of_faithful hs hl t.raw t.path
    refine ⟨?_, hf.2⟩
    exact congrArg (fun (r : Except QueryError PlannedField) => r.bind fun f => f.sort t) hf.1

section Compilations

variable {c : CachedCompiler}

theorem compileText_of_faithful (hc : cache.Faithful (WalkKey.Arrives fieldAt))
    (hl : c.LiesIn fieldAt) (spec : FilterSpec) (qualifier : String) :
    (c.compileText spec qualifier cache).1 = c.toCompiler.compileText spec qualifier ∧
      (c.compileText spec qualifier cache).2.Faithful (WalkKey.Arrives fieldAt) :=
  (planFilters_of_faithful hc hl spec).imp_left (congrArg (Except.map (Clause.ofFilters qualifier)))

theorem compileCondition_of_faithful (hc : cache.Faithful (WalkKey.Arrives fieldAt))
    (hl : c.LiesIn fieldAt) (spec : FilterSpec) (source : Source) :
    (c.compileCondition spec source cache).1 = c.toCompiler.compileCondition spec source ∧
      (c.compileCondition spec source cache).2.Faithful (WalkKey.Arrives fieldAt) :=
  (planFilters_of_faithful hc hl spec).imp_left
    (congrArg (Except.bind · (Condition.ofFilters source)))

theorem compileSortText_of_faithful (hc : cache.Faithful (WalkKey.Arrives fieldAt))
    (hl : c.LiesIn fieldAt) (spec : SortSpec) (qualifier : String) :
    (c.compileSortText spec qualifier cache).1 = c.toCompiler.compileSortText spec qualifier ∧
      (c.compileSortText spec qualifier cache).2.Faithful (WalkKey.Arrives fieldAt) :=
  (planSorts_of_faithful hc hl spec).imp_left
    (congrArg (Except.map fun plan => (Clause.ofSorts qualifier plan).text))

theorem compileOrder_of_faithful (hc : cache.Faithful (WalkKey.Arrives fieldAt))
    (hl : c.LiesIn fieldAt) (spec : SortSpec) (source : Source) :
    (c.compileOrder spec source cache).1 = c.toCompiler.compileOrder spec source ∧
      (c.compileOrder spec source cache).2.Faithful (WalkKey.Arrives fieldAt) :=
  (planSorts_of_faithful hc hl spec).imp_left (congrArg (Except.bind · (OrderTerm.ofSorts source)))

end Compilations

end Cache

end RecordQuery
