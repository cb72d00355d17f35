import RecordQuery.Error
import RecordQuery.Path
import RecordQuery.Shape

/-!
# Access

Which fields a request may name. A path is permitted when its root answers to a declared field or
is allowed by name; the segments below the root are checked later, when the path is typed. A
declared root is replaced by the field's storage name, an allowed one stays as it is.

1. `check_ok_iff`: the check passes exactly when every path is permitted.
2. `check_error_iff`: otherwise every root that is not permitted is reported, and no other.
3. `resolve_eq`: the places of permitted paths are in line with the paths.
-/
namespace RecordQuery

/-- A path whose root is permitted. -/
structure ResolvedPath where
  /-- The path as the request wrote it. -/
  path : FieldPath
  /-- The storage name of the root. -/
  root : String
  /-- The declared field; `none` when the root is only allowed by name. -/
  field : Option Field

namespace Access

/-- Whether a root is declared or allowed. -/
def permits (fields : List Field) (allowed : NameSet) (root : String) : Bool :=
  (Field.lookup fields root).isSome || decide (root ∈ allowed)

/-- The place of a permitted path. -/
def locate (fields : List Field) (path : FieldPath) : ResolvedPath :=
  match Field.lookup fields path.root with
  | some field => ⟨path, field.storageName, some field⟩
  | none => ⟨path, path.root, none⟩

/-- The roots that are neither declared nor allowed. -/
def offenders (fields : List Field) (allowed : NameSet) (paths : List FieldPath) : List String :=
  (paths.map (·.root)).filter fun root => !permits fields allowed root

/-- Fails with every root that is not permitted, if there is one. -/
def check (kind : ParamKind) (fields : List Field) (allowed : NameSet) (paths : List FieldPath) :
    Except QueryError Unit :=
  match offenders fields allowed paths with
  | [] => .ok ()
  | roots => .error (.disallowedFields kind (NameSet.ofList roots))

/-- The place of a path, if its root is permitted. -/
def locate? (fields : List Field) (allowed : NameSet) (path : FieldPath) : Option ResolvedPath :=
  if permits fields allowed path.root then some (locate fields path) else none

/-- The places of the permitted paths, in order, when there are no others. -/
def resolve (kind : ParamKind) (fields : List Field) (allowed : NameSet) (paths : List FieldPath) :
    Except QueryError (List ResolvedPath) :=
  (check kind fields allowed paths).map fun () => paths.filterMap (locate? fields allowed)

@[simp]
theorem locate_path (fields : List Field) (path : FieldPath) : (locate fields path).path = path := by
  unfold locate
  split <;> rfl

theorem mem_offenders {fields : List Field} {allowed : NameSet} {paths : List FieldPath}
    {root : String} :
    root ∈ offenders fields allowed paths ↔
      (∃ p ∈ paths, p.root = root) ∧ permits fields allowed root = false := by
  simp [offenders]

theorem offenders_eq_nil_iff {fields : List Field} {allowed : NameSet} {paths : List FieldPath} :
    offenders fields allowed paths = [] ↔
      ∀ p ∈ paths, permits fields allowed p.root = true := by
  simp [offenders]

theorem check_ok_iff {kind : ParamKind} {fields : List Field} {allowed : NameSet}
    {paths : List FieldPath} :
    check kind fields allowed paths = .ok () ↔
      ∀ p ∈ paths, permits fields allowed p.root = true := by
  rw [← offenders_eq_nil_iff]
  unfold check
  split <;> simp_all

theorem filterMap_locate? {fields : List Field} {allowed : NameSet} {paths : List FieldPath}
    (h : ∀ p ∈ paths, permits fields allowed p.root = true) :
    paths.filterMap (locate? fields allowed) = paths.map (locate fields) := by
  induction paths with
  | nil => rfl
  | cons p rest ih =>
    have hp : locate? fields allowed p = some (locate fields p) := by
      simp [locate?, h p List.mem_cons_self]
    rw [List.filterMap_cons_some hp, ih fun q hq => h q (List.mem_cons_of_mem p hq), List.map_cons]

/-- The places of permitted paths are in line with the paths. -/
theorem resolve_eq (kind : ParamKind) (fields : List Field) (allowed : NameSet)
    (paths : List FieldPath) :
    resolve kind fields allowed paths =
      (check kind fields allowed paths).map fun () => paths.map (locate fields) := by
  unfold resolve
  cases hc : check kind fields allowed paths with
  | error e => rfl
  | ok u => simp [Except.map, filterMap_locate? (check_ok_iff.1 hc)]

/-- Otherwise every root that is not permitted is reported, and no other. -/
theorem check_error_iff {kind : ParamKind} {fields : List Field} {allowed : NameSet}
    {paths : List FieldPath} {e : QueryError} :
    check kind fields allowed paths = .error e ↔
      offenders fields allowed paths ≠ [] ∧
        e = .disallowedFields kind (NameSet.ofList (offenders fields allowed paths)) := by
  unfold check
  cases offenders fields allowed paths with
  | nil => simp
  | cons root roots => simp [eq_comm]

end Access

end RecordQuery
