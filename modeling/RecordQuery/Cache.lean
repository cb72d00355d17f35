import RecordQuery.Shape

/-!
# Caches of walks

Where walks below a field have arrived, kept so that no walk has to be made twice. A walk is known
by the place where its first field is declared and by the text of the path below, so tables that
look alike never share an entry. Only walks that arrive somewhere are kept.

1. `Cache.getOrResolve_cases`: all that a look-up can do.
2. `Cache.find?_getOrResolve`: one that succeeds leaves its result behind.
3. `Cache.faithful_getOrResolve`: entries that are true stay true when the results that are put in
   are.
-/
namespace RecordQuery

/-- The place of a declared field: its table, and its position there. -/
structure FieldPlace where
  table : Nat
  position : Nat
  deriving DecidableEq, Repr

/-- What a walk is known by. -/
structure WalkKey where
  place : FieldPlace
  /-- The segments below the field, with points between them. -/
  nested : String
  deriving DecidableEq, Repr

/-- Where walks have arrived, at most one entry for each. -/
structure Cache where
  entries : List (WalkKey × ResolvedField)
  nodup_keys : (entries.map Prod.fst).Nodup

namespace Cache

def empty : Cache := ⟨[], .nil⟩

instance : EmptyCollection Cache := ⟨empty⟩

instance : Inhabited Cache := ⟨empty⟩

def size (c : Cache) : Nat := c.entries.length

def isEmpty (c : Cache) : Bool := c.entries.isEmpty

/-- The entry of a walk. -/
def find? (c : Cache) (key : WalkKey) : Option ResolvedField :=
  (c.entries.find? fun e => e.1 = key).map Prod.snd

theorem find?_eq_none_iff {c : Cache} {key : WalkKey} :
    c.find? key = none ↔ key ∉ c.entries.map Prod.fst := by
  simp only [find?, Option.map_eq_none_iff, List.find?_eq_none, decide_eq_true_eq, List.mem_map,
    not_exists, not_and]

def insertNew (c : Cache) (key : WalkKey) (arrival : ResolvedField) (h : c.find? key = none) :
    Cache :=
  ⟨(key, arrival) :: c.entries, List.nodup_cons.2 ⟨find?_eq_none_iff.1 h, c.nodup_keys⟩⟩

/-- What a look-up gives. -/
structure Lookup (ε : Type) where
  result : Except ε ResolvedField
  /-- Whether the walk had to be made. -/
  computed : Bool
  cache : Cache

variable {ε : Type}

/-- The entry of a walk; when there is none, the walk is made, and where it arrives is kept. -/
def getOrResolve (c : Cache) (key : WalkKey) (resolve : Unit → Except ε ResolvedField) :
    Lookup ε :=
  match h : c.find? key with
  | some arrival => ⟨.ok arrival, false, c⟩
  | none =>
    match resolve () with
    | .ok arrival => ⟨.ok arrival, true, c.insertNew key arrival h⟩
    | .error fault => ⟨.error fault, true, c⟩

theorem find?_insertNew {c : Cache} {key other : WalkKey} {arrival : ResolvedField}
    (h : c.find? key = none) :
    (c.insertNew key arrival h).find? other =
      if key = other then some arrival else c.find? other := by
  unfold find? insertNew
  by_cases hk : key = other <;> simp [hk]

/-- A look-up gives the entry, or it makes the walk; only a walk that arrives changes the cache. -/
theorem getOrResolve_cases (c : Cache) (key : WalkKey) (resolve : Unit → Except ε ResolvedField) :
    (∃ arrival, c.find? key = some arrival ∧
      c.getOrResolve key resolve = ⟨.ok arrival, false, c⟩) ∨
    (c.find? key = none ∧ ∃ fault, resolve () = .error fault ∧
      c.getOrResolve key resolve = ⟨.error fault, true, c⟩) ∨
    ∃ (h : c.find? key = none) (arrival : ResolvedField), resolve () = .ok arrival ∧
      c.getOrResolve key resolve = ⟨.ok arrival, true, c.insertNew key arrival h⟩ := by
  unfold getOrResolve
  split
  · rename_i arrival h
    exact .inl ⟨arrival, h, rfl⟩
  · rename_i h
    cases hr : resolve () with
    | error fault => exact .inr (.inl ⟨h, fault, rfl, rfl⟩)
    | ok arrival => exact .inr (.inr ⟨h, arrival, rfl, rfl⟩)

theorem find?_getOrResolve {c : Cache} {key : WalkKey} {resolve : Unit → Except ε ResolvedField}
    {arrival : ResolvedField} (h : (c.getOrResolve key resolve).result = .ok arrival) :
    (c.getOrResolve key resolve).cache.find? key = some arrival := by
  obtain ⟨_, hf, hg⟩ | ⟨_, _, _, hg⟩ | ⟨hf, _, _, hg⟩ := c.getOrResolve_cases key resolve
  · rw [hg] at h ⊢
    cases h
    exact hf
  · rw [hg] at h
    cases h
  · rw [hg] at h ⊢
    cases h
    rw [find?_insertNew, if_pos rfl]

/-- Every entry is true of its walk. -/
def Faithful (c : Cache) (arrives : WalkKey → ResolvedField → Prop) : Prop :=
  ∀ key arrival, c.find? key = some arrival → arrives key arrival

theorem faithful_empty (arrives : WalkKey → ResolvedField → Prop) :
    (∅ : Cache).Faithful arrives := by
  intro key arrival h
  cases h

/-- Entries that are true stay true when the results that are put in are. -/
theorem faithful_getOrResolve {c : Cache} {arrives : WalkKey → ResolvedField → Prop}
    (hc : c.Faithful arrives) {key : WalkKey} {resolve : Unit → Except ε ResolvedField}
    (hr : ∀ arrival, resolve () = .ok arrival → arrives key arrival) :
    (c.getOrResolve key resolve).cache.Faithful arrives := by
  obtain ⟨_, _, hg⟩ | ⟨_, _, _, hg⟩ | ⟨hf, arrival, hok, hg⟩ := c.getOrResolve_cases key resolve
  · rw [hg]
    exact hc
  · rw [hg]
    exact hc
  · rw [hg]
    intro other found hfound
    rw [find?_insertNew hf] at hfound
    split at hfound
    · rename_i hk
      cases hfound
      exact hk ▸ hr arrival hok
    · exact hc other found hfound

end Cache

end RecordQuery
