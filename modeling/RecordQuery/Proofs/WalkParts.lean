import RecordQuery.Proofs.DeclaredType

/-!
# Walks in parts

A walk may be made in parts: along the first segments to the field that the last of them stands for,
and from this field along the others. So a path that can be walked has no prefix that cannot, and
where a path cannot be walked, one segment decides: the first that its owner lacks. What stands
after this segment has no part in the fault.

1. `Field.Reaches`: the field that segments lead to. `Field.Lacks`: why a segment leads nowhere.
2. `Field.Reaches.walk_append`: from a field that is reached, a walk goes on as a walk of its own.
3. `Field.walk_eq_error_iff`: a walk fails at the first segment that its owner lacks.
4. `Field.walk_in_parts`: what becomes of a walk along two parts.
-/
namespace RecordQuery

namespace Field

/-! ## The field that is reached -/

/-- Segments lead from a field to another: each stands for the first field that answers to it in the
table of the field before it. No segments lead from a field to itself. -/
inductive Reaches : Field → List String → Field → Prop
  | here (field : Field) : Reaches field [] field
  | step {field next goal : Field} {fields : List Field} {segment : String}
      {rest : List String} :
      field.type.Holds fields → IsFirst fields segment next → Reaches next rest goal →
      Reaches field (segment :: rest) goal

/-- Why a segment leads nowhere from its owner, who goes by the declared name: the owner has no
table, or none of the fields in its table answers to the segment. -/
inductive Lacks (owner : Field) (segment : String) : WalkFault → Prop
  | table : (∀ fields, ¬owner.type.Holds fields) →
      Lacks owner segment (.notNavigable owner.name owner.type segment)
  | field {fields : List Field} : owner.type.Holds fields → (∀ f ∈ fields, ¬f.Answers segment) →
      Lacks owner segment (.unknownField owner.name segment)

variable {start owner goal : Field} {segment : String} {segments : List String}
  {fault : WalkFault}

/-- From a field that is reached, a walk goes on as a walk of its own: whatever follows, it has the
fault of that walk, or the storage names before those of that walk. -/
theorem Reaches.walk_append (h : start.Reaches segments goal) :
    ∃ names, start.walk segments = .ok ⟨goal.type, names⟩ ∧ names.length = segments.length ∧
      ∀ after, start.walk (segments ++ after) =
        (goal.walk after).map fun r => ⟨r.type, names ++ r.storage⟩ := by
  induction h with
  | here field =>
    refine ⟨[], rfl, rfl, fun after => ?_⟩
    show field.walk after = _
    cases field.walk after <;> rfl
  | @step field next goal fields segment rest ht hf _ ih =>
    obtain ⟨names, hw, hlength, happend⟩ := ih
    -- The step to the next field puts its storage name before whatever comes of the rest.
    have hstep : ∀ others, field.walk (segment :: others) =
        (next.walk others).map fun r => ⟨r.type, next.storageName :: r.storage⟩ := by
      intro others
      unfold walk
      rw [walkFrom_cons, FieldType.nestedFields?_eq_some_iff.2 ht]
      dsimp only
      rw [lookup_eq_some_iff.2 hf]
    refine ⟨next.storageName :: names, ?_, congrArg (· + 1) hlength, fun after => ?_⟩
    · rw [hstep, hw]
      rfl
    · rw [List.cons_append, hstep, happend]
      cases goal.walk after <;> rfl

/-- A walk arrives exactly where its segments lead to a field. -/
theorem exists_reaches_iff : (∃ goal, start.Reaches segments goal) ↔
    ∃ arrival, start.walk segments = .ok arrival := by
  constructor
  · rintro ⟨goal, h⟩
    obtain ⟨names, hw, _⟩ := h.walk_append
    exact ⟨_, hw⟩
  · rintro ⟨arrival, h⟩
    induction segments generalizing start arrival with
    | nil => exact ⟨start, .here start⟩
    | cons segment rest ih =>
      obtain ⟨fields, next, r, ht, hf, hr, _⟩ := walk_cons_eq_ok_iff.1 h
      obtain ⟨goal, hgoal⟩ := ih r hr
      exact ⟨goal, .step ht hf hgoal⟩

/-- Every prefix of a path that can be walked can be walked. -/
theorem exists_walk_of_append {xs ys : List String} {r : ResolvedField}
    (h : start.walk (xs ++ ys) = .ok r) : ∃ arrival, start.walk xs = .ok arrival := by
  unfold walk at h ⊢
  rw [walkFrom_append] at h
  obtain ⟨arrival, hw, _⟩ := bind_eq_ok_iff.1 h
  exact ⟨arrival, hw⟩

/-! ## The segment that is at fault -/

theorem Lacks.walk_cons (h : owner.Lacks segment fault) (after : List String) :
    owner.walk (segment :: after) = .error fault := by
  unfold walk
  rw [walkFrom_eq_error_iff]
  cases h with
  | table hn => exact .notNavigable hn
  | field ht hn => exact .unknownField ht hn

/-- A fault names the owner and the segment. -/
theorem Lacks.message (h : owner.Lacks segment fault) :
    ∃ between, fault.message = "`" ++ owner.name ++ between ++ segment ++ "`" := by
  cases h with
  | table _ =>
    refine ⟨"` is of type " ++ owner.type.name ++ " and has no nested field `", ?_⟩
    simp only [WalkFault.message, String.append_assoc]
  | field _ _ => exact ⟨"` has no field `", rfl⟩

/-- Segments stop at the first that its owner lacks. -/
theorem Stops.exists_lacks {name : String} {type : FieldType}
    (h : Stops name type segments fault) (hname : start.name = name) (htype : start.type = type) :
    ∃ front segment back owner, segments = front ++ segment :: back ∧
      start.Reaches front owner ∧ owner.Lacks segment fault := by
  induction h generalizing start with
  | @notNavigable _ segment _ rest hn =>
    subst hname htype
    exact ⟨[], segment, rest, start, rfl, .here start, .table hn⟩
  | @unknownField _ segment _ _ rest ht hn =>
    subst hname htype
    exact ⟨[], segment, rest, start, rfl, .here start, .field ht hn⟩
  | @deeper _ first _ _ next _ _ ht hf _ ih =>
    subst htype
    obtain ⟨front, segment, back, owner, rfl, hreaches, hlacks⟩ := ih rfl rfl
    exact ⟨first :: front, segment, back, owner, rfl, .step ht hf hreaches, hlacks⟩

/-- A walk fails at the first segment that its owner lacks, with this fault. -/
theorem walk_eq_error_iff : start.walk segments = .error fault ↔
    ∃ front segment back owner, segments = front ++ segment :: back ∧
      start.Reaches front owner ∧ owner.Lacks segment fault := by
  constructor
  · intro h
    exact (walkFrom_eq_error_iff.1 h).exists_lacks rfl rfl
  · rintro ⟨front, segment, back, owner, rfl, hreaches, hlacks⟩
    obtain ⟨_, _, _, happend⟩ := hreaches.walk_append
    rw [happend, hlacks.walk_cons]
    rfl

/-- The place where a path fails: the segments before it can be walked, the segment is one that
their field lacks, and nothing after it matters. -/
structure FailsAt (start : Field) (front : List String) (segment : String) (fault : WalkFault) :
    Prop where
  /-- No shorter prefix of the path fails. -/
  before : ∀ part, part <+: front → ∃ arrival, start.walk part = .ok arrival
  /-- The fault is that of the shortest prefix that does. -/
  shortest : start.walk (front ++ [segment]) = .error fault
  after : ∀ others, start.walk (front ++ segment :: others) = .error fault
  /-- It is about the field that the segments before lead to, by its declared name, and about the
  segment. -/
  names : ∃ owner, start.Reaches front owner ∧ owner.Lacks segment fault ∧
    ∃ between, fault.message = "`" ++ owner.name ++ between ++ segment ++ "`"

theorem Reaches.failsAt {front : List String} (h : start.Reaches front owner)
    (hl : owner.Lacks segment fault) : start.FailsAt front segment fault where
  before := by
    rintro part ⟨rest, rfl⟩
    obtain ⟨_, hw⟩ := exists_reaches_iff.1 ⟨owner, h⟩
    exact exists_walk_of_append hw
  shortest := walk_eq_error_iff.2 ⟨front, segment, [], owner, rfl, h, hl⟩
  after others := walk_eq_error_iff.2 ⟨front, segment, others, owner, rfl, h, hl⟩
  names := ⟨owner, h, hl, hl.message⟩

end Field

namespace Sample

/-- An owner with several addresses, all of which are renamed in storage. -/
def owner : Field :=
  { name := "owner"
    type := .relation [
      { name := "address", type := .list (.relation addressTable), storedAs := some "addr" }]
    storedAs := some "owned_by" }

end Sample

namespace Field

/-! ## Two parts -/

/-- A walk along two parts arrives exactly where the walk along the first part does, at a field from
which the walk along the second part does; it arrives at the type of the second and has the storage
names of both, one for each segment. Otherwise it fails at one segment, the first that its owner
lacks. -/
theorem walk_in_parts (start : Field) (xs ys : List String) :
    (∀ r, start.walk (xs ++ ys) = .ok r ↔
      ∃ middle arrival rest, start.walk xs = .ok arrival ∧ start.Reaches xs middle ∧
        arrival.type = middle.type ∧ middle.walk ys = .ok rest ∧
        r = ⟨rest.type, arrival.storage ++ rest.storage⟩) ∧
    (∀ r, start.walk (xs ++ ys) = .ok r → r.storage.length = (xs ++ ys).length) ∧
    ∀ fault, start.walk (xs ++ ys) = .error fault ↔
      ∃ front segment back, xs ++ ys = front ++ segment :: back ∧
        start.FailsAt front segment fault := by
  refine ⟨fun r => ?_, fun r => length_storage, fun fault => ?_⟩
  · constructor
    · intro h
      obtain ⟨middle, hreaches⟩ := exists_reaches_iff.2 (exists_walk_of_append h)
      obtain ⟨names, hw, _, happend⟩ := hreaches.walk_append
      rw [happend] at h
      obtain ⟨rest, hrest, rfl⟩ := map_eq_ok_iff.1 h
      exact ⟨middle, _, rest, hw, hreaches, rfl, hrest, rfl⟩
    · rintro ⟨middle, arrival, rest, hw, hreaches, _, hr, rfl⟩
      obtain ⟨names, hnames, _, happend⟩ := hreaches.walk_append
      cases hw.symm.trans hnames
      rw [happend, hr]
      rfl
  · rw [walk_eq_error_iff]
    constructor
    · rintro ⟨front, segment, back, owner, hsplit, hreaches, hlacks⟩
      exact ⟨front, segment, back, hsplit, hreaches.failsAt hlacks⟩
    · rintro ⟨front, segment, back, hsplit, hfails⟩
      obtain ⟨owner, hreaches, hlacks, _⟩ := hfails.names
      exact ⟨front, segment, back, owner, hsplit, hreaches, hlacks⟩

/-- The city of an owner's address is walked to from the address. A street is what addresses lack:
the fault names the address as it is declared, and not what should follow. -/
theorem walk_in_parts_owner :
    (∃ address arrival rest, Sample.owner.walk ["address"] = .ok arrival ∧
      Sample.owner.Reaches ["address"] address ∧ address.walk ["city"] = .ok rest ∧
      arrival.storage ++ rest.storage = ["addr", "city_name"]) ∧
    ∃ front back, ["address", "street", "number"] = front ++ "street" :: back ∧
      Sample.owner.FailsAt front "street" (.unknownField "address" "street") := by
  have hcity := (walk_in_parts Sample.owner ["address"] ["city"]).1
  have hstreet := (walk_in_parts Sample.owner ["address"] ["street", "number"]).2.2
  constructor
  · obtain ⟨address, arrival, rest, hw, hreaches, _, hrest, hr⟩ :=
      (hcity ⟨.text, ["addr", "city_name"]⟩).1 rfl
    exact ⟨address, arrival, rest, hw, hreaches, hrest, (congrArg ResolvedField.storage hr).symm⟩
  · obtain ⟨front, segment, back, hsplit, hfails⟩ :=
      (hstreet (.unknownField "address" "street")).1 rfl
    have hsegment : segment = "street" := by
      obtain ⟨_, _, hlacks, _⟩ := hfails.names
      generalize hfault : WalkFault.unknownField "address" "street" = fault at hlacks
      cases hlacks with
      | table _ => cases hfault
      | field _ _ => exact (WalkFault.unknownField.inj hfault).2.symm
    subst hsegment
    exact ⟨front, back, hsplit, hfails⟩

end Field

end RecordQuery
