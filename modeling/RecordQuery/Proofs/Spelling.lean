import Mathlib.Data.List.Nodup
import Mathlib.Data.List.Pairwise
import RecordQuery.Order
import RecordQuery.Proofs.StoragePath
import RecordQuery.Proofs.TwoRuns

/-!
# Two spellings of a path

A field goes by its declared name and by its storage alias, so the segments of one path can be
spelled in several ways. When no segment refers to two fields of a table, all spellings are walked
to the same place, and they are planned as the same field. What is left of the spelling is the name
of the token in errors.

1. `Field.Unambiguous`: no segment refers to two fields of a table, at any depth.
2. `Field.Respells`: two spellings of segments. `Field.Respells.walkFrom_eq`: one walk.
3. `QueryError.SameToken`: errors that differ in how they name their token.
4. `PlannedField.alike_ofPath`: the two spellings are planned alike.
-/
namespace RecordQuery

/-! ## Unambiguous tables -/

namespace Field

/-- The tables inside a table: the table itself, and those that its fields hold, at every depth. -/
inductive HasTable : List Field → List Field → Prop
  | self {fields : List Field} : HasTable fields fields
  | held {fields inner table : List Field} {field : Field} :
      field ∈ fields → field.type.Holds inner → HasTable inner table → HasTable fields table

/-- In no table inside does a segment refer to two different fields. -/
def Unambiguous (fields : List Field) : Prop :=
  ∀ table, HasTable fields table → ∀ f ∈ table, ∀ g ∈ table, ∀ segment,
    f.Answers segment → g.Answers segment → f = g

variable {fields inner : List Field} {field : Field} {segment : String}

theorem Unambiguous.below (h : Unambiguous fields) (hf : field ∈ fields)
    (ht : field.type.Holds inner) : Unambiguous inner :=
  fun table hm => h table (.held hf ht hm)

/-- The only field that answers to a segment is the first. -/
theorem Unambiguous.lookup_eq (h : Unambiguous fields) (hf : field ∈ fields)
    (ha : field.Answers segment) : lookup fields segment = some field := by
  rcases exists_isFirst_or fields segment with ⟨first, hfirst⟩ | hn
  · rw [← h fields .self first hfirst.mem field hf segment hfirst.answers ha]
    exact lookup_eq_some_iff.2 hfirst
  · exact absurd ha (hn field hf)

/-- Where a segment leads to a field, no other field answers to it. -/
theorem Unambiguous.answersTo_iff (h : Unambiguous fields) (hf : field ∈ fields) {other : Field}
    (hl : lookup fields segment = some other) : field.answersTo segment = true ↔ field = other := by
  rw [Field.answersTo_iff]
  constructor
  · intro ha
    exact Option.some.inj ((h.lookup_eq hf ha).symm.trans hl)
  · rintro rfl
    exact (lookup_eq_some_iff.1 hl).answers

/-- The segments that refer to a field. -/
def names (f : Field) : List String := f.name :: f.storedAs.toList

theorem mem_names {f : Field} : segment ∈ f.names ↔ f.Answers segment := by
  unfold names Answers
  rw [List.mem_cons, Option.mem_toList]
  exact or_congr_left eq_comm

/-- A table is unambiguous when all its names and aliases are different and so are those inside. -/
theorem unambiguous_of_nodup (hnames : (fields.flatMap names).Nodup)
    (hinner : ∀ f ∈ fields, ∀ inner, f.type.Holds inner → Unambiguous inner) :
    Unambiguous fields := by
  intro table htable f hf g hg segment hfs hgs
  cases htable with
  | self =>
    by_contra hne
    have : Std.Symm (Function.onFun List.Disjoint names) := ⟨fun _ _ h _ hs ht => h ht hs⟩
    have hdisjoint := (List.nodup_flatMap.1 hnames).2.forall hf hg hne
    exact hdisjoint (mem_names.2 hfs) (mem_names.2 hgs)
  | held hfield ht hmem => exact hinner _ hfield _ ht table hmem f hf g hg segment hfs hgs

/-! ## Two spellings -/

/-- Two spellings of segments below a table. They may differ where both refer to one field of the
table that the segments before them lead to. -/
inductive Respells : List Field → List String → List String → Prop
  | verbatim {fields : List Field} {segments : List String} : Respells fields segments segments
  | last {fields : List Field} {field : Field} {s t : String} {rest : List String} :
      field ∈ fields → field.Answers s → field.Answers t → Respells fields (s :: rest) (t :: rest)
  | step {fields inner : List Field} {field : Field} {s t : String} {rest others : List String} :
      field ∈ fields → field.Answers s → field.Answers t → field.type.Holds inner →
      Respells inner rest others → Respells fields (s :: rest) (t :: others)

/-- Two spellings are walked to one place, or fail in one way: an unknown segment is spelled alike
in both, and its owner goes by its declared name. -/
theorem Respells.walkFrom_eq {xs ys : List String} (h : Respells fields xs ys)
    (hu : Unambiguous fields) {type : FieldType} (ht : type.Holds fields) (owner : String) :
    walkFrom owner type xs = walkFrom owner type ys := by
  induction h generalizing type owner with
  | verbatim => rfl
  | last hf hs hv =>
    rw [walkFrom_cons, walkFrom_cons, FieldType.nestedFields?_eq_some_iff.2 ht]
    dsimp only
    rw [hu.lookup_eq hf hs, hu.lookup_eq hf hv]
  | step hf hs hv hinner _ ih =>
    rw [walkFrom_cons, walkFrom_cons, FieldType.nestedFields?_eq_some_iff.2 ht]
    dsimp only
    rw [hu.lookup_eq hf hs, hu.lookup_eq hf hv]
    dsimp only
    rw [ih (hu.below hf hinner) hinner]

/-- Two spellings are the same text, or start at one field and are walked alike from there. -/
theorem Respells.cons_cases {s t : String} {rest others : List String}
    (h : Respells fields (s :: rest) (t :: others)) (hu : Unambiguous fields) :
    (s = t ∧ rest = others) ∨ ∃ field ∈ fields,
      field.Answers s ∧ field.Answers t ∧ field.walk rest = field.walk others := by
  cases h with
  | verbatim => exact .inl ⟨rfl, rfl⟩
  | last hf hs ht => exact .inr ⟨_, hf, hs, ht, rfl⟩
  | step hf hs ht hinner hrest =>
    exact .inr ⟨_, hf, hs, ht, hrest.walkFrom_eq (hu.below hf hinner) hinner _⟩

end Field

namespace FieldPath

/-- Two spellings of a path in a shape with these fields. -/
structure Respells (fields : List Field) (p q : FieldPath) : Prop where
  function : p.function = q.function
  segments : Field.Respells fields p.segments q.segments

variable {fields : List Field} {p q : FieldPath}

/-- The roots of two spellings lead to one field, from which both paths are walked alike, or both
lead to none and the paths are the same. -/
theorem Respells.roots (h : p.Respells fields q) (hu : Field.Unambiguous fields) :
    (∃ field, Field.lookup fields p.root = some field ∧ Field.lookup fields q.root = some field ∧
      field.walk p.nested = field.walk q.nested) ∨
    (Field.lookup fields p.root = none ∧ p.root = q.root ∧ p.nested = q.nested) := by
  rcases h.segments.cons_cases hu with ⟨hroot, hnested⟩ | ⟨field, hf, hp, hq, hw⟩
  · cases hl : Field.lookup fields p.root with
    | none => exact .inr ⟨rfl, hroot, hnested⟩
    | some field => exact .inl ⟨field, rfl, hroot ▸ hl, by rw [hnested]⟩
  · exact .inl ⟨field, hu.lookup_eq hf hp, hu.lookup_eq hf hq, hw⟩

/-- A field answers to the roots of both spellings or of neither. -/
theorem Respells.answersTo_eq (h : p.Respells fields q) (hu : Field.Unambiguous fields)
    {field : Field} (hf : field ∈ fields) : field.answersTo p.root = field.answersTo q.root := by
  rcases h.roots hu with ⟨other, hp, hq, _⟩ | ⟨_, hroot, _⟩
  · rw [Bool.eq_iff_iff, hu.answersTo_iff hf hp, hu.answersTo_iff hf hq]
  · rw [hroot]

end FieldPath

/-! ## Names in errors -/

/-- How errors name a token: by its text and by its path. -/
structure TokenLabel where
  raw : String
  path : FieldPath

/-- Two errors that say the same of two tokens, each by its own name. -/
inductive QueryError.SameToken (n m : TokenLabel) : QueryError → QueryError → Prop
  | invalidIsLiteral (literal : String) :
      SameToken n m (.invalidIsLiteral n.raw literal) (.invalidIsLiteral m.raw literal)
  | coercion (source : CoercionError) :
      SameToken n m (.coercion n.raw source) (.coercion m.raw source)
  | unsupportedFunction (function type : String) :
      SameToken n m (.unsupportedFunction n.raw function n.path.dotted type)
        (.unsupportedFunction m.raw function m.path.dotted type)
  | resolution (type cause : String) :
      SameToken n m (.resolution n.raw n.path.display type cause)
        (.resolution m.raw m.path.display type cause)

/-! ## Planned fields -/

namespace PlannedField

def label (f : PlannedField) : TokenLabel := ⟨f.token, f.path⟩

/-- Two fields of these labels that differ in nothing else. -/
structure Same (n m : TokenLabel) (f g : PlannedField) : Prop where
  left : f.label = n
  right : g.label = m
  columns : f.columns = g.columns
  type : f.type = g.type
  function : f.function = g.function

variable {n m : TokenLabel}

theorem alike_ofWalk {field : Field} {root : String} {walked : Except WalkFault ResolvedField}
    (hfun : n.path.function = m.path.function) :
    Alike (QueryError.SameToken n m) (Same n m)
      (ofWalk n.raw ⟨n.path, root, some field⟩ field walked)
      (ofWalk m.raw ⟨m.path, root, some field⟩ field walked) := by
  unfold ofWalk
  cases walked with
  | error fault => exact .error (.resolution field.type.name fault.message)
  | ok arrival =>
    dsimp only
    rw [hfun]
    split
    · exact .error (.resolution arrival.type.name _)
    · exact .ok ⟨rfl, rfl, rfl, rfl, hfun⟩

/-- The two spellings of a path are planned as one field, or fail in one way. -/
theorem alike_ofPath {fields : List Field} (h : n.path.Respells fields m.path)
    (hu : Field.Unambiguous fields) :
    Alike (QueryError.SameToken n m) (Same n m) (ofPath n.raw (Access.locate fields n.path))
      (ofPath m.raw (Access.locate fields m.path)) := by
  unfold ofPath Access.locate
  rcases h.roots hu with ⟨field, hn, hm, hw⟩ | ⟨hn, hroot, hnested⟩
  · rw [hn, hm]
    dsimp only
    rw [hw]
    exact alike_ofWalk h.function
  · rw [← hroot, hn]
    have hcolumns : n.path.root :: n.path.nested = n.path.root :: m.path.nested :=
      congrArg _ hnested
    exact .ok ⟨rfl, rfl, hcolumns, rfl, h.function⟩

variable {f g : PlannedField}

theorem Same.typeName_eq (h : f.Same n m g) : f.typeName = g.typeName := by
  unfold typeName
  rw [h.type]

theorem Same.alike_checkFunction (h : f.Same n m g) (operator : Option Operator) :
    Alike (QueryError.SameToken n m) Eq (f.checkFunction operator) (g.checkFunction operator) := by
  have hname := h.typeName_eq
  obtain ⟨rfl, rfl, _, htype, hfun⟩ := h
  unfold checkFunction
  rw [hfun, htype, hname]
  split
  · exact .ok rfl
  · split
    · exact .ok rfl
    · exact .error (.unsupportedFunction _ g.typeName)

theorem Same.alike_value (h : f.Same n m g) (raw : String) :
    Alike (QueryError.SameToken n m) Eq (f.value raw) (g.value raw) := by
  obtain ⟨rfl, rfl, _, htype, hfun⟩ := h
  unfold value valueType
  rw [hfun, htype]
  split
  · exact .ok rfl
  · split
    · exact .ok rfl
    · exact .error (.coercion _)

theorem Same.alike_operand (h : f.Same n m g) (operator : Operator) (raw : String) :
    Alike (QueryError.SameToken n m) Eq (f.operand operator raw) (g.operand operator raw) := by
  have hname := h.typeName_eq
  have hvalue := h.alike_value
  obtain ⟨rfl, rfl, _, htype, _⟩ := h
  cases operator with
  | compare c => exact (hvalue raw).map fun _ _ => congrArg (Operand.compare c)
  | isIn =>
    have hpieces : List.Forall₂ Eq (Text.pieces ';' raw) (Text.pieces ';' raw) :=
      List.forall₂_same.2 fun _ _ => rfl
    have hvalues : Alike (QueryError.SameToken f.label g.label) Eq
        (collect f.value (Text.pieces ';' raw)) (collect g.value (Text.pieces ';' raw)) := by
      refine Alike.collect_eq hpieces ?_
      rintro piece _ rfl
      exact hvalue piece
    exact hvalues.map fun _ _ => congrArg Operand.isIn
  | like =>
    dsimp only [operand]
    rw [htype, hname]
    split
    · exact .ok rfl
    · exact .error (.coercion _)
  | is =>
    dsimp only [operand]
    rw [htype, hname]
    split
    · exact .error (.invalidIsLiteral raw)
    · split
      · exact .ok rfl
      · exact .error (.coercion _)

theorem Same.alike_target (h : f.Same n m g) (source : Source) :
    Alike (QueryError.SameToken n m) Eq (f.target source) (g.target source) := by
  have hname := h.typeName_eq
  obtain ⟨rfl, rfl, hcolumns, _, hfun⟩ := h
  unfold target
  rw [hcolumns, hfun, hname]
  split
  · exact .ok rfl
  · exact .error (.resolution g.typeName _)

end PlannedField

end RecordQuery
