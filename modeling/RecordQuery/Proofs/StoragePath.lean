import RecordQuery.Database
import RecordQuery.ListQuery
import RecordQuery.Proofs.Planning

/-!
# Storage paths

The storage names that a path stands for, said of the tables of a shape and without a walk: each
segment stands for the first field of the table reached so far that answers to it, and the next
table is the one that this field holds, by itself or in a list.

1. `Field.StoragePath`: the storage names of segments. `Field.Reachable`: all that a shape has.
2. `Access.Columns`: the columns of a permitted path, which has no others.
3. `Access.columns_of_ofPath`: plans have these columns.
4. `Access.Columns.mem_names`: where the names in the columns come from.
-/
namespace RecordQuery

/-! ## Tables -/

namespace Field

/-- A segment refers to a field by its declared name or by its storage alias. -/
def Answers (f : Field) (segment : String) : Prop := f.name = segment ∨ f.storedAs = some segment

/-- The first field of a table that answers to a segment. -/
def IsFirst (fields : List Field) (segment : String) (field : Field) : Prop :=
  ∃ front back, fields = front ++ field :: back ∧ field.Answers segment ∧
    ∀ f ∈ front, ¬f.Answers segment

theorem answersTo_iff {f : Field} {segment : String} :
    f.answersTo segment = true ↔ f.Answers segment := by
  simp [answersTo, Answers]

theorem lookup_eq_some_iff {fields : List Field} {segment : String} {field : Field} :
    lookup fields segment = some field ↔ IsFirst fields segment field := by
  unfold lookup IsFirst
  simp only [List.find?_eq_some_iff_append, Bool.not_eq_true', ← Bool.not_eq_true, answersTo_iff]
  constructor
  · rintro ⟨ha, front, back, rfl, hf⟩
    exact ⟨front, back, rfl, ha, hf⟩
  · rintro ⟨front, back, rfl, ha, hf⟩
    exact ⟨ha, front, back, rfl, hf⟩

theorem lookup_eq_none_iff {fields : List Field} {segment : String} :
    lookup fields segment = none ↔ ∀ f ∈ fields, ¬f.Answers segment := by
  simp [lookup, ← answersTo_iff]

theorem IsFirst.answers {fields : List Field} {segment : String} {field : Field}
    (h : IsFirst fields segment field) : field.Answers segment := by
  obtain ⟨_, _, _, ha, _⟩ := h
  exact ha

theorem IsFirst.not_forall_not {fields : List Field} {segment : String} {field : Field}
    (h : IsFirst fields segment field) : ¬∀ f ∈ fields, ¬f.Answers segment := by
  obtain ⟨front, back, rfl, ha, _⟩ := h
  exact fun hn => hn field (List.mem_append_right front List.mem_cons_self) ha

/-- Either a field answers to a segment, and then one is the first, or none does. -/
theorem exists_isFirst_or (fields : List Field) (segment : String) :
    (∃ field, IsFirst fields segment field) ∨ ∀ f ∈ fields, ¬f.Answers segment := by
  rw [← lookup_eq_none_iff]
  cases hl : lookup fields segment with
  | none => exact .inr rfl
  | some field => exact .inl ⟨field, lookup_eq_some_iff.1 hl⟩

theorem IsFirst.unique {fields : List Field} {segment : String} {f g : Field}
    (hf : IsFirst fields segment f) (hg : IsFirst fields segment g) : f = g :=
  Option.some.inj ((lookup_eq_some_iff.2 hf).symm.trans (lookup_eq_some_iff.2 hg))

theorem IsFirst.mem {fields : List Field} {segment : String} {field : Field}
    (h : IsFirst fields segment field) : field ∈ fields := by
  obtain ⟨front, back, rfl, _, _⟩ := h
  exact List.mem_append_right front List.mem_cons_self

end Field

/-- A type holds a table: it is a related record, or a list of them. -/
def FieldType.Holds (t : FieldType) (fields : List Field) : Prop :=
  t = .relation fields ∨ t = .list (.relation fields)

theorem FieldType.nestedFields?_eq_some_iff {t : FieldType} {fields : List Field} :
    t.nestedFields? = some fields ↔ t.Holds fields := by
  unfold nestedFields? Holds
  split <;> simp_all

theorem FieldType.Holds.unique {t : FieldType} {fields others : List Field} (h : t.Holds fields)
    (ho : t.Holds others) : fields = others :=
  Option.some.inj ((nestedFields?_eq_some_iff.2 h).symm.trans (nestedFields?_eq_some_iff.2 ho))

namespace Field

/-- The storage names of segments, each for the first field that answers to it in the table that
the segments before it lead to. -/
inductive StoragePath : List Field → List String → List String → Prop
  | last {fields : List Field} {segment : String} {field : Field} :
      IsFirst fields segment field → StoragePath fields [segment] [field.storageName]
  | step {fields inner : List Field} {segment : String} {field : Field}
      {rest names : List String} :
      IsFirst fields segment field → field.type.Holds inner → StoragePath inner rest names →
      StoragePath fields (segment :: rest) (field.storageName :: names)

/-- The storage names of fields, each in the table that the one before it holds. -/
inductive Reachable : List Field → List String → Prop
  | last {fields : List Field} {field : Field} :
      field ∈ fields → Reachable fields [field.storageName]
  | step {fields inner : List Field} {field : Field} {names : List String} :
      field ∈ fields → field.type.Holds inner → Reachable inner names →
      Reachable fields (field.storageName :: names)

/-- A walk goes from a field to the table that it holds, and on from the first field of this table
that answers to the segment. -/
theorem walk_cons_eq_ok_iff {field : Field} {segment : String} {rest : List String}
    {arrival : ResolvedField} :
    field.walk (segment :: rest) = .ok arrival ↔
      ∃ inner below r, field.type.Holds inner ∧ IsFirst inner segment below ∧
        below.walk rest = .ok r ∧ arrival = ⟨r.type, below.storageName :: r.storage⟩ := by
  simp only [← FieldType.nestedFields?_eq_some_iff, ← lookup_eq_some_iff]
  unfold walk
  rw [walkFrom_cons]
  constructor
  · intro h
    split at h
    · cases h
    · rename_i inner hn
      split at h
      · cases h
      · rename_i below hb
        obtain ⟨r, hr, rfl⟩ := map_eq_ok_iff.1 h
        exact ⟨inner, below, r, hn, hb, hr, rfl⟩
  · rintro ⟨inner, below, r, hn, hb, hr, rfl⟩
    rw [hn]
    dsimp only
    rw [hb]
    exact map_eq_ok_iff.2 ⟨r, hr, rfl⟩

/-- Where a walk below a field arrives, the storage names are those of the segments. -/
theorem storagePath_of_walk {fields : List Field} {segment : String} {field : Field}
    {rest : List String} {arrival : ResolvedField} (hf : IsFirst fields segment field)
    (h : field.walk rest = .ok arrival) :
    StoragePath fields (segment :: rest) (field.storageName :: arrival.storage) := by
  -- On the segments: a step of the walk goes from a field to the table that it holds.
  induction rest generalizing fields segment field arrival with
  | nil =>
    cases h
    exact .last hf
  | cons next rest ih =>
    obtain ⟨inner, below, r, ht, hb, hr, rfl⟩ := walk_cons_eq_ok_iff.1 h
    exact .step hf ht (ih hb hr)

theorem StoragePath.reachable {fields : List Field} {segments names : List String}
    (h : StoragePath fields segments names) : Reachable fields names := by
  induction h with
  | last hf => exact .last hf.mem
  | step hf ht _ ih => exact .step hf.mem ht ih

theorem StoragePath.length_eq {fields : List Field} {segments names : List String}
    (h : StoragePath fields segments names) : names.length = segments.length := by
  induction h with
  | last _ => rfl
  | step _ _ _ ih => simp [ih]

theorem StoragePath.exists_isFirst {fields : List Field} {segment : String}
    {rest names : List String} (h : StoragePath fields (segment :: rest) names) :
    ∃ field, IsFirst fields segment field := by
  cases h with
  | last hf => exact ⟨_, hf⟩
  | step hf _ _ => exact ⟨_, hf⟩

/-- Segments have no storage names but these. -/
theorem StoragePath.unique {fields : List Field} {segments names others : List String}
    (h : StoragePath fields segments names) (ho : StoragePath fields segments others) :
    names = others := by
  induction h generalizing others with
  | last hf =>
    cases ho with
    | last hg => rw [hf.unique hg]
    | step _ _ hbelow => nomatch hbelow
  | step hf ht hbelow ih =>
    cases ho with
    | last _ => nomatch hbelow
    | step hg hu hother =>
      cases hf.unique hg
      cases ht.unique hu
      rw [ih hother]

end Field

/-! ## All storage names -/

mutual

/-- The storage names of the fields in a type, at every level. -/
def FieldType.storageNames : FieldType → List String
  | .list element => element.storageNames
  | .relation fields => Field.tableNames fields
  | _ => []

/-- The storage names of a field and of the fields in its type. -/
def Field.storageNames : Field → List String
  | ⟨name, type, stored, _, _⟩ => stored.getD name :: type.storageNames

/-- The storage names of a table and of the tables in it. -/
def Field.tableNames : List Field → List String
  | [] => []
  | field :: rest => field.storageNames ++ Field.tableNames rest

end

/-- The storage names of a shape, at every level. -/
def Shape.storageNames (shape : Shape) : List String := Field.tableNames shape.fields

namespace Field

theorem storageNames_eq (f : Field) : f.storageNames = f.storageName :: f.type.storageNames := by
  cases f
  rfl

theorem mem_tableNames {fields : List Field} {field : Field} {name : String}
    (hf : field ∈ fields) (hn : name ∈ field.storageNames) : name ∈ tableNames fields := by
  induction fields with
  | nil => cases hf
  | cons head rest ih =>
    rw [tableNames, List.mem_append]
    rcases List.mem_cons.1 hf with rfl | hr
    · exact .inl hn
    · exact .inr (ih hr)

theorem storageNames_of_holds {t : FieldType} {fields : List Field} (h : t.Holds fields) :
    t.storageNames = tableNames fields := by
  rcases h with rfl | rfl <;> rfl

theorem Reachable.subset {fields : List Field} {names : List String} (h : Reachable fields names) :
    ∀ name ∈ names, name ∈ tableNames fields := by
  induction h with
  | last hf =>
    intro name hn
    rw [List.mem_singleton.1 hn]
    exact mem_tableNames hf (by rw [storageNames_eq]; exact List.mem_cons_self)
  | step hf ht _ ih =>
    intro name hn
    refine mem_tableNames hf ?_
    rw [storageNames_eq, storageNames_of_holds ht]
    rcases List.mem_cons.1 hn with rfl | hr
    · exact List.mem_cons_self
    · exact List.mem_cons_of_mem _ (ih name hr)

end Field

/-! ## Columns of permitted paths -/

namespace Access

/-- The columns of a permitted path: the storage names of its segments, or the segments themselves
when the shape does not declare the root and the request is allowed it by name. -/
inductive Columns (fields : List Field) (allowed : NameSet) (path : FieldPath) :
    List String → Prop
  | declared {names : List String} :
      Field.StoragePath fields path.segments names → Columns fields allowed path names
  | verbatim : (∀ f ∈ fields, ¬f.Answers path.root) → path.root ∈ allowed →
      Columns fields allowed path path.segments

/-- The place of a path whose root a field answers to, and of one whose root no field does. -/
theorem locate_of_isFirst {fields : List Field} {path : FieldPath} {field : Field}
    (h : Field.IsFirst fields path.root field) :
    locate fields path = ⟨path, field.storageName, some field⟩ := by
  simp [locate, Field.lookup_eq_some_iff.2 h]

theorem locate_of_forall_not {fields : List Field} {path : FieldPath}
    (h : ∀ f ∈ fields, ¬f.Answers path.root) : locate fields path = ⟨path, path.root, none⟩ := by
  simp [locate, Field.lookup_eq_none_iff.2 h]

/-- A permitted path is planned where the walk below its root arrives, or as the request wrote it
when the shape does not declare the root. -/
theorem ofPath_locate_eq_ok {fields : List Field} {path : FieldPath} {token : String}
    {f : PlannedField} (h : PlannedField.ofPath token (locate fields path) = .ok f) :
    ((∀ g ∈ fields, ¬g.Answers path.root) ∧ f = ⟨token, path, path.segments, none⟩) ∨
      ∃ field arrival, Field.IsFirst fields path.root field ∧
        field.walk path.nested = .ok arrival ∧
        (arrival.type.isRelation && path.function.isNone) = false ∧
        f = ⟨token, path, field.storageName :: arrival.storage, some arrival.type⟩ := by
  rcases Field.exists_isFirst_or fields path.root with ⟨field, hf⟩ | hn
  · rw [locate_of_isFirst hf] at h
    rcases PlannedField.ofPath_eq_ok_iff.1 h with ⟨hnone, _⟩ | ⟨_, arrival, hs, hw, hbare, rfl⟩
    · cases hnone
    · cases hs
      exact .inr ⟨field, arrival, hf, hw, hbare, rfl⟩
  · rw [locate_of_forall_not hn] at h
    cases h
    exact .inl ⟨hn, rfl⟩

/-- A planned field has the columns of its path. -/
theorem columns_of_ofPath {fields : List Field} {allowed : NameSet} {path : FieldPath}
    {token : String} {f : PlannedField} (hp : permits fields allowed path.root = true)
    (h : PlannedField.ofPath token (locate fields path) = .ok f) :
    Columns fields allowed path f.columns := by
  rcases ofPath_locate_eq_ok h with ⟨hn, rfl⟩ | ⟨field, arrival, hf, hw, _, rfl⟩
  · have hm : path.root ∈ allowed := by
      simpa [permits, Field.lookup_eq_none_iff.2 hn] using hp
    exact .verbatim hn hm
  · exact .declared (Field.storagePath_of_walk hf hw)

/-- A path has no columns but these. -/
theorem Columns.unique {fields : List Field} {allowed : NameSet} {path : FieldPath}
    {names others : List String} (h : Columns fields allowed path names)
    (ho : Columns fields allowed path others) : names = others := by
  -- A declared root rules out that the segments go out as they are.
  have hnone : ∀ {stored}, Field.StoragePath fields path.segments stored →
      ¬∀ f ∈ fields, ¬f.Answers path.root := by
    intro stored hs hn
    obtain ⟨field, hfirst⟩ := hs.exists_isFirst
    exact hfirst.not_forall_not hn
  cases h with
  | declared hs =>
    cases ho with
    | declared ht => exact hs.unique ht
    | verbatim hn _ => exact absurd hn (hnone hs)
  | verbatim hn _ =>
    cases ho with
    | declared ht => exact absurd hn (hnone ht)
    | verbatim _ _ => rfl

theorem Columns.length_eq {fields : List Field} {allowed : NameSet} {path : FieldPath}
    {names : List String} (h : Columns fields allowed path names) :
    names.length = path.segments.length := by
  cases h with
  | declared hs => exact hs.length_eq
  | verbatim _ _ => rfl

/-- When nothing is allowed by name, the columns are storage names of the shape. -/
theorem Columns.reachable {fields : List Field} {path : FieldPath} {names : List String}
    (h : Columns fields ∅ path names) : Field.Reachable fields names := by
  cases h with
  | declared hs => exact hs.reachable
  | verbatim _ hm => exact absurd hm (NameSet.not_mem_empty _)

/-- A name in the columns is a storage name of the shape or a segment of the path. -/
theorem Columns.mem_names {fields : List Field} {allowed : NameSet} {path : FieldPath}
    {names : List String} (h : Columns fields allowed path names) :
    ∀ name ∈ names, name ∈ Field.tableNames fields ∨ IsSegment name := by
  intro name hn
  cases h with
  | declared hs => exact .inl (hs.reachable.subset name hn)
  | verbatim _ _ => exact .inr (path.segments_valid name hn)

end Access

namespace Compiler

variable {c : Compiler} {allowed : NameSet}

theorem PlansField.columns {path : FieldPath} {f : PlannedField}
    (h : c.PlansField allowed path f) : Access.Columns c.shape.fields allowed path f.columns := by
  obtain ⟨_, hf⟩ := h.planned
  exact Access.columns_of_ofPath h.permitted hf

end Compiler

/-! ## A sample request -/

namespace Sample

/-- An address, whose city has another name in storage. -/
def addressTable : List Field :=
  [{ name := "city", type := .text, storedAs := some "city_name" },
    { name := "zip", type := .int32 }]

/-- People with several addresses, which are renamed in storage too. -/
def people : Shape :=
  ⟨"people", [{ name := "id", type := .int64 }, { name := "name", type := .text },
    { name := "tags", type := .list .text },
    { name := "address", type := .list (.relation addressTable), storedAs := some "addr" }]⟩

example : people.storageNames = ["id", "name", "tags", "addr", "city_name", "zip"] := rfl

def cityLength : FieldPath := ⟨"address", ["city"], some .length, by decide⟩

def city : FieldPath := { cityLength with function := none }

def tenantKey : FieldPath := ⟨"tenant", ["key"], none, by decide⟩

def tagCount : FieldPath := ⟨"tags", [], some .size, by decide⟩

def tags : FieldPath := { tagCount with function := none }

/-- The length of a city is one of two, and a field that only the request knows contains a quote. -/
def conditions : FilterSpec where
  tokens :=
    [⟨cityLength, .isIn, "4;5", "address.city.length():in:4;5"⟩,
      ⟨tenantKey, .like, "' OR 1=1", "tenant.key:like:' OR 1=1"⟩]
  allowed := NameSet.ofList ["tenant"]

/-- By the field that only the request knows, then by the number of tags. -/
def order : SortSpec where
  tokens :=
    [⟨tenantKey, .descending, "tenant.key:desc"⟩,
      ⟨tagCount, .ascending, "tags.size():asc"⟩]
  allowed := NameSet.ofList ["tenant"]

/-- The third page of five people. -/
def request : ListQuery := ⟨conditions, order, ⟨2, some 5⟩⟩

/-- A compiler for people in one dialect. -/
def compiler : Compiler := ⟨people, Database.postgres.config⟩

end Sample

end RecordQuery
