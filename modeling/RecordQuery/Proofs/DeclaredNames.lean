import RecordQuery.Proofs.StoragePath

/-!
# Reaching a field by its declared name

A name leads to the first field of a table that answers to it, and a field answers to its storage
alias as well. So when the declared names of a table are all different, a field is reached by its
own name unless an earlier field goes by that name in storage. The earlier field is reached then.

1. `Field.LeadsTo`: a name leads to a field wherever it is looked up in a table.
2. `Field.isFirst_name_of_forall`, `Field.isFirst_name_of_isFirstAlias`: which field is the first
   that answers to the name of a field.
3. `Field.declared_name_leads_iff`: the name leads to the field exactly when it is no earlier alias.
4. `Field.declared_name_captured`: an earlier alias takes the name away.
-/
namespace RecordQuery

namespace Field

/-! ## Wherever a name is looked up -/

/-- A name leads to a field wherever it is looked up in a table: among the fields of a shape, at the
root of a request's paths, and in a walk, once the table is reached. -/
structure LeadsTo (fields : List Field) (name : String) (field : Field) : Prop where
  declared : ∀ shape : Shape, shape.fields = fields → shape.field? name = some field
  /-- A path with this root is not refused, whatever is allowed. -/
  admitted : ∀ kind allowed, ∀ path : FieldPath, path.root = name →
    Access.resolve kind fields allowed [path] = .ok [⟨path, field.storageName, some field⟩]
  /-- Among other paths, it has the same place. -/
  placed : ∀ kind allowed paths places, Access.resolve kind fields allowed paths = .ok places →
    List.Forall₂ (fun path place => path.root = name →
      place = ⟨path, field.storageName, some field⟩) paths places
  walked : ∀ (start : Field) before arrival after, start.walk before = .ok arrival →
    arrival.type.Holds fields → start.walk (before ++ name :: after) =
      (field.walk after).map fun r => ⟨r.type, arrival.storage ++ field.storageName :: r.storage⟩

/-- A name leads to one field only. -/
theorem LeadsTo.unique {fields : List Field} {name : String} {f g : Field}
    (hf : LeadsTo fields name f) (hg : LeadsTo fields name g) : f = g :=
  Option.some.inj ((hf.declared ⟨"", fields⟩ rfl).symm.trans (hg.declared ⟨"", fields⟩ rfl))

/-- In a walk that has reached a table, a name leads to the first field that answers to it. -/
theorem IsFirst.walk_append {fields : List Field} {name : String} {field : Field}
    (h : IsFirst fields name field) {start : Field} {before : List String} {arrival : ResolvedField}
    (hw : start.walk before = .ok arrival) (ht : arrival.type.Holds fields) (after : List String) :
    start.walk (before ++ name :: after) = (field.walk after).map fun r =>
      ⟨r.type, arrival.storage ++ field.storageName :: r.storage⟩ := by
  unfold walk at hw ⊢
  rw [walkFrom_append, hw]
  dsimp only [Except.bind]
  rw [walkFrom_cons, FieldType.nestedFields?_eq_some_iff.2 ht]
  dsimp only
  rw [lookup_eq_some_iff.2 h]
  dsimp only
  cases walkFrom field.name field.type after <;> rfl

/-- A name leads to the first field that answers to it. -/
theorem IsFirst.leadsTo {fields : List Field} {name : String} {field : Field}
    (h : IsFirst fields name field) : LeadsTo fields name field where
  declared shape hs := by
    unfold Shape.field?
    rw [hs]
    exact lookup_eq_some_iff.2 h
  admitted kind allowed path hp := by
    subst hp
    have hpermits : Access.permits fields allowed path.root = true := by
      simp [Access.permits, lookup_eq_some_iff.2 h]
    rw [Access.resolve_eq, Access.check_ok_iff.2 (List.forall_mem_singleton.2 hpermits)]
    exact congrArg (fun place => Except.ok [place]) (Access.locate_of_isFirst h)
  placed kind allowed paths places hr := by
    rw [Access.resolve_eq] at hr
    obtain ⟨_, _, rfl⟩ := map_eq_ok_iff.1 hr
    refine List.forall₂_map_right_iff.2 (List.forall₂_same.2 fun path _ hroot => ?_)
    subst hroot
    exact Access.locate_of_isFirst h
  walked start before arrival after hw ht := h.walk_append hw ht after

/-! ## Where a declared name leads -/

/-- The first field of a table that goes by a name in storage. -/
def IsFirstAlias (fields : List Field) (name : String) (field : Field) : Prop :=
  ∃ front back, fields = front ++ field :: back ∧ field.storedAs = some name ∧
    ∀ f ∈ front, f.storedAs ≠ some name

theorem exists_isFirstAlias {fields : List Field} {name : String} {field : Field}
    (hm : field ∈ fields) (h : field.storedAs = some name) :
    ∃ first, IsFirstAlias fields name first := by
  induction fields with
  | nil => cases hm
  | cons head rest ih =>
    by_cases hhead : head.storedAs = some name
    · exact ⟨head, [], rest, rfl, hhead, nofun⟩
    · have hrest : field ∈ rest := by
        rcases List.mem_cons.1 hm with rfl | hrest
        · exact absurd h hhead
        · exact hrest
      obtain ⟨first, front, back, rfl, hfirst, hfront⟩ := ih hrest
      exact ⟨first, head :: front, back, rfl, hfirst, List.forall_mem_cons.2 ⟨hhead, hfront⟩⟩

variable {front back : List Field} {f : Field}

/-- With different names, no field before another has its name. -/
theorem name_ne_of_nodup (hnames : ((front ++ f :: back).map Field.name).Nodup) :
    ∀ g ∈ front, g.name ≠ f.name := by
  rw [List.map_append, List.map_cons] at hnames
  intro g hg
  exact (List.nodup_append.1 hnames).2.2 g.name (List.mem_map_of_mem hg) f.name List.mem_cons_self

/-- The name of a field is its own when no earlier field has it as an alias. -/
theorem isFirst_name_of_forall (hnames : ((front ++ f :: back).map Field.name).Nodup)
    (h : ∀ g ∈ front, g.storedAs ≠ some f.name) : IsFirst (front ++ f :: back) f.name f :=
  ⟨front, back, rfl, .inl rfl, fun g hg ha =>
    ha.elim (name_ne_of_nodup hnames g hg) (h g hg)⟩

/-- The first earlier field that has it as an alias takes it away. -/
theorem isFirst_name_of_isFirstAlias (hnames : ((front ++ f :: back).map Field.name).Nodup)
    {g : Field} (h : IsFirstAlias front f.name g) : IsFirst (front ++ f :: back) f.name g := by
  have hname := name_ne_of_nodup hnames
  obtain ⟨before, after, rfl, halias, hbefore⟩ := h
  refine ⟨before, after ++ f :: back, by simp, .inr halias, fun e he ha => ?_⟩
  exact ha.elim (hname e (List.mem_append_left _ he)) (hbefore e he)

end Field

namespace Sample

/-- A field that is stored under the name of the next one, which has moved. -/
def username : Field := { name := "username", type := .text, storedAs := some "name" }

def fullName : Field := { name := "name", type := .text, storedAs := some "full_name" }

end Sample

namespace Field

/-- Wherever the declared name of a field is looked up, it leads to the field itself exactly when no
earlier field of the table has it as an alias. Otherwise it leads to the first such field. -/
theorem declared_name_leads_iff {fields front back : List Field} {f : Field}
    (hf : fields = front ++ f :: back) (hnames : (fields.map Field.name).Nodup) :
    (LeadsTo fields f.name f ↔ ∀ g ∈ front, g.storedAs ≠ some f.name) ∧
      ∀ g, IsFirstAlias front f.name g → LeadsTo fields f.name g := by
  subst hf
  have hcaptured : ∀ g, IsFirstAlias front f.name g → LeadsTo (front ++ f :: back) f.name g :=
    fun g hg => (isFirst_name_of_isFirstAlias hnames hg).leadsTo
  refine ⟨⟨fun h g hg halias => ?_, fun h => (isFirst_name_of_forall hnames h).leadsTo⟩, hcaptured⟩
  -- The name would lead to two fields with different names.
  obtain ⟨first, hfirst⟩ := exists_isFirstAlias hg halias
  have hmem : first ∈ front := by
    obtain ⟨before, after, rfl, _, _⟩ := hfirst
    exact List.mem_append_right before List.mem_cons_self
  exact name_ne_of_nodup hnames first hmem (congrArg Field.name ((hcaptured first hfirst).unique h))

/-- The first field has its name, and also that of the second. -/
theorem declared_name_leads_iff_renamed :
    LeadsTo [Sample.username, Sample.fullName] "username" Sample.username ∧
    LeadsTo [Sample.username, Sample.fullName] "name" Sample.username := by
  have hnames : ([Sample.username, Sample.fullName].map Field.name).Nodup := by decide
  have hfirst := @declared_name_leads_iff _ [] [Sample.fullName] Sample.username rfl hnames
  have hsecond := @declared_name_leads_iff _ [Sample.username] [] Sample.fullName rfl hnames
  exact ⟨hfirst.1.2 nofun, hsecond.2 Sample.username ⟨[], [], rfl, rfl, nofun⟩⟩

/-- A name that is an earlier alias does not lead to its field, although no two fields have the same
name: a path is given the place of the other field. -/
theorem declared_name_captured :
    ([Sample.username, Sample.fullName].map Field.name).Nodup ∧
    Sample.fullName ∈ [Sample.username, Sample.fullName] ∧
    ¬LeadsTo [Sample.username, Sample.fullName] Sample.fullName.name Sample.fullName ∧
    Access.resolve .filter [Sample.username, Sample.fullName] ∅ [⟨"name", [], none, by decide⟩] =
      .ok [⟨⟨"name", [], none, by decide⟩, "name", some Sample.username⟩] := by
  refine ⟨by decide, List.mem_cons_of_mem _ List.mem_cons_self, fun h => ?_, rfl⟩
  have hname := congrArg Field.name (Option.some.inj (h.declared ⟨"", _⟩ rfl))
  exact absurd hname (by decide)

end Field

end RecordQuery
