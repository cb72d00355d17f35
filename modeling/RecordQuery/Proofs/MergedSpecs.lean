import RecordQuery.Proofs.Precedence
import RecordQuery.Proofs.Tree

/-!
# Merged specs

Appending a filter spec to another one is a merge: it is associative, and what is compiled of the
merge is what is compiled of the two parts, one after the other. The merge allows more names than
either part does, so the law needs that a name which is allowed changes nothing but permission: a
declared field stays declared, and a path has one place whatever names are allowed.

The merge is not symmetric. What is appended is trusted, so its roots are allowed in the merge; the
roots of the first part are allowed only where they are declared, allowed or appended.

1. `Compiler.PlansFilter.allow`: names that are allowed change nothing but permission.
2. `Compiler.planFilters_concat`: the plan of a merge.
3. `Compiler.planFilters_disallowed_iff`: when the roots of a spec are what is reported.
4. `FilterSpec.StaysUnknown`: the roots that a merge refuses.
5. `Compiler.compileText_concat`: what is compiled of a merge.
-/
namespace RecordQuery

/-! ## Allowed names -/

theorem Access.permits_iff {fields : List Field} {allowed : NameSet} {root : String} :
    Access.permits fields allowed root = true ↔
      (∃ f ∈ fields, f.Answers root) ∨ root ∈ allowed := by
  have hlookup := @Field.lookup_eq_none_iff fields root
  unfold Access.permits
  cases hl : Field.lookup fields root with
  | none =>
    have hnone : ¬∃ f ∈ fields, f.Answers root := fun ⟨f, hf, ha⟩ => hlookup.1 hl f hf ha
    simp [hnone]
  | some field =>
    obtain ⟨hm, ha⟩ : field ∈ fields ∧ field.Answers root := by
      have hfirst := Field.lookup_eq_some_iff.1 hl
      exact ⟨hfirst.mem, hfirst.answers⟩
    exact iff_of_true rfl (.inl ⟨field, hm, ha⟩)

namespace Compiler

variable {c : Compiler} {a b : FilterSpec} {qualifier : String}

/-- To allow further names permits more, and changes nothing else in the entry of a token. -/
theorem PlansFilter.allow {allowed larger : NameSet} {t : FilterToken} {p : PlannedFilter}
    (h : c.PlansFilter allowed t p) (hl : ∀ name ∈ allowed, name ∈ larger) :
    c.PlansFilter larger t p :=
  ⟨h.short, Access.permits_iff.2 ((Access.permits_iff.1 h.permitted).imp id (hl _)), h.planned⟩

theorem planFilters_allow {tokens : List FilterToken} {allowed larger : NameSet}
    {plan : List PlannedFilter} (h : c.planFilters ⟨tokens, allowed⟩ = .ok plan)
    (hl : ∀ name ∈ allowed, name ∈ larger) : c.planFilters ⟨tokens, larger⟩ = .ok plan := by
  obtain ⟨hcount, hp⟩ := planFilters_eq_ok_iff.1 h
  have hlarger : List.Forall₂ (c.PlansFilter larger) tokens plan := hp.imp fun _ _ h => h.allow hl
  exact planFilters_eq_ok_iff.2 ⟨hcount, hlarger⟩

/-- To allow further names changes nothing in what is compiled already. -/
theorem compileText_allow {tokens : List FilterToken} {allowed larger : NameSet} {clause : Clause}
    (h : c.compileText ⟨tokens, allowed⟩ qualifier = .ok clause)
    (hl : ∀ name ∈ allowed, name ∈ larger) :
    c.compileText ⟨tokens, larger⟩ qualifier = .ok clause := by
  obtain ⟨plan, hp, rfl⟩ := compileText_eq_ok_iff.1 h
  exact compileText_eq_ok_iff.2 ⟨plan, planFilters_allow hp hl, rfl⟩

theorem compileCondition_allow {tokens : List FilterToken} {allowed larger : NameSet}
    {source : Source} {condition : Condition}
    (h : c.compileCondition ⟨tokens, allowed⟩ source = .ok condition)
    (hl : ∀ name ∈ allowed, name ∈ larger) :
    c.compileCondition ⟨tokens, larger⟩ source = .ok condition := by
  obtain ⟨plan, entries, hp, he, rfl⟩ := compileCondition_eq_ok_iff.1 h
  exact compileCondition_eq_ok_iff.2 ⟨plan, entries, planFilters_allow hp hl, he, rfl⟩

/-! ## The plan of a merge -/

theorem size_concat_le {l : Nat} (h : a.size + b.size ≤ l) : (a.concat b).size ≤ l := by
  show (a.tokens ++ b.tokens).length ≤ l
  rw [List.length_append]
  exact h

/-- The plan of a merge is the plan of its parts, one after the other. -/
theorem planFilters_concat {p q : List PlannedFilter}
    (hcount : ∀ l, c.config.maxFilterParams = some l → a.size + b.size ≤ l)
    (ha : c.planFilters a = .ok p) (hb : c.planFilters b = .ok q) :
    c.planFilters (a.concat b) = .ok (p ++ q) := by
  have hleft : ∀ name ∈ a.allowed, name ∈ (a.concat b).allowed :=
    fun _ h => FilterSpec.mem_allowed_concat.2 (.inl h)
  have hright : ∀ name ∈ b.allowed, name ∈ (a.concat b).allowed :=
    fun _ h => FilterSpec.mem_allowed_concat.2 (.inr (.inl h))
  refine planFilters_eq_ok_iff.2 ⟨fun l hl => size_concat_le (hcount l hl), List.rel_append ?_ ?_⟩
  · exact (planFilters_eq_ok_iff.1 ha).2.imp fun _ _ h => h.allow hleft
  · exact (planFilters_eq_ok_iff.1 hb).2.imp fun _ _ h => h.allow hright

/-! ## Roots that are reported -/

/-- The roots of a spec are what is reported once neither the number of its tokens nor the length of
their values is at fault. -/
theorem planFilters_disallowed_iff {spec : FilterSpec} {kind : ParamKind} {names : NameSet} :
    c.planFilters spec = .error (.disallowedFields kind names) ↔
      (∀ l, c.config.maxFilterParams = some l → spec.size ≤ l) ∧
      (∀ t ∈ spec.tokens, t.value.length ≤ c.config.maxValueLength) ∧
      Disallowed .filter c.shape.fields spec.allowed (spec.tokens.map (·.path))
        (.disallowedFields kind names) := by
  have hreports : Reports (Access.check .filter c.shape.fields spec.allowed
      (spec.tokens.map (·.path))) (Disallowed .filter c.shape.fields spec.allowed
      (spec.tokens.map (·.path))) := fun e => by
    rw [← reports_resolve e, Access.resolve_eq, map_eq_error_iff]
  rw [planFilters_eq]
  constructor
  · intro h
    rcases bind_eq_error_iff.1 h with h | ⟨_, hcount, h⟩
    · obtain ⟨_, _, _, he⟩ := (reports_checkCount _).1 h
      cases he
    rcases bind_eq_error_iff.1 h with h | ⟨_, hshort, h⟩
    · obtain ⟨_, _, _, he⟩ := ((reports_checkLengths _).1 h).exists_mem
      cases he
    rcases bind_eq_error_iff.1 h with h | ⟨_, _, h⟩
    · exact ⟨checkCount_eq_ok_iff.1 hcount, checkLengths_eq_ok_iff.1 hshort, (hreports _).1 h⟩
    -- What is wrong with a token by itself is reported with the token, and roots are not.
    obtain ⟨t, _, hfault⟩ := FirstFault.exists_mem
      ((Reports.collect (fun t _ => reports_planFilter c.shape.fields t) _).1 h)
    cases hfault.token?
  · rintro ⟨hcount, hshort, hroots⟩
    rw [checkCount_eq_ok_iff.2 hcount, checkLengths_eq_ok_iff.2 hshort]
    simp only [Except.bind, (hreports _).2 hroots]

theorem compileText_eq_error_iff {spec : FilterSpec} {e : QueryError} :
    c.compileText spec qualifier = .error e ↔ c.planFilters spec = .error e := map_eq_error_iff

end Compiler

/-- A root of the first part of a merge that stays unknown in it. -/
structure FilterSpec.StaysUnknown (fields : List Field) (a b : FilterSpec) (name : String) :
    Prop where
  used : ∃ t ∈ a.tokens, t.path.root = name
  undeclared : ∀ f ∈ fields, ¬f.Answers name
  not_allowed : ¬name ∈ a.allowed ∧ ¬name ∈ b.allowed
  not_appended : ∀ t ∈ b.tokens, t.path.root ≠ name

/-- A name is refused in a merge when it is a root of the first part that stays unknown. -/
theorem FilterSpec.staysUnknown_iff {fields : List Field} {a b : FilterSpec} {name : String} :
    StaysUnknown fields a b name ↔
      (∃ path ∈ (a.concat b).tokens.map (·.path), path.root = name) ∧
        (∀ f ∈ fields, ¬f.Answers name) ∧ ¬name ∈ (a.concat b).allowed := by
  have hroots : name ∈ b.roots ↔ ∃ t ∈ b.tokens, t.path.root = name := List.mem_map
  have hused : (∃ path ∈ (a.concat b).tokens.map (·.path), path.root = name) ↔
      (∃ t ∈ a.tokens, t.path.root = name) ∨ ∃ t ∈ b.tokens, t.path.root = name := by
    simp [concat, or_and_right, exists_or]
  rw [hused, mem_allowed_concat, hroots]
  constructor
  · rintro ⟨hused, hundeclared, ⟨ha, hb⟩, hn⟩
    refine ⟨.inl hused, hundeclared, ?_⟩
    rintro (h | h | ⟨t, ht, hroot⟩)
    · exact ha h
    · exact hb h
    · exact hn t ht hroot
  · rintro ⟨hused | happended, hundeclared, hn⟩
    · exact ⟨hused, hundeclared, ⟨fun h => hn (.inl h), fun h => hn (.inr (.inl h))⟩,
        fun t ht hroot => hn (.inr (.inr ⟨t, ht, hroot⟩))⟩
    · exact absurd (.inr (.inr happended)) hn

namespace Compiler

/-- The conditions of a spec, one for each token, which the token has by itself as well. -/
def Conditions (c : Compiler) (spec : FilterSpec) (qualifier : String) (conditions : List Clause) :
    Prop :=
  List.Forall₂ (fun t condition =>
    c.compileText ⟨[t], spec.allowed⟩ qualifier = .ok (Clause.ofConditions [condition]))
    spec.tokens conditions

variable {c : Compiler} {a b : FilterSpec} {qualifier : String}

theorem conditions_of_planFilters {spec : FilterSpec} {plan : List PlannedFilter}
    (h : c.planFilters spec = .ok plan) :
    c.Conditions spec qualifier (plan.map (·.clause qualifier)) :=
  List.forall₂_map_right_iff.2 ((planFilters_single h).imp fun _ p htp =>
    compileText_eq_ok_iff.2 ⟨[p], htp.2, Clause.ofFilters_eq qualifier [p]⟩)

/-- Two specs that are accepted are accepted as one: with the conditions of the first and then those
of the second, and so with their values. -/
theorem exists_conditions_concat {first second : Clause}
    (hcount : ∀ l, c.config.maxFilterParams = some l → a.size + b.size ≤ l)
    (ha : c.compileText a qualifier = .ok first) (hb : c.compileText b qualifier = .ok second) :
    ∃ firsts seconds, c.Conditions a qualifier firsts ∧ c.Conditions b qualifier seconds ∧
      first = Clause.ofConditions firsts ∧ second = Clause.ofConditions seconds ∧
      c.compileText (a.concat b) qualifier = .ok (Clause.ofConditions (firsts ++ seconds)) ∧
      (Clause.ofConditions (firsts ++ seconds)).values = first.values ++ second.values := by
  obtain ⟨p, hp, rfl⟩ := compileText_eq_ok_iff.1 ha
  obtain ⟨q, hq, rfl⟩ := compileText_eq_ok_iff.1 hb
  refine ⟨_, _, conditions_of_planFilters hp, conditions_of_planFilters hq,
    Clause.ofFilters_eq qualifier p, Clause.ofFilters_eq qualifier q, ?_, ?_⟩
  · rw [← List.map_append]
    exact compileText_eq_ok_iff.2
      ⟨p ++ q, planFilters_concat hcount hp hq, Clause.ofFilters_eq qualifier (p ++ q)⟩
  · rw [Clause.ofFilters_eq, Clause.ofFilters_eq]
    exact List.flatMap_append

/-- A merge within the limits is refused for its roots when some stay unknown, and for just them. -/
theorem disallowed_concat_iff
    (hcount : ∀ l, c.config.maxFilterParams = some l → a.size + b.size ≤ l)
    (hshort : ∀ t ∈ a.tokens ++ b.tokens, t.value.length ≤ c.config.maxValueLength)
    {kind : ParamKind} {names : NameSet} :
    c.compileText (a.concat b) qualifier = .error (.disallowedFields kind names) ↔
      kind = .filter ∧ (∃ name, FilterSpec.StaysUnknown c.shape.fields a b name) ∧
      ∀ name, name ∈ names ↔ FilterSpec.StaysUnknown c.shape.fields a b name := by
  rw [compileText_eq_error_iff, planFilters_disallowed_iff]
  constructor
  · rintro ⟨_, _, _, ⟨name, hname⟩, hnames, he⟩
    cases he
    have hall := fun other => (hnames other).trans FilterSpec.staysUnknown_iff.symm
    exact ⟨rfl, ⟨name, (hall name).1 hname⟩, hall⟩
  · rintro ⟨rfl, ⟨name, hname⟩, hall⟩
    exact ⟨fun l hl => size_concat_le (hcount l hl), hshort, names, ⟨name, (hall name).2 hname⟩,
      fun other => (hall other).trans FilterSpec.staysUnknown_iff, rfl⟩

/-- What is appended is trusted: whatever else is wrong, none of its roots is refused. -/
theorem root_not_disallowed_concat {kind : ParamKind} {names : NameSet}
    (h : c.compileText (a.concat b) qualifier = .error (.disallowedFields kind names))
    {t : FilterToken} (ht : t ∈ b.tokens) : ¬t.path.root ∈ names := by
  obtain ⟨_, _, _, _, hnames, he⟩ := planFilters_disallowed_iff.1 (compileText_eq_error_iff.1 h)
  cases he
  exact fun hmem => (FilterSpec.staysUnknown_iff.2 ((hnames _).1 hmem)).not_appended t ht rfl

/-- Appending is an associative merge, compiled to both parts: to the conditions of the first and
then those of the second, with their values. Of its roots, those of the first part that stay unknown
are refused, and no others. -/
theorem compileText_concat (c : Compiler) (a b : FilterSpec) (qualifier : String) :
    (∀ d : FilterSpec, (a.concat b).concat d = a.concat (b.concat d)) ∧
    ((∀ l, c.config.maxFilterParams = some l → a.size + b.size ≤ l) →
      (∀ first second, c.compileText a qualifier = .ok first →
        c.compileText b qualifier = .ok second →
        ∃ firsts seconds, c.Conditions a qualifier firsts ∧ c.Conditions b qualifier seconds ∧
          first = Clause.ofConditions firsts ∧ second = Clause.ofConditions seconds ∧
          c.compileText (a.concat b) qualifier = .ok (Clause.ofConditions (firsts ++ seconds)) ∧
          (Clause.ofConditions (firsts ++ seconds)).values = first.values ++ second.values) ∧
      ((∀ t ∈ a.tokens ++ b.tokens, t.value.length ≤ c.config.maxValueLength) →
        ∀ kind names, c.compileText (a.concat b) qualifier = .error (.disallowedFields kind names) ↔
          kind = .filter ∧ (∃ name, FilterSpec.StaysUnknown c.shape.fields a b name) ∧
          ∀ name, name ∈ names ↔ FilterSpec.StaysUnknown c.shape.fields a b name)) ∧
    (∀ larger : NameSet, (∀ name ∈ a.allowed, name ∈ larger) →
      (∀ clause, c.compileText a qualifier = .ok clause →
        c.compileText ⟨a.tokens, larger⟩ qualifier = .ok clause) ∧
      ∀ source condition, c.compileCondition a source = .ok condition →
        c.compileCondition ⟨a.tokens, larger⟩ source = .ok condition) ∧
    ∀ kind names, c.compileText (a.concat b) qualifier = .error (.disallowedFields kind names) →
      ∀ t ∈ b.tokens, ¬t.path.root ∈ names := by
  refine ⟨FilterSpec.concat_assoc a b, fun hcount => ⟨?_, ?_⟩, fun larger hl => ⟨?_, ?_⟩, ?_⟩
  · exact fun first second ha hb => exists_conditions_concat hcount ha hb
  · exact fun hshort kind names => disallowed_concat_iff hcount hshort
  · exact fun clause h => compileText_allow h hl
  · exact fun source condition h => compileCondition_allow h hl
  · exact fun kind names h t ht => root_not_disallowed_concat h ht

end Compiler

namespace Sample

/-- The length of a city is one of two. -/
def cityLengths : FilterSpec := Spec.ofTokens (conditions.tokens.take 1)

/-- A text is in a field that only the request knows. -/
def tenantKeys : FilterSpec := ⟨conditions.tokens.drop 1, conditions.allowed⟩

/-- A field that the request is not allowed is nothing. -/
def ghosts : FilterSpec := Spec.ofTokens [ghost]

theorem staysUnknown_ghosts {name : String} :
    FilterSpec.StaysUnknown people.fields ghosts tenantKeys name ↔ name = "ghost" := by
  constructor
  · rintro ⟨⟨t, ht, hroot⟩, _⟩
    cases List.mem_singleton.1 ht
    exact hroot.symm
  · rintro rfl
    have hundeclared : ∀ f ∈ people.fields, ¬f.Answers "ghost" := by simp [people, Field.Answers]
    exact ⟨⟨ghost, .head _, rfl⟩, hundeclared, by decide, by decide⟩

end Sample

/-- Two specs that are accepted merge to their conditions with the values of both. Merged with a
spec that does not allow it, an unknown root stays unknown. -/
theorem Compiler.compileText_concat_people :
    (∃ clause, Sample.compiler.compileText (Sample.cityLengths.concat Sample.tenantKeys) "p." =
        .ok clause ∧
      clause.values = [.int64 4, .int64 5, .text "%' OR 1=1%"]) ∧
    Sample.compiler.compileText (Sample.ghosts.concat Sample.tenantKeys) "p." =
      .error (.disallowedFields .filter (NameSet.ofList ["ghost"])) ∧
    Sample.compiler.compileText ⟨Sample.cityLengths.tokens, NameSet.ofList ["ghost", "address"]⟩
      "p." = Sample.compiler.compileText Sample.cityLengths "p." := by
  obtain ⟨_, hmerge, hallow, _⟩ :=
    compileText_concat Sample.compiler Sample.cityLengths Sample.tenantKeys "p."
  have hlarger := hallow (NameSet.ofList ["ghost", "address"]) fun name h =>
    absurd h (NameSet.not_mem_empty name)
  refine ⟨?_, ?_, hlarger.1 _ rfl⟩
  · obtain ⟨_, _, _, _, _, _, h, hvalues⟩ := (hmerge nofun).1 _ _ rfl rfl
    exact ⟨_, h, hvalues⟩
  · obtain ⟨_, hghost, _⟩ := compileText_concat Sample.compiler Sample.ghosts Sample.tenantKeys "p."
    refine ((hghost nofun).2 (by decide) .filter _).2
      ⟨rfl, ⟨_, Sample.staysUnknown_ghosts.2 rfl⟩, fun name => ?_⟩
    rw [NameSet.mem_ofList, List.mem_singleton]
    exact Sample.staysUnknown_ghosts.symm

end RecordQuery
