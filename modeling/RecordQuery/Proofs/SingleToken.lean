import RecordQuery.Proofs.Backends
import RecordQuery.Proofs.Logging
import RecordQuery.Proofs.SameRows

/-!
# A token by itself

A spec of one token is compiled in two steps. First come the checks that only look at the path, the
operator and the length of the value; then the value is read, and what it is read as is written. So
tokens with one path under operators that read values differ in their values alone: once one of them
has come to its value, so has each of the others that is short enough.

1. `Compiler.ReachesValue`: the checks before the value pass.
2. `Compiler.ReachesValue.planFilters_eq`, `compileText_eq`, `compileCondition_eq`: what is left.
3. `Compiler.exists_reachesValue_of_coercion`: a value that is refused has been come to.
4. `Compiler.ReachesValue.of_path`: tokens with one path come to their values alike.
5. `Compiler.compileText_singleton_eq_ok_iff`, `Compiler.compileCondition_singleton_eq_ok_iff`: what
   is written for a token.
6. `Compiler.exists_condition_iff`, `Compiler.compileCondition_coercion_iff`: trees accept what is
   planned and has a place, and refuse the values that planning refuses.
-/
namespace RecordQuery

/-! ## Fields that differ in their token -/

namespace PlannedField

/-- The text of the token is only the name of the field in errors. -/
theorem value_of_token {f : PlannedField} {raw : String} {v : Value} (token : String) :
    { f with token := token }.value raw = .ok v ↔ f.value raw = .ok v := by
  rw [value_eq_ok_iff, value_eq_ok_iff]

theorem value_error_of_token {f : PlannedField} {raw : String} {cause : CoercionError}
    (token : String) :
    { f with token := token }.value raw = .error (.coercion token cause) ↔
      f.value raw = .error (.coercion f.token cause) := by
  rw [value_eq_error_iff, value_eq_error_iff]
  simp

theorem target_of_token {f : PlannedField} {source : Source} {target : Target} (token : String) :
    { f with token := token }.target source = .ok target ↔ f.target source = .ok target := by
  rw [target_eq_ok_iff, target_eq_ok_iff]

end PlannedField

namespace Compiler

/-! ## Up to the value -/

/-- A token comes to its value: the checks of its spec pass, its path is planned as a field, and the
field has the function of the path, under this operator. -/
structure ReachesValue (c : Compiler) (allowed : NameSet) (t : FilterToken) (f : PlannedField) :
    Prop where
  count : ∀ l, c.config.maxFilterParams = some l → 1 ≤ l
  short : t.value.length ≤ c.config.maxValueLength
  permitted : Access.permits c.shape.fields allowed t.path.root = true
  planned : PlannedField.ofPath t.raw (Access.locate c.shape.fields t.path) = .ok f
  function : f.checkFunction (some t.operator) = .ok ()

variable {c : Compiler} {allowed : NameSet} {t u : FilterToken} {f : PlannedField}

/-- The steps of planning a single token. -/
theorem planFilters_singleton (c : Compiler) (allowed : NameSet) (t : FilterToken) :
    c.planFilters ⟨[t], allowed⟩ =
      (checkCount .filter 1 c.config.maxFilterParams).bind fun () =>
      (checkLengths c.config.maxValueLength [t]).bind fun () =>
      (Access.check .filter c.shape.fields allowed [t.path]).bind fun () =>
      (PlannedField.ofPath t.raw (Access.locate c.shape.fields t.path)).bind fun f =>
      (f.checkFunction (some t.operator)).bind fun () =>
      (f.operand t.operator t.value).map fun o => [⟨f, o⟩] := by
  have hcollect : collect (fun t => planFilter t (Access.locate c.shape.fields t.path)) [t] =
      (planFilter t (Access.locate c.shape.fields t.path)).map fun p => [p] := by
    unfold collect
    cases planFilter t (Access.locate c.shape.fields t.path) <;> rfl
  rw [planFilters_eq, hcollect]
  unfold planFilter
  cases PlannedField.ofPath t.raw (Access.locate c.shape.fields t.path) with
  | error e => rfl
  | ok f =>
    simp only [Except.bind, PlannedField.filter_eq]
    cases f.checkFunction (some t.operator) with
    | error e => rfl
    | ok u => cases f.operand t.operator t.value <;> rfl

theorem ReachesValue.planFilters_eq (h : c.ReachesValue allowed t f) :
    c.planFilters ⟨[t], allowed⟩ =
      (f.operand t.operator t.value).map fun o => [⟨f, o⟩] := by
  rw [planFilters_singleton, checkCount_eq_ok_iff.2 h.count,
    checkLengths_eq_ok_iff.2 (List.forall_mem_singleton.2 h.short),
    Access.check_ok_iff.2 (List.forall_mem_singleton.2 h.permitted), h.planned]
  simp only [Except.bind, h.function]

/-- A value that is refused in a single token. -/
theorem ReachesValue.planFilters_coercion_iff (h : c.ReachesValue allowed t f)
    {token : String} {cause : CoercionError} :
    c.planFilters ⟨[t], allowed⟩ = .error (.coercion token cause) ↔
      f.operand t.operator t.value = .error (.coercion token cause) := by
  rw [h.planFilters_eq, map_eq_error_iff]

theorem ReachesValue.exists_plan_iff (h : c.ReachesValue allowed t f) :
    (∃ plan, c.planFilters ⟨[t], allowed⟩ = .ok plan) ↔
      ∃ o, f.operand t.operator t.value = .ok o := by
  rw [h.planFilters_eq]
  cases f.operand t.operator t.value <;> simp [Except.map]

/-- A token that is planned has come to its value. -/
theorem exists_reachesValue_of_ok {plan : List PlannedFilter}
    (h : c.planFilters ⟨[t], allowed⟩ = .ok plan) : ∃ f, c.ReachesValue allowed t f := by
  obtain ⟨hcount, hplan⟩ := planFilters_eq_ok_iff.1 h
  obtain ⟨p, _, htp, _, _⟩ := List.forall₂_cons_left_iff.1 hplan
  obtain ⟨hf, hfunction, _⟩ := planFilter_eq_ok_iff.1 htp.planned
  exact ⟨p.field, hcount, htp.short, htp.permitted, hf, hfunction⟩

/-- A value that is refused has been come to: no check before it reports a coercion. -/
theorem exists_reachesValue_of_coercion {token : String} {cause : CoercionError}
    (h : c.planFilters ⟨[t], allowed⟩ = .error (.coercion token cause)) :
    ∃ f, c.ReachesValue allowed t f := by
  rw [planFilters_singleton] at h
  rcases bind_eq_error_iff.1 h with h | ⟨_, hcount, h⟩
  · obtain ⟨_, _, _, he⟩ := (reports_checkCount _).1 h
    cases he
  rcases bind_eq_error_iff.1 h with h | ⟨_, hshort, h⟩
  · obtain ⟨_, _, _, he⟩ := ((reports_checkLengths _).1 h).exists_mem
    cases he
  rcases bind_eq_error_iff.1 h with h | ⟨_, hpermitted, h⟩
  · obtain ⟨_, he⟩ := Access.check_error_iff.1 h
    cases he
  rcases bind_eq_error_iff.1 h with h | ⟨f, hplanned, h⟩
  · cases (PlannedField.reports_ofPath _).1 h
  rcases bind_eq_error_iff.1 h with h | ⟨_, hfunction, _⟩
  · cases (f.reports_checkFunction _ _).1 h
  exact ⟨f, checkCount_eq_ok_iff.1 hcount,
    checkLengths_eq_ok_iff.1 hshort t List.mem_cons_self,
    Access.check_ok_iff.1 hpermitted t.path List.mem_cons_self, hplanned, hfunction⟩

/-- With a value that is short enough, under any operator that reads values, a token with the same
path comes to its value as well. -/
theorem ReachesValue.of_path (h : c.ReachesValue allowed t f) (hpath : u.path = t.path)
    (hoperator : u.operator.ReadsValues) (hshort : u.value.length ≤ c.config.maxValueLength) :
    c.ReachesValue allowed u { f with token := u.raw } where
  count := h.count
  short := hshort
  permitted := by
    rw [hpath]
    exact h.permitted
  planned := by
    rw [hpath]
    exact PlannedField.ofPath_of_token h.planned u.raw
  function := PlannedField.checkFunction_eq_ok_iff.2 fun function hf =>
    ⟨(PlannedField.checkFunction_eq_ok_iff.1 h.function function hf).1, fun o ho => by
      cases ho
      exact hoperator⟩

/-! ## Written -/

theorem ReachesValue.compileText_eq (h : c.ReachesValue allowed t f) (qualifier : String) :
    c.compileText ⟨[t], allowed⟩ qualifier =
      (f.operand t.operator t.value).map fun o =>
        ⟨"WHERE " ++ f.column qualifier ++ " " ++ o.sql, o.values⟩ := by
  unfold compileText
  rw [h.planFilters_eq]
  cases f.operand t.operator t.value with
  | error e => rfl
  | ok o =>
    refine congrArg Except.ok ?_
    show Clause.mk ("WHERE " ++ " AND ".intercalate [f.column qualifier ++ " " ++ o.sql])
      ([⟨f, o⟩].flatMap fun p : PlannedFilter => p.operand.values) = _
    rw [String.intercalate_singleton, List.flatMap_singleton, ← String.append_assoc,
      ← String.append_assoc]

theorem ReachesValue.compileCondition_eq (h : c.ReachesValue allowed t f) (source : Source) :
    c.compileCondition ⟨[t], allowed⟩ source =
      (f.operand t.operator t.value).bind fun o => (f.target source).map fun target =>
        ⟨[PlannedFilter.conjunctOn f.isMembership target o]⟩ := by
  unfold compileCondition
  rw [h.planFilters_eq]
  cases f.operand t.operator t.value with
  | error e => rfl
  | ok o =>
    simp only [Except.bind, Except.map, Condition.ofFilters, Condition.entries, collect,
      PlannedFilter.conjunct]
    cases f.target source <;> rfl

/-- What a single token is written as. -/
theorem compileText_singleton_eq_ok_iff {qualifier : String} {clause : Clause} :
    c.compileText ⟨[t], allowed⟩ qualifier = .ok clause ↔
      ∃ f o, c.ReachesValue allowed t f ∧ f.operand t.operator t.value = .ok o ∧
        clause = ⟨"WHERE " ++ f.column qualifier ++ " " ++ o.sql, o.values⟩ := by
  constructor
  · intro hc
    obtain ⟨plan, hp, _⟩ := compileText_eq_ok_iff.1 hc
    obtain ⟨f, h⟩ := exists_reachesValue_of_ok hp
    rw [h.compileText_eq] at hc
    obtain ⟨o, ho, rfl⟩ := map_eq_ok_iff.1 hc
    exact ⟨f, o, h, ho, rfl⟩
  · rintro ⟨f, o, h, ho, rfl⟩
    rw [h.compileText_eq]
    exact map_eq_ok_iff.2 ⟨o, ho, rfl⟩

/-- What a single token is put into a tree as. -/
theorem compileCondition_singleton_eq_ok_iff {source : Source} {condition : Condition} :
    c.compileCondition ⟨[t], allowed⟩ source = .ok condition ↔
      ∃ f o target, c.ReachesValue allowed t f ∧ f.operand t.operator t.value = .ok o ∧
        f.target source = .ok target ∧
        condition = ⟨[PlannedFilter.conjunctOn f.isMembership target o]⟩ := by
  constructor
  · intro hc
    obtain ⟨plan, _, hp, _⟩ := compileCondition_eq_ok_iff.1 hc
    obtain ⟨f, h⟩ := exists_reachesValue_of_ok hp
    rw [h.compileCondition_eq] at hc
    obtain ⟨o, ho, hconjunct⟩ := bind_eq_ok_iff.1 hc
    obtain ⟨target, htarget, rfl⟩ := map_eq_ok_iff.1 hconjunct
    exact ⟨f, o, target, h, ho, htarget, rfl⟩
  · rintro ⟨f, o, target, h, ho, htarget, rfl⟩
    rw [h.compileCondition_eq]
    exact bind_eq_ok_iff.2 ⟨o, ho, map_eq_ok_iff.2 ⟨target, htarget, rfl⟩⟩

/-! ## Compared by its elements -/

theorem ReachesValue.plansField (h : c.ReachesValue allowed t f) :
    c.PlansField allowed t.path f :=
  ⟨h.permitted, t.raw, h.planned⟩

theorem ReachesValue.isMembership_iff (h : c.ReachesValue allowed t f)
    (ho : t.operator.ReadsValues) :
    f.isMembership = true ↔ t.ComparesList c.shape.fields := by
  rw [h.plansField.isMembership_iff]
  exact ⟨fun ⟨hfunction, hdeclares⟩ => ⟨ho, hfunction, hdeclares⟩,
    fun hlist => ⟨hlist.function, hlist.declares⟩⟩

/-! ## Accepted and refused by a tree -/

/-- A tree refuses the values that planning refuses: a missing join is no fault of a value. -/
theorem compileCondition_coercion_iff {spec : FilterSpec} {source : Source} {token : String}
    {cause : CoercionError} :
    c.compileCondition spec source = .error (.coercion token cause) ↔
      c.planFilters spec = .error (.coercion token cause) := by
  unfold compileCondition
  rw [bind_eq_error_iff]
  refine ⟨fun he => he.elim id ?_, .inl⟩
  rintro ⟨plan, _, he⟩
  obtain ⟨p, _, hfault⟩ := ((Reports.collect fun p _ => p.reports_conjunct source) _).1
    (map_eq_error_iff.1 he) |>.exists_mem
  cases hfault

/-- A source has a place for what the path stands for. -/
def Places (c : Compiler) (allowed : NameSet) (source : Source) (path : FieldPath) : Prop :=
  ∃ f target, c.PlansField allowed path f ∧ f.target source = .ok target

/-- A token is put into a tree when it is planned and has a place there. -/
theorem exists_condition_iff {source : Source} :
    (∃ condition, c.compileCondition ⟨[t], allowed⟩ source = .ok condition) ↔
      (∃ plan, c.planFilters ⟨[t], allowed⟩ = .ok plan) ∧ c.Places allowed source t.path := by
  constructor
  · rintro ⟨condition, hc⟩
    obtain ⟨f, o, target, hreach, ho, htarget, _⟩ := compileCondition_singleton_eq_ok_iff.1 hc
    exact ⟨hreach.exists_plan_iff.2 ⟨o, ho⟩, f, target, hreach.plansField, htarget⟩
  · rintro ⟨⟨plan, hp⟩, g, target, hg, htarget⟩
    obtain ⟨f, hreach⟩ := exists_reachesValue_of_ok hp
    obtain ⟨o, ho⟩ := hreach.exists_plan_iff.1 ⟨plan, hp⟩
    obtain ⟨column, hplaced, _⟩ := PlannedField.target_eq_ok_iff.1 htarget
    rw [hg.columns_eq hreach.plansField] at hplaced
    exact ⟨_, compileCondition_singleton_eq_ok_iff.2 ⟨f, o, _, hreach, ho,
      PlannedField.target_eq_ok_iff.2 ⟨column, hplaced, rfl⟩, rfl⟩⟩

/-- With the relation of its path joined, a token is put into a tree as soon as it is planned. -/
theorem exists_condition_iff_of_joins {source : Source}
    (hj : source.Joins c.shape.fields allowed t.path) :
    (∃ condition, c.compileCondition ⟨[t], allowed⟩ source = .ok condition) ↔
      ∃ plan, c.planFilters ⟨[t], allowed⟩ = .ok plan := by
  rw [exists_condition_iff]
  refine ⟨And.left, fun ⟨plan, hp⟩ => ⟨⟨plan, hp⟩, ?_⟩⟩
  obtain ⟨f, hreach⟩ := exists_reachesValue_of_ok hp
  obtain ⟨target, htarget⟩ := hreach.plansField.exists_target hj
  exact ⟨f, target, hreach.plansField, htarget⟩

end Compiler

end RecordQuery
