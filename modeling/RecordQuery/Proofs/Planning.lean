import Mathlib.Data.List.Forall2
import RecordQuery.Plan

/-!
# Planning, token by token

What a plan says about the spec that it comes from. The checks of the whole spec pass, and then each
token has its entry of the plan, which depends on that token and on the allowed names alone.

1. `Compiler.planFilters_eq_ok_iff`, `Compiler.planSorts_eq_ok_iff`: what a plan says, token by token.
2. `PlannedField.ofPath_eq_ok_iff`: what a planned field says about its path.
3. `PlannedField.operand_eq_ok_iff`: what a right-hand side says about its operator and value.
4. `Compiler.planFilters_single`: each token has the same entry in a spec of its own.
-/
namespace RecordQuery

/-! ## Results of steps -/

section Results

variable {α β ε : Type}

theorem map_eq_ok_iff {f : α → β} {x : Except ε α} {b : β} :
    x.map f = .ok b ↔ ∃ a, x = .ok a ∧ f a = b := by
  cases x <;> simp [Except.map]

theorem bind_eq_ok_iff {f : α → Except ε β} {x : Except ε α} {b : β} :
    x.bind f = .ok b ↔ ∃ a, x = .ok a ∧ f a = .ok b := by
  cases x <;> simp [Except.bind]

theorem map_eq_error_iff {f : α → β} {x : Except ε α} {e : ε} :
    x.map f = .error e ↔ x = .error e := by
  cases x <;> simp [Except.map]

theorem bind_eq_error_iff {f : α → Except ε β} {x : Except ε α} {e : ε} :
    x.bind f = .error e ↔ x = .error e ∨ ∃ a, x = .ok a ∧ f a = .error e := by
  cases x <;> simp [Except.bind]

/-- All results are there exactly when each step gives the result in its place. -/
theorem collect_eq_ok_iff_forall₂ {step : α → Except ε β} {as : List α} {bs : List β} :
    collect step as = .ok bs ↔ List.Forall₂ (fun a b => step a = .ok b) as bs := by
  rw [collect_eq_ok_iff, ← List.forall₂_eq_eq_eq, List.forall₂_map_left_iff,
    List.forall₂_map_right_iff]

theorem exists_collect {step : α → Except ε β} {as : List α} (h : ∀ a ∈ as, ∃ b, step a = .ok b) :
    ∃ bs, collect step as = .ok bs := by
  cases hc : collect step as with
  | ok bs => exact ⟨bs, rfl⟩
  | error e =>
    obtain ⟨front, a, back, _, rfl, _, ha⟩ := collect_eq_error_iff.1 hc
    obtain ⟨b, hb⟩ := h a (List.mem_append_right front List.mem_cons_self)
    rw [ha] at hb
    cases hb

theorem exists_collect_iff {step : α → Except ε β} {as : List α} :
    (∃ bs, collect step as = .ok bs) ↔ ∀ a ∈ as, ∃ b, step a = .ok b := by
  refine ⟨fun ⟨bs, h⟩ a ha => ?_, exists_collect⟩
  have hmap : step a ∈ bs.map .ok := by
    rw [← collect_eq_ok_iff.1 h]
    exact List.mem_map_of_mem ha
  obtain ⟨b, _, hb⟩ := List.mem_map.1 hmap
  exact ⟨b, hb.symm⟩

/-- What is related step by step is related through the steps between. -/
theorem forall₂_comp {γ : Type} {r : α → β → Prop} {s : β → γ → Prop} {as : List α} {bs : List β}
    {cs : List γ} (hr : List.Forall₂ r as bs) (hs : List.Forall₂ s bs cs) :
    List.Forall₂ (fun a c => ∃ b, r a b ∧ s b c) as cs := by
  induction hr generalizing cs with
  | nil =>
    cases hs
    exact .nil
  | cons hab _ ih =>
    cases hs with
    | cons hbc htail => exact .cons ⟨_, hab, hbc⟩ (ih htail)

/-- What is related step by step is related to the steps after it, with what these lead to. -/
theorem forall₂_zip_right {γ : Type} {r : α → β → Prop} {s : β → γ → Prop} {as : List α}
    {bs : List β} {cs : List γ} (hr : List.Forall₂ r as bs) (hs : List.Forall₂ s bs cs) :
    List.Forall₂ (fun a (p : β × γ) => r a p.1 ∧ s p.1 p.2) as (bs.zip cs) := by
  induction hr generalizing cs with
  | nil => exact .nil
  | cons hab _ ih =>
    cases hs with
    | cons hbc htail => exact .cons ⟨hab, hbc⟩ (ih htail)

/-- What is related step by step is related by what follows from it for the members of the list. -/
theorem forall₂_imp_of_mem {r s : α → β → Prop} {as : List α} {bs : List β}
    (h : List.Forall₂ r as bs) (himp : ∀ a ∈ as, ∀ b, r a b → s a b) : List.Forall₂ s as bs :=
  ((List.forall₂_and_left _ _).2 ⟨himp, h⟩).imp fun _ b hab => hab.1 b hab.2

/-- What follows from being related to something holds of everything that is related. -/
theorem forall_mem_of_forall₂ {r : α → β → Prop} {P : β → Prop} {as : List α} {bs : List β}
    (h : List.Forall₂ r as bs) (himp : ∀ a b, r a b → P b) : ∀ b ∈ bs, P b := by
  induction h with
  | nil => exact fun b hb => absurd hb List.not_mem_nil
  | cons hab _ ih => exact List.forall_mem_cons.2 ⟨himp _ _ hab, ih⟩

/-- Two lists that give the same step by step. -/
theorem map_eq_map_of_forall₂ {γ : Type} {r : α → β → Prop} {f : α → γ} {g : β → γ} {as : List α}
    {bs : List β} (h : List.Forall₂ r as bs) (hfg : ∀ a b, r a b → f a = g b) :
    as.map f = bs.map g := by
  rw [← List.forall₂_eq_eq_eq, List.forall₂_map_left_iff, List.forall₂_map_right_iff]
  exact h.imp hfg

end Results

/-! ## Fields -/

namespace PlannedField

/-- A field that is only allowed by name is planned as the request wrote it. A declared one is
planned where the walk arrives, unless that is a related record without a function. -/
theorem ofPath_eq_ok_iff {token : String} {r : ResolvedPath} {f : PlannedField} :
    ofPath token r = .ok f ↔
      (r.field = none ∧ f = untyped token r) ∨
      ∃ field arrival, r.field = some field ∧ field.walk r.path.nested = .ok arrival ∧
        (arrival.type.isRelation && r.path.function.isNone) = false ∧
        f = ⟨token, r.path, r.root :: arrival.storage, some arrival.type⟩ := by
  unfold ofPath
  cases hf : r.field with
  | none =>
    constructor
    · intro h
      cases h
      exact .inl ⟨rfl, rfl⟩
    · rintro (⟨_, rfl⟩ | ⟨_, _, hr, _⟩)
      · rfl
      · cases hr
  | some field =>
    dsimp only [ofWalk]
    constructor
    · intro h
      split at h
      · cases h
      · rename_i arrival hw
        split at h
        · cases h
        · rename_i hn
          cases h
          exact .inr ⟨field, arrival, rfl, hw, Bool.eq_false_iff.2 hn, rfl⟩
    · rintro (⟨hr, _⟩ | ⟨_, arrival, hr, hw, hn, rfl⟩)
      · cases hr
      · cases hr
        rw [hw]
        dsimp only
        rw [if_neg (Bool.eq_false_iff.1 hn)]

theorem path_of_ofPath {token : String} {r : ResolvedPath} {f : PlannedField}
    (h : ofPath token r = .ok f) : f.path = r.path := by
  rcases ofPath_eq_ok_iff.1 h with ⟨_, rfl⟩ | ⟨_, _, _, _, _, rfl⟩ <;> rfl

/-- The text of the token is only the name of the field in errors. -/
theorem ofPath_of_token {token : String} {r : ResolvedPath} {f : PlannedField}
    (h : ofPath token r = .ok f) (other : String) :
    ofPath other r = .ok { f with token := other } := by
  rcases ofPath_eq_ok_iff.1 h with ⟨hr, rfl⟩ | ⟨field, arrival, hr, hw, hn, rfl⟩
  · exact ofPath_eq_ok_iff.2 (.inl ⟨hr, rfl⟩)
  · exact ofPath_eq_ok_iff.2 (.inr ⟨field, arrival, hr, hw, hn, rfl⟩)

/-- What an operator and a raw value are read as on a field. -/
inductive Reads (f : PlannedField) : Operator → String → Operand → Prop
  | compare {c : Comparison} {raw : String} {v : Value} :
      f.value raw = .ok v → Reads f (.compare c) raw (.compare c v)
  | isIn {raw : String} {vs : List Value} :
      List.Forall₂ (fun piece v => f.value piece = .ok v) (Text.pieces ';' raw) vs →
      Reads f .isIn raw (.isIn vs)
  | like {raw : String} : takesLike f.type = true → Reads f .like raw (.like raw)
  | is {raw : String} {literal : IsLiteral} :
      IsLiteral.parse raw = some literal → takesLiteral literal f.type = true →
      Reads f .is raw (.is literal)

theorem operand_eq_ok_iff {f : PlannedField} {operator : Operator} {raw : String} {o : Operand} :
    f.operand operator raw = .ok o ↔ f.Reads operator raw o := by
  constructor
  · intro h
    cases operator with
    | compare c =>
      obtain ⟨v, hv, rfl⟩ := map_eq_ok_iff.1 h
      exact .compare hv
    | isIn =>
      obtain ⟨vs, hvs, rfl⟩ := map_eq_ok_iff.1 h
      exact .isIn (collect_eq_ok_iff_forall₂.1 hvs)
    | like =>
      dsimp only [operand] at h
      split at h
      · rename_i ht
        cases h
        exact .like ht
      · cases h
    | is =>
      dsimp only [operand] at h
      split at h
      · cases h
      · rename_i literal hl
        split at h
        · rename_i ht
          cases h
          exact .is hl ht
        · cases h
  · intro h
    cases h with
    | compare hv => simp [operand, hv, Except.map]
    | isIn hvs => simp [operand, collect_eq_ok_iff_forall₂.2 hvs, Except.map]
    | like ht => simp [operand, ht]
    | is hl ht => simp [operand, hl, ht]

/-- A condition on a field: the function is checked before the value is read. -/
theorem filter_eq (f : PlannedField) (t : FilterToken) :
    f.filter t = (f.checkFunction (some t.operator)).bind fun () =>
      (f.operand t.operator t.value).map fun operand => ⟨f, operand⟩ := by
  unfold filter
  cases f.checkFunction (some t.operator) <;> rfl

end PlannedField

/-! ## Tokens -/

namespace Compiler

theorem planFilter_eq_ok_iff {t : FilterToken} {r : ResolvedPath} {p : PlannedFilter} :
    planFilter t r = .ok p ↔
      PlannedField.ofPath t.raw r = .ok p.field ∧
      p.field.checkFunction (some t.operator) = .ok () ∧
      p.field.Reads t.operator t.value p.operand := by
  unfold planFilter PlannedField.filter
  rw [bind_eq_ok_iff]
  constructor
  · rintro ⟨f, hf, h⟩
    split at h
    · cases h
    · rename_i hc
      obtain ⟨o, ho, rfl⟩ := map_eq_ok_iff.1 h
      exact ⟨hf, hc, PlannedField.operand_eq_ok_iff.1 ho⟩
  · rintro ⟨hf, hc, ho⟩
    refine ⟨p.field, hf, ?_⟩
    rw [hc]
    exact map_eq_ok_iff.2 ⟨p.operand, PlannedField.operand_eq_ok_iff.2 ho, rfl⟩

theorem planSort_eq_ok_iff {t : SortToken} {r : ResolvedPath} {p : PlannedSort} :
    planSort t r = .ok p ↔
      PlannedField.ofPath t.raw r = .ok p.field ∧ p.field.checkFunction none = .ok () ∧
      p.direction = t.direction := by
  unfold planSort PlannedField.sort
  rw [bind_eq_ok_iff]
  constructor
  · rintro ⟨f, hf, h⟩
    obtain ⟨_, hc, rfl⟩ := map_eq_ok_iff.1 h
    exact ⟨hf, hc, rfl⟩
  · rintro ⟨hf, hc, hd⟩
    refine ⟨p.field, hf, map_eq_ok_iff.2 ⟨(), hc, ?_⟩⟩
    rw [← hd]

/-- The limit on the number of tokens passes exactly when there is none or it is not exceeded. -/
theorem checkCount_eq_ok_iff {kind : ParamKind} {count : Nat} {limit : Option Nat} :
    checkCount kind count limit = .ok () ↔ ∀ l, limit = some l → count ≤ l := by
  unfold checkCount
  cases limit with
  | none => simp
  | some l =>
    simp only [Option.some.injEq, forall_eq']
    by_cases h : l < count
    · simp [h]
    · simp [h, Nat.not_lt.1 h]

theorem checkLengths_eq_ok_iff {limit : Nat} {tokens : List FilterToken} :
    checkLengths limit tokens = .ok () ↔ ∀ t ∈ tokens, t.value.length ≤ limit := by
  unfold checkLengths
  split
  · rename_i t hf
    have hl : limit < t.value.length := by simpa using List.find?_some hf
    simp only [reduceCtorEq, false_iff]
    intro h
    exact absurd (h t (List.mem_of_find?_eq_some hf)) (Nat.not_le.2 hl)
  · rename_i hf
    simpa [Nat.not_lt] using hf

/-- A permitted path and a field that it is planned as, for some token. -/
structure PlansField (c : Compiler) (allowed : NameSet) (path : FieldPath) (f : PlannedField) :
    Prop where
  permitted : Access.permits c.shape.fields allowed path.root = true
  planned : ∃ token, PlannedField.ofPath token (Access.locate c.shape.fields path) = .ok f

/-- A filter token and its entry of a plan. -/
structure PlansFilter (c : Compiler) (allowed : NameSet) (t : FilterToken) (p : PlannedFilter) :
    Prop where
  short : t.value.length ≤ c.config.maxValueLength
  permitted : Access.permits c.shape.fields allowed t.path.root = true
  planned : planFilter t (Access.locate c.shape.fields t.path) = .ok p

/-- A sort token and its entry of a plan. -/
structure PlansSort (c : Compiler) (allowed : NameSet) (t : SortToken) (p : PlannedSort) :
    Prop where
  permitted : Access.permits c.shape.fields allowed t.path.root = true
  planned : planSort t (Access.locate c.shape.fields t.path) = .ok p

/-- The steps of planning: the checks of the whole spec, and then its tokens in order. -/
theorem planFilters_eq (c : Compiler) (spec : FilterSpec) :
    c.planFilters spec =
      (checkCount .filter spec.size c.config.maxFilterParams).bind fun () =>
      (checkLengths c.config.maxValueLength spec.tokens).bind fun () =>
      (Access.check .filter c.shape.fields spec.allowed (spec.tokens.map (·.path))).bind fun () =>
      collect (fun t => planFilter t (Access.locate c.shape.fields t.path)) spec.tokens := by
  unfold planFilters admitFilters
  simp only [bind, pure, Access.resolve_eq]
  cases checkCount .filter spec.size c.config.maxFilterParams with
  | error e => rfl
  | ok u =>
    cases checkLengths c.config.maxValueLength spec.tokens with
    | error e => rfl
    | ok v =>
      cases Access.check .filter c.shape.fields spec.allowed (spec.tokens.map (·.path)) with
      | error e => rfl
      | ok w =>
        simp only [Except.bind, Except.map, Except.pure, zip_locate, collect_map]

theorem planSorts_eq (c : Compiler) (spec : SortSpec) :
    c.planSorts spec =
      (checkCount .sort spec.size c.config.maxSortParams).bind fun () =>
      (Access.check .sort c.shape.fields spec.allowed (spec.tokens.map (·.path))).bind fun () =>
      collect (fun t => planSort t (Access.locate c.shape.fields t.path)) spec.tokens := by
  unfold planSorts admitSorts
  simp only [bind, pure, Access.resolve_eq]
  cases checkCount .sort spec.size c.config.maxSortParams with
  | error e => rfl
  | ok u =>
    cases Access.check .sort c.shape.fields spec.allowed (spec.tokens.map (·.path)) with
    | error e => rfl
    | ok v =>
      simp only [Except.bind, Except.map, Except.pure, zip_locate, collect_map]

variable {c : Compiler} {allowed : NameSet}

/-- The field of a token is planned from its path. -/
theorem PlansFilter.plansField {t : FilterToken} {p : PlannedFilter}
    (h : c.PlansFilter allowed t p) : c.PlansField allowed t.path p.field :=
  ⟨h.permitted, t.raw, (planFilter_eq_ok_iff.1 h.planned).1⟩

theorem PlansSort.plansField {t : SortToken} {p : PlannedSort} (h : c.PlansSort allowed t p) :
    c.PlansField allowed t.path p.field :=
  ⟨h.permitted, t.raw, (planSort_eq_ok_iff.1 h.planned).1⟩

theorem PlansField.path_eq {path : FieldPath} {f : PlannedField}
    (h : c.PlansField allowed path f) : f.path = path := by
  obtain ⟨token, hf⟩ := h.planned
  exact (PlannedField.path_of_ofPath hf).trans (Access.locate_path c.shape.fields path)

/-- One path has the same columns in every plan, whatever names are allowed. -/
theorem PlansField.columns_eq {others : NameSet} {path : FieldPath} {f g : PlannedField}
    (hf : c.PlansField allowed path f) (hg : c.PlansField others path g) :
    f.columns = g.columns := by
  obtain ⟨_, hf⟩ := hf.planned
  obtain ⟨token, hg⟩ := hg.planned
  have hsame := PlannedField.ofPath_of_token hf token
  rw [hg] at hsame
  exact (congrArg PlannedField.columns (Except.ok.inj hsame)).symm

theorem PlansFilter.reads {t : FilterToken} {p : PlannedFilter} (h : c.PlansFilter allowed t p) :
    p.field.Reads t.operator t.value p.operand :=
  (planFilter_eq_ok_iff.1 h.planned).2.2

theorem PlansSort.direction {t : SortToken} {p : PlannedSort} (h : c.PlansSort allowed t p) :
    p.direction = t.direction :=
  (planSort_eq_ok_iff.1 h.planned).2.2

/-- A filter plan says that the number of tokens is within the limit and that every token has its
entry. -/
theorem planFilters_eq_ok_iff {spec : FilterSpec} {plan : List PlannedFilter} :
    c.planFilters spec = .ok plan ↔
      (∀ l, c.config.maxFilterParams = some l → spec.size ≤ l) ∧
      List.Forall₂ (c.PlansFilter spec.allowed) spec.tokens plan := by
  have hsplit : List.Forall₂ (c.PlansFilter spec.allowed) spec.tokens plan ↔
      (∀ t ∈ spec.tokens, t.value.length ≤ c.config.maxValueLength ∧
        Access.permits c.shape.fields spec.allowed t.path.root = true) ∧
      List.Forall₂ (fun t p => planFilter t (Access.locate c.shape.fields t.path) = .ok p)
        spec.tokens plan := by
    rw [← List.forall₂_and_left]
    exact ⟨List.Forall₂.imp fun t p h => ⟨⟨h.short, h.permitted⟩, h.planned⟩,
      List.Forall₂.imp fun t p h => ⟨h.1.1, h.1.2, h.2⟩⟩
  unfold planFilters
  -- The checks are of all tokens at once, and the entries are made after them.
  rw [bind_eq_ok_iff, hsplit]
  simp only [admitFilters_ok_iff, checkCount_eq_ok_iff, checkLengths_eq_ok_iff,
    Access.check_ok_iff, List.forall_mem_map, collect_eq_ok_iff_forall₂]
  constructor
  · rintro ⟨_, ⟨hcount, hlen, hperm, rfl⟩, hp⟩
    exact ⟨hcount, fun t ht => ⟨hlen t ht, hperm t ht⟩, List.forall₂_map_left_iff.1 hp⟩
  · rintro ⟨hcount, htok, hp⟩
    exact ⟨_, ⟨hcount, fun t ht => (htok t ht).1, fun t ht => (htok t ht).2, rfl⟩,
      List.forall₂_map_left_iff.2 hp⟩

theorem planSorts_eq_ok_iff {spec : SortSpec} {plan : List PlannedSort} :
    c.planSorts spec = .ok plan ↔
      (∀ l, c.config.maxSortParams = some l → spec.size ≤ l) ∧
      List.Forall₂ (c.PlansSort spec.allowed) spec.tokens plan := by
  have hsplit : List.Forall₂ (c.PlansSort spec.allowed) spec.tokens plan ↔
      (∀ t ∈ spec.tokens, Access.permits c.shape.fields spec.allowed t.path.root = true) ∧
      List.Forall₂ (fun t p => planSort t (Access.locate c.shape.fields t.path) = .ok p)
        spec.tokens plan := by
    rw [← List.forall₂_and_left]
    exact ⟨List.Forall₂.imp fun t p h => ⟨h.permitted, h.planned⟩,
      List.Forall₂.imp fun t p h => ⟨h.1, h.2⟩⟩
  unfold planSorts
  rw [bind_eq_ok_iff, hsplit]
  simp only [admitSorts_ok_iff, checkCount_eq_ok_iff, Access.check_ok_iff, List.forall_mem_map,
    collect_eq_ok_iff_forall₂]
  constructor
  · rintro ⟨_, ⟨hcount, hperm, rfl⟩, hp⟩
    exact ⟨hcount, hperm, List.forall₂_map_left_iff.1 hp⟩
  · rintro ⟨hcount, hperm, hp⟩
    exact ⟨_, ⟨hcount, hperm, rfl⟩, List.forall₂_map_left_iff.2 hp⟩

/-- Each token has the same entry in a spec of its own with the same allowed names. -/
theorem planFilters_single {spec : FilterSpec} {plan : List PlannedFilter}
    (h : c.planFilters spec = .ok plan) :
    List.Forall₂ (fun t p => c.PlansFilter spec.allowed t p ∧
      c.planFilters ⟨[t], spec.allowed⟩ = .ok [p]) spec.tokens plan := by
  obtain ⟨hcount, hp⟩ := planFilters_eq_ok_iff.1 h
  -- A limit that admits all tokens admits one of them.
  have hone : ∀ t ∈ spec.tokens, ∀ l, c.config.maxFilterParams = some l → 1 ≤ l :=
    fun t ht l hl => Nat.le_trans (List.length_pos_of_mem ht) (hcount l hl)
  exact forall₂_imp_of_mem hp fun t ht p htp =>
    ⟨htp, planFilters_eq_ok_iff.2 ⟨hone t ht, .cons htp .nil⟩⟩

end Compiler

end RecordQuery
