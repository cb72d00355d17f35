import RecordQuery.Proofs.ClauseText
import RecordQuery.Proofs.DeclaredType
import RecordQuery.Proofs.Tree

/-!
# Types of accepted requests

What an accepted request says about types: which types its fields have, which operators and
functions stand on which of them, and of which types the bound values are. The checks that see to
this are made in different places, for fields, functions, operators and values; here they are put
together, for every token.

1. `Value.OfType`, `FieldType.scalar`: values of a type. `FieldType.ofType_of_coerce`: a raw value is
   read as one of them.
2. `FieldPath.WellTyped`, `FilterToken.WellTyped`: what holds of the paths and tokens of accepted
   requests.
3. `Compiler.PlansFilter.wellTyped`, `Compiler.PlansSort.wellTyped`: it holds of what is planned.
4. `Compiler.accepted_requests_typed`: it holds of clauses, conditions and orders.
-/
namespace RecordQuery

/-! ## Values of a type -/

/-- The type of the elements below all layers of lists. -/
def FieldType.scalar : FieldType → FieldType
  | .list element => element.scalar
  | t => t

/-- The values of a type. A list has none of its own, and a related record has none at all. -/
inductive Value.OfType : Value → FieldType → Prop
  | bool (b : Bool) : OfType (.bool b) .bool
  | int32 (n : Int32) : OfType (.int32 n) .int32
  | int64 (n : Int64) : OfType (.int64 n) .int64
  | float32 (bits : UInt32) : OfType (.float32 bits) .float32
  | float64 (bits : UInt64) : OfType (.float64 bits) .float64
  | text (s : String) : OfType (.text s) .text
  | uuid (u : Uuid) : OfType (.uuid u) .uuid
  | timestamp (t : Timestamp) : OfType (.timestamp t) .timestamp
  | enum {s : String} {members : List String} : s ∈ members → OfType (.text s) (.enum members)

namespace FieldType

theorem orCoercionError_eq_ok {ε α : Type} {target : FieldType} {raw : String}
    {message : ε → String} {read : Except ε α} {toValue : α → Value} {v : Value}
    (h : orCoercionError target raw message read toValue = .ok v) : ∃ a, v = toValue a := by
  unfold orCoercionError at h
  split at h
  · cases h
    exact ⟨_, rfl⟩
  · cases h

/-- A raw value is read as a value of the type, below all layers of lists. -/
theorem ofType_of_coerce {raw : String} {type : FieldType} {v : Value}
    (h : type.coerce raw = .ok v) : v.OfType type.scalar := by
  fun_induction coerce raw type with
  | case1 =>
    obtain ⟨b, rfl⟩ := orCoercionError_eq_ok h
    exact .bool b
  | case2 =>
    obtain ⟨n, rfl⟩ := orCoercionError_eq_ok h
    exact .int32 n
  | case3 =>
    obtain ⟨n, rfl⟩ := orCoercionError_eq_ok h
    exact .int64 n
  | case4 =>
    obtain ⟨bits, rfl⟩ := orCoercionError_eq_ok h
    exact .float32 bits
  | case5 =>
    obtain ⟨bits, rfl⟩ := orCoercionError_eq_ok h
    exact .float64 bits
  | case6 =>
    cases h
    exact .text raw
  | case7 =>
    obtain ⟨u, rfl⟩ := orCoercionError_eq_ok h
    exact .uuid u
  | case8 =>
    obtain ⟨t, rfl⟩ := orCoercionError_eq_ok h
    exact .timestamp t
  | case9 members hm =>
    cases h
    exact .enum hm
  | case10 members hm => cases h
  | case11 element ih => exact ih h
  | case12 fields => cases h

end FieldType

/-- The values that are bound for a path: beside a function numbers, else values of the declared
type, below all layers of lists, and texts for a path without a declared type. -/
inductive FieldPath.Binds (path : FieldPath) (type : Option FieldType) : Value → Prop
  | counted {function : FieldFunction} (n : Int64) :
      path.function = some function → Binds path type (.int64 n)
  | declared {t : FieldType} {v : Value} :
      path.function = none → type = some t → v.OfType t.scalar → Binds path type v
  | untyped (s : String) :
      path.function = none → type = none → Binds path type (.text s)

/-! ## Accepted requests -/

/-- What holds of an accepted path of a type: the type is not that of a related record, and it has
the function of the path. -/
structure FieldPath.WellTyped (path : FieldPath) (type : Option FieldType) : Prop where
  not_relation : ∀ fields, type ≠ some (.relation fields)
  function : ∀ function, path.function = some function →
    ∀ t, type = some t → t.HasFunction function

/-- What holds of an accepted filter token, whose path is of a type and which binds values. -/
structure FilterToken.WellTyped (t : FilterToken) (type : Option FieldType) (values : List Value) :
    Prop where
  path : t.path.WellTyped type
  /-- A function stands only under an operator that reads values. -/
  function : ∀ function, t.path.function = some function → t.operator.ReadsValues
  values : t.operator.ReadsValues → ∀ v ∈ values, t.path.Binds type v
  like : t.operator = .like →
    t.path.function = none ∧ ∀ declared, type = some declared → declared.IsTextual
  truth : t.operator = .is → t.value = "true" ∨ t.value = "false" →
    ∀ declared, type = some declared → declared = .bool

namespace PlannedField

theorem binds_of_value {f : PlannedField} {raw : String} {v : Value} (h : f.value raw = .ok v) :
    f.path.Binds f.type v := by
  rcases value_eq_ok_iff.1 h with ⟨target, ht, hc⟩ | ⟨hf, hn, rfl⟩
  · have hv := FieldType.ofType_of_coerce hc
    cases ht with
    | counted hf =>
      cases hv
      exact .counted _ hf
    | declared hf ht => exact .declared hf ht hv
  · exact .untyped raw hf hn

variable {f : PlannedField} {operator : Operator} {raw : String} {o : Operand}

theorem Reads.binds (h : f.Reads operator raw o) (ho : operator.ReadsValues) :
    ∀ v ∈ o.values, f.path.Binds f.type v := by
  cases h with
  | compare hv => exact List.forall_mem_singleton.2 (binds_of_value hv)
  | isIn hvs => exact forall_mem_of_forall₂ hvs fun _ _ => binds_of_value
  | like _ => cases ho
  | is _ _ => cases ho

theorem Reads.isTextual (h : f.Reads .like raw o) : ∀ t, f.type = some t → t.IsTextual := by
  cases h with
  | like ht => exact takesLike_iff.1 ht

theorem Reads.isBool (h : f.Reads .is raw o) (htruth : raw = "true" ∨ raw = "false") :
    ∀ t, f.type = some t → t = .bool := by
  cases h with
  | is hl ht =>
    refine takesLiteral_iff.1 ht ?_
    rcases htruth with rfl | rfl <;> cases hl <;> rfl

end PlannedField

namespace Compiler

variable {c : Compiler} {allowed : NameSet}

/-- A planned field of an accepted function is well-typed. -/
theorem PlansField.wellTyped {path : FieldPath} {f : PlannedField} {operator : Option Operator}
    (h : c.PlansField allowed path f) (hc : f.checkFunction operator = .ok ()) :
    path.WellTyped f.type := by
  have hfunction := fun function hf t ht =>
    (PlannedField.checkFunction_eq_ok_iff.1 hc function (h.path_eq ▸ hf)).1 t ht
  refine ⟨fun fields ht => ?_, hfunction⟩
  obtain ⟨token, hp⟩ := h.planned
  rcases Access.ofPath_locate_eq_ok hp with ⟨_, rfl⟩ | ⟨_, arrival, _, _, hbare, rfl⟩
  · cases ht
  -- A related record is planned only for a function, and it has none.
  · cases hf : path.function with
    | none =>
      rw [hf, Option.some.inj ht] at hbare
      cases hbare
    | some function => nomatch hfunction function hf _ ht

/-- A planned condition is well-typed with the values that it binds. -/
theorem PlansFilter.wellTyped {t : FilterToken} {p : PlannedFilter}
    (h : c.PlansFilter allowed t p) : t.WellTyped p.field.type p.operand.values := by
  obtain ⟨_, hcheck, hreads⟩ := planFilter_eq_ok_iff.1 h.planned
  have hpath := h.plansField.path_eq
  have hfunction : ∀ function, t.path.function = some function → t.operator.ReadsValues := by
    intro function hf
    exact (PlannedField.checkFunction_eq_ok_iff.1 hcheck function (hpath ▸ hf)).2 _ rfl
  refine ⟨h.plansField.wellTyped hcheck, hfunction, fun ho => hpath ▸ hreads.binds ho, ?_, ?_⟩
  · intro ho
    rw [ho] at hreads
    refine ⟨Option.eq_none_iff_forall_ne_some.2 fun function hf => ?_, hreads.isTextual⟩
    have hvalues := hfunction function hf
    rw [ho] at hvalues
    cases hvalues
  · intro ho
    rw [ho] at hreads
    exact hreads.isBool

/-- A planned order term is well-typed. -/
theorem PlansSort.wellTyped {t : SortToken} {p : PlannedSort} (h : c.PlansSort allowed t p) :
    t.path.WellTyped p.field.type :=
  h.plansField.wellTyped (planSort_eq_ok_iff.1 h.planned).2.1

end Compiler

/-! ## Values in a tree -/

/-- The values that a predicate binds, apart from a pattern. -/
def Predicate.values : Predicate → List Value
  | .compare _ _ v => [v]
  | .member v _ _ _ => [v]
  | .oneOf _ vs => vs
  | .like _ _ => []
  | .null _ => []
  | .notNull _ => []

def Conjunct.values (conjunct : Conjunct) : List Value :=
  conjunct.predicates.flatMap Predicate.values

/-- Where values are read, a conjunct binds those of the right-hand side. -/
theorem PlannedFilter.values_conjunctOn {f : PlannedField} {operator : Operator} {raw : String}
    {o : Operand} (h : f.Reads operator raw o) (ho : operator.ReadsValues) (isMembership : Bool)
    (target : Target) : (conjunctOn isMembership target o).values = o.values := by
  unfold Conjunct.values
  cases h with
  | compare _ => cases isMembership <;> rfl
  | @isIn _ vs _ =>
    cases isMembership with
    | false => exact List.append_nil vs
    | true =>
      have hone : ∀ v, (Predicate.membership target .eq v).values = [v] := fun _ => rfl
      simp only [conjunctOn, if_true, Conjunct.predicates_ofChoice, List.flatMap_map, hone]
      exact List.flatMap_singleton' vs
  | like _ => cases ho
  | is _ _ => cases ho

namespace Compiler

/-- Accepted requests are well-typed. Every planned field has the type of its path, which is not
that of a related record; every token is well-typed with the values that it binds, in a clause and
in a condition; and so is every term of an order. -/
theorem accepted_requests_typed (c : Compiler) :
    (∀ spec qualifier clause, c.compileText spec qualifier = .ok clause →
      ∃ plan, c.planFilters spec = .ok plan ∧ clause.values = plan.flatMap (·.operand.values) ∧
        List.Forall₂ (fun (t : FilterToken) (p : PlannedFilter) =>
          Access.Typed c.shape.fields t.path p.field.type ∧
          t.WellTyped p.field.type p.operand.values) spec.tokens plan) ∧
    (∀ spec source condition, c.compileCondition spec source = .ok condition →
      ∃ conjuncts, condition.conjuncts.Perm conjuncts ∧
        List.Forall₂ (fun (t : FilterToken) (conjunct : Conjunct) => ∃ type,
          Access.Typed c.shape.fields t.path type ∧
          t.WellTyped type conjunct.values) spec.tokens conjuncts) ∧
    (∀ spec plan, c.planSorts spec = .ok plan →
      List.Forall₂ (fun (t : SortToken) (p : PlannedSort) =>
        Access.Typed c.shape.fields t.path p.field.type ∧
        t.path.WellTyped p.field.type) spec.tokens plan) := by
  refine ⟨?_, ?_, ?_⟩
  · intro spec qualifier clause h
    obtain ⟨plan, hp, rfl⟩ := compileText_eq_ok_iff.1 h
    refine ⟨plan, hp, Clause.values_ofFilters qualifier plan, ?_⟩
    exact (planFilters_eq_ok_iff.1 hp).2.imp fun t p htp => ⟨htp.plansField.typed, htp.wellTyped⟩
  · intro spec source condition h
    obtain ⟨plan, entries, hp, he, rfl⟩ := compileCondition_eq_ok_iff.1 h
    refine ⟨entries.map Prod.snd, perm_groupBy entries, ?_⟩
    have hboth := forall₂_comp (planFilters_eq_ok_iff.1 hp).2 (entries_eq_ok_iff.1 he)
    refine List.forall₂_map_right_iff.2 (hboth.imp fun t entry hte => ?_)
    obtain ⟨p, htp, target, _, rfl⟩ := hte
    refine ⟨p.field.type, htp.plansField.typed, { htp.wellTyped with values := fun ho => ?_ }⟩
    show ∀ v ∈ (PlannedFilter.conjunctOn _ _ _).values, _
    rw [PlannedFilter.values_conjunctOn htp.reads ho]
    exact htp.wellTyped.values ho
  · intro spec plan h
    exact (planSorts_eq_ok_iff.1 h).2.imp fun t p htp => ⟨htp.plansField.typed, htp.wellTyped⟩

/-- The sample request: both members are bound as numbers for the length of a text, the field that
only the request knows is searched without a function, and what is sorted by size has one. -/
theorem accepted_requests_typed_people :
    (∃ clause, Sample.compiler.compileText Sample.conditions "p." = .ok clause ∧
      clause.values = [.int64 4, .int64 5, .text "%' OR 1=1%"]) ∧
    (∀ v ∈ [Value.int64 4, .int64 5], Sample.cityLength.Binds (some .text) v) ∧
    Sample.tenantKey.WellTyped none ∧
    (∃ conjuncts : List Conjunct,
      [.one (.oneOf ⟨⟨"a", "city_name"⟩, some .length⟩ [.int64 4, .int64 5]),
        .one (.like ⟨⟨"t", "key"⟩, none⟩ "%' OR 1=1%")].Perm conjuncts ∧
      conjuncts.length = Sample.conditions.tokens.length) ∧
    Sample.tagCount.WellTyped (some (.list .text)) := by
  obtain ⟨htext, htree, hsort⟩ := accepted_requests_typed Sample.compiler
  have hclause : Sample.compiler.compileText Sample.conditions "p." =
      .ok ⟨"WHERE LENGTH(p.addr.city_name) IN (?,?) AND p.tenant.key LIKE ? ESCAPE '!'",
        [.int64 4, .int64 5, .text "%' OR 1=1%"]⟩ := rfl
  have hfilters : ∃ raw other, Sample.compiler.planFilters Sample.conditions =
      .ok [⟨⟨raw, Sample.cityLength, ["addr", "city_name"], some .text⟩, .isIn [.int64 4, .int64 5]⟩,
        ⟨⟨other, Sample.tenantKey, ["tenant", "key"], none⟩, .like "' OR 1=1"⟩] := ⟨_, _, rfl⟩
  have hsorts : ∃ raw other, Sample.compiler.planSorts Sample.order =
      .ok [⟨⟨raw, Sample.tenantKey, ["tenant", "key"], none⟩, .descending⟩,
        ⟨⟨other, Sample.tagCount, ["tags"], some (.list .text)⟩, .ascending⟩] := ⟨_, _, rfl⟩
  obtain ⟨plan, hp, hvalues, hall⟩ := htext Sample.conditions "p." _ hclause
  obtain ⟨_, _, hfilters⟩ := hfilters
  cases hp.symm.trans hfilters
  obtain ⟨⟨_, hcity⟩, htail⟩ := List.forall₂_cons.1 hall
  obtain ⟨⟨_, htenant⟩, _⟩ := List.forall₂_cons.1 htail
  obtain ⟨conjuncts, hperm, htokens⟩ := htree Sample.conditions
    ⟨"people", [("addr", "a"), ("tenant", "t")]⟩ ⟨_⟩ rfl
  obtain ⟨_, _, hsorts⟩ := hsorts
  obtain ⟨_, hrest⟩ := List.forall₂_cons.1 (hsort Sample.order _ hsorts)
  obtain ⟨⟨_, htags⟩, _⟩ := List.forall₂_cons.1 hrest
  exact ⟨⟨_, hclause, rfl⟩, hcity.values .isIn, htenant.path,
    ⟨conjuncts, hperm, htokens.length_eq.symm⟩, htags⟩

end Compiler

end RecordQuery
