import RecordQuery.Proofs.BuiltTokens
import RecordQuery.Proofs.SingleToken

/-!
# One of several values

A token that asks for one of several values stands for the tokens that ask for each of them. It is
accepted when they all are; otherwise the first of them whose value is refused has the fault that is
reported. In a text it binds the values that they bind. In a tree it tests the column for these
values, and the elements of a list by a choice of the tests that they are put into a tree as.

1. `FilterToken.oneOf`, `FilterToken.equalTo`: the tokens of a path and texts.
2. `StandsForAny`: a token is accepted and refused as others are.
3. `Compiler.TakesPieces`: the texts that can be put into one token.
4. `Compiler.WritesOneOf`, `Compiler.TestsOneOf`: what is made of the token beside the others.
5. `Compiler.oneOf_stands_for_any`: the token and the others, in both backends.
-/
namespace RecordQuery

/-! ## Tokens of a path -/

namespace FilterToken

/-- The token of a path, an operator and a value in its canonical text. -/
def on (path : FieldPath) (operator : Operator) (value : String) : FilterToken :=
  ⟨path, operator, value, canonical path.display operator value⟩

/-- The token that asks for one of the texts. -/
def oneOf (path : FieldPath) (pieces : List String) : FilterToken :=
  on path .isIn (";".intercalate pieces)

/-- The token that asks for one text. -/
def equalTo (path : FieldPath) (piece : String) : FilterToken := on path (.compare .eq) piece

/-- A canonical text is read as its token. -/
theorem ofParts_display {path : FieldPath} {operator : Operator} {value : String}
    (h : operator = .is → ∃ literal : IsLiteral, value = literal.name) :
    ofParts path.display operator value = .ok (on path operator value) :=
  (ofParts_eq_ok_iff path.colon_not_mem_display).2 ⟨path.parse_display, rfl, rfl, h, rfl⟩

end FilterToken

/-! ## Standing for others -/

/-- A token stands for any of others: it is accepted when each of them is, and the fault of its
value is that of the first of them which is refused. -/
structure StandsForAny {ω : Type} (compile : FilterToken → Except QueryError ω) (t : FilterToken)
    (each : List FilterToken) : Prop where
  accepted : (∃ out, compile t = .ok out) ↔ ∀ u ∈ each, ∃ out, compile u = .ok out
  refused : ∀ token cause, compile t = .error (.coercion token cause) ↔
    token = t.raw ∧ ∃ front u back, each = front ++ u :: back ∧
      (∀ w ∈ front, ∃ out, compile w = .ok out) ∧
      compile u = .error (.coercion u.raw cause)

/-- The first member of a list of images, and those before it. -/
theorem exists_split_map_iff {α β : Type} {g : α → β} {as : List α} {P Q : β → Prop} :
    (∃ front b back, as.map g = front ++ b :: back ∧ (∀ w ∈ front, P w) ∧ Q b) ↔
      ∃ front a back, as = front ++ a :: back ∧ (∀ w ∈ front, P (g w)) ∧ Q (g a) := by
  constructor
  · rintro ⟨front, b, back, hsplit, hfront, hb⟩
    obtain ⟨front, rest, rfl, rfl, hrest⟩ := List.map_eq_append_iff.1 hsplit
    obtain ⟨a, back, rfl, rfl, rfl⟩ := List.map_eq_cons_iff.1 hrest
    exact ⟨front, a, back, rfl, List.forall_mem_map.1 hfront, hb⟩
  · rintro ⟨front, a, back, rfl, hfront, ha⟩
    exact ⟨front.map g, g a, back.map g, by simp, List.forall_mem_map.2 hfront, ha⟩

/-- What stands for others does so wherever the same tokens are accepted and the same values are
refused. -/
theorem StandsForAny.congr {ω ω' : Type} {compile : FilterToken → Except QueryError ω}
    {other : FilterToken → Except QueryError ω'} {t : FilterToken} {each : List FilterToken}
    (h : StandsForAny compile t each)
    (hok : ∀ u ∈ t :: each, (∃ out, other u = .ok out) ↔ ∃ out, compile u = .ok out)
    (herror : ∀ u token cause, other u = .error (.coercion token cause) ↔
      compile u = .error (.coercion token cause)) : StandsForAny other t each := by
  obtain ⟨ht, heach⟩ := List.forall_mem_cons.1 hok
  constructor
  · rw [ht, h.accepted]
    exact forall₂_congr fun u hu => (heach u hu).symm
  · intro token cause
    rw [herror, h.refused]
    refine and_congr_right fun _ => exists_congr fun front => exists_congr fun u =>
      exists_congr fun back => and_congr_right fun hsplit => ?_
    have hfront : ∀ w ∈ front, w ∈ each := fun w hw => by
      rw [hsplit]
      exact List.mem_append_left _ hw
    rw [herror]
    exact and_congr_left fun _ => forall₂_congr fun w hw => (heach w (hfront w hw)).symm

/-! ## Texts in one token -/

theorem Text.length_le_of_mem {sep piece : String} {pieces : List String} (h : piece ∈ pieces) :
    piece.length ≤ (sep.intercalate pieces).length := by
  induction pieces with
  | nil => cases h
  | cons first rest ih =>
    cases rest with
    | nil =>
      rw [List.mem_singleton.1 h, String.intercalate_singleton]
    | cons next rest =>
      rw [String.intercalate_cons_cons, String.length_append, String.length_append]
      rcases List.mem_cons.1 h with rfl | h
      · exact Nat.le_add_right_of_le (Nat.le_add_right _ _)
      · exact Nat.le_add_left_of_le (ih h)

/-- A field is compared with what a text is read as. -/
theorem PlannedField.operand_equalTo {f : PlannedField} {piece : String} {v : Value}
    (token : String) (hv : f.value piece = .ok v) :
    { f with token := token }.operand (.compare .eq) piece = .ok (.compare .eq v) :=
  map_eq_ok_iff.2 ⟨v, (value_of_token token).2 hv, rfl⟩

namespace Compiler

/-- Texts that a token can ask for one of: there are some, they have no semicolons, and together
they are not too long. -/
structure TakesPieces (c : Compiler) (pieces : List String) : Prop where
  some_piece : pieces ≠ []
  plain : ∀ piece ∈ pieces, ';' ∉ piece.toList
  short : (";".intercalate pieces).length ≤ c.config.maxValueLength

variable {c : Compiler} {allowed : NameSet} {path : FieldPath} {pieces : List String}
  {piece : String} {f : PlannedField}

/-- The texts come back from the token. -/
theorem TakesPieces.values_oneOf (h : c.TakesPieces pieces) :
    (FilterToken.oneOf path pieces).values = pieces := by
  cases pieces with
  | nil => exact absurd rfl h.some_piece
  | cons first rest => exact Text.pieces_intercalate h.plain

/-- When the token comes to its value, so does the token of each text. -/
theorem TakesPieces.reachesValue_equalTo (h : c.TakesPieces pieces)
    (hreach : c.ReachesValue allowed (.oneOf path pieces) f) (hp : piece ∈ pieces) :
    c.ReachesValue allowed (.equalTo path piece)
      { f with token := (FilterToken.equalTo path piece).raw } :=
  hreach.of_path rfl (.compare .eq) (Nat.le_trans (Text.length_le_of_mem hp) h.short)

/-- When the token of some text comes to its value, so does the token of all texts. -/
theorem TakesPieces.reachesValue_oneOf (h : c.TakesPieces pieces)
    (hreach : c.ReachesValue allowed (.equalTo path piece) f) :
    c.ReachesValue allowed (.oneOf path pieces)
      { f with token := (FilterToken.oneOf path pieces).raw } :=
  hreach.of_path rfl .isIn h.short

theorem TakesPieces.operand_oneOf (h : c.TakesPieces pieces) (f : PlannedField) :
    f.operand .isIn (FilterToken.oneOf path pieces).value = (collect f.value pieces).map .isIn := by
  show (collect f.value (FilterToken.oneOf path pieces).values).map Operand.isIn = _
  rw [h.values_oneOf]

/-! ## Planned -/

/-- Once the token of all texts comes to its value, the token of one text is planned exactly when
the text is read as a value. -/
theorem TakesPieces.exists_plan_equalTo_iff (h : c.TakesPieces pieces)
    (hreach : c.ReachesValue allowed (.oneOf path pieces) f) (hp : piece ∈ pieces) :
    (∃ plan, c.planFilters ⟨[.equalTo path piece], allowed⟩ = .ok plan) ↔
      ∃ v, f.value piece = .ok v := by
  rw [(h.reachesValue_equalTo hreach hp).exists_plan_iff]
  constructor
  · rintro ⟨o, ho⟩
    obtain ⟨v, hv, _⟩ := map_eq_ok_iff.1 ho
    exact ⟨v, (PlannedField.value_of_token _).1 hv⟩
  · rintro ⟨v, hv⟩
    exact ⟨_, PlannedField.operand_equalTo _ hv⟩

theorem TakesPieces.planFilters_equalTo_coercion_iff (h : c.TakesPieces pieces)
    (hreach : c.ReachesValue allowed (.oneOf path pieces) f) (hp : piece ∈ pieces)
    {cause : CoercionError} :
    c.planFilters ⟨[.equalTo path piece], allowed⟩ =
        .error (.coercion (FilterToken.equalTo path piece).raw cause) ↔
      f.value piece = .error (.coercion f.token cause) := by
  rw [(h.reachesValue_equalTo hreach hp).planFilters_coercion_iff,
    ← PlannedField.value_error_of_token (FilterToken.equalTo path piece).raw]
  exact map_eq_error_iff

theorem TakesPieces.exists_plan_oneOf_iff (h : c.TakesPieces pieces)
    (hreach : c.ReachesValue allowed (.oneOf path pieces) f) :
    (∃ plan, c.planFilters ⟨[.oneOf path pieces], allowed⟩ = .ok plan) ↔
      ∀ piece ∈ pieces, ∃ v, f.value piece = .ok v := by
  rw [hreach.exists_plan_iff, ← exists_collect_iff]
  show (∃ o, f.operand .isIn (FilterToken.oneOf path pieces).value = .ok o) ↔ _
  rw [h.operand_oneOf]
  cases collect f.value pieces <;> simp [Except.map]

/-- Planning refuses the first text that is no value. -/
theorem TakesPieces.planFilters_oneOf_coercion_iff (h : c.TakesPieces pieces)
    (hreach : c.ReachesValue allowed (.oneOf path pieces) f) {token : String}
    {cause : CoercionError} :
    c.planFilters ⟨[.oneOf path pieces], allowed⟩ = .error (.coercion token cause) ↔
      token = (FilterToken.oneOf path pieces).raw ∧ ∃ front piece back,
        pieces = front ++ piece :: back ∧ (∀ q ∈ front, ∃ v, f.value q = .ok v) ∧
        f.value piece = .error (.coercion f.token cause) := by
  have htoken : f.token = (FilterToken.oneOf path pieces).raw :=
    (PlannedField.parts_of_ofPath hreach.planned).1
  rw [hreach.planFilters_coercion_iff]
  show f.operand .isIn (FilterToken.oneOf path pieces).value = _ ↔ _
  rw [h.operand_oneOf, map_eq_error_iff, collect_eq_error_iff]
  constructor
  · rintro ⟨front, piece, back, vs, hsplit, hfront, he⟩
    obtain ⟨_, _, _, _, hcoercion⟩ := PlannedField.value_eq_error_iff.1 he
    cases hcoercion
    exact ⟨htoken, front, piece, back, hsplit,
      exists_collect_iff.1 ⟨vs, collect_eq_ok_iff.2 hfront⟩, he⟩
  · rintro ⟨rfl, front, piece, back, hsplit, hfront, he⟩
    obtain ⟨vs, hvs⟩ := exists_collect_iff.2 hfront
    rw [htoken] at he
    exact ⟨front, piece, back, vs, hsplit, collect_eq_ok_iff.1 hvs, he⟩

/-- Planning looks at the texts one after the other, as it looks at the tokens of each. -/
theorem TakesPieces.standsForAny_planFilters (h : c.TakesPieces pieces) :
    StandsForAny (fun t => c.planFilters ⟨[t], allowed⟩) (.oneOf path pieces)
      (pieces.map (.equalTo path)) := by
  constructor
  · rw [List.forall_mem_map]
    constructor
    · rintro ⟨plan, hp⟩ piece hmem
      obtain ⟨f, hreach⟩ := exists_reachesValue_of_ok hp
      exact (h.exists_plan_equalTo_iff hreach hmem).2
        ((h.exists_plan_oneOf_iff hreach).1 ⟨plan, hp⟩ piece hmem)
    · intro hall
      obtain ⟨piece, hmem⟩ := List.exists_mem_of_ne_nil pieces h.some_piece
      obtain ⟨plan, hp⟩ := hall piece hmem
      obtain ⟨g, hpiece⟩ := exists_reachesValue_of_ok hp
      have hreach := h.reachesValue_oneOf hpiece
      exact (h.exists_plan_oneOf_iff hreach).2 fun q hq =>
        (h.exists_plan_equalTo_iff hreach hq).1 (hall q hq)
  · intro token cause
    rw [exists_split_map_iff]
    constructor
    · intro he
      obtain ⟨f, hreach⟩ := exists_reachesValue_of_coercion he
      obtain ⟨htoken, front, piece, back, rfl, hfront, he⟩ :=
        (h.planFilters_oneOf_coercion_iff hreach).1 he
      refine ⟨htoken, front, piece, back, rfl, fun q hq => ?_, ?_⟩
      · exact (h.exists_plan_equalTo_iff hreach (List.mem_append_left _ hq)).2 (hfront q hq)
      · exact (h.planFilters_equalTo_coercion_iff hreach List.mem_append_cons_self).2 he
    · rintro ⟨htoken, front, piece, back, rfl, hfront, he⟩
      obtain ⟨g, hpiece⟩ := exists_reachesValue_of_coercion he
      have hreach := h.reachesValue_oneOf hpiece
      refine (h.planFilters_oneOf_coercion_iff hreach).2
        ⟨htoken, front, piece, back, rfl, fun q hq => ?_, ?_⟩
      · exact (h.exists_plan_equalTo_iff hreach (List.mem_append_left _ hq)).1 (hfront q hq)
      · exact (h.planFilters_equalTo_coercion_iff hreach List.mem_append_cons_self).1 he

/-! ## In a text -/

theorem TakesPieces.standsForAny_compileText (h : c.TakesPieces pieces) (qualifier : String) :
    StandsForAny (fun t => c.compileText ⟨[t], allowed⟩ qualifier) (.oneOf path pieces)
      (pieces.map (.equalTo path)) := by
  refine h.standsForAny_planFilters.congr (fun u _ => ?_) fun u token cause => map_eq_error_iff
  simp only [compileText_eq_ok_iff]
  exact ⟨fun ⟨_, plan, hp, _⟩ => ⟨plan, hp⟩, fun ⟨plan, hp⟩ => ⟨_, plan, hp, rfl⟩⟩

/-- A clause tests a column for being one of several values, which are those that are bound where it
is compared with each of the texts. -/
def WritesOneOf (c : Compiler) (allowed : NameSet) (path : FieldPath) (pieces : List String)
    (qualifier : String) (clause : Clause) : Prop :=
  ∃ column values,
    clause = ⟨"WHERE " ++ column ++ " IN (" ++
      ",".intercalate (List.replicate pieces.length "?") ++ ")", values⟩ ∧
    List.Forall₂ (fun piece v => c.compileText ⟨[.equalTo path piece], allowed⟩ qualifier =
      .ok ⟨"WHERE " ++ column ++ " = ?", [v]⟩) pieces values

/-- The values of the texts, read one after the other. -/
theorem TakesPieces.exists_values (h : c.TakesPieces pieces) {o : Operand}
    (ho : f.operand .isIn (FilterToken.oneOf path pieces).value = .ok o) :
    ∃ vs, o = .isIn vs ∧ List.Forall₂ (fun piece v => f.value piece = .ok v) pieces vs := by
  rw [h.operand_oneOf] at ho
  obtain ⟨vs, hvs, rfl⟩ := map_eq_ok_iff.1 ho
  exact ⟨vs, rfl, collect_eq_ok_iff_forall₂.1 hvs⟩

theorem TakesPieces.writesOneOf (h : c.TakesPieces pieces) {qualifier : String} {clause : Clause}
    (hc : c.compileText ⟨[.oneOf path pieces], allowed⟩ qualifier = .ok clause) :
    c.WritesOneOf allowed path pieces qualifier clause := by
  obtain ⟨f, o, hreach, ho, rfl⟩ := compileText_singleton_eq_ok_iff.1 hc
  obtain ⟨vs, rfl, hvs⟩ := h.exists_values ho
  refine ⟨f.column qualifier, vs, ?_, forall₂_imp_of_mem hvs fun piece hp v hv => ?_⟩
  · have hmarks : vs.map (fun _ => "?") = List.replicate pieces.length "?" := by
      rw [List.map_const', hvs.length_eq]
    show Clause.mk ("WHERE " ++ f.column qualifier ++ " " ++
      ("IN (" ++ ",".intercalate (vs.map fun _ => "?") ++ ")")) vs = _
    rw [hmarks, ← String.append_assoc, ← String.append_assoc, @String.append_assoc _ " " "IN ("]
    rfl
  · refine compileText_singleton_eq_ok_iff.2
      ⟨_, .compare .eq v, h.reachesValue_equalTo hreach hp, PlannedField.operand_equalTo _ hv, ?_⟩
    have hsign : " = ?" = " " ++ "= ?" := rfl
    rw [hsign, ← String.append_assoc]
    rfl

/-! ## In a tree -/

theorem TakesPieces.exists_condition_oneOf_iff (h : c.TakesPieces pieces) {source : Source} :
    (∃ condition, c.compileCondition ⟨[.oneOf path pieces], allowed⟩ source = .ok condition) ↔
      ∀ piece ∈ pieces, ∃ condition,
        c.compileCondition ⟨[.equalTo path piece], allowed⟩ source = .ok condition := by
  have hstands : StandsForAny (fun t => c.planFilters ⟨[t], allowed⟩) (.oneOf path pieces)
      (pieces.map (.equalTo path)) := h.standsForAny_planFilters
  have hplan := hstands.accepted
  rw [List.forall_mem_map] at hplan
  simp only [exists_condition_iff, hplan]
  obtain ⟨piece, hmem⟩ := List.exists_mem_of_ne_nil pieces h.some_piece
  exact ⟨fun ⟨hall, hplaces⟩ q hq => ⟨hall q hq, hplaces⟩,
    fun hall => ⟨fun q hq => (hall q hq).1, (hall piece hmem).2⟩⟩

theorem TakesPieces.standsForAny_compileCondition (h : c.TakesPieces pieces) {source : Source}
    (hj : source.Joins c.shape.fields allowed path) :
    StandsForAny (fun t => c.compileCondition ⟨[t], allowed⟩ source) (.oneOf path pieces)
      (pieces.map (.equalTo path)) := by
  refine h.standsForAny_planFilters.congr ?_ fun u token cause => compileCondition_coercion_iff
  refine List.forall_mem_cons.2 ⟨exists_condition_iff_of_joins hj, List.forall_mem_map.2 ?_⟩
  exact fun piece _ => exists_condition_iff_of_joins hj

/-- A condition tests the elements of a list by a choice of the predicates, in order, that the
tokens of the texts are put into a tree as; another column it tests for being one of the values that
these tokens compare it with. Either way, it holds when one of them does. -/
structure TestsOneOf (c : Compiler) (allowed : NameSet) (path : FieldPath) (pieces : List String)
    (source : Source) (condition : Condition) : Prop where
  elements : (FilterToken.oneOf path pieces).ComparesList c.shape.fields →
    ∃ predicates, condition = ⟨[.ofChoice predicates]⟩ ∧
      List.Forall₂ (fun piece predicate => c.compileCondition ⟨[.equalTo path piece], allowed⟩
        source = .ok ⟨[.one predicate]⟩) pieces predicates
  column : ¬(FilterToken.oneOf path pieces).ComparesList c.shape.fields →
    ∃ target values, condition = ⟨[.one (.oneOf target values)]⟩ ∧
      List.Forall₂ (fun piece v => c.compileCondition ⟨[.equalTo path piece], allowed⟩
        source = .ok ⟨[.one (.compare target .eq v)]⟩) pieces values
  holds : ∀ conditions, List.Forall₂ (fun piece equal =>
      c.compileCondition ⟨[.equalTo path piece], allowed⟩ source = .ok equal) pieces conditions →
    ∀ (e : Engine) (row : Row),
      condition.holds e row = .any (conditions.map (·.holds e row))

end Compiler

/-- A test for one of several values holds when the test for one of them does. -/
theorem PlannedFilter.holds_conjunctOn_isIn (e : Engine) (row : Row) (isMembership : Bool)
    (target : Target) (values : List Value) :
    (conjunctOn isMembership target (.isIn values)).holds e row =
      .any (values.map fun v => (conjunctOn isMembership target (.compare .eq v)).holds e row) := by
  cases isMembership with
  | false => rfl
  | true =>
    show (Conjunct.ofChoice (values.map (.membership target .eq))).holds e row = _
    rw [Conjunct.holds_ofChoice, List.map_map]
    rfl

namespace Compiler

variable {c : Compiler} {allowed : NameSet} {path : FieldPath} {pieces : List String}

theorem TakesPieces.testsOneOf (h : c.TakesPieces pieces) {source : Source}
    {condition : Condition}
    (hc : c.compileCondition ⟨[.oneOf path pieces], allowed⟩ source = .ok condition) :
    c.TestsOneOf allowed path pieces source condition := by
  obtain ⟨f, o, target, hreach, ho, htarget, rfl⟩ := compileCondition_singleton_eq_ok_iff.1 hc
  obtain ⟨vs, rfl, hvs⟩ := h.exists_values ho
  have hone : List.Forall₂ (fun piece v =>
      c.compileCondition ⟨[.equalTo path piece], allowed⟩ source =
        .ok ⟨[PlannedFilter.conjunctOn f.isMembership target (.compare .eq v)]⟩) pieces vs :=
    forall₂_imp_of_mem hvs fun piece hp v hv => compileCondition_singleton_eq_ok_iff.2
      ⟨_, .compare .eq v, target, h.reachesValue_equalTo hreach hp,
        PlannedField.operand_equalTo _ hv, (PlannedField.target_of_token _).2 htarget, rfl⟩
  have hmembership := hreach.isMembership_iff .isIn
  constructor
  · intro hlist
    rw [hmembership.2 hlist] at hone ⊢
    exact ⟨vs.map (.membership target .eq), rfl, List.forall₂_map_right_iff.2 hone⟩
  · intro hlist
    rw [Bool.eq_false_iff.2 (mt hmembership.1 hlist)] at hone ⊢
    exact ⟨target, vs, rfl, hone⟩
  · intro conditions hconditions e row
    -- The tokens of the texts have no other conditions than these.
    have hall := collect_eq_ok_iff_forall₂.2 hconditions
    rw [collect_eq_ok_iff_forall₂.2 (List.forall₂_map_right_iff.2 hone)] at hall
    cases hall
    rw [Condition.holds_singleton, PlannedFilter.holds_conjunctOn_isIn, List.map_map]
    refine congrArg Truth.any (List.map_congr_left fun v _ => ?_)
    exact (Condition.holds_singleton e row _).symm

/-- A token that asks for one of several texts stands for the tokens that ask for each of them: it
is accepted when they are, and the value that is refused is the first that is refused in one of
them. What is made of it has their values, in order. A tree, where the relation of the path has to
be joined as well, accepts and refuses the token so too, and tests the elements of a list by a
choice of their predicates, and another column for being one of their values. -/
theorem oneOf_stands_for_any (c : Compiler) (allowed : NameSet) (path : FieldPath)
    {pieces : List String} (h : c.TakesPieces pieces) :
    FilterToken.ofParts path.display .isIn (";".intercalate pieces) = .ok (.oneOf path pieces) ∧
    (∀ piece, FilterToken.ofParts path.display (.compare .eq) piece = .ok (.equalTo path piece)) ∧
    (∀ qualifier,
      StandsForAny (fun t => c.compileText ⟨[t], allowed⟩ qualifier) (.oneOf path pieces)
        (pieces.map (.equalTo path)) ∧
      ∀ clause, c.compileText ⟨[.oneOf path pieces], allowed⟩ qualifier = .ok clause →
        c.WritesOneOf allowed path pieces qualifier clause) ∧
    ∀ source,
      ((∃ condition, c.compileCondition ⟨[.oneOf path pieces], allowed⟩ source = .ok condition) ↔
        ∀ piece ∈ pieces, ∃ condition,
          c.compileCondition ⟨[.equalTo path piece], allowed⟩ source = .ok condition) ∧
      (∀ qualifier token cause,
        c.compileCondition ⟨[.oneOf path pieces], allowed⟩ source =
            .error (.coercion token cause) ↔
          c.compileText ⟨[.oneOf path pieces], allowed⟩ qualifier =
            .error (.coercion token cause)) ∧
      (source.Joins c.shape.fields allowed path →
        StandsForAny (fun t => c.compileCondition ⟨[t], allowed⟩ source) (.oneOf path pieces)
          (pieces.map (.equalTo path))) ∧
      ∀ condition,
        c.compileCondition ⟨[.oneOf path pieces], allowed⟩ source = .ok condition →
        c.TestsOneOf allowed path pieces source condition := by
  refine ⟨FilterToken.ofParts_display nofun, fun piece => FilterToken.ofParts_display nofun,
    fun qualifier => ⟨h.standsForAny_compileText qualifier, fun clause => h.writesOneOf⟩,
    fun source => ⟨h.exists_condition_oneOf_iff, fun qualifier token cause => ?_,
      h.standsForAny_compileCondition, fun condition => h.testsOneOf⟩⟩
  rw [compileCondition_coercion_iff]
  exact map_eq_error_iff.symm

/-- Lengths of a city: two numbers are bound in one list, and of two texts that are no numbers the
first one is refused, as it is by itself. Tags: one of two texts is a choice of two tests. -/
theorem oneOf_stands_for_any_people :
    (∃ clause, Sample.compiler.compileText ⟨[.oneOf Sample.cityLength ["4", "5"]], ∅⟩ "p." =
        .ok clause ∧ clause.values = [.int64 4, .int64 5] ∧
      Sample.compiler.WritesOneOf ∅ Sample.cityLength ["4", "5"] "p." clause) ∧
    (∃ cause, Sample.compiler.compileText
        ⟨[.oneOf Sample.cityLength ["4", "x", "5", "y"]], ∅⟩ "p." =
        .error (.coercion "address.city.length():in:4;x;5;y" cause) ∧
      cause.raw = "x" ∧
      ∃ front u back, ["4", "x", "5", "y"].map (.equalTo Sample.cityLength) = front ++ u :: back ∧
        Sample.compiler.compileText ⟨[u], ∅⟩ "p." = .error (.coercion u.raw cause)) ∧
    ∃ condition, Sample.compiler.compileCondition
        ⟨[.oneOf Sample.tags ["a", "b"]], ∅⟩ Sample.source = .ok condition ∧
      condition = ⟨[.anyOf [.membership ⟨⟨"people", "tags"⟩, none⟩ .eq (.text "a"),
        .membership ⟨⟨"people", "tags"⟩, none⟩ .eq (.text "b")]]⟩ ∧
      Sample.compiler.TestsOneOf ∅ Sample.tags ["a", "b"] Sample.source condition := by
  have hnumbers : Sample.compiler.TakesPieces ["4", "5"] :=
    ⟨by decide, by decide, by decide⟩
  have hmixed : Sample.compiler.TakesPieces ["4", "x", "5", "y"] :=
    ⟨by decide, by decide, by decide⟩
  have htags : Sample.compiler.TakesPieces ["a", "b"] := ⟨by decide, by decide, by decide⟩
  obtain ⟨_, _, htext, _⟩ := oneOf_stands_for_any Sample.compiler ∅ Sample.cityLength hnumbers
  obtain ⟨_, _, hrefused, _⟩ := oneOf_stands_for_any Sample.compiler ∅ Sample.cityLength hmixed
  obtain ⟨_, _, _, htree⟩ := oneOf_stands_for_any Sample.compiler ∅ Sample.tags htags
  have he : ∃ cause, Sample.compiler.compileText
      ⟨[.oneOf Sample.cityLength ["4", "x", "5", "y"]], ∅⟩ "p." =
        .error (.coercion "address.city.length():in:4;x;5;y" cause) ∧ cause.raw = "x" :=
    ⟨_, rfl, rfl⟩
  obtain ⟨cause, he, hraw⟩ := he
  obtain ⟨_, front, u, back, heach, _, hu⟩ := ((hrefused "p.").1.refused _ _).1 he
  exact ⟨⟨_, rfl, rfl, (htext "p.").2 _ rfl⟩, ⟨cause, he, hraw, front, u, back, heach, hu⟩,
    _, rfl, rfl, (htree Sample.source).2.2.2 _ rfl⟩

end Compiler

end RecordQuery
