import RecordQuery.Proofs.DeclaredType

/-!
# Faults, in turn

What can be wrong with a token, said of its parts and of the tables of the shape. Several things
may be wrong at once, of which the first is reported: the path comes before the function, and the
function before the value.

1. `FirstFault`, `InTurn`: the first of several that is at fault.
2. `Reports`: a result fails with the faults that it should. `Reports.bind`: steps report in turn.
3. `PathFault`, `FunctionFault`, `ValueFault`, `OperandFault`: what can be wrong with a token.
4. `Compiler.reports_planFilter`, `Compiler.reports_planSort`: planning a token reports this.
5. `FilterToken.Fault.token?`, `SortToken.Fault.token?`: the error names the token.
-/
namespace RecordQuery

/-! ## The first fault -/

section Faults

variable {α β ε : Type}

/-- The first member that is at fault, and its fault. -/
def FirstFault (fault : α → ε → Prop) (members : List α) (e : ε) : Prop :=
  ∃ front a back, members = front ++ a :: back ∧ (∀ b ∈ front, ∀ e', ¬fault b e') ∧ fault a e

/-- The first of several kinds of faults that is there. -/
def InTurn (kinds : List (ε → Prop)) (e : ε) : Prop := FirstFault (fun kind e => kind e) kinds e

theorem FirstFault.exists_mem {fault : α → ε → Prop} {members : List α} {e : ε}
    (h : FirstFault fault members e) : ∃ a ∈ members, fault a e := by
  obtain ⟨front, a, back, rfl, _, ha⟩ := h
  exact ⟨a, List.mem_append_right front List.mem_cons_self, ha⟩

theorem firstFault_nil (fault : α → ε → Prop) (e : ε) : ¬FirstFault fault [] e := by
  intro h
  obtain ⟨a, ha, _⟩ := h.exists_mem
  cases ha

theorem firstFault_cons {fault : α → ε → Prop} {a : α} {rest : List α} {e : ε} :
    FirstFault fault (a :: rest) e ↔
      fault a e ∨ (∀ e', ¬fault a e') ∧ FirstFault fault rest e := by
  constructor
  · rintro ⟨front, b, back, h, hfront, hb⟩
    cases front with
    | nil =>
      cases h
      exact .inl hb
    | cons c front =>
      cases h
      obtain ⟨hc, hfront⟩ := List.forall_mem_cons.1 hfront
      exact .inr ⟨hc, front, b, back, rfl, hfront, hb⟩
  · rintro (ha | ⟨ha, front, b, back, rfl, hfront, hb⟩)
    · exact ⟨[], a, rest, rfl, nofun, ha⟩
    · exact ⟨a :: front, b, back, rfl, List.forall_mem_cons.2 ⟨ha, hfront⟩, hb⟩

/-- There is no first fault exactly when nothing is at fault. -/
theorem forall_not_firstFault {fault : α → ε → Prop} {members : List α} :
    (∀ e, ¬FirstFault fault members e) ↔ ∀ a ∈ members, ∀ e, ¬fault a e := by
  induction members with
  | nil => exact iff_of_true (firstFault_nil fault) nofun
  | cons a rest ih =>
    simp only [firstFault_cons, List.forall_mem_cons, ← ih]
    constructor
    · intro h
      have ha : ∀ e, ¬fault a e := fun e he => h e (.inl he)
      exact ⟨ha, fun e he => h e (.inr ⟨ha, he⟩)⟩
    · rintro ⟨ha, hrest⟩ e (he | ⟨_, he⟩)
      · exact ha e he
      · exact hrest e he

theorem firstFault_append {fault : α → ε → Prop} {as bs : List α} {e : ε} :
    FirstFault fault (as ++ bs) e ↔
      FirstFault fault as e ∨ (∀ e', ¬FirstFault fault as e') ∧ FirstFault fault bs e := by
  induction as with
  | nil => simp [firstFault_nil]
  | cons a rest ih =>
    rw [List.cons_append, firstFault_cons, firstFault_cons, ih, forall_not_firstFault,
      forall_not_firstFault, List.forall_mem_cons]
    grind

/-- The first fault of several kinds and one more is of one of the several, or of the one. -/
theorem InTurn.or_of_append_singleton {kinds : List (ε → Prop)} {kind : ε → Prop} {e : ε}
    (h : InTurn (kinds ++ [kind]) e) : InTurn kinds e ∨ kind e := by
  rcases firstFault_append.1 h with hkinds | ⟨_, hlast⟩
  · exact .inl hkinds
  · obtain ⟨_, hmem, he⟩ := hlast.exists_mem
    cases List.mem_singleton.1 hmem
    exact .inr he

/-- A result fails with the faults that it should fail with, and with no other. -/
def Reports (x : Except ε α) (fault : ε → Prop) : Prop := ∀ e, x = .error e ↔ fault e

namespace Reports

variable {x : Except ε α} {fault : ε → Prop}

theorem ok (a : α) (h : ∀ e, ¬fault e) : Reports (.ok a : Except ε α) fault :=
  fun e => iff_of_false nofun (h e)

theorem error {e : ε} (h : ∀ e', fault e' ↔ e' = e) : Reports (.error e : Except ε α) fault :=
  fun e' => by rw [h, Except.error.injEq, eq_comm]

/-- Every result reports its own error. -/
theorem self (x : Except ε α) : Reports x fun e => x = .error e := fun _ => Iff.rfl

theorem congr {other : ε → Prop} (h : Reports x fault) (hf : ∀ e, fault e ↔ other e) :
    Reports x other :=
  fun e => (h e).trans (hf e)

/-- A result is there exactly when nothing is at fault. -/
theorem exists_ok_iff (h : Reports x fault) : (∃ a, x = .ok a) ↔ ∀ e, ¬fault e := by
  cases x with
  | ok a => exact iff_of_true ⟨a, rfl⟩ fun e he => nomatch (h e).2 he
  | error e => exact iff_of_false nofun fun hn => hn e ((h e).1 rfl)

theorem map (h : Reports x fault) (f : α → β) : Reports (x.map f) fault := fun e => by
  rw [← h e]
  cases x <;> simp [Except.map]

/-- A step that follows others reports after them. -/
theorem bind {kinds later : List (ε → Prop)} {f : α → Except ε β} (h : Reports x (InTurn kinds))
    (hf : ∀ a, x = .ok a → Reports (f a) (InTurn later)) :
    Reports (x.bind f) (InTurn (kinds ++ later)) := by
  intro e
  unfold InTurn
  rw [firstFault_append]
  cases x with
  | ok a =>
    have hn := h.exists_ok_iff.1 ⟨a, rfl⟩
    refine (hf a rfl e).trans ⟨fun hl => .inr ⟨hn, hl⟩, ?_⟩
    rintro (hk | ⟨_, hl⟩)
    · exact absurd hk (hn e)
    · exact hl
  | error e' =>
    have he := (h e').1 rfl
    have hx : Except.bind (.error e' : Except ε α) f = .error e ↔
        (.error e' : Except ε α) = .error e := by
      simp [Except.bind]
    rw [hx, h e]
    exact ⟨.inl, fun hl => hl.elim id fun hl => absurd he (hl.1 e')⟩

/-- A single kind of faults, in turn. -/
theorem inTurn (h : Reports x fault) : Reports x (InTurn [fault]) := fun e => by
  unfold InTurn
  rw [firstFault_cons, h e]
  simp [firstFault_nil]

/-- A fault of the first kind is reported before all others. -/
theorem inTurn_here {kind : ε → Prop} {e : ε} (h : ∀ e', kind e' ↔ e' = e)
    (kinds : List (ε → Prop)) : Reports (.error e : Except ε α) (InTurn (kind :: kinds)) := by
  refine .error fun e' => ?_
  unfold InTurn
  rw [firstFault_cons, h]
  exact ⟨fun he => he.elim id fun ⟨hn, _⟩ => absurd ((h e).2 rfl) (hn e), .inl⟩

/-- Without a fault of the first kind, the others are reported in turn. -/
theorem inTurn_later {kind : ε → Prop} {kinds : List (ε → Prop)} (hn : ∀ e, ¬kind e)
    (h : Reports x (InTurn kinds)) : Reports x (InTurn (kind :: kinds)) := by
  refine h.congr fun e => ?_
  unfold InTurn
  rw [firstFault_cons]
  exact ⟨fun he => .inr ⟨hn, he⟩, fun he => he.elim (absurd · (hn e)) And.right⟩

/-- Steps on the members of a list report the first member at fault. -/
theorem collect {step : α → Except ε β} {fault : α → ε → Prop} {members : List α}
    (h : ∀ a ∈ members, Reports (step a) (fault a)) :
    Reports (RecordQuery.collect step members) (FirstFault fault members) := by
  induction members with
  | nil => exact .ok [] (firstFault_nil fault)
  | cons a rest ih =>
    obtain ⟨ha, hrest⟩ := List.forall_mem_cons.1 h
    intro e
    rw [firstFault_cons, ← ha e, ← (ih hrest) e]
    cases hs : step a with
    | ok b =>
      have hn := ha.exists_ok_iff.1 ⟨b, hs⟩
      rw [collect_cons_ok hs]
      cases RecordQuery.collect step rest <;> simp [Except.map, hn]
    | error e' =>
      rw [collect_cons_error hs]
      have he := (ha e').1 hs
      simp only [Except.error.injEq]
      exact ⟨.inl, fun h => h.elim id fun h => absurd he (h.1 e')⟩

theorem collect_map {γ : Type} {step : γ → Except ε β} {entry : α → γ} {fault : α → ε → Prop}
    {members : List α} (h : ∀ a ∈ members, Reports (step (entry a)) (fault a)) :
    Reports (RecordQuery.collect step (members.map entry)) (FirstFault fault members) := by
  rw [RecordQuery.collect_map]
  exact .collect h

end Reports

end Faults

/-! ## Faults of a token -/

/-- What is wrong with the field of a path: the segments leave the tables below a declared root, or
they end at a related record without a function. -/
inductive FieldFault (fields : List Field) (raw : String) (path : FieldPath) : QueryError → Prop
  | stops {field : Field} {fault : WalkFault} :
      Field.IsFirst fields path.root field →
      Field.Stops field.name field.type path.nested fault →
      FieldFault fields raw path (.resolution raw path.display field.type.name fault.message)
  | bare {inner : List Field} :
      Field.Declares fields path.segments (.relation inner) → path.function = none →
      FieldFault fields raw path (.resolution raw path.display (FieldType.relation inner).name
        "a related record must be followed by one of its fields")

/-- What is wrong with the function of a path, under an operator or in an order: the type does not
have it, or the operator does not read values. -/
inductive FunctionFault (raw : String) (path : FieldPath) (type : Option FieldType)
    (operator : Option Operator) : QueryError → Prop
  | unsupported {function : FieldFunction} :
      path.function = some function →
      ¬((∀ t, type = some t → t.HasFunction function) ∧
        ∀ o, operator = some o → o.ReadsValues) →
      FunctionFault raw path type operator
        (.unsupportedFunction raw function.name path.dotted
          ((type.map FieldType.name).getD "untyped"))

/-- What is wrong with one value: it does not spell a value of the type that it is read as. -/
inductive ValueFault (raw : String) (path : FieldPath) (type : Option FieldType) (value : String) :
    QueryError → Prop
  | mk {target : FieldType} {cause : CoercionError} :
      path.ReadsAs type target → target.coerce value = .error cause →
      ValueFault raw path type value (.coercion raw cause)

/-- What is wrong with an operator and its right-hand side. -/
inductive OperandFault (raw : String) (path : FieldPath) (type : Option FieldType) :
    Operator → String → QueryError → Prop
  | compare {c : Comparison} {value : String} {e : QueryError} :
      ValueFault raw path type value e → OperandFault raw path type (.compare c) value e
  | isIn {value : String} {e : QueryError} :
      FirstFault (ValueFault raw path type) (Text.pieces ';' value) e →
      OperandFault raw path type .isIn value e
  | like {value : String} {t : FieldType} :
      type = some t → ¬t.IsTextual →
      OperandFault raw path type .like value
        (.coercion raw ⟨value, t.name, "like needs a text field"⟩)
  | literal {value : String} :
      (∀ literal : IsLiteral, value ≠ literal.name) →
      OperandFault raw path type .is value (.invalidIsLiteral raw value)
  | truth {literal : IsLiteral} {value : String} {t : FieldType} :
      value = literal.name → literal.isBoolean = true → type = some t → t ≠ .bool →
      OperandFault raw path type .is value
        (.coercion raw ⟨value, t.name, "is true/false needs a bool field"⟩)

/-- What is wrong with a filter token: with its field, then with its function, then with its
right-hand side. -/
def FilterToken.Fault (fields : List Field) (t : FilterToken) : QueryError → Prop :=
  InTurn [FieldFault fields t.raw t.path,
    fun e => ∃ type, Access.Typed fields t.path type ∧
      FunctionFault t.raw t.path type (some t.operator) e,
    fun e => ∃ type, Access.Typed fields t.path type ∧
      OperandFault t.raw t.path type t.operator t.value e]

/-- What is wrong with a sort token: with its field, then with its function. -/
def SortToken.Fault (fields : List Field) (t : SortToken) : QueryError → Prop :=
  InTurn [FieldFault fields t.raw t.path,
    fun e => ∃ type, Access.Typed fields t.path type ∧ FunctionFault t.raw t.path type none e]

/-! ## Planning reports them -/

theorem IsLiteral.name_injective : Function.Injective IsLiteral.name := fun l m h => by
  have hparse := congrArg parse h
  rw [parse_name, parse_name] at hparse
  exact Option.some.inj hparse

theorem IsLiteral.parse_eq_some_iff {raw : String} {literal : IsLiteral} :
    parse raw = some literal ↔ raw = literal.name := by
  constructor
  · intro h
    unfold parse at h
    split at h <;> cases h <;> rfl
  · rintro rfl
    exact parse_name literal

namespace PlannedField

/-- With a declared root, what is wrong with the field is that the walk below the root fails, or that
it arrives at a related record. -/
theorem fieldFault_iff {fields : List Field} {raw : String} {path : FieldPath} {field : Field}
    (hf : Field.IsFirst fields path.root field) {e : QueryError} :
    FieldFault fields raw path e ↔
      (∃ fault, field.walk path.nested = .error fault ∧
        e = .resolution raw path.display field.type.name fault.message) ∨
      ∃ arrival, field.walk path.nested = .ok arrival ∧
        (arrival.type.isRelation && path.function.isNone) = true ∧
        e = .resolution raw path.display arrival.type.name
          "a related record must be followed by one of its fields" := by
  simp only [Bool.and_eq_true, FieldType.isRelation_iff, Option.isNone_iff_eq_none]
  constructor
  · intro h
    cases h with
    | @stops other fault ho hs =>
      cases hf.unique ho
      exact .inl ⟨fault, Field.walkFrom_eq_error_iff.2 hs, rfl⟩
    | @bare inner hd hfun =>
      obtain ⟨other, arrival, ho, hw, ht⟩ := hd.exists_walk
      cases hf.unique ho
      exact .inr ⟨arrival, hw, ⟨⟨inner, ht⟩, hfun⟩, by rw [ht]⟩
  · rintro (⟨fault, hw, rfl⟩ | ⟨arrival, hw, ⟨⟨inner, ht⟩, hfun⟩, rfl⟩)
    · exact .stops hf (Field.walkFrom_eq_error_iff.1 hw)
    · have hd := Field.declares_of_walk hf hw
      rw [ht] at hd ⊢
      exact .bare hd hfun

theorem reports_ofPath {fields : List Field} {raw : String} {path : FieldPath} :
    Reports (ofPath raw (Access.locate fields path)) (FieldFault fields raw path) := by
  rcases Field.exists_isFirst_or fields path.root with ⟨field, hf⟩ | hn
  · rw [Access.locate_of_isFirst hf]
    show Reports (ofWalk raw _ field (field.walk path.nested)) _
    unfold ofWalk
    cases hw : field.walk path.nested with
    | error fault =>
      refine .error fun e => (fieldFault_iff hf).trans ?_
      rw [hw]
      constructor
      · rintro (⟨_, hfault, rfl⟩ | ⟨_, hfault, _⟩) <;> cases hfault
        rfl
      · rintro rfl
        exact .inl ⟨fault, rfl, rfl⟩
    | ok arrival =>
      dsimp only
      split
      · rename_i hbare
        refine .error fun e => (fieldFault_iff hf).trans ?_
        rw [hw]
        constructor
        · rintro (⟨_, harrival, _⟩ | ⟨_, harrival, _, rfl⟩) <;> cases harrival
          rfl
        · rintro rfl
          exact .inr ⟨arrival, rfl, hbare, rfl⟩
      · rename_i hbare
        refine .ok _ fun e he => ?_
        rcases (fieldFault_iff hf).1 he with ⟨_, hfault, _⟩ | ⟨_, harrival, hbare', _⟩
        · cases hw.symm.trans hfault
        · cases hw.symm.trans harrival
          exact hbare hbare'
  · rw [Access.locate_of_forall_not hn]
    refine .ok _ fun e he => ?_
    cases he with
    | stops hf _ => exact hf.not_forall_not hn
    | bare hd _ =>
      obtain ⟨_, _, hf, _⟩ := hd.exists_walk
      exact hf.not_forall_not hn

variable (f : PlannedField)

theorem reports_checkFunction (operator : Option Operator) :
    Reports (f.checkFunction operator) (FunctionFault f.token f.path f.type operator) := by
  have hok := @checkFunction_eq_ok_iff f operator
  cases hc : f.checkFunction operator with
  | ok u =>
    rw [hc] at hok
    refine .ok u fun e he => ?_
    cases he with
    | unsupported hf hn => exact hn (hok.1 rfl _ hf)
  | error e =>
    rw [hc] at hok
    obtain ⟨function, hf, hn⟩ : ∃ function, f.path.function = some function ∧
        ¬((∀ t, f.type = some t → t.HasFunction function) ∧
          ∀ o, operator = some o → o.ReadsValues) := by
      by_contra hno
      refine nomatch hok.2 fun function hf => ?_
      by_contra hn
      exact hno ⟨function, hf, hn⟩
    have he : e = .unsupportedFunction f.token function.name f.path.dotted f.typeName := by
      unfold checkFunction PlannedField.function at hc
      rw [hf] at hc
      dsimp only at hc
      split at hc <;> cases hc
      rfl
    refine .error fun e' => ⟨fun h' => ?_, ?_⟩
    · cases h' with
      | unsupported hf' _ =>
        cases hf.symm.trans hf'
        exact he.symm
    · rintro rfl
      rw [he]
      exact .unsupported hf hn

theorem reports_value (raw : String) :
    Reports (f.value raw) (ValueFault f.token f.path f.type raw) := by
  intro e
  rw [value_eq_error_iff]
  constructor
  · rintro ⟨target, cause, ht, hc, rfl⟩
    exact .mk ht hc
  · rintro ⟨ht, hc⟩
    exact ⟨_, _, ht, hc, rfl⟩

theorem reports_operand (operator : Operator) (raw : String) :
    Reports (f.operand operator raw) (OperandFault f.token f.path f.type operator raw) := by
  cases operator with
  | compare c =>
    refine ((f.reports_value raw).map (Operand.compare c)).congr fun e => ⟨.compare, fun h => ?_⟩
    cases h with
    | compare he => exact he
  | isIn =>
    have hpieces : Reports (collect f.value (Text.pieces ';' raw))
        (FirstFault (ValueFault f.token f.path f.type) (Text.pieces ';' raw)) :=
      .collect fun piece _ => f.reports_value piece
    refine (hpieces.map Operand.isIn).congr fun e => ⟨.isIn, fun h => ?_⟩
    cases h with
    | isIn he => exact he
  | like =>
    have htext := @takesLike_iff f.type
    dsimp only [operand]
    split
    · rename_i ht
      refine .ok _ fun e he => ?_
      cases he with
      | like hs hn => exact hn (htext.1 ht _ hs)
    · rename_i ht
      obtain ⟨t, hs, hn⟩ : ∃ t, f.type = some t ∧ ¬t.IsTextual := by
        by_contra hno
        refine ht (htext.2 fun t hs => ?_)
        by_contra hn
        exact hno ⟨t, hs, hn⟩
      have hname : f.typeName = t.name := by rw [typeName, hs]; rfl
      refine .error fun e => ⟨fun he => ?_, ?_⟩
      · cases he with
        | like hs' _ =>
          cases hs.symm.trans hs'
          rw [hname]
      · rintro rfl
        rw [hname]
        exact .like hs hn
  | is =>
    dsimp only [operand]
    split
    · rename_i hn
      have hnone : ∀ literal : IsLiteral, raw ≠ literal.name := by
        rintro literal rfl
        rw [IsLiteral.parse_name] at hn
        cases hn
      refine .error fun e => ⟨fun he => ?_, ?_⟩
      · cases he with
        | literal _ => rfl
        | truth hv _ _ _ => exact absurd hv (hnone _)
      · rintro rfl
        exact .literal hnone
    · rename_i literal hl
      have hv := IsLiteral.parse_eq_some_iff.1 hl
      have htruth := @takesLiteral_iff literal f.type
      split
      · rename_i ht
        refine .ok _ fun e he => ?_
        cases he with
        | literal hno => exact hno literal hv
        | truth hv' hb hs hne =>
          cases IsLiteral.name_injective (hv.symm.trans hv')
          exact hne (htruth.1 ht hb _ hs)
      · rename_i ht
        obtain ⟨hb, t, hs, hne⟩ : literal.isBoolean = true ∧ ∃ t, f.type = some t ∧ t ≠ .bool := by
          simpa using mt htruth.2 ht
        have hname : f.typeName = t.name := by rw [typeName, hs]; rfl
        refine .error fun e => ⟨fun he => ?_, ?_⟩
        · cases he with
          | literal hno => exact absurd hv (hno literal)
          | truth _ _ hs' _ =>
            cases hs.symm.trans hs'
            rw [hname]
        · rintro rfl
          rw [hname]
          exact .truth hv hb hs hne

/-- What a planned field has of its token: the text, the path, and the type of the path. -/
theorem parts_of_ofPath {f : PlannedField} {fields : List Field} {raw : String} {path : FieldPath}
    (h : ofPath raw (Access.locate fields path) = .ok f) :
    f.token = raw ∧ f.path = path ∧ Access.Typed fields path f.type := by
  refine ⟨?_, (path_of_ofPath h).trans (Access.locate_path fields path), Access.typed_of_ofPath h⟩
  rcases ofPath_eq_ok_iff.1 h with ⟨_, rfl⟩ | ⟨_, _, _, _, _, rfl⟩ <;> rfl

end PlannedField

/-- What is reported for the type of a path is reported for a type that the path has. -/
theorem Access.Typed.reports {α : Type} {x : Except QueryError α} {fields : List Field}
    {path : FieldPath} {type : Option FieldType} (h : Typed fields path type)
    (fault : Option FieldType → QueryError → Prop) (hx : Reports x (fault type)) :
    Reports x fun e => ∃ other, Typed fields path other ∧ fault other e := by
  refine hx.congr fun e => ⟨fun he => ⟨type, h, he⟩, ?_⟩
  rintro ⟨other, ho, he⟩
  rwa [h.unique ho]

namespace Compiler

theorem reports_planFilter (fields : List Field) (t : FilterToken) :
    Reports (planFilter t (Access.locate fields t.path)) (t.Fault fields) := by
  unfold planFilter
  refine PlannedField.reports_ofPath.inTurn.bind fun f hf => ?_
  obtain ⟨htoken, hpath, htyped⟩ := PlannedField.parts_of_ofPath hf
  have hfunction := f.reports_checkFunction (some t.operator)
  have hoperand := f.reports_operand t.operator t.value
  rw [htoken, hpath] at hfunction hoperand
  rw [PlannedField.filter_eq]
  refine (htyped.reports (FunctionFault t.raw t.path · (some t.operator)) hfunction).inTurn.bind
    fun () _ => Reports.inTurn (.map ?_ _)
  exact htyped.reports (OperandFault t.raw t.path · t.operator t.value) hoperand

theorem reports_planSort (fields : List Field) (t : SortToken) :
    Reports (planSort t (Access.locate fields t.path)) (t.Fault fields) := by
  unfold planSort
  refine PlannedField.reports_ofPath.inTurn.bind fun f hf => ?_
  obtain ⟨htoken, hpath, htyped⟩ := PlannedField.parts_of_ofPath hf
  have hfunction := f.reports_checkFunction none
  rw [htoken, hpath] at hfunction
  exact ((htyped.reports (FunctionFault t.raw t.path · none) hfunction).map _).inTurn

end Compiler

/-! ## The token in an error -/

/-- The token that an error is about, as it was written. -/
def QueryError.token? : QueryError → Option String
  | .malformedToken _ token _ => some token
  | .unknownOperator token _ => some token
  | .invalidIsLiteral token _ => some token
  | .coercion token _ => some token
  | .unsupportedFunction token _ _ _ => some token
  | .resolution token _ _ _ => some token
  | .invalidDirection token _ => some token
  | _ => none

/-- The message of an error shows the token that it is about. -/
theorem QueryError.message_of_token? {e : QueryError} {token : String} (h : e.token? = some token) :
    ∃ before after, e.message = before ++ token ++ after := by
  cases e with
  | malformedToken kind token reason =>
    cases h
    exact ⟨"malformed " ++ kind.name ++ " token `", "`: " ++ reason, String.append_assoc⟩
  | unknownOperator token operator =>
    cases h
    exact ⟨"unknown operator `" ++ operator ++ "` in filter token `", "`", rfl⟩
  | invalidIsLiteral token literal =>
    cases h
    exact ⟨"invalid IS value `" ++ literal ++ "` in filter token `",
      "`, expected one of true, false, null, not_null", rfl⟩
  | coercion token source =>
    cases h
    exact ⟨"invalid value in filter token `", "`: " ++ source.message, String.append_assoc⟩
  | unsupportedFunction token function field fieldType =>
    cases h
    refine ⟨"`" ++ function ++ "()` in token `",
      "` is not supported on field `" ++ (field ++ ("` of type " ++ fieldType)), ?_⟩
    rw [← String.append_assoc, ← String.append_assoc, ← String.append_assoc]
    rfl
  | resolution token field fieldType cause =>
    cases h
    exact ⟨"cannot resolve field `" ++ field ++ "` of type " ++ fieldType ++ " in token `",
      "`: " ++ cause, String.append_assoc⟩
  | invalidDirection token direction =>
    cases h
    exact ⟨"invalid sort direction `" ++ direction ++ "` in sort token `",
      "`, expected asc or desc", rfl⟩
  | disallowedFields _ _ | tooManyParams _ _ _ | valueTooLong _ _ | invalidPageSize _
  | invalidPage _ _ | unsupportedDialect _ => cases h

section Names

variable {fields : List Field} {raw : String} {path : FieldPath} {type : Option FieldType}
  {e : QueryError}

theorem FieldFault.token? (h : FieldFault fields raw path e) : e.token? = some raw := by
  cases h <;> rfl

theorem FunctionFault.token? {operator : Option Operator}
    (h : FunctionFault raw path type operator e) : e.token? = some raw := by
  cases h
  rfl

theorem ValueFault.token? {value : String} (h : ValueFault raw path type value e) :
    e.token? = some raw := by
  cases h
  rfl

theorem OperandFault.token? {operator : Operator} {value : String}
    (h : OperandFault raw path type operator value e) : e.token? = some raw := by
  cases h with
  | compare he => exact he.token?
  | isIn he =>
    obtain ⟨_, _, hpiece⟩ := he.exists_mem
    exact hpiece.token?
  | like _ _ => rfl
  | literal _ => rfl
  | truth _ _ _ _ => rfl

theorem FilterToken.Fault.token? {t : FilterToken} (h : t.Fault fields e) :
    e.token? = some t.raw := by
  obtain ⟨kind, hkind, he⟩ := h.exists_mem
  simp only [List.mem_cons, List.not_mem_nil, or_false] at hkind
  rcases hkind with rfl | rfl | rfl
  · exact FieldFault.token? he
  · obtain ⟨_, _, hfunction⟩ := he
    exact hfunction.token?
  · obtain ⟨_, _, hoperand⟩ := he
    exact hoperand.token?

theorem SortToken.Fault.token? {t : SortToken} (h : t.Fault fields e) :
    e.token? = some t.raw := by
  obtain ⟨kind, hkind, he⟩ := h.exists_mem
  simp only [List.mem_cons, List.not_mem_nil, or_false] at hkind
  rcases hkind with rfl | rfl
  · exact FieldFault.token? he
  · obtain ⟨_, _, hfunction⟩ := he
    exact hfunction.token?

end Names

end RecordQuery
