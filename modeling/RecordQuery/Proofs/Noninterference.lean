import RecordQuery.Proofs.ClauseText

/-!
# Values stay out of the text

What a client sends as a value never becomes a part of the text. Two requests that differ in values
only are written alike, so a value can tell the database nothing except as a bound value. And no
text leaves a small language, whatever the request: beside its fixed words it holds only letters,
digits, underscores and points, so there is nothing in it that could end a name or open a string.

1. `FilterToken.SameForm`: tokens that differ in values only.
2. `ConditionForm`, `WhereForm`: the language of conditions.
3. `Compiler.values_never_reach_text`: values do not matter to the text, which is in the language.
-/
namespace RecordQuery

/-! ## Two requests -/

/-- Two tokens that differ in their values only. What the text shows of a value is the number of
members of a list, and which literal it is, so these have to be the same. -/
structure FilterToken.SameForm (s t : FilterToken) : Prop where
  path : s.path = t.path
  operator : s.operator = t.operator
  members : s.operator = .isIn → s.values.length = t.values.length
  literal : s.operator = .is → IsLiteral.parse s.value = IsLiteral.parse t.value

instance (s t : FilterToken) : Decidable (s.SameForm t) :=
  decidable_of_iff (s.path = t.path ∧ s.operator = t.operator ∧
      (s.operator = .isIn → s.values.length = t.values.length) ∧
      (s.operator = .is → IsLiteral.parse s.value = IsLiteral.parse t.value))
    ⟨fun ⟨hp, ho, hm, hl⟩ => ⟨hp, ho, hm, hl⟩, fun h => ⟨h.path, h.operator, h.members, h.literal⟩⟩

/-- Tokens of one form have the same text beside the column. -/
theorem FilterToken.SameForm.operand_sql_eq {s t : FilterToken} (h : s.SameForm t)
    {f g : PlannedField} {o p : Operand} (ho : f.Reads s.operator s.value o)
    (hp : g.Reads t.operator t.value p) : o.sql = p.sql := by
  have hm := h.members
  have hl := h.literal
  unfold FilterToken.values at hm
  rw [← h.operator] at hp
  generalize s.operator = operator at ho hp hm hl
  cases ho with
  | compare _ =>
    cases hp with
    | compare _ => rfl
  | @isIn _ vs hvs =>
    cases hp with
    | @isIn _ ws hws =>
      have hlen : vs.length = ws.length :=
        hvs.length_eq.symm.trans ((hm rfl).trans hws.length_eq)
      have hmap : vs.map (fun _ => "?") = ws.map (fun _ => "?") := by
        rw [List.map_const', List.map_const', hlen]
      show "IN (" ++ ",".intercalate (vs.map fun _ => "?") ++ ")" = _
      rw [hmap]
      rfl
  | like _ =>
    cases hp with
    | like _ => rfl
  | is ho _ =>
    cases hp with
    | is hp _ =>
      have hsame := hl rfl
      rw [ho, hp] at hsame
      cases hsame
      rfl

namespace Compiler

variable {c : Compiler}

/-- Tokens of one form have the same condition. Which names are allowed decides only whether a token
has one. -/
theorem PlansFilter.sql_eq_of_sameForm {allowed others : NameSet} {s t : FilterToken}
    {p r : PlannedFilter} (hp : c.PlansFilter allowed s p) (hr : c.PlansFilter others t r)
    (h : s.SameForm t) (qualifier : String) : p.sql qualifier = r.sql qualifier := by
  have hcolumns : p.field.columns = r.field.columns :=
    hp.plansField.columns_eq (h.path ▸ hr.plansField)
  rw [hp.sql_eq, hr.sql_eq, h.path, hcolumns, h.operand_sql_eq hp.reads hr.reads]

theorem text_eq_of_sameForm {s t : FilterSpec} {qualifier : String} {a b : Clause}
    (h : List.Forall₂ FilterToken.SameForm s.tokens t.tokens)
    (ha : c.compileText s qualifier = .ok a) (hb : c.compileText t qualifier = .ok b) :
    a.text = b.text := by
  obtain ⟨plan, hp, rfl⟩ := compileText_eq_ok_iff.1 ha
  obtain ⟨other, ho, rfl⟩ := compileText_eq_ok_iff.1 hb
  -- From one plan to its tokens, over to the other tokens, and on to their plan.
  have hplans := forall₂_comp (planFilters_eq_ok_iff.1 hp).2.flip
    (forall₂_comp h (planFilters_eq_ok_iff.1 ho).2)
  have hsql : plan.map (·.sql qualifier) = other.map (·.sql qualifier) := by
    refine map_eq_map_of_forall₂ hplans ?_
    rintro p r ⟨s, hs, t, hst, ht⟩
    exact hs.sql_eq_of_sameForm ht hst qualifier
  rw [Clause.text_ofFilters, Clause.text_ofFilters, hsql]

end Compiler

/-! ## The language -/

/-- A text of letters, digits, underscores and points. -/
def IsPlain (s : String) : Prop := ∀ c ∈ s.toList, (isSegmentChar c || c == '.') = true

instance (s : String) : Decidable (IsPlain s) := List.decidableBAll _ s.toList

theorem IsSegment.isPlain {s : String} (h : IsSegment s) : IsPlain s := fun c hc => by
  rw [h.2 c hc, Bool.true_or]

theorem IsPlain.append {s t : String} (hs : IsPlain s) (ht : IsPlain t) : IsPlain (s ++ t) := by
  unfold IsPlain
  rw [String.toList_append, List.forall_mem_append]
  exact ⟨hs, ht⟩

theorem isPlain_intercalate {names : List String} (h : ∀ name ∈ names, IsPlain name) :
    IsPlain (".".intercalate names) := by
  induction names with
  | nil => decide
  | cons name rest ih =>
    obtain ⟨hname, hrest⟩ := List.forall_mem_cons.1 h
    cases rest with
    | nil => simpa using hname
    | cons next rest =>
      rw [String.intercalate_cons_cons]
      exact (hname.append (by decide)).append (ih hrest)

/-- A column is a plain text, or a function of one. -/
inductive ColumnForm : String → Prop
  | plain {s : String} : IsPlain s → ColumnForm s
  | length {s : String} : IsPlain s → ColumnForm ("LENGTH(" ++ s ++ ")")
  | size {s : String} : IsPlain s → ColumnForm ("CARDINALITY(" ++ s ++ ")")

/-- A condition is a column and one of the fixed texts beside it. -/
inductive ConditionForm : String → Prop
  | mk {column comparand : String} :
      ColumnForm column → Comparand comparand → ConditionForm (column ++ " " ++ comparand)

/-- Conditions, at least one, that all have to hold. -/
inductive WhereForm : String → Prop
  | mk {condition : String} {rest : List String} :
      (∀ text ∈ condition :: rest, ConditionForm text) →
      WhereForm ("WHERE " ++ " AND ".intercalate (condition :: rest))

theorem Access.Columns.isPlain {shape : Shape} {allowed : NameSet} {path : FieldPath}
    {names : List String} (h : Access.Columns shape.fields allowed path names) {qualifier : String}
    (hq : IsPlain qualifier) (hn : ∀ name ∈ shape.storageNames, IsPlain name) :
    IsPlain (qualifier ++ ".".intercalate names) := by
  refine hq.append (isPlain_intercalate fun name hname => ?_)
  rcases h.mem_names name hname with hs | hs
  · exact hn name hs
  · exact hs.isPlain

theorem Access.Columns.columnForm {shape : Shape} {allowed : NameSet} {path : FieldPath}
    {names : List String} (h : Access.Columns shape.fields allowed path names) {qualifier : String}
    (hq : IsPlain qualifier) (hn : ∀ name ∈ shape.storageNames, IsPlain name)
    (function : Option FieldFunction) : ColumnForm (columnText function qualifier names) := by
  have hplain : IsPlain (qualifier ++ ".".intercalate names) := h.isPlain hq hn
  cases function with
  | none => exact .plain hplain
  | some function =>
    cases function with
    | length =>
      have hgroup : "LENGTH(" ++ qualifier ++ ".".intercalate names =
          "LENGTH(" ++ (qualifier ++ ".".intercalate names) := String.append_assoc
      show ColumnForm ("LENGTH(" ++ qualifier ++ ".".intercalate names ++ ")")
      rw [hgroup]
      exact .length hplain
    | size =>
      have hgroup : "CARDINALITY(" ++ qualifier ++ ".".intercalate names =
          "CARDINALITY(" ++ (qualifier ++ ".".intercalate names) := String.append_assoc
      show ColumnForm ("CARDINALITY(" ++ qualifier ++ ".".intercalate names ++ ")")
      rw [hgroup]
      exact .size hplain

namespace Sample

/-- The sample conditions with other values, of which one would end the query if it were written. -/
def hostile : FilterSpec where
  tokens :=
    [⟨cityLength, .isIn, "-1;7", ""⟩, ⟨tenantKey, .like, "?'; DROP TABLE people --", ""⟩]
  allowed := NameSet.ofList ["tenant"]

end Sample

namespace Compiler

variable {c : Compiler}

theorem PlansFilter.conditionForm {allowed : NameSet} {t : FilterToken} {p : PlannedFilter}
    (h : c.PlansFilter allowed t p) {qualifier : String} (hq : IsPlain qualifier)
    (hn : ∀ name ∈ c.shape.storageNames, IsPlain name) : ConditionForm (p.sql qualifier) := by
  rw [h.sql_eq]
  exact .mk (h.plansField.columns.columnForm hq hn _) h.reads.comparand

theorem whereForm_of_compileText {spec : FilterSpec} {qualifier : String} {clause : Clause}
    (h : c.compileText spec qualifier = .ok clause) (hne : clause.text ≠ "")
    (hq : IsPlain qualifier) (hn : ∀ name ∈ c.shape.storageNames, IsPlain name) :
    WhereForm clause.text := by
  obtain ⟨plan, hp, rfl⟩ := compileText_eq_ok_iff.1 h
  rw [Clause.text_ofFilters] at hne ⊢
  have hform : ∀ text ∈ plan.map (·.sql qualifier), ConditionForm text :=
    List.forall_mem_map.2 (forall_mem_of_forall₂ (planFilters_eq_ok_iff.1 hp).2
      fun t p htp => htp.conditionForm hq hn)
  cases hc : plan.map (·.sql qualifier) with
  | nil =>
    rw [hc] at hne
    exact absurd rfl hne
  | cons condition rest => exact .mk (hc ▸ hform)

/-- Values never reach the text. Two requests that differ in values only are written alike, alone
and within a whole request, whatever names either is allowed. And with a plain qualifier and plain
storage names, every text of conditions is in the language. -/
theorem values_never_reach_text (c : Compiler) (qualifier : String) :
    (∀ s t : FilterSpec, List.Forall₂ FilterToken.SameForm s.tokens t.tokens →
      (∀ a b, c.compileText s qualifier = .ok a → c.compileText t qualifier = .ok b →
        a.text = b.text) ∧
      (∀ sort pagination a b, ListQuery.toSql ⟨s, sort, pagination⟩ c qualifier = .ok a →
        ListQuery.toSql ⟨t, sort, pagination⟩ c qualifier = .ok b → a.text = b.text)) ∧
    (IsPlain qualifier → (∀ name ∈ c.shape.storageNames, IsPlain name) →
      ∀ spec clause, c.compileText spec qualifier = .ok clause → clause.text ≠ "" →
        WhereForm clause.text) := by
  refine ⟨fun s t h => ⟨fun a b => text_eq_of_sameForm h, ?_⟩, ?_⟩
  · intro sort pagination a b ha hb
    obtain ⟨filter, order, window, hf, ho, hw, rfl⟩ := ListQuery.toSql_eq_ok_iff.1 ha
    obtain ⟨filter', order', window', hf', ho', hw', rfl⟩ := ListQuery.toSql_eq_ok_iff.1 hb
    -- The order and the window do not depend on the conditions.
    have horder : order = order' := Except.ok.inj (ho.symm.trans ho')
    have hwindow : window = window' := Except.ok.inj (hw.symm.trans hw')
    show joinedText [filter.text, order, window] = joinedText [filter'.text, order', window']
    rw [text_eq_of_sameForm h hf hf', horder, hwindow]
  · intro hq hn spec clause h hne
    exact whereForm_of_compileText h hne hq hn

/-- The hostile request binds its values and is written like the sample request, alone and with the
order and the page, and its text is in the language. -/
theorem values_never_reach_text_hostile :
    (∃ a b, Sample.compiler.compileText Sample.hostile "p." = .ok a ∧
      Sample.compiler.compileText Sample.conditions "p." = .ok b ∧
      a.values = [.int64 (-1), .int64 7, .text "%?'; DROP TABLE people --%"] ∧
      a.text = b.text ∧ WhereForm a.text) ∧
    ∃ a b, ListQuery.toSql ⟨Sample.hostile, Sample.order, ⟨2, some 5⟩⟩ Sample.compiler "p." = .ok a ∧
      Sample.request.toSql Sample.compiler "p." = .ok b ∧ a.text = b.text := by
  obtain ⟨htwo, hform⟩ := values_never_reach_text Sample.compiler "p."
  obtain ⟨halone, hwhole⟩ := htwo Sample.hostile Sample.conditions (by decide)
  constructor
  · have ha : Sample.compiler.compileText Sample.hostile "p." =
        .ok ⟨"WHERE LENGTH(p.addr.city_name) IN (?,?) AND p.tenant.key LIKE ? ESCAPE '!'",
          [.int64 (-1), .int64 7, .text "%?'; DROP TABLE people --%"]⟩ := rfl
    obtain ⟨b, hb⟩ : ∃ b, Sample.compiler.compileText Sample.conditions "p." = .ok b := ⟨_, rfl⟩
    exact ⟨_, b, ha, hb, rfl, halone _ b ha hb,
      hform (by decide) (by decide) Sample.hostile _ ha (by decide)⟩
  · obtain ⟨a, ha⟩ : ∃ a, ListQuery.toSql ⟨Sample.hostile, Sample.order, ⟨2, some 5⟩⟩
        Sample.compiler "p." = .ok a := ⟨_, rfl⟩
    obtain ⟨b, hb⟩ : ∃ b, Sample.request.toSql Sample.compiler "p." = .ok b := ⟨_, rfl⟩
    exact ⟨a, b, ha, hb, hwhole Sample.order ⟨2, some 5⟩ a b ha hb⟩

end Compiler

end RecordQuery
