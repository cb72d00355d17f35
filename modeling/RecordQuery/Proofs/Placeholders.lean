import Mathlib.Algebra.GroupWithZero.Nat
import RecordQuery.Proofs.ClauseText

/-!
# Placeholders and values

A database binds the values of a query to its question marks in order, so a mark too many anywhere
before a condition would bind every later value to the wrong column. There is none: a condition has
as many marks as values, and nothing between the conditions or after them has a mark.

1. `marks`: the question marks of a text. `marks_intercalate`: those of joined texts.
2. `FilterToken.arity`: how many values a token binds. `PlannedField.Reads.arity`: what is read
   from it binds as many.
3. `ListQuery.values_at_placeholders`: the values of a whole request are at their places.
-/
namespace RecordQuery

/-! ## Question marks -/

/-- The number of question marks in a text. -/
def marks (s : String) : Nat := s.toList.count '?'

@[simp]
theorem marks_append (s t : String) : marks (s ++ t) = marks s + marks t := by
  rw [marks, String.toList_append, List.count_append]
  rfl

theorem marks_eq_zero {s : String} (h : '?' ∉ s.toList) : marks s = 0 :=
  List.count_eq_zero.2 h

/-- Joined texts have the marks that they have apart, if the text between them has none. -/
theorem marks_intercalate {sep : String} (hs : marks sep = 0) (texts : List String) :
    marks (sep.intercalate texts) = (texts.map marks).sum := by
  induction texts with
  | nil => rfl
  | cons text rest ih =>
    cases rest with
    | nil => simp
    | cons next rest => simp [hs, ih]

/-- The marks of the members of a list. -/
theorem marks_members (n : Nat) : marks (",".intercalate (List.replicate n "?")) = n := by
  have hone : marks "?" = 1 := rfl
  rw [marks_intercalate rfl, List.map_replicate, hone, List.sum_replicate_nat, Nat.mul_one]

/-- A text that stands among joined ones has the marks of those before it on its left, and the marks
of those after it on its right. -/
theorem exists_intercalate_eq (sep : String) (hs : marks sep = 0) (front back : List String)
    (text : String) :
    ∃ before after, sep.intercalate (front ++ text :: back) = before ++ text ++ after ∧
      marks before = (front.map marks).sum ∧ marks after = (back.map marks).sum := by
  obtain ⟨after, ha, hm⟩ : ∃ after, sep.intercalate (text :: back) = text ++ after ∧
      marks after = (back.map marks).sum := by
    rcases List.eq_nil_or_concat back with rfl | ⟨_, _, hb⟩
    · exact ⟨"", by simp, rfl⟩
    · have hne : back ≠ [] := by simp [hb]
      refine ⟨sep ++ sep.intercalate back, ?_, ?_⟩
      · rw [String.intercalate_cons_of_ne_nil hne, String.append_assoc]
      · rw [marks_append, hs, marks_intercalate hs, Nat.zero_add]
  by_cases hf : front = []
  · subst hf
    exact ⟨"", after, by simpa using ha, rfl, hm⟩
  · refine ⟨sep.intercalate front ++ sep, after, ?_, ?_, hm⟩
    · rw [String.intercalate_append_of_ne_nil hf (List.cons_ne_nil text back), ha]
      exact String.append_assoc.symm
    · rw [marks_append, hs, marks_intercalate hs, Nat.add_zero]

theorem marks_toString (n : Nat) : marks (toString n) = 0 := by
  refine marks_eq_zero fun hm => ?_
  have hd : '?' ∈ Nat.toDigits 10 n := by simpa using hm
  exact absurd (Nat.isDigit_of_mem_toDigits (by decide) (by decide) hd) (by decide)

theorem IsSegment.marks_eq_zero {s : String} (h : IsSegment s) : marks s = 0 :=
  RecordQuery.marks_eq_zero fun hm => absurd (h.2 '?' hm) (by decide)

theorem marks_whereText (conditions : List String) :
    marks (whereText conditions) = (conditions.map marks).sum := by
  cases conditions with
  | nil => rfl
  | cons condition rest =>
    show marks ("WHERE " ++ " AND ".intercalate (condition :: rest)) = _
    rw [marks_append, marks_intercalate rfl]
    exact Nat.zero_add _

theorem marks_orderText (terms : List String) :
    marks (orderText terms) = (terms.map marks).sum := by
  cases terms with
  | nil => rfl
  | cons term rest =>
    show marks ("ORDER BY " ++ ", ".intercalate (term :: rest)) = _
    rw [marks_append, marks_intercalate rfl]
    exact Nat.zero_add _

theorem marks_joinedText (texts : List String) :
    marks (joinedText texts) = (texts.map marks).sum := by
  rw [joinedText, marks_intercalate rfl]
  induction texts with
  | nil => rfl
  | cons text rest ih =>
    by_cases ht : text = ""
    · subst ht
      rw [List.filter_cons_of_neg (by simp), ih]
      exact (Nat.zero_add _).symm
    · rw [List.filter_cons_of_pos (by simpa using ht), List.map_cons, List.sum_cons, ih]
      rfl

/-! ## Parts of a query -/

/-- How many values a token binds: one that is compared with or searched for, or one for each member
of a list; a literal is not bound. -/
def FilterToken.arity (t : FilterToken) : Nat :=
  match t.operator with
  | .compare _ | .like => 1
  | .isIn => t.values.length
  | .is => 0

theorem FilterToken.arity_pos {t : FilterToken} (h : t.operator = .isIn) : 0 < t.arity := by
  rw [arity, h]
  exact Text.length_pieces_pos ';' t.value

theorem PlannedField.Reads.arity {f : PlannedField} {t : FilterToken} {o : Operand}
    (h : f.Reads t.operator t.value o) : o.values.length = t.arity := by
  unfold FilterToken.arity
  generalize t.operator = operator at h
  cases h with
  | compare _ => rfl
  | isIn hvs => exact hvs.length_eq.symm
  | like _ => rfl
  | is _ _ => rfl

/-- What is read from a token has a mark for each of its values. -/
theorem PlannedField.Reads.marks_sql {f : PlannedField} {operator : Operator} {raw : String}
    {o : Operand} (h : f.Reads operator raw o) : marks o.sql = o.values.length := by
  cases h with
  | @compare c _ _ _ =>
    show marks (c.sql ++ " ?") = 1
    cases c <;> decide
  | @isIn _ vs _ =>
    show marks ("IN (" ++ ",".intercalate (vs.map fun _ => "?") ++ ")") = vs.length
    rw [marks_append, marks_append, List.map_const', marks_members]
    exact Nat.zero_add _
  | like _ =>
    show marks ("LIKE ? ESCAPE '" ++ String.singleton Like.escapeChar ++ "'") = 1
    decide
  | @is _ literal _ _ =>
    show marks literal.sql = 0
    cases literal <;> decide

/-- A column has no marks, if neither its qualifier nor any storage name has one. -/
theorem Access.Columns.marks_columnText {shape : Shape} {allowed : NameSet} {path : FieldPath}
    {names : List String} (h : Access.Columns shape.fields allowed path names) {qualifier : String}
    (hq : marks qualifier = 0) (hn : ∀ name ∈ shape.storageNames, marks name = 0)
    (function : Option FieldFunction) : marks (columnText function qualifier names) = 0 := by
  have hnames : marks (".".intercalate names) = 0 := by
    rw [marks_intercalate rfl, List.sum_eq_zero_iff_forall_eq_nat, List.forall_mem_map]
    intro name hname
    rcases h.mem_names name hname with hs | hs
    · exact hn name hs
    · exact hs.marks_eq_zero
  cases function with
  | none =>
    show marks (qualifier ++ ".".intercalate names) = 0
    rw [marks_append, hq, hnames]
  | some function =>
    cases function with
    | length =>
      show marks ("LENGTH(" ++ qualifier ++ ".".intercalate names ++ ")") = 0
      rw [marks_append, marks_append, marks_append, hq, hnames]
      rfl
    | size =>
      show marks ("CARDINALITY(" ++ qualifier ++ ".".intercalate names ++ ")") = 0
      rw [marks_append, marks_append, marks_append, hq, hnames]
      rfl

theorem Dialect.marks_window {d : Dialect} {offset limit : UInt64} {text : String}
    (h : d.window offset limit = .ok text) : marks text = 0 := by
  have ho := marks_toString offset.toNat
  have hl := marks_toString limit.toNat
  cases d <;> cases h <;> simp only [marks_append, ho, hl] <;> rfl

theorem ListQuery.marks_windowSql {q : ListQuery} {c : Compiler} {text : String}
    (h : q.windowSql c = .ok text) : marks text = 0 := by
  unfold windowSql Pagination.sql at h
  split at h
  · cases h
    rfl
  · split at h
    · cases h
    · split at h
      · cases h
      · cases h
        rfl
      · exact Dialect.marks_window h

/-- A planned condition as a part of a clause. -/
def PlannedFilter.clause (qualifier : String) (p : PlannedFilter) : Clause :=
  ⟨p.sql qualifier, p.operand.values⟩

theorem Clause.ofFilters_eq (qualifier : String) (plan : List PlannedFilter) :
    ofFilters qualifier plan =
      ⟨whereText ((plan.map (·.clause qualifier)).map (·.text)),
        (plan.map (·.clause qualifier)).flatMap (·.values)⟩ := by
  rw [List.map_map, List.flatMap_map]
  cases plan <;> rfl

namespace Compiler

variable {c : Compiler} {allowed : NameSet} {qualifier : String}

theorem PlansFilter.marks_clause {t : FilterToken} {p : PlannedFilter}
    (h : c.PlansFilter allowed t p) (hq : marks qualifier = 0)
    (hn : ∀ name ∈ c.shape.storageNames, marks name = 0) :
    marks (p.clause qualifier).text = (p.clause qualifier).values.length := by
  show marks (p.sql qualifier) = p.operand.values.length
  rw [h.sql_eq, marks_append, marks_append, h.plansField.columns.marks_columnText hq hn, h.reads.marks_sql]
  exact Nat.zero_add _

theorem marks_compileSortText {spec : SortSpec} {text : String}
    (h : c.compileSortText spec qualifier = .ok text) (hq : marks qualifier = 0)
    (hn : ∀ name ∈ c.shape.storageNames, marks name = 0) : marks text = 0 := by
  obtain ⟨plan, hp, rfl⟩ := compileSortText_eq_ok_iff.1 h
  rw [marks_orderText, List.sum_eq_zero_iff_forall_eq_nat, List.forall_mem_map,
    List.forall_mem_map]
  refine forall_mem_of_forall₂ (planSorts_eq_ok_iff.1 hp).2 fun t p htp => ?_
  rw [htp.sql_eq, marks_append, marks_append, htp.plansField.columns.marks_columnText hq hn]
  cases t.direction <;> rfl

end Compiler

/-! ## Values at their places -/

/-- The values of conditions are at their places in a text that is made of them: each condition has
as many marks on its left as the conditions before it have values, and as many on its right as those
after it. -/
def AtPlaces (conditions : List Clause) (text : String) : Prop :=
  ∀ front condition back, conditions = front ++ condition :: back →
    ∃ before after, text = before ++ condition.text ++ after ∧
      marks before = (front.flatMap (·.values)).length ∧
      marks after = (back.flatMap (·.values)).length

theorem sum_marks_eq_length {conditions : List Clause}
    (h : ∀ condition ∈ conditions, marks condition.text = condition.values.length) :
    ((conditions.map (·.text)).map marks).sum = (conditions.flatMap (·.values)).length := by
  rw [List.length_flatMap, List.map_map]
  exact congrArg List.sum (List.map_congr_left h)

/-- An order and a window without marks leave the values of the conditions at their places. -/
theorem atPlaces_joinedText {conditions : List Clause} {order window : String}
    (h : ∀ condition ∈ conditions, marks condition.text = condition.values.length)
    (ho : marks order = 0) (hw : marks window = 0) :
    AtPlaces conditions (joinedText [whereText (conditions.map (·.text)), order, window]) := by
  rintro front condition back rfl
  obtain ⟨hfront, hrest⟩ := List.forall_mem_append.1 h
  have hback := (List.forall_mem_cons.1 hrest).2
  -- Inside the conditions, around this one.
  obtain ⟨before, after, hin, hb, ha⟩ := exists_intercalate_eq " AND " rfl
    (front.map (·.text)) (back.map (·.text)) condition.text
  rw [sum_marks_eq_length hfront] at hb
  rw [sum_marks_eq_length hback] at ha
  have hwhere : whereText ((front ++ condition :: back).map (·.text)) =
      "WHERE " ++ (before ++ condition.text ++ after) := by
    rw [← hin, List.map_append, List.map_cons]
    cases front <;> rfl
  -- Outside them, where the order and the window stand.
  obtain ⟨start, rest, hout, hs, hr⟩ := exists_intercalate_eq " " rfl []
    ([order, window].filter (· ≠ "")) ("WHERE " ++ (before ++ condition.text ++ after))
  have hrest0 : marks rest = 0 := by
    rw [hr, List.sum_eq_zero_iff_forall_eq_nat, List.forall_mem_map]
    intro text ht
    rcases List.mem_pair.1 (List.mem_of_mem_filter ht) with rfl | rfl
    · exact ho
    · exact hw
  refine ⟨start ++ "WHERE " ++ before, after ++ rest, ?_, ?_, ?_⟩
  · rw [hwhere, joinedText, List.filter_cons_of_pos (by simp)]
    rw [List.nil_append] at hout
    rw [hout]
    simp only [String.append_assoc]
  · rw [marks_append, marks_append, hs, hb]
    exact Nat.zero_add _
  · rw [marks_append, hrest0, ha, Nat.add_zero]

namespace ListQuery

/-- A whole request is the conditions of its tokens, the order and the window, and its values are
those of the conditions. Without marks in the names, the values are at their places. -/
theorem values_at_placeholders {q : ListQuery} {c : Compiler} {qualifier : String}
    {clause : Clause} (h : q.toSql c qualifier = .ok clause) :
    ∃ (conditions : List Clause) (order window : String),
      List.Forall₂ (fun (t : FilterToken) (condition : Clause) =>
        c.compileText ⟨[t], q.filter.allowed⟩ qualifier =
          .ok ⟨whereText [condition.text], condition.values⟩ ∧
        condition.values.length = t.arity ∧ (t.operator = .isIn → 0 < t.arity))
        q.filter.tokens conditions ∧
      c.compileText q.filter qualifier =
        .ok ⟨whereText (conditions.map (·.text)), conditions.flatMap (·.values)⟩ ∧
      c.compileSortText q.sort qualifier = .ok order ∧
      q.windowSql c = .ok window ∧
      clause.text = joinedText [whereText (conditions.map (·.text)), order, window] ∧
      clause.values = conditions.flatMap (·.values) ∧
      (q.filter.tokens = [] → clause.text = joinedText [order, window] ∧ clause.values = []) ∧
      (marks qualifier = 0 → (∀ name ∈ c.shape.storageNames, marks name = 0) →
        (∀ condition ∈ conditions, marks condition.text = condition.values.length) ∧
        marks order = 0 ∧ marks window = 0 ∧ marks clause.text = clause.values.length ∧
        AtPlaces conditions clause.text) := by
  obtain ⟨filter, order, window, hf, ho, hw, rfl⟩ := toSql_eq_ok_iff.1 h
  obtain ⟨plan, hp, rfl⟩ := Compiler.compileText_eq_ok_iff.1 hf
  have hplan := (Compiler.planFilters_eq_ok_iff.1 hp).2
  rw [Clause.ofFilters_eq] at hf ⊢
  refine ⟨plan.map (·.clause qualifier), order, window, ?_, hf, ho, hw, rfl, rfl, ?_, ?_⟩
  · refine List.forall₂_map_right_iff.2 ((Compiler.planFilters_single hp).imp ?_)
    rintro t p ⟨htp, hone⟩
    refine ⟨Compiler.compileText_eq_ok_iff.2 ⟨[p], hone, ?_⟩, ?_, ?_⟩
    · rw [Clause.ofFilters_eq]
      exact congrArg (Clause.mk _) (List.append_nil _)
    · exact htp.reads.arity
    · exact FilterToken.arity_pos
  · intro hnil
    rw [hnil] at hplan
    cases hplan
    exact ⟨joinedText_cons_joinedText [] [order, window], rfl⟩
  · intro hq hn
    have hc : ∀ condition ∈ plan.map (·.clause qualifier),
        marks condition.text = condition.values.length :=
      List.forall_mem_map.2 (forall_mem_of_forall₂ hplan fun t p htp => htp.marks_clause hq hn)
    have horder := Compiler.marks_compileSortText ho hq hn
    have hwindow := marks_windowSql hw
    refine ⟨hc, horder, hwindow, ?_, atPlaces_joinedText hc horder hwindow⟩
    show marks (joinedText _) = (List.flatMap _ _).length
    rw [← sum_marks_eq_length hc, marks_joinedText, List.map_cons, marks_whereText]
    simp [horder, hwindow]

/-- The sample request has three marks, for the two members and for the text that is searched for. -/
theorem values_at_placeholders_people :
    ∃ (clause : Clause) (conditions : List Clause),
      Sample.request.toSql Sample.compiler "p." = .ok clause ∧
      clause.text = "WHERE LENGTH(p.addr.city_name) IN (?,?) AND p.tenant.key LIKE ? ESCAPE '!'" ++
        " ORDER BY p.tenant.key DESC, CARDINALITY(p.tags) ASC LIMIT 5 OFFSET 10" ∧
      clause.values = [.int64 4, .int64 5, .text "%' OR 1=1%"] ∧
      conditions.length = 2 ∧ AtPlaces conditions clause.text := by
  have h : Sample.request.toSql Sample.compiler "p." =
      .ok ⟨"WHERE LENGTH(p.addr.city_name) IN (?,?) AND p.tenant.key LIKE ? ESCAPE '!'" ++
        " ORDER BY p.tenant.key DESC, CARDINALITY(p.tags) ASC LIMIT 5 OFFSET 10",
        [.int64 4, .int64 5, .text "%' OR 1=1%"]⟩ := by
    decide +kernel
  obtain ⟨conditions, order, window, hone, _, _, _, _, _, _, hmarks⟩ := values_at_placeholders h
  refine ⟨_, conditions, h, rfl, rfl, hone.length_eq.symm, ?_⟩
  exact (hmarks (by decide) (by decide)).2.2.2.2

end ListQuery

end RecordQuery
