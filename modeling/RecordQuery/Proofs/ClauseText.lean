import RecordQuery.Proofs.StoragePath

/-!
# The text of clauses

How columns, conditions and orders are written, said without a plan. What stands beside a column in
a condition is one of a few fixed texts, of which only the number of question marks varies.

1. `columnText`, `Comparand`, `whereText`, `orderText`, `joinedText`: the written forms.
2. `Compiler.PlansFilter.sql_eq`, `Compiler.PlansSort.sql_eq`: conditions and terms have them.
3. `Clause.text_join`, `Clause.values_join_iff`: what two clauses say together.
4. `Compiler.compileText_eq_ok_iff`, `Compiler.compileSortText_eq_ok_iff`: what clauses are made of.
5. `ListQuery.toSql_eq_ok_iff`: what whole requests are made of.
-/
namespace RecordQuery

/-- A column: its names with points between them, after a qualifier, inside a function. -/
def columnText (function : Option FieldFunction) (qualifier : String) (names : List String) :
    String :=
  match function with
  | none => qualifier ++ ".".intercalate names
  | some .length => "LENGTH(" ++ qualifier ++ ".".intercalate names ++ ")"
  | some .size => "CARDINALITY(" ++ qualifier ++ ".".intercalate names ++ ")"

/-- What stands beside a column in a condition. -/
inductive Comparand : String → Prop
  | compare {sign : String} : sign ∈ ["=", "<>", ">", ">=", "<", "<="] → Comparand (sign ++ " ?")
  | members (n : Nat) : Comparand ("IN (" ++ ",".intercalate (List.replicate (n + 1) "?") ++ ")")
  | like : Comparand "LIKE ? ESCAPE '!'"
  | literal {text : String} :
      text ∈ ["= true", "= false", "IS NULL", "IS NOT NULL"] → Comparand text

/-- Conditions that all have to hold; nothing when there are none. -/
def whereText : List String → String
  | [] => ""
  | condition :: rest => "WHERE " ++ " AND ".intercalate (condition :: rest)

/-- Order terms, the first taking precedence; nothing when there are none. -/
def orderText : List String → String
  | [] => ""
  | term :: rest => "ORDER BY " ++ ", ".intercalate (term :: rest)

/-- The texts that say something, with a space between each two. -/
def joinedText (texts : List String) : String := " ".intercalate (texts.filter (· ≠ ""))

theorem joinedText_eq_empty {texts : List String} (h : joinedText texts = "") :
    texts.filter (· ≠ "") = [] := by
  unfold joinedText at h
  cases ht : texts.filter (· ≠ "") with
  | nil => rfl
  | cons text rest =>
    have hne : text ≠ "" := by
      simpa using List.of_mem_filter (ht ▸ List.mem_cons_self : text ∈ texts.filter (· ≠ ""))
    rw [ht] at h
    cases rest with
    | nil => exact absurd (by simpa using h) hne
    | cons next rest => simp at h

/-- Texts can be joined in any grouping. -/
theorem joinedText_cons_joinedText (texts others : List String) :
    joinedText (joinedText texts :: others) = joinedText (texts ++ others) := by
  by_cases ht : joinedText texts = ""
  · have hnil := joinedText_eq_empty ht
    unfold joinedText at ht ⊢
    rw [List.filter_append, hnil]
    simp
  · have hne : texts.filter (· ≠ "") ≠ [] := by
      intro hnil
      exact ht (by rw [joinedText, hnil, String.intercalate_nil])
    have hs : joinedText (joinedText texts :: others) =
        " ".intercalate (joinedText texts :: others.filter (· ≠ "")) := by
      rw [joinedText, List.filter_cons_of_pos (by simpa using ht)]
    rw [hs]
    unfold joinedText
    rw [List.filter_append]
    by_cases ho : others.filter (· ≠ "") = []
    · rw [ho, String.intercalate_singleton, List.append_nil]
    · rw [String.intercalate_cons_of_ne_nil ho, String.intercalate_append_of_ne_nil hne ho]

theorem PlannedField.column_eq (f : PlannedField) (qualifier : String) :
    f.column qualifier = columnText f.path.function qualifier f.columns := by
  unfold column columnText function dotted
  cases f.path.function with
  | none => rfl
  | some function => cases function <;> rfl

namespace Clause

theorem text_ofFilters (qualifier : String) (plan : List PlannedFilter) :
    (ofFilters qualifier plan).text = whereText (plan.map (·.sql qualifier)) := by
  cases plan <;> rfl

theorem text_ofSorts (qualifier : String) (plan : List PlannedSort) :
    (ofSorts qualifier plan).text = orderText (plan.map (·.sql qualifier)) := by
  cases plan <;> rfl

theorem text_join (c d : Clause) : (c.join d).text = joinedText [c.text, d.text] := by
  unfold join joinedText
  by_cases hd : d.text = ""
  · by_cases hc : c.text = "" <;> simp [hd, hc]
  · by_cases hc : c.text = "" <;> simp [hd, hc, String.append_assoc]

/-- A join keeps all values when a second clause without text has none. -/
theorem values_join_iff {c d : Clause} :
    (c.join d).values = c.values ++ d.values ↔ (d.text = "" → d.values = []) := by
  unfold join
  split <;> simp_all

/-- Values without a text are lost. -/
example : ((⟨"a = ?", [.bool true]⟩ : Clause).join ⟨"", [.bool false]⟩).values = [.bool true] := rfl

theorem join_text (c : Clause) (text : String) :
    c.join ⟨text, []⟩ = ⟨joinedText [c.text, text], c.values⟩ := by
  have hv : (c.join ⟨text, []⟩).values = c.values :=
    (values_join_iff.2 fun _ => rfl).trans (List.append_nil c.values)
  rw [← text_join c ⟨text, []⟩, ← hv]

end Clause

theorem Text.length_pieces_pos (sep : Char) (s : String) : 0 < (Text.pieces sep s).length :=
  Nat.succ_pos _

/-- The text beside a column is fixed by the operator, the number of members and the literal. -/
theorem PlannedField.Reads.comparand {f : PlannedField} {operator : Operator} {raw : String}
    {o : Operand} (h : f.Reads operator raw o) : Comparand o.sql := by
  cases h with
  | @compare c _ _ _ => exact .compare (by cases c <;> decide)
  | @isIn _ vs hvs =>
    obtain ⟨n, hn⟩ : ∃ n, vs.length = n + 1 :=
      Nat.exists_eq_add_one.2 (hvs.length_eq ▸ Text.length_pieces_pos ';' raw)
    have hm : vs.map (fun _ => "?") = List.replicate (n + 1) "?" := by
      rw [← hn, List.map_const']
    show Comparand ("IN (" ++ ",".intercalate (vs.map fun _ => "?") ++ ")")
    rw [hm]
    exact .members n
  | like _ => exact .like
  | @is _ literal _ _ => exact .literal (by cases literal <;> decide)

namespace Compiler

variable {c : Compiler} {allowed : NameSet}

theorem compileText_eq_ok_iff {spec : FilterSpec} {qualifier : String} {clause : Clause} :
    c.compileText spec qualifier = .ok clause ↔
      ∃ plan, c.planFilters spec = .ok plan ∧ Clause.ofFilters qualifier plan = clause :=
  map_eq_ok_iff

theorem compileSortText_eq_ok_iff {spec : SortSpec} {qualifier text : String} :
    c.compileSortText spec qualifier = .ok text ↔
      ∃ plan, c.planSorts spec = .ok plan ∧ orderText (plan.map (·.sql qualifier)) = text := by
  simp only [← Clause.text_ofSorts]
  exact map_eq_ok_iff

/-- A planned condition is a column of its token's path and what stands beside it. -/
theorem PlansFilter.sql_eq {t : FilterToken} {p : PlannedFilter} (h : c.PlansFilter allowed t p)
    (qualifier : String) :
    p.sql qualifier =
      columnText t.path.function qualifier p.field.columns ++ " " ++ p.operand.sql := by
  rw [PlannedFilter.sql, PlannedField.column_eq, h.plansField.path_eq]

theorem PlansSort.sql_eq {t : SortToken} {p : PlannedSort} (h : c.PlansSort allowed t p)
    (qualifier : String) :
    p.sql qualifier =
      columnText t.path.function qualifier p.field.columns ++ " " ++ t.direction.sql := by
  rw [PlannedSort.sql, PlannedField.column_eq, h.plansField.path_eq, h.direction]

end Compiler

namespace ListQuery

variable {q : ListQuery} {c : Compiler}

/-- A request is written when its three parts are: their texts are joined, and the values are those
of the conditions. -/
theorem toSql_eq_ok_iff {qualifier : String} {clause : Clause} :
    q.toSql c qualifier = .ok clause ↔
      ∃ filter order window, c.compileText q.filter qualifier = .ok filter ∧
        c.compileSortText q.sort qualifier = .ok order ∧ q.windowSql c = .ok window ∧
        clause = ⟨joinedText [filter.text, order, window], filter.values⟩ := by
  have hjoin : ∀ (filter : Clause) (order window : String),
      (filter.join ⟨order, []⟩).join ⟨window, []⟩ =
        ⟨joinedText [filter.text, order, window], filter.values⟩ := by
    intro filter order window
    rw [Clause.join_text, Clause.join_text]
    exact congrArg (Clause.mk · filter.values)
      (joinedText_cons_joinedText [filter.text, order] [window])
  constructor
  · intro h
    obtain ⟨filter, hf, h⟩ := bind_eq_ok_iff.1 h
    obtain ⟨order, ho, h⟩ := bind_eq_ok_iff.1 h
    obtain ⟨window, hw, h⟩ := bind_eq_ok_iff.1 h
    cases h
    exact ⟨filter, order, window, hf, ho, hw, hjoin filter order window⟩
  · rintro ⟨filter, order, window, hf, ho, hw, rfl⟩
    rw [← hjoin]
    exact bind_eq_ok_iff.2 ⟨filter, hf, bind_eq_ok_iff.2 ⟨order, ho,
      bind_eq_ok_iff.2 ⟨window, hw, rfl⟩⟩⟩

end ListQuery

end RecordQuery
