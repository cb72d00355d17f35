import RecordQuery.Proofs.Placeholders

/-!
# Joined clauses

A clause is balanced when it has as many question marks as values. A join leaves out a clause
without text together with its values, so it may lose the values of clauses that are not balanced.
Balanced ones lose nothing: they are a monoid, and a database binds to each mark of a join the value
that it binds to that mark in the part where it comes from.

1. `bindMarks`, `Clause.bound`: the signs of a text with the values at their marks.
   `Clause.Balanced.bindsInOrder`: the k-th mark takes the k-th value.
2. `Clause.JoinOf.join`: what one more part adds. `Clause.JoinOf.foldl`: what a chain of parts says.
   `Clause.JoinOf.bound_eq`: marks are bound in it as they are bound in the parts.
3. `Clause.balanced_join_monoid`: the laws together.
-/
namespace RecordQuery

/-! ## Values bound to marks -/

/-- A sign of a query as a database reads it: as it is written, or the value that is bound to the
question mark there. -/
inductive BoundSign where
  | sign (c : Char)
  | value (v : Value)
  deriving DecidableEq

/-- The signs of a text with values bound to its marks in order. Marks past the last value stay. -/
def bindMarks : List Char → List Value → List BoundSign
  | '?' :: signs, value :: values => .value value :: bindMarks signs values
  | sign :: signs, values => .sign sign :: bindMarks signs values
  | [], _ => []

@[simp]
theorem length_bindMarks (signs : List Char) (values : List Value) :
    (bindMarks signs values).length = signs.length := by
  fun_induction bindMarks signs values <;> simp_all

/-- After a text with as many marks as values, the marks that follow take the values that follow. -/
theorem bindMarks_append {signs : List Char} {values : List Value}
    (h : signs.count '?' = values.length) (others : List Char) (more : List Value) :
    bindMarks (signs ++ others) (values ++ more) =
      bindMarks signs values ++ bindMarks others more := by
  fun_induction bindMarks signs values with
  | case1 signs value values ih =>
    rw [List.count_cons_self, List.length_cons, Nat.succ.injEq] at h
    simp only [List.cons_append, bindMarks, ih h]
  | case2 sign signs values hne ih =>
    -- A mark would stay only for want of values, and there are enough.
    have hsign : sign ≠ '?' := by
      rintro rfl
      cases values with
      | nil => simp at h
      | cons value values => exact hne value values rfl rfl
    rw [List.count_cons_of_ne hsign] at h
    rw [List.cons_append, bindMarks, ih h, List.cons_append]
    exact fun _ _ _ hmark => hsign hmark
  | case3 values =>
    rw [List.eq_nil_of_length_eq_zero h.symm]
    rfl

namespace Clause

/-- A clause as a database reads it. -/
def bound (c : Clause) : List BoundSign := bindMarks c.text.toList c.values

/-- As many question marks as values. -/
def Balanced (c : Clause) : Prop := marks c.text = c.values.length

instance (c : Clause) : Decidable c.Balanced := inferInstanceAs (Decidable (_ = _))

/-- Each question mark is bound to a value: the one with as many values before it as there are marks
before the mark. -/
def BindsInOrder (c : Clause) : Prop :=
  ∀ before after, c.text = before ++ "?" ++ after →
    ∃ value, c.values[marks before]? = some value ∧
      c.bound[before.length]? = some (.value value)

theorem Balanced.bindsInOrder {c : Clause} (h : c.Balanced) : c.BindsInOrder := by
  intro before after ht
  have hlt : marks before < c.values.length := by
    rw [← h, ht, marks_append, marks_append]
    exact Nat.lt_of_lt_of_le (Nat.lt_succ_self _) (Nat.le_add_right _ _)
  -- The values are split where the text is: as many before the split as there are marks before it.
  obtain ⟨front, value, back, hv, hf⟩ : ∃ front value back,
      c.values = front ++ value :: back ∧ marks before = front.length :=
    ⟨c.values.take (marks before), c.values[marks before], c.values.drop (marks before + 1),
      by simp, by simp [Nat.le_of_lt hlt]⟩
  have hbound : c.bound =
      bindMarks before.toList front ++ .value value :: bindMarks after.toList back := by
    rw [bound, ht, hv, String.toList_append, String.toList_append, List.append_assoc,
      bindMarks_append hf]
    rfl
  have hlen : before.length = (bindMarks before.toList front).length := by
    rw [length_bindMarks, String.length_toList]
  exact ⟨value, by simp [hv, hf], by simp [hbound, hlen]⟩

theorem Balanced.values_eq_nil {c : Clause} (h : c.Balanced) (ht : c.text = "") :
    c.values = [] := by
  rw [Balanced, ht] at h
  exact List.eq_nil_of_length_eq_zero h.symm

/-! ## Joins -/

theorem Balanced.join {c d : Clause} (hc : c.Balanced) (hd : d.Balanced) :
    (c.join d).Balanced := by
  unfold Balanced
  rw [values_join_iff.2 hd.values_eq_nil, text_join, marks_joinedText, List.length_append, ← hc,
    ← hd]
  rfl

/-- What parts say one after another: their texts with a space between each two that are not empty,
all their values in order, and as many marks as values. -/
structure JoinOf (parts : List Clause) (whole : Clause) : Prop where
  text_eq : whole.text = joinedText (parts.map (·.text))
  values_eq : whole.values = parts.flatMap (·.values)
  balanced : whole.Balanced

theorem joinOf_empty : JoinOf [] empty := ⟨rfl, rfl, rfl⟩

theorem JoinOf.join {parts : List Clause} {whole next : Clause} (h : JoinOf parts whole)
    (hn : next.Balanced) : JoinOf (parts ++ [next]) (whole.join next) where
  text_eq := by
    rw [text_join, h.text_eq, List.map_append]
    exact joinedText_cons_joinedText _ [next.text]
  values_eq := by
    rw [values_join_iff.2 hn.values_eq_nil, h.values_eq, List.flatMap_append,
      List.flatMap_singleton]
  balanced := h.balanced.join hn

theorem joinOf_singleton {c : Clause} (h : c.Balanced) : JoinOf [c] c := by
  have hj := joinOf_empty.join h
  rwa [empty_join c h.values_eq_nil] at hj

theorem JoinOf.foldl {parts : List Clause} {whole : Clause} (h : JoinOf parts whole)
    {rest : List Clause} (hr : ∀ next ∈ rest, next.Balanced) :
    JoinOf (parts ++ rest) (rest.foldl Clause.join whole) := by
  induction rest generalizing parts whole with
  | nil => rwa [List.append_nil]
  | cons next rest ih =>
    obtain ⟨hn, hr⟩ := List.forall_mem_cons.1 hr
    rw [List.append_cons]
    exact ih (h.join hn) hr

/-- What follows a balanced clause after a space takes the values that follow. -/
theorem Balanced.bindMarks_append_space {c : Clause} (h : c.Balanced) (text : String)
    (values : List Value) :
    bindMarks (c.text ++ " " ++ text).toList (c.values ++ values) =
      c.bound ++ [.sign ' '] ++ bindMarks text.toList values := by
  rw [String.toList_append, String.toList_append, List.append_assoc, List.append_assoc]
  exact bindMarks_append h _ _

theorem bindMarks_intercalate {parts : List Clause} (h : ∀ part ∈ parts, part.Balanced) :
    bindMarks (" ".intercalate (parts.map (·.text))).toList (parts.flatMap (·.values)) =
      [.sign ' '].intercalate (parts.map (·.bound)) := by
  induction parts with
  | nil => rfl
  | cons part rest ih =>
    obtain ⟨hpart, hrest⟩ := List.forall_mem_cons.1 h
    by_cases hr : rest = []
    · simp [hr, bound]
    · rw [List.map_cons, String.intercalate_cons_of_ne_nil (by simpa using hr), List.flatMap_cons,
        hpart.bindMarks_append_space, ih hrest, List.map_cons,
        List.intercalate_cons_of_ne_nil (by simpa using hr)]

/-- Parts without a text have no values. -/
theorem flatMap_values_filter {parts : List Clause} (h : ∀ part ∈ parts, part.Balanced) :
    (parts.filter (·.text ≠ "")).flatMap (·.values) = parts.flatMap (·.values) := by
  induction parts with
  | nil => rfl
  | cons part rest ih =>
    obtain ⟨hpart, hrest⟩ := List.forall_mem_cons.1 h
    by_cases ht : part.text = ""
    · rw [List.filter_cons_of_neg (by simpa using ht), List.flatMap_cons, hpart.values_eq_nil ht,
        List.nil_append, ih hrest]
    · rw [List.filter_cons_of_pos (by simpa using ht), List.flatMap_cons, List.flatMap_cons,
        ih hrest]

/-- A join of balanced parts is read as its parts are read, with a space between each two that have
a text: the same value is bound to a mark in the whole as in the part. -/
theorem JoinOf.bound_eq {parts : List Clause} {whole : Clause} (h : JoinOf parts whole)
    (hparts : ∀ part ∈ parts, part.Balanced) :
    whole.bound = [.sign ' '].intercalate ((parts.filter (·.text ≠ "")).map (·.bound)) := by
  have htext : joinedText (parts.map (·.text)) =
      " ".intercalate ((parts.filter (·.text ≠ "")).map (·.text)) := by
    rw [joinedText, List.filter_map]
    rfl
  rw [bound, h.text_eq, h.values_eq, htext, ← flatMap_values_filter hparts]
  exact bindMarks_intercalate fun part hm => hparts part (List.mem_of_mem_filter hm)

end Clause

namespace Sample

def conditionClause : Clause := ⟨"WHERE name IN (?,?)", [.text "who?", .int64 5]⟩

def windowClause : Clause := ⟨"LIMIT ? OFFSET ?", [.uint64 5, .uint64 10]⟩

end Sample

/-! ## The laws together -/

namespace Clause

/-- Balanced clauses are a monoid under `join`, with the empty clause as its identity. A chain of
joins says what its parts say, its k-th mark is bound to its k-th value, and each mark is bound in
it as in the part where it comes from. -/
theorem balanced_join_monoid {a b : Clause} (ha : a.Balanced) (hb : b.Balanced) (c : Clause)
    {rest : List Clause} (hrest : ∀ part ∈ rest, part.Balanced) :
    (a.join b).join c = a.join (b.join c) ∧
    empty.Balanced ∧ empty.join a = a ∧ a.join empty = a ∧
    JoinOf [a, b] (a.join b) ∧
    JoinOf (a :: rest) (rest.foldl join a) ∧
    (rest.foldl join a).BindsInOrder ∧
    (rest.foldl join a).bound =
      [.sign ' '].intercalate (((a :: rest).filter (·.text ≠ "")).map (·.bound)) := by
  have hone := joinOf_singleton ha
  have hchain : JoinOf (a :: rest) (rest.foldl join a) := hone.foldl hrest
  refine ⟨join_assoc hb.values_eq_nil, joinOf_empty.balanced, empty_join a ha.values_eq_nil,
    join_empty a, hone.join hb, hchain, hchain.balanced.bindsInOrder, ?_⟩
  exact hchain.bound_eq (List.forall_mem_cons.2 ⟨ha, hrest⟩)

/-- Conditions, an order without a text and a window with marks of its own. The third mark is bound
to the first value of the window, for the question mark inside a value is no mark. -/
theorem balanced_join_monoid_window :
    Sample.conditionClause.Balanced ∧ (∀ part ∈ [empty, Sample.windowClause], part.Balanced) ∧
    JoinOf [Sample.conditionClause, empty, Sample.windowClause]
      ⟨"WHERE name IN (?,?) LIMIT ? OFFSET ?",
        [.text "who?", .int64 5, .uint64 5, .uint64 10]⟩ ∧
    ([empty, Sample.windowClause].foldl join Sample.conditionClause).bound[26]? =
      some (.value (.uint64 5)) := by
  have hc : Sample.conditionClause.Balanced := by decide
  have hw : Sample.windowClause.Balanced := by decide
  have hrest : ∀ part ∈ [empty, Sample.windowClause], part.Balanced :=
    List.forall_mem_cons.2 ⟨joinOf_empty.balanced, List.forall_mem_singleton.2 hw⟩
  obtain ⟨_, _, _, _, _, hchain, hbinds, _⟩ :=
    balanced_join_monoid hc joinOf_empty.balanced empty hrest
  obtain ⟨value, hvalue, hbound⟩ := hbinds "WHERE name IN (?,?) LIMIT " " OFFSET ?" (by decide)
  cases hvalue
  exact ⟨hc, hrest, hchain, hbound⟩

end Clause

end RecordQuery
