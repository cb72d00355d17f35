import RecordQuery.Proofs.Meaning
import RecordQuery.Proofs.Noninterference
import RecordQuery.Proofs.Placeholders

/-!
# What clauses say

A database reads the text of a clause with its values as tests of columns, all of which have to
hold. The words of a test tell where it ends and how many values it takes, so that a clause with
plain columns says one thing only.

1. `SqlTest`: a test as a text has it. `Clause.Says`: the tests that a clause is written from.
2. `Clause.Says.unique`: a clause says nothing else.
3. `Clause.says_ofFilters`: a plan is written as its tests.
4. `SqlTest.holds`: the truth of a test on a row.
-/
namespace RecordQuery

/-! ## Tests and their words -/

/-- What a database reads beside a column. -/
inductive SqlComparand where
  | compare (comparison : Comparison) (value : Value)
  | isIn (values : List Value)
  /-- A pattern, with the escape named. -/
  | like (pattern : Value)
  | truth (value : Bool)
  | null
  | notNull
  deriving DecidableEq

/-- A test of a column, or of a function of it. -/
structure SqlTest where
  function : Option FieldFunction
  /-- The column as it is written. -/
  column : String
  comparand : SqlComparand
  deriving DecidableEq

namespace SqlComparand

/-- The words of a comparand, with a question mark for each value. -/
def words : SqlComparand → List String
  | .compare .eq _ => ["=", "?"]
  | .compare .ne _ => ["<>", "?"]
  | .compare .gt _ => [">", "?"]
  | .compare .ge _ => [">=", "?"]
  | .compare .lt _ => ["<", "?"]
  | .compare .le _ => ["<=", "?"]
  | .isIn vs => ["IN", "(" ++ ",".intercalate (List.replicate vs.length "?") ++ ")"]
  | .like _ => ["LIKE", "?", "ESCAPE", "'!'"]
  | .truth true => ["=", "true"]
  | .truth false => ["=", "false"]
  | .null => ["IS", "NULL"]
  | .notNull => ["IS", "NOT", "NULL"]

/-- The values of the question marks. -/
def values : SqlComparand → List Value
  | .compare _ v => [v]
  | .isIn vs => vs
  | .like pattern => [pattern]
  | .truth _ => []
  | .null => []
  | .notNull => []

/-- A list of question marks tells how many values it takes. -/
theorem isIn_append_inj {as bs : List Value} {xs ys : List String} {vs ws : List Value}
    (hw : (isIn as).words ++ xs = (isIn bs).words ++ ys)
    (hv : (isIn as).values ++ vs = (isIn bs).values ++ ws) :
    as = bs ∧ xs = ys ∧ vs = ws := by
  obtain ⟨hlist, rfl⟩ := List.cons.inj (List.cons.inj hw).2
  have hlen : as.length = bs.length := by
    have hmarks := congrArg marks hlist
    simp only [marks_append, marks_members] at hmarks
    omega
  obtain ⟨rfl, rfl⟩ := List.append_inj hv hlen
  exact ⟨rfl, rfl, rfl⟩

/-- The words of a comparand tell where it ends, and then its values do. -/
theorem append_inj {a b : SqlComparand} {xs ys : List String} {vs ws : List Value}
    (hw : a.words ++ xs = b.words ++ ys) (hv : a.values ++ vs = b.values ++ ws) :
    a = b ∧ xs = ys ∧ vs = ws := by
  -- Comparands of different kinds differ in one of their words.
  cases a with
  | isIn as =>
    fun_cases words b
    case case7 bs =>
      obtain ⟨rfl, hxs, hvs⟩ := isIn_append_inj hw hv
      exact ⟨rfl, hxs, hvs⟩
    all_goals exact absurd hw (by simp [words])
  | compare c v =>
    cases b with
    | compare d w => cases c <;> cases d <;> simp_all [words, values]
    | truth t => cases c <;> cases t <;> simp [words] at hw
    | _ => cases c <;> simp [words] at hw
  | truth t =>
    cases b with
    | compare d w => cases t <;> cases d <;> simp [words] at hw
    | truth s => cases t <;> cases s <;> simp_all [words, values]
    | _ => cases t <;> simp [words] at hw
  | like p =>
    fun_cases words b <;> simp_all [words, values]
  | null =>
    fun_cases words b <;> simp_all [words, values]
  | notNull =>
    fun_cases words b <;> simp_all [words, values]

end SqlComparand

namespace SqlTest

/-- The column, inside its function. -/
def columnWord (t : SqlTest) : String :=
  match t.function with
  | none => t.column
  | some .length => "LENGTH(" ++ t.column ++ ")"
  | some .size => "CARDINALITY(" ++ t.column ++ ")"

def words (t : SqlTest) : List String := t.columnWord :: t.comparand.words

/-- The words with a space between each two. -/
def text (t : SqlTest) : String := " ".intercalate t.words

end SqlTest

/-- A clause says tests when it is written from them: the texts of the tests, all of which have to
hold, with the values that they take in order. -/
def Clause.Says (clause : Clause) (tests : List SqlTest) : Prop :=
  clause.text = whereText (tests.map (·.text)) ∧
    clause.values = tests.flatMap (·.comparand.values)

/-! ## One reading -/

theorem IsPlain.not_mem {s : String} (h : IsPlain s) {c : Char}
    (hc : (isSegmentChar c || c == '.') = false) : c ∉ s.toList := fun hm =>
  Bool.false_ne_true (hc.symm.trans (h c hm))

theorem SqlComparand.not_mem_words (a : SqlComparand) : ∀ word ∈ a.words, ' ' ∉ word.toList := by
  fun_cases words a
  case case7 vs =>
    have hlist : ' ' ∉ (",".intercalate (List.replicate vs.length "?")).toList := by
      induction vs.length with
      | zero => decide
      | succ n ih => cases n <;> simp_all [List.replicate_succ]
    simp [-String.toList_intercalate, hlist]
  all_goals decide

namespace SqlTest

theorem not_mem_words {t : SqlTest} (h : IsPlain t.column) :
    ∀ word ∈ t.words, ' ' ∉ word.toList := by
  have hcolumn : ' ' ∉ t.column.toList := h.not_mem rfl
  refine List.forall_mem_cons.2 ⟨?_, t.comparand.not_mem_words⟩
  unfold columnWord
  split
  · exact hcolumn
  · simp [hcolumn]
  · simp [hcolumn]

/-- The word of a plain column tells the column and the function. -/
theorem columnWord_inj {t u : SqlTest} (ht : IsPlain t.column) (hu : IsPlain u.column)
    (h : t.columnWord = u.columnWord) : t.function = u.function ∧ t.column = u.column := by
  obtain ⟨f, s, a⟩ := t
  obtain ⟨g, r, b⟩ := u
  have hs : '(' ∉ s.toList := ht.not_mem rfl
  have hr : '(' ∉ r.toList := hu.not_mem rfl
  have hlist := congrArg String.toList h
  have hmem := congrArg ('(' ∈ ·) hlist
  -- A function brings a bracket, and the two functions start with different letters.
  rcases f with _ | _ | _ <;> rcases g with _ | _ | _ <;>
    simp [columnWord, hs, hr] at hlist hmem ⊢
  all_goals exact String.toList_inj.1 hlist

/-- The words of a test on a plain column tell where it ends, and then its values do. -/
theorem append_inj {t u : SqlTest} (ht : IsPlain t.column) (hu : IsPlain u.column)
    {xs ys : List String} {vs ws : List Value} (hw : t.words ++ xs = u.words ++ ys)
    (hv : t.comparand.values ++ vs = u.comparand.values ++ ws) : t = u ∧ xs = ys ∧ vs = ws := by
  obtain ⟨hcolumn, hrest⟩ := List.cons.inj hw
  obtain ⟨hf, hc⟩ := columnWord_inj ht hu hcolumn
  obtain ⟨ha, hxs, hvs⟩ := SqlComparand.append_inj hrest hv
  refine ⟨?_, hxs, hvs⟩
  cases t
  cases u
  cases hf
  cases hc
  cases ha
  rfl

theorem words_append_ne_nil (t : SqlTest) (rest : List String) : t.words ++ rest ≠ [] :=
  List.cons_ne_nil _ _

/-- The words of further tests, each after a conjunction. -/
def wordsAfter (tests : List SqlTest) : List String := tests.flatMap ("AND" :: ·.words)

theorem wordsAfter_inj {ts us : List SqlTest} (ht : ∀ t ∈ ts, IsPlain t.column)
    (hu : ∀ u ∈ us, IsPlain u.column) (hw : wordsAfter ts = wordsAfter us)
    (hv : ts.flatMap (·.comparand.values) = us.flatMap (·.comparand.values)) : ts = us := by
  induction ts generalizing us with
  | nil =>
    cases us with
    | nil => rfl
    | cons u us => exact absurd hw (List.cons_ne_nil _ _).symm
  | cons t ts ih =>
    cases us with
    | nil => exact absurd hw (List.cons_ne_nil _ _)
    | cons u us =>
      obtain ⟨htp, hts⟩ := List.forall_mem_cons.1 ht
      obtain ⟨hup, hus⟩ := List.forall_mem_cons.1 hu
      obtain ⟨rfl, hxs, hvs⟩ := append_inj htp hup (List.cons.inj hw).2 hv
      rw [ih hts hus hxs hvs]

/-- The texts of tests, joined by conjunctions, are made of their words. -/
theorem intercalate_text (t : SqlTest) (ts : List SqlTest) :
    " AND ".intercalate ((t :: ts).map (·.text)) = " ".intercalate (t.words ++ wordsAfter ts) := by
  induction ts generalizing t with
  | nil =>
    rw [List.map_singleton, String.intercalate_singleton]
    exact congrArg _ (List.append_nil _).symm
  | cons u us ih =>
    have hafter : wordsAfter (u :: us) = "AND" :: (u.words ++ wordsAfter us) := rfl
    have hwords : t.words ≠ [] := List.cons_ne_nil _ _
    rw [List.map_cons, List.map_cons, String.intercalate_cons_cons, ← List.map_cons, ih, hafter,
      String.intercalate_append_of_ne_nil hwords (List.cons_ne_nil _ _),
      String.intercalate_cons_of_ne_nil (u.words_append_ne_nil _)]
    simp only [text, String.append_assoc]
    rfl

/-- The text of tests on plain columns tells their words. -/
theorem pieces_whereText {t : SqlTest} {ts : List SqlTest}
    (h : ∀ u ∈ t :: ts, IsPlain u.column) :
    Text.pieces ' ' (whereText ((t :: ts).map (·.text))) =
      "WHERE" :: (t.words ++ wordsAfter ts) := by
  obtain ⟨ht, hts⟩ := List.forall_mem_cons.1 h
  have hfree : ∀ word ∈ "WHERE" :: (t.words ++ wordsAfter ts), ' ' ∉ word.toList := by
    refine List.forall_mem_cons.2 ⟨by decide, List.forall_mem_append.2 ⟨not_mem_words ht, ?_⟩⟩
    intro word hword
    obtain ⟨u, hu, hw⟩ := List.mem_flatMap.1 hword
    rcases List.mem_cons.1 hw with rfl | hw
    · decide
    · exact not_mem_words (hts u hu) word hw
  have htext : whereText ((t :: ts).map (·.text)) =
      " ".intercalate ("WHERE" :: (t.words ++ wordsAfter ts)) := by
    show "WHERE " ++ " AND ".intercalate ((t :: ts).map (·.text)) = _
    rw [intercalate_text, String.intercalate_cons_of_ne_nil (t.words_append_ne_nil _)]
    rfl
  rw [htext]
  exact Text.pieces_intercalate hfree

end SqlTest

/-- On plain columns, a clause says nothing else. -/
theorem Clause.Says.unique {clause : Clause} {ts us : List SqlTest} (h : clause.Says ts)
    (ho : clause.Says us) (ht : ∀ t ∈ ts, IsPlain t.column) (hu : ∀ u ∈ us, IsPlain u.column) :
    ts = us := by
  have hw := h.1.symm.trans ho.1
  have hv := h.2.symm.trans ho.2
  cases ts with
  | nil => 
    cases us with
    | nil => rfl
    | cons u us => exact absurd hw.symm (by simp [whereText])
  | cons t ts =>
    cases us with
    | nil => exact absurd hw (by simp [whereText])
    | cons u us =>
      have hwords := congrArg (Text.pieces ' ') hw
      rw [SqlTest.pieces_whereText ht, SqlTest.pieces_whereText hu] at hwords
      refine SqlTest.wordsAfter_inj ht hu ?_ hv
      exact congrArg ("AND" :: ·) (List.cons.inj hwords).2

/-! ## The tests of a plan -/

/-- What is written beside a column for a right-hand side. -/
def Operand.comparand : Operand → SqlComparand
  | .compare c v => .compare c v
  | .isIn vs => .isIn vs
  | .like raw => .like (.text (Like.pattern raw true))
  | .is .true => .truth true
  | .is .false => .truth false
  | .is .null => .null
  | .is .notNull => .notNull

/-- The test that a planned condition is written as. -/
def PlannedFilter.test (qualifier : String) (p : PlannedFilter) : SqlTest :=
  ⟨p.field.function, qualifier ++ p.field.dotted, p.operand.comparand⟩

theorem Operand.values_comparand (o : Operand) : o.comparand.values = o.values := by
  fun_cases comparand o <;> rfl

theorem Operand.text_comparand (o : Operand) : " ".intercalate o.comparand.words = o.sql := by
  fun_cases comparand o
  case case1 c v => cases c <;> rfl
  case case2 vs =>
    show " ".intercalate ["IN", "(" ++ ",".intercalate (List.replicate vs.length "?") ++ ")"] =
      "IN (" ++ ",".intercalate (vs.map fun _ => "?") ++ ")"
    rw [List.map_const', String.intercalate_cons_cons, String.intercalate_singleton,
      ← String.append_assoc, ← String.append_assoc]
    rfl
  all_goals rfl

namespace PlannedFilter

theorem columnWord_test (qualifier : String) (p : PlannedFilter) :
    (p.test qualifier).columnWord = p.field.column qualifier := by
  unfold SqlTest.columnWord PlannedField.column test
  cases p.field.function with
  | none => rfl
  | some function =>
    cases function with
    | length => exact congrArg (· ++ ")") String.append_assoc.symm
    | size => exact congrArg (· ++ ")") String.append_assoc.symm

theorem text_test (qualifier : String) (p : PlannedFilter) :
    (p.test qualifier).text = p.sql qualifier := by
  have hwords : p.operand.comparand.words ≠ [] := by
    fun_cases SqlComparand.words p.operand.comparand <;> exact List.cons_ne_nil _ _
  show " ".intercalate ((p.test qualifier).columnWord :: p.operand.comparand.words) = _
  rw [String.intercalate_cons_of_ne_nil hwords, columnWord_test, Operand.text_comparand]
  rfl

end PlannedFilter

/-- A plan is written as its tests. -/
theorem Clause.says_ofFilters (qualifier : String) (plan : List PlannedFilter) :
    (ofFilters qualifier plan).Says (plan.map (·.test qualifier)) := by
  constructor
  · rw [text_ofFilters, List.map_map]
    exact congrArg whereText (List.map_congr_left fun p _ => (p.text_test qualifier).symm)
  · rw [values_ofFilters, List.flatMap_map]
    simp only [PlannedFilter.test, Operand.values_comparand]

/-! ## Meaning -/

/-- The truth of what stands beside a column that holds a datum. -/
def SqlComparand.holds (e : Engine) (a : Option Datum) : SqlComparand → Truth
  | .compare c v => e.compare c a (some (.value v))
  | .isIn vs => e.isIn a vs
  | .like (.text pattern) => e.like (some '!') a pattern
  | .like _ => .unknown
  | .truth b => e.compare .eq a (some (.value (.bool b)))
  | .null => Engine.isNull a
  | .notNull => Engine.isNotNull a

/-- The truth of a test on a row. -/
def SqlTest.holds (e : Engine) (row : Row) (t : SqlTest) : Truth :=
  t.comparand.holds e (e.apply t.function (row.written t.column))

end RecordQuery
