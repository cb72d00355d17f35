import Mathlib.Data.List.Perm.Basic
import RecordQuery.Condition
import RecordQuery.Proofs.LikePattern

/-!
# What conditions mean

The truth of a condition on a row. A column may hold nothing, and what is compared with nothing is
neither true nor false, so there are three truth values. How values compare, what functions give
and how a pattern without a named escape is read is up to the database; what is said here holds for
each of them.

1. `Truth`: three truth values. `Truth.all_perm`: the order of what has to hold does not matter.
2. `Engine`: what a database decides for itself. `Engine.compare`, `Engine.isIn`, `Engine.like`: what
   operators mean.
3. `Row`: what columns hold. `Condition.holds`: the truth of a condition on a row.
-/
namespace RecordQuery

/-! ## Three truth values -/

inductive Truth where
  | false
  | unknown
  | true
  deriving DecidableEq, Repr

namespace Truth

def ofBool (b : Bool) : Truth := if b then .true else .false

/-- Without an answer, the truth is unknown. -/
def ofOption (answer : Option Bool) : Truth := (answer.map ofBool).getD .unknown

/-- One falsehood is enough; without one, one unknown is. -/
def and : Truth → Truth → Truth
  | .false, _ => .false
  | .true, b => b
  | .unknown, .false => .false
  | .unknown, _ => .unknown

/-- One truth is enough; without one, one unknown is. -/
def or : Truth → Truth → Truth
  | .true, _ => .true
  | .false, b => b
  | .unknown, .true => .true
  | .unknown, _ => .unknown

/-- Whether all hold. -/
def all (truths : List Truth) : Truth := truths.foldr and .true

/-- Whether some hold. -/
def any (truths : List Truth) : Truth := truths.foldr or .false

theorem and_left_comm (a b c : Truth) : a.and (b.and c) = b.and (a.and c) := by
  cases a <;> cases b <;> cases c <;> rfl

/-- The order of what has to hold does not matter. -/
theorem all_perm {as bs : List Truth} (h : as.Perm bs) : all as = all bs :=
  h.foldr_eq' (fun a _ b _ c => and_left_comm b a c) .true

end Truth

/-! ## Databases -/

/-- What stands in a column, when anything does. -/
inductive Datum where
  | value (value : Value)
  /-- Several elements, of which some may be missing. -/
  | list (elements : List (Option Value))
  deriving DecidableEq

/-- What a database decides for itself. -/
structure Engine where
  /-- How two data stand to each other, if they can be compared. -/
  order : Datum → Datum → Option Ordering
  /-- What a function gives for a datum, if anything. -/
  call : FieldFunction → Datum → Option Datum
  /-- The text that a pattern is compared with, if a datum has one. -/
  text? : Datum → Option String
  /-- Whether a backslash is the escape of patterns for which none is named. -/
  backslash : Bool
  /-- Whether patterns have classes of characters. -/
  classes : Bool
  /-- Whether two characters count as the same in a pattern and a text. -/
  same : Char → Char → Bool

/-- Whether a comparison holds of two data that stand to each other in this way. -/
def Comparison.accepts : Comparison → Ordering → Bool
  | .eq, o => o == .eq
  | .ne, o => o != .eq
  | .gt, o => o == .gt
  | .ge, o => o != .lt
  | .lt, o => o == .lt
  | .le, o => o != .gt

namespace Engine

variable (e : Engine)

/-- A comparison is unknown when one side is missing or the sides cannot be compared. -/
def compare (c : Comparison) (a b : Option Datum) : Truth :=
  .ofOption (a.bind fun a => b.bind fun b => (e.order a b).map c.accepts)

/-- A datum is in a list when it is equal to some value of the list. -/
def isIn (a : Option Datum) (values : List Value) : Truth :=
  .any (values.map fun v => e.compare .eq a (some (.value v)))

/-- A datum is like a pattern when its text fits the pattern. -/
def like (escape : Option Char) (a : Option Datum) (pattern : String) : Truth :=
  .ofOption ((a.bind e.text?).bind (Like.test? ⟨escape, e.classes, e.same⟩ pattern))

/-- The escape of patterns for which none is named. -/
def defaultEscape : Option Char := if e.backslash then some '\\' else none

def isNull (a : Option Datum) : Truth := .ofBool a.isNone

def isNotNull (a : Option Datum) : Truth := .ofBool a.isSome

/-- A value compared with the elements of a list, of which some or all have to pass. -/
def member (v : Value) (c : Comparison) (q : Quantifier) : Option Datum → Truth
  | some (.list elements) =>
    let truths := elements.map fun x => e.compare c (some (.value v)) (x.map .value)
    match q with
    | .any => .any truths
    | .all => .all truths
  | _ => .unknown

/-- A function of what a column holds; of nothing it gives nothing. -/
def apply (function : Option FieldFunction) (a : Option Datum) : Option Datum :=
  match function with
  | none => a
  | some f => a.bind (e.call f)

theorem defaultEscape_eq : e.defaultEscape = none ∨ e.defaultEscape = some '\\' := by
  unfold defaultEscape
  split
  · exact .inr rfl
  · exact .inl rfl

/-- On plain text, a pattern without a named escape means what the escaped pattern means. -/
theorem like_plain {raw : String} (h : Like.IsPlainText raw) (a : Option Datum) :
    e.like e.defaultEscape a (Like.pattern raw false) =
      e.like (some '!') a (Like.pattern raw true) := by
  have hplain := @Like.parts?_pattern_plain ⟨e.defaultEscape, e.classes, e.same⟩
    e.defaultEscape_eq raw h
  have hescaped := @Like.parts?_pattern ⟨some '!', e.classes, e.same⟩ rfl raw
  have htest : Like.test? ⟨e.defaultEscape, e.classes, e.same⟩ (Like.pattern raw false) =
      Like.test? ⟨some '!', e.classes, e.same⟩ (Like.pattern raw true) := by
    funext text
    unfold Like.test?
    rw [hplain, hescaped]
  unfold like
  rw [htest]

end Engine

/-! ## Rows -/

/-- What columns hold: as a text names them, and in the tables of a source. -/
structure Row where
  written : String → Option Datum
  placed : Column → Option Datum

/-- What a target holds. -/
def Target.datum (e : Engine) (row : Row) (t : Target) : Option Datum :=
  e.apply t.function (row.placed t.column)

/-- The truth of a test on a row. -/
def Predicate.holds (e : Engine) (row : Row) : Predicate → Truth
  | .compare target c v => e.compare c (target.datum e row) (some (.value v))
  | .member v c q target => e.member v c q (target.datum e row)
  | .oneOf target vs => e.isIn (target.datum e row) vs
  | .like target pattern => e.like e.defaultEscape (target.datum e row) pattern
  | .null target => Engine.isNull (target.datum e row)
  | .notNull target => Engine.isNotNull (target.datum e row)

def Conjunct.holds (e : Engine) (row : Row) : Conjunct → Truth
  | .one predicate => predicate.holds e row
  | .anyOf predicates => .any (predicates.map (·.holds e row))

/-- The truth of a condition on a row. -/
def Condition.holds (e : Engine) (row : Row) (condition : Condition) : Truth :=
  .all (condition.conjuncts.map (·.holds e row))

/-- A choice holds when one of its predicates does, also when there is only one. -/
theorem Conjunct.holds_ofChoice (e : Engine) (row : Row) (predicates : List Predicate) :
    (ofChoice predicates).holds e row = .any (predicates.map (·.holds e row)) := by
  unfold ofChoice
  split
  · rename_i predicate
    show predicate.holds e row = (predicate.holds e row).or .false
    cases predicate.holds e row <;> rfl
  · rfl

/-- A condition of one conjunct says what the conjunct says. -/
theorem Condition.holds_singleton (e : Engine) (row : Row) (conjunct : Conjunct) :
    (⟨[conjunct]⟩ : Condition).holds e row = conjunct.holds e row := by
  show (conjunct.holds e row).and .true = conjunct.holds e row
  cases conjunct.holds e row <;> rfl

/-- A condition of entries holds as its entries do, however they are grouped. -/
theorem Condition.holds_ofEntries (e : Engine) (row : Row) (entries : List (String × Conjunct)) :
    (ofEntries entries).holds e row = .all (entries.map fun entry => entry.2.holds e row) := by
  unfold holds ofEntries
  refine (Truth.all_perm ((perm_groupBy entries).map (·.holds e row))).trans ?_
  rw [List.map_map]
  rfl

end RecordQuery
