import RecordQuery.Order
import RecordQuery.Pagination
import RecordQuery.Select.Literal

/-!
# Selects

A query for the rows of a table, written for a database: with the values in the text, or with
placeholders and the values beside it. Both are made from one list of pieces, so they differ in
nothing but the places of the values.

1. `Select.inlined`, `Select.prepared`, `Select.values`: the two texts, and the values.
2. `Select.values_eq`: the values are those of the condition, then the numbers of the window.
3. `Select.values_eq_values`: they are the same for every database.
-/
namespace RecordQuery

/-- A piece of a query: text, or a place for a value. -/
inductive Piece where
  | text (text : String)
  | bound (value : Value)
  deriving DecidableEq

/-- A column of a query's result, of a table or of the only one. -/
structure ResultColumn where
  table : Option String
  name : String
  deriving DecidableEq, Repr

/-- A query for rows. -/
structure Select where
  columns : List ResultColumn
  table : Option String := none
  condition : Option Condition := none
  order : List OrderTerm := []
  window : Option Window := none

/-- Lists of pieces with a text between each two. -/
def joinPieces (separator : String) : List (List Piece) → List Piece
  | [] => []
  | [pieces] => pieces
  | pieces :: rest => pieces ++ .text separator :: joinPieces separator rest

namespace Column

def sql (db : Database) (c : Column) : String := db.quoteName c.table ++ "." ++ db.quoteName c.name

end Column

namespace Target

def sql (db : Database) (t : Target) : String :=
  match t.function with
  | none => t.column.sql db
  | some function => function.sqlName ++ "(" ++ t.column.sql db ++ ")"

end Target

namespace Predicate

def pieces (db : Database) : Predicate → List Piece
  | .compare target c value => [.text (target.sql db ++ " " ++ c.sql ++ " "), .bound value]
  | .member value c quantifier target =>
    [.bound value, .text (" " ++ c.sql ++ " " ++ quantifier.sql ++ "(" ++ target.sql db ++ ")")]
  | .oneOf target values =>
    .text (target.sql db ++ " IN (") :: joinPieces ", " (values.map fun v => [.bound v])
      ++ [.text ")"]
  | .like target pattern => [.text (target.sql db ++ " LIKE "), .bound (.text pattern)]
  | .null target => [.text (target.sql db ++ " IS NULL")]
  | .notNull target => [.text (target.sql db ++ " IS NOT NULL")]

end Predicate

namespace Conjunct

/-- A conjunct in pieces; a choice that does not stand alone is put in parentheses. -/
def pieces (db : Database) (alone : Bool) : Conjunct → List Piece
  | .one predicate => predicate.pieces db
  | .anyOf predicates =>
    let choice := joinPieces " OR " (predicates.map (·.pieces db))
    if alone then choice else .text "(" :: choice ++ [.text ")"]

end Conjunct

namespace Condition

/-- A condition in pieces; one without conjuncts is true. -/
def pieces (db : Database) (c : Condition) : List Piece :=
  match c.conjuncts with
  | [] => [.text "TRUE"]
  | [conjunct] => conjunct.pieces db true
  | conjuncts => joinPieces " AND " (conjuncts.map (·.pieces db false))

end Condition

namespace Select

/-- The select with a further condition: the rows have to meet both. -/
def filter (s : Select) (condition : Condition) : Select :=
  { s with condition := some ((s.condition.getD .empty).and condition) }

/-- The select with further order terms, which decide where the earlier ones do not. -/
def orderBy (s : Select) (terms : List OrderTerm) : Select := { s with order := s.order ++ terms }

/-- The select with a window in place of the one it has, if a window is given. -/
def page (s : Select) (window : Option Window) : Select := { s with window := window <|> s.window }

def columnSql (db : Database) (c : ResultColumn) : String :=
  match c.table with
  | none => db.quoteName c.name
  | some table => db.quoteName table ++ "." ++ db.quoteName c.name

def orderSql (db : Database) (t : OrderTerm) : String := t.target.sql db ++ " " ++ t.direction.sql

def pieces (db : Database) (s : Select) : List Piece :=
  [.text ("SELECT " ++ ", ".intercalate (s.columns.map (columnSql db)))]
    ++ (match s.table with
      | some table => [.text (" FROM " ++ db.quoteName table)]
      | none => [])
    ++ (match s.condition with
      | some condition => .text " WHERE " :: condition.pieces db
      | none => [])
    ++ (if s.order.isEmpty then []
      else [.text (" ORDER BY " ++ ", ".intercalate (s.order.map (orderSql db)))])
    ++ (match s.window with
      | some w => [.text " LIMIT ", .bound (.uint64 w.limit), .text " OFFSET ",
          .bound (.uint64 w.offset)]
      | none => [])

/-- The text of pieces with the values in it. -/
def inlineText (db : Database) (pieces : List Piece) : String :=
  String.join (pieces.map fun
    | .text text => text
    | .bound value => db.literal value)

/-- The text of pieces with placeholders, of which `count` are already there. -/
def placeholderText (db : Database) : Nat → List Piece → String
  | _, [] => ""
  | count, .text text :: rest => text ++ placeholderText db count rest
  | count, .bound _ :: rest =>
    (match db with
      | .postgres => "$" ++ toString (count + 1)
      | .mySql | .sqlite => "?") ++ placeholderText db (count + 1) rest

/-- The values of pieces, in order. -/
def pieceValues (pieces : List Piece) : List Value :=
  pieces.filterMap fun
    | .text _ => none
    | .bound value => some value

def inlined (db : Database) (s : Select) : String := inlineText db (s.pieces db)

def prepared (db : Database) (s : Select) : String := placeholderText db 0 (s.pieces db)

def values (db : Database) (s : Select) : List Value := pieceValues (s.pieces db)

@[simp]
theorem pieceValues_nil : pieceValues [] = [] := rfl

@[simp]
theorem pieceValues_text (text : String) (rest : List Piece) :
    pieceValues (.text text :: rest) = pieceValues rest := rfl

@[simp]
theorem pieceValues_bound (value : Value) (rest : List Piece) :
    pieceValues (.bound value :: rest) = value :: pieceValues rest := rfl

@[simp]
theorem pieceValues_append (a b : List Piece) :
    pieceValues (a ++ b) = pieceValues a ++ pieceValues b := List.filterMap_append

@[simp]
theorem pieceValues_joinPieces (separator : String) (pieces : List (List Piece)) :
    pieceValues (joinPieces separator pieces) = pieces.flatMap pieceValues := by
  fun_induction joinPieces separator pieces with
  | case1 => rfl
  | case2 pieces => simp
  | case3 pieces rest hrest ih => simp [ih]

theorem pieceValues_predicate (db other : Database) (p : Predicate) :
    pieceValues (p.pieces db) = pieceValues (p.pieces other) := by
  cases p <;> simp [Predicate.pieces]

theorem pieceValues_conjunct (db other : Database) (alone : Bool) (c : Conjunct) :
    pieceValues (c.pieces db alone) = pieceValues (c.pieces other alone) := by
  cases c with
  | one predicate => exact pieceValues_predicate db other predicate
  | anyOf predicates =>
    cases alone <;>
      simp [Conjunct.pieces, List.flatMap_map, pieceValues_predicate db other]

theorem pieceValues_condition (db other : Database) (c : Condition) :
    pieceValues (c.pieces db) = pieceValues (c.pieces other) := by
  unfold Condition.pieces
  split
  · rfl
  · exact pieceValues_conjunct db other true _
  · simp [List.flatMap_map, pieceValues_conjunct db other]

/-- The values of a query are those of its condition, then the numbers of its window. -/
theorem values_eq (db : Database) (s : Select) :
    s.values db = s.condition.elim [] (fun c => pieceValues (c.pieces db))
      ++ s.window.elim [] (fun w => [.uint64 w.limit, .uint64 w.offset]) := by
  unfold values pieces
  simp only [pieceValues_append]
  congr 1
  · cases s.table <;> cases s.condition <;> cases s.order.isEmpty <;> simp
  · cases s.window <;> simp

/-- A query has the same values for every database. -/
theorem values_eq_values (db other : Database) (s : Select) : s.values db = s.values other := by
  rw [values_eq, values_eq, funext (pieceValues_condition db other)]

end Select

end RecordQuery
