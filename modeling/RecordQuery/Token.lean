import RecordQuery.Error
import RecordQuery.Operator
import RecordQuery.Path

/-!
# Tokens

A filter token is `<field>:<operator>:<value>`, a sort token `<field>:<direction>`. A filter token
is cut at its first two colons only, so that its value may hold colons; a sort token has exactly
one. A token keeps its raw text, by which errors name it.

1. `FilterToken.parse_raw`, `SortToken.parse_raw`: a parsed token has the text it was read from.
2. `FilterToken.parse_eq_ok_iff`: a token is accepted exactly when each of its parts is.
-/
namespace RecordQuery

/-- One condition of a request. -/
structure FilterToken where
  path : FieldPath
  operator : Operator
  /-- The value as written; the members of a list are separated by semicolons. -/
  value : String
  /-- The whole token as written. -/
  raw : String
  deriving DecidableEq

namespace FilterToken

/-- The parts of a filter token that are fields of their own: everything before the first colon,
between the first two, and after the second. -/
def parts? (raw : String) : Option (String × String × String) :=
  match Text.cut ':' raw with
  | none => none
  | some (field, rest) => (Text.cut ':' rest).map fun p => (field, p.1, p.2)

/-- The path that a token's first part spells. -/
def parsePath (kind : ParamKind) (raw field : String) : Except QueryError FieldPath :=
  match FieldPath.parse field with
  | .ok path => .ok path
  | .error fault => .error (.malformedToken kind raw fault.message)

/-- Read a filter token. A wrong path is reported before a wrong operator, and that before a wrong
literal. -/
def parse (raw : String) : Except QueryError FilterToken :=
  match parts? raw with
  | none => .error (.malformedToken .filter raw "expected <field>:<operator>:<value>")
  | some (field, symbol, value) =>
    match parsePath .filter raw field with
    | .error e => .error e
    | .ok path =>
      match Operator.parse symbol with
      | none => .error (.unknownOperator raw symbol)
      | some operator =>
        if operator = .is ∧ IsLiteral.parse value = none then
          .error (.invalidIsLiteral raw value)
        else .ok ⟨path, operator, value, raw⟩

/-- The text of a token made of these parts. -/
def canonical (field : String) (operator : Operator) (value : String) : String :=
  field ++ ":" ++ operator.symbol ++ ":" ++ value

def ofParts (field : String) (operator : Operator) (value : String) :
    Except QueryError FilterToken :=
  parse (canonical field operator value)

def values (t : FilterToken) : List String := Text.pieces ';' t.value

/-- What a successful parse says about the parts of the text. -/
theorem parse_eq_ok_iff {raw : String} {t : FilterToken} :
    parse raw = .ok t ↔ ∃ field symbol value, parts? raw = some (field, symbol, value) ∧
      FieldPath.parse field = .ok t.path ∧ Operator.parse symbol = some t.operator ∧
      t.value = value ∧ t.raw = raw ∧ ¬(t.operator = .is ∧ IsLiteral.parse value = none) := by
  unfold parse
  split
  · rename_i hp
    simp [hp]
  · rename_i field symbol value hp
    simp only [parsePath, hp, Option.some.injEq, Prod.mk.injEq]
    cases hf : FieldPath.parse field with
    | error fault =>
      simp only [reduceCtorEq, false_iff]
      rintro ⟨f, s, v, ⟨rfl, rfl, rfl⟩, h, _⟩
      rw [hf] at h
      cases h
    | ok path =>
      cases ho : Operator.parse symbol with
      | none =>
        simp only [reduceCtorEq, false_iff]
        rintro ⟨f, s, v, ⟨rfl, rfl, rfl⟩, _, h, _⟩
        rw [ho] at h
        cases h
      | some operator =>
        dsimp only
        constructor
        · intro h
          split at h
          · cases h
          · rename_i hn
            cases h
            exact ⟨field, symbol, value, ⟨rfl, rfl, rfl⟩, hf, ho, rfl, rfl, hn⟩
        · rintro ⟨f, s, v, ⟨rfl, rfl, rfl⟩, h1, h2, h3, h4, h5⟩
          rw [hf] at h1
          rw [ho] at h2
          cases h1
          cases h2
          rw [if_neg h5]
          cases t
          simp only at h3 h4
          subst h3 h4
          rfl

/-- A parsed token has the text it was read from. -/
theorem parse_raw {raw : String} {t : FilterToken} (h : parse raw = .ok t) : t.raw = raw := by
  obtain ⟨_, _, _, _, _, _, _, hr, _⟩ := parse_eq_ok_iff.1 h
  exact hr

end FilterToken

/-- One term of a requested order. -/
structure SortToken where
  path : FieldPath
  direction : Direction
  /-- The whole token as written. -/
  raw : String
  deriving DecidableEq

namespace SortToken

/-- Read a sort token. A wrong path is reported before a wrong direction. -/
def parse (raw : String) : Except QueryError SortToken :=
  match Text.split ':' raw with
  | (field, [direction]) =>
    match FilterToken.parsePath .sort raw field with
    | .error e => .error e
    | .ok path =>
      match Direction.parse direction with
      | none => .error (.invalidDirection raw direction)
      | some d => .ok ⟨path, d, raw⟩
  | _ => .error (.malformedToken .sort raw "expected <field>:<direction>")

def canonical (field : String) (direction : Direction) : String := field ++ ":" ++ direction.name

def ofParts (field : String) (direction : Direction) : Except QueryError SortToken :=
  parse (canonical field direction)

theorem parse_raw {raw : String} {t : SortToken} (h : parse raw = .ok t) : t.raw = raw := by
  unfold parse at h
  grind

end SortToken

end RecordQuery
