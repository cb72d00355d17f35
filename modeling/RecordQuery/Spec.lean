import RecordQuery.Collect
import RecordQuery.Shape
import RecordQuery.Token

/-!
# Specs

A spec is an ordered list of tokens together with the names of the fields that are allowed beyond
the declared ones. Filter tokens are conditions that all have to hold; of sort tokens the earlier
ones take precedence.

1. `FilterSpec.concat_assoc`: appending specs is associative, allowed names included.
2. `FilterSpec.mem_allowed_concat`: what appending allows.
-/
namespace RecordQuery

/-- Tokens in order, and the fields allowed beyond the declared ones. -/
structure Spec (τ : Type) where
  tokens : List τ
  allowed : NameSet := ∅
  deriving DecidableEq

namespace Spec

variable {τ : Type}

instance : Inhabited (Spec τ) := ⟨⟨[], ∅⟩⟩

def empty : Spec τ := ⟨[], ∅⟩

/-- The spec of these tokens, with nothing further allowed. -/
def ofTokens (tokens : List τ) : Spec τ := ⟨tokens, ∅⟩

/-- The spec of the texts that are not empty, read in order. -/
def parse (read : String → Except QueryError τ) (raw : List String) : Except QueryError (Spec τ) :=
  (collect read (raw.filter (· ≠ ""))).map ofTokens

def allow (s : Spec τ) (field : String) : Spec τ := { s with allowed := s.allowed.insert field }

def allowAll (s : Spec τ) (fields : List String) : Spec τ := fields.foldl allow s

def push (s : Spec τ) (token : τ) : Spec τ := { s with tokens := s.tokens ++ [token] }

def size (s : Spec τ) : Nat := s.tokens.length

def isEmpty (s : Spec τ) : Bool := s.tokens.isEmpty

end Spec

/-- The conditions of a request. -/
abbrev FilterSpec := Spec FilterToken

/-- The order of a request. -/
abbrev SortSpec := Spec SortToken

namespace FilterSpec

/-- Read filter tokens in order; empty texts are skipped. -/
def parse (raw : List String) : Except QueryError FilterSpec := Spec.parse FilterToken.parse raw

def roots (s : FilterSpec) : List String := s.tokens.map (·.path.root)

/-- Whether some token's path starts with the name. -/
def references (s : FilterSpec) (field : String) : Bool := s.roots.contains field

/-- Append the tokens of another spec, and allow the fields that these tokens are about. -/
def concat (s other : FilterSpec) : FilterSpec :=
  ⟨s.tokens ++ other.tokens, (s.allowed ∪ other.allowed).insertAll other.roots⟩

/-- The spec that selects deleted records, or those that are not, by the field that marks them:
a truth value is tested for itself, a value of another type for being there. -/
def softDelete (field : Field) (deleted : Bool) : Except QueryError FilterSpec :=
  let literal : IsLiteral := match field.type.isBool, deleted with
    | true, true => .true
    | true, false => .false
    | false, true => .notNull
    | false, false => .null
  (FilterToken.ofParts field.name .is literal.name).map fun token => Spec.ofTokens [token]

/-- Append the soft-delete condition of a shape, unless the shape has no such field or a token is
about it already. -/
def withSoftDelete (s : FilterSpec) (shape : Shape) (deleted : Bool) :
    Except QueryError FilterSpec :=
  match shape.softDeleteField? with
  | none => .ok s
  | some field =>
    if s.roots.any field.answersTo then .ok s else (softDelete field deleted).map s.concat

/-- What appending allows: both sides' names, and the roots of what is appended. -/
theorem mem_allowed_concat {a : String} {s t : FilterSpec} :
    a ∈ (s.concat t).allowed ↔ a ∈ s.allowed ∨ a ∈ t.allowed ∨ a ∈ t.roots := by
  simp [concat, or_assoc]

theorem concat_assoc (a b c : FilterSpec) : (a.concat b).concat c = a.concat (b.concat c) := by
  have hr : (b.concat c).roots = b.roots ++ c.roots := by simp [roots, concat]
  have ha : ((a.concat b).concat c).allowed = (a.concat (b.concat c)).allowed := by
    apply NameSet.ext
    intro x
    simp only [mem_allowed_concat, hr, List.mem_append]
    grind
  have ht : ((a.concat b).concat c).tokens = (a.concat (b.concat c)).tokens := by
    simp [concat]
  exact (Spec.mk.injEq ..).mpr ⟨ht, ha⟩

end FilterSpec

namespace SortSpec

def parse (raw : List String) : Except QueryError SortSpec := Spec.parse SortToken.parse raw

end SortSpec

end RecordQuery
