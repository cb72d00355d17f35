import RecordQuery.Spec

/-!
# Building specs

Specs put together from conditions instead of text. Every condition is written as its canonical
token and read back, so a field name or value that would make another token is caught by the same
rules as a request.

1. `FilterBuilder.build`: the spec of conditions.
2. `SortBuilder.build`: the spec of sort terms.
-/
namespace RecordQuery

/-- Conditions in order, with the fields they allow. -/
structure FilterBuilder where
  raw : List String := []
  allowed : List String := []

namespace FilterBuilder

/-- Append a condition. -/
def condition (b : FilterBuilder) (field : String) (operator : Operator) (value : String) :
    FilterBuilder :=
  { b with raw := b.raw ++ [FilterToken.canonical field operator value] }

def compare (b : FilterBuilder) (field : String) (c : Comparison) (value : String) :
    FilterBuilder :=
  b.condition field (.compare c) value

def like (b : FilterBuilder) (field value : String) : FilterBuilder := b.condition field .like value

def inValues (b : FilterBuilder) (field : String) (values : List String) : FilterBuilder :=
  b.condition field .isIn (";".intercalate values)

def is (b : FilterBuilder) (field : String) (literal : IsLiteral) : FilterBuilder :=
  b.condition field .is literal.name

def allow (b : FilterBuilder) (field : String) : FilterBuilder :=
  { b with allowed := b.allowed ++ [field] }

/-- The spec of the conditions, if each is a token. -/
def build (b : FilterBuilder) : Except QueryError FilterSpec :=
  (FilterSpec.parse b.raw).map (·.allowAll b.allowed)

end FilterBuilder

/-- Sort terms in order. -/
structure SortBuilder where
  raw : List String := []

namespace SortBuilder

/-- Append a term. -/
def orderBy (b : SortBuilder) (field : String) (direction : Direction) : SortBuilder :=
  { b with raw := b.raw ++ [SortToken.canonical field direction] }

/-- The spec of the terms, if each is a token. -/
def build (b : SortBuilder) : Except QueryError SortSpec := SortSpec.parse b.raw

end SortBuilder

end RecordQuery
