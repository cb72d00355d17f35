import RecordQuery.Text

/-!
# Field paths

A field path names a field, or a field of a related record, by segments separated by points, and
may end in a function of that field. Segments hold ASCII letters, digits and underscores, at least
one of them, so a path is never mistaken for anything else in a token, a clause or a cache key.

1. `display_of_parse`: a path is displayed as the text it was read from.
2. `dotted_injective`, `nestedDotted_injective`: the segments come back from the dotted text.
-/
namespace RecordQuery

/-- A function of a field that takes its place in a comparison or an order. -/
inductive FieldFunction where
  /-- The number of characters of a text. -/
  | length
  /-- The number of elements of a list. -/
  | size
  deriving DecidableEq, Repr

namespace FieldFunction

def name : FieldFunction → String
  | .length => "length"
  | .size => "size"

def sqlName : FieldFunction → String
  | .length => "LENGTH"
  | .size => "CARDINALITY"

/-- How a path ends that applies the function. -/
def ending (f : FieldFunction) : String := "." ++ f.name ++ "()"

end FieldFunction

/-- Whether a character may stand in a segment. -/
def isSegmentChar (c : Char) : Bool := c.isAlphanum || c == '_'

/-- A segment has a character, and all are letters, digits or underscores. -/
def IsSegment (s : String) : Prop := s ≠ "" ∧ ∀ c ∈ s.toList, isSegmentChar c = true

instance (s : String) : Decidable (IsSegment s) :=
  @instDecidableAnd _ _ inferInstance (List.decidableBAll _ s.toList)

theorem IsSegment.not_mem {s : String} (h : IsSegment s) : '.' ∉ s.toList := fun hm =>
  absurd (h.2 '.' hm) (by decide)

/-- A path of segments, with an optional function at its end. -/
structure FieldPath where
  /-- The first segment, which a request's permission is decided by. -/
  root : String
  /-- The segments below the root. -/
  nested : List String
  function : Option FieldFunction
  segments_valid : ∀ s ∈ root :: nested, IsSegment s
  deriving DecidableEq

/-- Why a text is not a path. -/
inductive PathFault where
  | empty
  | illegalCharacter (character : Char) (raw : String)
  | emptySegment (raw : String)
  deriving DecidableEq, Repr

def PathFault.message : PathFault → String
  | .empty => "field name is empty"
  | .illegalCharacter c raw =>
    "illegal character `" ++ String.singleton c ++ "` in field name `" ++ raw ++ "`"
  | .emptySegment raw => "empty path segment in field name `" ++ raw ++ "`"

namespace FieldPath

/-- All segments, the root first. -/
def segments (p : FieldPath) : List String := p.root :: p.nested

def isNested (p : FieldPath) : Bool := !p.nested.isEmpty

/-- The segments with points between them, without the function. -/
def dotted (p : FieldPath) : String := ".".intercalate p.segments

/-- The segments below the root with points between them. -/
def nestedDotted (p : FieldPath) : String := ".".intercalate p.nested

/-- The whole path as a request writes it. -/
def display (p : FieldPath) : String :=
  p.dotted ++ (p.function.map FieldFunction.ending).getD ""

/-- What stands before an ending. -/
def beforeEnding? (ending raw : String) : Option String :=
  if ending.toList.isSuffixOf raw.toList then
    some (String.ofList (raw.toList.take (raw.toList.length - ending.toList.length)))
  else none

/-- The text before the function, and the function; `length` is looked for first. -/
def splitFunction (raw : String) : String × Option FieldFunction :=
  match beforeEnding? FieldFunction.length.ending raw with
  | some base => (base, some .length)
  | none =>
    match beforeEnding? FieldFunction.size.ending raw with
    | some base => (base, some .size)
    | none => (raw, none)

/-- Whether a character may stand in a path: those of segments, and the point between them. -/
def isPathChar (c : Char) : Bool := isSegmentChar c || c == '.'

/-- Where all characters may stand in a path, pieces between points are segments unless empty. -/
theorem isSegment_of_mem_pieces {base : String}
    (hc : base.toList.find? (fun c => !isPathChar c) = none) (he : "" ∉ Text.pieces '.' base) :
    ∀ s ∈ Text.pieces '.' base, IsSegment s := by
  have hchars : ∀ c ∈ base.toList, c ≠ '.' → isSegmentChar c = true := by
    intro c hm hpoint
    have hpath : isPathChar c = true := by simpa using List.find?_eq_none.1 hc c hm
    simpa [isPathChar, hpoint] using hpath
  exact fun s hs => ⟨fun hempty => he (hempty ▸ hs), Text.forall_mem_pieces hchars hs⟩

/-- Read a path. A missing name is reported before an illegal character, and that before a missing
segment. -/
def parse (raw : String) : Except PathFault FieldPath :=
  let (base, function) := splitFunction raw
  if base = "" then .error .empty
  else match hc : base.toList.find? fun c => !isPathChar c with
    | some c => .error (.illegalCharacter c raw)
    | none =>
      if he : "" ∈ Text.pieces '.' base then .error (.emptySegment raw)
      else
        let parts := Text.split '.' base
        .ok ⟨parts.1, parts.2, function, isSegment_of_mem_pieces hc he⟩

/-- What stands before an ending is the text without it. -/
theorem beforeEnding?_eq_some {ending raw base : String}
    (h : beforeEnding? ending raw = some base) :
    raw = base ++ ending := by
  unfold beforeEnding? at h
  split at h
  · rename_i hs
    cases h
    apply String.toList_inj.1
    rw [String.toList_append, String.toList_ofList]
    obtain ⟨front, hf⟩ := List.isSuffixOf_iff_suffix.1 hs
    rw [← hf]
    simp
  · cases h

theorem point_eq : "." = String.singleton '.' := rfl

theorem splitFunction_append (raw : String) :
    (splitFunction raw).1 ++ ((splitFunction raw).2.map FieldFunction.ending).getD "" = raw := by
  unfold splitFunction
  split
  · rename_i h
    exact (beforeEnding?_eq_some h).symm
  · split
    · rename_i h
      exact (beforeEnding?_eq_some h).symm
    · simp

/-- A path is displayed as the text it was read from. -/
theorem display_of_parse {raw : String} {p : FieldPath} (h : parse raw = .ok p) :
    p.display = raw := by
  have hs := splitFunction_append raw
  unfold parse at h
  dsimp only at h
  split at h
  · cases h
  · split at h
    · cases h
    · split at h
      · cases h
      · have hp : (String.singleton '.').intercalate ((Text.split '.' (splitFunction raw).1).1 ::
            (Text.split '.' (splitFunction raw).1).2) = (splitFunction raw).1 :=
          Text.intercalate_pieces '.' (splitFunction raw).1
        -- Read off the equation: `cases` would evaluate the parts to match them.
        have hq := Except.ok.inj h
        subst hq
        unfold display dotted segments
        rw [point_eq]
        dsimp only
        rw [hp]
        exact hs

/-- The segments come back from the dotted text. -/
theorem pieces_dotted (p : FieldPath) : Text.pieces '.' p.dotted = p.segments :=
  Text.pieces_intercalate fun s hs => (p.segments_valid s hs).not_mem

theorem dotted_injective {p q : FieldPath} (h : p.dotted = q.dotted) : p.segments = q.segments := by
  rw [← pieces_dotted, ← pieces_dotted, h]

/-- The segments below a root come back from their dotted text, when there are any. -/
theorem pieces_nestedDotted {p : FieldPath} (h : p.nested ≠ []) :
    Text.pieces '.' p.nestedDotted = p.nested := by
  unfold nestedDotted
  cases hn : p.nested with
  | nil => exact absurd hn h
  | cons s ss =>
    refine Text.pieces_intercalate fun t ht => ?_
    exact (p.segments_valid t (List.mem_cons_of_mem _ (hn ▸ ht))).not_mem

/-- Paths with segments below their roots have the same ones when the dotted texts are the same. -/
theorem nestedDotted_injective {p q : FieldPath} (hp : p.isNested = true) (hq : q.isNested = true)
    (h : p.nestedDotted = q.nestedDotted) : p.nested = q.nested := by
  have hne : ∀ {r : FieldPath}, r.isNested = true → r.nested ≠ [] := by
    intro r hr
    simpa [isNested] using hr
  rw [← pieces_nestedDotted (hne hp), ← pieces_nestedDotted (hne hq), h]

end FieldPath

end RecordQuery
