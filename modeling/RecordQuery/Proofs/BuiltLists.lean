import RecordQuery.Proofs.OneOf

/-!
# Lists in built tokens

A list of texts is built into a token by joining the texts with semicolons, and the token is read by
cutting its value at the semicolons. A text that has a semicolon itself is cut too, so that its
parts are asked for in its place; and a list without texts is joined to the empty text, so that this
text is asked for, where nothing should be. All other lists are kept as they are.

1. `Text.pieces_intercalate_flatMap`: what joined texts are cut into.
2. `FilterBuilder.build_inValues_eq_ok_iff`: the token that a list is built into.
3. `FilterBuilder.built_list_kept_iff`: when the list is kept, and what is asked for otherwise.
4. `FilterBuilder.built_list_admits_others`: lists that are not kept.
-/
namespace RecordQuery

/-- Joined texts are cut at the separators between them and at those that they have. -/
theorem Text.pieces_intercalate_flatMap {sep : Char} {values : List String} (h : values ≠ []) :
    pieces sep ((String.singleton sep).intercalate values) = values.flatMap (pieces sep) := by
  have hne : ∀ s, pieces sep s ≠ [] := fun s => List.cons_ne_nil _ _
  -- Cut or not, the texts are joined to the same, and pieces come back from their joined text.
  have hjoin : (String.singleton sep).intercalate (values.flatMap (pieces sep)) =
      (String.singleton sep).intercalate values := by
    induction values with
    | nil => rfl
    | cons first rest ih =>
      cases rest with
      | nil => rw [List.flatMap_singleton, intercalate_pieces, String.intercalate_singleton]
      | cons next rest =>
        have hrest : (next :: rest).flatMap (pieces sep) ≠ [] := List.cons_ne_nil _ _
        rw [List.flatMap_cons, String.intercalate_append_of_ne_nil (hne first) hrest,
          intercalate_pieces, ih (List.cons_ne_nil _ _), String.intercalate_cons_cons]
  have hfree : ∀ piece ∈ values.flatMap (pieces sep), sep ∉ piece.toList := by
    intro piece hp
    obtain ⟨_, _, hp⟩ := List.mem_flatMap.1 hp
    exact not_mem_of_mem_pieces hp
  obtain ⟨first, rest, rfl⟩ := List.exists_cons_of_ne_nil h
  rw [← hjoin]
  exact pieces_intercalate hfree

namespace FilterToken

variable {path : FieldPath} {values : List String}

/-- What a token is cut into, joined again, makes the same token. -/
theorem oneOf_values : oneOf path (oneOf path values).values = oneOf path values :=
  congrArg (on path .isIn) (Text.intercalate_pieces ';' (";".intercalate values))

/-- A list comes back from a token when there is a text in it and no text has a semicolon. -/
theorem values_oneOf_eq_iff :
    (oneOf path values).values = values ↔ values ≠ [] ∧ ∀ v ∈ values, ';' ∉ v.toList := by
  constructor
  · intro h
    rw [← h]
    exact ⟨List.cons_ne_nil _ _, fun v hv => Text.not_mem_of_mem_pieces hv⟩
  · rintro ⟨hne, hfree⟩
    obtain ⟨first, rest, rfl⟩ := List.exists_cons_of_ne_nil hne
    exact Text.pieces_intercalate hfree

theorem values_oneOf_eq :
    (oneOf path values).values =
      if values = [] then [""] else values.flatMap (Text.pieces ';') := by
  split
  · rename_i h
    subst h
    rfl
  · rename_i h
    exact Text.pieces_intercalate_flatMap h

end FilterToken

/-- The texts that a token is cut into can be put into one token. -/
theorem Compiler.ReachesValue.takesPieces {c : Compiler} {allowed : NameSet} {path : FieldPath}
    {values : List String} {f : PlannedField}
    (h : c.ReachesValue allowed (.oneOf path values) f) :
    c.TakesPieces (FilterToken.oneOf path values).values where
  some_piece := List.cons_ne_nil _ _
  plain _ hp := Text.not_mem_of_mem_pieces hp
  short := by
    have hvalue := Text.intercalate_pieces ';' (FilterToken.oneOf path values).value
    exact Nat.le_trans (Nat.le_of_eq (congrArg String.length hvalue)) h.short

namespace FilterBuilder

variable {field : String} {path : FieldPath} {values : List String}

/-- The token that a list is built into. -/
theorem build_inValues_eq_ok_iff (hpath : FieldPath.parse field = .ok path) {b : FilterBuilder}
    {spec : FilterSpec} :
    (b.inValues field values).build = .ok spec ↔
      ∃ before, b.build = .ok before ∧ spec = before.push (.oneOf path values) := by
  have htoken : FilterToken.ofParts field .isIn (";".intercalate values) =
      .ok (.oneOf path values) := by
    rw [← FieldPath.display_of_parse hpath]
    exact FilterToken.ofParts_display nofun
  unfold inValues
  rw [build_condition_eq_ok_iff]
  constructor
  · rintro ⟨before, t, hb, ht, rfl⟩
    cases htoken.symm.trans ht
    exact ⟨before, hb, rfl⟩
  · rintro ⟨before, hb, rfl⟩
    exact ⟨before, _, hb, htoken, rfl⟩

/-- A list is built into one token of the field, which asks for what the joined texts are cut into:
for the list itself exactly when there is a text in it and no text has a semicolon, and otherwise
for the parts of the texts, or for the empty text where there is none. What the token is written as,
and what it admits, is what is written and admitted for each of these. -/
theorem built_list_kept_iff (hpath : FieldPath.parse field = .ok path) (values : List String) :
    (∀ (b : FilterBuilder) spec, (b.inValues field values).build = .ok spec ↔
      ∃ before, b.build = .ok before ∧ spec = before.push (.oneOf path values)) ∧
    (FilterToken.oneOf path values).Says field .isIn (";".intercalate values) ∧
    ((FilterToken.oneOf path values).values = values ↔
      values ≠ [] ∧ ∀ v ∈ values, ';' ∉ v.toList) ∧
    (FilterToken.oneOf path values).values =
      (if values = [] then [""] else values.flatMap (Text.pieces ';')) ∧
    (∀ (c : Compiler) allowed qualifier clause,
      c.compileText ⟨[.oneOf path values], allowed⟩ qualifier = .ok clause →
      c.WritesOneOf allowed path (FilterToken.oneOf path values).values qualifier clause) ∧
    ∀ (c : Compiler) allowed source condition,
      c.compileCondition ⟨[.oneOf path values], allowed⟩ source = .ok condition →
      c.TestsOneOf allowed path (FilterToken.oneOf path values).values source condition := by
  refine ⟨fun b spec => build_inValues_eq_ok_iff hpath,
    ⟨FieldPath.display_of_parse hpath, rfl, rfl⟩, FilterToken.values_oneOf_eq_iff,
    FilterToken.values_oneOf_eq, ?_, ?_⟩
  · intro c allowed qualifier clause hc
    obtain ⟨f, _, hreach, _⟩ := Compiler.compileText_singleton_eq_ok_iff.1 hc
    rw [← FilterToken.oneOf_values] at hc
    exact hreach.takesPieces.writesOneOf hc
  · intro c allowed source condition hc
    obtain ⟨f, _, _, hreach, _⟩ := Compiler.compileCondition_singleton_eq_ok_iff.1 hc
    rw [← FilterToken.oneOf_values] at hc
    exact hreach.takesPieces.testsOneOf hc

end FilterBuilder

namespace Sample

def name : FieldPath := ⟨"name", [], none, by decide⟩

/-- A person of this name. -/
def named (s : String) : Row where
  written _ := none
  placed
    | ⟨"people", "name"⟩ => some (.value (.text s))
    | _ => none

end Sample

namespace FilterBuilder

/-- Names without semicolons are kept, after another condition too, and a person who has one of them
is admitted. -/
theorem built_list_kept_iff_names :
    (∃ spec before, ((({} : FilterBuilder).like "name" "n").inValues "name" ["Ann", "Jon"]).build =
        .ok spec ∧ spec = Spec.push before (.oneOf Sample.name ["Ann", "Jon"])) ∧
    (FilterToken.oneOf Sample.name ["Ann", "Jon"]).values = ["Ann", "Jon"] ∧
    ∃ condition, Sample.compiler.compileCondition
        ⟨[.oneOf Sample.name ["Ann", "Jon"]], ∅⟩ Sample.source = .ok condition ∧
      Sample.compiler.TestsOneOf ∅ Sample.name ["Ann", "Jon"] Sample.source condition ∧
      condition.holds Sample.engine (Sample.named "Jon") = .true ∧
      condition.holds Sample.engine (Sample.named "Tom") = .false := by
  have hpath : FieldPath.parse "name" = .ok Sample.name := Sample.name.parse_display
  have hcondition : Sample.compiler.compileCondition
      ⟨[.oneOf Sample.name ["Ann", "Jon"]], ∅⟩ Sample.source =
        .ok ⟨[.one (.oneOf ⟨⟨"people", "name"⟩, none⟩ [.text "Ann", .text "Jon"])]⟩ := rfl
  obtain ⟨hbuild, _, hkept, _, _, htree⟩ := built_list_kept_iff hpath ["Ann", "Jon"]
  have hvalues := hkept.2 ⟨by decide, by decide⟩
  have htests := htree Sample.compiler ∅ Sample.source _ hcondition
  rw [hvalues] at htests
  refine ⟨⟨_, _, (hbuild _ _).2 ⟨_, rfl, rfl⟩, rfl⟩, hvalues, _, hcondition, htests, ?_, ?_⟩
  · decide +kernel
  · decide +kernel

/-- A member with a semicolon admits others in its place, and a list without members admits the
empty name. -/
theorem built_list_admits_others :
    ∃ parts empty,
      (({} : FilterBuilder).inValues "name" ["a;b"]).build =
        .ok (Spec.ofTokens [.oneOf Sample.name ["a;b"]]) ∧
      (FilterToken.oneOf Sample.name ["a;b"]).values = ["a", "b"] ∧
      Sample.compiler.compileCondition ⟨[.oneOf Sample.name ["a;b"]], ∅⟩ Sample.source = .ok parts ∧
      parts.holds Sample.engine (Sample.named "a") = .true ∧
      parts.holds Sample.engine (Sample.named "a;b") = .false ∧
      (({} : FilterBuilder).inValues "name" []).build =
        .ok (Spec.ofTokens [.oneOf Sample.name []]) ∧
      (FilterToken.oneOf Sample.name []).values = [""] ∧
      Sample.compiler.compileCondition ⟨[.oneOf Sample.name []], ∅⟩ Sample.source = .ok empty ∧
      empty.holds Sample.engine (Sample.named "") = .true := by
  refine ⟨_, _, ?_, rfl, rfl, ?_, ?_, ?_, rfl, rfl, ?_⟩
  all_goals decide +kernel

end FilterBuilder

end RecordQuery
