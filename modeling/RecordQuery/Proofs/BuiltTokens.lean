import RecordQuery.Proofs.PathGrammar
import RecordQuery.Proofs.TokenGrammar
import RecordQuery.Spec.Builder

/-!
# What a built token says

A token is built from a field, an operator and a value by writing its canonical text and reading it
back. The value stands last and keeps its colons, but a colon in the field ends the field there, and
what follows is read as the operator and the value. So a built token says what was asked for exactly
when there is no colon in the field. A sort token has only one colon, so one that is built always
says what was asked for.

1. `FilterToken.Says`: a token is about a field, an operator and a value.
2. `FilterBuilder.build_condition_eq_ok_iff`: a condition is built as its token.
3. `FilterBuilder.built_says_iff`: when a built token says what was asked for.
4. `FilterBuilder.field_read_as_condition`: a field that is read as a condition of its own.
-/
namespace RecordQuery

namespace FilterToken

/-- The token is about this field, this operator and this value. -/
structure Says (t : FilterToken) (field : String) (operator : Operator) (value : String) :
    Prop where
  field : t.path.display = field
  operator : t.operator = operator
  value : t.value = value

instance (t : FilterToken) (field : String) (operator : Operator) (value : String) :
    Decidable (t.Says field operator value) :=
  decidable_of_iff (t.path.display = field ∧ t.operator = operator ∧ t.value = value)
    ⟨fun ⟨hf, ho, hv⟩ => ⟨hf, ho, hv⟩, fun h => ⟨h.field, h.operator, h.value⟩⟩

variable {field value : String} {operator : Operator}

/-- A built token says what was asked for exactly when there is no colon in the field. -/
theorem says_iff_of_ofParts {t : FilterToken} (h : ofParts field operator value = .ok t) :
    t.Says field operator value ↔ ':' ∉ field.toList := by
  constructor
  · rintro ⟨rfl, _, _⟩
    exact t.path.colon_not_mem_display
  · intro hfield
    obtain ⟨hpath, hoperator, hvalue, _, _⟩ := (ofParts_eq_ok_iff hfield).1 h
    exact ⟨FieldPath.display_of_parse hpath, hoperator, hvalue⟩

/-- From a field without colons a token is built when the field is a path and a literal is one. -/
theorem exists_ofParts_iff (hfield : ':' ∉ field.toList) :
    (∃ t, ofParts field operator value = .ok t) ↔
      (∃ path, FieldPath.parse field = .ok path) ∧
      (operator = .is → ∃ literal : IsLiteral, value = literal.name) := by
  constructor
  · rintro ⟨t, h⟩
    obtain ⟨hpath, _, _, hliteral, _⟩ := (ofParts_eq_ok_iff hfield).1 h
    exact ⟨⟨t.path, hpath⟩, hliteral⟩
  · rintro ⟨⟨path, hpath⟩, hliteral⟩
    exact ⟨⟨path, operator, value, canonical field operator value⟩,
      (ofParts_eq_ok_iff hfield).2 ⟨hpath, rfl, rfl, hliteral, rfl⟩⟩

end FilterToken

/-- A sort token says what was asked for as soon as it is built: a colon in the field is one too
many. -/
theorem SortToken.says_of_ofParts {field : String} {direction : Direction} {t : SortToken}
    (h : ofParts field direction = .ok t) :
    t.path.display = field ∧ t.direction = direction := by
  obtain ⟨path, name, htext, hpath, hname, hparse, hcase⟩ := (parse_eq_ok_iff_written.1 h).parts
  have hdirection : ':' ∉ direction.name.toList := by
    cases direction <;> decide
  -- The canonical text has the one colon that stands after the field.
  have hfield : ':' ∉ field.toList := by
    have hcount := congrArg (fun s : String => s.toList.count ':') htext
    simp only [canonical, String.toList_append, List.count_append, List.count_eq_zero.2 hpath,
      List.count_eq_zero.2 hname, List.count_eq_zero.2 hdirection] at hcount
    exact List.count_eq_zero.1 (by simpa using hcount)
  have hsplit := (Text.split_eq_pair_iff.2 ⟨rfl, hfield, hdirection⟩).symm.trans
    (Text.split_eq_pair_iff.2 ⟨htext, hpath, hname⟩)
  obtain ⟨rfl, rfl⟩ : field = path ∧ direction.name = name := by simpa using hsplit
  refine ⟨FieldPath.display_of_parse hparse, ?_⟩
  rw [← Direction.parse_eq_some_iff, Direction.parse_name] at hcase
  exact (Option.some.inj hcase).symm

namespace Spec

variable {τ : Type}

/-- A text at the end is read after those before it. -/
theorem parse_append_singleton (read : String → Except QueryError τ) (raw : List String)
    {text : String} (h : text ≠ "") :
    parse read (raw ++ [text]) = (parse read raw).bind fun s => (read text).map s.push := by
  unfold parse
  rw [List.filter_append, List.filter_singleton, collect_append]
  cases collect read (raw.filter (· ≠ "")) with
  | error e => rfl
  | ok tokens =>
    cases hr : read text <;>
      simp [Except.bind, Except.map, collect, h, hr, ofTokens, push]

/-- Allowing names does not touch the tokens. -/
theorem allowAll_push (s : Spec τ) (token : τ) (fields : List String) :
    (s.push token).allowAll fields = (s.allowAll fields).push token := by
  unfold allowAll
  induction fields generalizing s with
  | nil => rfl
  | cons field rest ih => exact ih (s.allow field)

end Spec

namespace FilterBuilder

/-- A condition is built after those before it, as the token of its parts. -/
theorem build_condition_eq_ok_iff {b : FilterBuilder} {field value : String} {operator : Operator}
    {spec : FilterSpec} :
    (b.condition field operator value).build = .ok spec ↔
      ∃ before t, b.build = .ok before ∧ FilterToken.ofParts field operator value = .ok t ∧
        spec = before.push t := by
  have hne : FilterToken.canonical field operator value ≠ "" := by
    intro h
    have hcolon : ':' ∈ (FilterToken.canonical field operator value).toList := by
      simp [FilterToken.canonical]
    rw [h] at hcolon
    cases hcolon
  unfold build condition FilterSpec.parse FilterToken.ofParts
  dsimp only
  rw [Spec.parse_append_singleton _ _ hne]
  simp only [map_eq_ok_iff, bind_eq_ok_iff]
  constructor
  · rintro ⟨_, ⟨s, hs, t, ht, rfl⟩, rfl⟩
    exact ⟨_, t, ⟨s, hs, rfl⟩, ht, Spec.allowAll_push s t b.allowed⟩
  · rintro ⟨_, t, ⟨s, hs, rfl⟩, ht, rfl⟩
    exact ⟨_, ⟨s, hs, t, ht, rfl⟩, Spec.allowAll_push s t b.allowed⟩

/-- A built token, by itself or as a condition after others, says what was asked for exactly when
there is no colon in the field. Without one, it is built exactly when the field is a path and a
literal is one. -/
theorem built_says_iff (field : String) (operator : Operator) (value : String) :
    (∀ t, FilterToken.ofParts field operator value = .ok t →
      (t.Says field operator value ↔ ':' ∉ field.toList)) ∧
    (∀ (b : FilterBuilder) spec, (b.condition field operator value).build = .ok spec →
      ∃ before t, b.build = .ok before ∧ spec = before.push t ∧
        (t.Says field operator value ↔ ':' ∉ field.toList)) ∧
    (':' ∉ field.toList → ((∃ t, FilterToken.ofParts field operator value = .ok t) ↔
      (∃ path, FieldPath.parse field = .ok path) ∧
      (operator = .is → ∃ literal : IsLiteral, value = literal.name))) := by
  refine ⟨fun t h => FilterToken.says_iff_of_ofParts h, ?_, FilterToken.exists_ofParts_iff⟩
  intro b spec h
  obtain ⟨before, t, hb, ht, rfl⟩ := build_condition_eq_ok_iff.1 h
  exact ⟨before, t, hb, rfl, FilterToken.says_iff_of_ofParts ht⟩

/-- A value with colons and quotes is carried as it is; a field with a colon makes a token that does
not say what was asked for. -/
theorem built_says_iff_colons :
    (∃ t, FilterToken.ofParts "zip" .like "1:='2" = .ok t ∧ t.Says "zip" .like "1:='2") ∧
    ∃ spec, (({} : FilterBuilder).condition "zip:=" .like "1").build = .ok spec ∧
      ∃ t, spec.tokens = [t] ∧ ¬t.Says "zip:=" .like "1" := by
  constructor
  · obtain ⟨hmeant, _, hbuilt⟩ := built_says_iff "zip" .like "1:='2"
    obtain ⟨t, ht⟩ := (hbuilt (by decide)).2 ⟨⟨⟨"zip", [], none, by decide⟩, rfl⟩, nofun⟩
    exact ⟨t, ht, (hmeant t ht).2 (by decide)⟩
  · obtain ⟨_, hcondition, _⟩ := built_says_iff "zip:=" .like "1"
    have h : (({} : FilterBuilder).condition "zip:=" .like "1").build =
        .ok (Spec.ofTokens
          [⟨⟨"zip", [], none, by decide⟩, .compare .eq, "like:1", "zip:=:like:1"⟩]) := by
      decide +kernel
    obtain ⟨before, t, hb, hspec, hmeant⟩ := hcondition {} _ h
    cases hb
    exact ⟨_, h, t, congrArg Spec.tokens hspec, fun hs => hmeant.1 hs (by decide)⟩

/-- A field can be read as a whole condition: instead of comparing a field of that name, or being
refused, the token compares another field by another operator with another value. -/
theorem field_read_as_condition :
    FilterToken.ofParts "name:=:x" (.compare .ne) "y" =
      .ok ⟨⟨"name", [], none, by decide⟩, .compare .eq, "x:<>:y", "name:=:x:<>:y"⟩ ∧
    (∀ t, FilterToken.ofParts "name:=:x" (.compare .ne) "y" = .ok t →
      t.path.display ≠ "name:=:x" ∧ t.operator ≠ .compare .ne ∧ t.value ≠ "y") ∧
    SortToken.ofParts "name:asc" .descending =
      .error (.malformedToken .sort "name:asc:desc" "expected <field>:<direction>") := by
  have h : FilterToken.ofParts "name:=:x" (.compare .ne) "y" =
      .ok ⟨⟨"name", [], none, by decide⟩, .compare .eq, "x:<>:y", "name:=:x:<>:y"⟩ := by
    decide +kernel
  refine ⟨h, fun t ht => ?_, by decide +kernel⟩
  cases h.symm.trans ht
  decide

end FilterBuilder

end RecordQuery
