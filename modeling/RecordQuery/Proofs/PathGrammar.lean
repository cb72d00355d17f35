import RecordQuery.Proofs.Reading

/-!
# The grammar of paths

A path is written as segments with points between them, and may end in one of two functions. The
function is looked for at the end of the text before the segments are, so a text may end in what
looks like a function without a field before it, or with another function before it; neither is a
path. A segment may well have the name of a function.

1. `FieldPath.Spells`: the texts that are paths, with their segments and their function.
2. `FieldPath.parse_eq_ok_iff`: a text is read as a path exactly when the path is displayed as it.
3. `FieldPath.path_grammar`: the texts that are read, and what they are read as.
-/
namespace RecordQuery

/-- An ASCII letter or digit, or an underscore. -/
def IsNameChar (c : Char) : Prop :=
  'A' ≤ c ∧ c ≤ 'Z' ∨ 'a' ≤ c ∧ c ≤ 'z' ∨ '0' ≤ c ∧ c ≤ '9' ∨ c = '_'

theorem isSegmentChar_iff {c : Char} : isSegmentChar c = true ↔ IsNameChar c := by
  have hrange : ∀ a b : Char,
      (decide (c.val ≥ a.val) && decide (c.val ≤ b.val)) = true ↔ a ≤ c ∧ c ≤ b := by
    intro a b
    rw [Bool.and_eq_true, decide_eq_true_iff, decide_eq_true_iff]
    exact Iff.rfl
  have hupper : c.isUpper = true ↔ 'A' ≤ c ∧ c ≤ 'Z' := decide_eq_true_iff
  have hlower : c.isLower = true ↔ 'a' ≤ c ∧ c ≤ 'z' := hrange 'a' 'z'
  have hdigit : c.isDigit = true ↔ '0' ≤ c ∧ c ≤ '9' := hrange '0' '9'
  show (((c.isUpper || c.isLower) || c.isDigit) || c == '_') = true ↔ _
  rw [Bool.or_eq_true, Bool.or_eq_true, Bool.or_eq_true, hupper, hlower, hdigit, beq_iff_eq,
    or_assoc, or_assoc]
  exact Iff.rfl

namespace FieldPath

/-- What follows the segments of a path. -/
def functionText : Option FieldFunction → String
  | none => ""
  | some .length => ".length()"
  | some .size => ".size()"

/-- A text is written as segments, at least one, with points between them, and a function after
them if there is one. -/
structure Spells (raw : String) (segments : List String) (function : Option FieldFunction) :
    Prop where
  some_segment : segments ≠ []
  some_char : ∀ s ∈ segments, s ≠ ""
  chars : ∀ s ∈ segments, ∀ c ∈ s.toList, IsNameChar c
  text : raw = ".".intercalate segments ++ functionText function

/-! ## Functions at the end of a text -/

theorem beforeEnding?_append (base ending : String) :
    beforeEnding? ending (base ++ ending) = some base := by
  unfold beforeEnding?
  rw [if_pos (List.isSuffixOf_iff_suffix.2 ⟨base.toList, String.toList_append.symm⟩)]
  simp

theorem beforeEnding?_eq_none {ending raw : String} (h : ∀ base, raw ≠ base ++ ending) :
    beforeEnding? ending raw = none :=
  Option.eq_none_iff_forall_ne_some.2 fun base hb => h base (beforeEnding?_eq_some hb)

theorem append_size_ne_append_length (base other : String) :
    base ++ FieldFunction.size.ending ≠ other ++ FieldFunction.length.ending := by
  intro h
  have hend := congrArg (fun s : String => s.toList.reverse.take 3) h
  simp [FieldFunction.ending, FieldFunction.name] at hend

/-- A function is found after a text without brackets, and none where none is put. -/
theorem splitFunction_append_functionText {base : String} (h : ')' ∉ base.toList)
    (function : Option FieldFunction) :
    splitFunction (base ++ functionText function) = (base, function) := by
  unfold splitFunction
  rcases function with _ | _ | _
  · have hnone : ∀ f : FieldFunction, beforeEnding? f.ending base = none := by
      intro f
      refine beforeEnding?_eq_none ?_
      rintro other rfl
      cases f <;> simp [FieldFunction.ending, FieldFunction.name] at h
    rw [functionText, String.append_empty, hnone, hnone]
  · have htext : functionText (some .length) = FieldFunction.length.ending := rfl
    rw [htext, beforeEnding?_append]
  · have htext : functionText (some .size) = FieldFunction.size.ending := rfl
    rw [htext, beforeEnding?_eq_none (append_size_ne_append_length base), beforeEnding?_append]

/-! ## Reading what is displayed -/

theorem display_eq (p : FieldPath) : p.display = p.dotted ++ functionText p.function := by
  unfold display
  rcases p.function with _ | _ | _ <;> rfl

theorem isPlain_dotted (p : FieldPath) : IsPlain p.dotted :=
  isPlain_intercalate fun s hs => (p.segments_valid s hs).isPlain

theorem dotted_ne_empty (p : FieldPath) : p.dotted ≠ "" := by
  intro h
  have hpieces := p.pieces_dotted
  rw [h] at hpieces
  exact (p.segments_valid p.root List.mem_cons_self).1 (List.cons.inj hpieces).1.symm

/-- A colon, which ends the field of a token, is in no path. -/
theorem colon_not_mem_display (p : FieldPath) : ':' ∉ p.display.toList := by
  have hdotted : ':' ∉ p.dotted.toList := p.isPlain_dotted.not_mem rfl
  rw [p.display_eq, String.toList_append, List.mem_append]
  rintro (h | h)
  · exact hdotted h
  · revert h
    rcases p.function with _ | _ | _ <;> decide

/-- A path is read from the text that it is displayed as. -/
theorem parse_display (p : FieldPath) : parse p.display = .ok p := by
  have hsplit : splitFunction p.display = (p.dotted, p.function) := by
    rw [display_eq]
    exact splitFunction_append_functionText (p.isPlain_dotted.not_mem rfl) p.function
  have hplain : p.dotted.toList.find? (fun c => !isPathChar c) = none := by
    rw [List.find?_eq_none]
    intro c hc
    have hpath : isPathChar c = true := p.isPlain_dotted c hc
    rw [hpath]
    decide
  have hempty : "" ∉ Text.pieces '.' p.dotted := by
    rw [p.pieces_dotted]
    exact fun hm => (p.segments_valid "" hm).1 rfl
  obtain ⟨hroot, hnested⟩ := List.cons.inj p.pieces_dotted
  unfold parse
  rw [hsplit]
  dsimp only
  rw [if_neg p.dotted_ne_empty]
  split
  · rename_i hc
    cases hplain.symm.trans hc
  · rw [dif_neg hempty]
    congr

/-- A text is read as a path exactly when the path is displayed as it. -/
theorem parse_eq_ok_iff {raw : String} {p : FieldPath} : parse raw = .ok p ↔ p.display = raw := by
  constructor
  · exact display_of_parse
  · rintro rfl
    exact parse_display p

/-! ## The grammar -/

theorem spells_display (p : FieldPath) : Spells p.display p.segments p.function where
  some_segment := List.cons_ne_nil _ _
  some_char s hs := (p.segments_valid s hs).1
  chars s hs c hc := isSegmentChar_iff.1 ((p.segments_valid s hs).2 c hc)
  text := p.display_eq

/-- What is written by the rules is displayed by a path. -/
theorem Spells.exists_path {raw : String} {segments : List String}
    {function : Option FieldFunction} (h : Spells raw segments function) :
    ∃ p : FieldPath, p.segments = segments ∧ p.function = function ∧ p.display = raw := by
  cases segments with
  | nil => exact absurd rfl h.some_segment
  | cons root nested =>
    have hvalid : ∀ s ∈ root :: nested, IsSegment s := fun s hs =>
      ⟨h.some_char s hs, fun c hc => isSegmentChar_iff.2 (h.chars s hs c hc)⟩
    refine ⟨⟨root, nested, function, hvalid⟩, rfl, rfl, ?_⟩
    rw [h.text, display_eq]
    rfl

/-- A text is read exactly when it is written by the rules, and then as the segments and the
function that it is written with, of which there are no others. It is displayed as it was, no other
text is read as the same path, and the segments are what stands between the points. -/
theorem path_grammar :
    (∀ raw segments function, Spells raw segments function ↔
      ∃ p, parse raw = .ok p ∧ p.segments = segments ∧ p.function = function) ∧
    (∀ raw segments others function other, Spells raw segments function →
      Spells raw others other → segments = others ∧ function = other) ∧
    (∀ raw p, parse raw = .ok p → p.display = raw ∧ Text.pieces '.' p.dotted = p.segments) ∧
    (∀ raw other p, parse raw = .ok p → parse other = .ok p → raw = other) ∧
    ∀ p : FieldPath, parse p.display = .ok p := by
  have hread : ∀ {raw segments function}, Spells raw segments function →
      ∃ p, parse raw = .ok p ∧ p.segments = segments ∧ p.function = function := by
    intro raw segments function h
    obtain ⟨p, hs, hf, hraw⟩ := h.exists_path
    exact ⟨p, parse_eq_ok_iff.2 hraw, hs, hf⟩
  refine ⟨fun raw segments function => ⟨hread, ?_⟩, ?_, ?_, ?_, parse_display⟩
  · rintro ⟨p, hp, rfl, rfl⟩
    rw [← display_of_parse hp]
    exact p.spells_display
  · intro raw segments others function other h ho
    obtain ⟨p, hp, rfl, rfl⟩ := hread h
    obtain ⟨q, hq, rfl, rfl⟩ := hread ho
    cases hp.symm.trans hq
    exact ⟨rfl, rfl⟩
  · exact fun raw p hp => ⟨display_of_parse hp, p.pieces_dotted⟩
  · intro raw other p hp ho
    exact (display_of_parse hp).symm.trans (display_of_parse ho)

/-- A segment has the name of one function and the other stands at the end: the text is a path of
two segments. With one function after the other it is no path, in whatever segments it is cut. -/
theorem path_grammar_two_functions :
    (∃ p, parse "a.length.size()" = .ok p ∧ p.segments = ["a", "length"] ∧
      p.function = some .size ∧ p.display = "a.length.size()" ∧
      Text.pieces '.' p.dotted = p.segments) ∧
    ∀ segments function, ¬Spells "a.size().length()" segments function := by
  obtain ⟨hread, _, hback, _, _⟩ := path_grammar
  have hspells : Spells "a.length.size()" ["a", "length"] (some .size) :=
    spells_display ⟨"a", ["length"], some .size, by decide⟩
  refine ⟨?_, fun segments function h => ?_⟩
  · obtain ⟨p, hp, hsegments, hfunction⟩ := (hread _ _ _).1 hspells
    obtain ⟨hdisplay, hpieces⟩ := hback _ p hp
    exact ⟨p, hp, hsegments, hfunction, hdisplay, hpieces⟩
  · obtain ⟨p, hp, _⟩ := (hread _ _ _).1 h
    have hbracket : parse "a.size().length()" =
        .error (.illegalCharacter '(' "a.size().length()") := by
      decide +kernel
    cases hbracket.symm.trans hp

end FieldPath

end RecordQuery
