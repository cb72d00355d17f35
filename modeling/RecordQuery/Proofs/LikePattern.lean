import Mathlib.Data.List.Infix
import RecordQuery.Proofs.ClauseText

/-!
# What patterns match

How a database reads the pattern of a `LIKE`, and which texts fit it. A `%` stands for any text and
a `_` for any character; where there are classes, a `[` opens one; after an escape, a character
stands for itself. So what a client searches for has to be escaped, or parts of it would be read as
wildcards, and an escape left at its end would take away the wildcard after it.

1. `Like.parts?`: how a pattern is read. `Like.fits`: the texts that its parts stand for.
2. `Like.parts?_escapeChars`: escaped text is read as the text itself.
3. `Like.fits_around`: with wildcards around it, a text stands for those that contain it.
4. `Compiler.like_finds_containing`: a `like` condition finds exactly the texts with the value in
   them.
-/
namespace RecordQuery

namespace Like

/-! ## Reading a pattern -/

/-- How a database reads patterns. -/
structure Rules where
  /-- The character after which a character stands for itself. -/
  escape : Option Char
  /-- Whether a `[` opens a class of characters. -/
  classes : Bool
  /-- Whether two characters count as the same, as when case does not matter. -/
  same : Char → Char → Bool

/-- What one character of a text is compared with. -/
inductive CharTest where
  | literal (character : Char)
  | anyChar
  /-- A character in one of the ranges, or in none of them. -/
  | oneOf (negated : Bool) (ranges : List (Char × Char))
  deriving DecidableEq, Repr

/-- What a part of a pattern stands for. -/
inductive Part where
  | char (test : CharTest)
  | anyText
  deriving DecidableEq, Repr

/-- The ranges that a class lists; a character by itself is a range too. -/
def ranges : List Char → List (Char × Char)
  | first :: '-' :: last :: rest => (first, last) :: ranges rest
  | c :: rest => (c, c) :: ranges rest
  | [] => []

/-- The class of the characters between two brackets, or of all others after a `^`. -/
def classOf : List Char → CharTest
  | '^' :: members => .oneOf true (ranges members)
  | members => .oneOf false (ranges members)

/-- Where a reader of a pattern stands. -/
inductive Place where
  | outside
  | afterEscape
  /-- Inside a class, after some of its characters. -/
  | inClass (members : List Char)

/-- The parts of a pattern. It has none when it ends after an escape or inside a class. -/
def parts? (rules : Rules) : Place → List Char → Option (List Part)
  | .outside, [] => some []
  | .afterEscape, [] => none
  | .inClass _, [] => none
  | .afterEscape, c :: rest => (parts? rules .outside rest).map (.char (.literal c) :: ·)
  | .inClass members, c :: rest =>
    if c = ']' then (parts? rules .outside rest).map (.char (classOf members) :: ·)
    else parts? rules (.inClass (members ++ [c])) rest
  | .outside, c :: rest =>
    if rules.escape = some c then parts? rules .afterEscape rest
    else if c = '%' then (parts? rules .outside rest).map (.anyText :: ·)
    else if c = '_' then (parts? rules .outside rest).map (.char .anyChar :: ·)
    else if c = '[' ∧ rules.classes = true then parts? rules (.inClass []) rest
    else (parts? rules .outside rest).map (.char (.literal c) :: ·)

/-! ## Texts that fit -/

def CharTest.accepts (same : Char → Char → Bool) : CharTest → Char → Bool
  | .literal c, d => same c d
  | .anyChar, _ => true
  | .oneOf negated ranges, d => (ranges.any fun r => r.1 ≤ d && d ≤ r.2) != negated

/-- Whether parts stand for a text; for a wildcard every text is tried that is left of it. -/
def fits (same : Char → Char → Bool) : List Part → List Char → Bool
  | [], s => s.isEmpty
  | .anyText :: rest, s => s.tails.any (fits same rest)
  | .char _ :: _, [] => false
  | .char test :: rest, c :: s => test.accepts same c && fits same rest s

/-- Whether a text fits a pattern; there is no answer for a pattern that cannot be read. -/
def test? (rules : Rules) (pattern text : String) : Option Bool :=
  (parts? rules .outside pattern.toList).map (fits rules.same · text.toList)

/-- The parts of a pattern without wildcards. -/
def literals (cs : List Char) : List Part := cs.map fun c => .char (.literal c)

theorem fits_anyText {same : Char → Char → Bool} {rest : List Part} {s : List Char} :
    fits same (.anyText :: rest) s = true ↔ ∃ front back, s = front ++ back ∧
      fits same rest back = true := by
  simp only [fits, List.any_eq_true, List.mem_tails]
  constructor
  · rintro ⟨back, ⟨front, rfl⟩, hb⟩
    exact ⟨front, back, rfl, hb⟩
  · rintro ⟨front, back, rfl, hb⟩
    exact ⟨back, List.suffix_append front back, hb⟩

/-- Where only equal characters count as the same, a text without wildcards stands for itself. -/
theorem fits_literals_append {cs s : List Char} {rest : List Part} :
    fits (· == ·) (literals cs ++ rest) s = true ↔ ∃ back, s = cs ++ back ∧
      fits (· == ·) rest back = true := by
  induction cs generalizing s with
  | nil => simp [literals]
  | cons c cs ih =>
    cases s with
    | nil => simp [literals, fits]
    | cons d s =>
      have hstep : fits (· == ·) (literals (c :: cs) ++ rest) (d :: s) =
          ((c == d) && fits (· == ·) (literals cs ++ rest) s) := rfl
      rw [hstep, Bool.and_eq_true, ih, beq_iff_eq]
      constructor
      · rintro ⟨rfl, back, rfl, hb⟩
        exact ⟨back, rfl, hb⟩
      · rintro ⟨back, hs, hb⟩
        cases hs
        exact ⟨rfl, back, rfl, hb⟩

/-- With wildcards around it, a text stands for the texts that contain it. -/
theorem fits_around {cs s : List Char} :
    fits (· == ·) (.anyText :: (literals cs ++ [.anyText])) s = true ↔ cs <:+: s := by
  rw [fits_anyText]
  constructor
  · rintro ⟨front, rest, rfl, hr⟩
    obtain ⟨back, rfl, _⟩ := fits_literals_append.1 hr
    exact ⟨front, back, List.append_assoc front cs back⟩
  · rintro ⟨front, back, rfl⟩
    refine ⟨front, cs ++ back, List.append_assoc front cs back, fits_literals_append.2 ?_⟩
    exact ⟨back, rfl, fits_anyText.2 ⟨back, [], (List.append_nil back).symm, rfl⟩⟩

/-! ## Escaped text -/

/-- The rules of a `LIKE` that names the escape character. -/
def Rules.escaping (classes : Bool) (same : Char → Char → Bool) : Rules :=
  ⟨some escapeChar, classes, same⟩

/-- Escaped text is read as the text itself, whatever comes after it. -/
theorem parts?_escapeChars {rules : Rules} (h : rules.escape = some escapeChar)
    (cs rest : List Char) :
    parts? rules .outside (escapeChars cs ++ rest) =
      (parts? rules .outside rest).map (literals cs ++ ·) := by
  induction cs with
  | nil => simp [escapeChars, literals]
  | cons c cs ih =>
    -- What is read first is the character itself, with or without an escape before it.
    have hstep : parts? rules .outside (escapeChars (c :: cs) ++ rest) =
        (parts? rules .outside (escapeChars cs ++ rest)).map (.char (.literal c) :: ·) := by
      by_cases hc : isSpecial c = true
      · have hs : escapeChars (c :: cs) ++ rest = escapeChar :: c :: (escapeChars cs ++ rest) := by
          simp [escapeChars, hc]
        rw [hs, parts?, if_pos h, parts?]
      · have hs : escapeChars (c :: cs) ++ rest = c :: (escapeChars cs ++ rest) := by
          simp [escapeChars, hc]
        simp only [isSpecial, Bool.or_eq_true, beq_iff_eq, not_or] at hc
        obtain ⟨⟨⟨he, hp⟩, hu⟩, hb⟩ := hc
        rw [hs, parts?, if_neg (by rw [h]; exact fun hn => he (Option.some.inj hn).symm), if_neg hp,
          if_neg hu, if_neg (fun hn => hb hn.1)]
    rw [hstep, ih, Option.map_map]
    rfl

/-- A pattern of two wildcards and a middle that is read as a text is read as that text between
wildcards. -/
theorem parts?_around {rules : Rules} {middle cs : List Char} (hne : rules.escape ≠ some '%')
    (h : ∀ rest, parts? rules .outside (middle ++ rest) =
      (parts? rules .outside rest).map (literals cs ++ ·)) :
    parts? rules .outside ('%' :: (middle ++ ['%'])) =
      some (.anyText :: (literals cs ++ [.anyText])) := by
  have hend : parts? rules .outside ['%'] = some [.anyText] := by
    rw [parts?, if_neg hne, if_pos rfl, parts?, Option.map_some]
  rw [parts?, if_neg hne, if_pos rfl, h, hend, Option.map_some, Option.map_some]

/-- An escaped pattern is a wildcard, the text itself and a wildcard: nothing of the text is read as
anything else, and the escape before its last character does not reach the wildcard after it. -/
theorem parts?_pattern {rules : Rules} (h : rules.escape = some escapeChar) (raw : String) :
    parts? rules .outside (pattern raw true).toList =
      some (.anyText :: (literals raw.toList ++ [.anyText])) := by
  have hlist : (pattern raw true).toList = '%' :: (escapeChars raw.toList ++ ['%']) := by
    simp [pattern, escape]
  rw [hlist]
  exact parts?_around (by rw [h]; decide) (parts?_escapeChars h raw.toList)

theorem literals_injective {cs ds : List Char} (h : literals cs = literals ds) : cs = ds := by
  refine List.map_injective_iff.2 ?_ h
  intro c d hcd
  cases hcd
  rfl

/-- Different texts are escaped differently. -/
theorem escape_injective : Function.Injective escape := by
  intro s t h
  have hcs : escapeChars s.toList = escapeChars t.toList := String.ofList_injective h
  -- Reading the escaped text gives the text back.
  have hread : ∀ cs, parts? (.escaping true (· == ·)) .outside (escapeChars cs) =
      some (literals cs) := by
    intro cs
    have := @parts?_escapeChars (.escaping true (· == ·)) rfl cs []
    simpa [parts?] using this
  have hsome := hread s.toList
  rw [hcs, hread] at hsome
  exact String.toList_inj.1 (literals_injective (Option.some.inj hsome)).symm

/-- A text fits an escaped pattern exactly when the escaped text is a part of it. -/
theorem test?_pattern_iff (classes : Bool) (raw s : String) :
    test? (.escaping classes (· == ·)) (pattern raw true) s = some true ↔
      ∃ before after, s = before ++ raw ++ after := by
  unfold test?
  rw [parts?_pattern rfl, Option.map_some, Option.some.injEq]
  refine fits_around.trans ?_
  constructor
  · rintro ⟨front, back, hs⟩
    refine ⟨.ofList front, .ofList back, String.toList_inj.1 ?_⟩
    simpa using hs.symm
  · rintro ⟨before, after, rfl⟩
    exact ⟨before.toList, after.toList, by simp⟩

/-! ## Text that needs no escape -/

/-- A text in which no character means anything in a pattern, whatever the database. -/
def IsPlainText (s : String) : Prop := ∀ c ∈ s.toList, c ∉ ['%', '_', '!', '[', '\\']

instance (s : String) : Decidable (IsPlainText s) := List.decidableBAll _ s.toList

/-- Without an escape, or with a backslash for it, plain text is read as the text itself too. -/
theorem parts?_pattern_plain {rules : Rules} (h : rules.escape = none ∨ rules.escape = some '\\')
    {raw : String} (hraw : IsPlainText raw) :
    parts? rules .outside (pattern raw false).toList =
      some (.anyText :: (literals raw.toList ++ [.anyText])) := by
  have hplain : ∀ c, c ∉ ['%', '_', '!', '[', '\\'] → ∀ rest, parts? rules .outside (c :: rest) =
      (parts? rules .outside rest).map (.char (.literal c) :: ·) := by
    intro c hc rest
    simp only [List.mem_cons, List.not_mem_nil, or_false, not_or] at hc
    obtain ⟨hp, hu, _, hb, hs⟩ := hc
    have he : ¬rules.escape = some c := by
      rcases h with hn | hn
      · rw [hn]
        exact nofun
      · rw [hn]
        exact fun hsc => hs (Option.some.inj hsc).symm
    rw [parts?, if_neg he, if_neg hp, if_neg hu, if_neg fun hbc => hb hbc.1]
  have hlist : (pattern raw false).toList = '%' :: (raw.toList ++ ['%']) := by
    simp [pattern]
  rw [hlist]
  refine parts?_around (by rcases h with hn | hn <;> rw [hn] <;> decide) fun rest => ?_
  unfold IsPlainText at hraw
  generalize raw.toList = cs at hraw
  induction cs with
  | nil => simp [literals]
  | cons c cs ih =>
    obtain ⟨hc, hcs⟩ := List.forall_mem_cons.1 hraw
    rw [List.cons_append, hplain c hc, ih hcs, Option.map_map]
    rfl

end Like

namespace Compiler

/-- A `like` condition is written with the escape named, and binds the escaped pattern. -/
theorem compileText_like {c : Compiler} {t : FilterToken} {allowed : NameSet} {qualifier : String}
    {clause : Clause} (ht : t.operator = .like)
    (h : c.compileText ⟨[t], allowed⟩ qualifier = .ok clause) :
    ∃ names, Access.Columns c.shape.fields allowed t.path names ∧
      clause = ⟨"WHERE " ++ (columnText t.path.function qualifier names ++ " LIKE ? ESCAPE '!'"),
        [.text (Like.pattern t.value true)]⟩ := by
  obtain ⟨plan, hp, rfl⟩ := compileText_eq_ok_iff.1 h
  obtain ⟨p, _, htp, hnil, rfl⟩ := List.forall₂_cons_left_iff.1 (planFilters_eq_ok_iff.1 hp).2
  cases hnil
  refine ⟨p.field.columns, htp.plansField.columns, ?_⟩
  have hreads := htp.reads
  rw [ht] at hreads
  have hsql := htp.sql_eq qualifier
  cases ho : p.operand with
  | like raw =>
    rw [ho] at hreads hsql
    cases hreads
    show Clause.mk ("WHERE " ++ " AND ".intercalate [p.sql qualifier]) (p.operand.values ++ []) = _
    rw [String.intercalate_singleton, hsql, ho, String.append_assoc]
    rfl
  | compare _ _ | isIn _ | is _ =>
    rw [ho] at hreads
    cases hreads

/-- A `like` condition finds exactly the texts with the value in them. It binds the escaped pattern
of the value and names the escape; the texts that fit this pattern are those that contain the
value, whether or not the database has classes of characters. No part of the value is read as
anything but itself, the wildcard at the end is read as one, and different values are escaped
differently. -/
theorem like_finds_containing :
    (∀ (c : Compiler) (t : FilterToken) (allowed : NameSet) (qualifier : String) (clause : Clause),
      t.operator = .like → c.compileText ⟨[t], allowed⟩ qualifier = .ok clause →
      ∃ names, Access.Columns c.shape.fields allowed t.path names ∧
        clause = ⟨"WHERE " ++ (columnText t.path.function qualifier names ++ " LIKE ? ESCAPE '!'"),
          [.text (Like.pattern t.value true)]⟩) ∧
    (∀ (classes : Bool) (raw s : String),
      Like.test? (.escaping classes (· == ·)) (Like.pattern raw true) s = some true ↔
        ∃ before after, s = before ++ raw ++ after) ∧
    (∀ (rules : Like.Rules) (raw : String), rules.escape = some '!' →
      Like.parts? rules .outside (Like.pattern raw true).toList =
        some (.anyText :: (Like.literals raw.toList ++ [.anyText]))) ∧
    Function.Injective Like.escape :=
  ⟨fun _ _ _ _ _ => compileText_like, Like.test?_pattern_iff, fun _ raw h => Like.parts?_pattern h raw,
    Like.escape_injective⟩

/-- A value that ends in an escape, after a wildcard: the text that has it is found, and one that it
would stand for as a pattern is not. -/
theorem like_finds_containing_wildcard :
    (∃ clause, Sample.compiler.compileText
        ⟨[⟨Sample.tenantKey, .like, "50%!", ""⟩], NameSet.ofList ["tenant"]⟩ "p." = .ok clause ∧
      clause.text = "WHERE p.tenant.key LIKE ? ESCAPE '!'" ∧
      clause.values = [.text "%50!%!!%"]) ∧
    Like.test? (.escaping true (· == ·)) "%50!%!!%" "up 50%!" = some true ∧
    Like.test? (.escaping true (· == ·)) "%50!%!!%" "up 500!" ≠ some true := by
  obtain ⟨hclause, htest, _, _⟩ := like_finds_containing
  refine ⟨?_, (htest true "50%!" "up 50%!").2 ⟨"up ", "", by decide⟩, ?_⟩
  · obtain ⟨clause, hc⟩ : ∃ clause, Sample.compiler.compileText
        ⟨[⟨Sample.tenantKey, .like, "50%!", ""⟩], NameSet.ofList ["tenant"]⟩ "p." = .ok clause :=
      ⟨_, rfl⟩
    obtain ⟨names, hn, rfl⟩ := hclause Sample.compiler _ _ _ clause rfl hc
    have hkey := @Access.columns_of_ofPath Sample.people.fields (NameSet.ofList ["tenant"])
      Sample.tenantKey "" ⟨"", Sample.tenantKey, ["tenant", "key"], none⟩ rfl rfl
    cases hn.unique hkey
    exact ⟨_, hc, rfl, rfl⟩
  · intro h
    obtain ⟨before, after, hs⟩ := (htest true "50%!" "up 500!").1 h
    have hmem : '%' ∈ (before ++ "50%!" ++ after).toList := by simp
    rw [← hs] at hmem
    exact absurd hmem (by decide)

end Compiler

end RecordQuery
