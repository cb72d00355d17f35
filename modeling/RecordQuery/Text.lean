/-!
# Text

Cutting a text at a separator, and lower-casing its ASCII letters.

1. `intercalate_pieces`: the pieces of a text, joined with the separator, are the text.
2. `pieces_intercalate`: pieces free of the separator come back from their joined text.
3. `cut_eq_some_iff`, `cut_eq_none_iff`: a cut is the unique split at the first separator.
-/
namespace RecordQuery.Text

/-! ## Cutting at every separator -/

/-- The characters before the first `sep`, and the runs between and after the others. -/
def splitChars (sep : Char) : List Char → List Char × List (List Char)
  | [] => ([], [])
  | c :: cs =>
    let rest := splitChars sep cs
    if c = sep then ([], rest.1 :: rest.2) else (c :: rest.1, rest.2)

/-- The first piece of `s`, which always exists, and the pieces after it. -/
def split (sep : Char) (s : String) : String × List String :=
  let parts := splitChars sep s.toList
  (String.ofList parts.1, parts.2.map String.ofList)

/-- All pieces of `s` between the separators, in order; there is at least one. -/
def pieces (sep : Char) (s : String) : List String :=
  (split sep s).1 :: (split sep s).2

theorem splitChars_of_not_mem {sep : Char} {cs : List Char} (h : sep ∉ cs) :
    splitChars sep cs = (cs, []) := by
  induction cs with
  | nil => rfl
  | cons c cs ih =>
    simp only [List.mem_cons, not_or] at h
    simp [splitChars, ih h.2, Ne.symm h.1]

theorem splitChars_append {sep : Char} {cs rest : List Char} (h : sep ∉ cs) :
    splitChars sep (cs ++ sep :: rest) =
      (cs, (splitChars sep rest).1 :: (splitChars sep rest).2) := by
  induction cs with
  | nil => simp [splitChars]
  | cons c cs ih =>
    simp only [List.mem_cons, not_or] at h
    simp [splitChars, ih h.2, Ne.symm h.1]

theorem intercalate_splitChars (sep : Char) (cs : List Char) :
    [sep].intercalate ((splitChars sep cs).1 :: (splitChars sep cs).2) = cs := by
  induction cs with
  | nil => rfl
  | cons c cs ih =>
    by_cases h : c = sep
    · subst h
      simpa [splitChars, List.intercalate_cons_cons] using ih
    · simp only [splitChars, h, if_false]
      cases hs : (splitChars sep cs).2 with
      | nil => simpa [hs] using ih
      | cons d ds =>
        rw [hs, List.intercalate_cons_cons] at ih
        rw [List.intercalate_cons_cons]
        exact congrArg (c :: ·) ih

/-- What holds of all characters but the separator holds of all characters of the pieces. -/
theorem forall_mem_splitChars {sep : Char} {P : Char → Prop} {cs : List Char}
    (h : ∀ c ∈ cs, c ≠ sep → P c) :
    ∀ p ∈ (splitChars sep cs).1 :: (splitChars sep cs).2, ∀ c ∈ p, P c := by
  induction cs with
  | nil => simp [splitChars]
  | cons c cs ih =>
    obtain ⟨hc, hcs⟩ := List.forall_mem_cons.1 h
    obtain ⟨hfirst, hrest⟩ := List.forall_mem_cons.1 (ih hcs)
    by_cases hs : c = sep
    · simpa [splitChars, hs] using And.intro hfirst hrest
    · simpa [splitChars, hs, hc hs] using And.intro hfirst hrest

theorem forall_mem_pieces {sep : Char} {P : Char → Prop} {s p : String}
    (h : ∀ c ∈ s.toList, c ≠ sep → P c) (hp : p ∈ pieces sep s) : ∀ c ∈ p.toList, P c := by
  have hc := forall_mem_splitChars h
  simp only [pieces, split, List.mem_cons, List.mem_map] at hp
  rcases hp with rfl | ⟨cs, hcs, rfl⟩
  · simpa using hc _ List.mem_cons_self
  · simpa using hc cs (List.mem_cons_of_mem _ hcs)

/-- No piece holds the separator. -/
theorem not_mem_of_mem_pieces {sep : Char} {s p : String} (h : p ∈ pieces sep s) :
    sep ∉ p.toList := fun hm =>
  forall_mem_pieces (fun _ _ hne => hne) h sep hm rfl

/-- Joining the pieces with the separator gives the text back. -/
theorem intercalate_pieces (sep : Char) (s : String) :
    (String.singleton sep).intercalate (pieces sep s) = s := by
  apply String.toList_inj.1
  simp [String.toList_intercalate, pieces, split, Function.comp_def, intercalate_splitChars]

/-- A text without the separator is its only piece. -/
theorem split_of_not_mem {sep : Char} {s : String} (h : sep ∉ s.toList) :
    split sep s = (s, []) := by
  simp [split, splitChars_of_not_mem h]

/-- The piece before a separator comes off the front. -/
theorem split_append {sep : Char} {s rest : String} (h : sep ∉ s.toList) :
    split sep (s ++ String.singleton sep ++ rest) = (s, pieces sep rest) := by
  simp [split, pieces, splitChars_append h]

/-- Pieces free of the separator come back from their joined text. -/
theorem pieces_intercalate {sep : Char} {p : String} {ps : List String}
    (h : ∀ q ∈ p :: ps, sep ∉ q.toList) :
    pieces sep ((String.singleton sep).intercalate (p :: ps)) = p :: ps := by
  induction ps generalizing p with
  | nil => simp [pieces, split_of_not_mem (h p List.mem_cons_self)]
  | cons q qs ih =>
    rw [String.intercalate_cons_cons, pieces, split_append (h p List.mem_cons_self),
      ih fun r hr => h r (List.mem_cons_of_mem _ hr)]

/-! ## Cutting at the first separator -/

/-- The characters before and after the first `sep`. -/
def cutChars (sep : Char) : List Char → Option (List Char × List Char)
  | [] => none
  | c :: cs => if c = sep then some ([], cs) else (cutChars sep cs).map fun p => (c :: p.1, p.2)

/-- The text before and the text after the first `sep`; `none` when there is no `sep`. -/
def cut (sep : Char) (s : String) : Option (String × String) :=
  (cutChars sep s.toList).map fun p => (String.ofList p.1, String.ofList p.2)

theorem cutChars_eq_some_iff {sep : Char} {cs a b : List Char} :
    cutChars sep cs = some (a, b) ↔ sep ∉ a ∧ cs = a ++ sep :: b := by
  induction cs generalizing a with
  | nil => simp [cutChars]
  | cons c cs ih =>
    by_cases h : c = sep
    · subst h
      cases a with
      | nil => simp [cutChars, eq_comm]
      | cons d a => simp +contextual [cutChars]
    · cases a with
      | nil => simp [cutChars, h]
      | cons d a =>
        simp only [cutChars, h, if_false, Option.map_eq_some_iff, Prod.mk.injEq, List.mem_cons,
          not_or, List.cons_append, List.cons.injEq]
        constructor
        · rintro ⟨⟨x, y⟩, hx, ⟨rfl, rfl⟩, rfl⟩
          have hi := ih.1 hx
          exact ⟨⟨Ne.symm h, hi.1⟩, rfl, hi.2⟩
        · rintro ⟨⟨_, ha⟩, rfl, hs⟩
          exact ⟨(a, b), ih.2 ⟨ha, hs⟩, ⟨rfl, rfl⟩, rfl⟩

theorem cutChars_eq_none_iff {sep : Char} {cs : List Char} : cutChars sep cs = none ↔ sep ∉ cs := by
  induction cs with
  | nil => simp [cutChars]
  | cons c cs ih =>
    by_cases h : c = sep
    · simp [cutChars, h]
    · simp [cutChars, h, ih, Ne.symm h]

/-- A cut is the one way to write `s` with the separator after a text that has none. -/
theorem cut_eq_some_iff {sep : Char} {s a b : String} :
    cut sep s = some (a, b) ↔ sep ∉ a.toList ∧ s = a ++ String.singleton sep ++ b := by
  constructor
  · intro h
    obtain ⟨⟨x, y⟩, hx, hp⟩ := Option.map_eq_some_iff.1 h
    simp only [Prod.mk.injEq] at hp
    obtain ⟨rfl, rfl⟩ := hp
    obtain ⟨hn, hs⟩ := cutChars_eq_some_iff.1 hx
    refine ⟨by simpa using hn, String.toList_inj.1 ?_⟩
    simpa using hs
  · rintro ⟨hn, rfl⟩
    have hx : cutChars sep (a ++ String.singleton sep ++ b).toList = some (a.toList, b.toList) :=
      cutChars_eq_some_iff.2 ⟨hn, by simp⟩
    simp only [cut, hx, Option.map_some, String.ofList_toList]

theorem cut_eq_none_iff {sep : Char} {s : String} : cut sep s = none ↔ sep ∉ s.toList := by
  simp [cut, cutChars_eq_none_iff]

/-! ## ASCII case -/

/-- The text with its ASCII capitals in lower case; every other character stays. -/
def lowerAscii (s : String) : String :=
  String.ofList (s.toList.map Char.toLower)

end RecordQuery.Text
