import RecordQuery.Proofs.Faults

/-!
# The grammar of tokens

A filter token is a path, an operator and a value with colons between them, and a sort token is a
path and a direction. Operators and directions are written in any ASCII case, literals exactly. The
parts of a text are found in one way only: neither a path nor an operator holds a colon, so what
follows the second colon is the value, with all its own colons.

1. `Text.InAnyCase`: a word with any of its letters as ASCII capitals.
2. `FilterToken.Written`, `SortToken.Written`: the texts that are tokens, and which tokens they are.
3. `FilterToken.reports_parse`: what is wrong with a text that is no filter token.
4. `token_grammar`: a text is read exactly when it is written as a token, and the canonical text of
   a token is read as that token.
-/
namespace RecordQuery

/-! ## Words and pieces of a text -/

namespace Text

/-- The ASCII capitals, each with its letter in lower case. -/
def capitals : List (Char × Char) :=
  "ABCDEFGHIJKLMNOPQRSTUVWXYZ".toList.zip "abcdefghijklmnopqrstuvwxyz".toList

/-- A word with any of its letters as ASCII capitals. -/
def InAnyCase (word raw : String) : Prop :=
  List.Forall₂ (fun c d => c = d ∨ (c, d) ∈ capitals) raw.toList word.toList

theorem mem_capitals_iff {c d : Char} : (c, d) ∈ capitals ↔ c.isUpper = true ∧ c.toLower = d := by
  constructor
  · have hall : ∀ p ∈ capitals, p.1.isUpper = true ∧ p.1.toLower = p.2 := by decide +kernel
    exact hall (c, d)
  · rintro ⟨hc, rfl⟩
    have hall : ∀ n < 128, (Char.ofNat n).isUpper = true →
        (Char.ofNat n, (Char.ofNat n).toLower) ∈ capitals := by
      decide +kernel
    have hlt : c.toNat < 128 := by
      have hrange : c.toNat ≤ 90 := (of_decide_eq_true hc).2
      omega
    simpa using hall c.toNat hlt (by simpa using hc)

theorem toLower_eq_iff {c d : Char} (hd : d.isUpper = false) :
    c.toLower = d ↔ c = d ∨ (c, d) ∈ capitals := by
  rw [mem_capitals_iff]
  by_cases hc : c.isUpper = true
  · have hne : c ≠ d := by
      rintro rfl
      exact absurd hc (Bool.eq_false_iff.1 hd)
    simp [hc, hne]
  · have hlower : c.toLower = c := by
      unfold Char.toLower
      exact dif_neg fun hrange => hc (decide_eq_true hrange)
    simp [hc, hlower]

/-- A text without ASCII capitals. -/
def IsLower (s : String) : Prop := ∀ c ∈ s.toList, c.isUpper = false

instance (s : String) : Decidable (IsLower s) := List.decidableBAll _ s.toList

/-- Lower-casing a text gives a word exactly when the text is the word in some case. -/
theorem lowerAscii_eq_iff {raw word : String} (hw : IsLower word) :
    lowerAscii raw = word ↔ InAnyCase word raw := by
  unfold IsLower at hw
  unfold lowerAscii InAnyCase
  rw [← String.toList_inj, String.toList_ofList]
  generalize raw.toList = cs, word.toList = ds at hw
  induction cs generalizing ds with
  | nil => cases ds <;> simp
  | cons c cs ih =>
    cases ds with
    | nil => simp
    | cons d ds =>
      obtain ⟨hd, hds⟩ := List.forall_mem_cons.1 hw
      rw [List.map_cons, List.cons.injEq, List.forall₂_cons, toLower_eq_iff hd, ih ds hds]

/-- A text has two pieces exactly when there is one separator in it, between them. -/
theorem split_eq_pair_iff {sep : Char} {s first second : String} :
    split sep s = (first, [second]) ↔
      s = first ++ String.singleton sep ++ second ∧ sep ∉ first.toList ∧ sep ∉ second.toList := by
  constructor
  · intro h
    have hpieces : pieces sep s = [first, second] := by
      unfold pieces
      rw [h]
    have hfree : ∀ p ∈ [first, second], sep ∉ p.toList := by
      rw [← hpieces]
      exact fun p hp => not_mem_of_mem_pieces hp
    have hs := intercalate_pieces sep s
    rw [hpieces, String.intercalate_cons_cons] at hs
    refine ⟨?_, hfree first List.mem_cons_self, hfree second (by simp)⟩
    simpa using hs.symm
  · rintro ⟨rfl, hf, hd⟩
    rw [split_append hf, pieces, split_of_not_mem hd]

theorem colon_eq : ":" = String.singleton ':' := rfl

end Text

namespace Operator

/-- The words for an operator; `<>` has two. -/
def words : Operator → List String
  | .compare .ne => ["<>", "!="]
  | o => [o.symbol]

/-- A text that is a word for the operator, in any case. -/
def WrittenAs (o : Operator) (raw : String) : Prop := ∃ word ∈ o.words, Text.InAnyCase word raw

theorem parse_eq_some_iff {raw : String} {o : Operator} :
    parse raw = some o ↔ o.WrittenAs raw := by
  have hlower : ∀ word ∈ o.words, Text.IsLower word := by
    cases o with
    | compare c => cases c <;> decide
    | _ => decide
  have hwritten : o.WrittenAs raw ↔ Text.lowerAscii raw ∈ o.words := by
    constructor
    · rintro ⟨word, hw, hraw⟩
      rwa [(Text.lowerAscii_eq_iff (hlower word hw)).2 hraw]
    · intro hw
      exact ⟨_, hw, (Text.lowerAscii_eq_iff (hlower _ hw)).1 rfl⟩
  rw [hwritten]
  unfold parse
  generalize Text.lowerAscii raw = word
  constructor
  · intro h
    split at h <;> cases h <;> decide
  · intro hw
    unfold words at hw
    split at hw
    · rcases List.mem_pair.1 hw with rfl | rfl <;> rfl
    · cases List.mem_singleton.1 hw
      cases o with
      | compare c => cases c <;> rfl
      | _ => rfl

theorem writtenAs_symbol (o : Operator) : o.WrittenAs o.symbol :=
  parse_eq_some_iff.1 (parse_symbol o)

end Operator

theorem Direction.parse_eq_some_iff {raw : String} {d : Direction} :
    parse raw = some d ↔ Text.InAnyCase d.name raw := by
  rw [← Text.lowerAscii_eq_iff (by cases d <;> decide)]
  unfold parse
  constructor
  · intro h
    split at h <;> cases h <;> assumption
  · intro h
    rw [h]
    cases d <;> rfl

theorem IsLiteral.parse_eq_none_iff {raw : String} :
    parse raw = none ↔ ∀ literal : IsLiteral, raw ≠ literal.name := by
  simp only [Option.eq_none_iff_forall_ne_some, ne_eq, parse_eq_some_iff]

/-! ## Filter tokens -/

namespace FilterToken

/-- A text in three parts with colons between them, where only the last part may hold more. -/
structure HasParts (raw field symbol value : String) : Prop where
  text : raw = field ++ ":" ++ symbol ++ ":" ++ value
  field : ':' ∉ field.toList
  symbol : ':' ∉ symbol.toList

theorem parts?_eq_some_iff {raw field symbol value : String} :
    parts? raw = some (field, symbol, value) ↔ HasParts raw field symbol value := by
  unfold parts?
  constructor
  · intro h
    split at h
    · cases h
    · rename_i f rest hcut
      obtain ⟨⟨s, v⟩, hrest, hparts⟩ := Option.map_eq_some_iff.1 h
      cases hparts
      obtain ⟨hf, rfl⟩ := Text.cut_eq_some_iff.1 hcut
      obtain ⟨hs, rfl⟩ := Text.cut_eq_some_iff.1 hrest
      refine ⟨?_, hf, hs⟩
      simp only [Text.colon_eq, String.append_assoc]
  · rintro ⟨rfl, hf, hs⟩
    have hcut : Text.cut ':' (field ++ ":" ++ symbol ++ ":" ++ value) =
        some (field, symbol ++ ":" ++ value) :=
      Text.cut_eq_some_iff.2 ⟨hf, by simp only [String.append_assoc, Text.colon_eq]⟩
    have hrest : Text.cut ':' (symbol ++ ":" ++ value) = some (symbol, value) :=
      Text.cut_eq_some_iff.2 ⟨hs, rfl⟩
    rw [hcut]
    dsimp only
    rw [hrest]
    rfl

/-- A text has parts in one way only. -/
theorem HasParts.unique {raw f s v f' s' v' : String} (h : HasParts raw f s v)
    (h' : HasParts raw f' s' v') : f = f' ∧ s = s' ∧ v = v' := by
  have heq := (parts?_eq_some_iff.2 h).symm.trans (parts?_eq_some_iff.2 h')
  simpa using heq

/-- A text has no parts exactly when it has fewer than two colons. -/
theorem parts?_eq_none_iff {raw : String} : parts? raw = none ↔ raw.toList.count ':' < 2 := by
  unfold parts?
  split
  · rename_i hcut
    have hzero := List.count_eq_zero.2 (Text.cut_eq_none_iff.1 hcut)
    simp [hzero]
  · rename_i f rest hcut
    obtain ⟨hf, rfl⟩ := Text.cut_eq_some_iff.1 hcut
    rw [Option.map_eq_none_iff, Text.cut_eq_none_iff, ← List.count_eq_zero]
    have hone : (String.singleton ':').toList.count ':' = 1 := rfl
    rw [String.toList_append, String.toList_append, List.count_append, List.count_append,
      List.count_eq_zero.2 hf, hone]
    omega

/-- A text that is written as a token: a path, an operator in any case and a value, which is the
name of a literal where the operator wants one. -/
structure Written (raw : String) (t : FilterToken) : Prop where
  parts : ∃ field symbol, HasParts raw field symbol t.value ∧ FieldPath.parse field = .ok t.path ∧
    t.operator.WrittenAs symbol
  literal : t.operator = .is → ∃ literal : IsLiteral, t.value = literal.name
  raw : t.raw = raw

/-- A text is read as a token exactly when it is written as that token. -/
theorem parse_eq_ok_iff_written {raw : String} {t : FilterToken} :
    parse raw = .ok t ↔ Written raw t := by
  rw [parse_eq_ok_iff]
  constructor
  · rintro ⟨field, symbol, _, hparts, hpath, hop, rfl, hraw, hlit⟩
    refine ⟨⟨field, symbol, parts?_eq_some_iff.1 hparts, hpath, Operator.parse_eq_some_iff.1 hop⟩,
      fun his => ?_, hraw⟩
    by_contra hno
    exact hlit ⟨his, IsLiteral.parse_eq_none_iff.2 (not_exists.1 hno)⟩
  · rintro ⟨⟨field, symbol, hparts, hpath, hop⟩, hlit, hraw⟩
    refine ⟨field, symbol, _, parts?_eq_some_iff.2 hparts, hpath, Operator.parse_eq_some_iff.2 hop,
      rfl, hraw, ?_⟩
    rintro ⟨his, hnone⟩
    obtain ⟨literal, hname⟩ := hlit his
    exact IsLiteral.parse_eq_none_iff.1 hnone literal hname

/-- What can be wrong with a text that is no filter token, in the order in which it is looked for:
it has too few colons, or its first part is no path; its second part is no operator; its value is
no literal where the operator wants one. -/
def parseFaults (raw : String) : List (QueryError → Prop) :=
  [fun e => raw.toList.count ':' < 2 ∧
      e = .malformedToken .filter raw "expected <field>:<operator>:<value>",
    fun e => ∃ field symbol value fault, HasParts raw field symbol value ∧
      FieldPath.parse field = .error fault ∧ e = .malformedToken .filter raw fault.message,
    fun e => ∃ field symbol value, HasParts raw field symbol value ∧
      (∀ operator : Operator, ¬operator.WrittenAs symbol) ∧ e = .unknownOperator raw symbol,
    fun e => ∃ field symbol value, HasParts raw field symbol value ∧
      Operator.is.WrittenAs symbol ∧ (∀ literal : IsLiteral, value ≠ literal.name) ∧
      e = .invalidIsLiteral raw value]

/-- The first thing that is wrong with a text is reported, and nothing else. -/
theorem reports_parse (raw : String) : Reports (parse raw) (InTurn (parseFaults raw)) := by
  unfold parse parseFaults
  cases hp : parts? raw with
  | none => exact .inTurn_here (fun e => and_iff_right (parts?_eq_none_iff.1 hp)) _
  | some parts =>
    obtain ⟨field, symbol, value⟩ := parts
    have hparts := parts?_eq_some_iff.1 hp
    have hcount : ¬raw.toList.count ':' < 2 := by
      rw [← parts?_eq_none_iff, hp]
      nofun
    refine .inTurn_later (fun e he => hcount he.1) ?_
    dsimp only [parsePath]
    cases hf : FieldPath.parse field with
    | error fault =>
      refine .inTurn_here (fun e => ⟨?_, fun he => ⟨_, _, _, _, hparts, hf, he⟩⟩) _
      rintro ⟨_, _, _, _, hother, hfault, rfl⟩
      obtain ⟨rfl, _, _⟩ := hparts.unique hother
      cases hf.symm.trans hfault
      rfl
    | ok path =>
      refine .inTurn_later ?_ ?_
      · rintro e ⟨_, _, _, _, hother, hfault, _⟩
        obtain ⟨rfl, _, _⟩ := hparts.unique hother
        cases hf.symm.trans hfault
      dsimp only
      cases ho : Operator.parse symbol with
      | none =>
        have hnone : ∀ operator : Operator, ¬operator.WrittenAs symbol := fun operator hw => by
          cases ho.symm.trans (Operator.parse_eq_some_iff.2 hw)
        refine .inTurn_here (fun e => ⟨?_, fun he => ⟨_, _, _, hparts, hnone, he⟩⟩) _
        rintro ⟨_, _, _, hother, _, rfl⟩
        obtain ⟨_, rfl, _⟩ := hparts.unique hother
        rfl
      | some operator =>
        have hwritten := Operator.parse_eq_some_iff.1 ho
        refine .inTurn_later ?_ ?_
        · rintro e ⟨_, _, _, hother, hnone, _⟩
          obtain ⟨_, rfl, _⟩ := hparts.unique hother
          exact hnone operator hwritten
        dsimp only
        split
        · rename_i hlit
          obtain ⟨rfl, hnone⟩ := hlit
          refine .inTurn_here (fun e => ⟨?_, fun he =>
            ⟨_, _, _, hparts, hwritten, IsLiteral.parse_eq_none_iff.1 hnone, he⟩⟩) _
          rintro ⟨_, _, _, hother, _, _, rfl⟩
          obtain ⟨_, _, rfl⟩ := hparts.unique hother
          rfl
        · rename_i hlit
          refine .inTurn_later ?_ (.ok _ (firstFault_nil _))
          rintro e ⟨_, _, _, hother, his, hno, _⟩
          obtain ⟨_, rfl, rfl⟩ := hparts.unique hother
          cases ho.symm.trans (Operator.parse_eq_some_iff.2 his)
          exact hlit ⟨rfl, IsLiteral.parse_eq_none_iff.2 hno⟩

/-- The canonical text of a field without colons is read as the token of the same parts. -/
theorem ofParts_eq_ok_iff {field value : String} {operator : Operator} {t : FilterToken}
    (hfield : ':' ∉ field.toList) :
    ofParts field operator value = .ok t ↔
      FieldPath.parse field = .ok t.path ∧ t.operator = operator ∧ t.value = value ∧
      (operator = .is → ∃ literal : IsLiteral, value = literal.name) ∧
      t.raw = canonical field operator value := by
  have hparts : HasParts (canonical field operator value) field operator.symbol value := by
    refine ⟨rfl, hfield, ?_⟩
    cases operator with
    | compare c => cases c <;> decide
    | _ => decide
  unfold ofParts
  rw [parse_eq_ok_iff_written]
  constructor
  · rintro ⟨⟨_, _, hother, hpath, hop⟩, hlit, hraw⟩
    obtain ⟨rfl, rfl, hvalue⟩ := hparts.unique hother
    have hoperator : t.operator = operator := by
      rw [← Operator.parse_eq_some_iff, Operator.parse_symbol] at hop
      exact (Option.some.inj hop).symm
    rw [hoperator, ← hvalue] at hlit
    exact ⟨hpath, hoperator, hvalue.symm, hlit, hraw⟩
  · rintro ⟨hpath, rfl, rfl, hlit, hraw⟩
    exact ⟨⟨field, _, hparts, hpath, t.operator.writtenAs_symbol⟩, hlit, hraw⟩

/-- What is read from a text is read again from its canonical text, whose own canonical text is the
same. -/
theorem Written.exists_ofParts {raw : String} {t : FilterToken} (h : Written raw t) :
    ∃ u, ofParts t.path.display t.operator t.value = .ok u ∧
      u.path = t.path ∧ u.operator = t.operator ∧ u.value = t.value ∧
      ofParts u.path.display u.operator u.value = .ok u := by
  obtain ⟨⟨field, symbol, hparts, hpath, hop⟩, hlit, hraw⟩ := h
  rw [FieldPath.display_of_parse hpath]
  have hu : ofParts field t.operator t.value =
      .ok ⟨t.path, t.operator, t.value, canonical field t.operator t.value⟩ :=
    (ofParts_eq_ok_iff hparts.field).2 ⟨hpath, rfl, rfl, hlit, rfl⟩
  refine ⟨_, hu, rfl, rfl, rfl, ?_⟩
  dsimp only
  rwa [FieldPath.display_of_parse hpath]

end FilterToken

/-! ## Sort tokens -/

namespace SortToken

/-- A text that is written as a token: a path and a direction in any case, with the only colon
between them. -/
structure Written (raw : String) (t : SortToken) : Prop where
  parts : ∃ field direction, raw = field ++ ":" ++ direction ∧ ':' ∉ field.toList ∧
    ':' ∉ direction.toList ∧ FieldPath.parse field = .ok t.path ∧
    Text.InAnyCase t.direction.name direction
  raw : t.raw = raw

theorem parse_eq_ok_iff_written {raw : String} {t : SortToken} :
    parse raw = .ok t ↔ Written raw t := by
  unfold parse
  constructor
  · intro h
    split at h
    · rename_i field direction hsplit
      obtain ⟨hraw, hf, hd⟩ := Text.split_eq_pair_iff.1 hsplit
      unfold FilterToken.parsePath at h
      cases hp : FieldPath.parse field with
      | error fault => simp [hp] at h
      | ok path =>
        cases hdir : Direction.parse direction with
        | none => simp [hp, hdir] at h
        | some d =>
          simp only [hp, hdir, Except.ok.injEq] at h
          subst h
          exact ⟨⟨field, direction, hraw, hf, hd, hp, Direction.parse_eq_some_iff.1 hdir⟩, rfl⟩
    · cases h
  · rintro ⟨⟨field, direction, htext, hf, hd, hpath, hdir⟩, hraw⟩
    have hsplit : Text.split ':' raw = (field, [direction]) :=
      Text.split_eq_pair_iff.2 ⟨htext, hf, hd⟩
    rw [hsplit]
    dsimp only [FilterToken.parsePath]
    rw [hpath]
    dsimp only
    rw [Direction.parse_eq_some_iff.2 hdir, ← hraw]

/-- What is read from a text is read again from its canonical text. -/
theorem Written.exists_ofParts {raw : String} {t : SortToken} (h : Written raw t) :
    ∃ u, ofParts t.path.display t.direction = .ok u ∧ u.path = t.path ∧
      u.direction = t.direction := by
  obtain ⟨⟨field, direction, _, hf, _, hpath, _⟩, _⟩ := h
  have hname : ':' ∉ t.direction.name.toList := by
    cases t.direction <;> decide
  have hcase : Text.InAnyCase t.direction.name t.direction.name :=
    Direction.parse_eq_some_iff.1 (Direction.parse_name t.direction)
  rw [FieldPath.display_of_parse hpath]
  exact ⟨⟨t.path, t.direction, canonical field t.direction⟩,
    parse_eq_ok_iff_written.2 ⟨⟨field, _, rfl, hf, hname, hpath, hcase⟩, rfl⟩, rfl, rfl⟩

end SortToken

/-! ## The law -/

/-- Filter tokens and sort tokens are read exactly as they are written, from parts that are found in
one way only; the first thing that is wrong with a filter token is reported; and the canonical text
of what was read is read as the same, again and again. -/
theorem token_grammar :
    (∀ raw t, FilterToken.parse raw = .ok t ↔ FilterToken.Written raw t) ∧
    (∀ raw f s v f' s' v', FilterToken.HasParts raw f s v → FilterToken.HasParts raw f' s' v' →
      f = f' ∧ s = s' ∧ v = v') ∧
    (∀ raw e, FilterToken.parse raw = .error e ↔ InTurn (FilterToken.parseFaults raw) e) ∧
    (∀ raw t, FilterToken.parse raw = .ok t →
      ∃ u, FilterToken.ofParts t.path.display t.operator t.value = .ok u ∧
        u.path = t.path ∧ u.operator = t.operator ∧ u.value = t.value ∧
        FilterToken.ofParts u.path.display u.operator u.value = .ok u) ∧
    (∀ raw t, SortToken.parse raw = .ok t ↔ SortToken.Written raw t) ∧
    ∀ raw t, SortToken.parse raw = .ok t →
      ∃ u, SortToken.ofParts t.path.display t.direction = .ok u ∧
        u.path = t.path ∧ u.direction = t.direction := by
  refine ⟨fun raw t => FilterToken.parse_eq_ok_iff_written, ?_, FilterToken.reports_parse, ?_,
    fun raw t => SortToken.parse_eq_ok_iff_written, ?_⟩
  · exact fun _ _ _ _ _ _ _ h h' => h.unique h'
  · exact fun raw t h => (FilterToken.parse_eq_ok_iff_written.1 h).exists_ofParts
  · exact fun raw t h => (SortToken.parse_eq_ok_iff_written.1 h).exists_ofParts

/-- An operator and a direction in mixed case, and a value with a colon of its own: the canonical
texts differ from what was read, and are read as the same parts. Of a field and an operator that are
both wrong, the field is reported. -/
theorem token_grammar_mixed :
    (∃ t, FilterToken.parse "zip.length():iN:10:30;x" = .ok t ∧
      FilterToken.Written "zip.length():iN:10:30;x" t ∧
      ∃ u, FilterToken.ofParts t.path.display t.operator t.value = .ok u ∧
        u.path = t.path ∧ u.operator = .isIn ∧ u.value = "10:30;x") ∧
    InTurn (FilterToken.parseFaults "z ip:~:1") (.malformedToken .filter "z ip:~:1"
      "illegal character ` ` in field name `z ip`") ∧
    ∃ t, SortToken.parse "zip:DeSC" = .ok t ∧ SortToken.Written "zip:DeSC" t ∧
      ∃ u, SortToken.ofParts t.path.display t.direction = .ok u ∧ u.direction = .descending := by
  obtain ⟨hwritten, _, hfaults, hagain, hsorted, hsortedAgain⟩ := token_grammar
  refine ⟨?_, (hfaults _ _).1 (by decide +kernel), ?_⟩
  · have h : FilterToken.parse "zip.length():iN:10:30;x" =
        .ok ⟨⟨"zip", [], some .length, by decide⟩, .isIn, "10:30;x",
          "zip.length():iN:10:30;x"⟩ := by
      decide +kernel
    obtain ⟨u, hu, hpath, hoperator, hvalue, _⟩ := hagain _ _ h
    exact ⟨_, h, (hwritten _ _).1 h, u, hu, hpath, hoperator, hvalue⟩
  · have h : SortToken.parse "zip:DeSC" =
        .ok ⟨⟨"zip", [], none, by decide⟩, .descending, "zip:DeSC"⟩ := by
      decide +kernel
    obtain ⟨u, hu, _, hdirection⟩ := hsortedAgain _ _ h
    exact ⟨_, h, (hsorted _ _).1 h, u, hu, hdirection⟩

end RecordQuery
