import RecordQuery.Numeral.Integer
import RecordQuery.Proofs.Backends

/-!
# Page requests

A page request names a page and a size, or leaves them to the standards. Which requests are refused,
which ask for every row and which for a page depends on one integer, the size that is asked for. The
window of a page is the product of its two numbers, or the page is refused: no product wraps. What
the window says arrives in the text and on the select.

The sizes come from two ranges. A requested size is signed and a standard one is not, so they are
compared as integers; offsets are compared as natural numbers, where the product is exact.

1. `Pagination.ofRequest_eq_error_iff`, `Pagination.ofRequest_eq_ok_iff`: requests by their size.
2. `Dialect.readWindow_of_window`: a written window is read back.
3. `Pagination.requests_exact`: what becomes of a request.
-/
namespace RecordQuery

/-! ## Sizes -/

/-- A positive signed number is the same number without a sign. -/
theorem toNat_toUInt64 {n : Int64} (h : 0 < n.toInt) : (n.toUInt64.toNat : Int) = n.toInt := by
  have hbits : n.toUInt64.toNat = n.toBitVec.toNat := rfl
  have hint : n.toInt = n.toBitVec.toInt := rfl
  rw [hint] at h ⊢
  rw [hbits]
  rw [BitVec.toInt_eq_toNat_cond] at h ⊢
  have hlt := n.toBitVec.isLt
  split at h
  · rename_i hsmall
    rw [if_pos hsmall]
  · omega

namespace Pagination

/-- The size that a request asks for, where `standardSize` is meant when none is named. -/
def askedSize (size : Option Int64) (standardSize : UInt64) : Int :=
  match size with
  | none => standardSize.toNat
  | some size => size.toInt

/-- A page has rows, and of the negative sizes only that for every row has a meaning. -/
def RefusesSize (size : Int) : Prop := size = 0 ∨ size < 0 ∧ size ≠ -1

variable {page : Option UInt64} {size : Option Int64} {standardSize : UInt64}

theorem askedSize_eq_neg_one_iff : askedSize size standardSize = -1 ↔ size = some unpagedSize := by
  cases size with
  | none =>
    refine iff_of_false ?_ nofun
    show (standardSize.toNat : Int) ≠ -1
    omega
  | some size =>
    have hmark : unpagedSize.toInt = -1 := rfl
    show size.toInt = -1 ↔ some size = some unpagedSize
    rw [Option.some_inj, ← Int64.toInt_inj, hmark]

/-- The three ways a request can go, by the size it asks for. -/
theorem ofRequest_cases (page : Option UInt64) (size : Option Int64) (standardSize : UInt64) :
    (RefusesSize (askedSize size standardSize) ∧
      ofRequest page size standardSize = .error (.invalidPageSize (size.getD 0))) ∨
    (askedSize size standardSize = -1 ∧
      ofRequest page size standardSize = .ok ⟨page.getD 0, none⟩) ∨
    (∃ s : UInt64, 0 < askedSize size standardSize ∧ (s.toNat : Int) = askedSize size standardSize ∧
      ofRequest page size standardSize = .ok ⟨page.getD 0, some s⟩) := by
  cases size with
  | none =>
    show _ ∨ _ ∨ ∃ s : UInt64, 0 < (standardSize.toNat : Int) ∧ _
    by_cases hs : standardSize = 0
    · subst hs
      exact .inl ⟨.inl rfl, rfl⟩
    · have hpos : 0 < standardSize.toNat := Nat.pos_of_ne_zero fun h => hs (UInt64.toNat_inj.1 h)
      exact .inr (.inr ⟨standardSize, by omega, rfl, if_neg hs⟩)
  | some size =>
    by_cases hmark : size = unpagedSize
    · subst hmark
      exact .inr (.inl ⟨rfl, rfl⟩)
    · have hne : size.toInt ≠ -1 := fun h => hmark (Int64.toInt_inj.1 h)
      have hle : size ≤ 0 ↔ size.toInt ≤ 0 := Int64.le_iff_toInt_le
      by_cases hs : size ≤ 0
      · refine .inl ⟨?_, ?_⟩
        · show size.toInt = 0 ∨ size.toInt < 0 ∧ size.toInt ≠ -1
          have := hle.1 hs
          omega
        · simp only [ofRequest, if_neg hmark, if_pos hs]
          rfl
      · have hpos : 0 < size.toInt := Int.not_le.1 (mt hle.2 hs)
        refine .inr (.inr ⟨size.toUInt64, hpos, toNat_toUInt64 hpos, ?_⟩)
        simp only [ofRequest, if_neg hmark, if_neg hs]

/-- A request is refused for its size only, and the refusal names the size that was requested. -/
theorem ofRequest_eq_error_iff {e : QueryError} :
    ofRequest page size standardSize = .error e ↔
      RefusesSize (askedSize size standardSize) ∧ e = .invalidPageSize (size.getD 0) := by
  rcases ofRequest_cases page size standardSize with ⟨hr, h⟩ | ⟨hm, h⟩ | ⟨s, hpos, _, h⟩
  · rw [h, Except.error.injEq]
    exact ⟨fun he => ⟨hr, he.symm⟩, fun he => he.2.symm⟩
  · refine iff_of_false (h ▸ nofun) ?_
    unfold RefusesSize
    omega
  · refine iff_of_false (h ▸ nofun) ?_
    unfold RefusesSize
    omega

/-- A request that is not refused asks for every row, or for a page of the size it names. -/
theorem ofRequest_eq_ok_iff {p : Pagination} :
    ofRequest page size standardSize = .ok p ↔
      p.page = page.getD 0 ∧
      ((p.size = none ∧ askedSize size standardSize = -1) ∨
        ∃ s, p.size = some s ∧ 0 < s.toNat ∧ (s.toNat : Int) = askedSize size standardSize) := by
  obtain ⟨number, rows⟩ := p
  rcases ofRequest_cases page size standardSize with ⟨hr, h⟩ | ⟨hm, h⟩ | ⟨s, hpos, hs, h⟩
  · refine iff_of_false (h ▸ nofun) ?_
    unfold RefusesSize at hr
    rintro ⟨_, ⟨_, hm⟩ | ⟨s, _, hpos, hs⟩⟩ <;> omega
  · rw [h, Except.ok.injEq, Pagination.mk.injEq]
    constructor
    · rintro ⟨rfl, rfl⟩
      exact ⟨rfl, .inl ⟨rfl, hm⟩⟩
    · rintro ⟨hp, ⟨hn, _⟩ | ⟨s, _, _, hs⟩⟩
      · exact ⟨hp.symm, hn.symm⟩
      · omega
  · rw [h, Except.ok.injEq, Pagination.mk.injEq]
    constructor
    · rintro ⟨rfl, rfl⟩
      exact ⟨rfl, .inr ⟨s, rfl, by omega, hs⟩⟩
    · rintro ⟨hp, ⟨_, hm⟩ | ⟨t, ht, _, hts⟩⟩
      · omega
      · have hst : s = t := UInt64.toNat_inj.1 (Int.ofNat.inj (hs.trans hts.symm))
        exact ⟨hp.symm, hst ▸ ht.symm⟩

/-! ## Windows -/

/-- A product beyond 64 bits fits nowhere. -/
theorem not_fits_of_wraps {page size : UInt64} (h : UInt64.size ≤ page.toNat * size.toNat) :
    ¬Fits page size := by
  intro hfits
  have hmax : maxInt64 < UInt64.size := by decide
  exact Nat.not_le.2 hmax (Nat.le_trans h hfits.1)

end Pagination

/-! ## Reading a window -/

/-- The window of an offset and a limit that are written in digits. -/
def Window.ofDigits (offset limit : String) : Option Window :=
  match Numeral.readUInt64 offset, Numeral.readUInt64 limit with
  | .ok offset, .ok limit => some ⟨offset, limit⟩
  | _, _ => none

namespace Dialect

/-- The window that the words of a text select in a dialect; `none` when they are no window. -/
def windowOfWords (d : Dialect) (words : List String) : Option Window :=
  match d with
  | .postgres | .mySql | .mariaDb | .sqlite | .h2 =>
    match words with
    | ["LIMIT", limit, "OFFSET", offset] => Window.ofDigits offset limit
    | _ => none
  | .oracle | .sqlServer =>
    match words with
    | ["OFFSET", offset, "ROWS", "FETCH", "NEXT", limit, "ROWS", "ONLY"] =>
      Window.ofDigits offset limit
    | _ => none
  | .db2 =>
    match words with
    | ["OFFSET", offset, "ROWS", "FETCH", "FIRST", limit, "ROWS", "ONLY"] =>
      Window.ofDigits offset limit
    | _ => none
  | .other => none

/-- The window that a text selects in a dialect. -/
def readWindow (d : Dialect) (text : String) : Option Window :=
  d.windowOfWords (Text.pieces ' ' text)

end Dialect

theorem space_not_mem_toString (n : Nat) : ' ' ∉ (toString n).toList := by
  rw [Nat.toString_eq_repr, Nat.toList_repr]
  intro h
  exact absurd (Nat.isDigit_of_mem_toDigits (by decide) (by decide) h) (by decide)

theorem Window.ofDigits_toString (w : Window) :
    Window.ofDigits (toString w.offset.toNat) (toString w.limit.toNat) = some w := by
  unfold ofDigits
  rw [Numeral.readUInt64_toString, Numeral.readUInt64_toString]

namespace Dialect

section Words

variable {offset limit : String} (ho : ' ' ∉ offset.toList) (hl : ' ' ∉ limit.toList)

include ho hl

theorem pieces_limit : Text.pieces ' ' ("LIMIT " ++ limit ++ " OFFSET " ++ offset) =
    ["LIMIT", limit, "OFFSET", offset] := by
  have hwords := @Text.pieces_intercalate ' ' "LIMIT" [limit, "OFFSET", offset] (by simp [ho, hl])
  rw [← hwords]
  refine congrArg _ (String.toList_inj.1 ?_)
  simp [String.intercalate_cons_cons]

theorem pieces_fetch {first : String} (hf : ' ' ∉ first.toList) :
    Text.pieces ' ' ("OFFSET " ++ offset ++ (" ROWS FETCH " ++ first ++ " ") ++ limit ++
      " ROWS ONLY") = ["OFFSET", offset, "ROWS", "FETCH", first, limit, "ROWS", "ONLY"] := by
  have hwords := @Text.pieces_intercalate ' ' "OFFSET"
    [offset, "ROWS", "FETCH", first, limit, "ROWS", "ONLY"] (by simp [ho, hl, hf])
  rw [← hwords]
  refine congrArg _ (String.toList_inj.1 ?_)
  simp [String.intercalate_cons_cons]

end Words

/-- A written window is read back, each number from its own place. -/
theorem readWindow_of_window {d : Dialect} {w : Window} {text : String}
    (h : d.window w.offset w.limit = .ok text) : d.readWindow text = some w := by
  have hoffset := space_not_mem_toString w.offset.toNat
  have hlimit := space_not_mem_toString w.limit.toNat
  have hread := w.ofDigits_toString
  unfold readWindow
  cases d with
  | postgres | mySql | mariaDb | sqlite | h2 =>
    cases h
    rw [pieces_limit hoffset hlimit]
    exact hread
  | oracle | sqlServer =>
    cases h
    have hnext : ' ' ∉ "NEXT".toList := by decide
    rw [show " ROWS FETCH NEXT " = " ROWS FETCH " ++ "NEXT" ++ " " from rfl,
      pieces_fetch hoffset hlimit hnext]
    exact hread
  | db2 =>
    cases h
    have hfirst : ' ' ∉ "FIRST".toList := by decide
    rw [show " ROWS FETCH FIRST " = " ROWS FETCH " ++ "FIRST" ++ " " from rfl,
      pieces_fetch hoffset hlimit hfirst]
    exact hread
  | other => cases h

end Dialect

namespace Pagination

/-- The window of a page is its exact product, and a page without one is refused. -/
structure MultipliesExactly (p : Pagination) : Prop where
  unpaged : p.isUnpaged = true → p.window? = .ok none
  window : ∀ rows, p.size = some rows → ∀ window, p.window? = .ok window ↔
    Fits p.page rows ∧ ∃ w, window = some w ∧
      w.offset.toNat = p.page.toNat * rows.toNat ∧ w.limit = rows
  refused : ∀ rows, p.size = some rows → ∀ e, p.window? = .error e ↔
    ¬Fits p.page rows ∧ e = .invalidPage p.page rows
  /-- In particular, a product that needs more than 64 bits is not cut to them. -/
  wraps : ∀ rows, p.size = some rows → UInt64.size ≤ p.page.toNat * rows.toNat →
    p.window? = .error (.invalidPage p.page rows)

/-- The text of a page in a dialect says what its window is. -/
structure WritesWindow (p : Pagination) (d : Dialect) : Prop where
  error_iff : ∀ e, p.sql d = .error e ↔ p.window? = .error e
  reads_back : ∀ text, p.sql d = .ok text → p.window? = .ok (d.readWindow text)

/-- What was made of a select has the window of a page, and its text ends with the window. -/
structure SetsWindow (p : Pagination) (select : Select) (result : Except QueryError Select) :
    Prop where
  error_iff : ∀ e, result = .error e ↔ p.window? = .error e
  keeps : p.window? = .ok none → ∃ made, result = .ok made ∧ made.window = select.window
  sets : ∀ w, p.window? = .ok (some w) → ∃ made, result = .ok made ∧ made.window = some w ∧
    ∀ db, ∃ front, made.pieces db = front ++ [.text " LIMIT ", .bound (.uint64 w.limit),
      .text " OFFSET ", .bound (.uint64 w.offset)]

variable (p : Pagination)

theorem multipliesExactly : p.MultipliesExactly where
  unpaged := window?_of_isUnpaged
  window _ h _ := window?_eq_ok_iff h
  refused _ h _ := window?_eq_error_iff h
  wraps _ h hwraps := (window?_eq_error_iff h).2 ⟨not_fits_of_wraps hwraps, rfl⟩

theorem writesWindow {d : Dialect} (hd : d ≠ .other) : p.WritesWindow d where
  error_iff := p.failsLike_sql hd
  reads_back text h := by
    unfold sql at h
    split at h
    · cases h
    · rename_i hw
      cases h
      rw [hw]
      cases d <;> rfl
    · rename_i w hw
      rw [hw, Dialect.readWindow_of_window h]

/-- Where its conditions and its order are compiled, a request fails for its page only. -/
theorem setsWindow {filter : FilterSpec} {sort : SortSpec} {c : Compiler} {source : Source}
    {condition : Condition} {terms : List OrderTerm}
    (hf : c.compileCondition filter source = .ok condition)
    (hs : c.compileOrder sort source = .ok terms) (select : Select) :
    p.SetsWindow select ((ListQuery.mk filter sort p).apply c source select) := by
  have happly : (ListQuery.mk filter sort p).apply c source select =
      p.window?.map ((select.filter condition).orderBy terms).page := by
    unfold ListQuery.apply
    rw [hf, hs]
    rfl
  rw [happly]
  constructor
  · intro e
    cases p.window? with
    | error _ => exact failsLike_error _ e
    | ok _ => exact failsLike_ok _ _ e
  · intro hw
    rw [hw]
    exact ⟨_, rfl, rfl⟩
  · intro w hw
    rw [hw]
    exact ⟨_, rfl, rfl, fun _ => ⟨_, rfl⟩⟩

/-- What becomes of a page request: which are refused, which ask for every row, the window of the
others, and where the window is found. -/
theorem requests_exact (page : Option UInt64) (size : Option Int64) (standardSize : UInt64) :
    (∀ e, ofRequest page size standardSize = .error e ↔
      RefusesSize (askedSize size standardSize) ∧ e = .invalidPageSize (size.getD 0)) ∧
    ∀ p, ofRequest page size standardSize = .ok p →
      p.page = page.getD 0 ∧
      (p.isUnpaged = true ↔ size = some (-1)) ∧
      (∀ rows, p.size = some rows → (rows.toNat : Int) = askedSize size standardSize) ∧
      p.MultipliesExactly ∧
      (∀ d, d ≠ Dialect.other → p.WritesWindow d) ∧
      ∀ (filter : FilterSpec) (sort : SortSpec) (c : Compiler) (source : Source)
        (condition : Condition) (terms : List OrderTerm) (select : Select),
        c.compileCondition filter source = .ok condition →
        c.compileOrder sort source = .ok terms →
        p.SetsWindow select ((ListQuery.mk filter sort p).apply c source select) := by
  refine ⟨fun e => ofRequest_eq_error_iff, fun p h => ?_⟩
  obtain ⟨hpage, hsize⟩ := ofRequest_eq_ok_iff.1 h
  refine ⟨hpage, ?_, ?_, p.multipliesExactly, fun d hd => p.writesWindow hd,
    fun filter sort c source condition terms select hf hs => p.setsWindow hf hs select⟩
  · show p.size.isNone = true ↔ size = some unpagedSize
    rw [Option.isNone_iff_eq_none, ← @askedSize_eq_neg_one_iff size standardSize]
    rcases hsize with ⟨hnone, hmark⟩ | ⟨s, hs, hpos, hasked⟩
    · exact iff_of_true hnone hmark
    · refine iff_of_false (hs ▸ nofun) ?_
      omega
  · intro rows hrows
    rcases hsize with ⟨hnone, _⟩ | ⟨s, hs, _, hasked⟩
    · exact nomatch hnone.symm.trans hrows
    · cases hs.symm.trans hrows
      exact hasked

/-- The fourth page of fifteen rows starts at row 45, in the text of a dialect and on a select; a
page whose product does not fit is refused, and so is a size of minus five. -/
theorem requests_exact_fourth_page :
    (∃ p, ofRequest (some 3) (some 15) 10 = .ok p ∧ p.window? = .ok (some ⟨45, 15⟩) ∧
      Dialect.db2.readWindow "OFFSET 45 ROWS FETCH FIRST 15 ROWS ONLY" = some ⟨45, 15⟩ ∧
      ∃ made, (ListQuery.mk Sample.conditions Sample.order p).apply Sample.compiler Sample.source
        Sample.select = .ok made ∧ made.window = some ⟨45, 15⟩) ∧
    (∃ p, ofRequest (some 0x8000000000000000) none 2 = .ok p ∧
      p.window? = .error (.invalidPage 0x8000000000000000 2)) ∧
    ofRequest none (some (-5)) 10 = .error (.invalidPageSize (-5)) := by
  refine ⟨⟨_, rfl, ?_⟩, ⟨_, rfl, ?_⟩, ?_⟩
  · obtain ⟨_, _, _, hproduct, hwrites, hsets⟩ := (requests_exact (some 3) (some 15) 10).2 _ rfl
    have hw := (hproduct.window 15 rfl (some ⟨45, 15⟩)).2
      ⟨⟨by decide, by decide⟩, _, rfl, by decide, rfl⟩
    have hread := (hwrites .db2 (by decide)).reads_back _ rfl
    obtain ⟨made, hmade, hset, _⟩ := (hsets Sample.conditions Sample.order Sample.compiler
      Sample.source _ _ Sample.select rfl rfl).sets _ hw
    exact ⟨hw, Except.ok.inj (hread.symm.trans hw), made, hmade, hset⟩
  · obtain ⟨_, _, _, hproduct, _⟩ := (requests_exact (some 0x8000000000000000) none 2).2 _ rfl
    exact hproduct.wraps 2 rfl (by decide)
  · exact ((requests_exact none (some (-5)) 10).1 _).2 ⟨.inr ⟨by decide, by decide⟩, rfl⟩

end Pagination

end RecordQuery
