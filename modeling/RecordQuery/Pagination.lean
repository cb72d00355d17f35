import RecordQuery.Dialect

/-!
# Pagination

A page request is a page index, counted from zero, and a page size, or the wish for every row.
It selects a window: the rows from `page * size` on, `size` of them. Offset and limit have to fit a
signed 64-bit integer, because that is what databases take.

1. `checkedMul_eq_some_iff`, `isSome_toInt64?_iff`: arithmetic on words that does not wrap.
2. `Pagination.ofRequest`: which requests are page requests.
3. `Pagination.window?_eq_ok_iff`, `Pagination.window?_eq_error_iff`: the window of a page is the
   product of its numbers, or the page is refused.
-/
namespace RecordQuery

/-- A page of a positive size, or every row. -/
structure Pagination where
  page : UInt64
  /-- The number of rows on a page; `none` for every row. -/
  size : Option UInt64
  deriving DecidableEq, Repr

/-- The rows of a page: how many to leave out, and how many to take. -/
structure Window where
  offset : UInt64
  limit : UInt64
  deriving DecidableEq, Repr

/-! ## Words -/

/-- The largest signed 64-bit integer. -/
def maxInt64 : Nat := 0x7fffffffffffffff

/-- The product of two words, unless it wraps. -/
def checkedMul (a b : UInt64) : Option UInt64 :=
  if (a * b).toNat = a.toNat * b.toNat then some (a * b) else none

/-- A word as a signed one, unless that is another number. -/
def toInt64? (n : UInt64) : Option Int64 :=
  if n.toInt64.toInt = n.toNat then some n.toInt64 else none

/-- A product of words is the product of their numbers. -/
theorem checkedMul_eq_some_iff {a b n : UInt64} :
    checkedMul a b = some n ↔ n.toNat = a.toNat * b.toNat := by
  have hwrapped : (a * b).toNat = a.toNat * b.toNat % UInt64.size := UInt64.toNat_mul a b
  unfold checkedMul
  rw [Option.ite_none_right_eq_some, Option.some_inj]
  constructor
  · rintro ⟨hexact, rfl⟩
    exact hexact
  · intro hn
    have hlt : a.toNat * b.toNat < UInt64.size := hn ▸ n.toNat_lt
    rw [Nat.mod_eq_of_lt hlt] at hwrapped
    exact ⟨hwrapped, UInt64.toNat_inj.1 (hwrapped.trans hn.symm)⟩

theorem isSome_toInt64?_iff {n : UInt64} : (toInt64? n).isSome = true ↔ n.toNat ≤ maxInt64 := by
  have hsigned : n.toInt64.toInt = n.toBitVec.toInt := rfl
  have hbits : n.toBitVec.toNat = n.toNat := rfl
  have hlt := n.toBitVec.isLt
  unfold toInt64? maxInt64
  rw [Option.isSome_ite, hsigned, BitVec.toInt_eq_toNat_cond, hbits]
  rw [hbits] at hlt
  split <;> omega

namespace Pagination

/-- The page size of a request that names none. -/
def defaultSize : UInt64 := 10

/-- The requested size that means every row. -/
def unpagedSize : Int64 := -1

/-- Page `page` of `size` rows; a page has rows. -/
def ofPage (page size : UInt64) : Except QueryError Pagination :=
  if size = 0 then .error (.invalidPageSize 0) else .ok ⟨page, some size⟩

def unpaged : Pagination := ⟨0, none⟩

/-- The first page of the default size. -/
def standard : Pagination := ⟨0, some defaultSize⟩

instance : Inhabited Pagination := ⟨standard⟩

/-- The page that a request asks for. The first page is meant when none is named, and the size
`standardSize` when no size is. -/
def ofRequest (page : Option UInt64) (size : Option Int64) (standardSize : UInt64) :
    Except QueryError Pagination :=
  let page := page.getD 0
  match size with
  | none => ofPage page standardSize
  | some size =>
    if size = unpagedSize then .ok ⟨page, none⟩
    else if size ≤ 0 then .error (.invalidPageSize size)
    else .ok ⟨page, some size.toUInt64⟩

def isUnpaged (p : Pagination) : Bool := p.size.isNone

/-- The offset of a page, if both it and the limit are signed words. -/
def offset? (page limit : UInt64) : Option UInt64 :=
  (checkedMul page limit).filter fun offset =>
    (toInt64? offset).isSome && (toInt64? limit).isSome

/-- The window of the page; none when every row is wanted. -/
def window? (p : Pagination) : Except QueryError (Option Window) :=
  match p.size with
  | none => .ok none
  | some limit =>
    match offset? p.page limit with
    | some offset => .ok (some ⟨offset, limit⟩)
    | none => .error (.invalidPage p.page limit)

/-- The text of the page's window in a dialect; empty when every row is wanted. -/
def sql (p : Pagination) (d : Dialect) : Except QueryError String :=
  match p.window? with
  | .error e => .error e
  | .ok none => .ok ""
  | .ok (some w) => d.window w.offset w.limit

/-! ## Windows -/

/-- Both numbers of a page's window are within the range that databases take. -/
def Fits (page size : UInt64) : Prop :=
  page.toNat * size.toNat ≤ maxInt64 ∧ size.toNat ≤ maxInt64

theorem offset?_eq_some_iff {page size offset : UInt64} :
    offset? page size = some offset ↔
      Fits page size ∧ offset.toNat = page.toNat * size.toNat := by
  unfold offset? Fits
  rw [Option.filter_eq_some_iff, checkedMul_eq_some_iff, Bool.and_eq_true, isSome_toInt64?_iff,
    isSome_toInt64?_iff]
  constructor
  · rintro ⟨hproduct, hoffset, hsize⟩
    exact ⟨⟨hproduct ▸ hoffset, hsize⟩, hproduct⟩
  · rintro ⟨⟨hoffset, hsize⟩, hproduct⟩
    exact ⟨hproduct, hproduct ▸ hoffset, hsize⟩

/-- A page whose numbers fit has an offset: the product does not wrap. -/
theorem offset?_eq_none_iff {page size : UInt64} :
    offset? page size = none ↔ ¬Fits page size := by
  rw [Option.eq_none_iff_forall_ne_some]
  constructor
  · intro h hfits
    have hlt : page.toNat * size.toNat < UInt64.size := Nat.lt_of_le_of_lt hfits.1 (by decide)
    exact h (UInt64.ofNatLT _ hlt) (offset?_eq_some_iff.2 ⟨hfits, UInt64.toNat_ofNatLT⟩)
  · intro hn offset ho
    exact hn (offset?_eq_some_iff.1 ho).1

variable {p : Pagination} {rows : UInt64}

/-- A page has the window of the product and its size, if both fit. -/
theorem window?_eq_ok_iff (h : p.size = some rows) {window : Option Window} :
    p.window? = .ok window ↔
      Fits p.page rows ∧ ∃ w, window = some w ∧
        w.offset.toNat = p.page.toNat * rows.toNat ∧ w.limit = rows := by
  unfold window?
  rw [h]
  dsimp only
  cases ho : offset? p.page rows with
  | some offset =>
    obtain ⟨hfits, hproduct⟩ := offset?_eq_some_iff.1 ho
    constructor
    · intro hw
      cases hw
      exact ⟨hfits, _, rfl, hproduct, rfl⟩
    · rintro ⟨_, w, rfl, hoffset, rfl⟩
      rw [UInt64.toNat_inj.1 (hproduct.trans hoffset.symm)]
  | none =>
    exact iff_of_false nofun fun hw => offset?_eq_none_iff.1 ho hw.1

/-- Every other page is refused with its two numbers. -/
theorem window?_eq_error_iff (h : p.size = some rows) {e : QueryError} :
    p.window? = .error e ↔ ¬Fits p.page rows ∧ e = .invalidPage p.page rows := by
  unfold window?
  rw [h]
  dsimp only
  cases ho : offset? p.page rows with
  | some offset =>
    exact iff_of_false nofun fun he => he.1 (offset?_eq_some_iff.1 ho).1
  | none =>
    rw [Except.error.injEq]
    exact ⟨fun he => ⟨offset?_eq_none_iff.1 ho, he.symm⟩, fun he => he.2.symm⟩

end Pagination

end RecordQuery
