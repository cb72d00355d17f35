import Mathlib.Order.Bounds.Defs
import Mathlib.Order.Interval.Set.Basic
import RecordQuery.PageResult

/-!
# Pages of all rows

The pages that a result announces are the pages that can be asked for. Each of them has a window,
and the rows of their windows, one page after the other, are all rows, each of them once.

Both sides rest on one fact: a page is announced exactly when its first row is there.

1. `PageResult.lt_countPages_iff`: the announced pages are those whose first row is there.
2. `Pagination.isWindow_iff`: the pages that have a window, and the window.
3. `PageResult.pages_partition_rows`: the announced pages partition the rows.
-/
namespace RecordQuery

/-! ## Rows of a window -/

namespace Window

/-- Where the rows of a window end, of `count` rows in all. -/
def stop (w : Window) (count : UInt64) : Nat := min (w.offset.toNat + w.limit.toNat) count.toNat

/-- The rows of a window, of `count` rows in all, numbered from zero. -/
def rows (w : Window) (count : UInt64) : Set Nat := Set.Ico w.offset.toNat (w.stop count)

theorem mem_rows {w : Window} {count : UInt64} {row : Nat} :
    row ∈ w.rows count ↔
      w.offset.toNat ≤ row ∧ row < w.offset.toNat + w.limit.toNat ∧ row < count.toNat := by
  simp [rows, stop]

end Window

namespace Pagination

/-- The page of a size has a window. -/
def IsWindow (page size : UInt64) (w : Window) : Prop :=
  (ofPage page size).bind window? = .ok (some w)

/-- A page has the window of `size` rows from row `page * size` on, if both numbers fit. -/
theorem isWindow_iff {page size : UInt64} {w : Window} :
    IsWindow page size w ↔
      size ≠ 0 ∧ page.toNat * size.toNat ≤ maxInt64 ∧ size.toNat ≤ maxInt64 ∧
        w.offset.toNat = page.toNat * size.toNat ∧ w.limit = size := by
  unfold IsWindow ofPage
  by_cases hs : size = 0
  · simp [hs, Except.bind]
  · rw [if_neg hs]
    show window? ⟨page, some size⟩ = .ok (some w) ↔ _
    rw [window?_eq_ok_iff rfl]
    constructor
    · rintro ⟨hfits, _, hw, hoffset, hlimit⟩
      cases hw
      exact ⟨hs, hfits.1, hfits.2, hoffset, hlimit⟩
    · rintro ⟨_, hproduct, hsize, hoffset, hlimit⟩
      exact ⟨⟨hproduct, hsize⟩, w, rfl, hoffset, hlimit⟩

end Pagination

namespace PageResult

open Pagination

/-- The announced pages are those whose first row is there. -/
theorem lt_countPages_iff {count size : UInt64} (hs : size ≠ 0) {page : Nat} :
    page < (countPages count size).toNat ↔ page * size.toNat < count.toNat := by
  have hpos := toNat_pos hs
  rw [toNat_countPages hs, Nat.lt_iff_add_one_le, Nat.le_div_iff_mul_le hpos, Nat.add_mul]
  omega

/-- The number of pages is the least that leaves no row out. -/
theorem isLeast_countPages {count size : UInt64} (hs : size ≠ 0) :
    IsLeast {n : Nat | count.toNat ≤ n * size.toNat} (countPages count size).toNat := by
  constructor
  · exact Nat.not_lt.1 (mt (lt_countPages_iff hs).2 (Nat.lt_irrefl _))
  · intro n hn
    exact Nat.not_lt.1 fun hlt => Nat.not_le.2 ((lt_countPages_iff hs).1 hlt) hn

/-- The first `n` pages of a size are a partition of `count` rows. -/
structure Partitions (count size n : UInt64) : Prop where
  /-- No page is refused. -/
  exists_window : ∀ page < n, ∃ w, IsWindow page size w
  nonempty : ∀ page < n, ∀ w, IsWindow page size w → (w.rows count).Nonempty
  /-- A page ends where the next one begins. -/
  consecutive : ∀ page next, next < n → next.toNat = page.toNat + 1 →
    ∀ v w, IsWindow page size v → IsWindow next size w → v.stop count = w.offset.toNat
  disjoint : ∀ page < n, ∀ other < n, page ≠ other →
    ∀ v w, IsWindow page size v → IsWindow other size w → ∀ row ∈ v.rows count, row ∉ w.rows count
  /-- The rows of the pages are all rows. -/
  covers : {row | ∃ page < n, ∃ w, IsWindow page size w ∧ row ∈ w.rows count} =
    Set.Ico 0 count.toNat
  /-- A later page has no rows, if it has a window at all. -/
  beyond : ∀ page, n ≤ page → ∀ w, IsWindow page size w → w.rows count = ∅

variable {count size : UInt64}

/-- The page of a row is the quotient of its number by the size. -/
theorem mem_rows_iff {page : UInt64} {w : Window} (hw : IsWindow page size w) {row : Nat} :
    row ∈ w.rows count ↔ row / size.toNat = page.toNat ∧ row < count.toNat := by
  obtain ⟨hs, _, _, hoffset, rfl⟩ := isWindow_iff.1 hw
  have hpos := toNat_pos hs
  rw [Window.mem_rows, hoffset, Nat.div_eq_iff hpos]
  omega

theorem isWindow_of_lt (hs : size ≠ 0) (hcount : count.toNat ≤ maxInt64)
    (hsize : size.toNat ≤ maxInt64) {page : UInt64} (hp : page < countPages count size) :
    IsWindow page size ⟨UInt64.ofNat (page.toNat * size.toNat), size⟩ := by
  -- The first row is there, so its number is within the limit that the count keeps to.
  have hrow := (lt_countPages_iff hs).1 (UInt64.lt_iff_toNat_lt.1 hp)
  have hfits : page.toNat * size.toNat ≤ maxInt64 := Nat.le_trans (Nat.le_of_lt hrow) hcount
  refine isWindow_iff.2 ⟨hs, hfits, hsize, ?_, rfl⟩
  exact UInt64.toNat_ofNat_of_lt (Nat.lt_of_le_of_lt hfits (by decide))

/-- A page that has a row is announced. -/
theorem lt_countPages_of_mem {page : UInt64} {w : Window} (hw : IsWindow page size w) {row : Nat}
    (hrow : row ∈ w.rows count) : page < countPages count size := by
  obtain ⟨hs, _⟩ := isWindow_iff.1 hw
  obtain ⟨hpage, hlt⟩ := (mem_rows_iff hw).1 hrow
  rw [UInt64.lt_iff_toNat_lt, lt_countPages_iff hs, ← hpage]
  exact Nat.lt_of_le_of_lt (Nat.div_mul_le_self row _) hlt

/-- The announced pages partition the rows, as long as the numbers of rows fit. -/
theorem partitions_countPages (hs : size ≠ 0) (hcount : count.toNat ≤ maxInt64)
    (hsize : size.toNat ≤ maxInt64) : Partitions count size (countPages count size) where
  exists_window page hp := ⟨_, isWindow_of_lt hs hcount hsize hp⟩
  nonempty page hp w hw := by
    have hrow := (lt_countPages_iff hs).1 (UInt64.lt_iff_toNat_lt.1 hp)
    exact ⟨_, (mem_rows_iff hw).2 ⟨Nat.mul_div_cancel _ (toNat_pos hs), hrow⟩⟩
  consecutive page next hn hnext v w hv hw := by
    obtain ⟨_, _, _, hvo, rfl⟩ := isWindow_iff.1 hv
    obtain ⟨_, _, _, hwo, _⟩ := isWindow_iff.1 hw
    -- The next page has a row, so this one is full.
    have hrow := (lt_countPages_iff hs).1 (UInt64.lt_iff_toNat_lt.1 hn)
    rw [hnext, Nat.succ_mul] at hrow hwo
    unfold Window.stop
    omega
  disjoint page _ other _ hne v w hv hw row hrow hother := by
    refine hne (UInt64.toNat_inj.1 ?_)
    exact ((mem_rows_iff hv).1 hrow).1.symm.trans ((mem_rows_iff hw).1 hother).1
  covers := by
    refine Set.Subset.antisymm ?_ fun row hrow => ?_
    · rintro row ⟨page, _, w, hw, hrow⟩
      exact ⟨Nat.zero_le row, ((mem_rows_iff hw).1 hrow).2⟩
    · have hlt : row < count.toNat := hrow.2
      have hpage : (UInt64.ofNat (row / size.toNat)).toNat = row / size.toNat :=
        UInt64.toNat_ofNat_of_lt (Nat.lt_of_le_of_lt (Nat.div_le_self row _)
          (Nat.lt_trans hlt count.toNat_lt))
      have hp : UInt64.ofNat (row / size.toNat) < countPages count size := by
        rw [UInt64.lt_iff_toNat_lt, hpage, lt_countPages_iff hs]
        exact Nat.lt_of_le_of_lt (Nat.div_mul_le_self row _) hlt
      have hw := isWindow_of_lt hs hcount hsize hp
      exact ⟨_, hp, _, hw, (mem_rows_iff hw).2 ⟨hpage.symm, hlt⟩⟩
  beyond page hp w hw := by
    refine Set.eq_empty_iff_forall_notMem.2 fun row hrow => ?_
    exact UInt64.not_lt.2 hp (lt_countPages_of_mem hw hrow)

/-- The announced pages partition the rows, and no fewer pages would hold them. -/
theorem pages_partition_rows (hs : size ≠ 0) :
    IsLeast {n : Nat | count.toNat ≤ n * size.toNat} (countPages count size).toNat ∧
    (count.toNat ≤ maxInt64 → size.toNat ≤ maxInt64 →
      Partitions count size (countPages count size)) :=
  ⟨isLeast_countPages hs, partitions_countPages hs⟩

/-- Eleven rows make three pages of five, of which the last has one row. -/
theorem pages_partition_rows_eleven :
    (5 : UInt64) ≠ 0 ∧ countPages 11 5 = 3 ∧
    IsLeast {n : Nat | 11 ≤ n * 5} 3 ∧ Partitions 11 5 3 := by
  obtain ⟨hleast, hpages⟩ := @pages_partition_rows 11 5 (by decide)
  exact ⟨by decide, by decide, hleast, hpages (by decide) (by decide)⟩

end PageResult

end RecordQuery
