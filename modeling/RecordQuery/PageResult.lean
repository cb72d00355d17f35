import RecordQuery.Json
import RecordQuery.Pagination

/-!
# Page results

A page of records together with the number of all records and of all pages. The number of pages is
fixed when the result is made and does not change with the records.

1. `PageResult.of`, `PageResult.ofPagination`: the result for a size, and for a page request.
2. `PageResult.toNat_countPages`: the number of pages is the quotient rounded up.
-/
namespace RecordQuery

/-- A page of records, the number of all records, the number of pages, and the size of a page. -/
structure PageResult (α : Type) where
  data : List α
  count : UInt64
  pageCount : UInt64
  pageSize : UInt64
  deriving DecidableEq, Repr

namespace PageResult

variable {α β : Type}

/-- How many pages of a size hold all records. With no size, everything is on one page, if there is
anything. -/
def countPages (count size : UInt64) : UInt64 :=
  if size = 0 then (if count = 0 then 0 else 1)
  else if count % size = 0 then count / size
  else count / size + 1

def of (data : List α) (count pageSize : UInt64) : PageResult α :=
  ⟨data, count, countPages count pageSize, pageSize⟩

/-- The page that a pagination selected. Every row makes a single page of all records. -/
def ofPagination (data : List α) (count : UInt64) (p : Pagination) : PageResult α :=
  of data count (p.size.getD count)

def map (f : α → β) (r : PageResult α) : PageResult β := { r with data := r.data.map f }

def toJson (r : PageResult Json) : Json :=
  .object [("data", .array r.data), ("count", .natural r.count.toNat),
    ("page_count", .natural r.pageCount.toNat), ("page_size", .natural r.pageSize.toNat)]

theorem toNat_pos {size : UInt64} (h : size ≠ 0) : 0 < size.toNat :=
  Nat.pos_of_ne_zero fun e => h (UInt64.toNat_inj.1 e)

/-- The number of pages is the quotient rounded up: the sum does not wrap, because a remainder
leaves room for one more. -/
theorem toNat_countPages {count size : UInt64} (h : size ≠ 0) :
    (countPages count size).toNat = (count.toNat + size.toNat - 1) / size.toNat := by
  have hs := toNat_pos h
  have hc : count.toNat < 2 ^ 64 := count.toNat_lt
  have hmod : (count % size = 0) ↔ count.toNat % size.toNat = 0 := by
    rw [← UInt64.toNat_inj]
    simp
  have hdiv : count.toNat / size.toNat * size.toNat + count.toNat % size.toNat = count.toNat := by
    rw [Nat.mul_comm]
    exact Nat.div_add_mod ..
  have hlt : count.toNat % size.toNat < size.toNat := Nat.mod_lt _ hs
  unfold countPages
  rw [if_neg h]
  -- A remainder means one page more, and the sum still fits: the quotient is below the count.
  split
  · rename_i hz
    rw [UInt64.toNat_div]
    rw [hmod.1 hz] at hdiv
    exact (Nat.div_eq_of_lt_le (by omega) (by rw [Nat.add_mul]; omega)).symm
  · rename_i hz
    have hz : count.toNat % size.toNat ≠ 0 := fun e => hz (hmod.2 e)
    have hq : count.toNat / size.toNat < count.toNat :=
      Nat.div_lt_self (by omega) (by omega)
    rw [UInt64.toNat_add, UInt64.toNat_div, Nat.mod_eq_of_lt (by simp; omega)]
    exact (Nat.div_eq_of_lt_le (by simp [Nat.add_mul]; omega)
      (by simp [Nat.add_mul]; omega)).symm

end PageResult

end RecordQuery
