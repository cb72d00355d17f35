/-!
# Hexadecimal digits

1. `bounds_of_hexDigit?`: the value of a digit is below 16, and the digit is an ASCII character.
-/
namespace RecordQuery.Text

/-- The value of a hexadecimal digit of either case. -/
def hexDigit? (c : Char) : Option Nat :=
  if c.isDigit then some (c.toNat - '0'.toNat)
  else if 'a' ≤ c ∧ c ≤ 'f' then some (c.toNat - 'a'.toNat + 10)
  else if 'A' ≤ c ∧ c ≤ 'F' then some (c.toNat - 'A'.toNat + 10)
  else none

/-- The digit that is written for a value has that value. -/
theorem hexDigit?_digitChar {n : Nat} (h : n < 16) : hexDigit? (Nat.digitChar n) = some n := by
  have hall : ∀ n ∈ List.range 16, hexDigit? (Nat.digitChar n) = some n := by decide
  exact hall n (List.mem_range.2 h)

/-- The value of a digit is below 16, and the digit is an ASCII character. -/
theorem bounds_of_hexDigit? {c : Char} {n : Nat} (h : hexDigit? c = some n) :
    n < 16 ∧ c.toNat < 0x80 := by
  unfold hexDigit? at h
  split at h
  · rename_i hd
    cases h
    simp only [Char.isDigit, Bool.and_eq_true, decide_eq_true_eq] at hd
    have : c.toNat ≤ 57 := hd.2
    have : '0'.toNat = 48 := rfl
    omega
  · split at h
    · rename_i hd
      cases h
      have : c.toNat ≤ 102 := hd.2
      have : 'a'.toNat = 97 := rfl
      omega
    · split at h
      · rename_i hd
        cases h
        have : c.toNat ≤ 70 := hd.2
        have : 'A'.toNat = 65 := rfl
        omega
      · cases h

theorem lt_of_hexDigit? {c : Char} {n : Nat} (h : hexDigit? c = some n) : c.toNat < 0x80 :=
  (bounds_of_hexDigit? h).2

theorem ne_of_hexDigit? {c d : Char} {n : Nat} (h : hexDigit? c = some n)
    (hd : hexDigit? d = none) : c ≠ d := by
  rintro rfl
  cases h.symm.trans hd

end RecordQuery.Text
