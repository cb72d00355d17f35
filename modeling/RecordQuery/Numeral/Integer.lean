/-!
# Integer numerals

Reading a decimal integer into a fixed range. Digits are read from left to right and the first
fault wins: a character that is no digit is reported before the overflow that one more digit at its
place would cause.

1. `readDigits_ok_iff`: what is read is the value of the digits, and it is within the bound.
2. `readUInt64_toString`, `readInt64_toString`: an integer is read from its own digits.
-/
namespace RecordQuery.Numeral

/-- Why a text is not an integer of the wanted range. -/
inductive IntegerFault where
  | empty
  | invalidDigit
  | tooLarge
  | tooSmall
  deriving DecidableEq, Repr

def IntegerFault.message : IntegerFault → String
  | .empty => "cannot parse integer from empty string"
  | .invalidDigit => "invalid digit found in string"
  | .tooLarge => "number too large to fit in target type"
  | .tooSmall => "number too small to fit in target type"

/-- The value of an ASCII decimal digit. -/
def digit? (c : Char) : Option Nat :=
  if c.isDigit then some (c.toNat - '0'.toNat) else none

/-- Append digits to the number `acc`; a value above `bound` is the fault `beyond`. -/
def readDigits (bound : Nat) (beyond : IntegerFault) : Nat → List Char → Except IntegerFault Nat
  | acc, [] => .ok acc
  | acc, c :: cs =>
    match digit? c with
    | none => .error .invalidDigit
    | some d =>
      if bound < acc * 10 + d then .error beyond else readDigits bound beyond (acc * 10 + d) cs

/-- Read at least one digit. -/
def readMagnitude (bound : Nat) (beyond : IntegerFault) : List Char → Except IntegerFault Nat
  | [] => .error .invalidDigit
  | cs => readDigits bound beyond 0 cs

/-- Read an integer between `-(bound + 1)` and `bound`, with an optional sign. -/
def readSigned (bound : Nat) (s : String) : Except IntegerFault Int :=
  match s.toList with
  | [] => .error .empty
  | '+' :: cs => (readMagnitude bound .tooLarge cs).map Int.ofNat
  | '-' :: cs => (readMagnitude (bound + 1) .tooSmall cs).map fun n => -Int.ofNat n
  | cs => (readMagnitude bound .tooLarge cs).map Int.ofNat

/-- Read an integer between `0` and `bound`; only a plus sign may stand in front. -/
def readUnsigned (bound : Nat) (s : String) : Except IntegerFault Nat :=
  match s.toList with
  | [] => .error .empty
  | '+' :: cs => readMagnitude bound .tooLarge cs
  | cs => readMagnitude bound .tooLarge cs

def readInt32 (s : String) : Except IntegerFault Int32 :=
  (readSigned 0x7fffffff s).map Int32.ofInt

def readInt64 (s : String) : Except IntegerFault Int64 :=
  (readSigned 0x7fffffffffffffff s).map Int64.ofInt

def readUInt64 (s : String) : Except IntegerFault UInt64 :=
  (readUnsigned 0xffffffffffffffff s).map UInt64.ofNat

theorem le_ofDigitChars (cs : List Char) (acc : Nat) : acc ≤ Nat.ofDigitChars 10 cs acc := by
  induction cs generalizing acc with
  | nil => exact Nat.le_refl acc
  | cons c cs ih => exact Nat.le_trans (by omega) (ih (10 * acc + (c.toNat - '0'.toNat)))

/-- Digits are read exactly when all are digits and the number they append stays in the bound. -/
theorem readDigits_ok_iff {bound : Nat} {beyond : IntegerFault} {acc n : Nat} {cs : List Char}
    (h : acc ≤ bound) :
    readDigits bound beyond acc cs = .ok n ↔
      (∀ c ∈ cs, c.isDigit = true) ∧ Nat.ofDigitChars 10 cs acc = n ∧ n ≤ bound := by
  induction cs generalizing acc with
  | nil =>
    simp only [readDigits, Except.ok.injEq, List.not_mem_nil, false_implies, implies_true,
      true_and, Nat.ofDigitChars, List.foldl_nil]
    exact ⟨fun e => ⟨e, e ▸ h⟩, And.left⟩
  | cons c cs ih =>
    by_cases hc : c.isDigit = true
    · have hd : digit? c = some (c.toNat - '0'.toNat) := by simp [digit?, hc]
      simp only [readDigits, hd]
      have hs : Nat.ofDigitChars 10 (c :: cs) acc
          = Nat.ofDigitChars 10 cs (acc * 10 + (c.toNat - '0'.toNat)) := by
        simp [Nat.ofDigitChars, Nat.mul_comm]
      by_cases hb : bound < acc * 10 + (c.toNat - '0'.toNat)
      · simp only [hb, if_true]
        constructor
        · intro e
          cases e
        · rintro ⟨hall, rfl, hn⟩
          -- Further digits make a number no smaller, so it stays beyond the bound.
          exfalso
          rw [hs] at hn
          exact absurd (Nat.le_trans (le_ofDigitChars cs _) hn) (Nat.not_le.2 hb)
      · simp only [hb, if_false]
        rw [ih (Nat.not_lt.1 hb), hs]
        simp [hc]
    · have hd : digit? c = none := by simp [digit?, hc]
      simp [readDigits, hd, hc]

theorem readMagnitude_toDigits {bound n : Nat} (h : n ≤ bound) (beyond : IntegerFault) :
    readMagnitude bound beyond (Nat.toDigits 10 n) = .ok n := by
  have hread : readDigits bound beyond 0 (Nat.toDigits 10 n) = .ok n :=
    (readDigits_ok_iff (Nat.zero_le bound)).2
      ⟨fun _ => Nat.isDigit_of_mem_toDigits (by decide) (by decide), Nat.ofDigitChars_ten_toDigits,
        h⟩
  cases hd : Nat.toDigits 10 n with
  | nil => exact absurd hd Nat.toDigits_ne_nil
  | cons c cs => rwa [hd] at hread

/-- The digits of a number begin with no sign. -/
theorem exists_toDigits_eq (n : Nat) :
    ∃ c cs, Nat.toDigits 10 n = c :: cs ∧ c ≠ '+' ∧ c ≠ '-' := by
  cases hd : Nat.toDigits 10 n with
  | nil => exact absurd hd Nat.toDigits_ne_nil
  | cons c cs =>
    have hdigit : c.isDigit = true :=
      Nat.isDigit_of_mem_toDigits (by decide) (by decide) (hd ▸ List.mem_cons_self)
    refine ⟨c, cs, rfl, ?_, ?_⟩ <;> rintro rfl <;> cases hdigit

theorem readUnsigned_toString {bound n : Nat} (h : n ≤ bound) :
    readUnsigned bound (toString n) = .ok n := by
  obtain ⟨c, cs, hd, hplus, _⟩ := exists_toDigits_eq n
  unfold readUnsigned
  rw [← readMagnitude_toDigits h .tooLarge, Nat.toString_eq_repr, Nat.toList_repr, hd]
  split
  · contradiction
  · rename_i he
    exact absurd (List.cons.inj he).1 hplus
  · rfl

theorem readSigned_toString {bound : Nat} {n : Int} (hlow : -(bound + 1 : Int) ≤ n)
    (hhigh : n ≤ bound) : readSigned bound (toString n) = .ok n := by
  cases n with
  | ofNat n =>
    obtain ⟨c, cs, hd, hplus, hminus⟩ := exists_toDigits_eq n
    have hread := readMagnitude_toDigits (Int.ofNat_le.1 hhigh) .tooLarge
    have htext : (toString (Int.ofNat n)).toList = c :: cs := by
      rw [← hd, ← Nat.toList_repr]
      rfl
    unfold readSigned
    rw [htext]
    rw [hd] at hread
    split
    · contradiction
    · rename_i he
      exact absurd (List.cons.inj he).1 hplus
    · rename_i he
      exact absurd (List.cons.inj he).1 hminus
    · rw [hread]
      rfl
  | negSucc n =>
    have hle : n + 1 ≤ bound + 1 := by omega
    have htext : (toString (Int.negSucc n)).toList = '-' :: Nat.toDigits 10 (n + 1) := by
      show ("-" ++ Nat.repr (n + 1)).toList = _
      rw [String.toList_append, Nat.toList_repr]
      rfl
    unfold readSigned
    rw [htext]
    show (readMagnitude (bound + 1) .tooSmall (Nat.toDigits 10 (n + 1))).map _ = _
    rw [readMagnitude_toDigits hle]
    rfl

theorem readUInt64_toString (n : UInt64) : readUInt64 (toString n.toNat) = .ok n := by
  rw [readUInt64, readUnsigned_toString (Nat.le_of_lt_succ n.toNat_lt)]
  exact congrArg _ UInt64.ofNat_toNat

theorem readInt64_toString (n : Int64) : readInt64 (toString n.toInt) = .ok n := by
  rw [readInt64, readSigned_toString n.le_toInt (Int.le_of_lt_add_one n.toInt_lt)]
  exact congrArg _ (Int64.ofInt_toInt n)

end RecordQuery.Numeral
