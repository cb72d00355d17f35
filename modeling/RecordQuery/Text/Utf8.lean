/-!
# UTF-8

Text as bytes, and bytes as text. Bytes that are no text are replaced: one replacement character
stands for each run that begins a character and is broken off, and one for each byte that begins
none. A run is broken off by the first byte that cannot continue it, and that byte is read anew.

1. `decode_encode`: the bytes of a text are read as that text.
-/
namespace RecordQuery.Text.Utf8

/-- What stands for bytes that are no text. -/
def replacement : Char := '\ufffd'

/-- A character of several bytes that has begun: the bits so far, the range of the byte to come, and
the ranges of those after it. -/
structure Begun where
  bits : Nat
  next : Nat × Nat
  later : List (Nat × Nat)
  deriving DecidableEq, Repr

/-- The range of a byte that continues a character. -/
def continuation : Nat × Nat := (0x80, 0xbf)

/-- The character that a first byte begins. The range of the second byte leaves out what has a
shorter form, the surrogates, and what lies behind the last code point. -/
def begin? (b : Nat) : Option Begun :=
  if b < 0xc2 then none
  else if b < 0xe0 then some ⟨b - 0xc0, continuation, []⟩
  else if b < 0xf0 then
    some ⟨b - 0xe0, (if b = 0xe0 then 0xa0 else 0x80, if b = 0xed then 0x9f else 0xbf),
      [continuation]⟩
  else if b < 0xf5 then
    some ⟨b - 0xf0, (if b = 0xf0 then 0x90 else 0x80, if b = 0xf4 then 0x8f else 0xbf),
      [continuation, continuation]⟩
  else none

/-- A byte where no character has begun: what it adds to the text, and what it begins. -/
def start (b : Nat) : List Char × Option Begun :=
  if b < 0x80 then ([Char.ofNat b], none)
  else match begin? b with
    | some begun => ([], some begun)
    | none => ([replacement], none)

/-- A byte after a character has begun or not. -/
def advance : Option Begun → Nat → List Char × Option Begun
  | none, b => start b
  | some ⟨bits, (low, high), later⟩, b =>
    if low ≤ b ∧ b ≤ high then
      let bits := bits * 64 + (b - 0x80)
      match later with
      | [] => ([Char.ofNat bits], none)
      | next :: later => ([], some ⟨bits, next, later⟩)
    else (replacement :: (start b).1, (start b).2)

/-- The text of bytes after a character has begun or not. -/
def decodeFrom : Option Begun → List UInt8 → List Char
  | none, [] => []
  | some _, [] => [replacement]
  | begun, b :: rest => (advance begun b.toNat).1 ++ decodeFrom (advance begun b.toNat).2 rest

/-- The text of bytes, with replacements for what is none. -/
def decode (bytes : List UInt8) : String := String.ofList (decodeFrom none bytes)

def encode (s : String) : List UInt8 := s.toList.flatMap String.utf8EncodeChar

theorem decodeFrom_cons (begun : Option Begun) (b : UInt8) (rest : List UInt8) :
    decodeFrom begun (b :: rest) =
      (advance begun b.toNat).1 ++ decodeFrom (advance begun b.toNat).2 rest := by
  cases begun <;> rfl

theorem toNat_byte {n : Nat} (h : n < 256) : (UInt8.ofNat n).toNat = n := by
  simpa using Nat.mod_eq_of_lt h

/-- An ASCII character is one byte. -/
theorem encodeChar_of_lt {c : Char} (h : c.toNat < 0x80) :
    String.utf8EncodeChar c = [UInt8.ofNat c.toNat] := by
  have hle : c.val.toNat ≤ 0x7f := Nat.le_of_lt_succ h
  unfold String.utf8EncodeChar
  exact if_pos hle

/-- A byte in its range adds six bits, and more are to come. -/
theorem advance_more {bits low high b : Nat} {next : Nat × Nat} {later : List (Nat × Nat)}
    (h : low ≤ b ∧ b ≤ high) :
    advance (some ⟨bits, (low, high), next :: later⟩) b =
      ([], some ⟨bits * 64 + (b - 0x80), next, later⟩) := by
  simp [advance, h]

/-- The last byte of a character, in its range, finishes it. -/
theorem advance_last {bits low high b : Nat} (h : low ≤ b ∧ b ≤ high) :
    advance (some ⟨bits, (low, high), []⟩) b = ([Char.ofNat (bits * 64 + (b - 0x80))], none) := by
  simp [advance, h]

theorem start_two {v : Nat} (h : 0x7f < v) (h' : v ≤ 0x7ff) :
    start (v / 64 % 32 + 192) = ([], some ⟨v / 64, continuation, []⟩) := by
  have : v / 64 % 32 + 192 - 0xc0 = v / 64 := by omega
  simp only [start, begin?, this]
  grind

theorem start_three {v : Nat} (h : 0x7ff < v) (h' : v ≤ 0xffff) (hs : v < 0xd800 ∨ 0xdfff < v) :
    ∃ low high, start (v / 4096 % 16 + 224) = ([], some ⟨v / 4096, (low, high), [continuation]⟩) ∧
      low ≤ v / 64 % 64 + 128 ∧ v / 64 % 64 + 128 ≤ high := by
  refine ⟨if v / 4096 % 16 + 224 = 0xe0 then 0xa0 else 0x80,
    if v / 4096 % 16 + 224 = 0xed then 0x9f else 0xbf, ?_, ?_, ?_⟩
  · have : v / 4096 % 16 + 224 - 0xe0 = v / 4096 := by omega
    simp only [start, begin?, this]
    grind
  · split <;> omega
  · split <;> omega

theorem start_four {v : Nat} (h : 0xffff < v) (h' : v < 0x110000) :
    ∃ low high, start (v / 262144 % 8 + 240) =
        ([], some ⟨v / 262144, (low, high), [continuation, continuation]⟩) ∧
      low ≤ v / 4096 % 64 + 128 ∧ v / 4096 % 64 + 128 ≤ high := by
  refine ⟨if v / 262144 % 8 + 240 = 0xf0 then 0x90 else 0x80,
    if v / 262144 % 8 + 240 = 0xf4 then 0x8f else 0xbf, ?_, ?_, ?_⟩
  · have : v / 262144 % 8 + 240 - 0xf0 = v / 262144 := by omega
    simp only [start, begin?, this]
    grind
  · split <;> omega
  · split <;> omega

/-- The bytes of a character are read as that character. -/
theorem decodeFrom_encodeChar (c : Char) (rest : List UInt8) :
    decodeFrom none (String.utf8EncodeChar c ++ rest) = c :: decodeFrom none rest := by
  have hv : c.val.toNat < 0xd800 ∨ (0xdfff < c.val.toNat ∧ c.val.toNat < 0x110000) := c.valid
  have hc : Char.ofNat c.val.toNat = c := Char.ofNat_toNat c
  unfold String.utf8EncodeChar
  generalize c.val.toNat = v at hv hc
  dsimp only
  have b1 : v % 64 + 128 < 256 := by omega
  have b2 : v / 64 % 64 + 128 < 256 := by omega
  have b3 : v / 4096 % 64 + 128 < 256 := by omega
  have r1 : 0x80 ≤ v % 64 + 128 ∧ v % 64 + 128 ≤ 0xbf := by omega
  have r2 : 0x80 ≤ v / 64 % 64 + 128 ∧ v / 64 % 64 + 128 ≤ 0xbf := by omega
  -- One case for each length of the encoding, from one byte to four.
  split
  · rw [List.singleton_append, decodeFrom_cons, toNat_byte (by omega)]
    simp [advance, start, show v < 0x80 by omega, hc]
  · split
    · rw [List.cons_append, List.singleton_append, decodeFrom_cons,
        toNat_byte (by omega), decodeFrom_cons, toNat_byte b1]
      simp only [advance.eq_1, start_two (v := v) (by omega) (by omega), continuation,
        advance_last r1]
      have : v / 64 * 64 + v % 64 = v := by omega
      simp [this, hc]
    · split
      · obtain ⟨low, high, hs, hr⟩ := start_three (v := v) (by omega) (by omega) (by omega)
        simp only [List.cons_append, List.nil_append, decodeFrom_cons,
          toNat_byte (show v / 4096 % 16 + 224 < 256 by omega), toNat_byte b2, toNat_byte b1,
          advance.eq_1, hs, advance_more hr, continuation, advance_last r1]
        have : (v / 4096 * 64 + v / 64 % 64) * 64 + v % 64 = v := by omega
        simp [this, hc]
      · obtain ⟨low, high, hs, hr⟩ := start_four (v := v) (by omega) (by omega)
        simp only [List.cons_append, List.nil_append, decodeFrom_cons,
          toNat_byte (show v / 262144 % 8 + 240 < 256 by omega), toNat_byte b3, toNat_byte b2,
          toNat_byte b1, advance.eq_1, hs, advance_more hr, continuation, advance_more r2,
          advance_last r1]
        have : ((v / 262144 * 64 + v / 4096 % 64) * 64 + v / 64 % 64) * 64 + v % 64 = v := by
          omega
        simp [this, hc]

/-- The bytes of a text are read as that text. -/
theorem decode_encode (s : String) : decode (encode s) = s := by
  have h : ∀ cs : List Char, decodeFrom none (cs.flatMap String.utf8EncodeChar) = cs := by
    intro cs
    induction cs with
    | nil => rfl
    | cons c cs ih => rw [List.flatMap_cons, decodeFrom_encodeChar, ih]
  simp [decode, encode, h]

end RecordQuery.Text.Utf8
