import RecordQuery.Text
import RecordQuery.Text.Hexadecimal
import RecordQuery.Text.Utf8

/-!
# Form data

The pairs of names and values in the query of a URL. Pairs are separated by ampersands, and a pair
is cut at its first equals sign. A plus sign is a space, and a percent sign with two hexadecimal
digits is the byte of that number; any other percent sign stands for itself. The bytes are then
read as text.

1. `Encodes`, `EncodesPairs`: the ways to write a text and to write pairs.
2. `component_of_encodes`: a text comes back from every way to write it.
3. `parse_of_encodesPairs`: so do pairs, and those of a rendered query with them.
-/
namespace RecordQuery.FormData

open RecordQuery.Text

/-! ## Components -/

/-- The value of a byte that is a hexadecimal digit. -/
def hexValue? (b : UInt8) : Option UInt8 := (hexDigit? (Char.ofNat b.toNat)).map UInt8.ofNat

/-- The bytes that escaped bytes stand for; a percent sign without two digits after it stays. -/
def unescape : List UInt8 → List UInt8
  | [] => []
  | [b] => [b]
  | [b, c] => [b, c]
  | b :: high :: low :: rest =>
    if b = 0x25 then
      match hexValue? high, hexValue? low with
      | some h, some l => (h * 16 + l) :: unescape rest
      | _, _ => b :: unescape (high :: low :: rest)
    else b :: unescape (high :: low :: rest)

/-- A plus sign stands for a space. -/
def plusToSpace (b : UInt8) : UInt8 := if b = 0x2b then 0x20 else b

/-- The text of a component: pluses become spaces before escapes are read, so that an escaped plus
stays one. -/
def component (s : String) : String :=
  Utf8.decode (unescape ((Utf8.encode s).map plusToSpace))

/-! ## Pairs -/

/-- The pair of a piece; without an equals sign the value is empty. -/
def pair (piece : String) : String × String :=
  let parts := (cut '=' piece).getD (piece, "")
  (component parts.1, component parts.2)

/-- The pairs of a query, in order. Empty pieces are no pairs. -/
def parse (query : String) : List (String × String) :=
  ((pieces '&' query).filter (· ≠ "")).map pair

/-! ## Encoding -/

/-- Whether a byte stands for itself: letters, digits and four marks do. -/
def isPlain (b : UInt8) : Bool :=
  (0x30 ≤ b && b ≤ 0x39) || (0x41 ≤ b && b ≤ 0x5a) || (0x61 ≤ b && b ≤ 0x7a)
    || b == 0x2a || b == 0x2d || b == 0x2e || b == 0x5f

/-- The upper-case hexadecimal digit of a number below 16. -/
def hexDigit (n : Nat) : Char := Char.ofNat (if n < 10 then 0x30 + n else 0x41 + (n - 10))

def encodeByte (b : UInt8) : List Char :=
  if isPlain b then [Char.ofNat b.toNat]
  else if b = 0x20 then ['+']
  else ['%', hexDigit (b.toNat / 16), hexDigit (b.toNat % 16)]

/-- The component that stands for a text. -/
def encodeComponent (s : String) : String := String.ofList ((Utf8.encode s).flatMap encodeByte)

/-- A pair as a piece of a query. -/
def renderPair (p : String × String) : String :=
  encodeComponent p.1 ++ String.singleton '=' ++ encodeComponent p.2

def render (pairs : List (String × String)) : String :=
  (String.singleton '&').intercalate (pairs.map renderPair)

/-! ## All encodings -/

/-- The ways to write a byte: as the character of its number, if that is no sign of the encoding, as
a plus sign for a space, or as an escape with hexadecimal digits of either case. -/
inductive EncodesByte (b : UInt8) : List Char → Prop
  | itself {c : Char} : c.toNat = b.toNat → c.toNat < 0x80 → c ∉ ['%', '+', '&', '='] →
      EncodesByte b [c]
  | plus : b = 0x20 → EncodesByte b ['+']
  | escape {high low : Char} {h l : Nat} :
      hexDigit? high = some h → hexDigit? low = some l → h * 16 + l = b.toNat →
      EncodesByte b ['%', high, low]

/-- The ways to write bytes one after the other. -/
inductive EncodesBytes : List UInt8 → List Char → Prop
  | nil : EncodesBytes [] []
  | cons {b : UInt8} {bytes : List UInt8} {run text : List Char} :
      EncodesByte b run → EncodesBytes bytes text → EncodesBytes (b :: bytes) (run ++ text)

/-- A component stands for a text when it is a way to write the bytes of the text. -/
def Encodes (s component : String) : Prop := EncodesBytes (Utf8.encode s) component.toList

/-- A piece of a query is a name and a value, each written in some way. -/
def EncodesPair (p : String × String) (piece : String) : Prop :=
  ∃ name value, Encodes p.1 name ∧ Encodes p.2 value ∧
    piece = name ++ String.singleton '=' ++ value

inductive EncodesPieces : List (String × String) → List String → Prop
  | nil : EncodesPieces [] []
  | cons {p : String × String} {pairs : List (String × String)} {piece : String}
      {pieces : List String} : EncodesPair p piece → EncodesPieces pairs pieces →
      EncodesPieces (p :: pairs) (piece :: pieces)

def EncodesPairs (pairs : List (String × String)) (query : String) : Prop :=
  ∃ pieces, EncodesPieces pairs pieces ∧ query = (String.singleton '&').intercalate pieces

/-! ## What is decoded -/

theorem unescape_cons_of_ne {b : UInt8} (h : b ≠ 0x25) (rest : List UInt8) :
    unescape (b :: rest) = b :: unescape rest := by
  match rest with
  | [] => simp [unescape]
  | [c] => simp [unescape]
  | c :: d :: rest => simp [unescape, h]

/-- A digit of an escape is read as the byte that it is. -/
theorem hexValue?_of_hexDigit? {c : Char} {n : Nat} (h : hexDigit? c = some n) :
    hexValue? (UInt8.ofNat c.toNat) = some (UInt8.ofNat n) := by
  have hlt := lt_of_hexDigit? h
  have hbyte : (UInt8.ofNat c.toNat).toNat = c.toNat := Utf8.toNat_byte (by omega)
  rw [hexValue?, hbyte, Char.ofNat_toNat, h]
  rfl

/-- An ASCII character other than a plus sign is one byte, which stays. -/
theorem bytes_of_lt {c : Char} (h : c.toNat < 0x80) (hp : c ≠ '+') :
    (String.utf8EncodeChar c).map plusToSpace = [UInt8.ofNat c.toNat] := by
  have hne : UInt8.ofNat c.toNat ≠ 0x2b := by
    intro he
    have hbyte : (UInt8.ofNat c.toNat).toNat = c.toNat := Utf8.toNat_byte (by omega)
    rw [he] at hbyte
    exact hp (Char.toNat_inj.1 hbyte.symm)
  rw [Utf8.encodeChar_of_lt h, List.map_singleton, plusToSpace, if_neg hne]

/-- Every way to write a byte is read as the byte, without looking at what follows. -/
theorem EncodesByte.unescape_append {b : UInt8} {run : List Char} (h : EncodesByte b run)
    (rest : List UInt8) :
    unescape ((run.flatMap String.utf8EncodeChar).map plusToSpace ++ rest) =
      b :: unescape rest := by
  cases h with
  | @itself c hb hlt hsign =>
    simp only [List.mem_cons, List.not_mem_nil, or_false, not_or] at hsign
    have hbyte : UInt8.ofNat c.toNat = b := by rw [hb, UInt8.ofNat_toNat]
    have hne : b ≠ 0x25 := by
      rintro rfl
      exact hsign.1 (Char.toNat_inj.1 hb)
    rw [List.flatMap_singleton, bytes_of_lt hlt hsign.2.1, hbyte]
    exact unescape_cons_of_ne hne rest
  | plus hb =>
    subst hb
    exact unescape_cons_of_ne (by decide) rest
  | @escape high low h l hh hl hb =>
    have hbyte : UInt8.ofNat h * 16 + UInt8.ofNat l = b := by
      rw [← UInt8.ofNat_toNat (x := b), ← hb, UInt8.ofNat_add, UInt8.ofNat_mul]
      rfl
    have hrun : (['%', high, low].flatMap String.utf8EncodeChar).map plusToSpace =
        [0x25, UInt8.ofNat high.toNat, UInt8.ofNat low.toNat] := by
      simp only [List.flatMap_cons, List.flatMap_nil, List.map_append, List.map_nil,
        bytes_of_lt (lt_of_hexDigit? hh) (ne_of_hexDigit? hh rfl),
        bytes_of_lt (lt_of_hexDigit? hl) (ne_of_hexDigit? hl rfl)]
      rfl
    rw [hrun]
    simp [unescape, hexValue?_of_hexDigit? hh, hexValue?_of_hexDigit? hl, hbyte]

/-- A text comes back from every way to write it. -/
theorem component_of_encodes {s text : String} (h : Encodes s text) : component text = s := by
  have hbytes : unescape ((Utf8.encode text).map plusToSpace) = Utf8.encode s := by
    unfold Encodes at h
    show unescape ((text.toList.flatMap String.utf8EncodeChar).map plusToSpace) = _
    generalize Utf8.encode s = bytes, text.toList = cs at h
    induction h with
    | nil => rfl
    | cons hb _ ih => rw [List.flatMap_append, List.map_append, hb.unescape_append, ih]
  rw [component, hbytes]
  exact Utf8.decode_encode s

/-- No way to write a byte has a sign that separates components. -/
theorem EncodesByte.ne_of_mem {b : UInt8} {run : List Char} (h : EncodesByte b run) {c : Char}
    (hc : c ∈ run) : c ≠ '&' ∧ c ≠ '=' := by
  cases h with
  | itself _ _ hsign =>
    cases List.mem_singleton.1 hc
    simp only [List.mem_cons, List.not_mem_nil, or_false, not_or] at hsign
    exact hsign.2.2
  | plus _ =>
    cases List.mem_singleton.1 hc
    decide
  | escape hh hl _ =>
    simp only [List.mem_cons, List.not_mem_nil, or_false] at hc
    rcases hc with rfl | rfl | rfl
    · decide
    · exact ⟨ne_of_hexDigit? hh rfl, ne_of_hexDigit? hh rfl⟩
    · exact ⟨ne_of_hexDigit? hl rfl, ne_of_hexDigit? hl rfl⟩

theorem Encodes.ne_of_mem {s text : String} (h : Encodes s text) {c : Char}
    (hc : c ∈ text.toList) : c ≠ '&' ∧ c ≠ '=' := by
  unfold Encodes at h
  generalize Utf8.encode s = bytes, text.toList = cs at h hc
  induction h with
  | nil => cases hc
  | cons hb _ ih => exact (List.mem_append.1 hc).elim hb.ne_of_mem ih

theorem pair_of_encodesPair {p : String × String} {piece : String} (h : EncodesPair p piece) :
    pair piece = p := by
  obtain ⟨name, value, hname, hvalue, rfl⟩ := h
  have hcut : cut '=' (name ++ String.singleton '=' ++ value) = some (name, value) :=
    cut_eq_some_iff.2 ⟨fun hm => (hname.ne_of_mem hm).2 rfl, rfl⟩
  rw [pair, hcut]
  exact Prod.ext (component_of_encodes hname) (component_of_encodes hvalue)

/-- A piece of a query is not empty and has no sign that separates pieces. -/
theorem EncodesPair.isPiece {p : String × String} {piece : String} (h : EncodesPair p piece) :
    '&' ∉ piece.toList ∧ piece ≠ "" := by
  obtain ⟨name, value, hname, hvalue, rfl⟩ := h
  constructor
  · simp only [String.toList_append, List.mem_append, not_or]
    exact ⟨⟨fun hm => (hname.ne_of_mem hm).1 rfl, by decide⟩,
      fun hm => (hvalue.ne_of_mem hm).1 rfl⟩
  · intro he
    have hmem : '=' ∈ (name ++ String.singleton '=' ++ value).toList := by simp
    rw [he] at hmem
    exact absurd hmem (by decide)

theorem EncodesPieces.map_pair {pairs : List (String × String)} {pieces : List String}
    (h : EncodesPieces pairs pieces) : pieces.map pair = pairs := by
  induction h with
  | nil => rfl
  | cons hp _ ih => rw [List.map_cons, pair_of_encodesPair hp, ih]

theorem EncodesPieces.isPiece {pairs : List (String × String)} {pieces : List String}
    (h : EncodesPieces pairs pieces) : ∀ q ∈ pieces, '&' ∉ q.toList ∧ q ≠ "" := by
  induction h with
  | nil => exact fun q hq => absurd hq List.not_mem_nil
  | cons hp _ ih => exact List.forall_mem_cons.2 ⟨hp.isPiece, ih⟩

/-- Pairs come back, in order, from every way to write them. -/
theorem parse_of_encodesPairs {pairs : List (String × String)} {query : String}
    (h : EncodesPairs pairs query) : parse query = pairs := by
  obtain ⟨pieces, hpieces, rfl⟩ := h
  cases hcase : pieces with
  | nil =>
    rw [hcase] at hpieces
    cases hpieces
    rfl
  | cons piece rest =>
    rw [hcase] at hpieces
    have hne : (piece :: rest).filter (· ≠ "") = piece :: rest :=
      List.filter_eq_self.2 fun q hq => decide_eq_true (hpieces.isPiece q hq).2
    rw [parse, pieces_intercalate fun q hq => (hpieces.isPiece q hq).1, hne, hpieces.map_pair]

/-! ## What is rendered -/

/-- A text of ASCII characters that are no signs of the encoding. -/
def IsUnescaped (s : String) : Prop := ∀ c ∈ s.toList, c.toNat < 0x80 ∧ c ∉ ['%', '+', '&', '=']

instance (s : String) : Decidable (IsUnescaped s) := List.decidableBAll _ s.toList

/-- Such a text stands for itself. -/
theorem encodes_of_isUnescaped {s : String} (h : IsUnescaped s) : Encodes s s := by
  unfold IsUnescaped at h
  unfold Encodes Utf8.encode
  generalize s.toList = cs at h
  induction cs with
  | nil => exact .nil
  | cons c cs ih =>
    obtain ⟨⟨hlt, hsign⟩, hrest⟩ := List.forall_mem_cons.1 h
    rw [List.flatMap_cons, Utf8.encodeChar_of_lt hlt]
    exact .cons (.itself (Utf8.toNat_byte (by omega)).symm hlt hsign) (ih hrest)

theorem encodesPair_of_isUnescaped {name value : String} (hname : IsUnescaped name)
    (hvalue : IsUnescaped value) :
    EncodesPair (name, value) (name ++ String.singleton '=' ++ value) :=
  ⟨name, value, encodes_of_isUnescaped hname, encodes_of_isUnescaped hvalue, rfl⟩

theorem hexDigit?_hexDigit {n : Nat} (h : n < 16) : hexDigit? (hexDigit n) = some n := by
  have hall : ∀ n < 16, hexDigit? (hexDigit n) = some n := by decide
  exact hall n h

theorem encodesByte_encodeByte (b : UInt8) : EncodesByte b (encodeByte b) := by
  have hplain : ∀ n < 256, isPlain (UInt8.ofNat n) = true →
      (Char.ofNat n).toNat = n ∧ n < 0x80 ∧ Char.ofNat n ∉ ['%', '+', '&', '='] := by
    decide +kernel
  have hlt : b.toNat < 256 := b.toNat_lt_size
  unfold encodeByte
  split
  · rename_i hb
    obtain ⟨hn, hascii, hsign⟩ := hplain b.toNat hlt (by rwa [UInt8.ofNat_toNat])
    exact .itself hn (hn.symm ▸ hascii) hsign
  · split
    · rename_i hb
      exact .plus hb
    · exact .escape (hexDigit?_hexDigit (by omega)) (hexDigit?_hexDigit (by omega)) (by omega)

/-- The encoding that is rendered is one of them. -/
theorem encodes_encodeComponent (s : String) : Encodes s (encodeComponent s) := by
  unfold Encodes encodeComponent
  rw [String.toList_ofList]
  induction Utf8.encode s with
  | nil => exact .nil
  | cons b bytes ih => exact .cons (encodesByte_encodeByte b) ih

theorem encodesPieces_renderPair (pairs : List (String × String)) :
    EncodesPieces pairs (pairs.map renderPair) := by
  induction pairs with
  | nil => exact .nil
  | cons p pairs ih =>
    exact .cons ⟨_, _, encodes_encodeComponent p.1, encodes_encodeComponent p.2, rfl⟩ ih

/-- The pairs of a rendered query come back. -/
theorem parse_render (pairs : List (String × String)) : parse (render pairs) = pairs :=
  parse_of_encodesPairs ⟨_, encodesPieces_renderPair pairs, rfl⟩

end RecordQuery.FormData
