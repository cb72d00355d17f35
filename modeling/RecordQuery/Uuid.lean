import RecordQuery.Text
import RecordQuery.Text.Hexadecimal

/-!
# UUIDs

A UUID is 128 bits. It is read from 32 hexadecimal digits, from its five hyphenated groups, or from
these in braces or after `urn:uuid:`, and written as hyphenated groups in lower case. A text that is
none of these gets a fault that names the first thing wrong with it; lengths and offsets count
bytes.

1. `Uuid.parse` reads, `Uuid.hyphenated` writes.
2. `Uuid.parse_hyphenated`: what is written is read back.
-/
namespace RecordQuery

/-- A universally unique identifier. -/
structure Uuid where
  bits : BitVec 128
  deriving DecidableEq, Repr

/-- Why a text is not a UUID. -/
inductive UuidFault where
  | length (found : Nat)
  | character (found : Char) (offset : Nat)
  | groupCount (found : Nat)
  | groupLength (group expected found : Nat)
  deriving DecidableEq, Repr

def UuidFault.message : UuidFault → String
  | .length found => "invalid length: found " ++ toString found
  | .character found offset =>
    "invalid character: found `" ++ String.singleton found ++ "` at " ++ toString offset
  | .groupCount found => "invalid group count: expected 5, found " ++ toString found
  | .groupLength group expected found =>
    "invalid group length in group " ++ toString group ++ ": expected " ++ toString expected
      ++ ", found " ++ toString found

namespace Uuid

def byteLength (cs : List Char) : Nat := cs.foldl (fun length c => length + c.utf8Size) 0

/-- The lengths of the hyphenated groups, in digits. -/
def groupLengths : List Nat := [8, 4, 4, 4, 12]

/-- The UUID of 32 hexadecimal digits. -/
def ofDigits? (cs : List Char) : Option Uuid :=
  if cs.length = 32 ∧ cs.all (fun c => (Text.hexDigit? c).isSome) then
    some ⟨BitVec.ofNat 128 (cs.foldl (fun n c => 16 * n + (Text.hexDigit? c).getD 0) 0)⟩
  else none

/-- The UUID of five hyphenated groups. -/
def ofGroups? (cs : List Char) : Option Uuid :=
  let parts := Text.splitChars '-' cs
  let groups := parts.1 :: parts.2
  if groups.map List.length = groupLengths then ofDigits? groups.flatten else none

/-- What stands between a pair of braces. -/
def inBraces? : List Char → Option (List Char)
  | '\x7b' :: cs => if cs.getLast? = some '\x7d' then some cs.dropLast else none
  | _ => none

/-- What stands after the name `urn:uuid:`, whose letters may have either case. -/
def afterUrn? (cs : List Char) : Option (List Char) :=
  if (cs.take 9).map Char.toLower = "urn:uuid:".toList then some (cs.drop 9) else none

/-- The part of a text that is read, and whether its length already decides for the hyphenated
form. -/
def body (cs : List Char) : List Char × Bool :=
  let bare := (cs, false)
  if byteLength cs = 36 then (cs, true)
  else if byteLength cs = 38 then ((inBraces? cs).map fun inner => (inner, true)).getD bare
  else if byteLength cs = 45 then ((afterUrn? cs).map fun rest => (rest, true)).getD bare
  else bare

/-- The first group whose hyphen is not at its end, given the offset of the group; a text whose
four hyphens are all in place can only have a wrong last group. -/
def groupFault (length : Nat) : Nat → Nat → List Nat → List Nat → UuidFault
  | group, start, hyphen :: hyphens, expected :: lengths =>
    if hyphen = start + expected then
      groupFault length (group + 1) (start + expected + 1) hyphens lengths
    else .groupLength group expected (hyphen - start)
  | group, start, _, lengths => .groupLength group (lengths.headD 0) (length - start)

/-- What is wrong with a text that is no UUID. -/
def fault (text : List Char) (hyphenated : Bool) : UuidFault :=
  let length := byteLength text
  if !hyphenated && (length == 0 || 45 < length) then .length length
  else
    let (scanned, offset, bare) :=
      if hyphenated then (text, 0, false)
      else match inBraces? text, afterUrn? text with
        | some inner, _ => (inner, 1, false)
        | none, some rest => (rest, 9, false)
        | none, none => (text, 0, true)
    match scanned.zipIdx.find? fun p => (Text.hexDigit? p.1).isNone && p.1 != '-' with
    | some (c, i) => .character c (offset + i)
    | none =>
      let hyphens := (scanned.zipIdx.filter fun p => p.1 == '-').map Prod.snd
      if bare && hyphens.isEmpty then .length length
      else if hyphens.length ≠ 4 then .groupCount (hyphens.length + 1)
      else groupFault length 0 0 hyphens groupLengths

def parse (s : String) : Except UuidFault Uuid :=
  let (text, hyphenated) := body s.toList
  match if hyphenated then ofGroups? text else ofDigits? text with
  | some uuid => .ok uuid
  | none => .error (fault text hyphenated)

/-- The 32 hexadecimal digits in lower case, the most significant first. -/
def hexDigits (u : Uuid) : List Char :=
  (List.range 32).map fun i => Nat.digitChar (u.bits.toNat >>> (4 * (31 - i)) % 16)

/-- The digits in groups of the given lengths. -/
def groups : List Nat → List Char → List String
  | [], _ => []
  | length :: lengths, cs => String.ofList (cs.take length) :: groups lengths (cs.drop length)

/-- The five hyphenated groups in lower case. -/
def hyphenated (u : Uuid) : String :=
  "-".intercalate (groups groupLengths u.hexDigits)

/-! ## Reading what is written -/

/-- Digits that are cut off a number from the right make it up again. -/
theorem foldl_hexDigits (k n : Nat) :
    (((List.range k).map fun i => Nat.digitChar (n >>> (4 * (k - 1 - i)) % 16)).foldl
      (fun n c => 16 * n + (Text.hexDigit? c).getD 0) 0) = n % Nat.pow 16 k := by
  induction k generalizing n with
  | zero => simp [Nat.mod_one]
  | succ k ih =>
    have hinit : (List.range k).map (fun i => Nat.digitChar (n >>> (4 * (k + 1 - 1 - i)) % 16))
        = (List.range k).map fun i => Nat.digitChar ((n / 16) >>> (4 * (k - 1 - i)) % 16) := by
      refine List.map_congr_left fun i hi => ?_
      have hi := List.mem_range.1 hi
      rw [show 4 * (k + 1 - 1 - i) = 4 + 4 * (k - 1 - i) by omega, Nat.shiftRight_add,
        show n >>> 4 = n / 16 from Nat.shiftRight_eq_div_pow n 4]
    rw [List.range_succ, List.map_append, hinit, List.foldl_append, ih]
    simp only [List.map_cons, List.map_nil, List.foldl_cons, List.foldl_nil]
    rw [show 4 * (k + 1 - 1 - k) = 0 by omega, Nat.shiftRight_zero,
      Text.hexDigit?_digitChar (Nat.mod_lt n (by decide)), Option.getD_some]
    rw [show Nat.pow 16 (k + 1) = 16 * Nat.pow 16 k from Nat.pow_succ', Nat.mod_mul]
    omega

theorem length_hexDigits (u : Uuid) : u.hexDigits.length = 32 := by simp [hexDigits]

theorem hexDigit?_of_mem_hexDigits {u : Uuid} {c : Char} (h : c ∈ u.hexDigits) :
    ∃ n, Text.hexDigit? c = some n := by
  obtain ⟨i, -, rfl⟩ := List.mem_map.1 h
  exact ⟨_, Text.hexDigit?_digitChar (Nat.mod_lt _ (by decide))⟩

theorem ofDigits?_hexDigits (u : Uuid) : ofDigits? u.hexDigits = some u := by
  have hall : u.hexDigits.all (fun c => (Text.hexDigit? c).isSome) = true :=
    List.all_eq_true.2 fun c hc => Option.isSome_iff_exists.2 (hexDigit?_of_mem_hexDigits hc)
  have hbits : u.bits.toNat % Nat.pow 16 32 = u.bits.toNat := Nat.mod_eq_of_lt u.bits.isLt
  rw [ofDigits?, if_pos ⟨u.length_hexDigits, hall⟩, hexDigits, foldl_hexDigits 32, hbits,
    BitVec.ofNat_toNat, BitVec.setWidth_eq]

theorem byteLength_of_ascii {cs : List Char} (h : ∀ c ∈ cs, c.toNat < 0x80) :
    byteLength cs = cs.length := by
  have hfold (k : Nat) : cs.foldl (fun length c => length + c.utf8Size) k = k + cs.length := by
    induction cs generalizing k with
    | nil => rfl
    | cons c cs ih =>
      have hc : c.utf8Size = 1 :=
        Char.utf8Size_eq_one_iff.2 (Nat.le_of_lt_succ (h c List.mem_cons_self))
      rw [List.foldl_cons, hc, ih fun d hd => h d (List.mem_cons_of_mem _ hd), List.length_cons]
      omega
  rw [byteLength, hfold, Nat.zero_add]

theorem mem_of_mem_groups {lengths : List Nat} {cs : List Char} {s : String}
    (h : s ∈ groups lengths cs) : ∀ c ∈ s.toList, c ∈ cs := by
  induction lengths generalizing cs with
  | nil => cases h
  | cons length lengths ih =>
    obtain rfl | h := List.mem_cons.1 h
    · intro c hc
      exact List.mem_of_mem_take (by simpa using hc)
    · exact fun c hc => List.mem_of_mem_drop (ih h c hc)

theorem flatten_groups (lengths : List Nat) (cs : List Char) :
    ((groups lengths cs).map String.toList).flatten = cs.take (lengths.foldr (· + ·) 0) := by
  induction lengths generalizing cs with
  | nil => simp [groups]
  | cons length lengths ih => simp [groups, ih, List.take_add]

theorem ofGroups?_hyphenated (u : Uuid) : ofGroups? u.hyphenated.toList = some u := by
  have hplain : ∀ s ∈ groups groupLengths u.hexDigits, '-' ∉ s.toList := fun s hs hmem => by
    obtain ⟨n, hn⟩ := hexDigit?_of_mem_hexDigits (mem_of_mem_groups hs _ hmem)
    cases hn
  have hpieces : Text.pieces '-' u.hyphenated = groups groupLengths u.hexDigits :=
    Text.pieces_intercalate hplain
  have hsplit : (Text.splitChars '-' u.hyphenated.toList).1
      :: (Text.splitChars '-' u.hyphenated.toList).2
        = (groups groupLengths u.hexDigits).map String.toList := by
    rw [← hpieces]
    simp [Text.pieces, Text.split, Function.comp_def]
  rw [ofGroups?]
  simp only [hsplit]
  rw [if_pos (by simp [groups, groupLengths, length_hexDigits]), flatten_groups,
    List.take_of_length_le (i := groupLengths.foldr (· + ·) 0) (Nat.le_of_eq u.length_hexDigits),
    ofDigits?_hexDigits]

theorem byteLength_hyphenated (u : Uuid) : byteLength u.hyphenated.toList = 36 := by
  rw [byteLength_of_ascii]
  · simp [hyphenated, groups, groupLengths, String.intercalate_cons_cons, length_hexDigits]
  · intro c hc
    have hc : c = '-' ∨ c ∈ u.hexDigits := by
      simp only [hyphenated, groups, groupLengths, String.intercalate_cons_cons,
        String.intercalate_singleton, String.toList_append, String.toList_ofList,
        String.reduceToList, List.mem_append, List.mem_cons] at hc
      grind [List.mem_of_mem_take, List.mem_of_mem_drop]
    obtain rfl | hc := hc
    · decide
    · obtain ⟨n, hn⟩ := hexDigit?_of_mem_hexDigits hc
      exact Text.lt_of_hexDigit? hn

/-- A UUID is read from the text that is written for it. -/
theorem parse_hyphenated (u : Uuid) : parse u.hyphenated = .ok u := by
  have hbody : body u.hyphenated.toList = (u.hyphenated.toList, true) := by
    rw [body, if_pos (byteLength_hyphenated u)]
  simp only [parse, hbody, ofGroups?_hyphenated, if_true]

end Uuid

end RecordQuery
