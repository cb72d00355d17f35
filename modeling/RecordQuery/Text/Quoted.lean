import RecordQuery.Text.Printable

/-!
# Quoted text

Text between quotes in a message, with everything escaped that a reader could not see.

1. `quoted_of_plain`: printable text without quotes and backslashes stands as it is.
-/
namespace RecordQuery.Text

/-- A character between quotes. -/
def quotedChar (c : Char) : List Char :=
  if c = '\x22' ∨ c = '\x5c' then ['\x5c', c]
  else if c = '\x00' then ['\x5c', '0']
  else if c = '\t' then ['\x5c', 't']
  else if c = '\n' then ['\x5c', 'n']
  else if c = '\r' then ['\x5c', 'r']
  else if isPrintable c then [c]
  else ['\x5c', 'u', '\x7b'] ++ Nat.toDigits 16 c.toNat ++ ['\x7d']

/-- The text between quotes. -/
def quoted (s : String) : String :=
  String.ofList ('\x22' :: s.toList.flatMap quotedChar ++ ['\x22'])

/-- Printable text without quotes and backslashes stands as it is. -/
theorem quoted_of_plain {s : String}
    (h : ∀ c ∈ s.toList, isPrintable c = true ∧ c ≠ '\x22' ∧ c ≠ '\x5c') :
    quoted s = String.ofList ('\x22' :: s.toList ++ ['\x22']) := by
  have hc : ∀ c : Char, isPrintable c = true → c ≠ '\x22' → c ≠ '\x5c' → quotedChar c = [c] := by
    intro c hp hq hb
    have hz : c ≠ '\x00' := fun e => absurd hp (e ▸ by decide +kernel)
    have ht : c ≠ '\t' := fun e => absurd hp (e ▸ by decide +kernel)
    have hn : c ≠ '\n' := fun e => absurd hp (e ▸ by decide +kernel)
    have hr : c ≠ '\r' := fun e => absurd hp (e ▸ by decide +kernel)
    simp [quotedChar, hp, hq, hb, hz, ht, hn, hr]
  have hl : ∀ cs : List Char, (∀ c ∈ cs, isPrintable c = true ∧ c ≠ '\x22' ∧ c ≠ '\x5c') →
      cs.flatMap quotedChar = cs := by
    intro cs
    induction cs with
    | nil => intro _; rfl
    | cons c cs ih =>
      intro hcs
      have hh := hcs c List.mem_cons_self
      rw [List.flatMap_cons, hc c hh.1 hh.2.1 hh.2.2,
        ih fun d hd => hcs d (List.mem_cons_of_mem _ hd)]
      rfl
  rw [quoted, hl _ h]

end RecordQuery.Text
