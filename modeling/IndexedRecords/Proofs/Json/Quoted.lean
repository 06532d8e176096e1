import IndexedRecords.Json.Reader
import IndexedRecords.Json.Writer

/-!
# Quoted texts of documents

A quoted text can be read back whatever its characters are, and whatever follows it.

## Main statements

* `readQuoted_escaped`: reading a quoted text gives its characters and the text after it.
-/

namespace IndexedRecords.Json

open Text

/-- A control character reads back from its four digits. -/
theorem unit?_hexDigits : ∀ n < 32, ∃ a b c d, hexDigits 4 n = [a, b, c, d] ∧
    unit? a b c d = some n := by
  have h : ∀ n < 32, unit? ((hexDigits 4 n).getD 0 ' ') ((hexDigits 4 n).getD 1 ' ')
      ((hexDigits 4 n).getD 2 ' ') ((hexDigits 4 n).getD 3 ' ') = some n := by
    decide
  intro n hn
  exact ⟨_, _, _, _, rfl, h n hn⟩

/-- A unit that is no half of a pair is one character. -/
theorem readQuoted_unit {a b c d : Char} {n : Nat} (hunit : unit? a b c d = some n)
    (hn : n < 0xD800) (rest : List Char) :
    readQuoted none ('\\' :: 'u' :: a :: b :: c :: d :: rest) =
      (readQuoted none rest).map fun (cs, after) => (Char.ofNat n :: cs, after) := by
  conv => lhs; unfold readQuoted
  simp only [hunit]
  rw [if_neg (by omega), if_neg (by omega)]

/-- A character that needs no escape stands for itself. -/
theorem readQuoted_plain {c : Char} (hquote : c ≠ '"') (hslash : c ≠ '\\') (hc : 32 ≤ c.toNat)
    (rest : List Char) : readQuoted none (c :: rest) =
      (readQuoted none rest).map fun (cs, after) => (c :: cs, after) := by
  conv => lhs; unfold readQuoted
  split
  case h_5 heq =>
    obtain ⟨rfl, rfl⟩ := List.cons.inj heq
    have hprintable : ¬ (c = '\\' ∨ c.toNat < 32) := by
      rw [not_or, Nat.not_lt]
      exact ⟨hslash, hc⟩
    rw [if_neg hquote, if_neg hprintable]
  all_goals simp_all

/-- One character of a quoted text is read back, whatever follows it. -/
theorem readQuoted_escapedChar (c : Char) (rest : List Char) :
    readQuoted none (escapedChar c ++ rest) =
      (readQuoted none rest).map fun (cs, after) => (c :: cs, after) := by
  unfold escapedChar
  split
  · next h => rcases h with rfl | rfl <;> rfl
  split
  · next h => subst h; rfl
  split
  · next h => subst h; rfl
  split
  · next h => subst h; rfl
  split
  · next h => subst h; rfl
  split
  · next h => subst h; rfl
  split
  -- a control character is written by its four hexadecimal digits
  · next h =>
    obtain ⟨a, b, d, e, hdigits, hunit⟩ := unit?_hexDigits c.toNat h
    simp only [hdigits, List.cons_append, List.nil_append]
    rw [readQuoted_unit hunit (by omega), Char.ofNat_toNat]
  · next hquote _ _ _ _ _ hplain =>
    rw [not_or] at hquote
    exact readQuoted_plain hquote.1 hquote.2 (by omega) rest

/-- **Quoted texts read back.** What follows the closing quote is left over. -/
theorem readQuoted_escaped (cs rest : List Char) :
    readQuoted none (cs.flatMap escapedChar ++ '"' :: rest) = some (cs, rest) := by
  induction cs with
  | nil => rfl
  | cons c cs ih =>
    rw [List.flatMap_cons, List.append_assoc, readQuoted_escapedChar, ih]
    rfl

end IndexedRecords.Json
