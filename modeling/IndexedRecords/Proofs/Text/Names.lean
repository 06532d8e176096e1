/-!
# Plain names

Letters, digits and underscores, where everything beyond ASCII counts as a letter. A name, like any
word of one class of characters, ends where a text goes on with others.
-/

namespace IndexedRecords.Text

/-- Whether a plain name may start with a character. -/
def isNameStart (c : Char) : Bool := c.isAlpha || c = '_' || 128 ≤ c.toNat

/-- Whether a plain name may go on with a character. -/
def isNameChar (c : Char) : Bool := isNameStart c || c.isDigit

/-- What consists of one class of characters ends where a text goes on with others. -/
theorem takeWhile_dropWhile_append {p : Char → Bool} {cs rest : List Char}
    (h : ∀ c ∈ cs, p c = true) (hrest : ∀ c ∈ rest.head?, p c = false) :
    (cs ++ rest).takeWhile p = cs ∧ (cs ++ rest).dropWhile p = rest := by
  rw [List.takeWhile_append_of_pos h, List.dropWhile_append_of_pos h]
  cases rest with
  | nil => simp
  | cons c rest =>
    have hc : p c = false := hrest c rfl
    simp [hc]

end IndexedRecords.Text
