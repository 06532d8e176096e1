/-!
# Cutting and replacing text

Texts are lists of characters here, so that each operation is a recursion on the list. Main
statements: the parts of a cut, joined again, give the text back (`joinWith_splitAll`), and a part
never holds the separator (`not_mem_of_mem_splitAll`).
-/

namespace IndexedRecords.Text

/-- The parts of a text between the occurrences of a separator. -/
def splitAll (sep : Char) : List Char → List (List Char)
  | [] => [[]]
  | c :: rest =>
    if c = sep then [] :: splitAll sep rest
    else
      match splitAll sep rest with
      | [] => [[c]]
      | part :: parts => (c :: part) :: parts

/-- The texts of a list with a separator between neighbours. -/
def joinWith (sep : List Char) : List (List Char) → List Char
  | [] => []
  | [part] => part
  | part :: parts => part ++ sep ++ joinWith sep parts

theorem splitAll_ne_nil (sep : Char) (cs : List Char) : splitAll sep cs ≠ [] := by
  cases cs with
  | nil => simp [splitAll]
  | cons c rest =>
    rw [splitAll]
    split
    · simp
    · split <;> simp

/-- The parts of a text, joined with the separator that they were cut at, are the text again. -/
theorem joinWith_splitAll (sep : Char) (cs : List Char) :
    joinWith [sep] (splitAll sep cs) = cs := by
  induction cs with
  | nil => rfl
  | cons c rest ih =>
    rw [splitAll]
    cases h : splitAll sep rest with
    | nil => exact absurd h (splitAll_ne_nil sep rest)
    | cons part parts =>
      rw [h] at ih
      split
      · next hc => cases parts <;> simp_all [joinWith]
      · cases parts <;> simp_all [joinWith]

/-- No separator is left in the parts of a text. -/
theorem not_mem_of_mem_splitAll {sep : Char} {cs part : List Char}
    (h : part ∈ splitAll sep cs) : sep ∉ part := by
  induction cs generalizing part with
  | nil =>
    rw [splitAll, List.mem_singleton] at h
    simp [h]
  | cons c rest ih =>
    rw [splitAll] at h
    split at h
    · rcases List.mem_cons.mp h with rfl | h
      · simp
      · exact ih h
    · next hc =>
      split at h
      · next heq => exact absurd heq (splitAll_ne_nil sep rest)
      · next p ps heq =>
        rw [heq] at ih
        rcases List.mem_cons.mp h with rfl | h
        · rw [List.mem_cons, not_or]
          exact ⟨fun e => hc e.symm, ih (by simp)⟩
        · exact ih (by simp [h])

/-- The text without a leading mark, or the text itself where the mark does not lead. -/
def stripLead (lead cs : List Char) : List Char :=
  (lead.isPrefixOf? cs).getD cs

/-- The parts before and after the first occurrence of a separator. -/
def cutFirst? (sep : Char) : List Char → Option (List Char × List Char)
  | [] => none
  | c :: rest =>
    if c = sep then some ([], rest)
    else (cutFirst? sep rest).map fun (before, after) => (c :: before, after)

/-- The parts before and after the last occurrence of a separator. -/
def cutLast? (sep : Char) (cs : List Char) : Option (List Char × List Char) :=
  (cutFirst? sep cs.reverse).map fun (after, before) => (before.reverse, after.reverse)

/-- Replaces, from left to right, each occurrence of a mark in what follows the characters to be
skipped. -/
def replaceFrom (mark replacement : List Char) : Nat → List Char → List Char
  | _, [] => []
  | skip + 1, _ :: rest => replaceFrom mark replacement skip rest
  | 0, c :: rest =>
    if mark.isPrefixOf (c :: rest) then
      replacement ++ replaceFrom mark replacement (mark.length - 1) rest
    else c :: replaceFrom mark replacement 0 rest

/-- The text with each occurrence of a mark replaced, from left to right and without overlaps. -/
def replaceAll (mark replacement cs : List Char) : List Char :=
  replaceFrom mark replacement 0 cs

end IndexedRecords.Text
