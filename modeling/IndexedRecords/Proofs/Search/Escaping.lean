import IndexedRecords.Search.Literal

/-!
# Escaped tags

The writer puts a backslash before every reserved character of a tag, and before no backslash. What
was written can still be told: escaped text never starts with a reserved character, since such a one
has its own backslash first (`head?_escapeTagChars`). So a backslash of the value is never followed
by a reserved character, and a backslash of the writer always is.

## Main statements

* `dropEscapes_escapeTagChars`: the value is left when the backslashes before reserved characters
  are deleted.
* `escapesReserved_escapeTagChars`: every reserved character has a backslash directly before it.
* `unescapeTag_escapeTag`: both of texts, with what follows for different and for joined tags.
-/

namespace IndexedRecords.Search

/-- Deletes each backslash that stands directly before a reserved character. -/
def dropEscapes : List Char → List Char
  | [] => []
  | c :: cs =>
    if c = '\\' && cs.head?.any reservedInTags.contains then dropEscapes cs
    else c :: dropEscapes cs

/-- An escaped tag without its escapes. -/
def unescapeTag (s : String) : String := String.ofList (dropEscapes s.toList)

/-- Every reserved character stands directly after a backslash. -/
def EscapesReserved (cs : List Char) : Prop :=
  ∀ before c after, cs = before ++ c :: after → c ∈ reservedInTags → before.getLast? = some '\\'

variable {c : Char}

/-! ### One character -/

/-- The backslash is not among the reserved characters: it is not escaped itself. Values with
backslashes are told apart all the same, since what follows one in a coded text says whether it was
put there. -/
theorem backslash_notMem : '\\' ∉ reservedInTags := by decide

theorem ne_backslash_of_mem (h : c ∈ reservedInTags) : c ≠ '\\' := by
  rintro rfl
  exact backslash_notMem h

/-- A reserved character gets a backslash before it. -/
theorem escapeTagChars_cons_of_mem (h : c ∈ reservedInTags) (cs : List Char) :
    escapeTagChars (c :: cs) = '\\' :: c :: escapeTagChars cs := by
  rw [escapeTagChars, List.flatMap_cons, if_pos (List.contains_iff_mem.mpr h)]
  rfl

/-- Any other character is written as it is. -/
theorem escapeTagChars_cons_of_notMem (h : c ∉ reservedInTags) (cs : List Char) :
    escapeTagChars (c :: cs) = c :: escapeTagChars cs := by
  rw [escapeTagChars, List.flatMap_cons, if_neg (mt List.contains_iff_mem.mp h)]
  rfl

/-- A backslash of the value is written as it is. -/
theorem escapeTagChars_backslash_cons (cs : List Char) :
    escapeTagChars ('\\' :: cs) = '\\' :: escapeTagChars cs :=
  escapeTagChars_cons_of_notMem backslash_notMem cs

/-- Escaped text never starts with a reserved character. -/
theorem head?_escapeTagChars (cs : List Char) :
    (escapeTagChars cs).head?.any reservedInTags.contains = false := by
  cases cs with
  | nil => rfl
  | cons c cs =>
    by_cases hreserved : c ∈ reservedInTags
    · rw [escapeTagChars_cons_of_mem hreserved]
      exact Bool.eq_false_iff.mpr (mt List.contains_iff_mem.mp backslash_notMem)
    · rw [escapeTagChars_cons_of_notMem hreserved]
      simpa using hreserved

/-- A backslash before a reserved character is an escape, and is dropped. -/
theorem dropEscapes_backslash_cons (h : c ∈ reservedInTags) (cs : List Char) :
    dropEscapes ('\\' :: c :: cs) = dropEscapes (c :: cs) := by
  rw [dropEscapes, if_pos]
  simpa using h

/-- A character before escaped text stays, also if it is a backslash. -/
theorem dropEscapes_cons_escapeTagChars (c : Char) (cs : List Char) :
    dropEscapes (c :: escapeTagChars cs) = c :: dropEscapes (escapeTagChars cs) := by
  rw [dropEscapes, head?_escapeTagChars, Bool.and_false, if_neg Bool.false_ne_true]

/-! ### All characters -/

/-- Dropping the escapes of a coded text gives the text back. The induction goes along the text,
with three kinds of first characters: reserved ones, backslashes and others. -/
theorem dropEscapes_escapeTagChars (cs : List Char) : dropEscapes (escapeTagChars cs) = cs := by
  induction cs with
  | nil => rfl
  | cons c cs ih =>
    by_cases hreserved : c ∈ reservedInTags
    · rw [escapeTagChars_cons_of_mem hreserved, dropEscapes_backslash_cons hreserved,
        dropEscapes_cons_escapeTagChars, ih]
    · rw [escapeTagChars_cons_of_notMem hreserved, dropEscapes_cons_escapeTagChars, ih]

/-- The backslash of the value stays, and the one of its escape goes. -/
example : escapeTagChars ['\\', '@'] = ['\\', '\\', '@'] ∧
    dropEscapes ['\\', '\\', '@'] = ['\\', '@'] := by decide

/-- A character that is not reserved may stand before a coded text. -/
theorem EscapesReserved.cons {cs : List Char} (h : EscapesReserved cs) (hc : c ∉ reservedInTags) :
    EscapesReserved (c :: cs) := by
  intro before d after heq hd
  cases before with
  | nil =>
    obtain ⟨rfl, -⟩ := List.cons.inj heq
    exact absurd hd hc
  | cons b before =>
    obtain ⟨-, heq⟩ := List.cons.inj heq
    rw [List.getLast?_cons, h before d after heq hd]
    rfl

/-- A backslash with the character after it may stand before a coded text. -/
theorem EscapesReserved.backslash_cons {cs : List Char} (h : EscapesReserved cs) (c : Char) :
    EscapesReserved ('\\' :: c :: cs) := by
  intro before d after heq hd
  match before with
  | [] =>
    obtain ⟨rfl, -⟩ := List.cons.inj heq
    exact absurd rfl (ne_backslash_of_mem hd)
  | [b] =>
    obtain ⟨rfl, -⟩ := List.cons.inj heq
    rfl
  | b :: b' :: before =>
    obtain ⟨-, heq⟩ := List.cons.inj heq
    obtain ⟨-, heq⟩ := List.cons.inj heq
    rw [List.getLast?_cons_cons, List.getLast?_cons, h before d after heq hd]
    rfl

/-- **What codes are made of.** In the code of any text, every reserved character stands after a
backslash. So none of them can end a value or a query early. -/
theorem escapesReserved_escapeTagChars (cs : List Char) : EscapesReserved (escapeTagChars cs) := by
  induction cs with
  | nil => exact fun before _ _ heq => by simp [escapeTagChars] at heq
  | cons c cs ih =>
    by_cases hreserved : c ∈ reservedInTags
    · rw [escapeTagChars_cons_of_mem hreserved]
      exact ih.backslash_cons c
    · rw [escapeTagChars_cons_of_notMem hreserved]
      exact ih.cons hreserved

/-- A code is longer than its text by the number of reserved characters in it. -/
theorem length_escapeTagChars (cs : List Char) :
    (escapeTagChars cs).length = cs.length + cs.countP reservedInTags.contains := by
  induction cs with
  | nil => rfl
  | cons c cs ih =>
    by_cases hreserved : c ∈ reservedInTags
    · rw [escapeTagChars_cons_of_mem hreserved,
        List.countP_cons_of_pos (List.contains_iff_mem.mpr hreserved)]
      simp only [List.length_cons, ih]
      omega
    · rw [escapeTagChars_cons_of_notMem hreserved,
        List.countP_cons_of_neg (mt List.contains_iff_mem.mp hreserved)]
      simp only [List.length_cons, ih]
      omega

/-- **Escaped tags.** Of an escaped tag, in which every reserved character stands directly after a
backslash, the tag itself is left when these backslashes are deleted. So different tags are escaped
differently; an escaped tag is longer by the number of its reserved characters; and joined tags are
escaped one by one. -/
theorem unescapeTag_escapeTag :
    (∀ v, EscapesReserved (escapeTag v).toList ∧ unescapeTag (escapeTag v) = v) ∧
    Function.Injective escapeTag ∧
    (∀ v, (escapeTag v).length = v.length + v.toList.countP reservedInTags.contains) ∧
    ∀ v w, escapeTag (v ++ w) = escapeTag v ++ escapeTag w := by
  have hunescape (v : String) : unescapeTag (escapeTag v) = v := by
    rw [unescapeTag, escapeTag, String.toList_ofList, dropEscapes_escapeTagChars,
      String.ofList_toList]
  refine ⟨fun v => ⟨?_, hunescape v⟩, Function.LeftInverse.injective hunescape, fun v => ?_,
    fun v w => ?_⟩
  · rw [escapeTag, String.toList_ofList]
    exact escapesReserved_escapeTagChars v.toList
  · rw [escapeTag, String.length_ofList, length_escapeTagChars, String.length_toList]
  · rw [escapeTag, String.toList_append, escapeTagChars, List.flatMap_append, String.ofList_append]
    rfl

end IndexedRecords.Search
