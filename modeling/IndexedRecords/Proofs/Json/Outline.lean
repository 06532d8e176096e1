import IndexedRecords.Proofs.Json.Quoted
import IndexedRecords.Proofs.Number.Whole
import IndexedRecords.Proofs.Text.Names

/-!
# Outlines of documents

The text of a document shows how objects, arrays and atoms nest, and an outline keeps just that:
quoted texts are resolved, while numbers and the other words stay as they are written. So an outline
can be read off every text of a document, however deep it nests and however long its numbers are,
and two documents with one outline have been written alike.

## Main statements

* `Outline.read?_write`: the text of a document has the outline of that document.
-/

namespace IndexedRecords

/-- What the text of a document shows. -/
inductive Outline where
  | word (cs : List Char)
  | text (s : String)
  | array (items : List Outline)
  | object (members : List (String × Outline))
  deriving Inhabited

namespace Outline

open Json

/-! ### Reading an outline -/

/-- Whether a character may stand in a number or in another word. -/
def isWordChar (c : Char) : Bool := c.isAlphanum || c = '-' || c = '+' || c = '.'

/-- Reads a number or another word, and returns the text after it. -/
def readWord (cs : List Char) : Option (Outline × List Char) :=
  match cs.takeWhile isWordChar with
  | [] => none
  | token => some (.word token, cs.dropWhile isWordChar)

mutual

/-- Reads a value, and returns the text after it. The bound counts steps; twice the length of the
text is enough. -/
def readValue : (bound : Nat) → List Char → Option (Outline × List Char)
  | 0, _ => none
  | bound + 1, cs =>
    match skipGaps cs with
    | '"' :: rest => (readQuoted none rest).map fun (cs, after) => (.text (String.ofList cs), after)
    | '[' :: rest =>
      match skipGaps rest with
      | ']' :: after => some (.array [], after)
      | _ => (readItems bound rest).map fun (items, after) => (.array items, after)
    | '\x7b' :: rest =>
      match skipGaps rest with
      | '\x7d' :: after => some (.object [], after)
      | _ => (readMembers bound rest).map fun (members, after) => (.object members, after)
    | cs => readWord cs

/-- Reads the items of an array up to its end. -/
def readItems : (bound : Nat) → List Char → Option (List Outline × List Char)
  | 0, _ => none
  | bound + 1, cs =>
    match readValue bound cs with
    | none => none
    | some (item, rest) =>
      match skipGaps rest with
      | ',' :: rest => (readItems bound rest).map fun (items, after) => (item :: items, after)
      | ']' :: after => some ([item], after)
      | _ => none

/-- Reads the members of an object up to its end. Repeated names are kept. -/
def readMembers : (bound : Nat) → List Char → Option (List (String × Outline) × List Char)
  | 0, _ => none
  | bound + 1, cs =>
    match skipGaps cs with
    | '"' :: rest =>
      match readQuoted none rest with
      | none => none
      | some (name, rest) =>
        match skipGaps rest with
        | ':' :: rest =>
          match readValue bound rest with
          | none => none
          | some (value, rest) =>
            match skipGaps rest with
            | ',' :: rest =>
              (readMembers bound rest).map fun (members, after) =>
                ((String.ofList name, value) :: members, after)
            | '\x7d' :: after => some ([(String.ofList name, value)], after)
            | _ => none
        | _ => none
    | _ => none

end

/-- The outline of a text, if it is the text of a document. -/
def read? (cs : List Char) : Option Outline :=
  match readValue (2 * cs.length) cs with
  | some (value, rest) => if skipGaps rest = [] then some value else none
  | none => none

end Outline

/-! ### The outline of a document -/

namespace Json

mutual

/-- The outline of a document. -/
def outline : Json → Outline
  | .null => .word "null".toList
  | .bool true => .word "true".toList
  | .bool false => .word "false".toList
  | .int n => .word (wholeText n)
  | .float x => .word (floatText x)
  | .text s => .text s
  | .array items => .array (outlines items)
  | .object members => .object (memberOutlines members)

/-- The outlines of several documents. -/
def outlines : List Json → List Outline
  | [] => []
  | item :: rest => outline item :: outlines rest

/-- The members of an object with the outlines of their values. -/
def memberOutlines : List (String × Json) → List (String × Outline)
  | [] => []
  | (name, value) :: rest => (name, outline value) :: memberOutlines rest

end

/-- The outlines of several documents, one by one. -/
theorem outlines_eq_map (items : List Json) : outlines items = items.map outline := by
  induction items with
  | nil => rfl
  | cons item rest ih => rw [outlines, ih, List.map_cons]

/-- The outlines of members, under the names that the members have. -/
theorem memberOutlines_eq_map (members : List (String × Json)) :
    memberOutlines members = members.map fun (name, value) => (name, value.outline) := by
  induction members with
  | nil => rfl
  | cons member rest ih => rw [memberOutlines, ih, List.map_cons]

end Json

namespace Outline

open Json

/-! ### Words -/

/-- A text of characters that may stand in words, at least one. -/
def IsWord (cs : List Char) : Prop := cs ≠ [] ∧ ∀ c ∈ cs, isWordChar c = true

/-- Characters of words make up a word, when there are any. -/
theorem isWord_of_all {cs : List Char} (hne : cs ≠ []) (h : cs.all isWordChar = true) :
    IsWord cs :=
  ⟨hne, List.all_eq_true.mp h⟩

/-- A text with which no word goes on. -/
def Ends (cs : List Char) : Prop := ∀ c ∈ cs.head?, isWordChar c = false

/-- Digits are characters of words. -/
theorem isWordChar_of_mem_toDigits {n : Nat} {c : Char} (h : c ∈ Nat.toDigits 10 n) :
    isWordChar c = true := by
  have hdigit := Nat.isDigit_of_mem_toDigits (by decide) (by decide) h
  simp [isWordChar, Char.isAlphanum, hdigit]

theorem isWordChar_of_mem_replicate {n : Nat} {c : Char} (h : c ∈ List.replicate n '0') :
    isWordChar c = true := by
  rw [List.eq_of_mem_replicate h]
  rfl

/-- Whole numbers are words, with or without a sign. -/
theorem isWord_wholeText (n : Int) : IsWord (wholeText n) := by
  refine ⟨wholeText_ne_nil n, fun c hc => ?_⟩
  obtain rfl | hdigit := eq_minus_or_isDigit_of_mem_wholeText hc
  · rfl
  · simp [isWordChar, Char.isAlphanum, hdigit]

/-- A number without an exponent is a word, wherever its point stands. -/
theorem isWord_plain {digits : List Char} (h : ∀ c ∈ digits, isWordChar c = true)
    (exponent : Int) : IsWord (NumberLayout.plain digits exponent) := by
  unfold NumberLayout.plain
  split
  · next e =>
    refine ⟨by simp, fun c hc => ?_⟩
    simp only [List.mem_append, List.mem_cons, List.not_mem_nil, or_false] at hc
    rcases hc with (hc | hc) | rfl | rfl
    · exact h c hc
    · exact isWordChar_of_mem_replicate hc
    · rfl
    · rfl
  · next e =>
    dsimp only
    split
    · refine ⟨by simp, fun c hc => ?_⟩
      simp only [List.mem_append, List.mem_cons] at hc
      rcases hc with hc | rfl | hc
      · exact h c (List.mem_of_mem_take hc)
      · rfl
      · exact h c (List.mem_of_mem_drop hc)
    · refine ⟨by simp, fun c hc => ?_⟩
      simp only [List.cons_append, List.mem_append, List.mem_cons] at hc
      rcases hc with rfl | rfl | hc | hc
      · rfl
      · rfl
      · exact isWordChar_of_mem_replicate hc
      · exact h c hc

/-- A number with an exponent is a word: its sign and the mark before it are characters of words. -/
theorem isWord_withExponent {digits : List Char} (h : ∀ c ∈ digits, isWordChar c = true)
    (layout : NumberLayout) (leading : Int) : IsWord (layout.withExponent digits leading) := by
  have hpadded : ∀ c ∈ NumberLayout.padded layout.exponentDigits leading.natAbs,
      isWordChar c = true := fun c hc => by
    rcases List.mem_append.mp hc with hc | hc
    · exact isWordChar_of_mem_replicate hc
    · exact isWordChar_of_mem_toDigits hc
  unfold NumberLayout.withExponent
  refine ⟨by simp, fun c hc => ?_⟩
  rw [List.mem_append, List.mem_cons, List.mem_cons] at hc
  rcases hc with hc | rfl | rfl | hc
  · split at hc
    · cases hc
    · exact h c hc
    · next d rest _ =>
      rcases List.mem_cons.mp hc with rfl | hc
      · exact h c List.mem_cons_self
      · rcases List.mem_cons.mp hc with rfl | hc
        · rfl
        · exact h c (List.mem_cons_of_mem d hc)
  · rfl
  · split <;> rfl
  · exact hpadded c hc

/-- The size of a floating number is a word in each of its layouts. -/
theorem isWord_magnitude (layout : NumberLayout) (units : Nat) :
    IsWord (layout.magnitude units) := by
  have hdigits : ∀ c ∈ Nat.toDigits 10 (Binary64.shortest .toEven units).digits,
      isWordChar c = true := fun c hc => isWordChar_of_mem_toDigits hc
  unfold NumberLayout.magnitude
  split
  · exact isWord_of_all (by simp) rfl
  · dsimp only
    split
    · exact isWord_plain hdigits _
    · exact isWord_withExponent hdigits layout _

/-- Every floating number is written as a word, infinities and what is no number among them. -/
theorem isWord_floatText (x : Binary64) : IsWord (floatText x) := by
  unfold floatText
  split
  · next negative units =>
    obtain ⟨hne, hchars⟩ := isWord_magnitude .document units
    refine ⟨by simp [NumberLayout.finite, hne], fun c hc => ?_⟩
    rcases List.mem_append.mp hc with hc | hc
    · split at hc
      · obtain rfl := List.mem_singleton.mp hc
        rfl
      · cases hc
    · exact hchars c hc
  · exact isWord_of_all (by simp) rfl

/-- A word is read up to where it ends, if what follows it is no character of a word. -/
theorem readWord_append {cs rest : List Char} (h : IsWord cs) (hrest : Ends rest) :
    readWord (cs ++ rest) = some (.word cs, rest) := by
  obtain ⟨htake, hdrop⟩ := Text.takeWhile_dropWhile_append h.2 hrest
  rw [readWord, htake, hdrop]
  cases cs with
  | nil => exact absurd rfl h.1
  | cons c cs => rfl

/-! ### Reading back -/

/-- A value starts with no blank. -/
theorem skipGaps_cons {c : Char} (h : isGap c = false) (rest : List Char) :
    skipGaps (c :: rest) = c :: rest := by
  simp [skipGaps, h]

theorem not_isGap_of_isWordChar {c : Char} (h : isWordChar c = true) : isGap c = false := by
  rw [← Bool.not_eq_true]
  intro hgap
  simp only [isGap, Bool.or_eq_true, decide_eq_true_eq] at hgap
  rcases hgap with ((rfl | rfl) | rfl) | rfl <;> exact absurd h (by decide)

/-- A text is read as a value, whatever the next word, bracket or comma may be. -/
def Reads (cs : List Char) (o : Outline) : Prop :=
  ∀ bound rest, Ends rest → 2 * cs.length ≤ bound → readValue bound (cs ++ rest) = some (o, rest)

/-- A word is the text of its own outline. -/
theorem reads_word {cs : List Char} (h : IsWord cs) : Reads cs (.word cs) := by
  intro bound rest hrest hbound
  obtain ⟨c, cs', rfl⟩ := List.exists_cons_of_ne_nil h.1
  obtain ⟨bound, rfl⟩ : ∃ n, bound = n + 1 := ⟨bound - 1, by rw [List.length_cons] at hbound; omega⟩
  have hc : isWordChar c = true := h.2 c List.mem_cons_self
  have hword := readWord_append h hrest
  rw [List.cons_append] at hword ⊢
  rw [readValue, skipGaps_cons (not_isGap_of_isWordChar hc)]
  split
  · next heq =>
    cases heq
    exact absurd hc (by decide)
  · next heq =>
    cases heq
    exact absurd hc (by decide)
  · next heq =>
    cases heq
    exact absurd hc (by decide)
  · exact hword

/-- A quoted text before more text: the escaped characters stand between its quotes. -/
theorem quotedText_append (s : String) (rest : List Char) :
    quotedText s ++ rest = '"' :: (s.toList.flatMap escapedChar ++ '"' :: rest) := by
  simp [quotedText]

/-- A text is read back resolved, whatever escapes it is written with. -/
theorem reads_text (s : String) : Reads (quotedText s) (.text s) := by
  intro bound rest _ hbound
  obtain ⟨bound, rfl⟩ : ∃ n, bound = n + 1 :=
    ⟨bound - 1, by simp only [quotedText, List.cons_append, List.length_cons] at hbound; omega⟩
  rw [quotedText_append, readValue, skipGaps_cons (by decide)]
  simp only [readQuoted_escaped, Option.map_some, String.ofList_toList]

/-- A document starts with no blank and with no bracket that closes another one. -/
theorem exists_write_eq_cons (j : Json) :
    ∃ c cs, j.write = c :: cs ∧ isGap c = false ∧ c ≠ ']' := by
  -- numbers are words, and no word starts with a gap or a bracket
  have hword : ∀ cs, IsWord cs → ∃ c cs', cs = c :: cs' ∧ isGap c = false ∧ c ≠ ']' := by
    intro cs h
    obtain ⟨c, cs', rfl⟩ := List.exists_cons_of_ne_nil h.1
    have hc : isWordChar c = true := h.2 c List.mem_cons_self
    refine ⟨c, cs', rfl, not_isGap_of_isWordChar hc, ?_⟩
    rintro rfl
    exact absurd hc (by decide)
  cases j with
  | null => exact ⟨_, _, rfl, by decide⟩
  | bool b => cases b <;> exact ⟨_, _, rfl, by decide⟩
  | int n =>
    rw [write]
    exact hword _ (isWord_wholeText n)
  | float x =>
    rw [write]
    exact hword _ (isWord_floatText x)
  | text s =>
    rw [write, quotedText]
    exact ⟨_, _, rfl, by decide⟩
  | array items =>
    rw [write]
    exact ⟨_, _, rfl, by decide⟩
  | object members =>
    rw [write]
    exact ⟨_, _, rfl, by decide⟩

/-- Between an item and the next one stands a comma. -/
theorem writeItems_cons_cons (item next : Json) (rest : List Json) :
    Json.writeItems (item :: next :: rest) =
      item.write ++ ',' :: Json.writeItems (next :: rest) := by
  rw [Json.writeItems]
  nofun

/-- A word ends before a character that cannot stand in words, be it a comma, a bracket or a gap. -/
theorem ends_cons {c : Char} (h : isWordChar c = false) (rest : List Char) : Ends (c :: rest) := by
  intro c' hc'
  obtain rfl := Option.some.inj hc'
  exact h

/-- Items are read one by one. -/
theorem readItems_writeItems {items : List Json} (hne : items ≠ [])
    (h : ∀ item ∈ items, Reads item.write item.outline) {bound : Nat} (rest : List Char)
    (hbound : 2 * (Json.writeItems items).length + 1 ≤ bound) :
    readItems bound (Json.writeItems items ++ rest) = some (outlines items, rest) := by
  obtain ⟨item, items, rfl⟩ := List.exists_cons_of_ne_nil hne
  clear hne
  induction items generalizing item bound with
  | nil =>
    obtain ⟨bound, rfl⟩ : ∃ n, bound = n + 1 := ⟨bound - 1, by omega⟩
    rw [Json.writeItems, List.append_assoc, List.cons_append, List.nil_append, readItems,
      h item List.mem_cons_self _ _ (ends_cons (by decide) _)]
    · simp only [skipGaps_cons (show isGap ']' = false by decide)]
      rfl
    · rw [Json.writeItems, List.length_append] at hbound
      omega
  | cons next items ih =>
    obtain ⟨bound, rfl⟩ : ∃ n, bound = n + 1 := ⟨bound - 1, by omega⟩
    rw [writeItems_cons_cons, List.length_append, List.length_cons] at hbound
    rw [writeItems_cons_cons, List.append_assoc, List.cons_append, readItems,
      h item List.mem_cons_self _ _ (ends_cons (by decide) _) (by omega)]
    have hrest := ih next (fun item hitem => h item (List.mem_cons_of_mem _ hitem))
      (show 2 * (Json.writeItems (next :: items)).length + 1 ≤ bound by omega)
    simp only [skipGaps_cons (show isGap ',' = false by decide), hrest]
    rfl

/-- After an opening bracket, and unless a closing one follows, come items. -/
theorem readValue_array {c : Char} {bound : Nat} {rest cs after : List Char}
    {items : List Outline} (hskip : skipGaps rest = c :: cs) (hc : c ≠ ']')
    (h : readItems bound rest = some (items, after)) :
    readValue (bound + 1) ('[' :: rest) = some (.array items, after) := by
  rw [readValue, skipGaps_cons (by decide)]
  simp only [h, hskip]
  split
  · next heq =>
    cases heq
    exact absurd rfl hc
  · rfl

/-- An array is read item by item if each of its items is. -/
theorem reads_array {items : List Json} (h : ∀ item ∈ items, Reads item.write item.outline) :
    Reads (Json.array items).write (Json.array items).outline := by
  intro bound rest _ hbound
  rw [write, List.length_cons] at hbound
  obtain ⟨bound, rfl⟩ : ∃ n, bound = n + 1 := ⟨bound - 1, by omega⟩
  rw [write, outline, List.cons_append]
  cases items with
  | nil => rfl
  | cons item items =>
    obtain ⟨c, cs, hcs, hgap, hc⟩ := exists_write_eq_cons item
    -- the first item does not look like the end of an empty array
    have hstart : ∃ cs', Json.writeItems (item :: items) ++ rest = c :: cs' := by
      cases items with
      | nil => exact ⟨_, by rw [Json.writeItems, hcs]; rfl⟩
      | cons next items => exact ⟨_, by rw [writeItems_cons_cons, hcs]; rfl⟩
    obtain ⟨cs', hcs'⟩ := hstart
    exact readValue_array (by rw [hcs', skipGaps_cons hgap]) hc
      (readItems_writeItems (List.cons_ne_nil _ _) h rest (by omega))

/-- Between a member and the next one stands a comma, and between its name and its value a colon. -/
theorem writeMembers_cons_cons (member next : String × Json) (rest : List (String × Json)) :
    Json.writeMembers (member :: next :: rest) =
      quotedText member.1 ++
        ':' :: (member.2.write ++ ',' :: Json.writeMembers (next :: rest)) := by
  rw [Json.writeMembers, List.append_assoc, List.cons_append]
  nofun

/-- Members are read one by one. -/
theorem readMembers_writeMembers {members : List (String × Json)} (hne : members ≠ [])
    (h : ∀ member ∈ members, Reads member.2.write member.2.outline) {bound : Nat}
    (rest : List Char) (hbound : 2 * (Json.writeMembers members).length + 1 ≤ bound) :
    readMembers bound (Json.writeMembers members ++ rest) =
      some (memberOutlines members, rest) := by
  obtain ⟨member, members, rfl⟩ := List.exists_cons_of_ne_nil hne
  clear hne
  -- on the members after the first one: the last one is followed by the brace, the others by commas
  induction members generalizing member bound with
  | nil =>
    obtain ⟨bound, rfl⟩ : ∃ n, bound = n + 1 := ⟨bound - 1, by omega⟩
    have hlast : Json.writeMembers [member] ++ rest = '"' ::
        (member.1.toList.flatMap escapedChar ++
          '"' :: ':' :: (member.2.write ++ '\x7d' :: rest)) := by
      rw [Json.writeMembers]
      simp [quotedText]
    have hlen : 2 * member.2.write.length ≤ bound := by
      rw [Json.writeMembers] at hbound
      simp only [List.length_append, List.length_cons] at hbound
      omega
    rw [hlast, readMembers, skipGaps_cons (by decide)]
    simp only [readQuoted_escaped, skipGaps_cons (show isGap ':' = false by decide),
      h member List.mem_cons_self _ _ (ends_cons (show isWordChar '\x7d' = false by decide) _) hlen,
      skipGaps_cons (show isGap '\x7d' = false by decide), String.ofList_toList]
    rfl
  | cons next members ih =>
    obtain ⟨bound, rfl⟩ : ∃ n, bound = n + 1 := ⟨bound - 1, by omega⟩
    rw [writeMembers_cons_cons] at hbound
    simp only [List.length_append, List.length_cons] at hbound
    have hrest := ih next (fun member hmember => h member (List.mem_cons_of_mem _ hmember))
      (show 2 * (Json.writeMembers (next :: members)).length + 1 ≤ bound by omega)
    rw [writeMembers_cons_cons, List.append_assoc, quotedText_append, readMembers,
      skipGaps_cons (by decide), List.cons_append, List.append_assoc, List.cons_append]
    simp only [readQuoted_escaped, skipGaps_cons (show isGap ':' = false by decide),
      h member List.mem_cons_self _ _ (ends_cons (show isWordChar ',' = false by decide) _)
        (show 2 * member.2.write.length ≤ bound by omega),
      skipGaps_cons (show isGap ',' = false by decide), hrest, String.ofList_toList]
    rfl

/-- After an opening brace, and unless a closing one follows, come members. -/
theorem readValue_object {c : Char} {bound : Nat} {rest cs after : List Char}
    {members : List (String × Outline)} (hskip : skipGaps rest = c :: cs) (hc : c ≠ '\x7d')
    (h : readMembers bound rest = some (members, after)) :
    readValue (bound + 1) ('\x7b' :: rest) = some (.object members, after) := by
  rw [readValue, skipGaps_cons (by decide)]
  simp only [h, hskip]
  split
  · next heq =>
    cases heq
    exact absurd rfl hc
  · rfl

/-- An object is read member by member if the values of all members are. Names that repeat are no
matter here: an outline keeps all members. -/
theorem reads_object {members : List (String × Json)}
    (h : ∀ member ∈ members, Reads member.2.write member.2.outline) :
    Reads (Json.object members).write (Json.object members).outline := by
  intro bound rest _ hbound
  rw [write, List.length_cons] at hbound
  obtain ⟨bound, rfl⟩ : ∃ n, bound = n + 1 := ⟨bound - 1, by omega⟩
  rw [write, outline, List.cons_append]
  cases members with
  | nil => rfl
  | cons member members =>
    have hstart : ∃ cs', Json.writeMembers (member :: members) ++ rest = '"' :: cs' := by
      cases members with
      | nil => exact ⟨_, by rw [Json.writeMembers, quotedText]; rfl⟩
      | cons next members => exact ⟨_, by rw [writeMembers_cons_cons, quotedText]; rfl⟩
    obtain ⟨cs', hcs'⟩ := hstart
    exact readValue_object (by rw [hcs', skipGaps_cons (by decide)]) (by decide)
      (readMembers_writeMembers (List.cons_ne_nil _ _) h rest (by omega))

mutual

/-- The text of every document is read as its outline. -/
theorem reads_write : (j : Json) → Reads j.write j.outline
  | .null => by
    rw [write, outline]
    exact reads_word (isWord_of_all (by simp) rfl)
  | .bool true => by
    rw [write, outline]
    exact reads_word (isWord_of_all (by simp) rfl)
  | .bool false => by
    rw [write, outline]
    exact reads_word (isWord_of_all (by simp) rfl)
  | .int n => by
    rw [write, outline]
    exact reads_word (isWord_wholeText n)
  | .float x => by
    rw [write, outline]
    exact reads_word (isWord_floatText x)
  | .text s => by
    rw [write, outline]
    exact reads_text s
  | .array items => reads_array (reads_writeItems items)
  | .object members => reads_object (reads_writeMembers members)

/-- Each item of an array is read, by the induction on documents. -/
theorem reads_writeItems : (items : List Json) → ∀ item ∈ items, Reads item.write item.outline
  | [] => nofun
  | item :: items => List.forall_mem_cons.mpr ⟨reads_write item, reads_writeItems items⟩

/-- The value of each member of an object is read, by the induction on documents. -/
theorem reads_writeMembers : (members : List (String × Json)) →
    ∀ member ∈ members, Reads member.2.write member.2.outline
  | [] => nofun
  | (_, value) :: members =>
    List.forall_mem_cons.mpr ⟨reads_write value, reads_writeMembers members⟩

end

/-- **Outlines read back.** The text of a document has the outline of that document. -/
theorem read?_write (j : Json) : read? j.write = some j.outline := by
  have h := reads_write j (2 * j.write.length) [] nofun (Nat.le_refl _)
  rw [List.append_nil] at h
  rw [read?, h]
  rfl

end Outline

end IndexedRecords
