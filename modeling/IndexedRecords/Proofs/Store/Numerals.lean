import IndexedRecords.Proofs.Json.Reading

/-!
# Numerals in stored documents

A store does not take a document with a numeral of too many digits. It looks for one without reading
the document, and so has to tell texts from the rest by their quotes. In a readable document it
finds none.

## Main statements

* `longNumeral?_write`: a readable document has no long numeral.
-/

namespace IndexedRecords.Store

open Json Numeral Text

variable {c : Char} {cs rest : List Char} {run : Nat}

/-! ### Outside of texts -/

theorem longNumeral?_digit (h : c.isDigit = true) (run : Nat) (rest : List Char) :
    longNumeral? false false run (c :: rest) = longNumeral? false false (run + 1) rest := by
  have hdigit : (asciiDigit? c).isSome = true := by
    rw [asciiDigit?_of_isDigit h]
    rfl
  rw [longNumeral?, if_neg (by decide), if_pos hdigit]

theorem longNumeral?_other (h : c.isDigit = false) (hquote : c ≠ '"') (hrun : run ≤ digitLimit)
    (rest : List Char) :
    longNumeral? false false run (c :: rest) = longNumeral? false false 0 rest := by
  have hdigit : ¬ (asciiDigit? c).isSome = true := by
    rw [asciiDigit?_of_not_isDigit h]
    nofun
  rw [longNumeral?, if_neg (by decide), if_neg hdigit, if_neg (Nat.not_lt.mpr hrun)]
  simp [hquote]

/-- A numeral that has ended within the limit does not matter. -/
theorem longNumeral?_of_noDigit (h : NoDigit rest) (hrun : run ≤ digitLimit) :
    longNumeral? false false run rest = longNumeral? false false 0 rest := by
  cases rest with
  | nil => rw [longNumeral?, longNumeral?, if_neg (Nat.not_lt.mpr hrun), if_neg (by decide)]
  | cons c rest =>
    have hdigit : ¬ (asciiDigit? c).isSome = true := by
      rw [asciiDigit?_of_not_isDigit (h c rfl)]
      nofun
    rw [longNumeral?, longNumeral?, if_neg hdigit, if_neg hdigit, if_neg (Nat.not_lt.mpr hrun),
      if_neg (show ¬ digitLimit < 0 by decide)]

/-- A word with few digits has no long numeral. -/
theorem longNumeral?_word (hcs : '"' ∉ cs) (hrun : run + cs.countP Char.isDigit ≤ digitLimit)
    (hrest : NoDigit rest) :
    longNumeral? false false run (cs ++ rest) = longNumeral? false false 0 rest := by
  induction cs generalizing run with
  | nil => exact longNumeral?_of_noDigit hrest hrun
  | cons c cs ih =>
    have hquote : c ≠ '"' := (List.ne_of_not_mem_cons hcs).symm
    have hothers : '"' ∉ cs := List.not_mem_of_not_mem_cons hcs
    rw [List.countP_cons] at hrun
    rw [List.cons_append]
    by_cases hc : c.isDigit = true
    · rw [if_pos hc] at hrun
      rw [longNumeral?_digit hc, ih hothers (by omega)]
    · rw [Bool.not_eq_true] at hc
      rw [longNumeral?_other hc hquote (by omega), ih hothers (by omega)]

/-! ### Inside of texts -/

theorem longNumeral?_inText (hquote : c ≠ '"') (hslash : c ≠ '\\') (rest : List Char) :
    longNumeral? true false 0 (c :: rest) = longNumeral? true false 0 rest := by
  simp [longNumeral?, hquote, hslash]

theorem longNumeral?_escaped (c : Char) (rest : List Char) :
    longNumeral? true false 0 ('\\' :: c :: rest) = longNumeral? true false 0 rest := by
  simp [longNumeral?]

/-- A character of a text keeps the text open. -/
theorem longNumeral?_escapedChar (c : Char) (rest : List Char) :
    longNumeral? true false 0 (escapedChar c ++ rest) = longNumeral? true false 0 rest := by
  -- an escape starts with a backslash, which keeps the reader inside the text
  unfold escapedChar
  split
  · exact longNumeral?_escaped c rest
  split
  · exact longNumeral?_escaped 'b' rest
  split
  · exact longNumeral?_escaped 'f' rest
  split
  · exact longNumeral?_escaped 'n' rest
  split
  · exact longNumeral?_escaped 'r' rest
  split
  · exact longNumeral?_escaped 't' rest
  split
  · next hcontrol =>
    have hdigits : ∀ n < 32, (hexDigits 4 n).all fun d => d ≠ '"' ∧ d ≠ '\\' := by decide
    obtain ⟨d₁, d₂, d₃, d₄, hhex, _⟩ := unit?_hexDigits c.toNat hcontrol
    have hd := hdigits c.toNat hcontrol
    rw [hhex] at hd ⊢
    simp only [List.all_cons, Bool.and_eq_true, decide_eq_true_eq] at hd
    obtain ⟨h₁, h₂, h₃, h₄, _⟩ := hd
    simp only [List.cons_append, List.nil_append]
    rw [longNumeral?_escaped, longNumeral?_inText h₁.1 h₁.2, longNumeral?_inText h₂.1 h₂.2,
      longNumeral?_inText h₃.1 h₃.2, longNumeral?_inText h₄.1 h₄.2]
  · next hplain _ _ _ _ _ _ =>
    rw [not_or] at hplain
    exact longNumeral?_inText hplain.1 hplain.2 rest

/-- A quoted text has no numerals. -/
theorem longNumeral?_quotedText (s : String) (rest : List Char) :
    longNumeral? false false 0 (quotedText s ++ rest) = longNumeral? false false 0 rest := by
  have hchars : ∀ cs : List Char,
      longNumeral? true false 0 (cs.flatMap escapedChar ++ '"' :: rest) =
      longNumeral? false false 0 rest := by
    intro cs
    induction cs with
    | nil => simp [longNumeral?]
    | cons c cs ih =>
      rw [List.flatMap_cons, List.append_assoc, longNumeral?_escapedChar, ih]
  rw [Outline.quotedText_append, ← hchars s.toList]
  simp [longNumeral?, asciiDigit?]

/-! ### Documents -/

/-- The text of a document has no long numeral before what follows it. -/
def Passes (cs : List Char) : Prop :=
  ∀ rest, NoDigit rest →
    longNumeral? false false 0 (cs ++ rest) = longNumeral? false false 0 rest

theorem passes_word (hcs : Outline.IsWord cs) (hshort : cs.countP Char.isDigit ≤ digitLimit) :
    Passes cs := by
  intro rest hrest
  have hquote : '"' ∉ cs := fun hmem => absurd (hcs.2 '"' hmem) (by decide)
  exact longNumeral?_word hquote (by omega) hrest

/-- What stands between the values of a document is passed over. -/
theorem longNumeral?_mark (hdigit : c.isDigit = false) (hquote : c ≠ '"') (rest : List Char) :
    longNumeral? false false 0 (c :: rest) = longNumeral? false false 0 rest :=
  longNumeral?_other hdigit hquote (by decide) rest

theorem longNumeral?_writeItems {items : List Json} (h : ∀ item ∈ items, Passes item.write)
    (rest : List Char) :
    longNumeral? false false 0 (writeItems items ++ rest) = longNumeral? false false 0 rest := by
  induction items with
  | nil => exact longNumeral?_mark rfl (by decide) rest
  | cons item items ih =>
    have hitem := h item List.mem_cons_self
    have hothers := ih fun item hitem => h item (List.mem_cons_of_mem _ hitem)
    cases items with
    | nil =>
      rw [writeItems, List.append_assoc, List.cons_append, List.nil_append,
        hitem _ (noDigit_cons rfl _), longNumeral?_mark rfl (by decide)]
    | cons next items =>
      rw [Outline.writeItems_cons_cons, List.append_assoc, List.cons_append,
        hitem _ (noDigit_cons rfl _), longNumeral?_mark rfl (by decide), hothers]

theorem longNumeral?_writeMembers {members : List (String × Json)}
    (h : ∀ m ∈ members, Passes m.2.write) (rest : List Char) :
    longNumeral? false false 0 (writeMembers members ++ rest) =
      longNumeral? false false 0 rest := by
  induction members with
  | nil => exact longNumeral?_mark rfl (by decide) rest
  | cons member members ih =>
    have hvalue := h member List.mem_cons_self
    have hothers := ih fun m hm => h m (List.mem_cons_of_mem _ hm)
    cases members with
    | nil =>
      rw [writeMembers]
      simp only [List.append_assoc, List.cons_append, List.nil_append]
      rw [longNumeral?_quotedText, longNumeral?_mark rfl (by decide), hvalue _ (noDigit_cons rfl _),
        longNumeral?_mark rfl (by decide)]
    | cons next members =>
      rw [Outline.writeMembers_cons_cons]
      simp only [List.append_assoc, List.cons_append]
      rw [longNumeral?_quotedText, longNumeral?_mark rfl (by decide), hvalue _ (noDigit_cons rfl _),
        longNumeral?_mark rfl (by decide), hothers]

theorem passes_write {j : Json} (h : Readable j) : Passes j.write := by
  induction h with
  | null => exact passes_word (Outline.isWord_of_all (by simp [write]) rfl) (by decide)
  | bool b =>
    cases b <;> exact passes_word (Outline.isWord_of_all (by simp [write]) rfl) (by decide)
  | @int n short =>
    rw [write]
    exact passes_word (Outline.isWord_wholeText n) (Nat.le_trans List.countP_le_length short)
  | @float x reads =>
    rw [write]
    exact passes_word (Outline.isWord_floatText x) reads.short
  | text s =>
    intro rest _
    rw [write, longNumeral?_quotedText]
  | @array items each ih =>
    intro rest _
    rw [write, List.cons_append, longNumeral?_mark rfl (by decide), longNumeral?_writeItems ih]
  | @object members names each ih =>
    intro rest _
    rw [write, List.cons_append, longNumeral?_mark rfl (by decide), longNumeral?_writeMembers ih]

/-- **Short numerals.** A readable document has no numeral that a store refuses. -/
theorem longNumeral?_write {j : Json} (h : Readable j) :
    longNumeral? false false 0 j.write = none := by
  have hpasses := passes_write h [] noDigit_nil
  rw [List.append_nil] at hpasses
  rw [hpasses]
  rfl

end IndexedRecords.Store
