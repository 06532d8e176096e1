import IndexedRecords.Proofs.Json.Outline
import IndexedRecords.Proofs.Number.WholeFloat
import IndexedRecords.Proofs.Tables

/-!
# Documents read back

The text of a document is read as that document, if the reader accepts what is in it: whole numbers
of few digits, floating numbers that their text gives back, objects without repeated names, and no
more nesting than the limit (`Readable`).

## Main statements

* `read?_write`: a readable document is read back from its text.
-/

namespace IndexedRecords.Json

open Numeral Text

/-! ### Readable documents -/

/-- The text of a floating number is short and gives it back, whatever follows a number in
a document. -/
structure FloatReads (x : Binary64) : Prop where
  short : (floatText x).countP Char.isDigit ≤ digitLimit
  reads : ∀ rest, Outline.Ends rest → readAtom (floatText x ++ rest) = some (.float x, rest)

/-- A reader accepts what is in a document. -/
inductive Readable : Json → Prop where
  | null : Readable .null
  | bool (b : Bool) : Readable (.bool b)
  | int {n : Int} (short : (wholeText n).length ≤ digitLimit) : Readable (.int n)
  | float {x : Binary64} (reads : FloatReads x) : Readable (.float x)
  | text (s : String) : Readable (.text s)
  | array {items : List Json} (each : ∀ item ∈ items, Readable item) : Readable (.array items)
  | object {members : List (String × Json)} (names : (members.map Prod.fst).Nodup)
      (each : ∀ m ∈ members, Readable m.2) : Readable (.object members)

mutual

/-- How many objects and arrays of a document stand inside each other. -/
def nesting : Json → Nat
  | .array items => itemNesting items + 1
  | .object members => memberNesting members + 1
  | _ => 0

/-- How deep the items of an array nest. -/
def itemNesting : List Json → Nat
  | [] => 0
  | item :: rest => max (nesting item) (itemNesting rest)

/-- How deep the members of an object nest. -/
def memberNesting : List (String × Json) → Nat
  | [] => 0
  | (_, value) :: rest => max (nesting value) (memberNesting rest)

end

/-- No item of an array nests deeper than the items together. -/
theorem nesting_le_itemNesting {items : List Json} {item : Json} (h : item ∈ items) :
    item.nesting ≤ itemNesting items := by
  induction items with
  | nil => cases h
  | cons first items ih =>
    rw [itemNesting]
    rcases List.mem_cons.mp h with rfl | h
    · exact Nat.le_max_left _ _
    · exact Nat.le_trans (ih h) (Nat.le_max_right _ _)

/-- No value in an object nests deeper than the members together. -/
theorem nesting_le_memberNesting {members : List (String × Json)} {m : String × Json}
    (h : m ∈ members) : m.2.nesting ≤ memberNesting members := by
  induction members with
  | nil => cases h
  | cons first members ih =>
    rw [memberNesting]
    rcases List.mem_cons.mp h with rfl | h
    · exact Nat.le_max_left _ _
    · exact Nat.le_trans (ih h) (Nat.le_max_right _ _)

/-! ### Numbers -/

/-- What follows a word starts with no digit, so that a number ends there. -/
theorem noDigit_of_ends {rest : List Char} (h : Outline.Ends rest) : NoDigit rest := by
  intro c hc
  have hword := h c hc
  simp only [Outline.isWordChar, Char.isAlphanum, Bool.or_eq_false_iff] at hword
  exact hword.1.1.1.2

/-- What follows a word starts with no fraction. -/
theorem readFractionPart_of_ends {rest : List Char} (h : Outline.Ends rest) :
    readFractionPart rest = some ([], rest) := by
  unfold readFractionPart
  split
  · exact absurd (h '.' rfl) (by decide)
  · rfl

/-- What follows a word starts with no exponent. -/
theorem readExponentPart_of_ends {rest : List Char} (h : Outline.Ends rest) :
    readExponentPart rest = some (none, rest) := by
  cases rest with
  | nil => rfl
  | cons c rest =>
    have hexponent : ¬ (c = 'e' ∨ c = 'E') := by
      rintro (rfl | rfl)
      · exact absurd (h 'e' rfl) (by decide)
      · exact absurd (h 'E' rfl) (by decide)
    rw [readExponentPart, if_neg hexponent]

/-- The digits of a short number are read as that number. -/
theorem readMagnitude_toDigits {n : Nat} (negative : Bool)
    (short : (Nat.toDigits 10 n).length + (if negative then 1 else 0) ≤ digitLimit)
    {rest : List Char} (hrest : Outline.Ends rest) :
    readMagnitude negative (Nat.toDigits 10 n ++ rest) =
      some (.int (if negative then -(n : Int) else n), rest) := by
  have hspan := spanDigits_toDigits n (noDigit_of_ends hrest)
  have hne : (Nat.toDigits 10 n).map digitOf ≠ [] :=
    mt List.map_eq_nil_iff.mp Nat.toDigits_ne_nil
  have hstart := not_or.mpr ⟨hne, not_leadingZero_toDigits n⟩
  have hshort : ¬ digitLimit <
      ((Nat.toDigits 10 n).map digitOf).length + (if negative then 1 else 0) := by
    rw [List.length_map]
    exact not_lt.mpr short
  rw [readMagnitude]
  simp only [hspan, if_neg hstart, readFractionPart_of_ends hrest, readExponentPart_of_ends hrest,
    Option.bind_eq_bind, Option.bind_some, and_self, if_true, if_neg hshort, ofDigits_toDigits]

/-- A digit starts a number. -/
theorem readAtom_digit {c : Char} (h : c.isDigit = true) (cs : List Char) :
    readAtom (c :: cs) = readMagnitude false (c :: cs) := by
  have hne : ∀ d : Char, d.isDigit = false → c ≠ d := by
    rintro d hd rfl
    exact absurd (h.symm.trans hd) (by decide)
  simp only [readAtom, if_neg (hne '"' rfl), if_neg (hne '-' rfl), if_neg (hne 'n' rfl),
    if_neg (hne 't' rfl), if_neg (hne 'f' rfl), if_neg (hne 'N' rfl), if_neg (hne 'I' rfl)]

/-- A minus before a digit starts a negative number. -/
theorem readAtom_minus {c : Char} (h : c.isDigit = true) (cs : List Char) :
    readAtom ('-' :: c :: cs) = readMagnitude true (c :: cs) := by
  have hne : c ≠ 'I' := by
    rintro rfl
    exact absurd h (by decide)
  simp only [readAtom, List.head?_cons, Option.some.injEq, if_neg hne]
  rfl

/-- A short whole number is read back. -/
theorem readAtom_wholeText {n : Int} (short : (wholeText n).length ≤ digitLimit)
    {rest : List Char} (hrest : Outline.Ends rest) :
    readAtom (wholeText n ++ rest) = some (.int n, rest) := by
  obtain ⟨c, cs, hcs⟩ := List.exists_cons_of_ne_nil (Nat.toDigits_ne_nil (b := 10) (n := n.natAbs))
  have hc : c.isDigit = true := by
    refine Nat.isDigit_of_mem_toDigits (b := 10) (n := n.natAbs) (by decide) (by decide) ?_
    rw [hcs]
    exact List.mem_cons_self
  rw [length_wholeText] at short
  by_cases hn : n < 0
  · rw [if_pos hn] at short
    have hdigits := readMagnitude_toDigits true short hrest
    rw [hcs, List.cons_append] at hdigits
    rw [wholeText, if_pos hn, hcs, List.append_assoc, List.cons_append, List.cons_append,
      List.nil_append, readAtom_minus hc, hdigits, if_pos rfl]
    congr 3
    omega
  · rw [if_neg hn] at short
    have hdigits := readMagnitude_toDigits false short hrest
    rw [hcs, List.cons_append] at hdigits
    rw [wholeText, if_neg hn, hcs, List.nil_append, List.cons_append, readAtom_digit hc, hdigits]
    congr 3
    simp
    omega

/-! ### Whole floating numbers -/

/-- The digits of a whole number with a point and a zero are read as the floating number. -/
theorem readMagnitude_whole {n : Nat} {digits : List Char} (hn : n < 10 ^ 15)
    (h : Binary64.WholeDigits n digits) (negative : Bool) {rest : List Char}
    (hrest : Outline.Ends rest) :
    readMagnitude negative (digits ++ '.' :: '0' :: rest) =
      some (.float (.finite negative (n * Binary64.one)), rest) := by
  have hspan := spanDigits_append h.isDigit (noDigit_cons (show '.'.isDigit = false from rfl)
    ('0' :: rest))
  have hne : digits.map digitOf ≠ [] := mt List.map_eq_nil_iff.mp h.ne_nil
  have hstart := not_or.mpr ⟨hne, h.leading⟩
  have hfraction : readFractionPart ('.' :: '0' :: rest) = some ([0], rest) := by
    have hzero : spanDigits (['0'] ++ rest) = ([0], rest) :=
      spanDigits_append (List.forall_mem_singleton.mpr rfl) (noDigit_of_ends hrest)
    rw [List.singleton_append] at hzero
    simp only [readFractionPart, hzero]
  have hvalue : ofDigits (digits.map digitOf ++ [0]) = n * 10 := by
    have hzeros := ofDigits_append_zeros (digits.map digitOf) 1
    rw [h.ofDigits] at hzeros
    exact hzeros
  rw [readMagnitude]
  simp only [hspan, if_neg hstart, hfraction, readExponentPart_of_ends hrest, hvalue,
    Option.bind_eq_bind, Option.bind_some, Option.getD_none, List.length_singleton]
  rw [if_neg (fun hwhole => List.cons_ne_nil _ _ hwhole.1)]
  exact congrArg (fun x => some (Json.float x, rest)) (Binary64.ofScientific_tenths hn negative)

/-- A whole number below `10¹⁵` is given back by its text as a floating number. -/
theorem floatReads_whole {n : Nat} (hn : n < 10 ^ 15) (negative : Bool) :
    FloatReads (.finite negative (n * Binary64.one)) := by
  obtain ⟨digits, hmagnitude, hdigits⟩ := Binary64.magnitude_whole hn
  have htext : floatText (.finite negative (n * Binary64.one)) =
      (if negative then ['-'] else []) ++ (digits ++ ['.', '0']) := by
    rw [floatText, NumberLayout.finite, hmagnitude]
  obtain ⟨c, cs, hcs⟩ := List.exists_cons_of_ne_nil hdigits.ne_nil
  have hc : c.isDigit = true := hdigits.isDigit c (by rw [hcs]; exact List.mem_cons_self)
  refine ⟨?_, fun rest hrest => ?_⟩
  · have hlength := hdigits.length_le
    refine Nat.le_trans List.countP_le_length ?_
    rw [htext, List.length_append, List.length_append]
    cases negative <;> simp [digitLimit] <;> omega
  · have hread := readMagnitude_whole hn hdigits negative hrest
    have hassoc : digits ++ ['.', '0'] ++ rest = digits ++ '.' :: '0' :: rest := by simp
    rw [hcs, List.cons_append] at hread
    rw [htext, List.append_assoc, hassoc, hcs, List.cons_append]
    cases negative with
    | false => rw [if_neg Bool.false_ne_true, List.nil_append, readAtom_digit hc, hread]
    | true => rw [if_pos rfl, List.singleton_append, readAtom_minus hc, hread]

/-! ### Values -/

/-- A text is read as a document that nests up to a given depth, whatever follows it in another
document. -/
def Reads (height : Nat) (cs : List Char) (j : Json) : Prop :=
  ∀ depth bound rest, height ≤ depth → Outline.Ends rest → 2 * cs.length ≤ bound →
    readValue depth bound (cs ++ rest) = some (j, rest)

/-- What starts neither a container nor a gap is read as an atom. -/
theorem readValue_of_readAtom {c : Char} {cs : List Char} (hgap : isGap c = false)
    (harray : c ≠ '[') (hobject : c ≠ '\x7b') (depth bound : Nat) :
    readValue depth (bound + 1) (c :: cs) = readAtom (c :: cs) := by
  rw [readValue, Outline.skipGaps_cons hgap]
  split
  · next heq => exact absurd (List.cons.inj heq).1 harray
  · next heq => exact absurd (List.cons.inj heq).1 hobject
  · rfl

/-- What is read as an atom is read as a value, since it starts neither a container nor a gap. -/
theorem reads_of_readAtom {cs : List Char} {j : Json}
    (hstart : ∃ c cs', cs = c :: cs' ∧ isGap c = false ∧ c ≠ '[' ∧ c ≠ '\x7b')
    (h : ∀ rest, Outline.Ends rest → readAtom (cs ++ rest) = some (j, rest)) : Reads 0 cs j := by
  intro depth bound rest _ hrest hbound
  obtain ⟨c, cs', rfl, hgap, harray, hobject⟩ := hstart
  obtain ⟨bound, rfl⟩ : ∃ n, bound = n + 1 := ⟨bound - 1, by rw [List.length_cons] at hbound; omega⟩
  have hread := h rest hrest
  rw [List.cons_append] at hread ⊢
  rw [readValue_of_readAtom hgap harray hobject, hread]

/-- A word starts neither a container nor a gap. -/
theorem exists_start_of_isWord {cs : List Char} (h : Outline.IsWord cs) :
    ∃ c cs', cs = c :: cs' ∧ isGap c = false ∧ c ≠ '[' ∧ c ≠ '\x7b' := by
  obtain ⟨c, cs', rfl⟩ := List.exists_cons_of_ne_nil h.1
  have hc : Outline.isWordChar c = true := h.2 c List.mem_cons_self
  refine ⟨c, cs', rfl, Outline.not_isGap_of_isWordChar hc, ?_, ?_⟩ <;>
  · rintro rfl
    exact absurd hc (by decide)

/-- Null is read back. -/
theorem reads_null : Reads 0 (write .null) .null :=
  reads_of_readAtom ⟨_, _, rfl, by decide⟩ fun _ _ => rfl

/-- Truth values are read back. -/
theorem reads_bool (b : Bool) : Reads 0 (write (.bool b)) (.bool b) := by
  cases b <;> exact reads_of_readAtom ⟨_, _, rfl, by decide⟩ fun _ _ => rfl

/-- Whole numbers are read back, unless they have too many digits. -/
theorem reads_int {n : Int} (short : (wholeText n).length ≤ digitLimit) :
    Reads 0 (write (.int n)) (.int n) := by
  rw [write]
  exact reads_of_readAtom (exists_start_of_isWord (Outline.isWord_wholeText n))
    fun _ hrest => readAtom_wholeText short hrest

/-- Floating numbers are read back if their text gives them back. -/
theorem reads_float {x : Binary64} (h : FloatReads x) : Reads 0 (write (.float x)) (.float x) := by
  rw [write]
  exact reads_of_readAtom (exists_start_of_isWord (Outline.isWord_floatText x)) h.reads

/-- All texts are read back. -/
theorem reads_text (s : String) : Reads 0 (write (.text s)) (.text s) := by
  rw [write]
  refine reads_of_readAtom ⟨_, _, rfl, by decide⟩ fun rest _ => ?_
  rw [Outline.quotedText_append, readAtom, if_pos rfl, readQuoted_escaped]
  simp only [Option.map_some, String.ofList_toList]

/-! ### Containers -/

/-- Items are read one by one. -/
theorem readItems_writeItems {items : List Json} (hne : items ≠ []) {depth : Nat}
    (h : ∀ item ∈ items, Reads depth item.write item) {bound : Nat} (rest : List Char)
    (hbound : 2 * (writeItems items).length + 1 ≤ bound) :
    readItems depth bound (writeItems items ++ rest) = some (items, rest) := by
  obtain ⟨item, items, rfl⟩ := List.exists_cons_of_ne_nil hne
  clear hne
  induction items generalizing item bound with
  | nil =>
    obtain ⟨bound, rfl⟩ : ∃ n, bound = n + 1 := ⟨bound - 1, by omega⟩
    have hlength : 2 * item.write.length ≤ bound := by
      rw [writeItems, List.length_append] at hbound
      omega
    have hitem := h item List.mem_cons_self depth bound (']' :: rest) (Nat.le_refl _)
      (Outline.ends_cons (by decide) _) hlength
    rw [writeItems, List.append_assoc, List.cons_append, List.nil_append, readItems, hitem]
    simp only [Outline.skipGaps_cons (show isGap ']' = false by decide)]
  | cons next items ih =>
    obtain ⟨bound, rfl⟩ : ∃ n, bound = n + 1 := ⟨bound - 1, by omega⟩
    rw [Outline.writeItems_cons_cons, List.length_append, List.length_cons] at hbound
    have hitem :=
      h item List.mem_cons_self depth bound (',' :: (writeItems (next :: items) ++ rest))
        (Nat.le_refl _) (Outline.ends_cons (by decide) _) (by omega)
    have hothers := ih next (fun item hitem => h item (List.mem_cons_of_mem _ hitem))
      (show 2 * (writeItems (next :: items)).length + 1 ≤ bound by omega)
    rw [Outline.writeItems_cons_cons, List.append_assoc, List.cons_append, readItems, hitem]
    simp only [Outline.skipGaps_cons (show isGap ',' = false by decide), hothers, Option.map_some]

/-- Members are read one by one. -/
theorem readMembers_writeMembers {members : List (String × Json)} (hne : members ≠ [])
    {depth : Nat} (h : ∀ m ∈ members, Reads depth m.2.write m.2) {bound : Nat} (rest : List Char)
    (hbound : 2 * (writeMembers members).length + 1 ≤ bound) :
    readMembers depth bound (writeMembers members ++ rest) = some (members, rest) := by
  obtain ⟨member, members, rfl⟩ := List.exists_cons_of_ne_nil hne
  clear hne
  -- on the members after the first one: the last one is followed by the brace, the others by commas
  induction members generalizing member bound with
  | nil =>
    obtain ⟨bound, rfl⟩ : ∃ n, bound = n + 1 := ⟨bound - 1, by omega⟩
    have hlast : writeMembers [member] ++ rest = '"' ::
        (member.1.toList.flatMap escapedChar ++
          '"' :: ':' :: (member.2.write ++ '\x7d' :: rest)) := by
      rw [writeMembers]
      simp [quotedText]
    have hlength : 2 * member.2.write.length ≤ bound := by
      rw [writeMembers] at hbound
      simp only [List.length_append, List.length_cons] at hbound
      omega
    have hvalue := h member List.mem_cons_self depth bound ('\x7d' :: rest) (Nat.le_refl _)
      (Outline.ends_cons (by decide) _) hlength
    rw [hlast, readMembers, Outline.skipGaps_cons (by decide)]
    simp only [readQuoted_escaped, Outline.skipGaps_cons (show isGap ':' = false by decide), hvalue,
      Outline.skipGaps_cons (show isGap '\x7d' = false by decide), String.ofList_toList]
  | cons next members ih =>
    obtain ⟨bound, rfl⟩ : ∃ n, bound = n + 1 := ⟨bound - 1, by omega⟩
    rw [Outline.writeMembers_cons_cons] at hbound
    simp only [List.length_append, List.length_cons] at hbound
    have hvalue := h member List.mem_cons_self depth bound
      (',' :: (writeMembers (next :: members) ++ rest)) (Nat.le_refl _)
      (Outline.ends_cons (by decide) _) (by omega)
    have hothers := ih next (fun m hm => h m (List.mem_cons_of_mem _ hm))
      (show 2 * (writeMembers (next :: members)).length + 1 ≤ bound by omega)
    rw [Outline.writeMembers_cons_cons, List.append_assoc, Outline.quotedText_append, readMembers,
      Outline.skipGaps_cons (by decide), List.cons_append, List.append_assoc, List.cons_append]
    simp only [readQuoted_escaped, Outline.skipGaps_cons (show isGap ':' = false by decide), hvalue,
      Outline.skipGaps_cons (show isGap ',' = false by decide), hothers, Option.map_some,
      String.ofList_toList]

/-- After an opening bracket, and unless a closing one follows, a reader that may nest one level
deeper goes through items. -/
theorem readValue_array {c : Char} {depth bound : Nat} {rest cs after : List Char}
    {items : List Json} (hskip : skipGaps rest = c :: cs) (hc : c ≠ ']')
    (h : readItems depth bound rest = some (items, after)) :
    readValue (depth + 1) (bound + 1) ('[' :: rest) = some (.array items, after) := by
  rw [readValue, Outline.skipGaps_cons (by decide)]
  simp only [hskip, Nat.add_sub_cancel, h, if_neg (Nat.succ_ne_zero depth)]
  split
  · next heq => exact absurd (List.cons.inj heq).1 hc
  · rfl

/-- An array is read back if its items are, one level deeper. -/
theorem reads_array {items : List Json} {height : Nat}
    (h : ∀ item ∈ items, ∀ depth, height ≤ depth → Reads depth item.write item) :
    Reads (height + 1) (write (.array items)) (.array items) := by
  intro depth bound rest hdepth _ hbound
  rw [write, List.length_cons] at hbound
  obtain ⟨bound, rfl⟩ : ∃ n, bound = n + 1 := ⟨bound - 1, by omega⟩
  obtain ⟨depth, rfl⟩ : ∃ n, depth = n + 1 := ⟨depth - 1, by omega⟩
  rw [write, List.cons_append]
  cases items with
  | nil => rfl
  | cons item items =>
    obtain ⟨c, cs, hcs, hgap, hc⟩ := Outline.exists_write_eq_cons item
    -- the first item does not look like the end of an empty array
    have hstart : ∃ cs', writeItems (item :: items) ++ rest = c :: cs' := by
      cases items with
      | nil => exact ⟨_, by rw [writeItems, hcs]; rfl⟩
      | cons next items => exact ⟨_, by rw [Outline.writeItems_cons_cons, hcs]; rfl⟩
    obtain ⟨cs', hcs'⟩ := hstart
    have hskip : skipGaps (writeItems (item :: items) ++ rest) = c :: cs' := by
      rw [hcs', Outline.skipGaps_cons hgap]
    refine readValue_array hskip hc (readItems_writeItems (List.cons_ne_nil _ _) ?_ rest (by omega))
    exact fun item hitem => h item hitem depth (by omega)

/-- After an opening brace, and unless a closing one follows, a reader that may nest one level
deeper goes through members. Without repeated names there is nothing to merge. -/
theorem readValue_object {c : Char} {depth bound : Nat} {rest cs after : List Char}
    {members : List (String × Json)} (names : (members.map Prod.fst).Nodup)
    (hskip : skipGaps rest = c :: cs) (hc : c ≠ '\x7d')
    (h : readMembers depth bound rest = some (members, after)) :
    readValue (depth + 1) (bound + 1) ('\x7b' :: rest) = some (.object members, after) := by
  have hmerged : mergeMembers members = members := by
    rw [mergeMembers_eq_tableOf, Store.tableOf_of_nodup names]
  rw [readValue, Outline.skipGaps_cons (by decide)]
  simp only [hskip, Nat.add_sub_cancel, h, if_neg (Nat.succ_ne_zero depth), Option.map_some,
    hmerged]
  split
  · next heq => exact absurd (List.cons.inj heq).1 hc
  · rfl

/-- An object without repeated names is read back if its values are, one level deeper. -/
theorem reads_object {members : List (String × Json)} {height : Nat}
    (names : (members.map Prod.fst).Nodup)
    (h : ∀ m ∈ members, ∀ depth, height ≤ depth → Reads depth m.2.write m.2) :
    Reads (height + 1) (write (.object members)) (.object members) := by
  intro depth bound rest hdepth _ hbound
  rw [write, List.length_cons] at hbound
  obtain ⟨bound, rfl⟩ : ∃ n, bound = n + 1 := ⟨bound - 1, by omega⟩
  obtain ⟨depth, rfl⟩ : ∃ n, depth = n + 1 := ⟨depth - 1, by omega⟩
  rw [write, List.cons_append]
  cases members with
  | nil => rfl
  | cons member members =>
    have hstart : ∃ cs', writeMembers (member :: members) ++ rest = '"' :: cs' := by
      cases members with
      | nil => exact ⟨_, by rw [writeMembers, quotedText]; rfl⟩
      | cons next members => exact ⟨_, by rw [Outline.writeMembers_cons_cons, quotedText]; rfl⟩
    obtain ⟨cs', hcs'⟩ := hstart
    have hskip : skipGaps (writeMembers (member :: members) ++ rest) = '"' :: cs' := by
      rw [hcs', Outline.skipGaps_cons (by decide)]
    refine readValue_object names hskip (by decide)
      (readMembers_writeMembers (List.cons_ne_nil _ _) ?_ rest (by omega))
    exact fun m hm => h m hm depth (by omega)

/-! ### Whole documents -/

/-- A reader that may nest deeper reads no less. -/
theorem Reads.mono {height height' : Nat} {cs : List Char} {j : Json} (h : Reads height cs j)
    (hle : height ≤ height') : Reads height' cs j := by
  intro depth bound rest hdepth hrest hbound
  exact h depth bound rest (Nat.le_trans hle hdepth) hrest hbound

/-- A readable document is read at any depth that is enough for its nesting. -/
theorem reads_write {j : Json} (h : Readable j) : Reads j.nesting j.write j := by
  induction h with
  | null => exact reads_null
  | bool b => exact reads_bool b
  | int short => exact reads_int short
  | float reads => exact reads_float reads
  | text s => exact reads_text s
  | @array items each ih =>
    refine reads_array fun item hitem depth hdepth => ?_
    exact (ih item hitem).mono (Nat.le_trans (nesting_le_itemNesting hitem) hdepth)
  | @object members names each ih =>
    refine reads_object names fun m hm depth hdepth => ?_
    exact (ih m hm).mono (Nat.le_trans (nesting_le_memberNesting hm) hdepth)

/-- **Documents read back.** A readable document that nests within the limit is read back from its
text. -/
theorem read?_write {j : Json} (h : Readable j) (hnesting : j.nesting ≤ nestingLimit) :
    read? j.write = some j := by
  have hread :=
    reads_write h nestingLimit (2 * j.write.length + 1) [] hnesting nofun (Nat.le_succ _)
  rw [List.append_nil] at hread
  rw [read?, hread]
  rfl

end IndexedRecords.Json
