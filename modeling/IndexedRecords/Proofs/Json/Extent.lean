import IndexedRecords.Proofs.Json.Reading

/-!
# Documents that are read if they are accepted

A reader need not accept the text of a document: it may have numbers with too many digits, or nest
too deeply. Where it does accept the text, it stops where the text ends, it finds the members of an
object under their names, and it takes single values other than floating numbers for themselves.

## Main statements

* `stops`: a reader stops where the text of a document ends.
* `exists_members_of_read?`: an object that is read has the members it was written with.
-/

namespace IndexedRecords.Json

open Numeral Text

variable {cs rest after : List Char} {j : Json} {depth bound : Nat}

/-! ### Numbers -/

/-- What has been read off a text is a run of characters that may stand in words. -/
def TakesWord (cs after : List Char) : Prop :=
  ∃ taken, cs = taken ++ after ∧ ∀ c ∈ taken, Outline.isWordChar c = true

/-- Nothing at all may be read off a text. -/
theorem TakesWord.refl (cs : List Char) : TakesWord cs cs := ⟨[], rfl, nofun⟩

/-- One more character of a word may be read off a text. -/
theorem TakesWord.cons {c : Char} (hc : Outline.isWordChar c = true) (h : TakesWord cs after) :
    TakesWord (c :: cs) after := by
  obtain ⟨taken, rfl, htaken⟩ := h
  exact ⟨c :: taken, rfl, List.forall_mem_cons.mpr ⟨hc, htaken⟩⟩

/-- Two parts of a number, read one after the other, are one run of characters. -/
theorem TakesWord.trans {middle : List Char} (h : TakesWord cs middle)
    (h' : TakesWord middle after) : TakesWord cs after := by
  obtain ⟨taken, rfl, htaken⟩ := h
  obtain ⟨taken', rfl, htaken'⟩ := h'
  refine ⟨taken ++ taken', (List.append_assoc ..).symm, fun c hc => ?_⟩
  exact (List.mem_append.mp hc).elim (htaken c) (htaken' c)

/-- A word is taken as a whole by whatever takes characters of words and stops where words end. -/
theorem TakesWord.eq_of_ends (h : TakesWord (cs ++ rest) after) (hrest : Outline.Ends rest)
    (hafter : Outline.Ends after) (hcs : ∀ c ∈ cs, Outline.isWordChar c = true) : after = rest := by
  obtain ⟨taken, heq, htaken⟩ := h
  obtain ⟨left, rfl, rfl⟩ | ⟨more, rfl, rfl⟩ := List.append_eq_append_iff.mp heq
  · cases left with
    | nil => rfl
    | cons c left => exact absurd (htaken c (by simp)) (by rw [hrest c rfl]; decide)
  · cases more with
    | nil => rfl
    | cons c more => exact absurd (hcs c (by simp)) (by rw [hafter c rfl]; decide)

/-- What counts as a digit to the reader is a character of words. -/
theorem isWordChar_of_asciiDigit? {c : Char} {d : Nat} (h : asciiDigit? c = some d) :
    Outline.isWordChar c = true := by
  cases hdigit : c.isDigit with
  | true => simp [Outline.isWordChar, Char.isAlphanum, hdigit]
  | false => cases (asciiDigit?_of_not_isDigit hdigit).symm.trans h

/-- Reading digits takes characters of words only. -/
theorem takesWord_spanDigits (cs : List Char) : TakesWord cs (spanDigits cs).2 := by
  induction cs with
  | nil => exact .refl _
  | cons c cs ih =>
    rw [spanDigits]
    cases hdigit : asciiDigit? c with
    | none => exact .refl _
    | some d => exact ih.cons (isWordChar_of_asciiDigit? hdigit)

/-- Reading a fraction takes a point and digits, or nothing. -/
theorem takesWord_readFractionPart {digits : List Nat}
    (h : readFractionPart cs = some (digits, after)) : TakesWord cs after := by
  unfold readFractionPart at h
  split at h
  · next body =>
    have hspan := takesWord_spanDigits body
    split at h
    · cases h
    · next hbody =>
      cases h
      rw [hbody] at hspan
      exact hspan.cons rfl
  · cases h
    exact .refl _

/-- Reading a sign takes characters of words only. -/
theorem takesWord_sign (cs : List Char) : TakesWord cs (sign cs).2 := by
  unfold sign
  split
  · exact (TakesWord.refl _).cons rfl
  · exact (TakesWord.refl _).cons rfl
  · exact .refl _

/-- Reading an exponent takes its mark, a sign and digits, or nothing. -/
theorem takesWord_readExponentPart {e : Option Int} (h : readExponentPart cs = some (e, after)) :
    TakesWord cs after := by
  unfold readExponentPart at h
  split at h
  · cases h
    exact .refl _
  · next c body =>
    split at h
    · next hletter =>
      have hc : Outline.isWordChar c = true := by
        rcases hletter with rfl | rfl <;> rfl
      have hspan := (takesWord_sign body).trans (takesWord_spanDigits (sign body).2)
      dsimp only at h
      split at h
      · cases h
      · next hdigits =>
        cases h
        rw [hdigits] at hspan
        exact hspan.cons hc
    · cases h
      exact .refl _

/-- Reading the size of a number takes a run of characters of words. -/
theorem takesWord_readMagnitude {negative : Bool}
    (h : readMagnitude negative cs = some (j, after)) :
    TakesWord cs after := by
  rw [readMagnitude] at h
  have hwhole := takesWord_spanDigits cs
  generalize spanDigits cs = read at h hwhole
  obtain ⟨whole, rest⟩ := read
  dsimp only at h
  split at h
  · cases h
  · simp only [Option.bind_eq_bind, Option.bind_eq_some_iff] at h
    obtain ⟨⟨fraction, afterFraction⟩, hfraction, ⟨e, afterExponent⟩, hexponent, h⟩ := h
    have htakes := (hwhole.trans (takesWord_readFractionPart hfraction)).trans
      (takesWord_readExponentPart hexponent)
    dsimp only at h
    generalize whole.length + (if negative then 1 else 0) = length at h
    split at h
    · split at h
      · cases h
      · cases h
        exact htakes
    · cases h
      exact htakes

/-- Reading one of the fixed words takes its characters. -/
theorem takesWord_readWord {word : String} {v : Json}
    (hword : word.toList.all Outline.isWordChar = true)
    (h : readWord word v cs = some (j, after)) : TakesWord cs after := by
  obtain ⟨tail, htail, heq⟩ := Option.map_eq_some_iff.mp h
  cases heq
  exact ⟨word.toList, (List.isPrefixOf?_eq_some_iff_append_eq.mp htail).symm,
    List.all_eq_true.mp hword⟩

/-- A word is read by taking characters of words. -/
theorem takesWord_readAtom (hquote : cs.head? ≠ some '"') (h : readAtom cs = some (j, after)) :
    TakesWord cs after := by
  cases cs with
  | nil => cases h
  | cons c cs =>
    rw [readAtom, if_neg (by simpa using hquote)] at h
    split at h
    · next hminus =>
      subst hminus
      split at h
      · exact (takesWord_readWord (by decide) h).cons rfl
      · exact (takesWord_readMagnitude h).cons rfl
    · iterate 5
        split at h
        · exact takesWord_readWord (by decide) h
      exact takesWord_readMagnitude h

/-! ### Values -/

/-- Words end before what no word goes on with, after gaps or without them. -/
theorem ends_of_skipGaps {c : Char} (hc : Outline.isWordChar c = false)
    (h : skipGaps after = c :: cs) : Outline.Ends after := by
  cases after with
  | nil => exact nofun
  | cons d after =>
    refine Outline.ends_cons ?_ _
    cases hgap : isGap d with
    | true =>
      by_contra hword
      rw [Bool.not_eq_false] at hword
      cases hgap.symm.trans (Outline.not_isGap_of_isWordChar hword)
    | false =>
      rw [Outline.skipGaps_cons hgap] at h
      obtain rfl := (List.cons.inj h).1
      exact hc

/-- A value can be taken for itself only, unless it is a floating number or holds other values. -/
def isExact : Json → Bool
  | .float _ | .array _ | .object _ => false
  | _ => true

/-- A reader that accepts the text of a document and stops where words end stops where the text
ends, and it takes an exact value for itself. -/
def Stops (j : Json) : Prop :=
  ∀ depth bound rest j' after, Outline.Ends rest →
    readValue depth bound (j.write ++ rest) = some (j', after) → Outline.Ends after →
    after = rest ∧ (j.isExact = true → j' = j)

/-- What starts neither a container nor a gap is read as an atom, if it is read. -/
theorem readAtom_of_readValue {c : Char} (hgap : isGap c = false) (harray : c ≠ '[')
    (hobject : c ≠ '\x7b') (h : readValue depth bound (c :: cs) = some (j, after)) :
    readAtom (c :: cs) = some (j, after) := by
  cases bound with
  | zero => cases h
  | succ bound => rwa [readValue_of_readAtom hgap harray hobject] at h

/-- Before a word a reader has no choice: neither a quote nor a bracket starts one. -/
theorem readAtom_of_isWord (hcs : Outline.IsWord cs)
    (h : readValue depth bound (cs ++ rest) = some (j, after)) :
    readAtom (cs ++ rest) = some (j, after) := by
  obtain ⟨c, cs, rfl, hgap, harray, hobject⟩ := exists_start_of_isWord hcs
  exact readAtom_of_readValue hgap harray hobject h

/-- A reader that accepts a word stops where the word ends, unless it leaves off in the middle of a
word, where nothing can follow that a document may have. -/
theorem eq_rest_of_isWord (hcs : Outline.IsWord cs) (hrest : Outline.Ends rest)
    (h : readValue depth bound (cs ++ rest) = some (j, after)) (hafter : Outline.Ends after) :
    after = rest := by
  have hquote : (cs ++ rest).head? ≠ some '"' := by
    obtain ⟨c, cs, rfl⟩ := List.exists_cons_of_ne_nil hcs.1
    rintro heq
    obtain rfl := Option.some.inj heq
    cases hcs.2 '"' List.mem_cons_self
  exact (takesWord_readAtom hquote (readAtom_of_isWord hcs h)).eq_of_ends hrest hafter hcs.2

/-- A reader stops after null. -/
theorem stops_null : Stops .null := by
  intro depth bound rest j after _ hread _
  have hatom := readAtom_of_readValue (by decide) (by decide) (by decide) hread
  cases hatom
  exact ⟨rfl, fun _ => rfl⟩

/-- A reader stops after a truth value. -/
theorem stops_bool (b : Bool) : Stops (.bool b) := by
  intro depth bound rest j after _ hread _
  cases b <;>
  · have hatom := readAtom_of_readValue (by decide) (by decide) (by decide) hread
    cases hatom
    exact ⟨rfl, fun _ => rfl⟩

/-- A number with too many digits is not read. -/
theorem readMagnitude_long {n : Nat} (negative : Bool)
    (long : digitLimit < (Nat.toDigits 10 n).length + (if negative then 1 else 0))
    (hrest : Outline.Ends rest) :
    readMagnitude negative (Nat.toDigits 10 n ++ rest) = none := by
  have hspan := spanDigits_toDigits n (noDigit_of_ends hrest)
  have hlong : digitLimit <
      ((Nat.toDigits 10 n).map digitOf).length + (if negative then 1 else 0) := by
    rwa [List.length_map]
  rw [readMagnitude]
  simp only [hspan, readFractionPart_of_ends hrest, readExponentPart_of_ends hrest,
    Option.bind_eq_bind, Option.bind_some, and_self, if_true, if_pos hlong, ite_self]

/-- A reader that accepts a whole number stops after its last digit, and has read that number. -/
theorem stops_int (n : Int) : Stops (.int n) := by
  intro depth bound rest j after hrest hread hafter
  rw [write] at hread
  have hword := Outline.isWord_wholeText n
  refine ⟨eq_rest_of_isWord hword hrest hread hafter, fun _ => ?_⟩
  have hatom := readAtom_of_isWord hword hread
  by_cases short : (wholeText n).length ≤ digitLimit
  · cases (readAtom_wholeText short hrest).symm.trans hatom
    rfl
  · have long := not_le.mp short
    rw [length_wholeText] at long
    obtain ⟨c, cs, hcs⟩ := List.exists_cons_of_ne_nil
      (Nat.toDigits_ne_nil (b := 10) (n := n.natAbs))
    have hc : c.isDigit = true := Nat.isDigit_of_mem_toDigits (b := 10) (n := n.natAbs)
      (by decide) (by decide) (by rw [hcs]; exact List.mem_cons_self)
    rw [wholeText, hcs] at hatom
    split at hatom
    · next hn =>
      rw [if_pos hn] at long
      have hlong := readMagnitude_long true long hrest
      rw [hcs, List.cons_append] at hlong
      cases ((readAtom_minus hc _).trans hlong).symm.trans hatom
    · next hn =>
      rw [if_neg hn] at long
      have hlong := readMagnitude_long false long hrest
      rw [hcs, List.cons_append] at hlong
      cases ((readAtom_digit hc _).trans hlong).symm.trans hatom

/-- A reader that accepts a floating number stops where its text ends. Which number it has read is
not said. -/
theorem stops_float (x : Binary64) : Stops (.float x) := by
  intro depth bound rest j after hrest hread hafter
  rw [write] at hread
  exact ⟨eq_rest_of_isWord (Outline.isWord_floatText x) hrest hread hafter, nofun⟩

/-- A reader stops after the closing quote of a text, and has read that text. -/
theorem stops_text (s : String) : Stops (.text s) := by
  intro depth bound rest j after _ hread _
  rw [write, Outline.quotedText_append] at hread
  have hatom := readAtom_of_readValue (by decide) (by decide) (by decide) hread
  rw [readAtom, if_pos rfl, readQuoted_escaped] at hatom
  cases hatom
  exact ⟨rfl, fun _ => by rw [String.ofList_toList]⟩

/-! ### Containers -/

/-- What follows an item that is read is the next item, or what follows the array. -/
theorem exists_of_readItems {item : Json} {separator : Char} {read : List Json}
    (h : Stops item) (hseparator : separator = ',' ∨ separator = ']')
    (hread : readItems depth bound (item.write ++ separator :: rest) = some (read, after)) :
    (separator = ']' ∧ after = rest) ∨
      separator = ',' ∧ ∃ bound read, readItems depth bound rest = some (read, after) := by
  have hends : Outline.Ends (separator :: rest) :=
    Outline.ends_cons (by rcases hseparator with rfl | rfl <;> rfl) rest
  have hgap : isGap separator = false := by rcases hseparator with rfl | rfl <;> rfl
  obtain _ | bound := bound
  · cases hread
  rw [readItems] at hread
  -- after the item come gaps, and then what was written after it; nothing else can follow
  split at hread
  · cases hread
  · next hitem =>
    have hstops := h _ _ _ _ _ hends hitem
    split at hread
    · next hskip =>
      obtain rfl := (hstops (ends_of_skipGaps (by decide) hskip)).1
      rw [Outline.skipGaps_cons hgap] at hskip
      cases hskip
      obtain ⟨others, hothers, heq⟩ := Option.map_eq_some_iff.mp hread
      cases heq
      exact .inr ⟨rfl, _, _, hothers⟩
    · next hskip =>
      obtain rfl := (hstops (ends_of_skipGaps (by decide) hskip)).1
      rw [Outline.skipGaps_cons hgap] at hskip
      cases hskip
      cases hread
      exact .inl ⟨rfl, rfl⟩
    · cases hread

/-- A reader that accepts the items of an array stops after its closing bracket. -/
theorem eq_rest_of_readItems {items : List Json} (hne : items ≠ []) (h : ∀ item ∈ items, Stops item)
    {read : List Json}
    (hread : readItems depth bound (writeItems items ++ rest) = some (read, after)) :
    after = rest := by
  obtain ⟨item, items, rfl⟩ := List.exists_cons_of_ne_nil hne
  clear hne
  induction items generalizing item bound read with
  | nil =>
    rw [writeItems, List.append_assoc] at hread
    obtain ⟨-, heq⟩ | ⟨hcomma, -⟩ :=
      exists_of_readItems (h item List.mem_cons_self) (.inr rfl) hread
    · exact heq
    · cases hcomma
  | cons next items ih =>
    rw [Outline.writeItems_cons_cons, List.append_assoc, List.cons_append] at hread
    obtain ⟨hbracket, -⟩ | ⟨-, _, _, hothers⟩ :=
      exists_of_readItems (h item List.mem_cons_self) (.inl rfl) hread
    · cases hbracket
    · exact ih next (fun item hitem => h item (List.mem_cons_of_mem _ hitem)) hothers

/-- A member is read under its name, and an exact value is taken for itself. -/
def ReadAs (m m' : String × Json) : Prop := m'.1 = m.1 ∧ (m.2.isExact = true → m'.2 = m.2)

/-- What follows a member that is read is the next member, or what follows the object. -/
theorem exists_of_readMembers {m : String × Json} {separator : Char} {read : List (String × Json)}
    (h : Stops m.2) (hseparator : separator = ',' ∨ separator = '\x7d')
    (hread : readMembers depth bound
      (quotedText m.1 ++ ':' :: (m.2.write ++ separator :: rest)) = some (read, after)) :
    ∃ m', ReadAs m m' ∧ ((separator = '\x7d' ∧ after = rest ∧ read = [m']) ∨
      separator = ',' ∧ ∃ bound others, readMembers depth bound rest = some (others, after) ∧
        read = m' :: others) := by
  have hends : Outline.Ends (separator :: rest) :=
    Outline.ends_cons (by rcases hseparator with rfl | rfl <;> rfl) rest
  have hgap : isGap separator = false := by rcases hseparator with rfl | rfl <;> rfl
  obtain _ | bound := bound
  · cases hread
  rw [Outline.quotedText_append, readMembers, Outline.skipGaps_cons (by decide)] at hread
  simp only [readQuoted_escaped, Outline.skipGaps_cons (show isGap ':' = false by decide),
    String.ofList_toList] at hread
  -- after the value come gaps, and then what was written after it; nothing else can follow
  split at hread
  · cases hread
  · next value middle hvalue =>
    have hstops := h _ _ _ _ _ hends hvalue
    refine ⟨(m.1, value), ?_⟩
    split at hread
    · next hskip =>
      obtain ⟨rfl, hexact⟩ := hstops (ends_of_skipGaps (by decide) hskip)
      rw [Outline.skipGaps_cons hgap] at hskip
      cases hskip
      obtain ⟨others, hothers, heq⟩ := Option.map_eq_some_iff.mp hread
      cases heq
      exact ⟨⟨rfl, hexact⟩, .inr ⟨rfl, _, _, hothers, rfl⟩⟩
    · next hskip =>
      obtain ⟨rfl, hexact⟩ := hstops (ends_of_skipGaps (by decide) hskip)
      rw [Outline.skipGaps_cons hgap] at hskip
      cases hskip
      cases hread
      exact ⟨⟨rfl, hexact⟩, .inl ⟨rfl, rfl, rfl⟩⟩
    · cases hread

/-- A reader that accepts the members of an object stops after its closing brace, and has read all
of them under their names and in their order. -/
theorem forall₂_of_readMembers {members : List (String × Json)} (hne : members ≠ [])
    (h : ∀ m ∈ members, Stops m.2) {read : List (String × Json)}
    (hread : readMembers depth bound (writeMembers members ++ rest) = some (read, after)) :
    after = rest ∧ List.Forall₂ ReadAs members read := by
  obtain ⟨member, members, rfl⟩ := List.exists_cons_of_ne_nil hne
  clear hne
  induction members generalizing member bound read with
  | nil =>
    rw [writeMembers, List.append_assoc, List.append_assoc, List.cons_append] at hread
    obtain ⟨m', hmember, ⟨-, heq, rfl⟩ | ⟨hcomma, -⟩⟩ :=
      exists_of_readMembers (h member List.mem_cons_self) (.inr rfl) hread
    · exact ⟨heq, .cons hmember .nil⟩
    · cases hcomma
  | cons next members ih =>
    rw [Outline.writeMembers_cons_cons, List.append_assoc, List.cons_append, List.append_assoc,
      List.cons_append] at hread
    obtain ⟨m', hmember, ⟨hbrace, -⟩ | ⟨-, _, others, hothers, rfl⟩⟩ :=
      exists_of_readMembers (h member List.mem_cons_self) (.inl rfl) hread
    · cases hbrace
    · obtain ⟨heq, hmembers⟩ := ih next (fun m hm => h m (List.mem_cons_of_mem _ hm)) hothers
      exact ⟨heq, .cons hmember hmembers⟩

/-- What is read after an opening brace are members, if there are any, of which the last ones of
each name are kept. -/
theorem exists_of_readValue_brace {c : Char} {cs' : List Char} (hskip : skipGaps cs = c :: cs')
    (hc : c ≠ '\x7d') (h : readValue depth bound ('\x7b' :: cs) = some (j, after)) :
    ∃ depth bound members, readMembers depth bound cs = some (members, after) ∧
      j = .object (mergeMembers members) := by
  obtain _ | bound := bound
  · cases h
  rw [readValue, Outline.skipGaps_cons (by decide)] at h
  simp only [hskip] at h
  split at h
  · next heq => exact absurd (List.cons.inj heq).1 hc
  · split at h
    · cases h
    · obtain ⟨read, hread, heq⟩ := Option.map_eq_some_iff.mp h
      cases heq
      exact ⟨_, _, _, hread, rfl⟩

/-- What is read after an opening bracket are items, if there are any. -/
theorem exists_of_readValue_bracket {c : Char} {cs' : List Char} (hskip : skipGaps cs = c :: cs')
    (hc : c ≠ ']') (h : readValue depth bound ('[' :: cs) = some (j, after)) :
    ∃ depth bound items, readItems depth bound cs = some (items, after) := by
  obtain _ | bound := bound
  · cases h
  rw [readValue, Outline.skipGaps_cons (by decide)] at h
  simp only [hskip] at h
  split at h
  · next heq => exact absurd (List.cons.inj heq).1 hc
  · split at h
    · cases h
    · obtain ⟨read, hread, heq⟩ := Option.map_eq_some_iff.mp h
      cases heq
      exact ⟨_, _, _, hread⟩

/-- An object that is read has the members it was written with, and the reader stops at its end. -/
theorem exists_of_readValue_object {members : List (String × Json)}
    (h : ∀ m ∈ members, Stops m.2)
    (hread : readValue depth bound (write (.object members) ++ rest) = some (j, after)) :
    after = rest ∧
      ∃ read, j = .object (mergeMembers read) ∧ List.Forall₂ ReadAs members read := by
  rw [write, List.cons_append] at hread
  cases members with
  | nil =>
    cases bound <;> cases hread
    exact ⟨rfl, [], rfl, .nil⟩
  | cons member members =>
    have hskip : ∃ cs, skipGaps (writeMembers (member :: members) ++ rest) = '"' :: cs := by
      cases members with
      | nil => exact ⟨_, by rw [writeMembers, quotedText]; rfl⟩
      | cons next members => exact ⟨_, by rw [Outline.writeMembers_cons_cons, quotedText]; rfl⟩
    obtain ⟨cs, hskip⟩ := hskip
    obtain ⟨_, _, read, hmembers, rfl⟩ := exists_of_readValue_brace hskip (by decide) hread
    obtain ⟨heq, hmembers⟩ := forall₂_of_readMembers (List.cons_ne_nil _ _) h hmembers
    exact ⟨heq, read, rfl, hmembers⟩

/-- A reader stops after an array if it stops after each of its items. -/
theorem eq_rest_of_readValue_array {items : List Json} (h : ∀ item ∈ items, Stops item)
    (hread : readValue depth bound (write (.array items) ++ rest) = some (j, after)) :
    after = rest := by
  rw [write, List.cons_append] at hread
  cases items with
  | nil =>
    cases bound <;> cases hread
    rfl
  | cons item items =>
    -- the first item does not look like the end of an empty array
    obtain ⟨c, cs, hcs, hgap, hc⟩ := Outline.exists_write_eq_cons item
    have hstart : ∃ cs', writeItems (item :: items) ++ rest = c :: cs' := by
      cases items with
      | nil => exact ⟨_, by rw [writeItems, hcs]; rfl⟩
      | cons next items => exact ⟨_, by rw [Outline.writeItems_cons_cons, hcs]; rfl⟩
    obtain ⟨cs', hcs'⟩ := hstart
    have hskip : skipGaps (writeItems (item :: items) ++ rest) = c :: cs' := by
      rw [hcs', Outline.skipGaps_cons hgap]
    obtain ⟨_, _, _, hitems⟩ := exists_of_readValue_bracket hskip hc hread
    exact eq_rest_of_readItems (List.cons_ne_nil _ _) h hitems

/-! ### Whole documents -/

mutual

/-- A reader stops where the text of a document ends. -/
theorem stops : (j : Json) → Stops j
  | .null => stops_null
  | .bool b => stops_bool b
  | .int n => stops_int n
  | .float x => stops_float x
  | .text s => stops_text s
  | .array items => fun _ _ _ _ _ _ hread _ =>
    ⟨eq_rest_of_readValue_array (stops_items items) hread, nofun⟩
  | .object members => fun _ _ _ _ _ _ hread _ =>
    ⟨(exists_of_readValue_object (stops_members members) hread).1, nofun⟩

/-- A reader stops after each item of an array, by the induction on documents. -/
theorem stops_items : (items : List Json) → ∀ item ∈ items, Stops item
  | [] => nofun
  | item :: items => List.forall_mem_cons.mpr ⟨stops item, stops_items items⟩

/-- A reader stops after the value of each member of an object, by the induction on documents. -/
theorem stops_members : (members : List (String × Json)) → ∀ m ∈ members, Stops m.2
  | [] => nofun
  | (_, value) :: members => List.forall_mem_cons.mpr ⟨stops value, stops_members members⟩

end

/-- **Objects that are read.** If the text of an object is read at all, it is read as an object with
the same names, and with the same values where these are exact. -/
theorem exists_members_of_read? {members : List (String × Json)}
    (h : read? (write (.object members)) = some j) :
    ∃ read, j = .object (mergeMembers read) ∧ List.Forall₂ ReadAs members read := by
  rw [read?] at h
  split at h
  · next value after hread =>
    split at h
    · cases h
      rw [← List.append_nil (write (.object members))] at hread
      exact (exists_of_readValue_object (stops_members members) hread).2
    · cases h
  · cases h

end IndexedRecords.Json
