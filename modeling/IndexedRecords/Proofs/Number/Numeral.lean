import IndexedRecords.Number.Numeral
import IndexedRecords.Proofs.Number.Whole
import IndexedRecords.Proofs.Text.Cut

/-!
# Digits read back

The decimal digits of a number stand for that number, and a reader of digits stops where they end.

## Main statements

* `ofDigits_toDigits`: the digits of a number stand for it.
* `spanDigits_toDigits`: the digits of a number are read up to the first other character.
* `readInt_of_isDecimal`: decimal digits are read as a whole number.
* `readInt_toDigits`, `readFloat_toDigits`: the digits of a number are read as that number.
-/

namespace IndexedRecords.Numeral

open Text

variable {c : Char} {cs rest : List Char}

/-- The value of a digit. -/
def digitOf (c : Char) : Nat := c.toNat - '0'.toNat

/-- A digit has a value for the reader. -/
theorem asciiDigit?_of_isDigit (h : c.isDigit = true) : asciiDigit? c = some (digitOf c) := by
  have hrange : '0' ≤ c ∧ c ≤ '9' := by
    simpa [Char.isDigit, Char.le_def] using h
  rw [asciiDigit?, if_pos hrange, digitOf]

/-- A text of digits only is read digit by digit, and none is left out. -/
theorem filterMap_asciiDigit? (h : ∀ c ∈ cs, c.isDigit = true) :
    cs.filterMap asciiDigit? = cs.map digitOf := by
  induction cs with
  | nil => rfl
  | cons c cs ih =>
    obtain ⟨hc, hcs⟩ := List.forall_mem_cons.mp h
    rw [List.filterMap_cons, asciiDigit?_of_isDigit hc, ih hcs, List.map_cons]

theorem asciiDigit?_of_not_isDigit (h : c.isDigit = false) : asciiDigit? c = none := by
  have hrange : ¬ ('0' ≤ c ∧ c ≤ '9') := by
    simpa [Char.isDigit, Char.le_def] using h
  rw [asciiDigit?, if_neg hrange]

/-- No digit stands at the start of a text. -/
def NoDigit (cs : List Char) : Prop := ∀ c ∈ cs.head?, c.isDigit = false

theorem noDigit_nil : NoDigit [] := nofun

/-- A text that starts with another character has no digit at its start. -/
theorem noDigit_cons (h : c.isDigit = false) (cs : List Char) : NoDigit (c :: cs) := by
  intro d hd
  obtain rfl := Option.some.inj hd
  exact h

/-- No digits are read where none stands at the start. -/
theorem spanDigits_of_noDigit (h : NoDigit cs) : spanDigits cs = ([], cs) := by
  cases cs with
  | nil => rfl
  | cons c cs => rw [spanDigits, asciiDigit?_of_not_isDigit (h c rfl)]

/-- Digits are read up to the first character that is none. -/
theorem spanDigits_append (hcs : ∀ c ∈ cs, c.isDigit = true) (hrest : NoDigit rest) :
    spanDigits (cs ++ rest) = (cs.map digitOf, rest) := by
  induction cs with
  | nil => exact spanDigits_of_noDigit hrest
  | cons c cs ih =>
    have hc := asciiDigit?_of_isDigit (hcs c List.mem_cons_self)
    have hothers := ih fun d hd => hcs d (List.mem_cons_of_mem _ hd)
    rw [List.cons_append, spanDigits, hc, hothers]
    rfl

/-- The reader and the library agree on the number that digits stand for. -/
theorem ofDigits_map_digitOf (cs : List Char) :
    ofDigits (cs.map digitOf) = Nat.ofDigitChars 10 cs 0 := by
  rw [ofDigits, List.foldl_map, Nat.ofDigitChars_eq_foldl]
  rfl

/-- The digits of a number stand for it. -/
theorem ofDigits_toDigits (n : Nat) : ofDigits ((Nat.toDigits 10 n).map digitOf) = n := by
  rw [ofDigits_map_digitOf, Nat.ofDigitChars_ten_toDigits]

/-- Zeros at the end multiply a number by powers of ten. -/
theorem ofDigits_append_zeros (digits : List Nat) (e : Nat) :
    ofDigits (digits ++ List.replicate e 0) = ofDigits digits * 10 ^ e := by
  induction e with
  | zero => rw [List.replicate_zero, List.append_nil, Nat.pow_zero, Nat.mul_one]
  | succ e ih =>
    have hlast : ofDigits (digits ++ List.replicate e 0 ++ [0]) =
        10 * ofDigits (digits ++ List.replicate e 0) := by
      simp [ofDigits, List.foldl_append]
    rw [List.replicate_succ', ← List.append_assoc, hlast, ih, Nat.pow_succ', Nat.mul_left_comm]

/-- The digits of a number are read up to the first other character. -/
theorem spanDigits_toDigits (n : Nat) (hrest : NoDigit rest) :
    spanDigits (Nat.toDigits 10 n ++ rest) = ((Nat.toDigits 10 n).map digitOf, rest) :=
  spanDigits_append (fun _ hc => Nat.isDigit_of_mem_toDigits (by decide) (by decide) hc) hrest

theorem isDigit_of_mem_toDigits {n : Nat} (h : c ∈ Nat.toDigits 10 n) : c.isDigit = true :=
  Nat.isDigit_of_mem_toDigits (by decide) (by decide) h

/-! ### Whole numbers -/

theorem toNat_of_isDigit (h : c.isDigit = true) : 48 ≤ c.toNat ∧ c.toNat ≤ 57 := by
  simpa [Char.isDigit, UInt32.le_iff_toNat_le] using h

/-- The digits of all scripts include these ten, with their usual values. -/
theorem decimalDigit?_of_isDigit (h : c.isDigit = true) : decimalDigit? c = some (digitOf c) := by
  have hrange := toNat_of_isDigit h
  rw [decimalDigit?, zeros, List.find?_cons_of_pos (by simpa using hrange)]
  rfl

/-- A digit is written as itself. -/
theorem plainDigits_of_isDigit (h : ∀ c ∈ cs, c.isDigit = true) : plainDigits cs = cs := by
  refine (List.map_congr_left fun c hc => ?_).trans (List.map_id cs)
  have hrange := toNat_of_isDigit (h c hc)
  have hnat : '0'.toNat + digitOf c = c.toNat := by
    rw [digitOf, show '0'.toNat = 48 from rfl]
    omega
  rw [decimalDigit?_of_isDigit (h c hc)]
  exact (congrArg Char.ofNat hnat).trans (Char.ofNat_toNat c)

/-- A code point of a range lies in no ranges that leave this one out. -/
theorem inRanges_eq_false {ranges : List (Nat × Nat)} {first last n : Nat}
    (h : ∀ r ∈ ranges, last < r.1 ∨ r.2 < first) (hfirst : first ≤ n) (hlast : n ≤ last) :
    inRanges ranges n = false := by
  rw [← Bool.not_eq_true, inRanges_iff]
  rintro ⟨r, hr, hle, hge⟩
  have hapart := h r hr
  omega

/-- A digit is not cut off as space. -/
theorem isSpace_of_isDigit (h : c.isDigit = true) : isSpace c = false :=
  inRanges_eq_false (by decide) (toNat_of_isDigit h).1 (toNat_of_isDigit h).2

/-- A digit is not cut off as a blank. -/
theorem isBlank_of_isDigit (h : c.isDigit = true) : isBlank c = false :=
  inRanges_eq_false (by decide) (toNat_of_isDigit h).1 (toNat_of_isDigit h).2

/-- Nothing is cut off a text of digits. -/
theorem trimBy_isSpace (h : ∀ c ∈ cs, c.isDigit = true) : trimBy isSpace cs = cs :=
  trimBy_eq_self_of_forall fun c hc => isSpace_of_isDigit (h c hc)

/-- Digits without underscores between them are read as one group. A digit may be due, as after an
underscore, if there is one. -/
theorem groupedDigits_of_isDigit (due : Bool) (h : ∀ c ∈ cs, c.isDigit = true)
    (hne : due = true → cs ≠ []) : groupedDigits due cs = some (cs.map digitOf, []) := by
  induction cs generalizing due with
  | nil =>
    cases due with
    | false => rfl
    | true => exact absurd rfl (hne rfl)
  | cons c cs ih =>
    obtain ⟨hc, hcs⟩ := List.forall_mem_cons.mp h
    have hunderscore : c ≠ '_' := by
      rintro rfl
      cases hc
    rw [groupedDigits, if_neg hunderscore, asciiDigit?_of_isDigit hc, ih false hcs nofun]
    rfl

/-- A text without signs has none at its start. -/
theorem sign_eq_self (hminus : '-' ∉ cs) (hplus : '+' ∉ cs) : sign cs = (false, cs) := by
  unfold sign
  split
  · exact absurd List.mem_cons_self hminus
  · exact absurd List.mem_cons_self hplus
  · rfl

/-- Digits have no sign before them. -/
theorem sign_of_isDigit (h : ∀ c ∈ cs, c.isDigit = true) : sign cs = (false, cs) :=
  sign_eq_self (fun hmem => nomatch h '-' hmem) fun hmem => nomatch h '+' hmem

/-- A text is a whole number in decimal digits, perhaps with zeros in front, and it has so many
digits. A minus stands before a negative number. -/
inductive IsDecimal : List Char → Int → Nat → Prop
  | plain {cs : List Char} (digits : ∀ c ∈ cs, c.isDigit = true) (nonempty : cs ≠ []) :
      IsDecimal cs (ofDigits (cs.map digitOf)) cs.length
  | minus {cs : List Char} (digits : ∀ c ∈ cs, c.isDigit = true) (nonempty : cs ≠ []) :
      IsDecimal ('-' :: cs) (-(ofDigits (cs.map digitOf) : Int)) cs.length

/-- A whole number is written in decimal digits, as many as its size has. -/
theorem isDecimal_wholeText (n : Int) :
    IsDecimal (wholeText n) n (Nat.toDigits 10 n.natAbs).length := by
  have hdigits : ∀ c ∈ Nat.toDigits 10 n.natAbs, c.isDigit = true :=
    fun _ => isDigit_of_mem_toDigits
  rw [wholeText]
  split
  · next hneg =>
    have hminus := IsDecimal.minus hdigits Nat.toDigits_ne_nil
    rwa [ofDigits_toDigits, show -(n.natAbs : Int) = n by omega] at hminus
  · next hpos =>
    have hplain := IsDecimal.plain hdigits Nat.toDigits_ne_nil
    rwa [ofDigits_toDigits, show (n.natAbs : Int) = n by omega] at hplain

/-- **Whole numbers.** Decimal digits are read as their number, unless there are too many of
them. -/
theorem readInt_of_isDecimal {n : Int} {count : Nat} (h : IsDecimal cs n count) :
    readInt cs = if digitLimit < count then .error (.tooLong count) else .ok n := by
  cases h with
  | plain hdigits nonempty =>
    rw [readInt, trimBy_isSpace hdigits, plainDigits_of_isDigit hdigits, sign_of_isDigit hdigits]
    simp only [groupedDigits_of_isDigit true hdigits fun _ => nonempty, List.length_map]
    rfl
  | @minus cs hdigits nonempty =>
    have htrim : trimBy isSpace ('-' :: cs) = '-' :: cs := by
      refine trimBy_eq_self ?_ fun c hc => ?_
      · rintro c ⟨⟩
        decide
      · rw [List.getLast?_cons_of_ne_nil nonempty] at hc
        exact isSpace_of_isDigit (hdigits c (List.mem_of_mem_getLast? hc))
    have hplain : plainDigits ('-' :: cs) = '-' :: plainDigits cs := rfl
    rw [readInt, htrim, hplain, plainDigits_of_isDigit hdigits, sign]
    simp only [groupedDigits_of_isDigit true hdigits fun _ => nonempty, List.length_map]
    rfl

/-- The digits of a short number are read as that number. -/
theorem readInt_toDigits {n : Nat} (short : (Nat.toDigits 10 n).length ≤ digitLimit) :
    readInt (Nat.toDigits 10 n) = .ok n := by
  have h := IsDecimal.plain (fun _ => isDigit_of_mem_toDigits) (Nat.toDigits_ne_nil (n := n))
  rw [ofDigits_toDigits] at h
  rw [readInt_of_isDecimal h, if_neg (Nat.not_lt.mpr short)]

/-! ### Floating numbers -/

/-- Digits without a point, up to the end of a text. -/
theorem readDecimal_digits (cs rest : List Char) (hcs : ∀ c ∈ cs, c.isDigit = true)
    (hne : cs ≠ []) (hrest : NoDigit rest) (hpoint : rest.head? ≠ some '.') :
    readDecimal (cs ++ rest) =
      (readExponent rest).map fun e => (ofDigits (cs.map digitOf), e) := by
  rw [readDecimal, spanDigits_append hcs hrest]
  dsimp only
  split
  · exact absurd rfl hpoint
  · simp [hne]

/-- There are no underscores to be dropped among digits. -/
theorem dropUnderscores?_of_isDigit (afterDigit : Bool) (h : ∀ c ∈ cs, c.isDigit = true) :
    dropUnderscores? afterDigit cs = some cs := by
  induction cs generalizing afterDigit with
  | nil => rfl
  | cons c cs ih =>
    obtain ⟨hc, hcs⟩ := List.forall_mem_cons.mp h
    have hne : c ≠ '_' := by
      rintro rfl
      cases hc
    rw [dropUnderscores?.eq_def]
    simp only [if_neg hne, ih _ hcs]
    rfl

/-- Only the letters from A to Z are put in lower case. -/
theorem toLower_eq_self (h : c.toNat < 65 ∨ 90 < c.toNat) : c.toLower = c := by
  refine dif_neg ?_
  rintro ⟨hle, hge⟩
  have hfirst : 65 ≤ c.toNat := UInt32.le_iff_toNat_le.mp hle
  have hlast : c.toNat ≤ 90 := UInt32.le_iff_toNat_le.mp hge
  omega

theorem toLower_of_isDigit (h : c.isDigit = true) : c.toLower = c := by
  have hrange := toNat_of_isDigit h
  exact toLower_eq_self (by omega)

/-- The digits of a number are read as the number, rounded where it is large. -/
theorem readFloat_toDigits (n : Nat) :
    readFloat (Nat.toDigits 10 n) = some (.ofScientific false n 0) := by
  have hdigits : ∀ c ∈ Nat.toDigits 10 n, c.isDigit = true := fun _ => isDigit_of_mem_toDigits
  have hlower : (Nat.toDigits 10 n).map Char.toLower = Nat.toDigits 10 n :=
    (List.map_congr_left fun c hc => toLower_of_isDigit (hdigits c hc)).trans (List.map_id _)
  have hname : ∀ (c : Char) (name : List Char), c.isDigit = false →
      Nat.toDigits 10 n ≠ c :: name := by
    intro c name hc heq
    have hdigit := hdigits c (heq ▸ List.mem_cons_self)
    rw [hc] at hdigit
    cases hdigit
  have hread := readDecimal_digits (Nat.toDigits 10 n) [] hdigits Nat.toDigits_ne_nil noDigit_nil
    nofun
  rw [List.append_nil, ofDigits_toDigits] at hread
  rw [readFloat, trimBy_isSpace hdigits, plainDigits_of_isDigit hdigits,
    dropUnderscores?_of_isDigit false hdigits, Option.bind_some, readPlainFloat,
    sign_of_isDigit hdigits]
  simp only [hlower, hname 'i' _ rfl, hname 'n' _ rfl, or_self, if_false, hread]
  rfl

/-! ### Leading zeros -/

/-- Only zero starts with the digit zero. -/
theorem head_toDigits_ne_zero {n : Nat} (h : n ≠ 0) :
    ((Nat.toDigits 10 n).map digitOf).head? ≠ some 0 := by
  induction n using Nat.strongRecOn with
  | ind n ih =>
    by_cases hn : n < 10
    · have hdigits : ∀ m < 10, m ≠ 0 → ((Nat.toDigits 10 m).map digitOf).head? ≠ some 0 := by
        decide
      exact hdigits n hn h
    -- the digits of a quotient by ten come first
    · have hquotient := ih (n / 10) (by omega) (by omega)
      have hne : (Nat.toDigits 10 (n / 10)).map digitOf ≠ [] :=
        mt List.map_eq_nil_iff.mp Nat.toDigits_ne_nil
      obtain ⟨d, ds, hds⟩ := List.exists_cons_of_ne_nil hne
      rw [Nat.toDigits_of_base_le (by decide) (by omega), List.map_append, hds]
      rwa [hds] at hquotient

/-- No number has a superfluous zero in front. -/
theorem not_leadingZero_toDigits (n : Nat) :
    ¬ (((Nat.toDigits 10 n).map digitOf).head? = some 0 ∧
      1 < ((Nat.toDigits 10 n).map digitOf).length) := by
  rintro ⟨hhead, hlength⟩
  by_cases hn : n = 0
  · subst hn
    exact absurd hlength (by decide)
  · exact head_toDigits_ne_zero hn hhead

end IndexedRecords.Numeral
