import IndexedRecords.Proofs.Number.Numeral

/-!
# Digits of all scripts

Many characters pass for digits, but only decimal digits have a place value. A text of decimal
digits is read as a whole number, whatever scripts they are of. A text that holds a digit of another
kind, such as a superscript, is read as none.

## Main statements

* `readInt_of_decimals`: decimal digits are read, unless there are too many of them.
* `readInt_of_ornamental`: digits of other kinds are not read.
-/

namespace IndexedRecords.Numeral

open Text

variable {c : Char} {d : Nat} {cs : List Char}

/-- A decimal digit follows the zero of its script. -/
theorem exists_zero_of_decimalDigit? (h : decimalDigit? c = some d) :
    ∃ z ∈ zeros, c.toNat = z + d ∧ d < 10 := by
  obtain ⟨z, hfind, hd⟩ := Option.map_eq_some_iff.mp h
  have hrange := List.find?_some hfind
  simp only [Bool.and_eq_true, decide_eq_true_eq] at hrange
  exact ⟨z, List.mem_of_find?_eq_some hfind, by omega, by omega⟩

/-- A digit without a place value lies beyond ASCII. -/
theorem ornamental_of_isDigit (h : isDigit c = true) (hnone : decimalDigit? c = none) :
    inRanges ornamentalDigitRanges c.toNat = true ∧ 128 ≤ c.toNat := by
  rw [isDigit, hnone, Option.isSome_none, Bool.false_or] at h
  obtain ⟨r, hr, hle, -⟩ := inRanges_iff.mp h
  have hbeyond : ∀ r ∈ ornamentalDigitRanges, 128 ≤ r.1 := by decide
  exact ⟨h, Nat.le_trans (hbeyond r hr) hle⟩

/-- A digit of any kind is no blank. -/
theorem isSpace_of_digit (h : isDigit c = true) : isSpace c = false := by
  cases hdecimal : decimalDigit? c with
  | some d =>
    obtain ⟨z, hz, hc, hd⟩ := exists_zero_of_decimalDigit? hdecimal
    have hapart : ∀ z ∈ zeros, ∀ r ∈ spaceRanges, z + 9 < r.1 ∨ r.2 < z := by decide
    exact inRanges_eq_false (hapart z hz) (by omega) (by omega)
  | none =>
    obtain ⟨r, hr, hle, hge⟩ := inRanges_iff.mp (ornamental_of_isDigit h hdecimal).1
    have hapart : ∀ o ∈ ornamentalDigitRanges, ∀ r ∈ spaceRanges, o.2 < r.1 ∨ r.2 < o.1 := by decide
    exact inRanges_eq_false (hapart r hr) hle hge

theorem trimBy_isSpace_of_digits (h : ∀ c ∈ cs, isDigit c = true) : trimBy isSpace cs = cs :=
  trimBy_eq_self_of_forall fun c hc => isSpace_of_digit (h c hc)

/-! ### Plain digits -/

/-- The ASCII digit of a value. -/
def digitChar (d : Nat) : Char := Char.ofNat ('0'.toNat + d)

theorem isDigit_digitChar (h : d < 10) :
    (digitChar d).isDigit = true ∧ digitOf (digitChar d) = d := by
  have hall : ∀ d < 10, (digitChar d).isDigit = true ∧ digitOf (digitChar d) = d := by decide
  exact hall d h

theorem plainDigits_cons_decimal (h : decimalDigit? c = some d) (cs : List Char) :
    plainDigits (c :: cs) = digitChar d :: plainDigits cs := by
  rw [plainDigits, List.map_cons, h]
  rfl

theorem plainDigits_cons_other (h : decimalDigit? c = none) (cs : List Char) :
    plainDigits (c :: cs) = c :: plainDigits cs := by
  rw [plainDigits, List.map_cons, h]
  rfl

/-- Decimal digits become ASCII digits of the same values. -/
theorem plainDigits_of_decimals (h : ∀ c ∈ cs, (decimalDigit? c).isSome = true) :
    (∀ c ∈ plainDigits cs, c.isDigit = true) ∧
      (plainDigits cs).map digitOf = cs.filterMap decimalDigit? := by
  induction cs with
  | nil => exact ⟨nofun, rfl⟩
  | cons c cs ih =>
    obtain ⟨hc, hcs⟩ := List.forall_mem_cons.mp h
    obtain ⟨d, hd⟩ := Option.isSome_iff_exists.mp hc
    obtain ⟨-, -, -, hlt⟩ := exists_zero_of_decimalDigit? hd
    obtain ⟨hdigit, hvalue⟩ := isDigit_digitChar hlt
    rw [plainDigits_cons_decimal hd, List.forall_mem_cons, List.map_cons, List.filterMap_cons, hd,
      hvalue, (ih hcs).2]
    exact ⟨⟨hdigit, (ih hcs).1⟩, rfl⟩

theorem isDigit_of_decimal (h : (decimalDigit? c).isSome = true) : isDigit c = true := by
  rw [isDigit, h, Bool.true_or]

theorem decimals_of_not_exists (h : ¬ ∃ c ∈ cs, decimalDigit? c = none) :
    ∀ c ∈ cs, (decimalDigit? c).isSome = true := by
  intro c hc
  rw [Option.isSome_iff_ne_none]
  exact fun hnone => h ⟨c, hc, hnone⟩

/-- **Decimal digits.** They are read as a whole number, unless there are too many of them. -/
theorem readInt_of_decimals (h : ∀ c ∈ cs, (decimalDigit? c).isSome = true) (hne : cs ≠ []) :
    readInt cs = if digitLimit < cs.length then .error (.tooLong cs.length)
      else .ok (ofDigits (cs.filterMap decimalDigit?)) := by
  obtain ⟨hdigits, hvalues⟩ := plainDigits_of_decimals h
  have hlength : (plainDigits cs).length = cs.length := List.length_map _
  have hplain : readInt cs = readInt (plainDigits cs) := by
    rw [readInt, readInt, trimBy_isSpace_of_digits fun c hc => isDigit_of_decimal (h c hc),
      trimBy_isSpace hdigits, plainDigits_of_isDigit hdigits]
  have hread := readInt_of_isDecimal (.plain hdigits (mt List.map_eq_nil_iff.mp hne))
  rwa [hvalues, hlength, ← hplain] at hread

/-! ### Other digits -/

theorem mem_plainDigits (h : ∀ c ∈ cs, isDigit c = true) (hc : c ∈ plainDigits cs) :
    c.isDigit = true ∨ 128 ≤ c.toNat := by
  obtain ⟨b, hb, rfl⟩ := List.mem_map.mp hc
  cases hdecimal : decimalDigit? b with
  | some d =>
    obtain ⟨-, -, -, hlt⟩ := exists_zero_of_decimalDigit? hdecimal
    exact .inl (isDigit_digitChar hlt).1
  | none => exact .inr (ornamental_of_isDigit (h b hb) hdecimal).2

/-- Digits are read up to the first one without a place value. -/
theorem groupedDigits_of_ornamental (due : Bool) (h : ∀ c ∈ cs, isDigit c = true)
    (hother : ∃ c ∈ cs, decimalDigit? c = none) (digits : List Nat) :
    groupedDigits due (plainDigits cs) ≠ some (digits, []) := by
  -- the reader passes over decimal digits and then stops before the end, or finds no digit at all
  induction cs generalizing due digits with
  | nil => exact absurd hother (by simp)
  | cons c cs ih =>
    obtain ⟨hc, hcs⟩ := List.forall_mem_cons.mp h
    cases hdecimal : decimalDigit? c with
    | some d =>
      obtain ⟨-, -, -, hlt⟩ := exists_zero_of_decimalDigit? hdecimal
      have hdigit := (isDigit_digitChar hlt).1
      have hrest : ∃ c ∈ cs, decimalDigit? c = none := by
        obtain ⟨b, hb, hnone⟩ := hother
        obtain rfl | hb := List.mem_cons.mp hb
        · cases hdecimal.symm.trans hnone
        · exact ⟨b, hb, hnone⟩
      have hunderscore : digitChar d ≠ '_' := by
        intro heq
        rw [heq] at hdigit
        exact absurd hdigit (by decide)
      rw [plainDigits_cons_decimal hdecimal, groupedDigits, if_neg hunderscore,
        asciiDigit?_of_isDigit hdigit]
      intro hread
      obtain ⟨⟨ds, after⟩, hafter, heq⟩ := Option.map_eq_some_iff.mp hread
      obtain ⟨-, rfl⟩ := Prod.mk.inj heq
      exact ih false hcs hrest ds hafter
    | none =>
      have hbeyond := (ornamental_of_isDigit hc hdecimal).2
      have hunderscore : c ≠ '_' := by
        rintro rfl
        exact absurd hbeyond (by decide)
      have hascii : c.isDigit = false := by
        rw [← Bool.not_eq_true]
        intro hdigit
        have hrange := toNat_of_isDigit hdigit
        omega
      rw [plainDigits_cons_other hdecimal, groupedDigits, if_neg hunderscore,
        asciiDigit?_of_not_isDigit hascii]
      intro heq
      cases due <;> cases heq

/-- **Other digits.** A text with a digit that has no place value is read as no number. -/
theorem readInt_of_ornamental (h : ∀ c ∈ cs, isDigit c = true)
    (hother : ∃ c ∈ cs, decimalDigit? c = none) : ∃ fault, readInt cs = .error fault := by
  have hsign : sign (plainDigits cs) = (false, plainDigits cs) := by
    refine sign_eq_self ?_ ?_ <;>
    · intro hmem
      exact (mem_plainDigits h hmem).elim nofun (by decide)
  rw [readInt, trimBy_isSpace_of_digits h, hsign]
  dsimp only
  split
  · exact ⟨_, rfl⟩
  · next digits after hread =>
    have hafter : after ≠ [] := by
      rintro rfl
      exact groupedDigits_of_ornamental true h hother digits hread
    rw [if_pos hafter]
    split <;> exact ⟨_, rfl⟩

end IndexedRecords.Numeral
