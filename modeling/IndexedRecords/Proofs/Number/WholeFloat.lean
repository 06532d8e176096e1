import IndexedRecords.Number.Layout
import IndexedRecords.Proofs.Number.Numeral
import Mathlib.Data.Nat.Log
import Mathlib.Tactic.IntervalCases
import Mathlib.Tactic.Ring

/-!
# Whole floating numbers

A whole number below `2⁵³` is a binary64 number, so that rounding keeps it. Its shortest digits are
its own ones, since no other whole number is near enough to round to it, and they are written
without an exponent.

## Main statements

* `ofRatio_whole`: a whole quotient below `2⁵³` is not rounded.
* `shortest_whole`: the shortest decimal of a whole number below `10¹⁵` is that number.
* `magnitude_whole`: its text has its digits, a point and a zero.
-/

namespace IndexedRecords.Binary64

/-- One is a power of two. Its exponent has a name here, since the power itself is not to be
evaluated. -/
theorem exists_one_eq : ∃ k, k = 1074 ∧ one = 2 ^ k :=
  ⟨1074, rfl, Nat.pow_eq⟩

theorem spacing_eq (units : Nat) : spacing units = 2 ^ (Nat.log2 units - 52) := rfl

theorem one_pos : 0 < one := by
  obtain ⟨k, -, hone⟩ := exists_one_eq
  rw [hone]
  exact Nat.two_pow_pos k

theorem log2_mul_two_pow {n : Nat} (h : n ≠ 0) (k : Nat) :
    Nat.log2 (n * 2 ^ k) = Nat.log2 n + k := by
  simp only [Nat.log2_eq_log_two]
  induction k with
  | zero => rw [Nat.pow_zero, Nat.mul_one, Nat.add_zero]
  | succ k ih =>
    have hne : n * 2 ^ k ≠ 0 := Nat.mul_ne_zero h (Nat.ne_of_gt (Nat.two_pow_pos k))
    rw [Nat.pow_succ, ← Nat.mul_assoc, Nat.log_mul_base (by decide) hne, ih, Nat.add_assoc]

theorem log2_mul_one {n : Nat} (h : n ≠ 0) : Nat.log2 (n * one) = Nat.log2 n + 1074 := by
  obtain ⟨k, hk, hone⟩ := exists_one_eq
  rw [hone, log2_mul_two_pow h, hk]

/-! ### Rounding -/

/-- The neighbours of a whole number below `2⁵³` are at most one away from it. -/
theorem spacing_dvd_one {n : Nat} (h : n < 2 ^ 53) : spacing (n * one) ∣ n * one := by
  by_cases hn : n = 0
  · rw [hn, Nat.zero_mul]
    exact Nat.dvd_zero _
  · have hlog : Nat.log2 n < 53 := (Nat.log2_lt hn).mpr h
    obtain ⟨k, hk, hone⟩ := exists_one_eq
    rw [spacing_eq, log2_mul_one hn, hone]
    exact Nat.dvd_mul_left_of_dvd (Nat.pow_dvd_pow 2 (by omega)) n

theorem roundUnits_whole {n den : Nat} (hn : n < 2 ^ 53) (hden : 0 < den) :
    roundUnits (n * den * one) den = n * one := by
  obtain ⟨steps, hsteps⟩ := spacing_dvd_one hn
  have hquotient : n * den * one / den = n * one := by
    rw [Nat.mul_right_comm, Nat.mul_div_cancel _ hden]
  have hpos : 0 < den * spacing (n * one) := Nat.mul_pos hden (Nat.two_pow_pos _)
  have hnum : n * den * one = steps * (den * spacing (n * one)) := by
    calc n * den * one = n * one * den := Nat.mul_right_comm _ _ _
      _ = spacing (n * one) * steps * den := by rw [← hsteps]
      _ = steps * (den * spacing (n * one)) := by
        rw [Nat.mul_comm (spacing _) steps, Nat.mul_assoc, Nat.mul_comm (spacing _) den]
  rw [roundUnits, hquotient, hnum, roundHalfEven_mul _ _ hpos, Nat.mul_comm, ← hsteps]

/-- **Exact quotients.** A whole quotient below `2⁵³` is not rounded. -/
theorem ofRatio_whole {n den : Nat} (hn : n < 2 ^ 53) (hden : 0 < den) (negative : Bool) :
    ofRatio negative (n * den) den = .finite negative (n * one) := by
  have hsmall : n * one < overflow := by
    obtain ⟨k, hk, hone⟩ := exists_one_eq
    obtain ⟨l, hl, hoverflow⟩ : ∃ l, l = 2098 ∧ overflow = 2 ^ l := ⟨2098, rfl, Nat.pow_eq⟩
    calc n * one < 2 ^ 53 * one := (Nat.mul_lt_mul_right one_pos).mpr hn
      _ = 2 ^ (53 + k) := by rw [hone, Nat.pow_add]
      _ < overflow := by
        rw [hoverflow]
        exact Nat.pow_lt_pow_right (by decide) (by omega)
  rw [ofRatio, roundUnits_whole hn hden]
  exact if_pos hsmall

/-- A whole number below `2⁵³` that is given without an exponent is not rounded. -/
theorem ofScientific_whole {n : Nat} (hn : n < 2 ^ 53) (negative : Bool) :
    ofScientific negative n 0 = .finite negative (n * one) := by
  by_cases hzero : n = 0
  · rw [hzero, Nat.zero_mul, ofScientific.eq_def, if_pos rfl]
  · have hdigits : (Nat.toDigits 10 n).length ≤ 16 :=
      (Nat.length_toDigits_le_iff (by decide) (by decide)).mpr (by omega)
    have hlarge : ¬ 310 < 0 + ((Nat.toDigits 10 n).length : Int) := by omega
    have hsmall : ¬ 0 + ((Nat.toDigits 10 n).length : Int) < -330 := by omega
    have hexact := ofRatio_whole hn Nat.one_pos negative
    rw [ofScientific.eq_def, if_neg hzero]
    simp only [if_neg hlarge, if_neg hsmall]
    exact hexact

/-- A whole number below `10¹⁵` that is given in tenths is not rounded. -/
theorem ofScientific_tenths {n : Nat} (hn : n < 10 ^ 15) (negative : Bool) :
    ofScientific negative (n * 10) (-1) = .finite negative (n * one) := by
  by_cases hzero : n = 0
  · rw [hzero, Nat.zero_mul, Nat.zero_mul, ofScientific.eq_def, if_pos rfl]
  · have hdigits : (Nat.toDigits 10 (n * 10)).length ≤ 16 :=
      (Nat.length_toDigits_le_iff (by decide) (by decide)).mpr (by omega)
    have hlarge : ¬ 310 < -1 + ((Nat.toDigits 10 (n * 10)).length : Int) := by omega
    have hsmall : ¬ -1 + ((Nat.toDigits 10 (n * 10)).length : Int) < -330 := by omega
    have hne : n * 10 ≠ 0 := by omega
    have hexact := ofRatio_whole (Nat.lt_trans hn (by decide)) (show 0 < 10 ^ (0 + 1) by decide)
      negative
    rw [ofScientific.eq_def, if_neg hne]
    simp only [if_neg hlarge, if_neg hsmall]
    exact hexact

/-! ### Shortest digits -/

variable {n : Nat}

theorem mul_spacing_le_one (hn : n < 2 ^ 50) (hpos : 0 < n) : 8 * spacing (n * one) ≤ one := by
  have hlog : Nat.log2 n < 50 := (Nat.log2_lt (Nat.ne_of_gt hpos)).mpr hn
  obtain ⟨k, hk, hone⟩ := exists_one_eq
  rw [spacing_eq, log2_mul_one (Nat.ne_of_gt hpos), hone]
  calc 8 * 2 ^ (Nat.log2 n + 1074 - 52) = 2 ^ (3 + (Nat.log2 n + 1074 - 52)) := by
        rw [Nat.pow_add]
    _ ≤ 2 ^ k := Nat.pow_le_pow_right (by decide) (by omega)

theorem powerOfTen_natCast (e : Nat) : powerOfTen e = (10 ^ e, 1) := rfl

/-- What rounds to a magnitude is at most half a step away from it. -/
theorem bounds_of_roundsTo {units digits e : Nat} (h : roundsTo units digits e = true) :
    4 * units ≤ 4 * one * digits * 10 ^ e + 2 * spacing units ∧
      4 * one * digits * 10 ^ e ≤ 4 * units + 2 * spacing units := by
  rw [roundsTo, powerOfTen_natCast, roundingInterval] at h
  simp only [Nat.mul_one] at h
  generalize 4 * one * digits * 10 ^ e = quarters at h ⊢
  generalize spacing units = step at h ⊢
  split at h
  · rw [Bool.and_eq_true, decide_eq_true_eq, decide_eq_true_eq] at h
    split at h <;> omega
  · rw [Bool.and_eq_true, decide_eq_true_eq, decide_eq_true_eq] at h
    split at h <;> omega

/-- A whole number of units rounds to itself. -/
theorem roundsTo_self (hpos : 0 < n) : roundsTo (n * one) n (0 : Nat) = true := by
  have hunits : 4 * one * n * 10 ^ 0 = 4 * (n * one) := by ring
  have hpos' : 0 < n * one := Nat.mul_pos hpos one_pos
  have hstep : 0 < spacing (n * one) := Nat.two_pow_pos _
  rw [roundsTo, powerOfTen_natCast, roundingInterval]
  simp only [Nat.mul_one, hunits]
  generalize n * one = units at hpos' hstep ⊢
  generalize spacing units = step at hstep ⊢
  split
  · rw [Bool.and_eq_true, decide_eq_true_eq, decide_eq_true_eq]
    split <;> omega
  · rw [Bool.and_eq_true, decide_eq_true_eq, decide_eq_true_eq]
    split <;> omega

/-- Around a whole number below `2⁵⁰`, the interval that rounds to it is shorter than one. -/
theorem eq_of_roundsTo {digits e : Nat} (hn : n < 2 ^ 50) (hpos : 0 < n)
    (h : roundsTo (n * one) digits e = true) : digits * 10 ^ e = n := by
  obtain ⟨hlow, hhigh⟩ := bounds_of_roundsTo h
  have hspacing := mul_spacing_le_one hn hpos
  have hassoc : 4 * one * digits * 10 ^ e = one * (4 * (digits * 10 ^ e)) := by ring
  have hunits : 4 * (n * one) = one * (4 * n) := by ring
  rw [hassoc, hunits] at hlow hhigh
  have hbelow : one * (4 * n) < one * (4 * (digits * 10 ^ e) + 1) := by
    rw [Nat.mul_add]
    have hone := one_pos
    omega
  have habove : one * (4 * (digits * 10 ^ e)) < one * (4 * n + 1) := by
    rw [Nat.mul_add]
    have hone := one_pos
    omega
  have hlt := Nat.lt_of_mul_lt_mul_left hbelow
  have hlt' := Nat.lt_of_mul_lt_mul_left habove
  omega

/-- What stands for a magnitude on a grid rounds to it, unless two neighbours do. -/
theorem roundsTo_of_onGrid? {units digits e : Nat} {tie : Tie}
    (h : onGrid? tie units e = some digits) :
    roundsTo units digits e = true ∨
      ∃ d, roundsTo units d e = true ∧ roundsTo units (d + 1) e = true := by
  rw [onGrid?, powerOfTen_natCast] at h
  simp only at h
  split at h
  · next hbelow habove => exact .inr ⟨_, hbelow, habove⟩
  · next hbelow _ =>
    obtain rfl := Option.some.inj h
    exact .inl hbelow
  · next _ habove =>
    obtain rfl := Option.some.inj h
    exact .inl habove
  · cases h

/-- What stands for a whole number on a grid of whole numbers is the number itself. -/
theorem eq_of_onGrid? {digits e : Nat} (hn : n < 2 ^ 50) (hpos : 0 < n) {tie : Tie}
    (h : onGrid? tie (n * one) e = some digits) : digits * 10 ^ e = n := by
  rcases roundsTo_of_onGrid? h with hdigits | ⟨d, hbelow, habove⟩
  · exact eq_of_roundsTo hn hpos hdigits
  · have heq := (eq_of_roundsTo hn hpos hbelow).trans (eq_of_roundsTo hn hpos habove).symm
    have hgrid : 0 < 10 ^ e := Nat.pow_pos (by decide)
    exact absurd (Nat.eq_of_mul_eq_mul_right hgrid heq) (Nat.ne_of_lt (Nat.lt_succ_self d))

/-- A magnitude that a whole number of units rounds to is on the grid of whole numbers. -/
theorem onGrid?_zero_ne_none {units : Nat} (h : roundsTo units (units / one) (0 : Nat) = true)
    (tie : Tie) : onGrid? tie units (0 : Nat) ≠ none := by
  intro hnone
  rw [onGrid?, powerOfTen_natCast] at hnone
  simp only [Nat.mul_one, Nat.pow_zero, h] at hnone
  split at hnone <;> simp_all

/-- The grids get finer until the number is on one, at the latest on that of whole numbers. -/
theorem exists_firstGrid {tries digits left : Nat} (hn : n < 2 ^ 50) (hpos : 0 < n) (tie : Tie)
    (htries : left < tries) :
    ∃ m e : Nat, firstGrid tie (n * one) (digits + left : Nat) tries digits = ⟨m, e⟩ ∧
      m * 10 ^ e = n := by
  induction tries generalizing digits left with
  | zero => exact absurd htries (Nat.not_lt_zero left)
  | succ tries ih =>
    have hexponent : ((digits + left : Nat) : Int) - digits = left := by omega
    rw [firstGrid]
    simp only [hexponent]
    cases hgrid : onGrid? tie (n * one) left with
    | some x =>
      have hx := eq_of_onGrid? hn hpos hgrid
      -- a zero at the end of what is found moves into the exponent
      by_cases hzero : x % 10 = 0
      · have hten : x / 10 * 10 = x := Nat.div_mul_cancel (Nat.dvd_of_mod_eq_zero hzero)
        refine ⟨x / 10, left + 1, by simp only [hzero, if_true]; rfl, ?_⟩
        rw [Nat.pow_succ', ← Nat.mul_assoc, hten, hx]
      · exact ⟨x, left, by simp only [hzero, if_false], hx⟩
    | none =>
      -- the grid of ones has the number itself, so the search cannot fail there
      have hself : roundsTo (n * one) (n * one / one) (0 : Nat) = true := by
        rw [Nat.mul_div_cancel _ one_pos]
        exact roundsTo_self hpos
      obtain ⟨left, rfl⟩ : ∃ k, left = k + 1 := by
        refine Nat.exists_eq_succ_of_ne_zero ?_
        rintro rfl
        exact onGrid?_zero_ne_none hself tie hgrid
      obtain ⟨m, e, hfound, heq⟩ := @ih (digits + 1) left (by omega)
      rw [show digits + 1 + left = digits + (left + 1) by omega] at hfound
      exact ⟨m, e, hfound, heq⟩

/-- The estimate of the first exponent is not too large below `2⁵⁰`. -/
theorem pow_guess_le : ∀ bits < 50, 10 ^ (bits * 30103 / 100000) ≤ 2 ^ bits := by decide

theorem exists_leadingExponent (hn : n < 2 ^ 50) (hpos : 0 < n) :
    ∃ leading : Nat, leadingExponent (n * one) = leading ∧ leading < 18 := by
  have hne := Nat.ne_of_gt hpos
  have hlog : Nat.log2 n < 50 := (Nat.log2_lt hne).mpr hn
  have hguess := Nat.le_trans (pow_guess_le _ hlog) (Nat.log2_self_le hne)
  have hfdiv : Int.fdiv ((((Nat.log2 n + 1074 : Nat) : Int) - 1074) * 30103) 100000 =
      (Nat.log2 n * 30103 / 100000 : Nat) := by
    rw [Int.fdiv_eq_ediv_of_nonneg _ (by decide)]
    omega
  have hsmall : Nat.log2 n * 30103 / 100000 < 17 := by omega
  rw [leadingExponent, log2_mul_one hne, hfdiv]
  generalize Nat.log2 n * 30103 / 100000 = guess at hguess hsmall ⊢
  have hnext : powerOfTen ((guess : Int) + 1) = (10 ^ (guess + 1), 1) := rfl
  have hatMost : 10 ^ guess * one ≤ n * one := Nat.mul_le_mul_right one hguess
  simp only [powerOfTen_natCast, hnext, Nat.mul_one, hatMost, decide_true, if_true]
  split
  · exact ⟨guess + 1, rfl, by omega⟩
  · exact ⟨guess, rfl, by omega⟩

/-- **Shortest digits of whole numbers.** The shortest decimal that rounds to a whole number below
`2⁵⁰` is that number. -/
theorem shortest_whole (hn : n < 2 ^ 50) (hpos : 0 < n) (tie : Tie) :
    ∃ m e : Nat, shortest tie (n * one) = ⟨m, e⟩ ∧ m * 10 ^ e = n := by
  obtain ⟨leading, hleading, hlt⟩ := exists_leadingExponent hn hpos
  obtain ⟨m, e, hgrid, heq⟩ := @exists_firstGrid n 18 0 leading hn hpos tie hlt
  rw [Nat.zero_add] at hgrid
  exact ⟨m, e, by rw [shortest, hleading, hgrid], heq⟩

/-! ### Digits of the text -/

/-- The digits of a text that stands for a whole number before its point. -/
structure WholeDigits (n : Nat) (digits : List Char) : Prop where
  isDigit : ∀ c ∈ digits, c.isDigit = true
  ne_nil : digits ≠ []
  length_le : digits.length ≤ 15
  ofDigits : Numeral.ofDigits (digits.map Numeral.digitOf) = n
  leading : ¬ ((digits.map Numeral.digitOf).head? = some 0 ∧
    1 < (digits.map Numeral.digitOf).length)

/-- The shortest digits of a number with zeros up to its point. -/
theorem wholeDigits_of_mul {m e : Nat} (heq : m * 10 ^ e = n) (hpos : 0 < n) (hn : n < 10 ^ 15) :
    WholeDigits n (Nat.toDigits 10 m ++ List.replicate e '0') := by
  have hm : m ≠ 0 := by
    rintro rfl
    rw [Nat.zero_mul] at heq
    omega
  have hzeros : (List.replicate e '0').map Numeral.digitOf = List.replicate e 0 := by
    rw [List.map_replicate]
    rfl
  refine ⟨fun c hc => ?_, ?_, ?_, ?_, ?_⟩
  · rcases List.mem_append.mp hc with hc | hc
    · exact Nat.isDigit_of_mem_toDigits (by decide) (by decide) hc
    · rw [List.eq_of_mem_replicate hc]
      rfl
  · exact fun hnil => Nat.toDigits_ne_nil (List.append_eq_nil_iff.mp hnil).1
  · have hlength : (Nat.toDigits 10 m).length - 1 + e < 15 := by
      refine (Nat.pow_lt_pow_iff_right (show 1 < 10 by decide)).mp (Nat.lt_of_le_of_lt ?_ hn)
      rw [Nat.pow_add, ← heq]
      exact Nat.mul_le_mul_right _ (pow_length_le hm)
    rw [List.length_append, List.length_replicate]
    omega
  · rw [List.map_append, hzeros, Numeral.ofDigits_append_zeros, Numeral.ofDigits_toDigits, heq]
  -- the first digit is that of a number which is not zero
  · rintro ⟨hhead, -⟩
    have hdigits : (Nat.toDigits 10 m).map Numeral.digitOf ≠ [] :=
      mt List.map_eq_nil_iff.mp Nat.toDigits_ne_nil
    have hfirst := Numeral.head_toDigits_ne_zero hm
    obtain ⟨d, ds, hds⟩ := List.exists_cons_of_ne_nil hdigits
    rw [List.map_append, hds] at hhead
    rw [hds] at hfirst
    exact hfirst hhead

/-- **Texts of whole numbers.** A whole number below `10¹⁵` is written with its digits, a point and
a zero. -/
theorem magnitude_whole (hn : n < 10 ^ 15) :
    ∃ digits, NumberLayout.document.magnitude (n * one) = digits ++ ['.', '0'] ∧
      WholeDigits n digits := by
  by_cases hpos : 0 < n
  · obtain ⟨m, e, hshortest, heq⟩ := shortest_whole (Nat.lt_trans hn (by decide)) hpos .toEven
    have hwhole := wholeDigits_of_mul heq hpos hn
    refine ⟨_, ?_, hwhole⟩
    have hne : n * one ≠ 0 := Nat.ne_of_gt (Nat.mul_pos hpos one_pos)
    have hlength := hwhole.length_le
    rw [List.length_append, List.length_replicate] at hlength
    have hdigits : 0 < (Nat.toDigits 10 m).length := Nat.length_toDigits_pos
    -- a number of so few digits is written without an exponent
    have hplain : NumberLayout.document.leastPlain ≤
          (e : Int) + (Nat.toDigits 10 m).length - 1 ∧
        (e : Int) + (Nat.toDigits 10 m).length - 1 < NumberLayout.document.leastLarge := by
      rw [NumberLayout.document]
      constructor <;> dsimp only <;> omega
    rw [NumberLayout.magnitude, if_neg hne, hshortest]
    simp only [if_pos hplain]
    rfl
  · obtain rfl : n = 0 := Nat.eq_zero_of_not_pos hpos
    refine ⟨['0'], ?_, List.forall_mem_singleton.mpr rfl, by decide, by decide, by decide,
      by decide⟩
    rw [Nat.zero_mul]
    rfl

end IndexedRecords.Binary64
