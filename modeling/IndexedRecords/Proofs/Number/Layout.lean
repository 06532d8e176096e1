import IndexedRecords.Number.Layout
import IndexedRecords.Number.Whole
import IndexedRecords.Proofs.Number.Numeral
import Mathlib.Algebra.Order.Field.Rat
import Mathlib.Tactic.FieldSimp
import Mathlib.Tactic.Ring

/-!
# Numbers that texts stand for

Queries and documents lay out the digits of a floating number in different ways. As decimals, both
texts stand for one number: that of the digits themselves.

## Main statements

* `Numeral.value?_wholeText`: a whole number in digits stands for itself.
* `Numeral.value?_finite`: every layout of a floating number stands for its shortest decimal.
-/

namespace IndexedRecords

/-- The number that a decimal stands for. -/
def Scientific.value (s : Scientific) : ℚ := s.digits * 10 ^ s.exponent

namespace Binary64

/-- The shortest decimal of a finite number. -/
def decimal (negative : Bool) (units : Nat) : ℚ :=
  (if negative then -1 else 1) * if units = 0 then 0 else (shortest .toEven units).value

end Binary64

namespace Numeral

/-- The number that a decimal in digits stands for, with a sign, a point and an exponent where it
has them. -/
def value? (cs : List Char) : Option ℚ :=
  (readDecimal (sign cs).2).map fun (digits, exponent) =>
    (if (sign cs).1 then -1 else 1) * (⟨digits, exponent⟩ : Scientific).value

/-! ### Digits -/

variable {cs : List Char} {n : Nat}

theorem isDigit_of_mem_zeros {k : Nat} {c : Char} (h : c ∈ List.replicate k '0') :
    c.isDigit = true := by
  obtain rfl := List.eq_of_mem_replicate h
  rfl

theorem map_digitOf_zeros (k : Nat) : (List.replicate k '0').map digitOf = List.replicate k 0 :=
  List.map_replicate

theorem ofDigits_zeros_append (k : Nat) (digits : List Nat) :
    ofDigits (List.replicate k 0 ++ digits) = ofDigits digits := by
  induction k with
  | zero => rfl
  | succ k ih => exact ih

theorem readDecimal_point (cs fraction rest : List Char) (hcs : ∀ c ∈ cs, c.isDigit = true)
    (hne : cs ≠ []) (hfraction : ∀ c ∈ fraction, c.isDigit = true) (hrest : NoDigit rest) :
    readDecimal (cs ++ '.' :: (fraction ++ rest)) = (readExponent rest).map fun e : Int =>
      (ofDigits ((cs ++ fraction).map digitOf), e - (fraction.length : Int)) := by
  have hwhole : spanDigits (cs ++ '.' :: (fraction ++ rest)) =
      (cs.map digitOf, '.' :: (fraction ++ rest)) :=
    spanDigits_append hcs (noDigit_cons rfl _)
  rw [readDecimal, hwhole]
  simp [spanDigits_append hfraction hrest, hne]

/-! ### Layouts -/

/-- A decimal that is read stands for a number. -/
def Denotes (cs : List Char) (x : ℚ) : Prop :=
  ∃ digits exponent, readDecimal cs = some (digits, exponent) ∧
    (⟨digits, exponent⟩ : Scientific).value = x

theorem denotes_whole (n : Nat) : Denotes (Nat.toDigits 10 n) n := by
  refine ⟨n, 0, ?_, by rw [Scientific.value, zpow_zero, mul_one]⟩
  have hread := readDecimal_digits (Nat.toDigits 10 n) [] (fun _ => isDigit_of_mem_toDigits)
    Nat.toDigits_ne_nil noDigit_nil nofun
  rw [List.append_nil] at hread
  rw [hread, ofDigits_toDigits]
  rfl

/-- Zeros and digits after the point. -/
theorem denotes_small (n k places : Nat) (hplaces : places = k + (Nat.toDigits 10 n).length) :
    Denotes ('0' :: '.' :: List.replicate k '0' ++ Nat.toDigits 10 n)
      (⟨n, -places⟩ : Scientific).value := by
  refine ⟨n, -places, ?_, rfl⟩
  have hread := readDecimal_point ['0'] (List.replicate k '0' ++ Nat.toDigits 10 n) []
    (List.forall_mem_singleton.mpr rfl) (List.cons_ne_nil _ _)
    (fun c hc => (List.mem_append.mp hc).elim isDigit_of_mem_zeros isDigit_of_mem_toDigits)
    noDigit_nil
  rw [List.append_nil] at hread
  have hzeros : ['0'] ++ (List.replicate k '0' ++ Nat.toDigits 10 n) =
      List.replicate (k + 1) '0' ++ Nat.toDigits 10 n := rfl
  rw [hzeros, List.map_append, map_digitOf_zeros, ofDigits_zeros_append, ofDigits_toDigits] at hread
  refine hread.trans ?_
  simp [readExponent, hplaces]

/-- A decimal without an exponent stands for its digits. -/
theorem denotes_plain (n : Nat) (e : Int) :
    Denotes (NumberLayout.plain (Nat.toDigits 10 n) e) (⟨n, e⟩ : Scientific).value := by
  cases e with
  -- zeros follow the digits, then a point and one more zero, which the exponent makes up for
  | ofNat e =>
    refine ⟨n * 10 ^ e * 10, -1, ?_, ?_⟩
    · have hread := readDecimal_point (Nat.toDigits 10 n ++ List.replicate e '0') ['0'] []
        (fun c hc => (List.mem_append.mp hc).elim isDigit_of_mem_toDigits isDigit_of_mem_zeros)
        (by simp) (List.forall_mem_singleton.mpr rfl) noDigit_nil
      have hdigits : ofDigits ((Nat.toDigits 10 n ++ List.replicate e '0' ++ ['0']).map digitOf) =
          n * 10 ^ e * 10 := by
        have hzeros : Nat.toDigits 10 n ++ List.replicate e '0' ++ ['0'] =
            Nat.toDigits 10 n ++ List.replicate (e + 1) '0' := by
          rw [List.append_assoc, List.replicate_succ']
        rw [hzeros, List.map_append, map_digitOf_zeros, ofDigits_append_zeros, ofDigits_toDigits,
          Nat.pow_succ, Nat.mul_assoc]
      rw [hdigits] at hread
      exact hread
    · simp only [Scientific.value, Int.ofNat_eq_natCast, zpow_natCast]
      push_cast
      field_simp
  | negSucc e =>
    rw [NumberLayout.plain]
    -- the point stands among the digits, or zeros stand between it and the first digit
    split
    · next hlt =>
      refine ⟨n, Int.negSucc e, ?_, rfl⟩
      have hmem : ∀ c ∈ (Nat.toDigits 10 n).take ((Nat.toDigits 10 n).length - (e + 1)),
          c.isDigit = true := fun c hc => isDigit_of_mem_toDigits (List.mem_of_mem_take hc)
      have hread := readDecimal_point _
        ((Nat.toDigits 10 n).drop ((Nat.toDigits 10 n).length - (e + 1))) [] hmem
        (fun hnil => (List.take_eq_nil_iff.mp hnil).elim (by omega) Nat.toDigits_ne_nil)
        (fun c hc => isDigit_of_mem_toDigits (List.mem_of_mem_drop hc)) noDigit_nil
      rw [List.append_nil, List.take_append_drop, ofDigits_toDigits, List.length_drop] at hread
      refine hread.trans ?_
      simp only [readExponent, Option.map_some, Option.some.injEq, Prod.mk.injEq, true_and]
      omega
    · next hle =>
      have hsmall := denotes_small n (e + 1 - (Nat.toDigits 10 n).length) (e + 1) (by omega)
      exact hsmall

/-- The digits of an exponent, padded to some length, are read as the exponent. -/
theorem readExponent_padded (width : Nat) (leading : Int) :
    readExponent ('e' :: (if leading < 0 then '-' else '+') ::
      NumberLayout.padded width leading.natAbs) = some leading := by
  have hspan : spanDigits (NumberLayout.padded width leading.natAbs) =
      ((NumberLayout.padded width leading.natAbs).map digitOf, []) := by
    have hall := @spanDigits_append (NumberLayout.padded width leading.natAbs) []
      (fun c hc => (List.mem_append.mp hc).elim isDigit_of_mem_zeros isDigit_of_mem_toDigits)
      noDigit_nil
    rwa [List.append_nil] at hall
  -- zeros in front do not change the number that digits stand for
  have hvalue : ofDigits ((NumberLayout.padded width leading.natAbs).map digitOf) =
      leading.natAbs := by
    rw [NumberLayout.padded, List.map_append, map_digitOf_zeros, ofDigits_zeros_append,
      ofDigits_toDigits]
  have hne : (NumberLayout.padded width leading.natAbs).map digitOf ≠ [] := by
    rw [NumberLayout.padded]
    simp
  obtain ⟨d, ds, hds⟩ := List.exists_cons_of_ne_nil hne
  rw [readExponent, if_pos (.inl rfl)]
  rw [hds] at hspan hvalue
  by_cases hneg : leading < 0
  · rw [if_pos hneg]
    simp only [sign, hspan, hvalue, if_true, Option.some.injEq]
    omega
  · rw [if_neg hneg]
    simp only [sign, hspan, hvalue, Bool.false_eq_true, if_false, Option.some.injEq]
    omega

/-- A decimal with one digit before the point and an exponent stands for its digits. -/
theorem denotes_withExponent (layout : NumberLayout) (n : Nat) (e : Int) :
    Denotes (layout.withExponent (Nat.toDigits 10 n) (e + (Nat.toDigits 10 n).length - 1))
      (⟨n, e⟩ : Scientific).value := by
  refine ⟨n, e, ?_, rfl⟩
  have hexponent := readExponent_padded layout.exponentDigits
    (e + (Nat.toDigits 10 n).length - 1)
  generalize hleading : e + (Nat.toDigits 10 n).length - 1 = leading at hexponent ⊢
  have hdigits : ∀ c ∈ Nat.toDigits 10 n, c.isDigit = true := fun _ => isDigit_of_mem_toDigits
  have hvalue := ofDigits_toDigits n
  have hletter : NoDigit ('e' :: (if leading < 0 then '-' else '+') ::
      NumberLayout.padded layout.exponentDigits leading.natAbs) := noDigit_cons rfl _
  unfold NumberLayout.withExponent
  -- a single digit stands without a point, several have one after the first
  match hds : Nat.toDigits 10 n with
  | [] => exact absurd hds Nat.toDigits_ne_nil
  | [d] =>
    rw [hds] at hdigits hvalue hleading
    have hread := readDecimal_digits [d] _ hdigits (List.cons_ne_nil _ _) hletter (by simp)
    rw [hexponent, hvalue] at hread
    refine hread.trans ?_
    simp only [Option.map_some, Option.some.injEq, Prod.mk.injEq, true_and]
    simp at hleading
    omega
  | d :: d' :: ds =>
    rw [hds] at hdigits hvalue hleading
    have hread := readDecimal_point [d] (d' :: ds) _
      (fun c hc => hdigits c (List.mem_cons.mpr (.inl (List.mem_singleton.mp hc))))
      (List.cons_ne_nil _ _) (fun c hc => hdigits c (List.mem_cons_of_mem _ hc)) hletter
    simp only [List.singleton_append] at hread
    rw [hexponent, hvalue] at hread
    refine Eq.trans (congrArg readDecimal ?_) (hread.trans ?_)
    · simp
    · simp only [Option.map_some, Option.some.injEq, Prod.mk.injEq, true_and]
      simp at hleading ⊢
      omega

/-- The text of a decimal, with or without an exponent. -/
def layOut (layout : NumberLayout) (s : Scientific) : List Char :=
  let digits := Nat.toDigits 10 s.digits
  let leading := s.exponent + digits.length - 1
  if layout.leastPlain ≤ leading ∧ leading < layout.leastLarge then
    NumberLayout.plain digits s.exponent
  else layout.withExponent digits leading

theorem magnitude_of_ne_zero (layout : NumberLayout) {units : Nat} (h : units ≠ 0) :
    layout.magnitude units = layOut layout (Binary64.shortest .toEven units) :=
  if_neg h

theorem denotes_layOut (layout : NumberLayout) (s : Scientific) :
    Denotes (layOut layout s) s.value := by
  rw [layOut]
  split
  · exact denotes_plain s.digits s.exponent
  · exact denotes_withExponent layout s.digits s.exponent

theorem denotes_magnitude (layout : NumberLayout) (units : Nat) :
    Denotes (layout.magnitude units) (Binary64.decimal false units) := by
  rw [Binary64.decimal, if_neg Bool.false_ne_true, one_mul]
  by_cases hzero : units = 0
  · subst hzero
    exact ⟨0, -1, rfl, by simp [Scientific.value]⟩
  · rw [magnitude_of_ne_zero layout hzero, if_neg hzero]
    exact denotes_layOut layout _

/-! ### Signed numbers -/

/-- A decimal that is read has no sign. -/
theorem sign_of_readDecimal {r : Nat × Int} (h : readDecimal cs = some r) :
    sign cs = (false, cs) := by
  unfold sign
  split <;> first | rfl | cases h

theorem value?_of_denotes {x : ℚ} (h : Denotes cs x) :
    value? cs = some x ∧ value? ('-' :: cs) = some (-x) := by
  obtain ⟨digits, exponent, hread, rfl⟩ := h
  have hsign := sign_of_readDecimal hread
  have hminus : sign ('-' :: cs) = (true, cs) := rfl
  constructor
  · rw [value?, hsign, hread]
    simp
  · rw [value?, hminus, hread]
    simp

/-- A whole number in digits stands for itself. -/
theorem value?_wholeText (n : Int) : value? (wholeText n) = some n := by
  obtain ⟨hpositive, hnegative⟩ := value?_of_denotes (denotes_whole n.natAbs)
  rw [wholeText]
  by_cases hneg : n < 0
  · rw [if_pos hneg]
    refine hnegative.trans (congrArg some ?_)
    rw [← Int.cast_natCast, Int.ofNat_natAbs_of_nonpos hneg.le, Int.cast_neg, neg_neg]
  · rw [if_neg hneg, List.nil_append]
    refine hpositive.trans (congrArg some ?_)
    rw [← Int.cast_natCast, Int.natAbs_of_nonneg (not_lt.mp hneg)]

/-- **One number in all layouts.** However a finite floating number is laid out, its text stands for
its shortest decimal. -/
theorem value?_finite (layout : NumberLayout) (negative : Bool) (units : Nat) :
    value? (layout.finite negative units) = some (Binary64.decimal negative units) := by
  obtain ⟨hpositive, hnegative⟩ := value?_of_denotes (denotes_magnitude layout units)
  cases negative with
  | false => exact hpositive
  | true =>
    refine hnegative.trans (congrArg some ?_)
    rw [Binary64.decimal, Binary64.decimal, if_neg Bool.false_ne_true, if_pos rfl, one_mul,
      neg_one_mul]

end Numeral

end IndexedRecords
