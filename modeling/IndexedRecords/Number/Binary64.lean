/-!
# Binary64 numbers

A floating number is no number, an infinity, or a signed whole number of units of `2⁻¹⁰⁷⁴`, the
smallest positive magnitude. Every operation is exact arithmetic on these units, followed by at
most one rounding to the nearest representable magnitude, ties to the even one. Main statements:
rounding is within half a step (`roundHalfEven_lower`, `roundHalfEven_upper`) and keeps whole
quotients (`roundHalfEven_mul`).
-/

namespace IndexedRecords

/-- The whole number nearest to a quotient; a tie goes to the even neighbour. -/
def roundHalfEven (num den : Nat) : Nat :=
  let q := num / den
  let r := num % den
  if 2 * r < den then q else if den < 2 * r then q + 1 else q + q % 2

/-- A quotient that is whole is rounded to itself. -/
theorem roundHalfEven_mul (q den : Nat) (h : 0 < den) : roundHalfEven (q * den) den = q := by
  simp [roundHalfEven, Nat.mul_div_cancel _ h, h]

/-- A quotient is at most half a step above what it is rounded to. -/
theorem roundHalfEven_lower (num den : Nat) (h : 0 < den) :
    2 * num ≤ (2 * roundHalfEven num den + 1) * den := by
  have hd := Nat.div_add_mod num den
  have hm := Nat.mod_lt num h
  rw [roundHalfEven]
  generalize num / den = q at *
  generalize num % den = r at *
  subst hd
  rw [Nat.mul_comm den q]
  split
  · simp only [Nat.add_mul, Nat.mul_assoc]
    omega
  · split
    · simp only [Nat.mul_add, Nat.add_mul, Nat.mul_assoc]
      omega
    · rcases Nat.mod_two_eq_zero_or_one q with h2 | h2 <;>
        simp only [h2, Nat.mul_add, Nat.add_mul, Nat.mul_assoc] <;> omega

/-- A quotient is at most half a step below what it is rounded to. -/
theorem roundHalfEven_upper (num den : Nat) (h : 0 < den) :
    2 * (roundHalfEven num den * den) ≤ 2 * num + den := by
  have hd := Nat.div_add_mod num den
  have hm := Nat.mod_lt num h
  rw [roundHalfEven]
  generalize num / den = q at *
  generalize num % den = r at *
  subst hd
  rw [Nat.mul_comm den q]
  split
  · omega
  · split
    · rw [Nat.add_mul]
      omega
    · rcases Nat.mod_two_eq_zero_or_one q with h2 | h2 <;>
        simp only [h2, Nat.add_mul, Nat.zero_mul, Nat.one_mul] <;> omega

/-- The whole number nearest to a quotient; a tie goes up. -/
def roundHalfUp (num den : Nat) : Nat := (2 * num + den) / (2 * den)

/-- Where a number halfway between two neighbours goes. -/
inductive Tie where
  | toEven
  | up
  deriving DecidableEq, Repr

/-- The whole number nearest to a quotient. -/
def Tie.round (tie : Tie) (num den : Nat) : Nat :=
  match tie with
  | .toEven => roundHalfEven num den
  | .up => roundHalfUp num den

/-- A binary64 number; a finite one counts units of `2⁻¹⁰⁷⁴`. -/
inductive Binary64 where
  | nan
  | infinite (negative : Bool)
  | finite (negative : Bool) (units : Nat)
  deriving DecidableEq, Repr, Inhabited

namespace Binary64

/-- The number of units in one. -/
def one : Nat := Nat.pow 2 1074

/-- The distance between neighbouring magnitudes around a number of units: magnitudes have
fifty-three binary digits. -/
def spacing (units : Nat) : Nat := Nat.pow 2 (Nat.log2 units - 52)

/-- The least number of units that is too large for a finite number. -/
def overflow : Nat := Nat.pow 2 2098

/-- The representable magnitude nearest to a quotient of units. -/
def roundUnits (num den : Nat) : Nat :=
  let step := spacing (num / den)
  roundHalfEven num (den * step) * step

/-- The number nearest to a signed quotient; an infinity where that is too large. -/
def ofRatio (negative : Bool) (num den : Nat) : Binary64 :=
  let units := roundUnits (num * one) den
  if units < overflow then .finite negative units else .infinite negative

/-- The number nearest to a whole number, if it is not too large. -/
def ofInt? (n : Int) : Option Binary64 :=
  match ofRatio (n < 0) n.natAbs 1 with
  | .infinite _ => none
  | x => some x

/-- The number nearest to `digits · 10 ^ exponent`. Exponents far beyond the range of finite
numbers are decided by the position of the first digit. -/
def ofScientific (negative : Bool) (digits : Nat) (exponent : Int) : Binary64 :=
  if digits = 0 then .finite negative 0
  else
    let first := exponent + (Nat.toDigits 10 digits).length
    if 310 < first then .infinite negative
    else if first < -330 then .finite negative 0
    else
      match exponent with
      | .ofNat e => ofRatio negative (digits * Nat.pow 10 e) 1
      | .negSucc e => ofRatio negative digits (Nat.pow 10 (e + 1))

/-- Whether the number is an infinity or no number. -/
def isSpecial : Binary64 → Bool
  | .finite _ _ => false
  | _ => true

/-- The whole number next to a finite number in the direction of zero. -/
def truncate? : Binary64 → Option Int
  | .finite negative units =>
    let n : Int := (units / one : Nat)
    some (if negative then -n else n)
  | _ => none

/-- The whole number that a finite number is, if it is one. -/
def whole? : Binary64 → Option Int
  | .finite negative units =>
    if units % one = 0 then some (if negative then -(units / one : Nat) else (units / one : Nat))
    else none
  | _ => none

/-- The signed number of units of a finite number. -/
def signedUnits? : Binary64 → Option Int
  | .finite negative units => some (if negative then -(units : Int) else units)
  | _ => none

end Binary64

end IndexedRecords
