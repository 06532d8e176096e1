import IndexedRecords.Number.Binary64

/-!
# The shortest decimal that reads back

Among the decimals that round to a given binary64 magnitude, the one with the fewest digits; of
several such the nearest, and of two equally near the one that a rule for ties chooses. The interval
of reals that round to the magnitude is computed exactly, and each number of digits from one to
seventeen is tested by the two neighbours of the magnitude on that decimal grid.
-/

namespace IndexedRecords

/-- A decimal `digits · 10 ^ exponent`. -/
structure Scientific where
  digits : Nat
  exponent : Int
  deriving DecidableEq, Repr

namespace Binary64

/-- A power of ten as numerator and denominator. -/
def powerOfTen : Int → Nat × Nat
  | .ofNat e => (Nat.pow 10 e, 1)
  | .negSucc e => (1, Nat.pow 10 (e + 1))

/-- The exponent of the first decimal digit of a positive magnitude: an estimate from the binary
logarithm, which is at most one too small or too large, and its correction. -/
def leadingExponent (units : Nat) : Int :=
  let bits : Int := (Nat.log2 units : Int) - 1074
  let guess := Int.fdiv (bits * 30103) 100000
  let atMost (e : Int) : Bool :=
    let (num, den) := powerOfTen e
    num * one ≤ units * den
  if atMost (guess + 1) then guess + 1 else if atMost guess then guess else guess - 1

/-- The ends of the interval that rounds to a positive magnitude, in quarters of a unit. Below a
power of two the neighbours stand half as far apart. -/
def roundingInterval (units : Nat) : Nat × Nat :=
  let step := spacing units
  let below := if 1 < step ∧ units = Nat.pow 2 (Nat.log2 units) then step else 2 * step
  (4 * units - below, 4 * units + 2 * step)

/-- Whether `digits · 10 ^ exponent` rounds to a positive magnitude. The ends of the interval do so
when the significand is even. -/
def roundsTo (units digits : Nat) (exponent : Int) : Bool :=
  let (num, den) := powerOfTen exponent
  let (low, high) := roundingInterval units
  let quarters := 4 * one * digits * num
  if units / spacing units % 2 = 0 then low * den ≤ quarters && quarters ≤ high * den
  else low * den < quarters && quarters < high * den

/-- The decimal on the grid of `10 ^ exponent` that rounds to the magnitude and is nearest to it. -/
def onGrid? (tie : Tie) (units : Nat) (exponent : Int) : Option Nat :=
  let (num, den) := powerOfTen exponent
  let below := units * den / (one * num)
  match roundsTo units below exponent, roundsTo units (below + 1) exponent with
  | true, true => some (tie.round (units * den) (one * num))
  | true, false => some below
  | false, true => some (below + 1)
  | false, false => none

/-- Tries growing numbers of digits. Only the digit one can come with a trailing zero, where the
first grid rounds up to ten. -/
def firstGrid (tie : Tie) (units : Nat) (leading : Int) : (tries digits : Nat) → Scientific
  | 0, digits => ⟨0, leading - digits⟩
  | tries + 1, digits =>
    let exponent := leading - digits
    match onGrid? tie units exponent with
    | some n => if n % 10 = 0 then ⟨n / 10, exponent + 1⟩ else ⟨n, exponent⟩
    | none => firstGrid tie units leading tries (digits + 1)

/-- The shortest decimal that rounds to a positive magnitude. -/
def shortest (tie : Tie) (units : Nat) : Scientific :=
  firstGrid tie units (leadingExponent units) 18 0

end Binary64

end IndexedRecords
