/-!
# Closeness

How closely a value matches what it is read as. Where a value can be read in several ways, the
closest one counts, so readings keep the loosest match among their parts.
-/

namespace IndexedRecords

/-- How closely a value matches what it is read as. -/
inductive Closeness where
  /-- it is converted -/
  | converted
  /-- it is of a kind that counts as the one asked for -/
  | accepted
  /-- it is of the kind asked for -/
  | exact
  deriving DecidableEq, Repr

namespace Closeness

/-- Closer matches have greater ranks. -/
def rank : Closeness → Nat
  | .converted => 0
  | .accepted => 1
  | .exact => 2

/-- The looser one of two matches. -/
def loosest (a b : Closeness) : Closeness := if a.rank ≤ b.rank then a else b

end Closeness

end IndexedRecords
