/-!
# Whole numbers as text
-/

namespace IndexedRecords

/-- A whole number in decimal digits, after a minus where it is negative. -/
def wholeText (n : Int) : List Char :=
  (if n < 0 then ['-'] else []) ++ Nat.toDigits 10 n.natAbs

end IndexedRecords
