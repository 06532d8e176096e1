import IndexedRecords.Connection.Url

/-!
# Parts of a URL

A URL is cut into its parts before any of them is looked at. What a URL is read as depends on its
parts alone, but for the way in which faults show it.

## Main statements

* `split_eq`: a URL is cut into its parts unless its authority is faulty.
* `ofUrl_eq`: what the parts of a URL are read as, one condition after the other.
-/

namespace IndexedRecords

namespace Url

/-- A URL without what is left out before it is cut: blanks at its ends, tabs, and ends of lines. -/
def cleaned (url : String) : List Char :=
  (Text.trim url.toList).filter fun c => c ≠ '\t' ∧ c ≠ '\r' ∧ c ≠ '\n'

/-- The parts of a URL, whatever stands in them. -/
def partsOf (url : String) : UrlParts :=
  let (scheme, rest) := cutScheme (cleaned url)
  let (authority, rest) := cutAuthority rest
  ⟨scheme, authority, (rest.takeWhile (· ≠ '#')).takeWhile (· ≠ '?')⟩

/-- Only one of the two brackets stands in an authority. -/
def IsUnbalanced (authority : List Char) : Prop := authority.contains '[' ≠ authority.contains ']'

instance (authority : List Char) : Decidable (IsUnbalanced authority) :=
  inferInstanceAs (Decidable (_ ≠ _))

/-- An authority without brackets has balanced ones. -/
theorem not_isUnbalanced {authority : List Char} (hopen : '[' ∉ authority)
    (hclose : ']' ∉ authority) : ¬ IsUnbalanced authority := by
  rw [IsUnbalanced, Bool.eq_false_iff.mpr (mt List.contains_iff_mem.mp hopen),
    Bool.eq_false_iff.mpr (mt List.contains_iff_mem.mp hclose)]
  exact fun hne => hne rfl

/-- A URL is cut into parts unless its authority is refused, first for its brackets and then for
characters that normalise to delimiters. -/
theorem split_eq (url : String) : split (Text.trim url.toList) =
    if IsUnbalanced (partsOf url).authority then .error .unbalancedBrackets
    else if isMisleading (partsOf url).authority then
      .error (.misleadingHost (String.ofList (partsOf url).authority))
    else .ok (partsOf url) := by
  rw [split]
  rfl

/-- The text of a path between the slashes at its ends. -/
def segmentOf (path : List Char) : List Char := Text.trimBy (· = '/') path

/-- The database of a path is the number of its segment: none where the segment is empty, and a
fault where it consists of digits that are no number or of other characters. -/
theorem databaseOfPath_eq (shownUrl : String) (path : List Char) : databaseOfPath shownUrl path =
    if segmentOf path = [] then .ok none
    else if (segmentOf path).all Text.isDigit then
      match Value.intOfText (Text.quoted (segmentOf path)) (segmentOf path) with
      | .ok n => .ok (some n.toNat)
      | .error fault => .error (.unreadableDatabase fault)
    else .error (.invalidDatabase shownUrl) := by
  rw [databaseOfPath, ← segmentOf]
  cases segmentOf path with
  | nil => rfl
  | cons c cs => rfl

end Url

namespace UrlParts

variable (parts : UrlParts)

/-- User and password of the parts of a URL, as they are written, and host and port after them. -/
def user : Option (List Char) := (Url.userInfo parts.authority).1

def password : Option (List Char) := (Url.userInfo parts.authority).2.1

def host : List Char := (Url.hostInfo (Url.userInfo parts.authority).2.2).1

def port : List Char := (Url.hostInfo (Url.userInfo parts.authority).2.2).2

end UrlParts

open Url

/-- **Reading a URL.** All steps of the reader in a row, on the parts that the URL is cut into: the
refusals in their order, and the connection that is read if there is none. What follows about URLs
starts from this equation and not from the reader. -/
theorem Connection.ofUrl_eq (url : String) : Connection.ofUrl url =
    let parts := partsOf url
    let shownUrl := Value.quotedText url
    if IsUnbalanced parts.authority then .error .unbalancedBrackets
    else if isMisleading parts.authority then
      .error (.misleadingHost (String.ofList parts.authority))
    else if String.ofList parts.scheme = "" then .error (.missingScheme shownUrl)
    else if String.ofList parts.scheme ≠ "redis" ∧ String.ofList parts.scheme ≠ "rediss" then
      .error (.unknownScheme (Value.quotedText (String.ofList parts.scheme)))
    else if parts.host = [] then .error (.missingHost shownUrl)
    else
      match portNumber? parts.port with
      | none => .error (.invalidPort shownUrl)
      | some port => (databaseOfPath shownUrl parts.path).map fun database =>
        ⟨String.ofList (normalHost parts.host), port, decodePart parts.user,
          decodePart parts.password, database, String.ofList parts.scheme = "rediss"⟩ := by
  rw [Connection.ofUrl, split_eq]
  generalize partsOf url = parts
  dsimp only
  split
  · rfl
  · split <;> rfl

end IndexedRecords
