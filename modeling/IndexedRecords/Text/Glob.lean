/-!
# Glob patterns

A pattern of file name style: `*` stands for any text, `?` for any character, and brackets for one
character out of a set, which a leading `!` complements. Main statement: a pattern whose characters
are all plain, followed by `*`, matches exactly the texts that start with it
(`matchesAll_literals_star`).
-/

namespace IndexedRecords.Glob

/-- One step of a pattern. -/
inductive Atom where
  /-- exactly this character -/
  | literal (c : Char)
  /-- any one character -/
  | anyChar
  /-- any text -/
  | anyText
  /-- one character inside the ranges, or outside of them -/
  | oneOf (negated : Bool) (ranges : List (Char × Char))
  deriving DecidableEq, Repr

/-- Whether a step for one character accepts it. -/
def Atom.accepts : Atom → Char → Bool
  | .literal a, c => a == c
  | .anyChar, _ => true
  | .anyText, _ => false
  | .oneOf negated ranges, c => (ranges.any fun r => r.1 ≤ c && c ≤ r.2) != negated

/-- Whether some end of the text satisfies a condition. -/
def anyEnd (p : List Char → Bool) : List Char → Bool
  | [] => p []
  | c :: rest => p (c :: rest) || anyEnd p rest

/-- Whether a pattern matches a whole text. -/
def matchesAll : List Atom → List Char → Bool
  | [], cs => cs.isEmpty
  | .anyText :: atoms, cs => anyEnd (matchesAll atoms) cs
  | _ :: _, [] => false
  | atom :: atoms, c :: rest => atom.accepts c && matchesAll atoms rest

theorem anyEnd_isEmpty (cs : List Char) : anyEnd List.isEmpty cs = true := by
  induction cs with
  | nil => rfl
  | cons c rest ih => simp [anyEnd, ih]

/-- A pattern of plain characters and a star matches the texts that start with these characters. -/
theorem matchesAll_literals_star (lead cs : List Char) :
    matchesAll (lead.map .literal ++ [.anyText]) cs = lead.isPrefixOf cs := by
  induction lead generalizing cs with
  | nil => simp [matchesAll, anyEnd_isEmpty]
  | cons a lead ih =>
    cases cs with
    | nil => simp [matchesAll]
    | cons c rest => simp [matchesAll, Atom.accepts, ih, List.isPrefixOf]

/-! ### Reading brackets -/

/-- The inside of a bracket up to its end, and the pattern after it. A closing bracket that comes
first, or right after the complement sign, belongs to the inside. -/
def bracket? (pattern : List Char) : Option (List Char × List Char) :=
  let (sign, pattern) :=
    match pattern with
    | '!' :: rest => (['!'], rest)
    | _ => ([], pattern)
  let (first, pattern) :=
    match pattern with
    | ']' :: rest => ([']'], rest)
    | _ => ([], pattern)
  match pattern.dropWhile (· != ']') with
  | [] => none
  | _ :: rest => some (sign ++ first ++ pattern.takeWhile (· != ']'), rest)

/-- Cuts the inside of a bracket at the hyphens that make ranges. A hyphen makes a range only after
`keep` further characters, so that no character ends one range and starts the next. -/
def chunks : (keep : Nat) → (chunk : List Char) → List Char → List (List Char)
  | _, chunk, [] => [chunk.reverse]
  | keep + 1, chunk, c :: rest => chunks keep (c :: chunk) rest
  | 0, chunk, c :: rest =>
    if c = '-' then chunk.reverse :: chunks 2 [] rest else chunks 0 (c :: chunk) rest

/-- A hyphen at the end makes no range. -/
def closeChunks : List (List Char) → List (List Char)
  | [] => []
  | [chunk, []] => [chunk ++ ['-']]
  | chunk :: rest => chunk :: closeChunks rest

/-- Drops the ranges that run backwards, from the last to the first. -/
def dropEmptyRanges : List (List Char) → List (List Char)
  | [] => []
  | chunk :: rest =>
    match dropEmptyRanges rest with
    | [] => [chunk]
    | next :: later =>
      match chunk.getLast?, next with
      | some lo, hi :: after =>
        if hi < lo then (chunk.dropLast ++ after) :: later else chunk :: next :: later
      | _, _ => chunk :: next :: later

/-- The ranges of a cut bracket, whose first chunk is given apart: between two neighbours stands a
range, every other character is a range of its own. -/
def chunkRanges : List Char → List (List Char) → List (Char × Char)
  | chunk, [] => chunk.map fun c => (c, c)
  | chunk, next :: later =>
    match chunk.getLast?, next with
    | some lo, hi :: after =>
      (chunk.dropLast.map fun c => (c, c)) ++ (lo, hi) :: chunkRanges after later
    | _, _ => (chunk.map fun c => (c, c)) ++ chunkRanges next later

/-- The step that the inside of a bracket stands for. -/
def bracketAtom (inside : List Char) : Atom :=
  let cut :=
    if inside.contains '-' then
      dropEmptyRanges (closeChunks (chunks (if inside.head? = some '!' then 2 else 1) [] inside))
    else [inside]
  match cut with
  | ('!' :: first) :: rest => .oneOf true (chunkRanges first rest)
  | first :: rest => .oneOf false (chunkRanges first rest)
  | [] => .oneOf false []

/-- Reads a pattern; the bound is at least its length. -/
def parseWithin : Nat → List Char → List Atom
  | 0, _ => []
  | _, [] => []
  | bound + 1, c :: rest =>
    if c = '*' then .anyText :: parseWithin bound rest
    else if c = '?' then .anyChar :: parseWithin bound rest
    else if c = '[' then
      match bracket? rest with
      | some (inside, after) => bracketAtom inside :: parseWithin bound after
      | none => .literal c :: parseWithin bound rest
    else .literal c :: parseWithin bound rest

/-- Reads a pattern. -/
def parse (pattern : List Char) : List Atom := parseWithin pattern.length pattern

end IndexedRecords.Glob
