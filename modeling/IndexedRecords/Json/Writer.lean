import IndexedRecords.Json
import IndexedRecords.Number.Layout
import IndexedRecords.Number.Whole
import IndexedRecords.Text.Quoted

/-!
# Writing documents

Documents are written without blanks. A text escapes the quote, the backslash and the control
characters below the space; every other character stands as itself.
-/

namespace IndexedRecords.Json

/-- A character inside a quoted text. -/
def escapedChar (c : Char) : List Char :=
  if c = '"' ∨ c = '\\' then ['\\', c]
  else if c = '\x08' then ['\\', 'b']
  else if c = '\x0c' then ['\\', 'f']
  else if c = '\n' then ['\\', 'n']
  else if c = '\r' then ['\\', 'r']
  else if c = '\t' then ['\\', 't']
  else if c.toNat < 32 then '\\' :: 'u' :: Text.hexDigits 4 c.toNat
  else [c]

/-- A quoted text. -/
def quotedText (s : String) : List Char :=
  '"' :: s.toList.flatMap escapedChar ++ ['"']

/-- A floating number; what is not finite is written as null. -/
def floatText : Binary64 → List Char
  | .finite negative units => NumberLayout.document.finite negative units
  | _ => "null".toList

mutual

/-- The text of a document. -/
def write : Json → List Char
  | .null => "null".toList
  | .bool true => "true".toList
  | .bool false => "false".toList
  | .int n => wholeText n
  | .float x => floatText x
  | .text s => quotedText s
  | .array items => '[' :: writeItems items
  | .object members => '\x7b' :: writeMembers members

/-- The items of an array, up to the closing bracket. -/
def writeItems : List Json → List Char
  | [] => [']']
  | item :: rest =>
    match rest with
    | [] => write item ++ [']']
    | _ => write item ++ ',' :: writeItems rest

/-- The members of an object, up to the closing brace. -/
def writeMembers : List (String × Json) → List Char
  | [] => ['\x7d']
  | (name, value) :: rest =>
    match rest with
    | [] => quotedText name ++ ':' :: write value ++ ['\x7d']
    | _ => quotedText name ++ ':' :: write value ++ ',' :: writeMembers rest

end

end IndexedRecords.Json
