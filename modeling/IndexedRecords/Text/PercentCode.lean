import IndexedRecords.Text.Quoted
import IndexedRecords.Text.Utf8

/-!
# Percent coding

A percent sign with two hexadecimal digits stands for a byte. Decoding reads the bytes of each run
of ASCII characters as UTF-8; characters outside of ASCII stand for themselves.
-/

namespace IndexedRecords.Text

/-- The byte of a percent sign with two digits after it. -/
def escapedByte? : List Char → Option UInt8
  | '%' :: a :: b :: _ =>
    match hexDigit? a, hexDigit? b with
    | some x, some y => some (UInt8.ofNat (16 * x + y))
    | _, _ => none
  | _ => none

/-- The bytes of what follows the characters to be skipped in a run of ASCII characters. -/
def percentBytesFrom : (skip : Nat) → List Char → List UInt8
  | _, [] => []
  | skip + 1, _ :: rest => percentBytesFrom skip rest
  | 0, c :: rest =>
    match escapedByte? (c :: rest) with
    | some b => b :: percentBytesFrom 2 rest
    | none => UInt8.ofNat c.toNat :: percentBytesFrom 0 rest

/-- The bytes of a run of ASCII characters. A percent sign without two digits stands for itself. -/
def percentBytes (run : List Char) : List UInt8 := percentBytesFrom 0 run

/-- The text of a run of ASCII characters. Faulty bytes become replacement characters. -/
def decodeRun (run : List Char) : List Char := Utf8.decodeLossy (percentBytes run)

/-- Decodes a text; the first argument holds the ASCII characters read last, in reverse. -/
def percentDecodeFrom : (run : List Char) → List Char → List Char
  | run, [] => decodeRun run.reverse
  | run, c :: rest =>
    if c.toNat < 128 then percentDecodeFrom (c :: run) rest
    else decodeRun run.reverse ++ c :: percentDecodeFrom [] rest

/-- Decodes a text. -/
def percentDecode (cs : List Char) : List Char := percentDecodeFrom [] cs

end IndexedRecords.Text
