/-!
# UTF-8

Encoding of text as bytes, and decoding with two answers to bytes that are no text: `decode?` names
the first fault and the place where it stands, `decodeLossy` writes a replacement character for
each faulty sequence.
-/

namespace IndexedRecords.Utf8

/-! ### Encoding -/

/-- The bytes of one character. -/
def encodeChar (c : Char) : List UInt8 :=
  let n := c.toNat
  if n < 0x80 then [UInt8.ofNat n]
  else if n < 0x800 then [UInt8.ofNat (0xC0 + n / 64), UInt8.ofNat (0x80 + n % 64)]
  else if n < 0x10000 then
    [UInt8.ofNat (0xE0 + n / 4096), UInt8.ofNat (0x80 + n / 64 % 64), UInt8.ofNat (0x80 + n % 64)]
  else
    [UInt8.ofNat (0xF0 + n / 262144), UInt8.ofNat (0x80 + n / 4096 % 64),
      UInt8.ofNat (0x80 + n / 64 % 64), UInt8.ofNat (0x80 + n % 64)]

/-- The bytes of a text. -/
def encode (cs : List Char) : List UInt8 := cs.flatMap encodeChar

/-! ### One step of decoding -/

/-- What can be wrong with a sequence of bytes. -/
inductive Reason where
  | invalidStart
  | invalidContinuation
  | unexpectedEnd
  deriving DecidableEq, Repr

/-- The first sequence of some bytes: a character or a fault, with the number of its bytes. -/
inductive Step where
  | char (c : Char) (length : Nat)
  | fault (reason : Reason) (length : Nat)
  deriving DecidableEq, Repr

/-- Reads the continuation bytes still missing. The first of them lies between `lo` and `hi`, the
later ones between `0x80` and `0xBF`. -/
def continuation : (missing lo hi value taken : Nat) → List UInt8 → Step
  | 0, _, _, value, taken, _ => .char (Char.ofNat value) taken
  | _ + 1, _, _, _, taken, [] => .fault .unexpectedEnd taken
  | missing + 1, lo, hi, value, taken, b :: rest =>
    if lo ≤ b.toNat ∧ b.toNat ≤ hi then
      continuation missing 0x80 0xBF (value * 64 + b.toNat % 64) (taken + 1) rest
    else .fault .invalidContinuation taken

/-- Reads the sequence that starts with a given byte. The bounds on the second byte exclude
overlong forms, surrogates and what lies beyond the last code point. -/
def step (b : UInt8) (rest : List UInt8) : Step :=
  let n := b.toNat
  if n < 0x80 then .char (Char.ofNat n) 1
  else if n < 0xC2 then .fault .invalidStart 1
  else if n < 0xE0 then continuation 1 0x80 0xBF (n % 32) 1 rest
  else if n < 0xF0 then
    continuation 2 (if n = 0xE0 then 0xA0 else 0x80) (if n = 0xED then 0x9F else 0xBF) (n % 16) 1
      rest
  else if n < 0xF5 then
    continuation 3 (if n = 0xF0 then 0x90 else 0x80) (if n = 0xF4 then 0x8F else 0xBF) (n % 8) 1
      rest
  else .fault .invalidStart 1

/-! ### Decoding -/

/-- The first fault of some bytes: where it starts and stops, its first byte and its reason. -/
structure Fault where
  start : Nat
  stop : Nat
  byte : UInt8
  reason : Reason
  deriving DecidableEq, Repr

/-- Decodes after some skipped bytes; the position counts all bytes before the list. -/
def decodeFrom : (position skip : Nat) → List UInt8 → Except Fault (List Char)
  | _, _, [] => .ok []
  | position, skip + 1, _ :: rest => decodeFrom (position + 1) skip rest
  | position, 0, b :: rest =>
    match step b rest with
    | .char c length => (decodeFrom (position + 1) (length - 1) rest).map (c :: ·)
    | .fault reason length => .error ⟨position, position + length, b, reason⟩

/-- The text that some bytes encode, or the first fault in them. -/
def decode? (bytes : List UInt8) : Except Fault (List Char) := decodeFrom 0 0 bytes

/-- Decodes after some skipped bytes with a replacement character for each fault. -/
def decodeLossyFrom : (skip : Nat) → List UInt8 → List Char
  | _, [] => []
  | skip + 1, _ :: rest => decodeLossyFrom skip rest
  | 0, b :: rest =>
    match step b rest with
    | .char c length => c :: decodeLossyFrom (length - 1) rest
    | .fault _ length => '\uFFFD' :: decodeLossyFrom (length - 1) rest

/-- The text of some bytes, each faulty sequence written as one replacement character. -/
def decodeLossy (bytes : List UInt8) : List Char := decodeLossyFrom 0 bytes

end IndexedRecords.Utf8
