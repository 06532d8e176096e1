import IndexedRecords.Text.Utf8

/-!
# Faults of values

Why a value cannot be converted or shown. Each cause has its own constructor, and `message` gives
the wording.
-/

namespace IndexedRecords

/-- Why a value does not yield a number, a text, a point, a decimal or its items. -/
inductive ValueFault where
  /-- a text that is no whole number; it is shown in quotes -/
  | malformedInt (shown : String)
  /-- a whole number of too many digits; their number is given where it was read from text -/
  | tooManyDigits (digits : Option Nat)
  /-- no number, or an infinity, where a whole number is wanted -/
  | nanToInt
  | infinityToInt
  | decimalNanToInt
  | decimalInfinityToInt
  /-- a value of a kind that no whole number comes from -/
  | notAnInt (kind : String)
  /-- a text that is no floating number; it is shown in quotes -/
  | malformedFloat (shown : String)
  | signallingNan
  | tooLargeForFloat
  /-- a value of a kind that no floating number comes from -/
  | notAFloat (kind : String)
  | notIterable (kind : String)
  /-- a value that asks for names where it is asked for its items, which are numbered -/
  | nameless
  /-- a value whose items never end: collecting them gives no answer, but fills the memory -/
  | endless
  /-- a value that does not hold exactly two items -/
  | notUnpackable (kind : String)
  | tooFewItems (expected count : Nat)
  | tooManyItems (expected : Nat)
  /-- bytes that encode no text -/
  | undecodable (fault : Utf8.Fault)
  /-- a text that is no point -/
  | malformedPoint (shown : String)
  /-- a value of a kind that no point comes from -/
  | unreadablePoint (shown : String)
  /-- a part of a decimal that is no sign, no exponent, no name in the place of one, or no digits -/
  | malformedSign
  | malformedExponent
  | malformedSpecial
  | malformedDigits
  /-- a part of a decimal that does not fit into a word of the machine -/
  | tooLargeForWord (word : String)
  deriving DecidableEq, Repr

namespace ValueFault

/-- The wording of what is wrong with bytes. -/
def reasonText : Utf8.Reason → String
  | .invalidStart => "invalid start byte"
  | .invalidContinuation => "invalid continuation byte"
  | .unexpectedEnd => "unexpected end of data"

/-- The wording of bytes that encode no text: a sequence of one byte is shown, a longer one is
given by its positions. -/
def undecodableText (f : Utf8.Fault) : String :=
  let place :=
    if f.stop = f.start + 1 then
      let byte := String.ofList (Nat.toDigits 16 (f.byte.toNat / 16) ++
        Nat.toDigits 16 (f.byte.toNat % 16))
      s!"byte 0x{byte} in position {f.start}"
    else
      let last := f.stop - 1
      s!"bytes in position {f.start}-{last}"
  let reason := reasonText f.reason
  s!"'utf-8' codec can't decode {place}: {reason}"

/-- The wording of a fault. -/
def message : ValueFault → String
  | .malformedInt shown => s!"invalid literal for int() with base 10: {shown}"
  | .tooManyDigits none =>
    "Exceeds the limit (4300 digits) for integer string conversion; " ++
      "use sys.set_int_max_str_digits() to increase the limit"
  | .tooManyDigits (some digits) =>
    "Exceeds the limit (4300 digits) for integer string conversion: " ++
      s!"value has {digits} digits; use sys.set_int_max_str_digits() to increase the limit"
  | .nanToInt => "cannot convert float NaN to integer"
  | .infinityToInt => "cannot convert float infinity to integer"
  | .decimalNanToInt => "cannot convert NaN to integer"
  | .decimalInfinityToInt => "cannot convert Infinity to integer"
  | .notAnInt kind =>
    s!"int() argument must be a string, a bytes-like object or a real number, not '{kind}'"
  | .malformedFloat shown => s!"could not convert string to float: {shown}"
  | .signallingNan => "cannot convert signaling NaN to float"
  | .tooLargeForFloat => "int too large to convert to float"
  | .notAFloat kind => s!"float() argument must be a string or a real number, not '{kind}'"
  | .notIterable kind => s!"'{kind}' object is not iterable"
  | .nameless => "'int' object has no attribute 'split'"
  | .endless => ""
  | .notUnpackable kind => s!"cannot unpack non-iterable {kind} object"
  | .tooFewItems expected count =>
    s!"not enough values to unpack (expected {expected}, got {count})"
  | .tooManyItems expected => s!"too many values to unpack (expected {expected})"
  | .undecodable fault => undecodableText fault
  | .malformedPoint shown => s!"Expected 'longitude,latitude', got {shown}"
  | .unreadablePoint shown => s!"Cannot read coordinates from {shown}"
  | .malformedSign => "sign must be an integer with the value 0 or 1"
  | .malformedExponent => "exponent must be an integer"
  | .malformedSpecial => "string argument in the third position must be 'F', 'n' or 'N'"
  | .malformedDigits => "coefficient must be a tuple of digits"
  | .tooLargeForWord word => s!"Python int too large to convert to C {word}"

end ValueFault

end IndexedRecords
