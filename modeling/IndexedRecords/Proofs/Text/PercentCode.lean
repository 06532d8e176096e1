import IndexedRecords.Proofs.Number.Numeral
import IndexedRecords.Proofs.Text.Utf8
import IndexedRecords.Text.PercentCode

/-!
# Percent coding read back

A text is percent coded character by character: ASCII letters and digits stand for themselves, and
each byte of any other character becomes a percent sign with two hexadecimal digits. The code holds
no delimiters, whatever the text is, and is decoded as the text.

## Main statements

* `isCoded_of_mem_percentEncode`: what a code is made of.
* `percentDecode_percentEncode`: a code is decoded as its text.
-/

namespace IndexedRecords.Text

/-! ### Coding -/

/-- The upper-case hexadecimal digit of a number below sixteen. -/
def upperHexDigit (n : Nat) : Char :=
  if n < 10 then Char.ofNat ('0'.toNat + n) else Char.ofNat ('A'.toNat + (n - 10))

/-- A byte as a percent sign with two digits. -/
def percentByte (b : UInt8) : List Char :=
  ['%', upperHexDigit (b.toNat / 16), upperHexDigit (b.toNat % 16)]

/-- A character as itself, if it is an ASCII letter or digit, or by its bytes. -/
def percentChar (c : Char) : List Char :=
  if c.isAlphanum then [c] else (Utf8.encodeChar c).flatMap percentByte

/-- The code of a text. -/
def percentEncode (cs : List Char) : List Char := cs.flatMap percentChar

/-! ### What codes are made of -/

/-- A character that codes are made of. -/
def IsCoded (c : Char) : Prop := c.isAlphanum = true ∨ c = '%'

instance : DecidablePred IsCoded := fun _ => inferInstanceAs (Decidable (_ ∨ _))

theorem isAlphanum_upperHexDigit {n : Nat} (h : n < 16) : (upperHexDigit n).isAlphanum = true := by
  have hall : ∀ n < 16, (upperHexDigit n).isAlphanum = true := by decide
  exact hall n h

theorem toNat_of_isUpper {c : Char} (h : c.isUpper = true) : 65 ≤ c.toNat ∧ c.toNat ≤ 90 := by
  obtain ⟨hfirst, hlast⟩ : 'A'.val ≤ c.val ∧ c.val ≤ 'Z'.val := of_decide_eq_true h
  exact ⟨UInt32.le_iff_toNat_le.mp hfirst, UInt32.le_iff_toNat_le.mp hlast⟩

theorem toNat_of_isLower {c : Char} (h : c.isLower = true) : 97 ≤ c.toNat ∧ c.toNat ≤ 122 := by
  obtain ⟨hfirst, hlast⟩ := Bool.and_eq_true_iff.mp h
  exact ⟨UInt32.le_iff_toNat_le.mp (of_decide_eq_true hfirst),
    UInt32.le_iff_toNat_le.mp (of_decide_eq_true hlast)⟩

theorem toNat_lt_of_isAlphanum {c : Char} (h : c.isAlphanum = true) :
    47 < c.toNat ∧ c.toNat < 128 := by
  obtain hletter | hdigit := Bool.or_eq_true_iff.mp h
  · obtain hupper | hlower := Bool.or_eq_true_iff.mp hletter
    · have hrange := toNat_of_isUpper hupper
      omega
    · have hrange := toNat_of_isLower hlower
      omega
  · have hrange := Numeral.toNat_of_isDigit hdigit
    omega

theorem isCoded_of_mem_percentByte {b : UInt8} {c : Char} (h : c ∈ percentByte b) : IsCoded c := by
  have hb : b.toNat < 256 := b.toNat_lt
  simp only [percentByte, List.mem_cons, List.not_mem_nil, or_false] at h
  obtain rfl | rfl | rfl := h
  · exact .inr rfl
  · exact .inl (isAlphanum_upperHexDigit (by omega))
  · exact .inl (isAlphanum_upperHexDigit (by omega))

/-- **Codes.** A code has no other characters than ASCII letters, digits and percent signs. -/
theorem isCoded_of_mem_percentEncode {cs : List Char} {c : Char} (h : c ∈ percentEncode cs) :
    IsCoded c := by
  obtain ⟨d, -, hd⟩ := List.mem_flatMap.mp h
  rw [percentChar] at hd
  split at hd
  · next halnum =>
    rw [List.mem_singleton.mp hd]
    exact .inl halnum
  · obtain ⟨b, -, hb⟩ := List.mem_flatMap.mp hd
    exact isCoded_of_mem_percentByte hb

theorem percentChar_ne_nil (c : Char) : percentChar c ≠ [] := by
  obtain ⟨b, more, hbytes, -⟩ := Utf8.step_encodeChar c
  rw [percentChar]
  split
  · exact List.cons_ne_nil _ _
  · rw [hbytes]
    exact List.cons_ne_nil _ _

/-! ### Decoding -/

/-- Two digits after a percent sign are read as their byte. -/
theorem percentBytesFrom_percentByte (b : UInt8) (rest : List Char) :
    percentBytesFrom 0 (percentByte b ++ rest) = b :: percentBytesFrom 0 rest := by
  have hdigits : ∀ n < 16, hexDigit? (upperHexDigit n) = some n := by decide
  have hb : b.toNat < 256 := b.toNat_lt
  have hbyte : UInt8.ofNat (16 * (b.toNat / 16) + b.toNat % 16) = b := by
    rw [Nat.div_add_mod]
    exact UInt8.ofNat_toNat
  have hescape : escapedByte? (percentByte b ++ rest) = some b := by
    simp only [percentByte, List.cons_append, escapedByte?,
      hdigits _ (show b.toNat / 16 < 16 by omega), hdigits _ (show b.toNat % 16 < 16 by omega),
      hbyte]
  -- the byte is read at the percent sign, and its digits are skipped
  rw [percentByte] at hescape ⊢
  rw [List.cons_append, percentBytesFrom, ← List.cons_append, hescape]
  rfl

theorem percentBytesFrom_flatMap (bytes : List UInt8) (rest : List Char) :
    percentBytesFrom 0 (bytes.flatMap percentByte ++ rest) =
      bytes ++ percentBytesFrom 0 rest := by
  induction bytes with
  | nil => rfl
  | cons b bytes ih =>
    rw [List.flatMap_cons, List.append_assoc, percentBytesFrom_percentByte, ih, List.cons_append]

/-- A character that is no percent sign is read as its byte. -/
theorem percentBytesFrom_cons {c : Char} (h : c ≠ '%') (rest : List Char) :
    percentBytesFrom 0 (c :: rest) = UInt8.ofNat c.toNat :: percentBytesFrom 0 rest := by
  have hescape : escapedByte? (c :: rest) = none := by
    unfold escapedByte?
    split
    · next heq => exact absurd (List.cons.inj heq).1 h
    · rfl
  rw [percentBytesFrom, hescape]

theorem percentBytesFrom_percentChar (c : Char) (rest : List Char) :
    percentBytesFrom 0 (percentChar c ++ rest) =
      Utf8.encodeChar c ++ percentBytesFrom 0 rest := by
  rw [percentChar]
  split
  · next h =>
    have hascii := toNat_lt_of_isAlphanum h
    have hc : c ≠ '%' := by
      rintro rfl
      cases h
    have hbytes : Utf8.encodeChar c = [UInt8.ofNat c.toNat] := if_pos hascii.2
    rw [List.singleton_append, percentBytesFrom_cons hc, hbytes]
    rfl
  · exact percentBytesFrom_flatMap _ _

/-- A code is read as the bytes of its text. -/
theorem percentBytes_percentEncode (cs : List Char) :
    percentBytes (percentEncode cs) = Utf8.encode cs := by
  rw [percentBytes]
  induction cs with
  | nil => rfl
  | cons c cs ih =>
    rw [percentEncode, List.flatMap_cons, percentBytesFrom_percentChar, ← percentEncode, ih,
      Utf8.encode, Utf8.encode, List.flatMap_cons]

/-- A text of ASCII characters is one run. -/
theorem percentDecodeFrom_of_ascii {cs : List Char} (h : ∀ c ∈ cs, c.toNat < 128)
    (run : List Char) : percentDecodeFrom run cs = decodeRun (run.reverse ++ cs) := by
  induction cs generalizing run with
  | nil => rw [percentDecodeFrom, List.append_nil]
  | cons c cs ih =>
    obtain ⟨hc, hcs⟩ := List.forall_mem_cons.mp h
    rw [percentDecodeFrom, if_pos hc, ih hcs, List.reverse_cons, List.append_assoc,
      List.singleton_append]

theorem IsCoded.toNat_lt {c : Char} (h : IsCoded c) : c.toNat < 128 := by
  obtain h | rfl := h
  · exact (toNat_lt_of_isAlphanum h).2
  · decide

/-- **Decoding.** The code of a text is decoded as the text. -/
theorem percentDecode_percentEncode (cs : List Char) : percentDecode (percentEncode cs) = cs := by
  have hascii : ∀ c ∈ percentEncode cs, c.toNat < 128 := fun c hc =>
    (isCoded_of_mem_percentEncode hc).toNat_lt
  rw [percentDecode, percentDecodeFrom_of_ascii hascii, List.reverse_nil, List.nil_append,
    decodeRun, percentBytes_percentEncode, Utf8.decodeLossy_encode]

end IndexedRecords.Text
