import IndexedRecords.Text.Utf8
import Mathlib.Data.List.Basic

/-!
# Encoded texts

Bytes that encode a text are decoded as this text. One character is the first sequence of its bytes,
whatever follows: the first byte tells their number, and the bounds on the second byte leave out no
character.

## Main statements

* `step_encodeChar`: the bytes of one character, with any bytes after them.
* `decode?_encode`, `decodeLossy_encode`: the bytes of a text.
-/

namespace IndexedRecords.Utf8

variable {c : Char} {rest : List UInt8} {n : Nat}

/-! ### One character -/

theorem toNat_byte (h : n < 256) : (UInt8.ofNat n).toNat = n := UInt8.toNat_ofNat_of_lt h

/-- No character is a surrogate. -/
theorem toNat_bounds (c : Char) : c.toNat < 0xD800 ∨ 0xDFFF < c.toNat ∧ c.toNat < 0x110000 :=
  c.valid

/-- A continuation byte within its bounds adds six bits. -/
theorem continuation_succ {missing lo hi value taken : Nat} (hn : n < 64) (hlo : lo ≤ 0x80 + n)
    (hhi : 0x80 + n ≤ hi) (rest : List UInt8) :
    continuation (missing + 1) lo hi value taken (UInt8.ofNat (0x80 + n) :: rest) =
      continuation missing 0x80 0xBF (value * 64 + n) (taken + 1) rest := by
  have hbyte : (UInt8.ofNat (0x80 + n)).toNat = 0x80 + n := toNat_byte (by omega)
  have hbits : (0x80 + n) % 64 = n := by omega
  rw [continuation, hbyte, if_pos ⟨hlo, hhi⟩, hbits]

theorem continuation_zero (hvalue : n = c.toNat) (lo hi taken : Nat) (rest : List UInt8) :
    continuation 0 lo hi n taken rest = .char c taken := by
  rw [continuation, hvalue, Char.ofNat_toNat]

/-- A character of one byte. -/
theorem step_one (h : c.toNat < 0x80) (rest : List UInt8) :
    step (UInt8.ofNat c.toNat) rest = .char c 1 := by
  have hbyte : (UInt8.ofNat c.toNat).toNat = c.toNat := toNat_byte (by omega)
  rw [step, hbyte, if_pos h, Char.ofNat_toNat]

/-- A character of two bytes. -/
theorem step_two (hlo : 0x80 ≤ c.toNat) (hhi : c.toNat < 0x800) (rest : List UInt8) :
    step (UInt8.ofNat (0xC0 + c.toNat / 64)) (UInt8.ofNat (0x80 + c.toNat % 64) :: rest) =
      .char c 2 := by
  have hbyte : (UInt8.ofNat (0xC0 + c.toNat / 64)).toNat = 0xC0 + c.toNat / 64 :=
    toNat_byte (by omega)
  simp only [step, hbyte]
  rw [if_neg (by omega), if_neg (by omega), if_pos (by omega),
    continuation_succ (by omega) (by omega) (by omega)]
  exact continuation_zero (by omega) _ _ _ _

/-- A character of three bytes. -/
theorem step_three (hlo : 0x800 ≤ c.toNat) (hhi : c.toNat < 0x10000) (rest : List UInt8) :
    step (UInt8.ofNat (0xE0 + c.toNat / 4096)) (UInt8.ofNat (0x80 + c.toNat / 64 % 64) ::
      UInt8.ofNat (0x80 + c.toNat % 64) :: rest) = .char c 3 := by
  have hvalid := toNat_bounds c
  have hbyte : (UInt8.ofNat (0xE0 + c.toNat / 4096)).toNat = 0xE0 + c.toNat / 4096 :=
    toNat_byte (by omega)
  simp only [step, hbyte]
  rw [if_neg (by omega), if_neg (by omega), if_neg (by omega), if_pos (by omega),
    continuation_succ (by omega) (by split <;> omega) (by split <;> omega),
    continuation_succ (by omega) (by omega) (by omega)]
  exact continuation_zero (by omega) _ _ _ _

/-- A character of four bytes. -/
theorem step_four (hlo : 0x10000 ≤ c.toNat) (rest : List UInt8) :
    step (UInt8.ofNat (0xF0 + c.toNat / 262144)) (UInt8.ofNat (0x80 + c.toNat / 4096 % 64) ::
      UInt8.ofNat (0x80 + c.toNat / 64 % 64) :: UInt8.ofNat (0x80 + c.toNat % 64) :: rest) =
        .char c 4 := by
  have hvalid := toNat_bounds c
  have hbyte : (UInt8.ofNat (0xF0 + c.toNat / 262144)).toNat = 0xF0 + c.toNat / 262144 :=
    toNat_byte (by omega)
  simp only [step, hbyte]
  rw [if_neg (by omega), if_neg (by omega), if_neg (by omega), if_neg (by omega),
    if_pos (by omega), continuation_succ (by omega) (by split <;> omega) (by split <;> omega),
    continuation_succ (by omega) (by omega) (by omega),
    continuation_succ (by omega) (by omega) (by omega)]
  exact continuation_zero (by omega) _ _ _ _

/-- The first byte of a character tells the number of its bytes. -/
theorem step_encodeChar (c : Char) : ∃ b more, encodeChar c = b :: more ∧
    ∀ rest, step b (more ++ rest) = .char c (more.length + 1) := by
  unfold encodeChar
  dsimp only
  by_cases hone : c.toNat < 0x80
  · rw [if_pos hone]
    exact ⟨_, _, rfl, step_one hone⟩
  by_cases htwo : c.toNat < 0x800
  · rw [if_neg hone, if_pos htwo]
    exact ⟨_, _, rfl, step_two (Nat.not_lt.mp hone) htwo⟩
  by_cases hthree : c.toNat < 0x10000
  · rw [if_neg hone, if_neg htwo, if_pos hthree]
    exact ⟨_, _, rfl, step_three (Nat.not_lt.mp htwo) hthree⟩
  · rw [if_neg hone, if_neg htwo, if_neg hthree]
    exact ⟨_, _, rfl, step_four (Nat.not_lt.mp hthree)⟩

/-! ### Texts -/

/-- Bytes that are to be skipped are skipped. -/
theorem decodeFrom_append (position : Nat) (bytes rest : List UInt8) :
    decodeFrom position bytes.length (bytes ++ rest) =
      decodeFrom (position + bytes.length) 0 rest := by
  induction bytes generalizing position with
  | nil => rfl
  | cons b bytes ih =>
    rw [List.length_cons, List.cons_append, decodeFrom, ih]
    congr 1
    omega

/-- A character is decoded from its bytes. -/
theorem decodeFrom_encodeChar (position : Nat) (c : Char) (rest : List UInt8) :
    decodeFrom position 0 (encodeChar c ++ rest) =
      (decodeFrom (position + (encodeChar c).length) 0 rest).map (c :: ·) := by
  obtain ⟨b, more, hbytes, hstep⟩ := step_encodeChar c
  rw [hbytes, List.cons_append, decodeFrom, hstep]
  dsimp only
  rw [Nat.add_sub_cancel, decodeFrom_append, List.length_cons]
  congr 2
  omega

theorem decodeFrom_encode (position : Nat) (cs : List Char) :
    decodeFrom position 0 (encode cs) = .ok cs := by
  induction cs generalizing position with
  | nil => rfl
  | cons c cs ih =>
    rw [encode, List.flatMap_cons, decodeFrom_encodeChar, ← encode, ih]
    rfl

/-- **Decoding.** The bytes of a text are decoded as the text. -/
theorem decode?_encode (cs : List Char) : decode? (encode cs) = .ok cs := decodeFrom_encode 0 cs

theorem decodeLossyFrom_append (bytes rest : List UInt8) :
    decodeLossyFrom bytes.length (bytes ++ rest) = decodeLossyFrom 0 rest := by
  induction bytes with
  | nil => rfl
  | cons b bytes ih => rw [List.length_cons, List.cons_append, decodeLossyFrom, ih]

/-- The bytes of a text have no faults that would be replaced. -/
theorem decodeLossy_encode (cs : List Char) : decodeLossy (encode cs) = cs := by
  induction cs with
  | nil => rfl
  | cons c cs ih =>
    obtain ⟨b, more, hbytes, hstep⟩ := step_encodeChar c
    rw [decodeLossy] at ih
    rw [decodeLossy, encode, List.flatMap_cons, hbytes, List.cons_append, decodeLossyFrom, hstep]
    dsimp only
    rw [Nat.add_sub_cancel, decodeLossyFrom_append, ← encode, ih]

end IndexedRecords.Utf8
