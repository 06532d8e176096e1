import IndexedRecords.Proofs.Record.Faults
import IndexedRecords.Proofs.Value.Shown

/-!
# Single values in parts

An array may stand for a single value in two places: two items are the longitude and the latitude of
a point, three items are the sign, the digits and the exponent of a decimal. Most documents that do
not fit are problems. The items of such an array are taken as they are, however, and an item that
cannot be what its place asks for ends the whole reading with a fault.

Which arrays do so is said here by the form of their items alone (`BreaksPoint`, `BreaksDecimal`),
and the readers are shown to agree.

## Main statements

* `breaksPoint_iff`: which documents end the reading of a point.
* `breaksDecimal_iff`: which documents end the reading of a decimal.
-/

namespace IndexedRecords

namespace Json

/-- The items of a document that is an array. -/
def items : Json → List Json
  | .array items => items
  | _ => []

/-- The members of a document that is an object. -/
def members : Json → List (String × Json)
  | .object members => members
  | _ => []

end Json

namespace Record

open Reading Traversal

variable {α β : Type} {j : Json}

/-! ### Points -/

/-- A document that is no number, nor a text or a truth value, or a whole number that is too
large. -/
inductive HasNoFloat : Json → Prop where
  | null : HasNoFloat .null
  | array (items : List Json) : HasNoFloat (.array items)
  | object (members : List (String × Json)) : HasNoFloat (.object members)
  | large {n : Int} (large : Binary64.ofInt? n = none) : HasNoFloat (.int n)

/-- An array of two items of which one is no number, after a number if it is the second one. -/
inductive BreaksPoint : Json → Prop where
  | first {a b : Json} (broken : HasNoFloat a) : BreaksPoint (.array [a, b])
  | second {a b : Json} {x : Binary64} (read : (valueOfJson a).toFloat = .ok x)
      (broken : HasNoFloat b) : BreaksPoint (.array [a, b])

theorem hasNoFloat_int_iff {n : Int} : HasNoFloat (.int n) ↔ Binary64.ofInt? n = none := by
  constructor
  · intro h
    cases h
    assumption
  · exact .large

/-- A whole number becomes the nearest floating number. The conversion stands for itself here, since
to unfold it is to compute with very large powers. -/
theorem toFloat_of_plain_int {v : Value} {n : Int} {nearest : Int → Option Binary64}
    (hnearest : Binary64.ofInt? = nearest) (h : v.plain = .int n) :
    v.toFloat = (nearest n).elim (.error .tooLargeForFloat) .ok := by
  unfold Value.toFloat
  rw [hnearest, h]
  dsimp only
  cases nearest n <;> rfl

/-- What a document gives as a floating number. -/
theorem toFloat_cases (j : Json) :
    (HasNoFloat j ∧ ∃ fault, IsFloatFault fault ∧ (valueOfJson j).toFloat = .error fault) ∨
      ¬ HasNoFloat j ∧ ((∃ x, (valueOfJson j).toFloat = .ok x) ∨
        ∃ shown, (valueOfJson j).toFloat = .error (.malformedFloat shown)) := by
  cases j with
  | null => exact .inl ⟨.null, _, .kind "NoneType", rfl⟩
  | bool b => exact .inr ⟨nofun, .inl ⟨.finite false (if b then Binary64.one else 0), rfl⟩⟩
  -- a whole number may be too large for a floating one
  | int n =>
    have hfloat : (valueOfJson (.int n)).toFloat = _ := toFloat_of_plain_int rfl rfl
    rw [hasNoFloat_int_iff, hfloat]
    cases Binary64.ofInt? n with
    | none => exact .inl ⟨rfl, _, .large, rfl⟩
    | some x => exact .inr ⟨nofun, .inl ⟨x, rfl⟩⟩
  | float x => exact .inr ⟨nofun, .inl ⟨x, rfl⟩⟩
  | text s =>
    have hfloat : (valueOfJson (.text s)).toFloat =
        Value.floatOfText (Value.quotedText s).toList s.toList := rfl
    rw [hfloat, Value.floatOfText]
    refine .inr ⟨nofun, ?_⟩
    cases Numeral.readFloat s.toList with
    | none => exact .inr ⟨_, rfl⟩
    | some x => exact .inl ⟨x, rfl⟩
  | array items => exact .inl ⟨.array items, _, .kind "list", rfl⟩
  | object members => exact .inl ⟨.object members, _, .kind "dict", rfl⟩

/-- A part of a point ends a reading with a fault exactly where it gives no floating number. -/
theorem hasNoFloat_iff (j : Json) :
    HasNoFloat j ↔ ∃ fault, IsFloatFault fault ∧ (valueOfJson j).toFloat = .error fault := by
  rcases toFloat_cases j with ⟨hnone, hfault⟩ | ⟨hsome, ⟨x, hx⟩ | ⟨shown, hshown⟩⟩
  · exact iff_of_true hnone hfault
  · refine iff_of_false hsome fun ⟨fault, _, hfault⟩ => ?_
    rw [hx] at hfault
    cases hfault
  · refine iff_of_false hsome fun ⟨fault, hpart, hfault⟩ => ?_
    rw [hshown] at hfault
    cases hfault
    cases hpart

/-- A point is a problem or a fault as its parts say: only a part that is no number ends the
reading. -/
theorem readPoint_eq_fault_iff {v : Value} {fault : ValueFault} :
    Scalar.readPoint v = .error (.fault fault) ↔
      IsFloatFault fault ∧ Coordinates.ofValue v = .error fault := by
  unfold Scalar.readPoint
  constructor
  · intro h
    split at h
    · cases h
    · next hfault =>
      cases h
      exact ⟨.kind _, hfault⟩
    · next hfault =>
      cases h
      exact ⟨.large, hfault⟩
    · cases h
  · rintro ⟨⟨kind⟩ | _, hfault⟩ <;> rw [hfault]

/-- A message about a value that describes no point ends with no fault of its parts. -/
theorem not_isFloatFault_of_literal {v : Value} {α : Type} {fault : ValueFault}
    {shown : String → ValueFault} (hshown : ∀ text, ¬ IsFloatFault (shown text))
    (h : (do Except.error (shown (← v.literal)) : Except ValueFault α) = .error fault) :
    ¬ IsFloatFault fault := by
  rcases bind_eq_error_iff.mp h with hlong | ⟨text, -, hfault⟩
  · obtain ⟨-, rfl⟩ := (Value.shownUnless_literal v fault).mp hlong
    exact nofun
  · cases hfault
    exact hshown text

/-- No document other than an array of two items gives a part of a point. -/
theorem not_isFloatFault_of_ofValue {fault : ValueFault} (hitems : j.items.length ≠ 2)
    (h : Coordinates.ofValue (valueOfJson j) = .error fault) : ¬ IsFloatFault fault := by
  have hunreadable : ∀ shown, ¬ IsFloatFault (.unreadablePoint shown) := fun _ => nofun
  have hmalformed : ∀ shown, ¬ IsFloatFault (.malformedPoint shown) := fun _ => nofun
  have hnumber : ∀ {shown cs},
      Value.floatOfText shown cs = .error fault → ¬ IsFloatFault fault := by
    intro shown cs hfloat
    unfold Value.floatOfText at hfloat
    split at hfloat <;> cases hfloat
    exact nofun
  unfold Coordinates.ofValue at h
  cases j with
  | text s =>
    simp only [valueOfJson, Value.plain] at h
    split at h
    · simp only [bind_eq_error_iff] at h
      rcases h with hfirst | ⟨_, -, hsecond | ⟨_, -, ⟨⟩⟩⟩
      · exact hnumber hfirst
      · exact hnumber hsecond
    · exact not_isFloatFault_of_literal hmalformed h
  | array items =>
    -- two items are the point in parts, which is left out here
    rcases items with _ | ⟨a, _ | ⟨b, _ | ⟨c, items⟩⟩⟩
    · exact not_isFloatFault_of_literal hunreadable h
    · exact not_isFloatFault_of_literal hunreadable h
    · exact absurd rfl hitems
    · exact not_isFloatFault_of_literal hunreadable h
  | _ => exact not_isFloatFault_of_literal hunreadable h

/-- **Points in parts.** The reading of a point ends with a fault exactly where the first of two
parts is no number, or where the second one is none and the first one is. -/
theorem breaksPoint_iff (j : Json) : BreaksPoint j ↔
    ∃ fault, IsFloatFault fault ∧ Coordinates.ofValue (valueOfJson j) = .error fault := by
  constructor
  · rintro (hfirst | ⟨hread, hsecond⟩)
    · obtain ⟨fault, hpart, hfault⟩ := (hasNoFloat_iff _).mp hfirst
      exact ⟨fault, hpart, bind_eq_error_iff.mpr (.inl hfault)⟩
    · obtain ⟨fault, hpart, hfault⟩ := (hasNoFloat_iff _).mp hsecond
      refine ⟨fault, hpart, bind_eq_error_iff.mpr (.inr ⟨_, hread, ?_⟩)⟩
      exact bind_eq_error_iff.mpr (.inl hfault)
  · rintro ⟨fault, hpart, hfault⟩
    by_cases hitems : j.items.length = 2
    · obtain ⟨a, b, rfl⟩ : ∃ a b, j = .array [a, b] := by
        cases j with
        | array items =>
          obtain ⟨a, b, rfl⟩ := List.length_eq_two.mp hitems
          exact ⟨a, b, rfl⟩
        | _ => cases hitems
      rcases bind_eq_error_iff.mp hfault with hfirst | ⟨x, hread, hfault⟩
      · exact .first ((hasNoFloat_iff a).mpr ⟨fault, hpart, hfirst⟩)
      · rcases bind_eq_error_iff.mp hfault with hsecond | ⟨_, -, ⟨⟩⟩
        exact .second hread ((hasNoFloat_iff b).mpr ⟨fault, hpart, hsecond⟩)
    · exact absurd hpart (not_isFloatFault_of_ofValue hitems hfault)

/-! ### Decimals -/

/-- A document gives a whole number that fits into a word of the machine: it is such a number, or a
truth value in the place of one. -/
inductive GivesWord : Json → Int → Prop where
  | bool (b : Bool) : GivesWord (.bool b) (if b then 1 else 0)
  | int {n : Int} (fits : Scalar.fitsWord n = true) : GivesWord (.int n) n

/-- A document gives the sign of a decimal. -/
def IsSign (j : Json) : Prop := ∃ n, GivesWord j n ∧ (n = 0 ∨ n = 1)

/-- A document gives a digit of a decimal. -/
def IsDigit (j : Json) : Prop := ∃ n, GivesWord j n ∧ 0 ≤ n ∧ n ≤ 9

/-- A document gives the digits of a decimal; there may be none. -/
inductive IsCoefficient : Json → Prop where
  | array {items : List Json} (each : ∀ j ∈ items, IsDigit j) : IsCoefficient (.array items)

/-- A document gives the exponent of a decimal, or names what is no finite number in its place. -/
inductive IsExponent : Json → Prop where
  | word {j : Json} {n : Int} (word : GivesWord j n) : IsExponent j
  | name {s : String} (special : s = "F" ∨ s = "n" ∨ s = "N") : IsExponent (.text s)

/-- An array of three items that are not a sign, digits and an exponent. -/
inductive BreaksDecimal : Json → Prop where
  | parts {sign digits exponent : Json}
      (broken : ¬ (IsSign sign ∧ IsExponent exponent ∧ IsCoefficient digits)) :
      BreaksDecimal (.array [sign, digits, exponent])

/-- A step that reads a part succeeds where the part is of its form, and ends with a fault of parts
everywhere else. -/
def ReadsWhere (form : Prop) (x : Except ValueFault α) : Prop :=
  form ∧ (∃ a, x = .ok a) ∨ ¬ form ∧ ∃ fault, IsPartFault fault ∧ x = .error fault

namespace ReadsWhere

variable {form form' : Prop} {x : Except ValueFault α}

/-- A step that succeeds does so where it should. -/
theorem ok (h : form) (a : α) : ReadsWhere form (.ok a) := .inl ⟨h, a, rfl⟩

/-- A step that fails with a fault of parts does so where it should. -/
theorem error {fault : ValueFault} (hpart : IsPartFault fault) (h : ¬ form) :
    ReadsWhere form (.error fault : Except ValueFault α) := .inr ⟨h, fault, hpart, rfl⟩

theorem congr (h : ReadsWhere form x) (hform : form ↔ form') : ReadsWhere form' x :=
  propext hform ▸ h

/-- Two parts are of their forms where the first one is, and then the second one. -/
theorem bind {f : α → Except ValueFault β} (h : ReadsWhere form x)
    (hf : ∀ a, ReadsWhere form' (f a)) : ReadsWhere (form ∧ form') (x >>= f) := by
  rcases h with ⟨hform, a, rfl⟩ | ⟨hform, fault, hpart, rfl⟩
  · exact (hf a).congr (and_iff_right hform).symm
  · exact .error hpart fun h => hform h.1

/-- What is made of a part does not matter. -/
theorem map (h : ReadsWhere form x) (f : α → β) : ReadsWhere form (do return f (← x)) := by
  refine (h.bind fun a => ?_).congr (and_iff_left trivial)
  exact .ok trivial (f a)

/-- A step succeeds or ends with a fault of parts, so it ends with one exactly outside of its
form. -/
theorem not_iff (h : ReadsWhere form x) :
    ¬ form ↔ ∃ fault, IsPartFault fault ∧ x = .error fault := by
  rcases h with ⟨hform, a, rfl⟩ | ⟨hform, hfault⟩
  · exact iff_of_false (not_not_intro hform) fun ⟨_, _, herror⟩ => nomatch herror
  · exact iff_of_true hform hfault

/-- The fault of a step is one of parts. -/
theorem isPartFault {fault : ValueFault} (h : ReadsWhere form x) (herror : x = .error fault) :
    IsPartFault fault := by
  rcases h with ⟨-, a, rfl⟩ | ⟨-, fault', hpart, rfl⟩
  · cases herror
  · cases herror
    exact hpart

end ReadsWhere

/-- A part gives a word, or there is a fault. -/
theorem wordOfPart_cases {malformed : ValueFault} (hpart : IsPartFault malformed) (word : String)
    (j : Json) :
    (∃ n, GivesWord j n ∧ Scalar.wordOfPart malformed word (valueOfJson j) = .ok n) ∨
      (∀ n, ¬ GivesWord j n) ∧ ∃ fault, IsPartFault fault ∧
        Scalar.wordOfPart malformed word (valueOfJson j) = .error fault := by
  cases j with
  | bool b => exact .inl ⟨_, .bool b, rfl⟩
  | int n =>
    have hword : Scalar.wordOfPart malformed word (valueOfJson (.int n)) =
        if Scalar.fitsWord n then .ok n else .error (.tooLargeForWord word) := rfl
    rw [hword]
    by_cases hfits : Scalar.fitsWord n = true
    · exact .inl ⟨n, .int hfits, if_pos hfits⟩
    · refine .inr ⟨?_, _, .word word, if_neg hfits⟩
      rintro _ ⟨⟩
      contradiction
  | _ => exact .inr ⟨nofun, malformed, hpart, rfl⟩

/-- A document gives one word at most. -/
theorem GivesWord.unique {n m : Int} (hn : GivesWord j n) (hm : GivesWord j m) : n = m := by
  cases hn <;> cases hm <;> rfl

/-- A part that has to be a word of some kind. -/
theorem readsWhere_word {malformed : ValueFault} (hpart : IsPartFault malformed) (word : String)
    {P : Int → Prop} {f : Int → Except ValueFault α} (hf : ∀ n, ReadsWhere (P n) (f n)) (j : Json) :
    ReadsWhere (∃ n, GivesWord j n ∧ P n)
      (Scalar.wordOfPart malformed word (valueOfJson j) >>= f) := by
  rcases wordOfPart_cases hpart word j with ⟨n, hword, hn⟩ | ⟨hnone, fault, hfault, herror⟩
  · rw [hn]
    refine (hf n).congr ⟨fun h => ⟨n, hword, h⟩, ?_⟩
    rintro ⟨m, hm, h⟩
    exact hword.unique hm ▸ h
  · rw [herror]
    exact .error hfault fun ⟨n, hn, _⟩ => hnone n hn

/-- The sign of a decimal is nought or one. -/
theorem readsWhere_sign (j : Json) : ReadsWhere (IsSign j) (Scalar.signOfPart (valueOfJson j)) := by
  refine readsWhere_word .sign "long" (fun n => ?_) j
  split
  · next h => exact .ok (.inl h) false
  · split
    · next h => exact .ok (.inr h) true
    · next hzero hone => exact .error .sign fun h => h.elim hzero hone

/-- A digit of a decimal is a number from nought to nine. -/
theorem readsWhere_digit (j : Json) :
    ReadsWhere (IsDigit j) (Scalar.digitOfPart (valueOfJson j)) := by
  refine readsWhere_word .digits "long" (fun n => ?_) j
  split
  · next h => exact .ok h n.toNat
  · next h => exact .error .digits h

/-- All digits have to be such numbers; the first one that is none ends the reading. -/
theorem readsWhere_digits (items : List Json) : ReadsWhere (∀ j ∈ items, IsDigit j)
    ((valuesOfJson items).mapM Scalar.digitOfPart) := by
  induction items with
  | nil => exact .ok nofun []
  | cons j items ih =>
    rw [valuesOfJson, List.mapM_cons]
    refine ((readsWhere_digit j).bind fun digit => ih.map (digit :: ·)).congr ?_
    exact List.forall_mem_cons.symm

/-- The digits of a decimal stand in an array. Any other document in their place is a fault, as an
array with something else in it is. -/
theorem readsWhere_coefficient (j : Json) :
    ReadsWhere (IsCoefficient j) (Scalar.digitsOfPart (valueOfJson j)) := by
  cases j with
  | array items =>
    refine (readsWhere_digits items).congr ⟨.array, ?_⟩
    rintro ⟨each⟩
    exact each
  | _ => exact .error .digits nofun

/-- In the place of an exponent stands a word, or the name of an infinity or of no number. -/
theorem readsWhere_scale (negative : Bool) (j : Json) :
    ReadsWhere (IsExponent j) (Scalar.scaleOfPart negative (valueOfJson j)) := by
  have hword : ReadsWhere (∃ n, GivesWord j n ∧ True) (do
      let exponent ← Scalar.wordOfPart .malformedExponent "ssize_t" (valueOfJson j)
      return fun digits => Decimal.finite negative (Numeral.ofDigits digits) exponent) :=
    readsWhere_word .exponent "ssize_t" (fun _ => .ok trivial _) j
  cases j with
  | text s =>
    change ReadsWhere _ (if s = "F" then _ else if s = "n" then _ else if s = "N" then _ else _)
    split
    · next h => exact .ok (.name (.inl h)) _
    · split
      · next h => exact .ok (.name (.inr (.inl h))) _
      · split
        · next h => exact .ok (.name (.inr (.inr h))) _
        · next hinfinite hquiet hsignalling =>
          refine .error .special ?_
          rintro (⟨⟨⟩⟩ | ⟨h⟩)
          exact h.elim hinfinite fun h => h.elim hquiet hsignalling
  | _ =>
    refine hword.congr ⟨fun ⟨n, hn, _⟩ => .word hn, ?_⟩
    rintro ⟨h⟩
    exact ⟨_, h, trivial⟩

/-- The parts of a decimal make one where they are a sign, an exponent and digits. -/
theorem readsWhere_parts (sign digits exponent : Json) :
    ReadsWhere (IsSign sign ∧ IsExponent exponent ∧ IsCoefficient digits)
      (Scalar.decimalOfParts (valueOfJson sign) (valueOfJson digits) (valueOfJson exponent)) :=
  (readsWhere_sign sign).bind fun negative =>
    (readsWhere_scale negative exponent).bind fun scaled =>
    (readsWhere_coefficient digits).map scaled

/-- A decimal is no longer read where it does not come from its parts. -/
theorem readDecimal_eq_fault_iff {origin : Origin} {v : Value} {fault : ValueFault} :
    Scalar.readDecimal origin v = .error (.fault fault) ↔
      Scalar.decimalOf origin v = .error (.fault fault) := by
  rw [Scalar.readDecimal, bind_eq_error_iff, or_iff_left]
  rintro ⟨d, -, hfinite⟩
  cases d <;> cases hfinite

theorem mapError_fault_iff {x : Except ValueFault α} {fault : ValueFault} :
    x.mapError Rejection.fault = .error (.fault fault) ↔ x = .error fault := by
  cases x <;> simp [Except.mapError]

/-- A text that is no decimal is a problem. -/
theorem decimalOfText_ne_fault (cs : List Char) (fault : ValueFault) :
    Scalar.decimalOfText cs ≠ .error (.fault fault) := by
  unfold Scalar.decimalOfText
  split <;> exact nofun

/-- Three items of an array are taken as sign, digits and exponent. -/
theorem decimalOf_parts (origin : Origin) (sign digits exponent : Json) :
    Scalar.decimalOf origin (valueOfJson (.array [sign, digits, exponent])) =
      (Scalar.decimalOfParts (valueOfJson sign) (valueOfJson digits)
        (valueOfJson exponent)).mapError .fault := rfl

/-- Only an array of three items gives the parts of a decimal. -/
theorem exists_parts_of_decimalOf {origin : Origin} {fault : ValueFault}
    (h : Scalar.decimalOf origin (valueOfJson j) = .error (.fault fault)) :
    ∃ sign digits exponent, j = .array [sign, digits, exponent] := by
  cases j with
  | text s => exact absurd h (decimalOfText_ne_fault _ fault)
  | float x => exact absurd h (decimalOfText_ne_fault _ fault)
  | array items =>
    rcases items with _ | ⟨sign, _ | ⟨digits, _ | ⟨exponent, _ | ⟨_, _⟩⟩⟩⟩
    case cons.cons.cons.nil => exact ⟨sign, digits, exponent, rfl⟩
    all_goals cases h
  | _ => cases h

/-- **Decimals in parts.** The reading of a decimal ends with a fault exactly where an array of
three items is no sign, digits and exponent. -/
theorem breaksDecimal_iff (origin : Origin) (j : Json) : BreaksDecimal j ↔
    ∃ fault, IsPartFault fault ∧
      Scalar.readDecimal origin (valueOfJson j) = .error (.fault fault) := by
  have hparts (sign digits exponent : Json) (fault : ValueFault) :
      Scalar.readDecimal origin (valueOfJson (.array [sign, digits, exponent])) =
        .error (.fault fault) ↔ Scalar.decimalOfParts (valueOfJson sign) (valueOfJson digits)
          (valueOfJson exponent) = .error fault := by
    rw [readDecimal_eq_fault_iff, decimalOf_parts, mapError_fault_iff]
  constructor
  · rintro ⟨hbroken⟩
    obtain ⟨fault, hpart, hfault⟩ := (readsWhere_parts _ _ _).not_iff.mp hbroken
    exact ⟨fault, hpart, (hparts _ _ _ _).mpr hfault⟩
  · rintro ⟨fault, hpart, hfault⟩
    obtain ⟨sign, digits, exponent, rfl⟩ :=
      exists_parts_of_decimalOf (readDecimal_eq_fault_iff.mp hfault)
    exact .parts ((readsWhere_parts _ _ _).not_iff.mpr ⟨fault, hpart, (hparts _ _ _ _).mp hfault⟩)

/-- The fault that ends the reading of a decimal is one of its parts. -/
theorem isPartFault_of_readDecimal {origin : Origin} {fault : ValueFault}
    (h : Scalar.readDecimal origin (valueOfJson j) = .error (.fault fault)) :
    IsPartFault fault := by
  rw [readDecimal_eq_fault_iff] at h
  obtain ⟨sign, digits, exponent, rfl⟩ := exists_parts_of_decimalOf h
  rw [decimalOf_parts, mapError_fault_iff] at h
  exact (readsWhere_parts sign digits exponent).isPartFault h

end Record

end IndexedRecords
