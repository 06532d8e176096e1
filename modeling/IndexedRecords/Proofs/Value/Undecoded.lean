import IndexedRecords.Proofs.Alike
import IndexedRecords.Proofs.Text.Utf8
import IndexedRecords.Value.Convert

/-!
# Undecoded texts

A connection that does not decode replies gives their texts as bytes. A value is then read as
before where a text stands for itself: the same text, the same whole number, the same items. Where
an array or a map is read as a text, its form shows what its items are, so that the texts differ;
but neither of them is the name of anything, and either both can be shown or none.

## Main statements

* `Undecoded.asText_eq`: what is read of a value that has no parts.
* `Undecoded.asText_alike`: what is read of any value as a text.
* `Undecoded.toInt_cases`: what is read of a value as a whole number.
-/

namespace IndexedRecords

namespace Value

/-- A value with some of its texts as bytes, wherever they stand in it. -/
inductive Undecoded : Value → Value → Prop
  | same (v : Value) : Undecoded v v
  | text (s : String) : Undecoded (.text s) (.bytes (Utf8.encode s.toList))
  | list {items items' : List Value} (h : List.Forall₂ Undecoded items items') :
      Undecoded (.list items) (.list items')
  | tuple {items items' : List Value} (h : List.Forall₂ Undecoded items items') :
      Undecoded (.tuple items) (.tuple items')
  | map {entries entries' : List (Value × Value)}
      (names : List.Forall₂ Undecoded (entries.map Prod.fst) (entries'.map Prod.fst))
      (values : List.Forall₂ Undecoded (entries.map Prod.snd) (entries'.map Prod.snd)) :
      Undecoded (.map entries) (.map entries')

/-- A value that is neither an array nor a map. -/
def IsAtom : Value → Prop
  | .list _ | .tuple _ | .map _ => False
  | _ => True

variable {v v' : Value} {items items' : List Value} {s : String}

theorem forall₂_undecoded_same (items : List Value) : List.Forall₂ Undecoded items items :=
  List.forall₂_same.mpr fun v _ => .same v

/-! ### Texts -/

theorem decodeText_encode (s : String) : decodeText (Utf8.encode s.toList) = .ok s := by
  rw [decodeText, Utf8.decode?_encode]
  exact congrArg Except.ok String.ofList_toList

/-- A value that has no parts is read as the same text. -/
theorem Undecoded.asText_eq (h : Undecoded v v') (atom : v.IsAtom) : v'.asText = v.asText := by
  cases h with
  | same => rfl
  | text s => exact decodeText_encode s
  | list _ | tuple _ | map _ _ => exact absurd atom id

mutual

theorem literal_alike {v v' : Value} (h : Undecoded v v') :
    Alike ValueFault.classOf (fun _ _ => True) v.literal v'.literal := by
  match v, v', h with
  | v, _, .same _ => exact (Alike.refl _ v.literal).mono fun _ _ _ _ _ => trivial
  | .text s, _, .text _ => exact .ok trivial
  | .list items, .list items', .list h =>
    rw [literal, literal]
    exact (itemLiterals_alike h).map fun _ _ _ => trivial
  | .tuple items, .tuple items', .tuple h =>
    rw [literal, literal]
    exact (itemLiterals_alike h).map fun _ _ _ => trivial
  | .map entries, .map entries', .map names values =>
    rw [literal, literal]
    exact (entryLiterals_alike names values).map fun _ _ _ => trivial
termination_by sizeOf v

theorem itemLiterals_alike {items items' : List Value} (h : List.Forall₂ Undecoded items items') :
    Alike ValueFault.classOf (fun _ _ => True) (itemLiterals items) (itemLiterals items') := by
  match items, items', h with
  | [], [], .nil => exact .ok trivial
  | v :: items, v' :: items', .cons hv h =>
    rw [itemLiterals, itemLiterals]
    exact (literal_alike hv).bind fun _ _ _ _ => (itemLiterals_alike h).map fun _ _ _ => trivial
termination_by sizeOf items

theorem entryLiterals_alike {entries entries' : List (Value × Value)}
    (names : List.Forall₂ Undecoded (entries.map Prod.fst) (entries'.map Prod.fst))
    (values : List.Forall₂ Undecoded (entries.map Prod.snd) (entries'.map Prod.snd)) :
    Alike ValueFault.classOf (fun _ _ => True) (entryLiterals entries)
      (entryLiterals entries') := by
  match entries, entries', names, values with
  | [], [], .nil, .nil => exact .ok trivial
  | (name, v) :: entries, (name', v') :: entries', .cons hname names, .cons hv values =>
    rw [entryLiterals, entryLiterals]
    exact (literal_alike hname).bind fun _ _ _ _ => (literal_alike hv).bind fun _ _ _ _ =>
      (entryLiterals_alike names values).map fun _ _ _ => trivial
termination_by sizeOf entries

end

/-- A text that starts as the form of an array or of a map does. -/
def IsBracketed (a : String) : Prop := a.toList.head? ∈ [some '[', some '(', some '\x7b']

instance : DecidablePred IsBracketed := fun _ => inferInstanceAs (Decidable (_ ∈ _))

/-- Two texts are the same, or both are forms of arrays or maps. -/
def SameText (a a' : String) : Prop := a = a' ∨ IsBracketed a ∧ IsBracketed a'

/-- A name that is no form of an array or of a map is told from others. -/
theorem SameText.eq_iff {a a' name : String} (h : SameText a a') (plain : ¬ IsBracketed name) :
    a = name ↔ a' = name := by
  obtain rfl | ⟨ha, ha'⟩ := h
  · exact Iff.rfl
  · exact iff_of_false (fun heq => plain (heq ▸ ha)) fun heq => plain (heq ▸ ha')

/-- An array or a map is read as its form. -/
theorem asText_eq_literal (parts : ¬ v.IsAtom) : v.asText = v.literal := by
  cases v with
  | list | tuple | map => rfl
  | _ => exact absurd trivial parts

theorem isBracketed_of_literal {a : String} (parts : ¬ v.IsAtom) (h : v.literal = .ok a) :
    IsBracketed a := by
  -- only containers are left, and each of them starts with a bracket of its own
  cases v with
  | list items =>
    rw [literal] at h
    obtain ⟨shown, -, h⟩ := Traversal.bind_eq_ok_iff.mp h
    obtain rfl := Except.ok.inj h
    have hhead : ("[" ++ commaList shown ++ "]").toList.head? = some '[' := by
      simp only [String.toList_append]
      rfl
    rw [IsBracketed, hhead]
    decide
  | tuple items =>
    rw [literal] at h
    obtain ⟨shown, -, h⟩ := Traversal.bind_eq_ok_iff.mp h
    obtain rfl := Except.ok.inj h
    have hhead : (tupleLiteral shown).toList.head? = some '(' := by
      unfold tupleLiteral
      split <;> simp only [String.toList_append] <;> rfl
    rw [IsBracketed, hhead]
    decide
  | map entries =>
    rw [literal] at h
    obtain ⟨shown, -, h⟩ := Traversal.bind_eq_ok_iff.mp h
    obtain rfl := Except.ok.inj h
    have hhead : ("\x7b" ++ commaList shown ++ "\x7d").toList.head? = some '\x7b' := by
      simp only [String.toList_append]
      rfl
    rw [IsBracketed, hhead]
    decide
  | _ => exact absurd trivial parts

theorem Undecoded.isAtom_iff (h : Undecoded v v') : v.IsAtom ↔ v'.IsAtom := by
  cases h <;> exact Iff.rfl

/-- What is read of a value as a text is the same, or the form of an array or of a map. -/
theorem Undecoded.asText_alike (h : Undecoded v v') :
    Alike ValueFault.classOf SameText v.asText v'.asText := by
  by_cases atom : v.IsAtom
  · rw [h.asText_eq atom]
    exact (Alike.refl _ _).mono fun _ _ _ _ heq => .inl heq
  · have atom' : ¬ v'.IsAtom := mt h.isAtom_iff.mpr atom
    rw [asText_eq_literal atom, asText_eq_literal atom']
    exact (literal_alike h).mono fun _ _ ha ha' _ =>
      .inr ⟨isBracketed_of_literal atom ha, isBracketed_of_literal atom' ha'⟩

/-! ### Whole numbers -/

theorem encode_of_ascii {cs : List Char} (ascii : ∀ ch ∈ cs, ch.toNat < 0x80) :
    Utf8.encode cs = cs.map fun ch => UInt8.ofNat ch.toNat := by
  have hbyte : ∀ ch ∈ cs, Utf8.encodeChar ch = [UInt8.ofNat ch.toNat] :=
    fun ch hch => if_pos (ascii ch hch)
  rw [Utf8.encode, List.flatMap_congr hbyte, List.map_eq_flatMap]

theorem asciiText?_encode {cs : List Char} (ascii : ∀ ch ∈ cs, ch.toNat < 0x80) :
    asciiText? (Utf8.encode cs) = some cs := by
  have hbyte : ∀ ch ∈ cs, (UInt8.ofNat ch.toNat).toNat = ch.toNat := fun ch hch =>
    Utf8.toNat_byte (Nat.lt_trans (ascii ch hch) (by decide))
  have hall : ((cs.map fun ch => UInt8.ofNat ch.toNat).all (· < 128)) = true := by
    rw [List.all_map, List.all_eq_true]
    intro ch hch
    refine decide_eq_true (UInt8.lt_iff_toNat_lt.mpr ?_)
    rw [hbyte ch hch]
    exact ascii ch hch
  have hchars : (cs.map fun ch => UInt8.ofNat ch.toNat).map (fun b => Char.ofNat b.toNat) = cs := by
    rw [List.map_map]
    refine (List.map_congr_left fun ch hch => ?_).trans (List.map_id cs)
    rw [Function.comp, hbyte ch hch, Char.ofNat_toNat]
    rfl
  rw [encode_of_ascii ascii, asciiText?, if_pos hall, hchars]

/-- What a text is as a number depends on its quotes only where it is none. -/
theorem intOfText_cases (shown shown' cs : List Char) :
    intOfText shown' cs = intOfText shown cs ∨ ∃ e e', intOfText shown cs = .error e ∧
      intOfText shown' cs = .error e' ∧ e.classOf ≠ .overflow ∧ e'.classOf ≠ .overflow := by
  unfold intOfText
  cases Numeral.readInt cs with
  | ok n => exact .inl rfl
  | error fault =>
    cases fault with
    | malformed => exact .inr ⟨_, _, rfl, rfl, nofun, nofun⟩
    | tooLong digits => exact .inl rfl

/-- A text without other than ASCII characters is the number that its bytes are, or they are no
numbers. -/
theorem Undecoded.toInt_cases (h : Undecoded v v')
    (ascii : ∀ s, v = .text s → ∀ ch ∈ s.toList, ch.toNat < 0x80) :
    v'.toInt = v.toInt ∨ ∃ e e', v.toInt = .error e ∧ v'.toInt = .error e' ∧
      e.classOf ≠ .overflow ∧ e'.classOf ≠ .overflow := by
  cases h with
  | same => exact .inl rfl
  | text s =>
    have hbytes : (Value.bytes (Utf8.encode s.toList)).toInt =
        intOfText (Text.quotedBytes (Utf8.encode s.toList)) s.toList := by
      simp only [toInt, plain, asciiText?_encode (ascii s rfl)]
    rw [hbytes]
    exact intOfText_cases _ _ _
  | list _ => exact .inr ⟨_, _, rfl, rfl, nofun, nofun⟩
  | tuple _ => exact .inr ⟨_, _, rfl, rfl, nofun, nofun⟩
  | map _ _ => exact .inr ⟨_, _, rfl, rfl, nofun, nofun⟩

/-! ### Items -/

/-- A value yields items if and only if it does with texts as bytes. -/
theorem Undecoded.sequence?_cases (h : Undecoded v v') :
    (v.sequence? = Option.none ∧ v'.sequence? = Option.none) ∨
    ∃ items items', v.sequence? = some items ∧ v'.sequence? = some items' ∧
      List.Forall₂ Undecoded items items' := by
  cases h with
  | same =>
    cases hitems : v.sequence? with
    | none => exact .inl ⟨rfl, rfl⟩
    | some items => exact .inr ⟨items, items, rfl, rfl, forall₂_undecoded_same items⟩
  | text s => exact .inl ⟨rfl, rfl⟩
  | map _ _ => exact .inl ⟨rfl, rfl⟩
  | list h | tuple h => exact .inr ⟨_, _, rfl, rfl, h⟩

end Value

end IndexedRecords
