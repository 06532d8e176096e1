import IndexedRecords.Proofs.Calendar.Instants
import IndexedRecords.Proofs.Record.Faults
import IndexedRecords.Proofs.Record.Writing

/-!
# Instants in records

A searchable record keeps a moment that it is given for a field of moments, and writes it as its
number of seconds. So records that differ in moments of one instant have one document. Two readings
are compared step by step: they go together if what they read differs only where it may.

## Main statements

* `together_make`: what is made of values that differ in the moment for one field.
* `Differs.toJson?_eq`: records that differ in moments of one instant have one document.
-/

namespace IndexedRecords.Record

open Reading Traversal

variable {α β γ δ : Type} {c : Catalogue} {type : RecordType} {f g : Field} {m m' : Moment}

/-! ### Readings that go together -/

/-- Two readings have made the same progress, and give values that belong together or are rejected
for one reason. -/
inductive EndTogether (R : α → β → Prop) :
    Except Rejection α × Progress → Except Rejection β × Progress → Prop where
  | ok {a : α} {b : β} (h : R a b) (q : Progress) : EndTogether R (.ok a, q) (.ok b, q)
  | error (e : Rejection) (q : Progress) : EndTogether R (.error e, q) (.error e, q)

/-- Two readings go together, whatever progress there has been. -/
def Together (R : α → β → Prop) (r : Reading α) (r' : Reading β) : Prop :=
  ∀ p, EndTogether R (r p) (r' p)

namespace Together

variable {R R' : α → β → Prop} {S : γ → δ → Prop} {r : Reading α} {r' : Reading β} {s : Reading γ}
  {s' : Reading δ}

theorem refl {R : α → α → Prop} (h : ∀ a, R a a) (r : Reading α) : Together R r r := by
  intro p
  obtain ⟨e | a, q⟩ := r p
  · exact .error e q
  · exact .ok (h a) q

theorem mono (h : Together R r r')
    (hR : ∀ p a b, (r p).1 = .ok a → (r' p).1 = .ok b → R a b → R' a b) : Together R' r r' := by
  intro p
  have hend := h p
  have hp := hR p
  generalize r p = done, r' p = done' at hend hp
  cases hend with
  | ok hab q => exact .ok (hp _ _ rfl rfl hab) q
  | error e q => exact .error e q

/-- After readings that go together come readings that go together for what these give. -/
theorem bind {k : α → Reading γ} {k' : β → Reading δ} (h : Together R r r')
    (hk : ∀ a b, R a b → Together S (k a) (k' b)) : Together S (r >>= k) (r' >>= k') := by
  intro p
  have hend := h p
  change EndTogether S (ExceptT.bindCont k (r p).1 (r p).2)
    (ExceptT.bindCont k' (r' p).1 (r' p).2)
  generalize r p = done, r' p = done' at hend ⊢
  cases hend with
  | ok hab q => exact hk _ _ hab q
  | error e q => exact .error e q

/-- Readings that go together two by two go together side by side. -/
theorem both (hr : Together R r r') (hs : Together S s s') :
    Together (fun x y => R x.1 y.1 ∧ S x.2 y.2) (both r s) (both r' s') := by
  intro p
  have hend := hr p
  unfold Reading.both
  generalize r p = done, r' p = done' at hend ⊢
  cases hend with
  | ok hab q =>
    have hend := hs q
    dsimp only
    generalize s q = done, s' q = done' at hend ⊢
    cases hend with
    | ok hcd q => exact .ok ⟨hab, hcd⟩ q
    | error e q => exact .error e q
  | error e q =>
    cases e with
    | fault => exact .error _ q
    | problems ps =>
      -- the problems of the first reading do not keep the second one from being tried
      have hend := hs q
      dsimp only
      generalize s q = done, s' q = done' at hend ⊢
      cases hend with
      | ok _ q => exact .error _ q
      | error e q => cases e <;> exact .error _ q

/-- Readings side by side go together if each of them goes together with its counterpart. -/
theorem all {rs : List (Reading α)} {rs' : List (Reading β)}
    (h : List.Forall₂ (Together R) rs rs') : Together (List.Forall₂ R) (all rs) (all rs') := by
  induction h with
  | nil => exact fun p => .ok .nil p
  | cons hr _ ih =>
    rw [all_cons, all_cons]
    exact (hr.both ih).bind fun _ _ hab q => .ok (.cons hab.1 hab.2) q

end Together

/-! ### What is given for a field -/

/-- The entries of the values that a caller gives. -/
abbrev entriesOf (c : Catalogue) (data : List (String × Value)) : List EntryView :=
  entryReaders ⟨c, .caller⟩ (data.map fun (name, v) => (.text name, v))

/-- The value that a caller gives for a field, and the name that it is given under. -/
def givenTo? (c : Catalogue) (type : RecordType) (f : Field) (data : List (String × Value)) :
    Option (String × Value) :=
  (entryOf? type f (entriesOf c data)).map fun (name, e) => (name, e.value)

/-- A field of moments is given one moment or another one, and all other fields are given the same
values. -/
structure GivesEither (c : Catalogue) (type : RecordType) (f : Field) (m m' : Moment)
    (data data' : List (String × Value)) : Prop where
  declared : f ∈ type.fields
  shape : f.shape.unwrap = .scalar .moment
  here : ∃ name, givenTo? c type f data = some (name, .moment m) ∧
    givenTo? c type f data' = some (name, .moment m')
  elsewhere : ∀ g ∈ type.fields, g ≠ f → givenTo? c type g data = givenTo? c type g data'

theorem readValue_of_entryOf? {ctx : Context} {entries : List (Value × Value)} {name : String}
    {e : EntryView} (h : entryOf? type f (entryReaders ctx entries) = some (name, e)) :
    e.readValue = reader ctx e.value := by
  have hfind {key : String} {views : List EntryView} {p : EntryView → Bool}
      (h : ((views.find? p).map fun e => (key, e)) = some (name, e)) : e ∈ views := by
    obtain ⟨_, he, heq⟩ := Option.map_eq_some_iff.mp h
    cases heq
    exact List.mem_of_find?_eq_some he
  have hmem : e ∈ entryReaders ctx entries := by
    unfold entryOf? at h
    split at h
    · exact hfind h
    · split at h
      · rcases Option.or_eq_some_iff.mp h with h | ⟨-, h⟩ <;> exact hfind h
      · exact hfind h
  rw [entryReaders_eq_map] at hmem
  obtain ⟨entry, -, rfl⟩ := List.mem_map.mp hmem
  rfl

variable {data data' : List (String × Value)}

/-- A field is read from what is given for it. -/
theorem readField_eq_given (c : Catalogue) (type : RecordType) (f : Field)
    (data : List (String × Value)) :
    readField ⟨c, .caller⟩ type (entriesOf c data) f =
      match givenTo? c type f data with
      | none => do return (f.name, ← absentValue f)
      | some (name, v) => do
        let read : Reading Value :=
          if asksForId type f v then do readAtom ⟨c, .caller⟩ (.text (← freshId)) f.shape
          else reader ⟨c, .caller⟩ v f.shape
        return (f.name, keptValue type (← under [.key name] read)) := by
  rw [readField, givenTo?]
  cases hentry : entryOf? type f (entriesOf c data) with
  | none => rfl
  | some found =>
    obtain ⟨name, e⟩ := found
    simp only [Option.map_some, readValue_of_entryOf? hentry]

/-- Fields that are given the same are read in the same way. -/
theorem readField_eq_of_givenTo? (h : givenTo? c type g data = givenTo? c type g data') :
    readField ⟨c, .caller⟩ type (entriesOf c data) g =
      readField ⟨c, .caller⟩ type (entriesOf c data') g := by
  rw [readField_eq_given, readField_eq_given, h]

theorem isSome_givenTo? (c : Catalogue) (type : RecordType) (f : Field)
    (data : List (String × Value)) :
    (entryOf? type f (entriesOf c data)).isSome = (givenTo? c type f data).isSome := by
  rw [givenTo?, Option.isSome_map]

/-- A caller's moment is kept as it is in a place for moments. -/
theorem reader_moment {shape : Shape} (hshape : shape.unwrap = .scalar .moment)
    (hyear : m.date.year ≠ 0) (p : Progress) :
    reader ⟨c, .caller⟩ (.moment m) shape p =
      (.ok (.moment m), { p with closeness := p.closeness.loosest .exact }) := by
  have hread : Scalar.read .caller .moment (.moment m) = .ok (.moment m) := by
    have hmoment : Scalar.readMoment .caller (.moment m) =
        if m.date.year = 0 then .error .datetimeParsing else .ok (.moment m) := rfl
    rw [Scalar.read, hmoment, if_neg hyear]
    rfl
  rw [reader_eq, readAs_unwrap (by rw [viewOf_value]; nofun) shape.unwraps, hshape, readAs]
  simp only [viewOf_value, hread]
  rfl

/-- A field of moments that is given a moment has this moment, in universal time where it has no
offset. -/
theorem readField_moment {name : String} (hsearchable : type.isSearchable = true)
    (hshape : f.shape.unwrap = .scalar .moment)
    (hgiven : givenTo? c type f data = some (name, .moment m)) (hyear : m.date.year ≠ 0)
    (p : Progress) :
    readField ⟨c, .caller⟩ type (entriesOf c data) f p =
      (.ok (f.name, .moment m.assumeUniversal),
        { p with closeness := p.closeness.loosest .exact }) := by
  have hknown : asksForId type f (.moment m) = false := Bool.and_false _
  have hkept : keptValue type (.moment m) = .moment m.assumeUniversal := by
    rw [keptValue, if_pos hsearchable]
  have hunder : under [.key name] (reader ⟨c, .caller⟩ (.moment m) f.shape) p =
      (.ok (.moment m), { p with closeness := p.closeness.loosest .exact }) := by
    rw [under, reader_moment hshape hyear]
  rw [readField_eq_given, hgiven]
  simp only [hknown, Bool.false_eq_true, if_false]
  rw [bind_apply_ok hunder, hkept]
  rfl

/-! ### Records that differ in a moment -/

/-- The value of a field of two records: the same value, or one of two moments in each if the field
has a given name. -/
inductive EitherMoment (name : String) (m m' : Moment) :
    String × Value → String × Value → Prop where
  | same (e : String × Value) : EitherMoment name m m' e e
  | moment : EitherMoment name m m' (name, .moment m) (name, .moment m')

/-- Two records are of one type, and the same but for a field that has one moment in the one and
another moment in the other. -/
structure Differs (name : String) (m m' : Moment) (r r' : Record) : Prop where
  model : r.model = r'.model
  fields : List.Forall₂ (EitherMoment name m m') r.fields r'.fields
  holds : (name, .moment m) ∈ r.fields
  holds' : (name, .moment m') ∈ r'.fields

theorem GivesEither.isSome_eq (h : GivesEither c type f m m' data data') (hg : g ∈ type.fields) :
    (entryOf? type g (entriesOf c data)).isSome =
      (entryOf? type g (entriesOf c data')).isSome := by
  rw [isSome_givenTo?, isSome_givenTo?]
  by_cases hgf : g = f
  · obtain ⟨name, hm, hm'⟩ := h.here
    rw [hgf, hm, hm']
    rfl
  · rw [h.elsewhere g hg hgf]

/-- The fields of a record that is given one of two moments are read together. -/
theorem GivesEither.together_readField (h : GivesEither c type f m m' data data')
    (hsearchable : type.isSearchable = true) (hyear : m.date.year ≠ 0) (hyear' : m'.date.year ≠ 0)
    (hg : g ∈ type.fields) :
    Together (EitherMoment f.name m.assumeUniversal m'.assumeUniversal)
      (readField ⟨c, .caller⟩ type (entriesOf c data) g)
      (readField ⟨c, .caller⟩ type (entriesOf c data') g) := by
  by_cases hgf : g = f
  · obtain ⟨name, hm, hm'⟩ := h.here
    subst hgf
    intro p
    rw [readField_moment hsearchable h.shape hm hyear,
      readField_moment hsearchable h.shape hm' hyear']
    exact .ok .moment _
  · rw [readField_eq_of_givenTo? (h.elsewhere g hg hgf)]
    exact .refl .same _

/-- A caller makes a record from the entries of the values that are given. -/
theorem make_eq (found : c.find? type.name = some type) (data : List (String × Value)) :
    make c type.name data = readFields ⟨c, .caller⟩ type (entriesOf c data) := by
  rw [make, reader_eq, readAs, readRecord]
  simp only [viewOf_value, found]
  rfl

/-- A moment that is given for a field of moments is found in the record that is made, as the value
of that field. -/
theorem mem_of_all_readField {name : String} {p : Progress} {fields : List (String × Value)}
    (hsearchable : type.isSearchable = true) (hf : f ∈ type.fields)
    (hshape : f.shape.unwrap = .scalar .moment)
    (hgiven : givenTo? c type f data = some (name, .moment m)) (hyear : m.date.year ≠ 0)
    (h : (all (type.fields.map (readField ⟨c, .caller⟩ type (entriesOf c data))) p).1 =
      .ok fields) : (f.name, .moment m.assumeUniversal) ∈ fields := by
  obtain ⟨e, he, q, hread⟩ :=
    exists_of_mem_left (List.forall₂_map_left_iff.mp (forall₂_of_all h)) hf
  rw [readField_moment hsearchable hshape hgiven hyear] at hread
  obtain rfl := Except.ok.inj hread
  exact he

/-- **Making records.** A caller who gives one of two moments for a field gets records that differ
in these moments, or no record for one reason. -/
theorem together_make (h : GivesEither c type f m m' data data')
    (found : c.find? type.name = some type) (hsearchable : type.isSearchable = true)
    (hyear : m.date.year ≠ 0) (hyear' : m'.date.year ≠ 0) :
    Together (fun v v' => ∃ r r' : Record, v = r.toValue ∧ v' = r'.toValue ∧ r.model = type.name ∧
        r.Differs f.name m.assumeUniversal m'.assumeUniversal r')
      (make c type.name data) (make c type.name data') := by
  have hread : List.Forall₂ (Together (EitherMoment f.name m.assumeUniversal m'.assumeUniversal))
      (type.fields.map (readField ⟨c, .caller⟩ type (entriesOf c data)))
      (type.fields.map (readField ⟨c, .caller⟩ type (entriesOf c data'))) := by
    rw [List.forall₂_map_left_iff, List.forall₂_map_right_iff, List.forall₂_same]
    exact fun g hg => h.together_readField hsearchable hyear hyear' hg
  obtain ⟨name, hm, hm'⟩ := h.here
  have hfields : Together (fun fields fields' => Differs f.name m.assumeUniversal
        m'.assumeUniversal ⟨type.name, fields⟩ ⟨type.name, fields'⟩)
      (all (type.fields.map (readField ⟨c, .caller⟩ type (entriesOf c data))))
      (all (type.fields.map (readField ⟨c, .caller⟩ type (entriesOf c data')))) :=
    (Together.all hread).mono fun p fields fields' hok hok' hfields => ⟨rfl, hfields,
      mem_of_all_readField hsearchable h.declared h.shape hm hyear hok,
      mem_of_all_readField hsearchable h.declared h.shape hm' hyear' hok'⟩
  -- as many fields are given in both cases
  have hcount : type.fields.countP (fun g => (entryOf? type g (entriesOf c data)).isSome) =
      type.fields.countP fun g => (entryOf? type g (entriesOf c data')).isSome :=
    List.countP_congr fun g hg => by rw [h.isSome_eq hg]
  rw [make_eq found, make_eq found, readFields, readFields, hcount]
  refine (Together.refl (R := Eq) Eq.refl _).bind fun _ _ _ => hfields.bind fun _ _ hdiffers => ?_
  refine (Together.refl (R := Eq) Eq.refl _).bind fun _ _ _ q => ?_
  exact .ok ⟨_, _, rfl, rfl, rfl, hdiffers⟩ q

/-! ### Documents of records that differ in a moment -/

variable {name : String} {e e' : String × Value} {r r' : Record}

theorem writeFields_cons (check : Check) (type : RecordType) (e : String × Value)
    (fields : List (String × Value)) :
    writeFields check type (fieldWriters c (e :: fields)) =
      match type.field? e.1 with
      | none => writeFields check type (fieldWriters c fields)
      | some f => do
        let member ← writeField check type f e.2 (writer c e.2)
        return (f.writtenKey, member) :: (← writeFields check type (fieldWriters c fields)) := by
  obtain ⟨name, v⟩ := e
  rw [writeFields, fieldWriters, List.filterMap_cons]
  dsimp only
  cases type.field? name with
  | none => rfl
  | some f =>
    rw [Option.map_some, List.mapM_cons]
    cases hmember : writeField check type f v (writer c v) <;> simp only [hmember] <;> rfl

/-- A searchable record writes a moment as its number of seconds. -/
theorem writeField_moment (hsearchable : type.isSearchable = true) (check : Check) (f : Field)
    (m : Moment) (w : Writer) :
    writeField check type f (.moment m) w = some (.float m.epochSeconds) := by
  rw [writeField, if_pos hsearchable]
  rfl

/-- A field is written alike with either of two moments of one instant, whatever the check is that
the writer applies. -/
theorem EitherMoment.writeField_eq (he : EitherMoment name m m' e e') (h : m.SameInstant m')
    (hsearchable : type.isSearchable = true) (check : Check) (f : Field) :
    writeField check type f e.2 (writer c e.2) = writeField check type f e'.2 (writer c e'.2) := by
  cases he with
  | same => rfl
  | moment => rw [writeField_moment hsearchable, writeField_moment hsearchable, h.epochSeconds_eq]

theorem EitherMoment.fst_eq (he : EitherMoment name m m' e e') : e.1 = e'.1 := by
  cases he <;> rfl

/-- Fields that differ in moments of one instant are written alike. -/
theorem writeFields_eq_of_eitherMoment {fields fields' : List (String × Value)}
    (hfields : List.Forall₂ (EitherMoment name m m') fields fields') (h : m.SameInstant m')
    (hsearchable : type.isSearchable = true) (check : Check) :
    writeFields check type (fieldWriters c fields) =
      writeFields check type (fieldWriters c fields') := by
  induction hfields with
  | nil => rfl
  | cons he _ ih =>
    rw [writeFields_cons, writeFields_cons, ih, he.fst_eq]
    simp only [he.writeField_eq h hsearchable]

namespace Differs

/-- Records that differ in moments of one instant have one document. -/
theorem toJson?_eq (hr : r.Differs name m m' r') (h : m.SameInstant m')
    (found : c.find? r.model = some type) (hsearchable : type.isSearchable = true) :
    Record.toJson? c r.model r.fields = Record.toJson? c r'.model r'.fields := by
  rw [← hr.model, Record.toJson?, Record.toJson?, found, Option.bind_eq_bind, Option.bind_some,
    Option.bind_some, writeFields_eq_of_eitherMoment hr.fields h hsearchable]

theorem get?_eq (hr : r.Differs name m m' r') {other : String} (hother : other ≠ name) :
    r.get? other = r'.get? other := by
  have hfields := hr.fields
  rw [get?, get?]
  generalize r.fields = fields, r'.fields = fields' at hfields
  induction hfields with
  | nil => rfl
  | cons he _ ih =>
    cases he with
    | same e =>
      rw [List.find?_cons, List.find?_cons]
      split
      · rfl
      · exact ih
    | moment =>
      have hne : decide (name = other) = false := decide_eq_false hother.symm
      rw [List.find?_cons_of_neg (by simpa using hne), List.find?_cons_of_neg (by simpa using hne)]
      exact ih

/-- Records that differ in a moment have one primary key, unless the moment is that key. -/
theorem primaryKey_eq (hr : r.Differs name m m' r') (hkey : type.primaryKeyField ≠ name) :
    r.primaryKey type = r'.primaryKey type := by
  rw [primaryKey, primaryKey, hr.get?_eq hkey]

end Differs

/-- The document of a searchable record has the number of seconds to a moment that the record
has. -/
theorem exists_member_of_moment (found : c.find? r.model = some type)
    (hsearchable : type.isSearchable = true) (names : (type.fields.map Field.name).Nodup)
    (hf : f ∈ type.fields) (holds : (f.name, .moment m) ∈ r.fields) {document : Json}
    (h : Record.toJson? c r.model r.fields = some document) :
    ∃ members, document = .object members ∧ (f.writtenKey, .float m.epochSeconds) ∈ members := by
  rw [Record.toJson?, found, Option.bind_eq_bind, Option.bind_some] at h
  obtain ⟨members, hmembers, hdocument⟩ := Option.bind_eq_some_iff.mp h
  obtain ⟨j, hj, hmember⟩ := exists_member names hf holds hmembers
  rw [writeField_moment hsearchable] at hj
  cases hj
  cases hdocument
  exact ⟨members, rfl, hmember⟩

end IndexedRecords.Record
