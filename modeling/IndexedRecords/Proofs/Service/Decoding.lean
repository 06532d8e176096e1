import IndexedRecords.Proofs.Record.Faulting
import IndexedRecords.Proofs.Service.Searching

/-!
# Documents that cannot be decoded

A stored document that is no record of its type is reported as such, under its key. The documents
that break their type are the only ones that end with another fault: that of a part of a point or of
a decimal. What gets and finds stored records passes both on.

## Main statements

* `decodedUnless_breaks`: decoding, getting and finding, for any document.
* `isDecoded_of_noParts`: types without points and decimals.
-/

namespace IndexedRecords.Service

open Record

variable {α : Type} {c : Catalogue} {type : RecordType} {home : Home} {w : World} {s : Store}
  {model key p : String} {payload : Value}

/-- A payload is the text of a document that breaks its record type. -/
def BreaksPayload (c : Catalogue) (model : String) (payload : Value) : Prop :=
  ∃ cs document, documentText payload = .ok cs ∧ Json.read? cs = some document ∧
    Breaks ⟨c, .document⟩ (.record model) document

/-- There is a result, or a document under a key is reported to be no record of its type. -/
def IsDecoded (model key : String) (outcome : Except Fault α) : Prop :=
  (∃ a, outcome = .ok a) ∨ ∃ problems, outcome = .error (.undecodable model key problems)

/-- There is a result or such a report, except for some case, in which there is the fault of a part
of a point or of a decimal. -/
structure DecodedUnless (model key : String) (outcome : Except Fault α) (broken : Prop) : Prop where
  decoded : ¬ broken → IsDecoded model key outcome
  fault : broken → ∃ fault, IsPartFault fault ∧ outcome = .error (.value fault)

namespace DecodedUnless

variable {outcome : Except Fault α} {broken broken' : Prop}

/-- When something else than a record or a report comes out may be said in any equivalent way. -/
theorem congr (h : DecodedUnless model key outcome broken) (hbroken : broken ↔ broken') :
    DecodedUnless model key outcome broken' :=
  ⟨fun hkept => h.decoded (mt hbroken.mp hkept), fun hbreaks => h.fault (hbroken.mpr hbreaks)⟩

/-- What is made of a record that has been decoded comes out where the record does. -/
theorem map {β : Type} (h : DecodedUnless model key outcome broken) (f : α → β) :
    DecodedUnless model key (outcome.map f) broken where
  decoded hkept := by
    rcases h.decoded hkept with ⟨a, rfl⟩ | ⟨problems, rfl⟩
    · exact .inl ⟨f a, rfl⟩
    · exact .inr ⟨problems, rfl⟩
  fault hbreaks := by
    obtain ⟨fault, hpart, rfl⟩ := h.fault hbreaks
    exact ⟨fault, hpart, rfl⟩

/-- The case is the only one without a result or a report. -/
theorem isDecoded_iff (h : DecodedUnless model key outcome broken) :
    IsDecoded model key outcome ↔ ¬ broken := by
  refine ⟨fun hdecoded hbreaks => ?_, h.decoded⟩
  obtain ⟨fault, -, rfl⟩ := h.fault hbreaks
  simp [IsDecoded] at hdecoded

end DecodedUnless

/-! ### Readings -/

/-- What comes of the reading of a document under a key. -/
def judged (model key : String) : Except Rejection α → Except Fault α
  | .ok a => .ok a
  | .error (.problems problems) => .error (.undecodable model key problems)
  | .error (.fault fault) => .error (.value fault)

/-- A document is decoded unless the reading of it ends with a fault. -/
theorem decodedUnless_judged {r : Reading α} {broken : Prop} (h : FaultsIff r broken)
    (p : Progress) : DecodedUnless model key (judged model key (r p).1) broken where
  decoded hkept := by
    have hfault := mt (h.iff p).mp hkept
    rcases hread : (r p).1 with (problems | fault) | a
    · exact .inr ⟨problems, rfl⟩
    · exact absurd ⟨fault, hread⟩ hfault
    · exact .inl ⟨a, rfl⟩
  fault hbreaks := by
    obtain ⟨fault, hfault⟩ := (h.iff p).mpr hbreaks
    exact ⟨fault, h.isPartFault p fault hfault, by rw [hfault]; rfl⟩

theorem documentText_ne_fault (payload : Value) (fault : ValueFault) :
    documentText payload ≠ .error (.fault fault) := by
  unfold documentText
  split
  · exact nofun
  · split <;> exact nofun
  · exact nofun

/-- The reading of a payload ends with a fault exactly where the payload breaks the type. -/
theorem faultsIff_ofDocument (c : Catalogue) (model : String) (payload : Value) :
    FaultsIff (ofDocument c model payload) (BreaksPayload c model payload) := by
  unfold ofDocument BreaksPayload
  cases htext : documentText payload with
  | error e =>
    refine (FaultsIff.never fun p fault hfault => ?_).congr (by simp)
    obtain rfl : e = .fault fault := Except.error.inj hfault
    exact documentText_ne_fault payload fault htext
  | ok cs =>
    have hsettled : (Reading.settled (.ok cs) : Reading (List Char)) = pure cs := rfl
    rw [hsettled, pure_bind]
    cases hdocument : Json.read? cs with
    | none => exact (FaultsIff.problems _).congr (by simp [hdocument])
    | some document =>
      have horigin : (⟨c, .document⟩ : Context).origin ≠ .caller := nofun
      have hread := breaksIff_reader horigin document (.record model)
      exact hread.faults.congr (by simp [hdocument])

/-- What a document is decoded to depends on the world only through the identifiers that have been
made. -/
theorem decodeDocument_fst (c : Catalogue) (model key : String) (payload : Value) (w : World) :
    (decodeDocument c model key payload w).1 =
      judged model key (ofDocument c model payload (.start w.ids)).1 := by
  unfold decodeDocument reading
  rcases ofDocument c model payload (.start w.ids) with ⟨(_ | _) | _, p⟩ <;> rfl

theorem decoded_fst (c : Catalogue) (type : RecordType) (key payload : String) (ids : Nat) :
    (decoded c type key payload ids).1 =
      judged type.name key (ofDocument c type.name (.text payload) (.start ids)).1 := by
  unfold decoded
  rcases ofDocument c type.name (.text payload) (.start ids) with ⟨(_ | _) | _, p⟩ <;> rfl

/-! ### Stored documents -/

/-- A document is decoded, or reported to be no record, unless it breaks. -/
theorem decodedUnless_decodeDocument (c : Catalogue) (model key : String) (payload : Value)
    (w : World) :
    DecodedUnless model key (decodeDocument c model key payload w).1
      (BreaksPayload c model payload) := by
  rw [decodeDocument_fst]
  exact decodedUnless_judged (faultsIff_ofDocument c model payload) _

/-- **Types without points and decimals.** If no field of any record type has points or decimals,
then every document is decoded or reported to be no record. -/
theorem isDecoded_of_noParts (h : ∀ r ∈ c.types, ∀ f ∈ r.fields, ¬ f.shape.HoldsParts)
    (model key : String) (payload : Value) (w : World) :
    IsDecoded model key (decodeDocument c model key payload w).1 := by
  refine (decodedUnless_decodeDocument c model key payload w).decoded ?_
  rintro ⟨_, document, -, -, hbreaks⟩
  rcases holdsParts_of_breaks hbreaks with ⟨⟨⟩⟩ | ⟨r, hr, f, hf, hparts⟩
  exact h r hr f hf hparts

/-- A stored text is decoded, or reported to be no record, unless it breaks. -/
theorem decodedUnless_decoded (c : Catalogue) (type : RecordType) (key payload : String)
    (ids : Nat) : DecodedUnless type.name key (decoded c type key payload ids).1
      (BreaksPayload c type.name (.text payload)) := by
  rw [decoded_fst]
  exact decodedUnless_judged (faultsIff_ofDocument c type.name _) _

/-- What is got from a store is decoded unless the document under the key breaks its type. -/
theorem decodedUnless_fetched (c : Catalogue) (type : RecordType) (key : String) (ids : Nat)
    (stored : Option String) : DecodedUnless type.name key (fetched c type key ids stored).1
      (∃ payload, stored = some payload ∧ BreaksPayload c type.name (.text payload)) := by
  cases stored with
  | none => exact ⟨fun _ => .inl ⟨none, rfl⟩, by simp⟩
  | some payload => exact ((decodedUnless_decoded c type key payload ids).map some).congr (by simp)

/-! ### Several documents -/

/-- The first of several documents that is no record breaks its type. -/
def BreaksFirst (c : Catalogue) (type : RecordType) (p : String)
    (documents : List (String × String)) (ids : Nat) : Prop :=
  ∃ before e after records made, documents = before ++ e :: after ∧
    decodedAll c type p before ids = (.ok records, made) ∧
    BreaksPayload c type.name (.text e.2)

variable {e : String × String} {documents : List (String × String)} {ids : Nat}

theorem not_breaksFirst_nil : ¬ BreaksFirst c type p [] ids := by
  rintro ⟨before, e, after, _, _, hnil, -⟩
  simp at hnil

/-- The first of several documents to break is the first one of the list, or it comes after records
that were decoded. -/
theorem breaksFirst_cons : BreaksFirst c type p (e :: documents) ids ↔
    BreaksPayload c type.name (.text e.2) ∨
      ∃ record ids', decoded c type (keyOf p e.1) e.2 ids = (.ok record, ids') ∧
        BreaksFirst c type p documents ids' := by
  constructor
  · rintro ⟨before, e', after, records, made, hsplit, hbefore, hbreaks⟩
    rcases before with _ | ⟨e₀, before⟩
    · obtain ⟨rfl, -⟩ := List.cons.inj hsplit
      exact .inl hbreaks
    · obtain ⟨rfl, rfl⟩ := List.cons.inj hsplit
      obtain ⟨record, ids', rest, hrecord, hrest, -⟩ := decodedAll_cons_eq_ok_iff.mp hbefore
      exact .inr ⟨record, ids', hrecord, before, e', after, rest, made, rfl, hrest, hbreaks⟩
  · rintro (hbreaks | ⟨record, ids', hrecord, before, e', after, rest, made, rfl, hrest, hbreaks⟩)
    · exact ⟨[], e, documents, [], ids, rfl, rfl, hbreaks⟩
    · refine ⟨e :: before, e', after, record :: rest, made, rfl, ?_, hbreaks⟩
      exact decodedAll_cons_eq_ok_iff.mpr ⟨record, ids', rest, hrecord, hrest, rfl⟩

/-- Several documents are decoded unless the first of them that is no record breaks its type. -/
theorem exists_decodedUnless_decodedAll (c : Catalogue) (type : RecordType) (p : String)
    (documents : List (String × String)) (ids : Nat) :
    ∃ key, DecodedUnless type.name key (decodedAll c type p documents ids).1
      (BreaksFirst c type p documents ids) := by
  induction documents generalizing ids with
  | nil => exact ⟨"", fun _ => .inl ⟨[], rfl⟩, fun h => absurd h not_breaksFirst_nil⟩
  | cons e documents ih =>
    have hfirst := decodedUnless_decoded c type (keyOf p e.1) e.2 ids
    rw [decodedAll]
    rcases hdecoded : decoded c type (keyOf p e.1) e.2 ids with ⟨fault | record, made⟩
    · -- nothing after a document that is no record is decoded
      have hends : BreaksFirst c type p (e :: documents) ids ↔
          BreaksPayload c type.name (.text e.2) := by
        rw [breaksFirst_cons, hdecoded, or_iff_left]
        rintro ⟨_, _, ⟨⟩, _⟩
      rw [hdecoded] at hfirst
      refine ⟨keyOf p e.1, DecodedUnless.congr ⟨fun hkept => ?_, fun hbreaks => ?_⟩ hends.symm⟩
      · rcases hfirst.decoded hkept with ⟨_, ⟨⟩⟩ | ⟨problems, hproblems⟩
        exact .inr ⟨problems, congrArg _ (Except.error.inj hproblems)⟩
      · obtain ⟨fault', hpart, hfault⟩ := hfirst.fault hbreaks
        exact ⟨fault', hpart, congrArg _ (Except.error.inj hfault)⟩
    · have hkept : ¬ BreaksPayload c type.name (.text e.2) :=
        hfirst.isDecoded_iff.mp (.inl ⟨record, by rw [hdecoded]⟩)
      have hrest : BreaksFirst c type p (e :: documents) ids ↔
          BreaksFirst c type p documents made := by
        rw [breaksFirst_cons, hdecoded, or_iff_right hkept]
        simp
      obtain ⟨key, hall⟩ := ih made
      exact ⟨key, (hall.map (record :: ·)).congr hrest.symm⟩

/-! ### Services -/

/-- Towers at points. -/
def skyline : Catalogue :=
  Catalogue.bases.declare ⟨"Tower", "JsonModel", none, none, [plainField "at" (.scalar .point)]⟩

/-- The document of a tower whose point is given by two parts. -/
def towerDocument (id : String) (longitude latitude : Json) : Json :=
  .object [("id", .text id), ("at", .array [longitude, latitude])]

/-- The text of a document in which a point has null in the place of a number. -/
def brokenTower : Value := .text (String.ofList (towerDocument "a" .null (.int 1)).write)

theorem readable_towerDocument (id : String) {longitude latitude : Json}
    (hlongitude : longitude.Readable) (hlatitude : latitude.Readable) :
    (towerDocument id longitude latitude).Readable := by
  refine .object (show ["id", "at"].Nodup by decide) ?_
  simp only [List.forall_mem_cons]
  refine ⟨.text id, .array ?_, nofun⟩
  simp only [List.forall_mem_cons]
  exact ⟨hlongitude, hlatitude, nofun⟩

/-- The text of a document breaks a type if the document does. -/
theorem breaksPayload_write_iff {document : Json} (hreadable : document.Readable)
    (hnesting : document.nesting ≤ Json.nestingLimit) :
    BreaksPayload c model (.text (String.ofList document.write)) ↔
      Breaks ⟨c, .document⟩ (.record model) document := by
  have htext : documentText (.text (String.ofList document.write)) = .ok document.write :=
    congrArg Except.ok String.toList_ofList
  rw [BreaksPayload, htext]
  constructor
  · rintro ⟨cs, document', hcs, hread, hbreaks⟩
    obtain rfl := Except.ok.inj hcs
    rw [Json.read?_write hreadable hnesting] at hread
    obtain rfl := Option.some.inj hread
    exact hbreaks
  · exact fun hbreaks => ⟨_, document, rfl, Json.read?_write hreadable hnesting, hbreaks⟩

/-- Whether a tower breaks its type is seen from its point. -/
theorem breaks_tower_iff {id : String} {longitude latitude : Json} :
    Breaks ⟨skyline, .document⟩ (.record "Tower") (towerDocument id longitude latitude) ↔
      BreaksPoint (.array [longitude, latitude]) := by
  rw [breaks_record_iff]
  constructor
  · rintro ⟨r, hr, f, hf, m, hm, -, hbreaks⟩
    obtain rfl : skyline.types[3] = r := Option.some.inj hr
    rcases List.mem_cons.mp hf with rfl | hf
    · exact absurd hbreaks (not_breaks_of_isAtomic rfl)
    · obtain rfl := List.mem_singleton.mp hf
      obtain rfl : ("at", Json.array [longitude, latitude]) = m := Option.some.inj hm
      exact breaks_point_iff.mp hbreaks
  · intro hbreaks
    exact ⟨skyline.types[3], rfl, plainField "at" (.scalar .point),
      List.mem_cons_of_mem _ List.mem_cons_self, ("at", .array [longitude, latitude]), rfl, rfl,
      .point hbreaks⟩

theorem breaksPayload_brokenTower : BreaksPayload skyline "Tower" brokenTower := by
  have hreadable := readable_towerDocument "a" .null (.int (n := 1) (by decide))
  rw [brokenTower, breaksPayload_write_iff hreadable (by decide), breaks_tower_iff]
  exact .first .null

/-- Two towers, of which the first one cannot be read. -/
def city : Store where
  documents := [("tower:a", String.ofList (towerDocument "a" .null (.int 1)).write),
    ("tower:b", String.ofList (towerDocument "b" (.text "1") (.text "2")).write)]
  indexes := [("idx:Tower", ⟨"tower:", []⟩)]
  failures := []
  closed := false

end IndexedRecords.Service
