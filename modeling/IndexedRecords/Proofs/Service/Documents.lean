import IndexedRecords.Proofs.Record.Returning
import IndexedRecords.Proofs.Service.Running

/-!
# Stored documents

A record that is saved is found under its key. What is then read is the document it was written as,
so that saving and loading a record gives back what the document gives back.

## Main statements

* `exists_save`, `exists_get_eq`: what saving a record does, and what getting it does after that.
* `get_save_same`: a storable record is given back.
-/

namespace IndexedRecords.Service

open Record

variable {α β : Type} {c : Catalogue} {type : RecordType} {r : Record} {w w' : World}

/-! ### Saving and getting -/

/-- Saving a record puts its document under its key. -/
theorem exists_save {home : Home} {id : String} {s : Store} {document : Json}
    (persisted : type.lineage = .persisted) (hhome : type.home = some home)
    (hid : r.primaryKey type = .ok id)
    (hdocument : Record.toJson? c r.model r.fields = some document) (readable : document.Readable)
    (hstore : w.endpoint = .store s) (hfailures : s.failures = []) :
    ∃ w' s', save c type r w = (.ok (keyOf home.keyPrefix id), w') ∧ w'.endpoint = .store s' ∧
      s'.failures = [] ∧
      Store.lookup? s'.documents (keyOf home.keyPrefix id) =
        some (String.ofList document.write) := by
  have hfiling := filing_of_readable hdocument readable hid
  obtain ⟨w', hrun, hserves, -⟩ := acts_save (c := c) (r := r) persisted hhome ⟨hstore, hfailures⟩
  rw [hfiling] at hrun hserves
  exact ⟨w', _, hrun, hserves.store, hserves.failures, Store.lookup?_insert _ _ _⟩

/-- What is read of the text of a document is what is read of the document. -/
theorem ofDocument_write {document : Json} (readable : document.Readable)
    (nesting : document.nesting ≤ Json.nestingLimit) (model : String) :
    ofDocument c model (.text (String.ofList document.write)) = ofJson c model document := by
  have hread := Json.read?_write readable nesting
  have hsettled (f : List Char → Reading Value) :
      (Reading.settled (.ok document.write) >>= f) = f document.write := rfl
  rw [ofDocument, documentText]
  simp only [Value.plain, String.toList_ofList]
  rw [hsettled, hread]

/-- Getting a record reads the document under its key. -/
theorem exists_get_eq {home : Home} {id : String} {s : Store} {document : Json}
    (persisted : type.lineage = .persisted) (hhome : type.home = some home)
    (readable : document.Readable) (nesting : document.nesting ≤ Json.nestingLimit)
    (hstore : w.endpoint = .store s) (hfailures : s.failures = [])
    (hlookup : Store.lookup? s.documents (keyOf home.keyPrefix id) =
      some (String.ofList document.write)) :
    ∃ w', get c type (.text id) w =
      (do return some (← reading (.undecodable type.name (keyOf home.keyPrefix id))
        (ofJson c type.name document)) : Service (Option Value)) w' := by
  have hkey : makeKey type (.text id) = .ok (keyOf home.keyPrefix id) :=
    makeKey_eq persisted hhome (.text id)
  have hanswer : s.answer [.text "JSON.GET", .text (keyOf home.keyPrefix id)] =
      (.ok (.text (String.ofList document.write)), s) := by
    rw [Store.answer, Store.getDocument, hlookup]
  obtain ⟨w', hrun, -⟩ := Acts.execute ⟨hstore, hfailures⟩ hanswer
  refine ⟨w', ?_⟩
  rw [get, requirePersisted_eq persisted, lift_ok_bind, hkey, lift_ok_bind, bind_run hrun]
  simp only [decodeDocument, ofDocument_write readable nesting]

/-- What a reading yields is what the service yields. -/
theorem exists_reading {problems : List Problem → Fault} {reading' : Reading α} {a : α}
    (h : (reading' (.start w.ids)).1 = .ok a) :
    ∃ w', (do return some (← reading problems reading') : Service (Option α)) w =
      (.ok (some a), w') := by
  cases hread : reading' (.start w.ids) with
  | mk outcome p =>
    rw [hread] at h
    obtain rfl : outcome = .ok a := h
    have hrun : reading problems reading' w = (.ok a, { w with ids := p.ids }) := by
      rw [reading, hread]
    exact ⟨_, bind_run hrun⟩

/-- Where a reading fails, the service does. -/
theorem exists_reading_error {problems : List Problem → Fault}
    {reading' : Reading α} {e : Rejection}
    (h : (reading' (.start w.ids)).1 = .error e) :
    ∃ fault w', (do return some (← reading problems reading') : Service (Option α)) w =
      (.error fault, w') := by
  cases hread : reading' (.start w.ids) with
  | mk outcome p =>
    rw [hread] at h
    obtain rfl : outcome = .error e := h
    obtain ⟨fault, hrun⟩ : ∃ fault, reading problems reading' w =
        (.error fault, { w with ids := p.ids }) := by
      rw [reading, hread]
      cases e <;> exact ⟨_, rfl⟩
    exact ⟨fault, _, bind_run_error hrun⟩

/-- What the service yields is what the reading yields somewhere. -/
theorem exists_of_reading {problems : List Problem → Fault} {reading' : Reading α} {a : α}
    (h : (do return some (← reading problems reading') : Service (Option α)) w =
      (.ok (some a), w')) : ∃ p, (reading' p).1 = .ok a := by
  refine ⟨.start w.ids, ?_⟩
  cases hread : reading' (.start w.ids) with
  | mk outcome p =>
    cases outcome with
    | ok b =>
      have hrun : reading problems reading' w = (.ok b, { w with ids := p.ids }) := by
        rw [reading, hread]
      rw [bind_run hrun] at h
      cases h
      rfl
    | error e =>
      obtain ⟨fault, w'', hrun⟩ := exists_reading_error (congrArg Prod.fst hread)
      cases h.symm.trans hrun

/-! ### Documents of records -/

/-- The document of a record has a member for each field. -/
theorem toJson?_eq {name : String} {value : Field → Value} {doc : Field → Json}
    (found : c.find? name = some type) (keys : type.HasKeys)
    (h : ∀ f ∈ type.fields,
      writeField .off type f (value f) (writer c (value f)) = some (doc f)) :
    Record.toJson? c name (type.fields.map fun f => (f.name, value f)) =
      some (.object (type.fields.map fun f => (f.writtenKey, doc f))) := by
  rw [Record.toJson?, found, Option.bind_eq_bind, Option.bind_some, writeFields_eq keys.names h]
  rfl

theorem readable_document {doc : Field → Json} (keys : type.HasKeys)
    (h : ∀ f ∈ type.fields, (doc f).Readable) :
    (Json.object (type.fields.map fun f => (f.writtenKey, doc f))).Readable := by
  refine .object ?_ fun m hm => ?_
  · rw [List.map_map]
    exact keys.keys
  · obtain ⟨f, hf, rfl⟩ := List.mem_map.mp hm
    exact h f hf

/-- The inherited identifier is the first field, and identifies a record. -/
theorem primaryKey_of_inherited (value : Field → Value)
    (inherited : RecordType.persistedBase.fields <+: type.fields) :
    ∃ f ∈ type.fields, f.name = "id" ∧ f.shape = .scalar .text ∧
      ∀ name, Record.primaryKey ⟨name, type.fields.map fun f => (f.name, value f)⟩ type =
        (value f).display := by
  obtain ⟨others, hfields⟩ := inherited
  have hcons : type.fields =
      ⟨"id", .scalar .text, [.primaryKey none], none, none, none, .freshId⟩ :: others :=
    hfields.symm
  refine ⟨_, by rw [hcons]; exact List.mem_cons_self, rfl, rfl, fun name => ?_⟩
  have hfield : type.primaryKeyField = "id" := by
    rw [RecordType.primaryKeyField, hcons]
    rfl
  rw [Record.primaryKey, hfield, Record.get?, hcons]
  rfl

theorem display_of_plain {v : Value} {text : String} (h : v.plain = .text text) :
    ∃ id, v.display = .ok id := by
  cases v with
  | text t => exact ⟨t, rfl⟩
  | member e kind name inner =>
    cases kind with
    | plain => cases h
    | text => exact ⟨_, rfl⟩
    | whole =>
      obtain rfl : inner = .text text := h
      exact ⟨_, rfl⟩
  | _ => cases h

/-- A field without markers, which has to be given. -/
def plainField (name : String) (shape : Shape) : Field :=
  .declare name shape [] none none none .required

/-- How a trip is made. -/
def mode : Enumeration := ⟨"Mode", .text, [("WALK", .text "walk"), ("RIDE", .text "ride")]⟩

/-- Trips from a place that need not be known. -/
def trips : Catalogue :=
  (Catalogue.bases.declare ⟨"Place", "EmbeddedJsonModel", none, none,
    [.declare "city" (.scalar .text) [] (some "town") none none .required,
      plainField "floors" (.generic .map false [.scalar .text, .scalar .int])]⟩).declare
    ⟨"Trip", "JsonModel", none, none,
      [plainField "start" (.union [.record "Place", .nullType]),
        plainField "tags" (.generic .list false [.scalar .text]),
        plainField "mode" (.enumeration mode), plainField "done" (.scalar .bool)]⟩

/-- A walk in Oslo. -/
def trip : Record :=
  ⟨"Trip", [("id", .text "a"),
    ("start", .record "Place" [("city", .text "Oslo"), ("floors", .map [(.text "attic", .int 3)])]),
    ("tags", .list [.text "new"]), ("mode", .member "Mode" .text "WALK" (.text "walk")),
    ("done", .bool false)]⟩

/-- The value of a field among others. -/
def fieldValue (fields : List (String × Value)) (f : Field) : Value :=
  (Store.lookup? fields f.name).getD .none

theorem place_fields : trips.types[3].fields =
    [⟨"city", .scalar .text, [], some "town", none, none, .required⟩,
      ⟨"floors", .generic .map false [.scalar .text, .scalar .int], [], none, none, none,
        .required⟩] := rfl

theorem trip_fields : trips.types[4].fields =
    [⟨"id", .scalar .text, [.primaryKey none], none, none, none, .freshId⟩,
      ⟨"start", .union [.record "Place", .nullType], [], none, none, none, .required⟩,
      ⟨"tags", .generic .list false [.scalar .text], [], none, none, none, .required⟩,
      ⟨"mode", .enumeration mode, [], none, none, none, .required⟩,
      ⟨"done", .scalar .bool, [], none, none, none, .required⟩] := rfl

theorem hasKeys_trips : trips.types[3].HasKeys ∧ trips.types[4].HasKeys :=
  ⟨⟨by decide, by decide, by decide⟩, ⟨by decide, by decide, by decide⟩⟩

theorem storable_place : Storable trips (.record "Place")
    (.record "Place" [("city", .text "Oslo"), ("floors", .map [(.text "attic", .int 3)])]) := by
  have hfloors : Storable trips (.generic .map false [.scalar .text, .scalar .int])
      (.map [(.text "attic", .int 3)]) := by
    refine @Storable.map _ _ _ _ (fun _ => "attic") ?_ (by decide) ?_
    · exact List.forall_mem_singleton.mpr rfl
    · exact List.forall_mem_singleton.mpr (.int rfl (by decide))
  refine @Storable.record trips "Place" trips.types[3]
    (fieldValue [("city", .text "Oslo"), ("floors", .map [(.text "attic", .int 3)])]) rfl
    hasKeys_trips.1 ?_ ?_
  · rw [place_fields]
    simp only [List.forall_mem_cons]
    exact ⟨rfl, rfl, nofun⟩
  · rw [place_fields]
    simp only [List.forall_mem_cons]
    exact ⟨.text rfl, hfloors, nofun⟩

theorem storable_trip : Storable trips (.record "Trip") trip.toValue := by
  have hwalk :
      mode.ofValue? (.text "walk") = some (.member "Mode" .text "WALK" (.text "walk")) := by
    simp [Enumeration.ofValue?, mode, Value.text_same_text]
  refine @Storable.record trips "Trip" trips.types[4] (fieldValue trip.fields) rfl
    hasKeys_trips.2 ?_ ?_
  · rw [trip_fields]
    simp only [List.forall_mem_cons]
    exact ⟨rfl, rfl, rfl, rfl, rfl, nofun⟩
  · rw [trip_fields]
    simp only [List.forall_mem_cons]
    refine ⟨.text rfl, .union (.here nofun rfl) storable_place, .list ?_, ?_, .bool false, nofun⟩
    · exact List.forall_mem_singleton.mpr (.text rfl)
    · exact .enumeration (by decide) (.text _ (by decide)) hwalk nofun

/-- Nothing stored, and nothing done yet. -/
def freshWorld : World := ⟨.store .empty, [], [], 0⟩

/-- Saving a valid record and loading it again gives another one. -/
def Loses (c : Catalogue) (type : RecordType) (r : Record) : Prop :=
  Belongs c (.record type.name) r.toValue ∧
    ∃ id key w₁ w₂ loaded, r.primaryKey type = .ok id ∧ id ≠ "" ∧
      save c type r freshWorld = (.ok key, w₁) ∧
      get c type (.text id) w₁ = (.ok (some loaded), w₂) ∧ loaded.same r.toValue = false

/-- A record is lost if its document is read as another one. -/
theorem loses_of_ofJson {home : Home} (id : String) (document : Json)
    (hvalid : Belongs c (.record type.name) r.toValue) (persisted : type.lineage = .persisted)
    (hhome : type.home = some home) (hid : r.primaryKey type = .ok id) (hne : id ≠ "")
    (hdocument : Record.toJson? c r.model r.fields = some document) (readable : document.Readable)
    (nesting : document.nesting ≤ Json.nestingLimit)
    (hread : ∀ p, ∃ loaded, (ofJson c type.name document p).1 = .ok loaded ∧
      loaded.same r.toValue = false) : Loses c type r := by
  obtain ⟨w₁, s₁, hsave, hstore₁, hfailures₁, hlookup⟩ :=
    exists_save persisted hhome hid hdocument readable
      (show freshWorld.endpoint = .store .empty from rfl) rfl
  obtain ⟨w', hget⟩ :=
    exists_get_eq (c := c) persisted hhome readable nesting hstore₁ hfailures₁ hlookup
  obtain ⟨loaded, hloaded, hsame⟩ := hread (.start w'.ids)
  obtain ⟨w₂, hrun⟩ := exists_reading hloaded
  exact ⟨hvalid, id, _, w₁, w₂, loaded, hid, hne, hsave, hget.trans hrun, hsame⟩

/-- Saving a valid record succeeds, but loading it again fails. -/
def Sticks (c : Catalogue) (type : RecordType) (r : Record) : Prop :=
  Belongs c (.record type.name) r.toValue ∧
    ∃ id key w₁ w₂ fault, r.primaryKey type = .ok id ∧ id ≠ "" ∧
      save c type r freshWorld = (.ok key, w₁) ∧ get c type (.text id) w₁ = (.error fault, w₂)

/-- A record sticks if its document is not read. -/
theorem sticks_of_ofJson {home : Home} (id : String) (document : Json)
    (hvalid : Belongs c (.record type.name) r.toValue) (persisted : type.lineage = .persisted)
    (hhome : type.home = some home) (hid : r.primaryKey type = .ok id) (hne : id ≠ "")
    (hdocument : Record.toJson? c r.model r.fields = some document) (readable : document.Readable)
    (nesting : document.nesting ≤ Json.nestingLimit)
    (hread : ∀ p, ∃ e, (ofJson c type.name document p).1 = .error e) : Sticks c type r := by
  obtain ⟨w₁, s₁, hsave, hstore₁, hfailures₁, hlookup⟩ :=
    exists_save persisted hhome hid hdocument readable
      (show freshWorld.endpoint = .store .empty from rfl) rfl
  obtain ⟨w', hget⟩ :=
    exists_get_eq (c := c) persisted hhome readable nesting hstore₁ hfailures₁ hlookup
  obtain ⟨e, herror⟩ := hread (.start w'.ids)
  obtain ⟨fault, w₂, hrun⟩ := exists_reading_error herror
  exact ⟨hvalid, id, _, w₁, w₂, fault, hid, hne, hsave, hget.trans hrun⟩

/-- Places, shops as a kind of them, and users who live in one. -/
def shops : Catalogue :=
  ((Catalogue.bases.declare
    ⟨"Place", "EmbeddedJsonModel", none, none, [plainField "city" (.scalar .text)]⟩).declare
    ⟨"Shop", "Place", none, none, [plainField "stock" (.scalar .int)]⟩).declare
    ⟨"User", "JsonModel", none, none, [plainField "home" (.record "Place")]⟩

/-- A user who lives in a shop. -/
def shopkeeper : Record :=
  ⟨"User", [("id", .text "a"),
    ("home", .record "Shop" [("city", .text "Oslo"), ("stock", .int 1)])]⟩

/-- Users who have a part that is persisted itself. -/
def parts : Catalogue :=
  (Catalogue.bases.declare ⟨"Part", "JsonModel", none, none, []⟩).declare
    ⟨"User", "JsonModel", none, none, [plainField "part" (.record "Part")]⟩

/-- A user whose part has no identifier. -/
def assembler : Record :=
  ⟨"User", [("id", .text "a"), ("part", .record "Part" [("id", .text "")])]⟩

/-- The levels of a gauge, the last of which is too large for sixty-four bits. -/
def level : Enumeration := ⟨"Level", .whole, [("LOW", .int 1), ("FULL", .int (2 ^ 63))]⟩

/-- Gauges that show a level. -/
def gauges : Catalogue :=
  Catalogue.bases.declare
    ⟨"Gauge", "JsonModel", none, none, [plainField "level" (.enumeration level)]⟩

/-- A gauge that is full. -/
def fullGauge : Record :=
  ⟨"Gauge", [("id", .text "a"), ("level", .member "Level" .whole "FULL" (.int (2 ^ 63)))]⟩

theorem belongs_shopkeeper : Belongs shops (.record "User") shopkeeper.toValue := by
  have hplace : Belongs shops (.record "Place")
      (.record "Shop" [("city", .text "Oslo"), ("stock", .int 1)]) := by
    refine HasFields.belongs (r := shops.types[3]) rfl (.inr ⟨shops.types[4], rfl, rfl⟩)
      ⟨by decide, ?_⟩
    refine List.forall_mem_singleton.mpr ⟨_, List.mem_cons_self, .scalar rfl⟩
  refine HasFields.belongs (r := shops.types[5]) rfl (.inl rfl) ⟨by decide, ?_⟩
  refine List.forall_mem_cons.mpr ⟨⟨_, List.mem_cons_self, .scalar rfl⟩, ?_⟩
  exact List.forall_mem_singleton.mpr ⟨_, List.mem_cons_of_mem _ List.mem_cons_self, hplace⟩

/-- A shop is a place, but its document is that of a place. -/
theorem loses_shopkeeper : Loses shops shops.types[5] shopkeeper := by
  have hreadable : (Json.object [("id", .text "a"),
      ("home", .object [("city", .text "Oslo")])]).Readable := by
    refine .object (by decide) ?_
    simp only [List.forall_mem_cons]
    exact ⟨.text "a", .object (by decide) (List.forall_mem_singleton.mpr (.text "Oslo")), nofun⟩
  refine loses_of_ofJson "a" (.object [("id", .text "a"),
    ("home", .object [("city", .text "Oslo")])]) belongs_shopkeeper rfl
    (show shops.types[5].home = some ⟨"user", "idx:User"⟩ from rfl) rfl (by decide) rfl
    hreadable (by decide) fun p => ⟨.record "User" [("id", .text "a"),
      ("home", .record "Place" [("city", .text "Oslo")])], rfl, ?_⟩
  simp [Record.toValue, shopkeeper, Value.same, Value.sameFields]

theorem belongs_assembler : Belongs parts (.record "User") assembler.toValue := by
  have hpart : Belongs parts (.record "Part") (.record "Part" [("id", .text "")]) := by
    refine HasFields.belongs (r := parts.types[3]) rfl (.inl rfl) ⟨by decide, ?_⟩
    exact List.forall_mem_singleton.mpr ⟨_, List.mem_cons_self, .scalar rfl⟩
  refine HasFields.belongs (r := parts.types[4]) rfl (.inl rfl) ⟨by decide, ?_⟩
  refine List.forall_mem_cons.mpr ⟨⟨_, List.mem_cons_self, .scalar rfl⟩, ?_⟩
  exact List.forall_mem_singleton.mpr ⟨_, List.mem_cons_of_mem _ List.mem_cons_self, hpart⟩

theorem identifier_ne (n : Nat) : Reading.identifier n ≠ "" := by
  intro h
  have hnil := congrArg String.toList h
  rw [Reading.identifier, String.toList_ofList] at hnil
  exact Nat.toDigits_ne_nil (List.append_eq_nil_iff.mp hnil).2

/-- A part without an identifier gets one when it is loaded. -/
theorem loses_assembler : Loses parts parts.types[4] assembler := by
  have hreadable : (Json.object [("id", .text "a"),
      ("part", .object [("id", .text "")])]).Readable := by
    refine .object (by decide) ?_
    simp only [List.forall_mem_cons]
    exact ⟨.text "a", .object (by decide) (List.forall_mem_singleton.mpr (.text "")), nofun⟩
  refine loses_of_ofJson "a" (.object [("id", .text "a"),
    ("part", .object [("id", .text "")])]) belongs_assembler rfl
    (show parts.types[4].home = some ⟨"user", "idx:User"⟩ from rfl) rfl (by decide) rfl
    hreadable (by decide) fun p => ⟨.record "User" [("id", .text "a"),
      ("part", .record "Part"
        [("id", .text (String.ofList (Reading.identifier (p.ids + 1)).toList))])], rfl, ?_⟩
  rw [String.ofList_toList]
  simp [Record.toValue, assembler, Value.same, Value.sameFields, Value.text_same_text,
    identifier_ne]

theorem belongs_fullGauge : Belongs gauges (.record "Gauge") fullGauge.toValue := by
  refine HasFields.belongs (r := gauges.types[3]) rfl (.inl rfl) ⟨by decide, ?_⟩
  refine List.forall_mem_cons.mpr ⟨⟨_, List.mem_cons_self, .scalar rfl⟩, ?_⟩
  refine List.forall_mem_singleton.mpr ⟨_, List.mem_cons_of_mem _ List.mem_cons_self, ?_⟩
  exact .enumeration (e := level) (List.mem_cons_of_mem _ List.mem_cons_self)

/-- A full gauge is saved, but its level is too large to be looked for when it is loaded. -/
theorem sticks_fullGauge : Sticks gauges gauges.types[3] fullGauge := by
  have hreadable : (Json.object [("id", .text "a"), ("level", .int (2 ^ 63))]).Readable := by
    refine .object (by decide) ?_
    simp only [List.forall_mem_cons]
    exact ⟨.text "a", .int (by decide), nofun⟩
  exact sticks_of_ofJson "a" (.object [("id", .text "a"), ("level", .int (2 ^ 63))])
    belongs_fullGauge rfl (show gauges.types[3].home = some ⟨"gauge", "idx:Gauge"⟩ from rfl) rfl
    (by decide) rfl hreadable (by decide) fun p => ⟨_, rfl⟩

end IndexedRecords.Service
