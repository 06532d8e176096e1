import IndexedRecords.Proofs.Record.Times
import IndexedRecords.Proofs.Service.Documents

/-!
# Stored dates and moments

A record that is saved and loaded again has the same date in a field of dates, and the same instant
in a field of moments, exactly if it is not too far from 1970. Other fields may hold anything that
is loaded at all.

## Main statements

* `get_save_time_iff`: which dates and which moments on whole seconds are given back.
* `get_save_late_date`: a date that makes its record unreadable.
-/

namespace IndexedRecords.Service

open Record Traversal

variable {c : Catalogue} {type : RecordType} {r : Record} {w : World} {f : Field} {s : Scalar}
  {v t : Value} {n : Int}

/-- The value of a field is written as a document that is loaded as some value of the field. -/
structure Loads (c : Catalogue) (type : RecordType) (f : Field) (v : Value) (j : Json) : Prop where
  written : writeField .off type f v (writer c v) = some j
  readable : j.Readable
  known : asksForId type f (valueOfJson j) = false
  read : ∃ w, Yields (reader ⟨c, .document⟩ (valueOfJson j) f.shape) w

/-! ### One field -/

/-- A storable value is loaded. -/
theorem exists_loads_of_storable (h : Storable c f.shape v)
    (known : asksForId type f v.payload = false) : ∃ j, Loads c type f v j := by
  obtain ⟨j, w, hreturns⟩ := h.returns
  exact ⟨j, (writeField_eq h.temporalJson?_eq_none).trans hreturns.written, hreturns.readable,
    asksForId_valueOfJson hreturns known, w, hreturns.read⟩

/-- A searchable record writes a date or a moment as its number of seconds. -/
theorem writeField_of_isTime (hsearchable : type.isSearchable = true) (h : IsTime s v n) :
    writeField .off type f v (writer c v) = some (jsonOfSeconds s n) := by
  rw [writeField, if_pos hsearchable, h.temporalJson?_eq]

/-- A number of seconds is no identifier. -/
theorem asksForId_jsonOfSeconds (s : Scalar) (n : Int) :
    asksForId type f (valueOfJson (jsonOfSeconds s n)) = false := by
  cases s <;> exact Bool.and_false _

/-- A number of seconds is read as the kind under the layers of a shape. -/
theorem settles_jsonOfSeconds (hshape : f.shape.unwrap = .scalar s) (n : Int) :
    Settles (reader ⟨c, .document⟩ (valueOfJson (jsonOfSeconds s n)) f.shape)
      (s.read .document (valueOfJson (jsonOfSeconds s n))) := by
  have hne : valueOfJson (jsonOfSeconds s n) ≠ .none := by
    cases s <;> nofun
  have hscalar := settles_scalar ⟨c, .document⟩ (valueOfJson (jsonOfSeconds s n)) s
  rw [reader_eq] at hscalar ⊢
  rw [readAs_unwrap (by rwa [viewOf_value]) f.shape.unwraps, hshape]
  exact hscalar

/-- A moment that gets an offset stays at its instant. -/
theorem sameTime_keptValue_iff : SameTime v (keptValue type t) ↔ SameTime v t := by
  cases t with
  | moment m =>
    have hinstant : m.assumeUniversal.epochMicroseconds = m.epochMicroseconds := by
      obtain ⟨date, time, _ | offset⟩ := m <;> rfl
    rw [keptValue]
    split
    · constructor
      · rintro (_ | ⟨instant⟩)
        exact .moment (instant.trans hinstant)
      · rintro (_ | ⟨instant⟩)
        exact .moment (instant.trans hinstant.symm)
    · rfl
  | _ => rfl

/-! ### Records -/

/-- What a field is loaded as, if the record is loaded at all. -/
theorem lookup?_of_ofJson {doc : Field → Json} {outcome : Except Rejection Value} {p : Progress}
    {fields : List (String × Value)} (found : c.find? type.name = some type) (keys : type.HasKeys)
    (hf : f ∈ type.fields) (known : asksForId type f (valueOfJson (doc f)) = false)
    (hread : Settles (reader ⟨c, .document⟩ (valueOfJson (doc f)) f.shape) outcome)
    (h : (ofJson c type.name (.object (type.fields.map fun g => (g.writtenKey, doc g))) p).1 =
      .ok (.record type.name fields)) :
    ∃ t, outcome = .ok t ∧ Store.lookup? fields f.name = some (keptValue type t) := by
  rw [ofJson_object found, entriesOfJson_map] at h
  obtain ⟨fields', heq, hfields⟩ := forall₂_of_readFields h
  obtain rfl : fields = fields' := (Value.record.inj heq).2
  have hnames := map_fst_of_forall₂_readField hfields
  obtain ⟨e, he, q, hfield⟩ := exists_of_mem_left hfields hf
  rw [readField_eq keys hf known] at hfield
  cases outcome with
  | error rejection =>
    rw [(hread.under_error _).bind_error q] at hfield
    cases hfield
  | ok t =>
    rw [(hread.under _).bind (yields_pure (f.name, keptValue type t)) q] at hfield
    obtain rfl := Except.ok.inj hfield
    exact ⟨t, rfl, Store.lookup?_of_mem (by rw [hnames]; exact keys.names) he⟩

/-- If the other fields are loaded as some values, the record is loaded with what one field is. -/
theorem exists_yields_ofJson {doc : Field → Json} (found : c.find? type.name = some type)
    (keys : type.HasKeys) (hf : f ∈ type.fields)
    (known : ∀ g ∈ type.fields, asksForId type g (valueOfJson (doc g)) = false)
    (hothers : ∀ g ∈ type.fields, g ≠ f →
      ∃ w, Yields (reader ⟨c, .document⟩ (valueOfJson (doc g)) g.shape) w)
    (hread : Yields (reader ⟨c, .document⟩ (valueOfJson (doc f)) f.shape) t) :
    ∃ fields, Yields (ofJson c type.name (.object (type.fields.map fun g => (g.writtenKey, doc g))))
        (.record type.name fields) ∧
      Store.lookup? fields f.name = some (keptValue type t) := by
  have hall : ∀ g ∈ type.fields, ∃ w,
      Yields (reader ⟨c, .document⟩ (valueOfJson (doc g)) g.shape) w := by
    intro g hg
    by_cases hgf : g = f
    · exact ⟨t, hgf ▸ hread⟩
    · exact hothers g hg hgf
  -- what is read is chosen for all fields at once, and at this field it is what is given
  choose! read hall using hall
  have hreadf : read f = t :=
    Except.ok.inj ((hall f hf (.start 0)).symm.trans (hread (.start 0)))
  have hloaded := yields_fields found keys known hall
  rw [← entriesOfJson_map type.fields Field.writtenKey doc] at hloaded
  have hnames :
      ((type.fields.map fun g => (g.name, keptValue type (read g))).map Prod.fst).Nodup := by
    rw [List.map_map]
    exact keys.names
  refine ⟨_, hloaded, Store.lookup?_of_mem hnames (List.mem_map.mpr ⟨f, hf, ?_⟩)⟩
  rw [hreadf]

/-- What the fields of a record are written as, a time as its number of seconds. -/
theorem exists_documents {value : Field → Value} (hsearchable : type.isSearchable = true)
    (hf : f ∈ type.fields) (htime : IsTime s (value f) n)
    (others : ∀ g ∈ type.fields, g ≠ f → ∃ j, Loads c type g (value g) j) :
    ∃ doc : Field → Json, doc f = jsonOfSeconds s n ∧
      (∀ g ∈ type.fields, writeField .off type g (value g) (writer c (value g)) = some (doc g) ∧
        (doc g).Readable ∧ asksForId type g (valueOfJson (doc g)) = false) ∧
      ∀ g ∈ type.fields, g ≠ f →
        ∃ w, Yields (reader ⟨c, .document⟩ (valueOfJson (doc g)) g.shape) w := by
  have hdoc : ∀ g ∈ type.fields, ∃ j, (writeField .off type g (value g) (writer c (value g)) =
      some j ∧ j.Readable ∧ asksForId type g (valueOfJson j) = false) ∧
      (g ≠ f → ∃ w, Yields (reader ⟨c, .document⟩ (valueOfJson j) g.shape) w) := by
    intro g hg
    by_cases hgf : g = f
    · subst hgf
      exact ⟨_, ⟨writeField_of_isTime hsearchable htime, htime.readable,
        asksForId_jsonOfSeconds s n⟩, fun hne => absurd rfl hne⟩
    · obtain ⟨j, hj⟩ := others g hg hgf
      exact ⟨j, ⟨hj.written, hj.readable, hj.known⟩, fun _ => hj.read⟩
  choose! doc hwritten hread using hdoc
  have htold := (hwritten f hf).1.symm.trans (writeField_of_isTime hsearchable htime)
  exact ⟨doc, Option.some.inj htold, hwritten, hread⟩

/-- **Stored dates and moments.** A persisted record is saved and loaded again. What is loaded in
a field of dates or moments is the same date, or a moment of the same instant, exactly if there are
not more seconds to it from the start of 1970 than the threshold above which numbers are taken for
milliseconds. -/
theorem get_save_time_iff {home : Home} {store : Store} {value : Field → Value} {id : String}
    (found : c.find? r.model = some type) (persisted : type.lineage = .persisted)
    (hhome : type.home = some home) (keys : type.HasKeys)
    (hfields : r.fields = type.fields.map fun g => (g.name, value g))
    (hf : f ∈ type.fields) (hshape : f.shape.unwrap = .scalar s) (htime : IsTime s (value f) n)
    (others : ∀ g ∈ type.fields, g ≠ f → ∃ j, Loads c type g (value g) j)
    (hid : r.primaryKey type = .ok id)
    (nesting : ∀ document, Record.toJson? c r.model r.fields = some document →
      document.nesting ≤ Json.nestingLimit)
    (hstore : w.endpoint = .store store) (hfailures : store.failures = []) :
    ∃ key w₁, save c type r w = (.ok key, w₁) ∧
      ((∃ w₂ fields t, get c type (.text id) w₁ = (.ok (some (.record type.name fields)), w₂) ∧
          Store.lookup? fields f.name = some t ∧ SameTime (value f) t) ↔
        n.natAbs ≤ Moment.millisecondThreshold) := by
  obtain ⟨model, fields⟩ := r
  obtain rfl : fields = _ := hfields
  obtain rfl : type.name = model := name_of_find? found
  have hsearchable : type.isSearchable = true := by
    rw [RecordType.isSearchable, persisted]
    rfl
  obtain ⟨doc, hdocf, hwritten, hread⟩ := exists_documents hsearchable hf htime others
  have hknown : ∀ g ∈ type.fields, asksForId type g (valueOfJson (doc g)) = false :=
    fun g hg => (hwritten g hg).2.2
  have hreadf : Settles (reader ⟨c, .document⟩ (valueOfJson (doc f)) f.shape)
      (s.read .document (valueOfJson (jsonOfSeconds s n))) := by
    rw [hdocf]
    exact settles_jsonOfSeconds hshape n
  -- the record is saved, and its document is what is read
  have hdocument := toJson?_eq found keys fun g hg => (hwritten g hg).1
  have hreadable := readable_document keys fun g hg => (hwritten g hg).2.1
  obtain ⟨w₁, s₁, hsave, hstore₁, hfailures₁, hlookup⟩ :=
    exists_save persisted hhome hid hdocument hreadable hstore hfailures
  obtain ⟨w', hget⟩ := exists_get_eq (c := c) persisted hhome hreadable (nesting _ hdocument)
    hstore₁ hfailures₁ hlookup
  refine ⟨_, w₁, hsave, ?_⟩
  rw [← htime.exists_read_iff]
  constructor
  · rintro ⟨w₂, fields, t, hloaded, hfield, hsame⟩
    rw [hget] at hloaded
    obtain ⟨p, hloaded⟩ := exists_of_reading hloaded
    obtain ⟨t', houtcome, hlookup'⟩ := lookup?_of_ofJson found keys hf (hknown f hf) hreadf hloaded
    obtain rfl := Option.some.inj (hlookup'.symm.trans hfield)
    exact ⟨t', houtcome, sameTime_keptValue_iff.mp hsame⟩
  · rintro ⟨t, houtcome, hsame⟩
    rw [houtcome] at hreadf
    obtain ⟨fields, hloaded, hfield⟩ := exists_yields_ofJson found keys hf hknown hread hreadf
    obtain ⟨w₂, hrun⟩ := exists_reading (hloaded (.start w'.ids))
    exact ⟨w₂, fields, _, hget.trans hrun, hfield, sameTime_keptValue_iff.mpr hsame⟩

/-- Meetings, at a moment where one is fixed, and holidays on days. -/
def appointments : Catalogue :=
  (Catalogue.bases.declare ⟨"Meeting", "JsonModel", none, none,
    [plainField "title" (.scalar .text),
      plainField "start" (.union [.scalar .moment, .nullType])]⟩).declare
    ⟨"Holiday", "JsonModel", none, none, [plainField "day" (.scalar .date)]⟩

/-- Half past noon on the first of June 2024, two hours east of universal time. -/
def start : Moment := ⟨⟨2024, 6, 1⟩, ⟨12, 30, 0, 0⟩, some 7200⟩

/-- A meeting at a fixed moment. -/
def meeting : Record :=
  ⟨"Meeting", [("id", .text "a"), ("title", .text "plans"), ("start", .moment start)]⟩

theorem meeting_fields : appointments.types[3].fields =
    [⟨"id", .scalar .text, [.primaryKey none], none, none, none, .freshId⟩,
      plainField "title" (.scalar .text),
      plainField "start" (.union [.scalar .moment, .nullType])] := rfl

/-- What the fields of the meeting are written as. -/
def meetingDocument (f : Field) : Json :=
  match f.name with
  | "id" => .text "a"
  | "title" => .text "plans"
  | _ => jsonOfSeconds .moment 1717237800

theorem onSecond_start : start.OnSecond :=
  ⟨⟨by decide, by decide, by decide, by decide, by decide, by decide⟩,
    ⟨by decide, by decide, by decide, by decide⟩, rfl, by decide⟩

theorem get_save_time_iff_meeting :
    (appointments.types[3].HasKeys ∧ IsTime .moment (.moment start) 1717237800) ∧
    ∃ key w₁, save appointments appointments.types[3] meeting freshWorld = (.ok key, w₁) ∧
      ∃ w₂ fields t, get appointments appointments.types[3] (.text "a") w₁ =
        (.ok (some (.record "Meeting" fields)), w₂) ∧
        Store.lookup? fields "start" = some t ∧ SameTime (.moment start) t := by
  have keys : appointments.types[3].HasKeys := ⟨by decide, by decide, by decide⟩
  have htime : IsTime .moment (.moment start) 1717237800 := .moment onSecond_start
  have hothers : ∀ g ∈ appointments.types[3].fields,
      g ≠ plainField "start" (.union [.scalar .moment, .nullType]) →
      ∃ j, Loads appointments appointments.types[3] g (fieldValue meeting.fields g) j := by
    rw [meeting_fields]
    simp only [List.forall_mem_cons]
    exact ⟨fun _ => exists_loads_of_storable (.text rfl) rfl,
      fun _ => exists_loads_of_storable (.text rfl) rfl, fun hne => absurd rfl hne, nofun⟩
  have hnesting : ∀ document, Record.toJson? appointments meeting.model meeting.fields =
      some document → document.nesting ≤ Json.nestingLimit := by
    intro document hdocument
    have hwritten : ∀ g ∈ appointments.types[3].fields,
        writeField .off appointments.types[3] g (fieldValue meeting.fields g)
          (writer appointments (fieldValue meeting.fields g)) = some (meetingDocument g) := by
      rw [meeting_fields]
      simp only [List.forall_mem_cons]
      exact ⟨rfl, rfl, writeField_of_isTime rfl htime, nofun⟩
    have hknown := toJson?_eq
      (show appointments.find? "Meeting" = some appointments.types[3] from rfl) keys hwritten
    obtain rfl := Option.some.inj (hknown.symm.trans hdocument)
    exact Nat.le_of_ble_eq_true rfl
  have hfields : meeting.fields = appointments.types[3].fields.map fun g =>
      (g.name, fieldValue meeting.fields g) := rfl
  have hf : plainField "start" (.union [.scalar .moment, .nullType]) ∈
      appointments.types[3].fields := by
    rw [meeting_fields]
    simp
  obtain ⟨key, w₁, hsave, hiff⟩ := get_save_time_iff
    (show appointments.find? meeting.model = some appointments.types[3] from rfl) rfl
    (show appointments.types[3].home = some ⟨"meeting", "idx:Meeting"⟩ from rfl) keys hfields hf
    rfl htime hothers rfl hnesting (show freshWorld.endpoint = .store .empty from rfl) rfl
  exact ⟨⟨keys, htime⟩, key, w₁, hsave, hiff.mpr (by decide)⟩

/-! ### Times that are not given back -/

/-- A holiday on the first of January 3000. -/
def lateHoliday : Record := ⟨"Holiday", [("id", .text "a"), ("day", .date ⟨3000, 1, 1⟩)]⟩

theorem belongs_lateHoliday : Belongs appointments (.record "Holiday") lateHoliday.toValue := by
  refine HasFields.belongs (r := appointments.types[4]) rfl (.inl rfl) ⟨by decide, ?_⟩
  refine List.forall_mem_cons.mpr ⟨⟨_, List.mem_cons_self, .scalar rfl⟩, ?_⟩
  exact List.forall_mem_singleton.mpr ⟨_, List.mem_cons_of_mem _ List.mem_cons_self, .scalar rfl⟩

/-- A valid record with a date so late that its number of seconds is taken for milliseconds is
saved, but then it cannot be loaded. -/
theorem get_save_late_date : Belongs appointments (.record "Holiday") lateHoliday.toValue ∧
    ∃ key w₁, save appointments appointments.types[4] lateHoliday freshWorld = (.ok key, w₁) ∧
      ∀ w₂ loaded, get appointments appointments.types[4] (.text "a") w₁ ≠
        (.ok (some loaded), w₂) := by
  have hreadable : (Json.object [("id", .text "a"), ("day", .int 32503680000)]).Readable := by
    refine .object (by decide) ?_
    simp only [List.forall_mem_cons]
    exact ⟨.text "a", .int (by decide), nofun⟩
  have hdocument : Record.toJson? appointments lateHoliday.model lateHoliday.fields =
      some (.object [("id", .text "a"), ("day", .int 32503680000)]) := rfl
  have hpersisted : appointments.types[4].lineage = .persisted := rfl
  have hhome : appointments.types[4].home = some ⟨"holiday", "idx:Holiday"⟩ := rfl
  obtain ⟨w₁, s₁, hsave, hstore₁, hfailures₁, hlookup⟩ := exists_save hpersisted hhome
    (show lateHoliday.primaryKey appointments.types[4] = .ok "a" from rfl) hdocument hreadable
    (show freshWorld.endpoint = .store .empty from rfl) rfl
  obtain ⟨w', hget⟩ := exists_get_eq (c := appointments) hpersisted hhome hreadable (by decide)
    hstore₁ hfailures₁ hlookup
  refine ⟨belongs_lateHoliday, _, w₁, hsave, fun w₂ loaded hloaded => ?_⟩
  obtain ⟨p, hread⟩ := exists_of_reading (hget.symm.trans hloaded)
  -- 32503680000 milliseconds do not end at the start of a day
  have hinexact : ∃ problems, (ofJson appointments "Holiday"
      (.object [("id", .text "a"), ("day", .int 32503680000)]) p).1 =
        .error (.problems problems) := ⟨_, rfl⟩
  obtain ⟨problems, hinexact⟩ := hinexact
  cases hinexact.symm.trans hread

end IndexedRecords.Service
