import IndexedRecords.Proofs.Record.Instants
import IndexedRecords.Proofs.Search.Instants
import IndexedRecords.Proofs.Service.Times

/-!
# Instants in services

What is saved of a record and what is asked for in a search has nothing of a moment but its number
of seconds. So a caller who gives one of two moments of one instant in the place of the other saves
the same document, and searches for the same records.

## Main statements

* `SavedAlike.of_differs`: records that differ in moments of one instant are saved alike.
* `indistinguishable_of_sameInstant`: nothing that is saved or asked for tells moments of one
  instant apart, and dates have the seconds of their midnights.
-/

namespace IndexedRecords.Service

open Record

variable {c : Catalogue} {type : RecordType} {f : Field} {m m' : Moment} {r r' : Record}
  {w w' : World}

/-! ### Saving -/

/-- Whenever a record is saved, what is sent is a document in which a field is a given number. -/
def SavesNumber (c : Catalogue) (type : RecordType) (f : Field) (x : Binary64) (r : Record) :
    Prop :=
  ∀ w key w', save c type r w = (.ok key, w') → ∃ members,
    (f.writtenKey, .float x) ∈ members ∧ w'.sent = w.sent ++
      [[.text "JSON.SET", .text key, .text "$", .text (String.ofList (Json.object members).write)]]

/-- Two records have one document, and are saved with it as a given number in a field. To save them
is one and the same, unless this field is the one that names them. -/
structure SavedAlike (c : Catalogue) (type : RecordType) (f : Field) (x : Binary64)
    (r r' : Record) : Prop where
  document : Record.toJson? c r.model r.fields = Record.toJson? c r'.model r'.fields
  number : SavesNumber c type f x r
  number' : SavesNumber c type f x r'
  saved : type.primaryKeyField ≠ f.name → save c type r = save c type r'

theorem isSearchable_of_persisted (persisted : type.lineage = .persisted) :
    type.isSearchable = true := by
  rw [RecordType.isSearchable, persisted]
  rfl

/-- A command that is executed is the last one that has been sent. -/
theorem sent_of_execute {command : List Argument} {reply : Value}
    (h : execute command w = (.ok reply, w')) : w'.sent = w.sent ++ [command] := by
  obtain ⟨answer, w₁, hsend, h⟩ := exists_of_bind_run h
  have hsent : w₁.sent = w.sent ++ [command] := by
    cases hsend
    rfl
  cases answer with
  | error fault => cases h
  | ok reply =>
    cases h
    exact hsent

/-- Saving a record sends one command, with the document of the record in it. -/
theorem sent_of_save {key : String} (h : save c type r w = (.ok key, w')) :
    ∃ document, Record.toJson? c r.model r.fields = some document ∧ w'.sent = w.sent ++
      [[.text "JSON.SET", .text key, .text "$", .text (String.ofList document.write)]] := by
  obtain ⟨_, -, h⟩ := exists_of_lift_bind_run h
  obtain ⟨payload, hpayload, h⟩ := exists_of_lift_bind_run h
  obtain ⟨⟨id, key'⟩, -, h⟩ := exists_of_lift_bind_run h
  obtain ⟨reply, w₁, hexecute, h⟩ := exists_of_bind_run h
  cases h
  rw [recordDocument] at hpayload
  cases hdocument : Record.toJson? c r.model r.fields with
  | none =>
    rw [hdocument] at hpayload
    cases hid : r.primaryKey type <;> rw [hid] at hpayload <;> cases hpayload
  | some document =>
    rw [hdocument] at hpayload
    cases hpayload
    exact ⟨document, rfl, sent_of_execute hexecute⟩

/-- A record is saved with the number of seconds of a moment that it holds, and nothing of the
offset remains. -/
theorem savesNumber_of_moment (found : c.find? r.model = some type)
    (hsearchable : type.isSearchable = true) (names : (type.fields.map Field.name).Nodup)
    (hf : f ∈ type.fields) (holds : (f.name, .moment m) ∈ r.fields) :
    SavesNumber c type f m.epochSeconds r := by
  intro w key w' h
  obtain ⟨document, hdocument, hsent⟩ := sent_of_save h
  obtain ⟨members, rfl, hmember⟩ :=
    exists_member_of_moment found hsearchable names hf holds hdocument
  exact ⟨members, hmember, hsent⟩

/-- **Saving records.** Records that differ in moments of one instant are saved alike. -/
theorem SavedAlike.of_differs (hr : r.Differs f.name m m' r') (h : m.SameInstant m')
    (found : c.find? r.model = some type) (persisted : type.lineage = .persisted)
    (names : (type.fields.map Field.name).Nodup) (hf : f ∈ type.fields) :
    SavedAlike c type f m.epochSeconds r r' := by
  have hsearchable := isSearchable_of_persisted persisted
  have hdocument := hr.toJson?_eq h found hsearchable
  have found' : c.find? r'.model = some type := by rwa [← hr.model]
  refine ⟨hdocument, savesNumber_of_moment found hsearchable names hf hr.holds, ?_, fun hkey => ?_⟩
  · rw [h.epochSeconds_eq]
    exact savesNumber_of_moment found' hsearchable names hf hr.holds'
  · have hid := hr.primaryKey_eq hkey
    have hpayload : recordDocument c type r = recordDocument c type r' := by
      rw [recordDocument, recordDocument, hdocument, hid, hr.model]
    have hidentify : identify type r = identify type r' := by
      rw [identify, identify, hid]
    rw [save, save, hpayload, hidentify]

/-! ### Moments that cannot be told apart -/

/-- Nothing that is saved or asked for tells two moments apart. -/
structure Indistinguishable (m m' : Moment) : Prop where
  number : m.epochSeconds = m'.epochSeconds
  /-- A caller makes a persisted record, and gives one moment or the other one for a field. -/
  given {c : Catalogue} {type : RecordType} {f : Field} {data data' : List (String × Value)} :
    c.find? type.name = some type → type.lineage = .persisted →
    (type.fields.map Field.name).Nodup → GivesEither c type f m m' data data' →
    Together (fun v v' => ∃ r r' : Record, v = r.toValue ∧ v' = r'.toValue ∧
        SavedAlike c type f m.epochSeconds r r')
      (make c type.name data) (make c type.name data')
  /-- A persisted record has one moment or the other one in a field, however it got there. -/
  held {c : Catalogue} {type : RecordType} {f : Field} {r r' : Record} :
    c.find? r.model = some type → type.lineage = .persisted →
    (type.fields.map Field.name).Nodup → f ∈ type.fields → r.Differs f.name m m' r' →
    SavedAlike c type f m.epochSeconds r r'
  /-- One moment or the other one is an operand. -/
  asked {c : Catalogue} {e e' : Expression} : e.Swaps m m' e' → e.rendered c = e'.rendered c
  /-- Operators on numeric leaves accept moments. -/
  accepted {c : Catalogue} {model : String} {ref : Reference} {l : Leaf} :
    ref.LeadsTo c model l → l.type = .numeric →
    (Expression.operators ref (.moment m)).map (Expression.rendered c) =
      (Expression.operatorTexts l (String.ofList m.epochSeconds.text)).map .ok

/-- **Moments of one instant.** Two moments of one instant have one number of seconds, by which
records are saved and operators are rendered. A date has as many seconds as there are in the days
from the first of January 1970 to it, which is the number of its midnight in universal time. -/
theorem indistinguishable_of_sameInstant (h : m.SameInstant m') {d : Date} (hd : d.Valid) :
    Indistinguishable m m' ∧ ∃ n : Int, (∀ k, Date.DaysFrom ⟨1970, 1, 1⟩ d k ↔ k = n) ∧
      d.epochSeconds = 86400 * n ∧
      (Moment.mk d .midnight (some 0)).epochSeconds.whole? = some d.epochSeconds := by
  have hepoch : (Date.mk 1970 1 1).Regular :=
    ⟨by decide, by decide, by decide, by decide, by decide⟩
  have hstart : (Date.mk 1970 1 1).dayNumber = 0 := by decide
  refine ⟨?_, d.dayNumber, fun k => ?_, Int.mul_comm _ _, Moment.whole?_epochSeconds_midnight hd⟩
  · refine ⟨h.epochSeconds_eq, fun found persisted names gives => ?_,
      fun found persisted names hf hr => .of_differs hr h found persisted names hf,
      Expression.rendered_eq_of_swaps h, fun hleads hnumeric =>
        Expression.rendered_operators hleads hnumeric m⟩
    have hyear : m.date.year ≠ 0 := Nat.ne_of_gt h.date.year_pos
    have hyear' : m'.date.year ≠ 0 := Nat.ne_of_gt h.date'.year_pos
    refine (together_make gives found (isSearchable_of_persisted persisted) hyear hyear').mono ?_
    rintro p _ _ - - ⟨r, r', rfl, rfl, hmodel, hr⟩
    rw [← m.epochSeconds_assumeUniversal]
    exact ⟨r, r', rfl, rfl, .of_differs hr h.assumeUniversal (by rw [hmodel, found]) persisted names
      gives.declared⟩
  · rw [Date.daysFrom_iff hepoch hd.regular, hstart, Int.sub_zero]

/-- Half past eleven in the evening of a leap day, five hours west of universal time. -/
def evening : Moment := ⟨⟨2024, 2, 29⟩, ⟨23, 30, 0, 0⟩, some (-18000)⟩

/-- Half past four on the next morning, without an offset. -/
def morning : Moment := ⟨⟨2024, 3, 1⟩, ⟨4, 30, 0, 0⟩, none⟩

theorem sameInstant_evening : evening.SameInstant morning :=
  ⟨⟨by decide, by decide, by decide, by decide, by decide, by decide⟩,
    ⟨by decide, by decide, by decide, by decide, by decide, by decide⟩, by decide⟩

/-- What is given for a meeting that starts at a moment. -/
def invitation (m : Moment) : List (String × Value) :=
  [("title", .text "plans"), ("start", .moment m)]

theorem givesEither_invitation : GivesEither appointments appointments.types[3]
    (plainField "start" (.union [.scalar .moment, .nullType])) evening morning
    (invitation evening) (invitation morning) where
  declared := by
    rw [meeting_fields]
    simp
  shape := rfl
  here := ⟨"start", rfl, rfl⟩
  elsewhere := by
    rw [meeting_fields]
    simp only [List.forall_mem_cons]
    exact ⟨fun _ => rfl, fun _ => rfl, fun hne => absurd rfl hne, nofun⟩

theorem indistinguishable_of_sameInstant_evening :
    (evening.SameInstant morning ∧ (Date.mk 1969 12 31).Valid) ∧
    (∃ v, (make appointments "Meeting" (invitation evening) (.start 0)).1 = .ok v) ∧
    Together (fun v v' => ∃ r r' : Record, v = r.toValue ∧ v' = r'.toValue ∧
        SavedAlike appointments appointments.types[3]
          (plainField "start" (.union [.scalar .moment, .nullType])) evening.epochSeconds r r')
      (make appointments "Meeting" (invitation evening))
      (make appointments "Meeting" (invitation morning)) ∧
    (Expression.operators ⟨"Concert", [.item "day"]⟩ (.moment evening)).map
        (Expression.rendered Expression.concerts) =
      (Expression.operatorTexts ⟨"day", "day", "$.day", .numeric, [], false⟩
        (String.ofList evening.epochSeconds.text)).map .ok ∧
    (Expression.compare .equal ⟨"Concert", [.item "day"]⟩ (.moment evening)).rendered
        Expression.concerts =
      (Expression.compare .equal ⟨"Concert", [.item "day"]⟩ (.moment morning)).rendered
        Expression.concerts ∧
    ∃ n : Int, (∀ k, Date.DaysFrom ⟨1970, 1, 1⟩ ⟨1969, 12, 31⟩ k ↔ k = n) ∧
      (Date.mk 1969 12 31).epochSeconds = 86400 * n ∧
      (Moment.mk ⟨1969, 12, 31⟩ .midnight (some 0)).epochSeconds.whole? =
        some (Date.mk 1969 12 31).epochSeconds := by
  have hday : (Date.mk 1969 12 31).Valid :=
    ⟨by decide, by decide, by decide, by decide, by decide, by decide⟩
  obtain ⟨h, hdays⟩ := indistinguishable_of_sameInstant sameInstant_evening hday
  exact ⟨⟨sameInstant_evening, hday⟩, ⟨_, rfl⟩,
    h.given rfl rfl (by decide) givesEither_invitation, h.accepted Expression.leadsTo_day rfl,
    h.asked (.compare .equal _ .moment), hdays⟩

example : (Expression.compare .equal ⟨"Concert", [.item "day"]⟩ (.moment morning)).rendered
    Expression.concerts = .ok "@day:[1709267400.0 1709267400.0]" := by
  decide +kernel

end IndexedRecords.Service
