import IndexedRecords.Proofs.Json.Extent
import IndexedRecords.Proofs.Record.Times

/-!
# Identifiers that documents give back

The identifier of a record is read from the member that it is written as, if the field is looked up
where it is written (`RecordType.FindsOwn`). Texts, whole numbers, truth values, dates and members
of enumerations then show as the same text as before (`Lasts`), whatever the other fields are read
as.

## Main statements

* `Lasts.shows`: such a value is read from its own document as one with the same text.
* `primaryKey_of_ofJson`: a record that is read from its document has the same identifier.
-/

namespace IndexedRecords

/-- A field is looked up where it is written: no other field is written under its name in documents,
and nothing is found under a name that is tried before. -/
structure RecordType.FindsOwn (r : RecordType) (f : Field) : Prop where
  alone : ∀ g ∈ r.fields, g.writtenKey = f.writtenKey → g = f
  first : f.readKey? = some f.writtenKey ∨
    f.name = f.writtenKey ∧ ∀ key ∈ f.readKey?, ∀ g ∈ r.fields, g.writtenKey ≠ key

namespace Record

open Traversal

variable {c : Catalogue} {ctx : Context} {type : RecordType} {f : Field} {shape : Shape}
  {v w : Value} {j : Json}

/-! ### Finding members -/

/-- The entry of a member of a document. -/
def entryOfJson (ctx : Context) (m : String × Json) : EntryView :=
  ⟨.text m.1, valueOfJson m.2, reader ctx.ofKeys (.text m.1), reader ctx (valueOfJson m.2)⟩

@[simp] theorem entryOfJson_key (m : String × Json) : (entryOfJson ctx m).key = .text m.1 := rfl

theorem entryReaders_entriesOfJson (members : List (String × Json)) :
    entryReaders ctx (entriesOfJson members) = members.map (entryOfJson ctx) := by
  rw [entryReaders_eq_map, entriesOfJson_eq_map, List.map_map]
  rfl

/-- A field that is looked up where it is written is found there. -/
theorem entryOf?_of_findsOwn (ctx : Context) {members : List (String × Json)}
    (hsearchable : type.isSearchable = true) (own : type.FindsOwn f)
    (names : ∀ m ∈ members, ∃ g ∈ type.fields, m.1 = g.writtenKey)
    (hfound : members.find? (fun m => m.1 = f.writtenKey) = some (f.writtenKey, j)) :
    entryOf? type f (entryReaders ctx (entriesOfJson members)) =
      some (f.writtenKey, entryOfJson ctx (f.writtenKey, j)) := by
  rw [entryReaders_entriesOfJson, entryOf?]
  simp only [List.find?_map, Function.comp_def, entryOfJson_key]
  rcases own.first with hread | ⟨hname, hothers⟩
  · simp only [hread, hfound, Option.map_some, Option.some_or, ite_self]
  · cases hread : f.readKey? with
    | none => simp only [hname, hfound, Option.map_some]
    | some key =>
      have hnone : members.find? (fun m => m.1 = key) = none := by
        refine List.find?_eq_none.mpr fun m hm hkey => ?_
        obtain ⟨g, hg, hwritten⟩ := names m hm
        exact hothers key hread g hg (hwritten.symm.trans (of_decide_eq_true hkey))
      simp only [hsearchable, if_true, hnone, hname, hfound, Option.map_none, Option.none_or,
        Option.map_some]

/-- The members of a record that is read, as they were written. -/
theorem find?_mergeMembers {members read : List (String × Json)}
    (h : List.Forall₂ Json.ReadAs members read) (hf : (f.writtenKey, j) ∈ members)
    (hsame : ∀ m ∈ members, m.1 = f.writtenKey → m.2 = j) (hexact : j.isExact = true) :
    (Json.mergeMembers read).find? (fun m => m.1 = f.writtenKey) = some (f.writtenKey, j) := by
  have hlookup : Store.lookup? (Json.mergeMembers read) f.writtenKey = some j := by
    rw [Json.mergeMembers_eq_tableOf]
    refine Store.lookup?_tableOf ?_ fun m' hm' hname => ?_
    · obtain ⟨⟨name, j'⟩, hm', hname, hvalue⟩ := exists_of_mem_left h hf
      obtain rfl : j' = j := hvalue hexact
      obtain rfl : name = f.writtenKey := hname
      exact hm'
    · obtain ⟨m, hm, heq, hvalue⟩ := exists_of_mem_left h.flip hm'
      obtain rfl := hsame m hm (heq.symm.trans hname)
      exact hvalue hexact
  obtain ⟨m, hm, rfl⟩ := Option.map_eq_some_iff.mp hlookup
  obtain ⟨name, j⟩ := m
  obtain rfl : name = f.writtenKey := by simpa using List.find?_some hm
  exact hm

/-! ### Identifiers -/

/-- Values other than null that show as the same text once they are read from their documents. -/
inductive Lasts (c : Catalogue) : Shape → Value → Prop where
  | text (s : String) : Lasts c (.scalar .text) (.text s)
  | int (n : Int) : Lasts c (.scalar .int) (.int n)
  | bool (b : Bool) : Lasts c (.scalar .bool) (.bool b)
  | date {d : Date} (valid : d.Valid) (near : d.epochSeconds.natAbs ≤ Moment.millisecondThreshold) :
      Lasts c (.scalar .date) (.date d)
  | member {e : Enumeration} {member : String} {v : Value}
      (names : (e.members.map Prod.fst).Nodup) (kind : e.kind.Holds v)
      (declared : e.ofValue? v = some (.member e.name e.kind member v)) :
      Lasts c (.enumeration e) (.member e.name e.kind member v)
  | annotated {inner : Shape} {markers : List Marker} {v : Value} (h : Lasts c inner v) :
      Lasts c (.annotated inner markers) v
  | renamed {name : String} {inner : Shape} {v : Value} (h : Lasts c inner v) :
      Lasts c (.renamed name inner) v
  | union {members : List Shape} {s : Shape} {v : Value} (sole : Shape.IsSole members s)
      (h : Lasts c s v) : Lasts c (.union members) v

/-- A searchable record writes a value as an exact document. Whatever this is read as shows as the
same text; that it is read at all is not said, since enumerations look for some numbers in vain. -/
structure Shows (c : Catalogue) (type : RecordType) (shape : Shape) (v : Value) (j : Json)
    (w : Value) : Prop where
  written : ((temporalJson? v).or (writer c v .off shape)) = some j
  exact : j.isExact = true
  given : v ≠ .none ∧ valueOfJson j ≠ .none
  known : ∀ f, asksForId type f (valueOfJson j) = asksForId type f v.payload
  read : ∀ p u, (reader ⟨c, .document⟩ (valueOfJson j) shape p).1 = .ok u → u = w
  shown : (keptValue type w).display = v.display

theorem writeField_eq_or (hsearchable : type.isSearchable = true) (check : Check) (f : Field)
    (v : Value) (w : Writer) :
    writeField check type f v w = (temporalJson? v).or (w check f.shape) := by
  rw [writeField, if_pos hsearchable]
  cases temporalJson? v <;> rfl

theorem shows_date {d : Date} (valid : d.Valid)
    (near : d.epochSeconds.natAbs ≤ Moment.millisecondThreshold) :
    Shows c type (.scalar .date) (.date d) (.int d.epochSeconds) (.date d) where
  written := rfl
  exact := rfl
  given := ⟨nofun, nofun⟩
  known _ := rfl
  read := by
    obtain ⟨w, hread, hsame⟩ := (IsTime.date valid).exists_read_iff.mpr near
    cases hsame
    have hsettles := settles_scalar ⟨c, .document⟩ (valueOfJson (.int d.epochSeconds)) .date
    exact ((congrArg (Settles _) hread).mp hsettles).eq_of_ok
  shown := rfl

theorem shows_member {e : Enumeration} {member : String} (names : (e.members.map Prod.fst).Nodup)
    (kind : e.kind.Holds v) (declared : e.ofValue? v = some (.member e.name e.kind member v)) :
    Shows c type (.enumeration e) (.member e.name e.kind member v) (jsonOfPayload v)
      (.member e.name e.kind member v) where
  written := written_member kind
  exact := by cases kind <;> rfl
  given := ⟨nofun, by cases kind <;> nofun⟩
  known f := by rw [valueOfJson_jsonOfPayload kind]; rfl
  read := by
    have hread := settles_enumeration ⟨c, .document⟩ v e
    rw [valueOfJson_jsonOfPayload kind]
    intro p u hu
    rw [hread p] at hu
    rcases readMember_payload names kind declared with h | ⟨-, h⟩
    · exact Except.ok.inj (hu.symm.trans h)
    · cases hu.symm.trans h
  shown := rfl

/-- The layers around a shape do not matter to how a value shows. -/
theorem Shows.of_writeAs_readAs {s : Shape} (h : Shows c type s v j w)
    (hwrite : writeAs c (contentOf c v) shape .off = writeAs c (contentOf c v) s .off)
    (hread : ∀ view record, view.value ≠ .none →
      readAs ⟨c, .document⟩ view record shape = readAs ⟨c, .document⟩ view record s) :
    Shows c type shape v j w where
  written := by
    rw [writer_eq, hwrite, ← writer_eq]
    exact h.written
  exact := h.exact
  given := h.given
  known := h.known
  read := by
    rw [reader_eq, hread _ _ (by rw [viewOf_value]; exact h.given.2), ← reader_eq]
    exact h.read
  shown := h.shown

/-- **Values that show as before.** -/
theorem Lasts.shows (h : Lasts c shape v) : ∃ j w, Shows c type shape v j w := by
  induction h with
  | text s =>
    exact ⟨.text s, .text s, rfl, rfl, ⟨nofun, nofun⟩, fun _ => rfl, (yields_text s).eq_of_ok, rfl⟩
  | int n =>
    have hread : Yields (reader ⟨c, .document⟩ (.int n) (.scalar .int)) (.int n) :=
      settles_scalar _ _ .int
    exact ⟨.int n, .int n, rfl, rfl, ⟨nofun, nofun⟩, fun _ => rfl, hread.eq_of_ok, rfl⟩
  | bool b =>
    have hread : Yields (reader ⟨c, .document⟩ (.bool b) (.scalar .bool)) (.bool b) :=
      settles_scalar _ _ .bool
    exact ⟨.bool b, .bool b, rfl, rfl, ⟨nofun, nofun⟩, fun _ => rfl, hread.eq_of_ok, rfl⟩
  | date valid near => exact ⟨_, _, shows_date valid near⟩
  | member names kind declared => exact ⟨_, _, shows_member names kind declared⟩
  | annotated _ ih =>
    obtain ⟨j, w, hshows⟩ := ih
    exact ⟨j, w, hshows.of_writeAs_readAs (by rw [writeAs]) fun _ _ _ => by rw [readAs]⟩
  | renamed _ ih =>
    obtain ⟨j, w, hshows⟩ := ih
    exact ⟨j, w, hshows.of_writeAs_readAs (by rw [writeAs]) fun _ _ _ => by rw [readAs]⟩
  | union sole _ ih =>
    obtain ⟨j, w, hshows⟩ := ih
    have hlayers := Shape.Unwraps.union sole (.bare _)
    refine ⟨j, w, hshows.of_writeAs_readAs ?_ fun _ _ hview => readAs_unwrap hview hlayers⟩
    exact writeAs_unwrap (by rw [contentOf_value]; exact hshows.given.1) .off hlayers

/-! ### Records -/

/-- Every member of a record is written from a field. -/
theorem exists_field_of_member {fields : List (String × Value)} {members : List (String × Json)}
    {m : String × Json} (h : writeFields .off type (fieldWriters c fields) = some members)
    (hm : m ∈ members) : ∃ g ∈ type.fields, ∃ u, (g.name, u) ∈ fields ∧ m.1 = g.writtenKey ∧
      writeField .off type g u (writer c u) = some m.2 := by
  obtain ⟨⟨g, u⟩, hpair, hkey, hwritten⟩ :=
    exists_of_mem_left (writeFields_eq_some_iff.mp h).flip hm
  obtain ⟨⟨name, u'⟩, he, hfield⟩ := List.mem_filterMap.mp hpair
  obtain ⟨g', hg, heq⟩ := Option.map_eq_some_iff.mp hfield
  obtain ⟨rfl, rfl⟩ : g' = g ∧ u' = u := Prod.mk.inj heq
  obtain rfl : g'.name = name := by simpa using List.find?_some hg
  exact ⟨g', List.mem_of_find?_eq_some hg, u', he, hkey, hwritten⟩

/-- **Identifiers read back.** If a record is read from the document of a record with an identifier
that lasts, in a field that is looked up where it is written, then it has the same identifier. -/
theorem primaryKey_of_ofJson {fields : List (String × Value)} {members read : List (String × Json)}
    {p : Progress} {loaded : Value} (found : c.find? type.name = some type)
    (hsearchable : type.isSearchable = true) (names : (type.fields.map Field.name).Nodup)
    (hf : f ∈ type.fields) (hkey : type.primaryKeyField = f.name) (own : type.FindsOwn f)
    (hnames : (fields.map Prod.fst).Nodup) (hv : (f.name, v) ∈ fields) (lasts : Lasts c f.shape v)
    (known : asksForId type f v.payload = false)
    (hwritten : writeFields .off type (fieldWriters c fields) = some members)
    (hread : List.Forall₂ Json.ReadAs members read)
    (h : (ofJson c type.name (.object (Json.mergeMembers read)) p).1 = .ok loaded) :
    ∃ fields', loaded = .record type.name fields' ∧
      primaryKey ⟨type.name, fields'⟩ type = v.display := by
  obtain ⟨j, u, hshows⟩ : ∃ j u, Shows c type f.shape v j u := lasts.shows
  obtain ⟨j', hj, hmember⟩ := exists_member names hf hv hwritten
  obtain rfl : j = j' := by
    rw [writeField_eq_or hsearchable, hshows.written] at hj
    exact Option.some.inj hj
  -- the member of the identifier is the only one under its name, and is read as it was written
  have hsame : ∀ m ∈ members, m.1 = f.writtenKey → m.2 = j := by
    intro m hm hname
    obtain ⟨g, hg, v', hv', hgkey, hgwritten⟩ := exists_field_of_member hwritten hm
    obtain rfl := own.alone g hg (hgkey.symm.trans hname)
    obtain rfl : v' = v := Option.some.inj
      ((Store.lookup?_of_mem hnames hv').symm.trans (Store.lookup?_of_mem hnames hv))
    exact Option.some.inj (hgwritten.symm.trans hj)
  have hfound := find?_mergeMembers hread hmember hsame hshows.exact
  have hkeys : ∀ m ∈ Json.mergeMembers read, ∃ g ∈ type.fields, m.1 = g.writtenKey := by
    intro m hm
    rw [Json.mergeMembers_eq_tableOf] at hm
    obtain ⟨m', hm', hname, -⟩ := exists_of_mem_left hread.flip (Store.mem_of_mem_tableOf hm)
    obtain ⟨g, hg, _, _, hgkey, _⟩ := exists_field_of_member hwritten hm'
    exact ⟨g, hg, hname.trans hgkey⟩
  have hentry := entryOf?_of_findsOwn ⟨c, .document⟩ hsearchable own hkeys hfound
  rw [ofJson_object found] at h
  obtain ⟨fields', rfl, hfields⟩ := forall₂_of_readFields h
  have hnames' := map_fst_of_forall₂_readField hfields
  obtain ⟨e, he, q, hfield⟩ := exists_of_mem_left hfields hf
  -- what the field is read as shows as before
  have hloaded : e = (f.name, keptValue type u) := by
    have hgiven : asksForId type f (valueOfJson j) = false := (hshows.known f).trans known
    rw [readField, hentry] at hfield
    simp only [entryOfJson, hgiven, Bool.false_eq_true, if_false] at hfield
    obtain ⟨kept, hkept, q', hpair⟩ := exists_of_bind hfield
    obtain ⟨q'', hread'⟩ := exists_of_under hkept
    cases hpair
    rw [hshows.read q'' kept hread']
  refine ⟨fields', rfl, ?_⟩
  have hget : get? ⟨type.name, fields'⟩ f.name = some (keptValue type u) :=
    Store.lookup?_of_mem (by rw [hnames']; exact names) (hloaded ▸ he)
  rw [primaryKey, hkey, hget]
  exact hshows.shown

end Record

end IndexedRecords
