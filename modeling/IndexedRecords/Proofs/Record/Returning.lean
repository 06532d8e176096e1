import IndexedRecords.Proofs.Json.Reading
import IndexedRecords.Proofs.Record.Members
import IndexedRecords.Proofs.Record.Writing

/-!
# Values that documents give back

A document has fewer kinds of values than records have, so it gives back only some of them:
texts, whole numbers, truth values, members of enumerations, null, and lists, maps and records of
these (`Storable`). What such a value is written as is read as the same value of the same shape.

Two limits come from reading alone: a document with a whole number of too many characters is not
read at all, and enumerations look for some large whole numbers in vain (`Enumeration.Finds`).

## Main statements

* `yields_fields`: a record is read from its document as its fields are read from their members.
* `Storable.returns`: a storable value is given back by its document.
-/

namespace IndexedRecords

open Record Numeral

/-- A whole number has so few digits that a document can hold it, with a minus as well. -/
abbrev FewDigits (n : Int) : Prop := (Nat.toDigits 10 n.natAbs).length < digitLimit

/-- The fields of a record type have different names, also in documents, and each of them is read
under the name that it is written under. -/
structure RecordType.HasKeys (r : RecordType) : Prop where
  names : (r.fields.map Field.name).Nodup
  keys : (r.fields.map Field.writtenKey).Nodup
  readKey : ∀ f ∈ r.fields, f.readKey?.getD f.name = f.writtenKey

/-- A value belongs to a shape, and its document shows all of it. Whole numbers have few digits, and
those that members of enumerations stand for are looked for when they are read. Records are of the
very type that is asked for, and the identifiers of persisted ones are given. -/
inductive Storable (c : Catalogue) : Shape → Value → Prop where
  | text {v : Value} {s : String} (plain : v.plain = .text s) : Storable c (.scalar .text) v
  | int {v : Value} {n : Int} (plain : v.plain = .int n) (short : FewDigits n) :
      Storable c (.scalar .int) v
  | truth (b : Bool) : Storable c (.scalar .int) (.bool b)
  | bool (b : Bool) : Storable c (.scalar .bool) (.bool b)
  | enumeration {e : Enumeration} {member : String} {v : Value}
      (names : (e.members.map Prod.fst).Nodup) (kind : e.kind.Holds v)
      (declared : e.ofValue? v = some (.member e.name e.kind member v))
      (small : ∀ n, v = .int n → FewDigits n ∧ e.Finds n) :
      Storable c (.enumeration e) (.member e.name e.kind member v)
  | null {members : List Shape} (null : members.any Shape.isNullType = true) :
      Storable c (.union members) .none
  | union {members : List Shape} {s : Shape} {v : Value} (sole : Shape.IsSole members s)
      (h : Storable c s v) : Storable c (.union members) v
  | annotated {inner : Shape} {markers : List Marker} {v : Value} (h : Storable c inner v) :
      Storable c (.annotated inner markers) v
  | list {older : Bool} {item : Shape} {items : List Value}
      (each : ∀ v ∈ items, Storable c item v) :
      Storable c (.generic .list older [item]) (.list items)
  | map {older : Bool} {shape : Shape} {entries : List (Value × Value)} {name : Value → String}
      (keys : ∀ e ∈ entries, e.1.plain = .text (name e.1))
      (names : (entries.map fun e => name e.1).Nodup)
      (each : ∀ e ∈ entries, Storable c shape e.2) :
      Storable c (.generic .map older [.scalar .text, shape]) (.map entries)
  | record {name : String} {r : RecordType} {value : Field → Value}
      (found : c.find? name = some r) (keys : r.HasKeys)
      (known : ∀ f ∈ r.fields, asksForId r f (value f).payload = false)
      (each : ∀ f ∈ r.fields, Storable c f.shape (value f)) :
      Storable c (.record name) (.record name (r.fields.map fun f => (f.name, value f)))

namespace Record

variable {c : Catalogue} {ctx : Context} {r : RecordType} {shape item : Shape} {v w : Value}

/-- A value of a shape is written as a document, which is read as the same value. Null and the empty
text are told apart from all else, since they stand for identifiers that are not given. -/
structure Returns (c : Catalogue) (shape : Shape) (v : Value) (j : Json) (w : Value) : Prop where
  written : writer c v .off shape = some j
  readable : j.Readable
  read : Yields (reader ⟨c, .document⟩ (valueOfJson j) shape) w
  same : w.same v = true
  null : j = .null → v = .none
  empty : j = .text "" → v.payload = .text ""

/-! ### Single values -/

/-- What counts as a value that stands for itself also stands for it. -/
theorem payload_of_plain (h : v.plain = w) (hw : w.payload = w) : v.payload = w := by
  cases v with
  | member e kind name inner =>
    cases kind with
    | plain =>
      have hpayload : inner = w := by
        rw [← h] at hw
        exact hw.trans h
      exact hpayload
    | _ => exact h
  | _ => exact h

/-- A member of an enumeration is written as the value it stands for. -/
theorem byKind_payload (c : Catalogue) (v : Value) :
    (contentOf c v).byKind c = (contentOf c v.payload).byKind c := by
  cases v with
  | member e kind name inner =>
    change writer c inner .off .any = _
    rw [writer_eq, writeAs]
    rfl
  | _ => rfl

/-- A value is written as what it counts as, where its own kind decides. -/
theorem byKind_of_plain (h : v.plain = w) (hw : w.payload = w) :
    (contentOf c v).byKind c = (contentOf c w).byKind c := by
  rw [byKind_payload, payload_of_plain h hw]

/-- Where nothing is checked, it does not matter whether a value fits. -/
theorem byKindIf_off (fits : Bool) (content : Content) :
    content.byKindIf fits c .off = content.byKind c := by
  rw [Content.byKindIf]
  cases fits <;> rfl

/-- Where nothing is checked, most single values are written as their own kind says. -/
theorem writeScalar_off {content : Content} {s : Scalar} (hs : s ≠ .point)
    (hv : ∀ b, content.value ≠ .bool b) : writeScalar c content .off s = content.byKind c := by
  unfold writeScalar
  split
  · exact absurd rfl hs
  · next h => exact absurd h (hv _)
  · exact byKindIf_off _ content

theorem ne_bool_of_plain {b : Bool} (h : v.plain = w) (hw : w ≠ .bool b) : v ≠ .bool b := by
  rintro rfl
  exact hw h.symm

/-- What is read as a kind of single values is what the value gives. -/
theorem settles_scalar (ctx : Context) (v : Value) (s : Scalar) :
    Settles (reader ctx v (.scalar s)) (s.read ctx.origin v) := by
  rw [reader_eq, readAs, viewOf_value]
  cases s.read ctx.origin v with
  | ok w => exact (settles_settled _).bind ((yields_loosen _).bind (yields_pure w))
  | error e => exact (settles_settled (.error e)).bind_error

/-- A text is read as itself. -/
theorem readText_text (s : String) : Scalar.readText (.text s) = .ok (.text s) := by
  change Except.ok (Value.text (String.ofList s.toList)) = _
  rw [String.ofList_toList]

theorem yields_text (s : String) : Yields (reader ctx (.text s) (.scalar .text)) (.text s) := by
  have hread := settles_scalar ctx (.text s) .text
  rw [Scalar.read, readText_text] at hread
  exact hread

/-- A text, or a member of an enumeration that counts as one, is written and read as this text. -/
theorem returns_text {s : String} (h : v.plain = .text s) :
    Returns c (.scalar .text) v (.text s) (.text s) where
  written := by
    have hbool : ∀ b, (contentOf c v).value ≠ .bool b := fun b => by
      rw [contentOf_value]
      exact ne_bool_of_plain h nofun
    rw [writer_eq, writeAs, writeScalar_off (by decide) hbool, byKind_of_plain h rfl]
    rfl
  readable := .text s
  read := yields_text s
  same := Value.text_same_of_plain h
  null := nofun
  empty hs := by
    cases hs
    exact payload_of_plain h rfl

/-- A whole number of few digits, or a member of an enumeration that counts as one, is written and
read as this number. -/
theorem returns_int {n : Int} (h : v.plain = .int n) (short : FewDigits n) :
    Returns c (.scalar .int) v (.int n) (.int n) where
  written := by
    have hbool : ∀ b, (contentOf c v).value ≠ .bool b := fun b => by
      rw [contentOf_value]
      exact ne_bool_of_plain h nofun
    rw [writer_eq, writeAs, writeScalar_off (by decide) hbool, byKind_of_plain h rfl]
    rfl
  readable := .int (length_wholeText_le short)
  read := settles_scalar _ _ .int
  same := Value.int_same_of_plain h
  null := nofun
  empty := nofun

/-- A truth value in the place of a whole number is written as one. -/
theorem returns_truth (b : Bool) :
    Returns c (.scalar .int) (.bool b) (.int (if b then 1 else 0)) (.int (if b then 1 else 0)) where
  written := by cases b <;> rfl
  readable := by cases b <;> exact .int (by decide)
  read := settles_scalar _ _ .int
  same := by
    rw [Value.int_same]
    exact Value.ratio_same _ 1
  null := nofun
  empty := nofun

/-- A truth value is written and read as itself. -/
theorem returns_bool (b : Bool) : Returns c (.scalar .bool) (.bool b) (.bool b) (.bool b) where
  written := rfl
  readable := .bool b
  read := settles_scalar _ _ .bool
  same := Value.bool_same_self b
  null := nofun
  empty := nofun

/-! ### Members of enumerations -/

/-- The document of what a member of an enumeration stands for. -/
def jsonOfPayload : Value → Json
  | .text s => .text s
  | .int n => .int n
  | .bool b => .bool b
  | _ => .null

/-- What a member of an enumeration stands for is written by its own kind. -/
theorem byKind_jsonOfPayload {kind : EnumKind} (h : kind.Holds v) :
    (contentOf c v).byKind c = some (jsonOfPayload v) := by
  cases h <;> rfl

/-- The document of what a member stands for is read, if a number in it has few digits. -/
theorem readable_jsonOfPayload {kind : EnumKind} (h : kind.Holds v)
    (small : ∀ n, v = .int n → FewDigits n) : (jsonOfPayload v).Readable := by
  cases h with
  | text s => exact .text s
  | int n => exact .int (length_wholeText_le (small n rfl))
  | bool b => exact .bool b

/-- The document of what a member stands for holds just this value. -/
theorem valueOfJson_jsonOfPayload {kind : EnumKind} (h : kind.Holds v) :
    valueOfJson (jsonOfPayload v) = v := by
  cases h <;> rfl

/-- A member of an enumeration is written as the document of what it stands for. -/
theorem written_member {e : Enumeration} {member : String} (kind : e.kind.Holds v) :
    writer c (.member e.name e.kind member v) .off (.enumeration e) = some (jsonOfPayload v) := by
  rw [writer_eq, writeAs]
  simp only [contentOf_value]
  rw [byKindIf_off, byKind_payload]
  exact byKind_jsonOfPayload kind

/-- A member of an enumeration is written as what it stands for, and found by it again, if this is
no number that the enumeration looks for in vain. -/
theorem returns_member {e : Enumeration} {member : String}
    (names : (e.members.map Prod.fst).Nodup) (kind : e.kind.Holds v)
    (declared : e.ofValue? v = some (.member e.name e.kind member v))
    (small : ∀ n, v = .int n → FewDigits n ∧ e.Finds n) :
    Returns c (.enumeration e) (.member e.name e.kind member v) (jsonOfPayload v)
      (.member e.name e.kind member v) where
  written := written_member kind
  readable := readable_jsonOfPayload kind fun n hn => (small n hn).1
  read := by
    have hread := settles_enumeration ⟨c, .document⟩ v e
    rw [valueOfJson_jsonOfPayload kind]
    rcases readMember_payload names kind declared with h | ⟨⟨n, hn, hlost⟩, -⟩
    · rwa [h] at hread
    · exact absurd (small n hn).2 hlost
  same := Value.member_same_self (same_self_of_holds kind)
  null hnull := by cases kind <;> cases hnull
  empty hempty := by
    have hv := valueOfJson_jsonOfPayload kind
    rw [hempty] at hv
    exact hv.symm

/-! ### Lists -/

/-- The items of a list are read at their positions, which do not matter to what they yield. -/
theorem forall₂_itemsAt {vs ws : List Value}
    (h : List.Forall₂ (fun v w => Yields (reader ctx v item) w) vs ws) (position : Nat) :
    List.Forall₂ Yields (itemsAt item position (vs.map (reader ctx))) ws := by
  induction h generalizing position with
  | nil => exact .nil
  | cons hread _ ih => exact .cons (hread.under _) (ih (position + 1))

/-- The items of a list are read one by one; where anything is accepted, the list has to be
empty. -/
theorem yields_listItems {vs ws : List Value}
    (h : List.Forall₂ (fun v w => Yields (reader ctx v item) w) vs ws)
    (hitem : item.acceptsAnything = true → vs = []) :
    Yields (readListItems (viewOf ctx (.list vs)) item) ws := by
  have hreaders : (viewOf ctx (.list vs)).items = vs.map (reader ctx) := readers_eq_map ctx vs
  unfold readListItems
  split
  · next hany hvalue =>
    obtain rfl := hitem hany
    cases h
    cases hvalue
    exact yields_pure []
  · next hvalue => cases hvalue
  · next hvalue => cases hvalue
  · next hvalue => cases hvalue
  · change Yields (Reading.all (itemsAt item 0 (viewOf ctx (.list vs)).items)) ws
    rw [hreaders]
    exact .all (forall₂_itemsAt h 0)

/-- A list is written as the array of its items, and read from it item by item. -/
theorem returns_list {older : Bool} {items : List Value} {doc : Value → Json}
    {read : Value → Value} (h : ∀ v ∈ items, Returns c item v (doc v) (read v))
    (hitem : item.acceptsAnything = true → items = []) :
    Returns c (.generic .list older [item]) (.list items) (.array (items.map doc))
      (.list (items.map read)) where
  written := by
    have hitems : (contentOf c (.list items)).items = items.map (writer c) := writers_eq_map c items
    have hwritten : List.Forall₂ (fun v j => writer c v .off item = some j) items
        (items.map doc) :=
      List.forall₂_map_right_iff.mpr (List.forall₂_same.mpr fun v hv => (h v hv).written)
    have hlist : Generic.list.items? (contentOf c (.list items)).value = some items := rfl
    rw [writer_eq, writeAs, writeGeneric_of_items? hlist, hitems]
    exact writeItems_eq_some_iff.mpr ⟨_, rfl, hwritten⟩
  readable := by
    refine .array fun j hj => ?_
    obtain ⟨v, hv, rfl⟩ := List.mem_map.mp hj
    exact (h v hv).readable
  read := by
    have hvalues : valueOfJson (.array (items.map doc)) =
        .list (items.map fun v => valueOfJson (doc v)) := by
      rw [valueOfJson, valuesOfJson_eq_map, List.map_map]
      rfl
    have hread : List.Forall₂ (fun v w => Yields (reader ⟨c, .document⟩ v item) w)
        (items.map fun v => valueOfJson (doc v)) (items.map read) :=
      List.forall₂_map_left_iff.mpr (List.forall₂_map_right_iff.mpr
        (List.forall₂_same.mpr fun v hv => (h v hv).read))
    -- items that may be anything are not read one by one, but then there are none
    have hempty : item.acceptsAnything = true → items.map (fun v => valueOfJson (doc v)) = [] :=
      fun hany => by rw [hitem hany, List.map_nil]
    rw [hvalues, reader_eq, readAs]
    exact (yields_loosen _).bind ((yields_listItems hread hempty).bind (yields_pure _))
  same := by
    refine Value.same_list ?_
    rw [List.forall₂_map_left_iff]
    exact List.forall₂_same.mpr fun v hv => (h v hv).same
  null := nofun
  empty := nofun

/-! ### Maps -/

/-- An entry of a map in a document. -/
def entryOfMember (m : String × Value) : Value × Value := (.text m.1, m.2)

/-- To set an entry of a map under a text is to insert a member into a table. -/
theorem setEntry_entryOfMember (m : String × Value) (table : List (String × Value)) :
    setEntry (entryOfMember m) (table.map entryOfMember) =
      (Store.insert m.1 m.2 table).map entryOfMember := by
  induction table with
  | nil => rfl
  | cons e table ih =>
    have hsame : ((entryOfMember e).1.same (entryOfMember m).1 = true) = (e.1 = m.1) := by
      rw [entryOfMember, entryOfMember, Value.text_same_text, decide_eq_true_eq]
    rw [List.map_cons, setEntry, Store.insert]
    simp only [hsame]
    split
    · next heq =>
      rw [List.map_cons, ← heq]
      rfl
    · rw [ih, List.map_cons]

/-- Entries of different names are kept as they are. -/
theorem foldl_setEntry_of_nodup {members : List (String × Value)}
    (h : (members.map Prod.fst).Nodup) :
    (members.map entryOfMember).foldl (fun merged entry => setEntry entry merged) [] =
      members.map entryOfMember := by
  have hfold (table : List (String × Value)) :
      (members.map entryOfMember).foldl (fun merged entry => setEntry entry merged)
        (table.map entryOfMember) =
      (members.foldl (fun table m => Store.insert m.1 m.2 table) table).map entryOfMember := by
    clear h
    induction members generalizing table with
    | nil => rfl
    | cons m members ih =>
      rw [List.map_cons, List.foldl_cons, List.foldl_cons, setEntry_entryOfMember, ih]
  rw [show [] = List.map entryOfMember [] from rfl, hfold]
  exact congrArg (List.map entryOfMember) (Store.tableOf_of_nodup h)

/-- The entries of a map whose keys are texts are read one by one. -/
theorem yields_readEntries {α : Type} {items : List α} {name : α → String} {value read : α → Value}
    (names : (items.map name).Nodup)
    (h : ∀ a ∈ items, Yields (reader ctx (value a) shape) (read a)) :
    Yields (readEntries (.scalar .text) shape
        (entryReaders ctx (items.map fun a => (.text (name a), value a))))
      (.map (items.map fun a => (.text (name a), read a))) := by
  have hnames : ((items.map fun a => (name a, read a)).map Prod.fst).Nodup := by
    rw [List.map_map]
    exact names
  have hkept := foldl_setEntry_of_nodup hnames
  rw [List.map_map] at hkept
  have hread : List.Forall₂ Yields
      ((entryReaders ctx (items.map fun a => (.text (name a), value a))).map fun e =>
        Reading.both (Reading.under [keyPlace e.key, .key "[key]"] (e.readKey (.scalar .text)))
          (Reading.under [keyPlace e.key] (e.readValue shape)))
      (items.map (entryOfMember ∘ fun a => (name a, read a))) := by
    rw [entryReaders_eq_map, List.map_map, List.map_map, List.forall₂_map_left_iff,
      List.forall₂_map_right_iff]
    refine List.forall₂_same.mpr fun a ha => ?_
    have hkey : Yields (reader ctx.ofKeys (.text (name a)) (.scalar .text)) (.text (name a)) :=
      yields_text (name a)
    exact (hkey.under [keyPlace (.text (name a)), .key "[key]"]).both ((h a ha).under _)
  change Yields _ (Value.map (items.map (entryOfMember ∘ fun a => (name a, read a))))
  rw [← hkept]
  exact (Settles.all hread).bind (yields_pure _)

/-- A key that is a text is written as this text. -/
theorem nameAs_of_plain {s : String} (h : v.plain = .text s) :
    nameAs (.scalar .text) .off v = some s := by
  have hname : nameAs (.scalar .text) .off v = keyText? v := by
    have hnumber : numberName? .text v = none := rfl
    rw [nameAs, hnumber]
    · simp only [nameIf, Check.forgives, Bool.or_true, if_true]
    · nofun
  have hpayload := payload_of_plain h rfl
  rw [hname]
  cases v with
  | member e kind name inner =>
    obtain rfl : inner = .text s := hpayload
    rfl
  | text t =>
    cases hpayload
    rfl
  | _ => cases hpayload

/-- A map under different texts is written as an object with members of these names, and read from
it entry by entry. -/
theorem returns_map {older : Bool} {entries : List (Value × Value)} {name : Value → String}
    {doc : Value × Value → Json} {read : Value × Value → Value}
    (keys : ∀ e ∈ entries, e.1.plain = .text (name e.1))
    (names : (entries.map fun e => name e.1).Nodup)
    (h : ∀ e ∈ entries, Returns c shape e.2 (doc e) (read e)) :
    Returns c (.generic .map older [.scalar .text, shape]) (.map entries)
      (.object (entries.map fun e => (name e.1, doc e)))
      (.map (entries.map fun e => (.text (name e.1), read e))) where
  written := by
    have hentries : (contentOf c (.map entries)).entries =
        entries.map fun e => (e.1, writer c e.2) := entryWriters_eq_map c entries
    have hwritten : List.Forall₂ (fun e (m : String × Json) =>
        nameAs (.scalar .text) .off e.1 = some m.1 ∧ writer c e.2 .off shape = some m.2) entries
        (entries.map fun e => (name e.1, doc e)) :=
      List.forall₂_map_right_iff.mpr (List.forall₂_same.mpr fun e he =>
        ⟨nameAs_of_plain (keys e he), (h e he).written⟩)
    -- keys are written as their texts, and these are all different
    have hmerge : Json.mergeMembers (entries.map fun e => (name e.1, doc e)) =
        entries.map fun e => (name e.1, doc e) := by
      rw [Json.mergeMembers_eq_tableOf]
      refine Store.tableOf_of_nodup ?_
      rw [List.map_map]
      exact names
    have hmap : Generic.map.entries? (contentOf c (.map entries)).value = some entries := rfl
    rw [writer_eq, writeAs, writeGeneric_of_entries? hmap, hentries]
    exact writeEntries_eq_some_iff.mpr ⟨_, by rw [hmerge], hwritten⟩
  readable := by
    refine .object ?_ fun m hm => ?_
    · rw [List.map_map]
      exact names
    · obtain ⟨e, he, rfl⟩ := List.mem_map.mp hm
      exact (h e he).readable
  read := by
    have hentries : entriesOfJson (entries.map fun e => (name e.1, doc e)) =
        entries.map fun e => (.text (name e.1), valueOfJson (doc e)) := by
      rw [entriesOfJson_eq_map, List.map_map]
      rfl
    rw [valueOfJson, hentries, reader_eq, readAs]
    exact yields_readEntries names fun e he => (h e he).read
  same := by
    refine Value.same_map (List.length_map _) fun w hw => ?_
    obtain ⟨e, he, rfl⟩ := List.mem_map.mp hw
    exact ⟨e, he, Value.text_same_of_plain (keys e he), (h e he).same⟩
  null := nofun
  empty := nofun

/-! ### Layers around a shape -/

/-- Only null is read as null. -/
theorem eq_null_of_valueOfJson {j : Json} (h : valueOfJson j = .none) : j = .null := by
  cases j with
  | null => rfl
  | _ => cases h

/-- Null is written and read as null, whatever else the union takes. -/
theorem returns_null {members : List Shape} (h : members.any Shape.isNullType = true) :
    Returns c (.union members) .none .null .none where
  written := by
    rw [writer_eq, writeAs]
    simp only [contentOf_value, h]
  readable := .null
  read := by
    rw [reader_eq, readAs]
    simp only [viewOf_value, h, valueOfJson]
    exact yields_pure _
  same := by
    rw [Value.none_same]
    rfl
  null _ := rfl
  empty := nofun

/-- A value of the only member of a union besides null is written and read as this member says,
unless it is null itself. -/
theorem returns_union {members : List Shape} {j : Json} (sole : Shape.IsSole members shape)
    (h : Returns c shape v j w) : ∃ j w, Returns c (.union members) v j w := by
  by_cases hnull : v = .none ∧ members.any Shape.isNullType = true
  · obtain ⟨rfl, hany⟩ := hnull
    exact ⟨.null, .none, returns_null hany⟩
  · refine ⟨j, w, ?_, h.readable, ?_, h.same, h.null, h.empty⟩
    · rw [writer_eq, writeAs, writeEach_of_isSole sole, contentOf_value]
      split
      · next hany => exact absurd ⟨rfl, hany⟩ hnull
      · next heq _ =>
        cases heq
        rw [← writer_eq]
        exact h.written
      · next hne => exact absurd rfl (hne _)
    · rw [reader_eq, readAs, readEach_of_isSole sole, readUnion, ← reader_eq]
      · exact h.read
      · intro hvalue hany
        rw [viewOf_value] at hvalue
        exact hnull ⟨h.null (eq_null_of_valueOfJson hvalue), hany⟩

/-! ### Records -/

theorem name_of_find? {name : String} (h : c.find? name = some r) : r.name = name := by
  simpa using List.find?_some h

/-- A record is written field by field. -/
theorem writeFields_eq {value : Field → Value} {doc : Field → Json}
    (names : (r.fields.map Field.name).Nodup)
    (h : ∀ f ∈ r.fields, writeField .off r f (value f) (writer c (value f)) = some (doc f)) :
    writeFields .off r (fieldWriters c (r.fields.map fun f => (f.name, value f))) =
      some (r.fields.map fun f => (f.writtenKey, doc f)) := by
  have hfields : ((r.fields.map fun f => (f.name, value f)).filterMap
      fun e => (r.field? e.1).map (·, e.2)) = r.fields.map fun f => (f, value f) := by
    rw [List.filterMap_map, ← List.filterMap_eq_map]
    refine List.filterMap_congr fun f hf => ?_
    simp only [Function.comp_apply, field?_of_mem names hf, Option.map_some]
  rw [writeFields_eq_some_iff, hfields, List.forall₂_map_left_iff, List.forall₂_map_right_iff]
  exact List.forall₂_same.mpr fun f hf => ⟨rfl, h f hf⟩

/-- The entry of a field is the one under the name that the field is written under. -/
theorem entryOf?_eq (keys : r.HasKeys) {value : Field → Value} {f : Field} (hf : f ∈ r.fields) :
    entryOf? r f (entryReaders ctx (r.fields.map fun f => (.text f.writtenKey, value f))) =
      some (f.writtenKey, ⟨.text f.writtenKey, value f, reader ctx.ofKeys (.text f.writtenKey),
        reader ctx (value f)⟩) := by
  have hfind := find?_of_mem keys.keys hf
  have hkey := keys.readKey f hf
  rw [entryReaders_eq_map, List.map_map, entryOf?]
  cases hread : f.readKey? with
  | none =>
    obtain hname : f.name = f.writtenKey := by rwa [hread] at hkey
    simp only [List.find?_map, Function.comp_def, hname, hfind, Option.map_some]
  | some key =>
    obtain rfl : key = f.writtenKey := by rwa [hread] at hkey
    simp only [List.find?_map, Function.comp_def, hfind, Option.map_some, Option.some_or, ite_self]

/-- A field is read from its member. -/
theorem readField_eq (keys : r.HasKeys) {value : Field → Value} {f : Field} (hf : f ∈ r.fields)
    (known : asksForId r f (value f) = false) :
    readField ctx r (entryReaders ctx (r.fields.map fun f => (.text f.writtenKey, value f))) f =
      (do return (f.name, keptValue r
        (← Reading.under [.key f.writtenKey] (reader ctx (value f) f.shape)))) := by
  rw [readField, entryOf?_eq keys hf]
  simp only [known, Bool.false_eq_true, if_false]

/-- **Records read back.** A record is read from its document as its fields are read from their
members. -/
theorem yields_fields {name : String} (found : ctx.catalogue.find? name = some r)
    (keys : r.HasKeys) {value read : Field → Value}
    (known : ∀ f ∈ r.fields, asksForId r f (value f) = false)
    (h : ∀ f ∈ r.fields, Yields (reader ctx (value f) f.shape) (read f)) :
    Yields (reader ctx (.map (r.fields.map fun f => (.text f.writtenKey, value f))) (.record name))
      (.record name (r.fields.map fun f => (f.name, keptValue r (read f)))) := by
  have hread : List.Forall₂ Yields
      (r.fields.map (readField ctx r
        (entryReaders ctx (r.fields.map fun f => (.text f.writtenKey, value f)))))
      (r.fields.map fun f => (f.name, keptValue r (read f))) := by
    rw [List.forall₂_map_left_iff, List.forall₂_map_right_iff]
    refine List.forall₂_same.mpr fun f hf => ?_
    rw [readField_eq keys hf (known f hf)]
    exact ((h f hf).under _).bind (yields_pure _)
  rw [reader_eq, readAs, readRecord, viewOf_value]
  simp only [found]
  rw [readFields, name_of_find? found]
  exact (yields_loosen _).bind ((Settles.all hread).bind ((yields_give _).bind (yields_pure _)))

/-- A value that is written as no identifier, or as none that is given, is not one itself. -/
theorem asksForId_valueOfJson {f : Field} {j : Json} (h : Returns c shape v j w)
    (known : asksForId r f v.payload = false) : asksForId r f (valueOfJson j) = false := by
  cases hj : j with
  | null =>
    rw [h.null hj] at known
    exact known
  | text s =>
    by_cases hs : s = ""
    · rw [hs] at hj
      rw [h.empty hj] at known
      rw [hs]
      exact known
    · simp only [asksForId, valueOfJson, Value.plain, hs, decide_false, Bool.and_false]
  | _ => simp only [asksForId, valueOfJson, Value.plain, Bool.and_false]

/-- Only moments are kept as something else than they are read as. -/
theorem keptValue_of_same (h : w.same v = true) (hv : epochJson? v.plain = none) :
    keptValue r w = w := by
  cases w with
  | moment m =>
    rw [Value.moment_same] at h
    cases hplain : v.plain with
    | moment m' =>
      rw [hplain] at hv
      cases hv
    | _ =>
      rw [hplain] at h
      cases h
  | _ => rfl

/-- What does not count as a date or a moment is none. -/
theorem epochJson?_of_plain (h : epochJson? v.plain = none) : epochJson? v = none := by
  cases v with
  | date d => cases h
  | moment m => cases h
  | _ => rfl

/-- No member of an enumeration stands for a date or a moment. -/
theorem epochJson?_of_holds {kind : EnumKind} (h : kind.Holds v) : epochJson? v = none := by
  cases h <;> rfl

/-- What shows as a single value other than a date or a moment is written as its shape says. -/
theorem temporalJson?_of_plain (h : v.plain = w) (hsequence : w.sequence? = none)
    (hepoch : epochJson? w = none) : temporalJson? v = none := by
  subst h
  cases v with
  | list items => cases hsequence
  | tuple items => cases hsequence
  | _ => exact epochJson?_of_plain hepoch

/-- A record is written as the object of its fields under the names in documents, and read from it
field by field. -/
theorem returns_record {name : String} {value read : Field → Value} {doc : Field → Json}
    (found : c.find? name = some r) (keys : r.HasKeys)
    (known : ∀ f ∈ r.fields, asksForId r f (value f).payload = false)
    (epoch : ∀ f ∈ r.fields, temporalJson? (value f) = none)
    (plain : ∀ f ∈ r.fields, epochJson? (value f).plain = none)
    (h : ∀ f ∈ r.fields, Returns c f.shape (value f) (doc f) (read f)) :
    Returns c (.record name) (.record name (r.fields.map fun f => (f.name, value f)))
      (.object (r.fields.map fun f => (f.writtenKey, doc f)))
      (.record name (r.fields.map fun f => (f.name, read f))) where
  written := by
    have hfields := writeFields_eq keys.names fun f hf =>
      (writeField_eq (epoch f hf)).trans (h f hf).written
    -- no two fields are written under one name, so no member is lost
    have hmerge : Json.mergeMembers (r.fields.map fun f => (f.writtenKey, doc f)) =
        r.fields.map fun f => (f.writtenKey, doc f) := by
      rw [Json.mergeMembers_eq_tableOf]
      refine Store.tableOf_of_nodup ?_
      rw [List.map_map]
      exact keys.keys
    rw [writer_eq, writeAs, writeRecord, contentOf_value]
    simp only [found, matchesType, if_true, contentOf, hfields, Option.bind_eq_bind,
      Option.bind_some, hmerge]
    rfl
  readable := by
    refine .object ?_ fun m hm => ?_
    · rw [List.map_map]
      exact keys.keys
    · obtain ⟨f, hf, rfl⟩ := List.mem_map.mp hm
      exact (h f hf).readable
  read := by
    have hentries : entriesOfJson (r.fields.map fun f => (f.writtenKey, doc f)) =
        r.fields.map fun f => (.text f.writtenKey, valueOfJson (doc f)) := by
      rw [entriesOfJson_eq_map, List.map_map]
      rfl
    -- only moments may be kept as other values than they are read as, and none is held
    have hkept : (r.fields.map fun f => (f.name, keptValue r (read f))) =
        r.fields.map fun f => (f.name, read f) :=
      List.map_congr_left fun f hf => by rw [keptValue_of_same (h f hf).same (plain f hf)]
    rw [valueOfJson, hentries, ← hkept]
    exact yields_fields found keys (fun f hf => asksForId_valueOfJson (h f hf) (known f hf))
      fun f hf => (h f hf).read
  same := by
    refine Value.same_record ?_ (by rw [List.length_map, List.length_map]) fun w hw => ?_
    · rw [List.map_map]
      exact keys.names
    · obtain ⟨f, hf, rfl⟩ := List.mem_map.mp hw
      exact ⟨value f, List.mem_map.mpr ⟨f, hf, rfl⟩, (h f hf).same⟩
  null := nofun
  empty := nofun

end Record

/-! ### All storable values -/

namespace Storable

open Record

variable {c : Catalogue} {shape : Shape} {v : Value}

/-- A shape whose values are given back never takes just anything. -/
theorem acceptsAnything_eq_false (h : Storable c shape v) : shape.acceptsAnything = false := by
  induction h with
  | annotated _ ih => exact ih
  | _ => rfl

/-- A storable value is no date or moment. -/
theorem epochJson?_plain (h : Storable c shape v) : epochJson? v.plain = none := by
  induction h with
  | text plain => rw [plain]; rfl
  | int plain => rw [plain]; rfl
  | @enumeration e _ _ _ kind _ _ =>
    have hepoch := epochJson?_of_holds kind
    cases e.kind with
    | plain => rfl
    | _ => exact hepoch
  | union _ _ ih => exact ih
  | annotated _ ih => exact ih
  | _ => rfl

/-- A storable value is written as its shape says, and not in seconds. -/
theorem temporalJson?_eq_none (h : Storable c shape v) : temporalJson? v = none := by
  induction h with
  | list each =>
    exact (temporalJson?_of_items fun v hv => epochJson?_of_plain (each v hv).epochJson?_plain).1
  | text plain => exact temporalJson?_of_plain plain rfl rfl
  | int plain => exact temporalJson?_of_plain plain rfl rfl
  | union _ _ ih => exact ih
  | annotated _ ih => exact ih
  | _ => rfl

/-- **Values given back.** A storable value is written as a document that is read as the same
value. -/
theorem returns (h : Storable c shape v) : ∃ j w, Returns c shape v j w := by
  induction h with
  | text plain => exact ⟨_, _, returns_text plain⟩
  | int plain short => exact ⟨_, _, returns_int plain short⟩
  | truth b => exact ⟨_, _, returns_truth b⟩
  | bool b => exact ⟨_, _, returns_bool b⟩
  | enumeration names kind declared small =>
    exact ⟨_, _, returns_member names kind declared small⟩
  | null null => exact ⟨_, _, returns_null null⟩
  | union sole _ ih =>
    obtain ⟨j, w, hreturns⟩ := ih
    exact returns_union sole hreturns
  | annotated _ ih =>
    obtain ⟨j, w, hreturns⟩ := ih
    refine ⟨j, w, ?_, hreturns.readable, ?_, hreturns.same, hreturns.null, hreturns.empty⟩
    · rw [writer_eq, writeAs, ← writer_eq]
      exact hreturns.written
    · rw [reader_eq, readAs, ← reader_eq]
      exact hreturns.read
  -- a function for the documents of all items is chosen at once, and so for what is read of them
  | @list older item items each ih =>
    choose! doc read hreturns using ih
    refine ⟨_, _, returns_list hreturns fun hany => ?_⟩
    refine List.eq_nil_iff_forall_not_mem.mpr fun v hv => ?_
    rw [(each v hv).acceptsAnything_eq_false] at hany
    cases hany
  | map keys names _ ih =>
    choose! doc read hreturns using ih
    exact ⟨_, _, returns_map keys names hreturns⟩
  | record found keys known each ih =>
    choose! doc read hreturns using ih
    exact ⟨_, _, returns_record found keys known (fun f hf => (each f hf).temporalJson?_eq_none)
      (fun f hf => (each f hf).epochJson?_plain) hreturns⟩

end Storable

end IndexedRecords
