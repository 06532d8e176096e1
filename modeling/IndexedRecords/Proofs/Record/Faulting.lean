import IndexedRecords.Proofs.Record.Breaking

/-!
# Which documents end with faults

To read a document as a shape ends with a fault exactly where the document breaks the shape. What
holds of the parts of a document holds of the document (`KnownParts`): a view of it is read by
recursion on the shape, with one lemma for each kind of container.

## Main statements

* `breaksIff_readAs`: a document whose parts are known, by recursion on the shape.
* `breaksIff_reader`: any document, by recursion on the document.
-/

namespace IndexedRecords.Record

open Reading

variable {ctx : Context} {j : Json} {s : Shape} {r : RecordType} {f : Field}

/-- It is known of the parts of a document, and of the texts that may take the place of one, when
readings of them end with faults. -/
structure KnownParts (ctx : Context) (j : Json) : Prop where
  items : ∀ item ∈ j.items, ∀ s, BreaksIff (reader ctx (valueOfJson item) s) (Breaks ctx s item)
  keys : ∀ m ∈ j.members, ∀ s, BreaksIff (reader ctx.ofKeys (.text m.1) s) False
  texts : ∀ m ∈ j.members, ∀ text s, BreaksIff (reader ctx (.text text) s) False
  values : ∀ m ∈ j.members, ∀ s,
    BreaksIff (reader ctx (valueOfJson m.2) s) (Breaks ctx s m.2)

/-- Nothing has to be known of a document that has no parts. -/
theorem KnownParts.of_noParts (hitems : j.items = []) (hmembers : j.members = []) :
    KnownParts ctx j := by
  constructor
  · rw [hitems]
    exact nofun
  all_goals
    rw [hmembers]
    exact nofun

/-- The view of a document. -/
def viewOfJson (ctx : Context) (j : Json) : View := viewOf ctx (valueOfJson j)

@[simp] theorem viewOfJson_value : (viewOfJson ctx j).value = valueOfJson j := viewOf_value ctx _

/-- The entries of an object have readers for the names and for the values of its members. -/
theorem viewOfJson_entries (members : List (String × Json)) :
    (viewOfJson ctx (.object members)).entries = members.map (entryOfJson ctx) :=
  entryReaders_entriesOfJson members

/-- The items of an array have one reader each, in their order. -/
theorem sequenceItems?_array (items : List Json) :
    sequenceItems? (viewOfJson ctx (.array items)) =
      some (items.map fun item => reader ctx (valueOfJson item)) := by
  have hreaders : readers ctx (valuesOfJson items) =
      items.map fun item => reader ctx (valueOfJson item) := by
    rw [readers_eq_map, valuesOfJson_eq_map, List.map_map]
    rfl
  exact congrArg some hreaders

/-- The readers of the items of an array, each of which has to read something hashable. -/
theorem sequenceItems?_hashed (items : List Json) :
    sequenceItems? { viewOfJson ctx (.array items) with
        items := (viewOfJson ctx (.array items)).items.map Reader.hashed } =
      some (items.map fun item => Reader.hashed (reader ctx (valueOfJson item))) := by
  have hreaders : (viewOfJson ctx (.array items)).items =
      items.map fun item => reader ctx (valueOfJson item) :=
    Option.some.inj (sequenceItems?_array items)
  change some ((viewOfJson ctx (.array items)).items.map Reader.hashed) = _
  rw [hreaders, List.map_map]
  rfl

/-- Whether a view can be read as a sequence depends on its value. -/
theorem sequenceItems?_of_value {v : View} {items : List Reader} (h : sequenceItems? v = none) :
    sequenceItems? { v with items } = none := by
  unfold sequenceItems? at h ⊢
  split at h
  all_goals first
    | rfl
    | cases h

/-- A document other than an array has no items. -/
theorem sequenceItems?_cases (ctx : Context) (j : Json) :
    (∃ items, j = .array items) ∨ j.items = [] ∧ sequenceItems? (viewOfJson ctx j) = none := by
  cases j with
  | array items => exact .inl ⟨items, rfl⟩
  | _ => exact .inr ⟨rfl, rfl⟩

/-! ### Items -/

/-- Each item of an array ends its reading with a fault where it breaks the shape of the items. -/
theorem forall₂_itemsAt_known (known : KnownParts ctx j) (s : Shape) (n : Nat) {items : List Json}
    (hitems : ∀ item ∈ items, item ∈ j.items) :
    List.Forall₂ (fun item r => BreaksIff r (Breaks ctx s item)) items
      (itemsAt s n (items.map fun item => reader ctx (valueOfJson item))) := by
  induction items generalizing n with
  | nil => exact .nil
  | cons item items ih =>
    obtain ⟨hitem, hrest⟩ := List.forall_mem_cons.mp hitems
    exact .cons ((known.items item hitem s).under _) (ih (n + 1) hrest)

/-- The items of an array are read side by side, so one that breaks their shape is enough. Documents
other than arrays have problems only. -/
theorem breaksIff_readItems (known : KnownParts ctx j) (mismatch : ProblemKind) (s : Shape) :
    BreaksIff (readItems (viewOfJson ctx j) mismatch s) (∃ item ∈ j.items, Breaks ctx s item) := by
  rcases sequenceItems?_cases ctx j with ⟨items, rfl⟩ | ⟨hitems, hnone⟩
  · rw [readItems, sequenceItems?_array]
    exact .all (forall₂_itemsAt_known known s 0 fun _ => id)
  · rw [readItems, hnone, hitems]
    exact (BreaksIff.problems _).congr (by simp)

/-- So it is with lists, though items are not read at all where anything is accepted: then none of
them breaks anything either. -/
theorem breaksIff_readListItems (known : KnownParts ctx j) (s : Shape) :
    BreaksIff (readListItems (viewOfJson ctx j) s) (∃ item ∈ j.items, Breaks ctx s item) := by
  have hread := breaksIff_readItems known .listType s
  unfold readListItems
  cases hany : s.acceptsAnything with
  | false => exact hread
  | true =>
    cases j with
    | array items =>
      -- the items are kept unread
      refine (BreaksIff.pure _).congr (iff_of_false id ?_)
      rintro ⟨item, _, hbreaks⟩
      exact not_breaks_of_acceptsAnything s hany hbreaks
    | _ => exact hread

/-- In a document, a sequence is read as a list: nothing else could be one. -/
theorem readSequence_of_document (hctx : ctx.origin ≠ .caller) (v : View) (item : Shape) :
    readSequence ctx v item = do return .list (← readListItems v item) := by
  unfold readSequence
  cases horigin : ctx.origin with
  | caller => exact absurd horigin hctx
  | document | name => rfl

/-- Whether what is read can be hashed is a matter of problems, not of faults. -/
theorem faultsIff_hashed {item : Json} {b : Prop}
    (h : FaultsIff (reader ctx (valueOfJson item) s) b) :
    FaultsIff (Reader.hashed (reader ctx (valueOfJson item)) s) b := by
  refine h.bind_left fun v => ?_
  split
  · exact .pure v
  · exact .problems _

/-- To ask whether something can be hashed makes no progress fresh. -/
theorem keepsLoose_hashed {item : Json} (h : KeepsLoose (reader ctx (valueOfJson item) s)) :
    KeepsLoose (Reader.hashed (reader ctx (valueOfJson item)) s) := by
  refine h.bind fun v => ?_
  split
  · exact (FreshIff.pure v).keepsLoose
  · exact (FreshIff.throw _).keepsLoose

/-- Each item of a set ends its reading with a fault where it breaks the shape of the items. -/
theorem forall₂_itemsAt_hashed (known : KnownParts ctx j) (s : Shape) (n : Nat) {items : List Json}
    (hitems : ∀ item ∈ items, item ∈ j.items) :
    List.Forall₂ (fun item r => FaultsIff r (Breaks ctx s item) ∧ KeepsLoose r) items
      (itemsAt s n (items.map fun item => Reader.hashed (reader ctx (valueOfJson item)))) := by
  induction items generalizing n with
  | nil => exact .nil
  | cons item items ih =>
    obtain ⟨hitem, hrest⟩ := List.forall_mem_cons.mp hitems
    obtain ⟨hfaults, e, hfresh⟩ := known.items item hitem s
    refine .cons ⟨(faultsIff_hashed hfaults).under _, ?_⟩ (ih (n + 1) hrest)
    exact (keepsLoose_hashed hfresh.keepsLoose).under _

/-- Sets are no exact matches, since documents have none. So it does not matter whether their items,
which have to be hashable, match exactly. -/
theorem breaksIff_set {c : Closeness} (hc : c ≠ .exact) (known : KnownParts ctx j)
    (mismatch : ProblemKind) (frozen : Bool) (s : Shape) :
    BreaksIff (loosen c >>= fun _ => readSet (viewOfJson ctx j) mismatch frozen s)
      (∃ item ∈ j.items, Breaks ctx s item) := by
  unfold readSet
  rcases sequenceItems?_cases ctx j with ⟨items, rfl⟩ | ⟨hitems, hnone⟩
  · have hread := forall₂_itemsAt_hashed known s 0 fun _ => id
    rw [readItems, sequenceItems?_hashed]
    refine .loosened hc ((FaultsIff.all (hread.imp fun _ _ h => h.1)).bind_left fun _ => .pure _) ?_
    refine (KeepsLoose.all fun r hr => ?_).bind fun _ => (FreshIff.pure _).keepsLoose
    obtain ⟨item, -, -, hloose⟩ := Traversal.exists_of_mem_left hread.flip hr
    exact hloose
  · rw [readItems, sequenceItems?_of_value hnone, hitems]
    exact ((BreaksIff.problems _).map _).loosen c |>.congr (by simp)

/-- The items of a tuple are read side by side, each as its own shape. Shapes without an item only
add problems, and items without a shape are left out. -/
theorem breaksIff_all_readFixed (known : KnownParts ctx j) (n : Nat) (args : List Shape)
    {items : List Json} (hitems : ∀ item ∈ items, item ∈ j.items) :
    BreaksIff (all (readFixed n args (items.map fun item => reader ctx (valueOfJson item))))
      (∃ e ∈ args.zip items, Breaks ctx e.1 e.2) := by
  induction args generalizing n items with
  | nil => exact BreaksIff.all_nil.congr (by simp)
  | cons s args ih =>
    cases items with
    | nil =>
      have hmissing := (BreaksIff.problems (α := Value) [⟨[], .missing⟩]).under [.index n]
      have hrest : BreaksIff (all (readFixed (n + 1) args [])) _ := @ih (n + 1) [] nofun
      exact (hmissing.all_cons hrest).congr (by simp)
    | cons item items =>
      obtain ⟨hitem, hrest⟩ := List.forall_mem_cons.mp hitems
      have hfirst := (known.items item hitem s).under [.index n]
      exact (hfirst.all_cons (ih (n + 1) hrest)).congr (by simp)

/-- A tuple ends its reading with a fault where one of its items breaks its shape. That there are
too many items is found out later, so it makes no difference. -/
theorem breaksIff_tuple (known : KnownParts ctx j) (older : Bool) (args : List Shape) :
    BreaksIff (readGeneric ctx (viewOfJson ctx j) .tuple args)
      (Breaks ctx (.generic .tuple older args) j) := by
  refine .loosen _ (BreaksIff.congr ?_ breaks_tuple_iff.symm)
  rcases sequenceItems?_cases ctx j with ⟨items, rfl⟩ | ⟨hitems, hnone⟩
  · rw [sequenceItems?_array]
    have hread := breaksIff_all_readFixed known 0 args fun _ => id
    dsimp only
    split
    · exact hread.spoiled .tooLong
    · exact hread.map _
  · rw [hnone, hitems]
    exact (BreaksIff.problems _).congr (by simp)

/-! ### Entries -/

/-- An object that is read as a map ends the reading with a fault where the value of a member breaks
the shape of the values. Names never do. -/
theorem breaksIff_map (known : KnownParts ctx j) (key value : Shape) :
    BreaksIff (match (viewOfJson ctx j).value with
      | .map _ => readEntries key value (viewOfJson ctx j).entries
      | _ => throw (.here .mapType)) (∃ m ∈ j.members, Breaks ctx value m.2) := by
  cases j with
  | object members =>
    change BreaksIff (readEntries key value (viewOfJson ctx (.object members)).entries) _
    rw [viewOfJson_entries, readEntries, List.map_map]
    refine (BreaksIff.all (b := fun m : String × Json => Breaks ctx value m.2) ?_).map _
    refine List.forall₂_map_right_iff.mpr (List.forall₂_same.mpr fun m hm => ?_)
    have hkey := (known.keys m hm key).under [keyPlace (.text m.1), .key "[key]"]
    have hvalue := (known.values m hm value).under [keyPlace (.text m.1)]
    exact (hkey.both hvalue).congr (or_iff_right id)
  | _ => exact (BreaksIff.problems _).congr (by simp [Json.members])

/-- A document never matches a set exactly. -/
theorem containerCloseness_ne_exact (hctx : ctx.origin ≠ .caller) (v : Value) {head : Generic}
    (hhead : head = .set ∨ head = .frozenSet ∨ head = .abstractSet) :
    containerCloseness ctx.origin head v ≠ .exact := by
  cases horigin : ctx.origin with
  | caller => exact absurd horigin hctx
  | document | name => rcases hhead with rfl | rfl | rfl <;> exact nofun

/-- Iterables are not looked into. -/
theorem breaksIff_readIterable (v : Value) : BreaksIff (readIterable v) False := by
  unfold readIterable
  split
  · exact .pure _
  · exact .problems _

/-- Each kind of container ends its reading with a fault as its items or its values do. -/
theorem breaksIff_readGeneric (hctx : ctx.origin ≠ .caller) (known : KnownParts ctx j)
    (head : Generic) (older : Bool) (args : List Shape) :
    BreaksIff (readGeneric ctx (viewOfJson ctx j) head args)
      (Breaks ctx (.generic head older args) j) := by
  have hitems := breaksIff_readListItems known (args.headD .any)
  cases head with
  | list | mutableSequence =>
    exact ((hitems.map Value.list).loosen _).congr (breaks_iff_of_eachItem? rfl).symm
  | queue => exact ((hitems.map Value.queue).loosen _).congr (breaks_iff_of_eachItem? rfl).symm
  | iterable =>
    exact (breaksIff_readIterable _).congr (iff_of_false id (not_breaks_of_isAtomic rfl))
  | sequence =>
    rw [readGeneric, readSequence_of_document hctx]
    exact (hitems.map Value.list).congr (breaks_iff_of_eachItem? rfl).symm
  | set | frozenSet | abstractSet =>
    refine (breaksIff_set (containerCloseness_ne_exact hctx _ (by simp)) known _ _ _).congr ?_
    exact (breaks_iff_of_eachItem? rfl).symm
  | tuple => exact breaksIff_tuple known older args
  | map | abstractMap | mutableMap | orderedMap =>
    exact (breaksIff_map known _ _).congr (breaks_iff_of_eachValue? rfl).symm
  | type => exact (BreaksIff.problems _).congr (iff_of_false id (not_breaks_of_isAtomic rfl))

/-- A container without arguments accepts anything as its items and values, so nothing breaks it. -/
theorem not_breaks_generic_nil {head : Generic} {older : Bool} :
    ¬ Breaks ctx (.generic head older []) j := by
  intro h
  cases h with
  | part mem => simp at mem
  | item each _ h =>
    cases head <;> cases each
    all_goals exact not_breaks_of_isAtomic rfl h
  | value each _ h =>
    cases head <;> cases each
    all_goals exact not_breaks_of_isAtomic rfl h

theorem breaksIff_readVariadic (known : KnownParts ctx j) (s : Shape) :
    BreaksIff (readVariadic ctx (viewOfJson ctx j) s) (∃ item ∈ j.items, Breaks ctx s item) :=
  ((breaksIff_readItems known .tupleType s).map Value.tuple).loosen _

/-! ### Records -/

/-- The value of a field that is not given comes from its default, which cannot end with a fault. -/
theorem faultsIff_absentValue (f : Field) : FaultsIff (absentValue f) False := by
  unfold absentValue
  cases f.default with
  | required => exact .problems _
  | freshId => exact .bind_right (fun _ => ⟨_, rfl⟩) fun id => .pure _
  | _ => exact .pure _

theorem keepsLoose_absentValue (f : Field) : KeepsLoose (absentValue f) := by
  unfold absentValue
  cases f.default with
  | required => exact (FreshIff.throw _).keepsLoose
  | freshId => exact keepsLoose_freshId.bind fun id => (FreshIff.pure _).keepsLoose
  | _ => exact (FreshIff.pure _).keepsLoose

/-- The reading of the value of a field. -/
def fieldReading (ctx : Context) (r : RecordType) (f : Field) (m : String × Json) :
    Reading Value :=
  if asksForId r f (valueOfJson m.2) then do readAtom ctx (.text (← freshId)) f.shape
  else reader ctx (valueOfJson m.2) f.shape

/-- A field is read from the member that is found for it. -/
theorem readField_of_memberOf? {members : List (String × Json)} {m : String × Json}
    (h : memberOf? r f members = some m) :
    readField ctx r (members.map (entryOfJson ctx)) f = do
      return (f.name, keptValue r (← under [.key m.1] (fieldReading ctx r f m))) := by
  rw [readField, entryOf?_map, h]
  rfl

/-- A field for which no member is found has the value that stands for an absent one. -/
theorem readField_of_absent {members : List (String × Json)}
    (h : memberOf? r f members = none) :
    readField ctx r (members.map (entryOfJson ctx)) f = do
      return (f.name, ← absentValue f) := by
  rw [readField, entryOf?_map, h]
  rfl

/-- A field that gets a fresh identifier is read from a text and has no faults; any other field has
those of its member. -/
theorem faultsIff_fieldReading (known : KnownParts ctx j) {m : String × Json}
    (hm : m ∈ j.members) : FaultsIff (fieldReading ctx r f m)
      (asksForId r f (valueOfJson m.2) = false ∧ Breaks ctx f.shape m.2) := by
  unfold fieldReading
  cases asksForId r f (valueOfJson m.2) with
  | true =>
    have hread : FaultsIff (freshId >>= fun id => readAtom ctx (.text id) f.shape) False :=
      .bind_right (fun _ => ⟨_, rfl⟩) fun id => (known.texts m hm id f.shape).faults
    exact hread.congr (by simp)
  | false => exact (known.values m hm f.shape).faults.congr (by simp)

/-- The reading of the value of a field makes no progress fresh, whatever identifiers it makes. -/
theorem keepsLoose_fieldReading (known : KnownParts ctx j) {m : String × Json}
    (hm : m ∈ j.members) : KeepsLoose (fieldReading ctx r f m) := by
  unfold fieldReading
  cases asksForId r f (valueOfJson m.2) with
  | true =>
    have htext (id : String) : KeepsLoose (readAtom ctx (.text id) f.shape) := by
      obtain ⟨e, he⟩ := (known.texts m hm id f.shape).fresh
      exact he.keepsLoose
    exact keepsLoose_freshId.bind htext
  | false =>
    obtain ⟨e, he⟩ := (known.values m hm f.shape).fresh
    exact he.keepsLoose

/-- A field has the faults of the member that it is read from, if there is one. -/
theorem faultsIff_readField (known : KnownParts ctx j) (r : RecordType) (f : Field) :
    FaultsIff (readField ctx r (j.members.map (entryOfJson ctx)) f)
      (∃ m, memberOf? r f j.members = some m ∧ asksForId r f (valueOfJson m.2) = false ∧
        Breaks ctx f.shape m.2) := by
  cases hmember : memberOf? r f j.members with
  | none =>
    rw [readField_of_absent hmember]
    exact ((faultsIff_absentValue f).bind_left fun _ => .pure _).congr (by simp)
  | some m =>
    have hread := faultsIff_fieldReading (r := r) (f := f) known (mem_of_memberOf? hmember)
    rw [readField_of_memberOf? hmember]
    exact ((hread.under [.key m.1]).bind_left fun _ => .pure _).congr (by simp)

theorem keepsLoose_readField (known : KnownParts ctx j) (r : RecordType) (f : Field) :
    KeepsLoose (readField ctx r (j.members.map (entryOfJson ctx)) f) := by
  cases hmember : memberOf? r f j.members with
  | none =>
    rw [readField_of_absent hmember]
    exact (keepsLoose_absentValue f).bind fun _ => (FreshIff.pure _).keepsLoose
  | some m =>
    have hread := keepsLoose_fieldReading (r := r) (f := f) known (mem_of_memberOf? hmember)
    rw [readField_of_memberOf? hmember]
    exact (hread.under [.key m.1]).bind fun _ => (FreshIff.pure _).keepsLoose

/-- Records are no exact matches, so it does not matter which identifiers they get. -/
theorem breaksIff_readFields (known : KnownParts ctx j) (r : RecordType) :
    BreaksIff (readFields ctx r (j.members.map (entryOfJson ctx)))
      (∃ f ∈ r.fields, ∃ m, memberOf? r f j.members = some m ∧
        asksForId r f (valueOfJson m.2) = false ∧ Breaks ctx f.shape m.2) := by
  have hfaults := FaultsIff.all (List.forall₂_map_right_iff.mpr
    (List.forall₂_same.mpr fun f (_ : f ∈ r.fields) => faultsIff_readField known r f))
  have hloose :
      KeepsLoose (all (r.fields.map (readField ctx r (j.members.map (entryOfJson ctx))))) :=
    .all (List.forall_mem_map.mpr fun f _ => keepsLoose_readField known r f)
  -- a record is no exact match: that its fields do not make progress fresh is all there is to know
  refine .loosened nofun (hfaults.bind_left fun fields => ?_) (hloose.bind fun fields => ?_)
  · exact .bind_right (fun _ => ⟨_, rfl⟩) fun _ => .pure _
  · exact ((FreshIff.give _).bind fun _ => .pure _).keepsLoose

/-- A document ends its reading as a record with a fault where one of the fields of the record type
does. -/
theorem breaksIff_readRecord (known : KnownParts ctx j) (name : String) :
    BreaksIff (readRecord ctx (viewOfJson ctx j) name) (Breaks ctx (.record name) j) := by
  refine BreaksIff.congr ?_ breaks_record_iff.symm
  cases j with
  | object members =>
    unfold readRecord
    rw [viewOfJson_entries]
    cases ctx.catalogue.find? name with
    | none => exact (BreaksIff.problems _).congr (by simp)
    | some r => exact (breaksIff_readFields known r).congr (by simp)
  | _ => exact (BreaksIff.problems _).congr (by simp [Json.members, memberOf?_nil])

/-! ### Unions -/

/-- A union takes null at once and a sole other member as it is; only where there are several
members, they are searched in turn. -/
theorem breaksIff_readUnion {γ : Type} {b e : γ → Prop} {xs : List γ}
    {rs : List (String × Reading Value)} (v : Value) (nullable : Bool)
    (h : List.Forall₂ (fun x r => BreaksIff r.2 (b x) ∧ FreshIff r.2 (e x)) xs rs)
    (hnull : v = .none → ∀ x ∈ xs, ¬ b x) :
    BreaksIff (readUnion v nullable rs) (ComesFirst b e xs) := by
  unfold readUnion
  split
  · refine (BreaksIff.pure _).congr (iff_of_false id ?_)
    rintro ⟨before, x, after, rfl, hx, -⟩
    exact hnull rfl x (List.mem_append_right _ List.mem_cons_self) hx
  · obtain ⟨x, xs, hr, hnil, rfl⟩ := List.forall₂_cons_right_iff.mp h
    obtain rfl := List.forall₂_nil_right_iff.mp hnil
    exact hr.1.congr (by simp [comesFirst_cons, not_comesFirst_nil])
  · have hknown := h.imp fun x r hr => And.intro hr.1.faults hr.2
    exact ⟨.bestOf hknown nofun, _, .bestOf hknown nofun⟩

/-! ### Single values -/

/-- Kinds of single values without parts are read with problems at most. -/
theorem read_ne_fault {origin : Origin} {k : Scalar} (hk : k.hasParts = false) (v : Value)
    (fault : ValueFault) : k.read origin v ≠ .error (.fault fault) := by
  have hsettled (x : Except ProblemKind Value) :
      x.mapError Rejection.here ≠ .error (.fault fault) := by
    cases x <;> exact nofun
  cases k with
  | point | decimal => cases hk
  | bare | complex => exact nofun
  | _ => exact hsettled _

/-- A point ends its reading with a fault of one of its two parts. -/
theorem faultsIff_readPoint (j : Json) :
    FaultsIff (settled (Scalar.readPoint (valueOfJson j))) (BreaksPoint j) where
  isPartFault _ _ hfault := .float (readPoint_eq_fault_iff.mp hfault).1
  iff _ := by
    rw [breaksPoint_iff]
    exact exists_congr fun fault => readPoint_eq_fault_iff

/-- A decimal ends its reading with a fault of one of its three parts, wherever it comes from. -/
theorem faultsIff_readDecimal (origin : Origin) (j : Json) :
    FaultsIff (settled (Scalar.readDecimal origin (valueOfJson j))) (BreaksDecimal j) where
  isPartFault _ _ hfault := isPartFault_of_readDecimal hfault
  iff _ := by
    rw [breaksDecimal_iff origin]
    exact exists_congr fun fault =>
      ⟨fun hfault => ⟨isPartFault_of_readDecimal hfault, hfault⟩, fun h => h.2⟩

/-- A single value ends its reading with a fault where it breaks its kind. -/
theorem breaksIff_scalar (k : Scalar) :
    BreaksIff (do
      let read ← settled (k.read ctx.origin (valueOfJson j))
      loosen (k.closeness ctx.origin (valueOfJson j))
      return read) (Breaks ctx (.scalar k) j) := by
  refine .bind_left ⟨?_, _, .settled _⟩ (fun _ => .bind_right (fun _ => ⟨(), rfl⟩) fun _ => .pure _)
    fun _ => (FreshIff.loosen _).bind fun _ => .pure _
  cases k with
  | point => exact (faultsIff_readPoint j).congr breaks_point_iff.symm
  | decimal => exact (faultsIff_readDecimal _ j).congr breaks_decimal_iff.symm
  | _ =>
    refine (FaultsIff.settled (read_ne_fault rfl _)).congr (iff_of_false id ?_)
    exact not_breaks_of_isAtomic rfl

/-- A search for a value ends with problems at most. -/
theorem foundOr_ne_fault (absent : ProblemKind) (found : Except ProblemKind (Option Value))
    (fault : ValueFault) : foundOr absent found ≠ .error (.fault fault) := by
  unfold foundOr
  split <;> exact nofun

/-- A member of an enumeration is found or not, and neither is a fault. -/
theorem readMember_ne_fault (e : Enumeration) (v : Value) (fault : ValueFault) :
    readMember e v ≠ .error (.fault fault) := by
  unfold readMember
  split
  · split
    · exact nofun
    · exact foundOr_ne_fault _ _ fault
  · exact foundOr_ne_fault _ _ fault

/-! ### Shapes and documents -/

mutual

/-- A document whose parts are known ends a reading with a fault where it breaks the shape. -/
theorem breaksIff_readAs (hctx : ctx.origin ≠ .caller) (known : KnownParts ctx j) :
    (s : Shape) → BreaksIff
      (readAs ctx (viewOfJson ctx j) (readRecord ctx (viewOfJson ctx j)) s) (Breaks ctx s j)
  | .scalar k => by
    rw [readAs, viewOfJson_value]
    exact breaksIff_scalar k
  | .nullType | .nullValue => by
    rw [readAs]
    refine BreaksIff.congr ?_ (iff_of_false id (not_breaks_of_isAtomic rfl))
    split
    · exact .pure _
    · exact .problems _
  | .any => by
    rw [readAs]
    exact ((BreaksIff.pure _).loosen _).congr (iff_of_false id (not_breaks_of_isAtomic rfl))
  | .bare .tuple => by
    rw [readAs]
    refine (breaksIff_readVariadic known .any).congr (iff_of_false ?_ ?_)
    · rintro ⟨item, _, hbreaks⟩
      exact not_breaks_of_isAtomic rfl hbreaks
    · exact not_breaks_of_isAtomic rfl
  | .bare .list | .bare .set | .bare .frozenSet | .bare .sequence | .bare .mutableSequence
  | .bare .abstractSet | .bare .map | .bare .abstractMap | .bare .mutableMap | .bare .orderedMap
  | .bare .queue | .bare .iterable | .bare .type =>
    (breaksIff_readGeneric hctx known _ false []).congr
      (iff_of_false not_breaks_generic_nil (not_breaks_of_isAtomic rfl))
  | .record name => by
    rw [readAs]
    exact breaksIff_readRecord known name
  | .enumeration e => by
    have hread : BreaksIff (settled (readMember e (valueOfJson j))) False :=
      .settled (readMember_ne_fault e _)
    rw [readAs, viewOfJson_value]
    refine BreaksIff.congr ?_ (iff_of_false id (not_breaks_of_isAtomic rfl))
    exact hread.bind_left (fun _ => .bind_right (fun _ => ⟨(), rfl⟩) fun _ => .pure _)
      fun _ => (FreshIff.loosen _).bind fun _ => .pure _
  | .generic head older args => by
    rw [readAs]
    exact breaksIff_readGeneric hctx known head older args
  | .variadic item => by
    rw [readAs]
    exact (breaksIff_readVariadic known item).congr (breaks_iff_of_eachItem? rfl).symm
  | .union members => by
    -- a union takes null before it reads any member, and so it misses no fault of them
    have hnull (hvalue : valueOfJson j = .none) (s : Shape) : ¬ Breaks ctx s j := by
      cases j with
      | null => exact not_breaks_of_noParts rfl rfl
      | _ => cases hvalue
    rw [readAs, viewOfJson_value]
    refine BreaksIff.congr ?_ breaks_union_iff.symm
    exact breaksIff_readUnion _ _ (forall₂_readEach hctx known members) fun hvalue s _ =>
      hnull hvalue s
  | .annotated inner _ => by
    rw [readAs]
    exact (breaksIff_readAs hctx known inner).congr breaks_annotated_iff.symm
  | .literal values => by
    rw [readAs]
    refine (BreaksIff.settled (foundOr_ne_fault _ _)).congr ?_
    exact iff_of_false id (not_breaks_of_isAtomic rfl)
  | .renamed _ inner => by
    rw [readAs]
    exact (breaksIff_readAs hctx known inner).congr breaks_renamed_iff.symm

/-- The readings of a union are those of its members besides null, in their order. Each of them ends
with a fault where the document breaks the member, and ends the search where the document matches it
exactly. -/
theorem forall₂_readEach (hctx : ctx.origin ≠ .caller) (known : KnownParts ctx j) :
    (members : List Shape) → List.Forall₂
      (fun s r => BreaksIff r.2 (Breaks ctx s j) ∧ FreshIff r.2 (EndsSearch ctx s j))
      (members.filter fun s => !s.isNullType)
      (readEach ctx (viewOfJson ctx j) (readRecord ctx (viewOfJson ctx j)) members)
  | [] => by
    rw [readEach]
    exact .nil
  | s :: rest => by
    rw [readEach]
    have hrest := forall₂_readEach hctx known rest
    cases hnull : s.isNullType with
    | true =>
      rw [if_pos rfl, List.filter_cons_of_neg (by simp [hnull])]
      exact hrest
    | false =>
      have hread := breaksIff_readAs hctx known s
      have hfresh : FreshIff (readAs ctx (viewOfJson ctx j) (readRecord ctx (viewOfJson ctx j)) s)
          (EndsSearch ctx s j) := by
        rw [EndsSearch, reader_eq]
        exact hread.freshIff_start
      rw [if_neg nofun, List.filter_cons_of_pos (by simp [hnull])]
      exact .cons ⟨hread, hfresh⟩ hrest

end

/-- A text is read as any shape without a fault. -/
theorem breaksIff_text (hctx : ctx.origin ≠ .caller) (text : String) (s : Shape) :
    BreaksIff (reader ctx (.text text) s) False :=
  (breaksIff_readAs (j := .text text) hctx (.of_noParts rfl rfl) s).congr
    (iff_of_false (not_breaks_of_noParts rfl rfl) id)

/-- The names of members come from the document as well. -/
theorem Context.origin_ofKeys (hctx : ctx.origin ≠ .caller) : ctx.ofKeys.origin ≠ .caller := by
  rw [Context.ofKeys, if_neg hctx]
  exact nofun

mutual

/-- **Documents that end with faults.** To read a document as a shape ends with a fault exactly
where the document breaks the shape. -/
theorem breaksIff_reader (hctx : ctx.origin ≠ .caller) : (j : Json) → (s : Shape) →
    BreaksIff (reader ctx (valueOfJson j) s) (Breaks ctx s j)
  | .array items, s => by
    have known : KnownParts ctx (.array items) := ⟨breaksIff_items hctx items, nofun, nofun, nofun⟩
    rw [reader_eq]
    exact breaksIff_readAs hctx known s
  | .object members, s => by
    have known : KnownParts ctx (.object members) := by
      refine ⟨nofun, fun m _ => ?_, fun _ _ => breaksIff_text hctx, breaksIff_members hctx members⟩
      exact breaksIff_text (Context.origin_ofKeys hctx) m.1
    rw [reader_eq]
    exact breaksIff_readAs hctx known s
  | .null, s | .bool _, s | .int _, s | .float _, s | .text _, s => by
    rw [reader_eq]
    exact breaksIff_readAs hctx (.of_noParts rfl rfl) s

theorem breaksIff_items (hctx : ctx.origin ≠ .caller) : (items : List Json) →
    ∀ item ∈ items, ∀ s, BreaksIff (reader ctx (valueOfJson item) s) (Breaks ctx s item)
  | [] => nofun
  | item :: rest => List.forall_mem_cons.mpr
    ⟨breaksIff_reader hctx item, breaksIff_items hctx rest⟩

theorem breaksIff_members (hctx : ctx.origin ≠ .caller) : (members : List (String × Json)) →
    ∀ m ∈ members, ∀ s, BreaksIff (reader ctx (valueOfJson m.2) s) (Breaks ctx s m.2)
  | [] => nofun
  | (_, j) :: rest => List.forall_mem_cons.mpr
    ⟨breaksIff_reader hctx j, breaksIff_members hctx rest⟩

end

end IndexedRecords.Record
