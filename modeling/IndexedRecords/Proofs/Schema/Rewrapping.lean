import IndexedRecords.Proofs.Schema.Paths
import IndexedRecords.Proofs.Wrappers

/-!
# Schemas of wrapped fields

What a marked field contributes to a schema follows from its name, its key, its marker and the core
of its shape (`nodeOf_congr`). So wrappers around the shapes of fields, in any of the record types
of a catalogue (`Catalogue.Rewraps`), leave all schemas as they are.

The markers of an annotation are inert metadata: nothing but an index looks at them, and it looks at
the first one only that asks for the field to be indexed. An annotation that gives a field another
name or a default is no wrapper, since it is taken up by the field (`Field`) when the record type is
declared.

## Main statements

* `compile_rewrapped`: optional and annotated shapes have the schemas and the index types of the
  shapes inside.
-/

namespace IndexedRecords

/-! ### What the core of a shape holds -/

namespace Shape

/-- The items of a core are the cores of the items, for a shape whose own layers are off. A sequence
keeps its head, and only its first argument is looked into. -/
theorem element?_core {u : Shape} (h : u.isLayered = false) :
    u.core.element? = u.element?.map core := by
  cases u with
  | generic head older args =>
    rw [core]
    unfold element?
    by_cases kind : head.isSequence
    · simp only [if_pos kind]
      cases args with
      | nil => rfl
      | cons item rest => exact argument?_core item
    · simp only [if_neg kind]
      rfl
  | variadic item => exact argument?_core item
  | annotated | union => cases h
  | _ => rfl

/-- The values of a core of a map are the cores of the values. The keys stay as they are, since no
schema looks at them. -/
theorem mapValue?_core {u : Shape} (h : u.isLayered = false) :
    u.core.mapValue? = u.mapValue?.map core := by
  cases u with
  | generic head older args =>
    rw [core]
    unfold mapValue?
    by_cases kind : head.isMap
    · simp only [if_pos kind, if_neg (Generic.not_isSequence kind)]
      rcases args with _ | ⟨key, _ | ⟨value, _ | ⟨_, _⟩⟩⟩
      · rfl
      · rfl
      · exact argument?_core value
      · rfl
    · simp only [if_neg kind]
      rfl
  | annotated | union => cases h
  | _ => rfl

end Shape

namespace Schema

open Traversal

/-- What a field holds, with every shape replaced by another one. -/
def Holding.mapShape (f : Shape → Shape) : Holding → Holding
  | .one s => .one (f s)
  | .sequence item => .sequence (f item)
  | .map value => .map (f value)

theorem Holding.shape_mapShape (f : Shape → Shape) (held : Holding) :
    (held.mapShape f).shape = f held.shape := by
  cases held <;> rfl

theorem Holding.wildcard_mapShape (f : Shape → Shape) (held : Holding) :
    (held.mapShape f).wildcard = held.wildcard := by
  cases held <;> rfl

/-- The core of a shape holds the cores of what the shape holds. -/
theorem ofShape_core (s : Shape) :
    Holding.ofShape s.core = (Holding.ofShape s.unwrap).mapShape Shape.core := by
  refine Shape.read_core (g := fun u => (Holding.ofShape u).mapShape Shape.core) s
    (fun u hu hany => ?_) (fun u hu => ?_)
  · cases u <;> first | exact congrArg Holding.one hany.symm | cases hu
  · unfold Holding.ofShape
    rw [Shape.element?_core hu, Shape.mapValue?_core hu]
    cases u.element? with
    | some item => rfl
    | none => cases u.mapValue? <;> rfl

/-- A shape and its core name the same record type, if they name any: what cannot be told of the
layers of a union is no record type either way. -/
theorem recordType?_core (c : Catalogue) (s : Shape) :
    recordType? c s.core = recordType? c s.unwrap :=
  Shape.read_core s (fun u hu _ => by cases u <;> first | rfl | cases hu)
    (fun u hu => by cases u <;> first | rfl | cases hu)

/-- What a field holds has no outer layers. -/
theorem exists_unwrap_eq_shape (s : Shape) :
    ∃ t : Shape, (Holding.ofShape s.unwrap).shape = t.unwrap := by
  unfold Holding.ofShape
  -- items and values come without outer layers already
  cases helement : s.unwrap.element? with
  | some item =>
    unfold Shape.element? at helement
    split at helement
    · split at helement
      · split at helement
        · exact ⟨.any, (Option.some.inj helement).symm⟩
        · exact ⟨_, (eq_of_argument? helement).symm⟩
      · cases helement
    · exact ⟨_, (eq_of_argument? helement).symm⟩
    · cases helement
  | none =>
    cases hvalue : s.unwrap.mapValue? with
    | some value =>
      unfold Shape.mapValue? at hvalue
      split at hvalue
      · split at hvalue
        · split at hvalue
          · exact ⟨_, (eq_of_argument? hvalue).symm⟩
          · exact ⟨.any, (Option.some.inj hvalue).symm⟩
        · cases hvalue
      · cases hvalue
    | none => exact ⟨s, rfl⟩

/-! ### One field -/

section Field

variable {c : Catalogue} {nested : RecordType → Except SchemaFault (List Leaf)} {owner : String}
  {f f' : Field} {m : Marker}

/-- What a marked field contributes to a schema does not change when its shape is replaced by its
core. The name, the key and the marker have to stay. -/
theorem nodeOf_core (hname : f'.name = f.name) (hkey : f'.pathKey = f.pathKey)
    (hshape : f'.shape = f.shape.core) :
    nodeOf c nested owner f' m = nodeOf c nested owner f m := by
  obtain ⟨t, ht⟩ := exists_unwrap_eq_shape f.shape
  have hrecord : recordType? c (Holding.ofShape f.shape.unwrap).shape.core =
      recordType? c (Holding.ofShape f.shape.unwrap).shape := by
    rw [ht, Shape.core_unwrap, recordType?_core]
  have hwhole : (Holding.ofShape f.shape.unwrap).shape.core.isWhole =
      (Holding.ofShape f.shape.unwrap).shape.isWhole := by
    rw [ht, Shape.core_unwrap, Shape.isWhole_core]
  simp only [nodeOf, hname, hkey, hshape, Shape.unwrap_core, ofShape_core, Holding.shape_mapShape,
    Holding.wildcard_mapShape, hrecord, Shape.indexType_core, Shape.isWhole_core,
    f.shape.unwraps.indexType_eq]
  generalize Holding.ofShape f.shape.unwrap = held at hwhole ⊢
  cases held with
  | one | map => cases recordType? c _ <;> rfl
  | sequence item =>
    have hitem : item.core.isWhole = item.isWhole := hwhole
    cases recordType? c _ with
    | some => rfl
    | none => simp only [Holding.mapShape, hitem]

/-- What a field contributes follows from its name, its key and the core of its shape. -/
theorem nodeOf_congr (hname : f'.name = f.name) (hkey : f'.pathKey = f.pathKey)
    (hcore : f'.shape.core = f.shape.core) :
    nodeOf c nested owner f' m = nodeOf c nested owner f m := by
  have hbare : nodeOf c nested owner { f with shape := f.shape.core } m =
      nodeOf c nested owner f' m := nodeOf_core hname.symm hkey.symm hcore.symm
  rw [← hbare]
  exact nodeOf_core rfl rfl rfl

/-- Null itself in the place of a shape contributes what its type does. -/
theorem nodeOf_settle :
    nodeOf c nested owner { f with shape := f.shape.settle } m = nodeOf c nested owner f m := by
  obtain ⟨name, shape, markers, sharedAlias, writtenAlias, readAlias, default⟩ := f
  cases shape <;> rfl

end Field

end Schema

/-! ### Families of record types -/

/-- A field is another one, or declared with a wrapped shape. -/
inductive Field.Rewraps : Field → Field → Prop
  | refl (f : Field) : Field.Rewraps f f
  | declare (name : String) {s t : Shape} (markers : List Marker)
      (sharedAlias writtenAlias readAlias : Option String) (default : Default)
      (h : s.settle.Rewraps true t) :
      Field.Rewraps (.declare name s markers sharedAlias writtenAlias readAlias default)
        (.declare name t markers sharedAlias writtenAlias readAlias default)

/-- A record type is another one, with wrapped shapes of fields. -/
structure RecordType.Rewraps (r r' : RecordType) : Prop where
  name_eq : r'.name = r.name
  lineage_eq : r'.lineage = r.lineage
  ancestors_eq : r'.ancestors = r.ancestors
  home_eq : r'.home = r.home
  fields : List.Forall₂ Field.Rewraps r.fields r'.fields

/-- What a record type states is what another one does, with wrapped shapes of fields. -/
structure Declaration.Rewraps (d d' : Declaration) : Prop where
  name_eq : d'.name = d.name
  base_eq : d'.base = d.base
  keyPrefix_eq : d'.keyPrefix = d.keyPrefix
  indexName_eq : d'.indexName = d.indexName
  fields : List.Forall₂ Field.Rewraps d.fields d'.fields

/-- A catalogue is another one with wrapped shapes of fields, in any of its record types. -/
def Catalogue.Rewraps (c c' : Catalogue) : Prop := List.Forall₂ RecordType.Rewraps c.types c'.types

namespace Schema

open Traversal

variable {c c' : Catalogue} {nested nested' : RecordType → Except SchemaFault (List Leaf)}

/-- The shape that a field gets when it is declared with a given one. -/
theorem exists_declare_eq (name : String) (s : Shape) (markers : List Marker)
    (sharedAlias writtenAlias readAlias : Option String) (default : Default) :
    ∃ inner : Shape, inner.core = s.core ∧ (s = .nullValue → inner = .nullValue) ∧
      Field.declare name s markers sharedAlias writtenAlias readAlias default =
        ⟨name, inner, s.ownMarkers ++ markers, sharedAlias, writtenAlias, readAlias, default⟩ := by
  cases s with
  | annotated inner ms => exact ⟨inner, rfl, nofun, rfl⟩
  | _ => exact ⟨_, rfl, id, rfl⟩

/-- Null in the place of a type has no markers, and neither has the type of null. -/
theorem ownMarkers_settle (s : Shape) : s.settle.ownMarkers = s.ownMarkers := by
  cases s <;> rfl

/-- A field with a wrapped shape contributes what the field did. -/
theorem fieldLeaves_rewraps {f f' : Field} (h : f.Rewraps f') (owner : String) :
    fieldLeaves c nested owner f' = fieldLeaves c nested owner f := by
  cases h with
  | refl => rfl
  | @declare name s t markers sharedAlias writtenAlias readAlias default h =>
    obtain ⟨inner, hinner, hnull, hs⟩ :=
      exists_declare_eq name s markers sharedAlias writtenAlias readAlias default
    obtain ⟨inner', hinner', -, ht⟩ :=
      exists_declare_eq name t markers sharedAlias writtenAlias readAlias default
    rw [hs, ht]
    have hmarker : (t.ownMarkers ++ markers).find? Marker.isIndexing =
        (s.ownMarkers ++ markers).find? Marker.isIndexing := by
      rw [List.find?_append, List.find?_append, h.find?_ownMarkers, ownMarkers_settle]
    have hnode : ∀ m, nodeOf c nested owner
        ⟨name, inner', t.ownMarkers ++ markers, sharedAlias, writtenAlias, readAlias, default⟩ m =
        nodeOf c nested owner
          ⟨name, inner, s.ownMarkers ++ markers, sharedAlias, writtenAlias, readAlias, default⟩
            m := by
      intro m
      -- null in the place of a type settles as the type of null before it is wrapped
      by_cases hsnull : s = .nullValue
      · rw [← nodeOf_settle (f := ⟨name, inner, _, _, _, _, _⟩)]
        refine nodeOf_congr rfl rfl ?_
        rw [hinner', h.core_eq, hnull hsnull, hsnull]
      · refine nodeOf_congr rfl rfl ?_
        rw [hinner', h.core_eq, Shape.settle_eq_self hsnull, hinner]
    simp only [fieldLeaves, Field.indexing?, hmarker, hnode]

/-! ### Catalogues -/

/-- In two catalogues that correspond, a name leads to record types that correspond, or to none in
either. -/
theorem forall₂_find? {rs rs' : List RecordType} (h : List.Forall₂ RecordType.Rewraps rs rs')
    (name : String) : Option.Rel RecordType.Rewraps (rs.find? fun r => r.name = name)
      (rs'.find? fun r => r.name = name) := by
  induction h with
  | nil => exact .none
  | cons hr _ ih =>
    rw [List.find?_cons, List.find?_cons, hr.name_eq]
    split
    · exact .some hr
    · exact ih

/-- A shape names record types that correspond in two catalogues that do. -/
theorem recordType?_rewraps (h : c.Rewraps c') (s : Shape) :
    Option.Rel RecordType.Rewraps (recordType? c s) (recordType? c' s) := by
  cases s with
  | record name => exact forall₂_find? h name
  | _ => exact .none

/-- A field contributes the same in a catalogue with wrapped shapes, if the record types in it
do. -/
theorem fieldLeaves_catalogue (h : c.Rewraps c')
    (hnested : ∀ r r' : RecordType, r.Rewraps r' → nested' r' = nested r) (owner : String)
    (f : Field) : fieldLeaves c' nested' owner f = fieldLeaves c nested owner f := by
  have hnode : ∀ m, nodeOf c' nested' owner f m = nodeOf c nested owner f m := by
    intro m
    simp only [nodeOf]
    generalize Holding.ofShape f.shape.unwrap = held
    have hrecord := recordType?_rewraps h held.shape
    generalize recordType? c held.shape = found at hrecord ⊢
    generalize recordType? c' held.shape = found' at hrecord ⊢
    cases hrecord with
    | none => cases held <;> rfl
    | @some r r' hr =>
      have hsearchable : r'.isSearchable = r.isSearchable := by
        rw [RecordType.isSearchable, hr.lineage_eq, RecordType.isSearchable]
      cases held <;> simp only [hnested r r' hr, hsearchable]
  simp only [fieldLeaves, hnode]

/-- One step of compiling a record type with wrapped shapes. -/
theorem assembled_rewraps (h : c.Rewraps c')
    (hnested : ∀ r r' : RecordType, r.Rewraps r' → nested' r' = nested r) {r r' : RecordType}
    (hr : r.Rewraps r') : assembled c' nested' r' = assembled c nested r := by
  have hfields : ∀ {fs fs' : List Field}, List.Forall₂ Field.Rewraps fs fs' →
      fs'.mapM (fieldLeaves c' nested' r.name) = fs.mapM (fieldLeaves c nested r.name) := by
    intro fs fs' hfs
    induction hfs with
    | nil => rfl
    | cons hf _ ih =>
      rw [List.mapM_cons, List.mapM_cons, ih, fieldLeaves_rewraps hf,
        fieldLeaves_catalogue h hnested]
  rw [assembled, assembled, hr.name_eq, hfields hr.fields]

/-- Record types that correspond have the same leaves within every bound. The induction is on the
bound; nested record types correspond again, and have the same leaves within the smaller one. -/
theorem leavesWithin_rewraps (h : c.Rewraps c') (bound : Nat) (enclosing : List String)
    {r r' : RecordType} (hr : r.Rewraps r') :
    leavesWithin c' bound enclosing r' = leavesWithin c bound enclosing r := by
  induction bound generalizing enclosing r r' with
  | zero => rw [leavesWithin, leavesWithin, hr.name_eq]
  | succ bound ih =>
    rw [leavesWithin_succ, leavesWithin_succ]
    refine assembled_rewraps h (fun s s' hs => ?_) hr
    rw [hs.name_eq, ih _ hs]

/-- A record type with wrapped shapes of fields has the schema that it had. -/
theorem compile_rewraps (h : c.Rewraps c') {r r' : RecordType} (hr : r.Rewraps r') :
    compile c' r' = compile c r := by
  have hlength : c'.types.length = c.types.length := h.length_eq.symm
  simp only [compile, leaves, hlength, hr.name_eq, leavesWithin_rewraps h _ _ hr]

end Schema

/-! ### Declared families -/

theorem RecordType.Rewraps.refl (r : RecordType) : r.Rewraps r :=
  ⟨rfl, rfl, rfl, rfl, List.forall₂_same.mpr fun f _ => .refl f⟩

theorem Catalogue.Rewraps.refl (c : Catalogue) : c.Rewraps c :=
  List.forall₂_same.mpr fun r _ => .refl r

/-- Wrapping the shape of a field keeps its name. -/
theorem Field.Rewraps.name_eq {f f' : Field} (h : f.Rewraps f') : f'.name = f.name := by
  cases h with
  | refl => rfl
  | declare name markers sharedAlias writtenAlias readAlias default h =>
    unfold Field.declare
    split <;> split <;> rfl

/-- Fields stay in correspondence when one more is added, in the place of an inherited field of its
name or at the end. -/
theorem Catalogue.addField_rewraps {fs fs' : List Field} {f f' : Field}
    (hfs : List.Forall₂ Field.Rewraps fs fs') (hf : f.Rewraps f') :
    List.Forall₂ Field.Rewraps (addField fs f) (addField fs' f') := by
  have hnames : fs'.map Field.name = fs.map Field.name := by
    induction hfs with
    | nil => rfl
    | cons h _ ih => rw [List.map_cons, List.map_cons, h.name_eq, ih]
  have hany : (fs'.any fun g => g.name = f.name) = fs.any fun g => g.name = f.name := by
    have h := congrArg (List.any · (· = f.name)) hnames
    rw [List.any_map, List.any_map] at h
    exact h
  unfold addField
  rw [hf.name_eq, hany]
  split
  · rw [List.forall₂_map_left_iff, List.forall₂_map_right_iff]
    refine hfs.imp fun g g' hg => ?_
    rw [hg.name_eq]
    split
    · exact hf
    · exact hg
  · exact List.rel_append hfs (.cons hf .nil)

/-- Inherited fields and stated ones that correspond make fields that do. -/
theorem Catalogue.foldl_addField_rewraps {fs fs' gs gs' : List Field}
    (hgs : List.Forall₂ Field.Rewraps gs gs') (hfs : List.Forall₂ Field.Rewraps fs fs') :
    List.Forall₂ Field.Rewraps (gs.foldl addField fs) (gs'.foldl addField fs') := by
  induction hgs generalizing fs fs' with
  | nil => exact hfs
  | cons hg _ ih => exact ih (addField_rewraps hfs hg)

/-- Wrapping shapes in the declaration of a record type wraps them in the record type; wrapping them
in the type that it extends does so, too. -/
theorem Catalogue.Rewraps.declare {c c' : Catalogue} {d d' : Declaration} (h : c.Rewraps c')
    (hd : d.Rewraps d') : (c.declare d).Rewraps (c'.declare d') := by
  have hbase : ((c.find? d.base).getD .plainBase).Rewraps ((c'.find? d.base).getD .plainBase) := by
    have hfound : Option.Rel RecordType.Rewraps (c.find? d.base) (c'.find? d.base) :=
      Schema.forall₂_find? h d.base
    generalize c.find? d.base = base at hfound ⊢
    generalize c'.find? d.base = base' at hfound ⊢
    cases hfound with
    | none => exact .refl _
    | some hr => exact hr
  have hhome : homeOf d' = homeOf d := by
    rw [homeOf, homeOf, hd.name_eq, hd.keyPrefix_eq, hd.indexName_eq]
  refine List.rel_append h (.cons ?_ .nil)
  rw [hd.base_eq]
  refine ⟨hd.name_eq, hbase.lineage_eq, ?_, ?_, foldl_addField_rewraps hd.fields hbase.fields⟩
  · rw [hbase.name_eq, hbase.ancestors_eq]
  · rw [hbase.lineage_eq, hhome]

/-! ### Main result -/

namespace Schema

/-- **Optional and annotated shapes.** Where the shapes of fields are wrapped by annotations and by
unions with null, around the whole of them or around the items of sequences and the values of maps,
every record type of the family has the schema that it had, be it a list of leaves or a fault. The
index type of any shape stays the same with such wrappers. Annotations hold markers, which are inert
for everything but the index. -/
theorem compile_rewrapped :
    (∀ c c' : Catalogue, c.Rewraps c' → c'.types.map (compile c') = c.types.map (compile c)) ∧
      ∀ s t : Shape, s.settle.Rewraps false t → t.indexType = s.indexType := by
  refine ⟨fun c c' h => ?_, fun s t h => ?_⟩
  · have hall : ∀ {rs rs' : List RecordType}, List.Forall₂ RecordType.Rewraps rs rs' →
        rs'.map (compile c') = rs.map (compile c) := by
      intro rs rs' hrs
      induction hrs with
      | nil => rw [List.map_nil, List.map_nil]
      | cons hr _ ih => rw [List.map_cons, List.map_cons, compile_rewraps h hr, ih]
    exact hall h
  · have hsettle : s.settle.indexType = s.indexType := by
      by_cases hs : s = .nullValue
      · simp only [hs, Shape.settle, Shape.indexType]
      · rw [Shape.settle_eq_self hs]
    rw [← Shape.indexType_core t, h.core_eq, Shape.indexType_core, hsettle]

/-- Polls, with given shapes of their scores, their answers and their topic. -/
def polls (scores answers topic : Shape) : Catalogue :=
  (Catalogue.bases.declare
    ⟨"Answer", "EmbeddedJsonModel", none, none, [indexedField "text" (.scalar .text)]⟩).declare
    ⟨"Poll", "JsonModel", none, none,
      [indexedField "scores" scores, indexedField "answers" answers, indexedField "topic" topic]⟩

/-- Polls whose fields have no wrappers. -/
def plainPolls : Catalogue :=
  polls (.generic .list false [.scalar .int])
    (.generic .map false [.scalar .text, .record "Answer"])
    (.union [.scalar .int, .scalar .text])

/-- Polls with wrappers around items, around values and around whole shapes. -/
def wrappedPolls : Catalogue :=
  polls (Shape.generic .list false [.annotate (.scalar .int) [.other "points"]]).optional
    (.generic .map false [.scalar .text, .unionOf [.nullType, .record "Answer"]])
    (.annotate (.union [.scalar .int, .scalar .text]) [.other "heading"])

theorem compile_rewrapped_polls :
    plainPolls.Rewraps wrappedPolls ∧
      wrappedPolls.types.map (compile wrappedPolls) = plainPolls.types.map (compile plainPolls) ∧
      (Shape.scalar .bool).optional.indexType = (Shape.scalar .bool).indexType := by
  have hscores : (Shape.generic .list false [.scalar .int]).Rewraps true
      (Shape.generic .list false [.annotate (.scalar .int) [.other "points"]]).optional :=
    .trans (.item [] rfl (.wrap (.marked [.other "points"]) ⟨by simp, by simp⟩ (by simp)))
      (.wrap .nullLast (Shape.proper_generic _ _ _) fun _ => List.forall_mem_nil _)
  have hanswers : (Shape.generic .map false [.scalar .text, .record "Answer"]).Rewraps true
      (.generic .map false [.scalar .text, .unionOf [.nullType, .record "Answer"]]) :=
    .value _ rfl (.wrap .nullFirst ⟨by simp, by simp⟩ (by simp))
  have htopic : (Shape.union [.scalar .int, .scalar .text]).Rewraps true
      (.annotate (.union [.scalar .int, .scalar .text]) [.other "heading"]) :=
    .wrap (.marked [.other "heading"])
      ⟨by simp, fun _ h => Shape.union.inj h ▸ by simp [Shape.AllDistinct, Shape.same]⟩
      fun _ => by simp [Shape.Wrapper.KeepsMarker, Marker.isIndexing]
  have hpolls : plainPolls.Rewraps wrappedPolls :=
    .declare (.refl _) ⟨rfl, rfl, rfl, rfl, .cons (.declare _ _ _ _ _ _ hscores)
      (.cons (.declare _ _ _ _ _ _ hanswers) (.cons (.declare _ _ _ _ _ _ htopic) .nil))⟩
  exact ⟨hpolls, compile_rewrapped.1 _ _ hpolls,
    compile_rewrapped.2 _ _ (.wrap .nullLast ⟨by simp [Shape.settle], by simp [Shape.settle]⟩
      (fun h => absurd h Bool.false_ne_true))⟩

end Schema

end IndexedRecords
