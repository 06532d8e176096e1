import IndexedRecords.Proofs.Schema.Names
import IndexedRecords.Search.Predicate
import IndexedRecords.Search.Reference

/-!
# References to leaves

A reference is a list of steps from the fields of a record type, and each step is a subscript or a
name after a point. A name that is a property of what the reference has led to so far finds this
property; a step that finds none (`ReferenceStep.IsPlain`) goes on to a field. A reference of plain
steps leads to the leaf that has the dotted name of the reference, however its steps are written,
and to nothing where no leaf has that name.

## Main statements

* `Reference.exists_field_of_isPlain`: plain steps lead to a field of the dotted name.
* `FieldPath.resolve_eq`: a field is looked up among the leaves of its record type.
* `Schema.names_are_keys`: names and aliases of leaves are keys, and references reach every leaf.
-/

namespace IndexedRecords

open Relation Schema Text

variable {c : Catalogue} {r : RecordType} {ls : List Leaf} {l : Leaf} {ref : Reference}
  {step : ReferenceStep} {word : String}

/-! ### Steps that find no property -/

/-- The properties of the fields of a record type, those with an underscore in front apart. -/
def fieldsWords : List String := ["model"]

/-- The properties of a field, those with an underscore in front apart. -/
def fieldWords : List String := ["name", "path", "model", "between", "in_", "within", "resolve"]

namespace ReferenceStep

/-- The name that a step gives. -/
def name : ReferenceStep → String
  | .dot name => name
  | .item name => name

/-- A step finds no property: it is a subscript, or a name after a point that is none of some words
and has no underscore in front. -/
def IsPlain (words : List String) : ReferenceStep → Prop
  | .dot name => "_".isPrefixOf name = false ∧ name ∉ words
  | .item _ => True

end ReferenceStep

namespace Reference

/-- A reference has a step, and none of its steps finds a property. -/
def IsPlain (ref : Reference) : Prop :=
  ∃ first rest, ref.steps = first :: rest ∧ first.IsPlain fieldsWords ∧
    ∀ step ∈ rest, step.IsPlain fieldWords

/-- The names of the steps of a reference with points between them. -/
def dottedName (ref : Reference) : String := ".".intercalate (ref.steps.map ReferenceStep.name)

end Reference

/-! ### Texts cut at points -/

theorem joinWith_eq_intercalate (sep : List Char) (parts : List (List Char)) :
    joinWith sep parts = sep.intercalate parts := by
  induction parts with
  | nil => rfl
  | cons part parts ih =>
    rcases parts with _ | ⟨next, parts⟩
    · rw [joinWith, List.intercalate_singleton]
    · rw [List.intercalate_cons_cons, ← ih, joinWith]
      exact List.cons_ne_nil next parts

/-- The parts of a text between its points, with points between them, are the text. -/
theorem intercalate_splitAll (text : String) :
    ".".intercalate ((splitAll '.' text.toList).map String.ofList) = text := by
  have hparts : ((splitAll '.' text.toList).map String.ofList).map String.toList =
      splitAll '.' text.toList := by
    rw [List.map_map]
    exact List.map_id'' (fun _ => String.toList_ofList) _
  refine String.toList_injective ?_
  rw [String.toList_intercalate, hparts]
  exact (joinWith_eq_intercalate ['.'] _).symm.trans (joinWith_splitAll '.' text.toList)

/-- Of several texts with points between them, the first ones may be put together before. -/
theorem intercalate_append {first : List String} (hfirst : first ≠ []) (rest : List String) :
    ".".intercalate (first ++ rest) = ".".intercalate (".".intercalate first :: rest) := by
  induction first with
  | nil => exact absurd rfl hfirst
  | cons text first ih =>
    rcases first with _ | ⟨next, first⟩
    · rw [String.intercalate_singleton, List.singleton_append]
    · have hrest := ih (List.cons_ne_nil next first)
      rw [List.cons_append, List.cons_append, String.intercalate_cons_cons,
        String.intercalate_cons_cons, ← List.cons_append, hrest]
      rcases rest with _ | ⟨last, rest⟩
      · simp only [String.intercalate_singleton]
      · simp only [String.intercalate_cons_cons, String.append_assoc]

/-! ### Names that are no properties -/

namespace Referent

/-- The names of all properties of what a reference has led to are words that are known, or have an
underscore in front. -/
theorem lookup_properties_eq_none {referent : Referent} {words : List String}
    (hwords : ((referent.properties c).map Prod.fst).all
      (fun word => words.contains word || "_".isPrefixOf word) = true)
    (hunderscore : "_".isPrefixOf word = false) (hword : word ∉ words) :
    (referent.properties c).lookup word = none := by
  rw [List.lookup_eq_none_iff]
  intro e he
  rw [bne_iff_ne]
  rintro rfl
  have hknown := List.all_eq_true.mp hwords e.1 (List.mem_map_of_mem he)
  rw [hunderscore, Bool.or_false, List.contains_iff_mem] at hknown
  exact hword hknown

theorem dot_fields (hunderscore : "_".isPrefixOf word = false) (hword : word ∉ fieldsWords)
    (model : String) : (Referent.fields model).dot c word = .ok (.field ⟨model, [word]⟩) := by
  have hnone : ((Referent.fields model).properties c).lookup word = none := by
    refine lookup_properties_eq_none ?_ hunderscore hword
    have hkeys : ((Referent.fields model).properties c).map Prod.fst =
        ((Referent.fields "").properties ⟨[]⟩).map Prod.fst := rfl
    rw [hkeys]
    decide +kernel
  rw [dot, hnone]
  simp [nameUnder, hunderscore]

theorem dot_field (hunderscore : "_".isPrefixOf word = false) (hword : word ∉ fieldWords)
    (path : FieldPath) :
    (Referent.field path).dot c word = .ok (.field ⟨path.model, path.steps ++ [word]⟩) := by
  have hnone : ((Referent.field path).properties c).lookup word = none := by
    refine lookup_properties_eq_none ?_ hunderscore hword
    have hkeys : ((Referent.field path).properties c).map Prod.fst =
        ((Referent.field ⟨"", []⟩).properties ⟨[]⟩).map Prod.fst := rfl
    rw [hkeys]
    decide +kernel
  rw [dot, hnone]
  simp [nameUnder, hunderscore]

/-- A plain step goes on from a field to one under it. -/
theorem follow_field (h : step.IsPlain fieldWords) (path : FieldPath) :
    (Referent.field path).follow c step =
      .ok (.field ⟨path.model, path.steps ++ [step.name]⟩) := by
  cases step with
  | dot name => exact dot_field h.1 h.2 path
  | item name => rfl

/-- So do several of them. -/
theorem foldlM_follow_field {steps : List ReferenceStep}
    (h : ∀ step ∈ steps, step.IsPlain fieldWords)
    (path : FieldPath) :
    steps.foldlM (follow c) (Referent.field path) =
      .ok (.field ⟨path.model, path.steps ++ steps.map ReferenceStep.name⟩) := by
  induction steps generalizing path with
  | nil => simp [pure, Except.pure]
  | cons step steps ih =>
    have hfirst := follow_field (c := c) (h step List.mem_cons_self) path
    have hrest := ih (fun step hstep => h step (List.mem_cons_of_mem _ hstep))
      ⟨path.model, path.steps ++ [step.name]⟩
    rw [List.foldlM_cons, hfirst]
    refine hrest.trans ?_
    simp

/-- A plain step leads from the fields of a record type to one of them; the name of a subscript may
have points, which part the names of fields. -/
theorem exists_follow_fields (h : step.IsPlain fieldsWords) (model : String) :
    ∃ steps, steps ≠ [] ∧ ".".intercalate steps = step.name ∧
      (Referent.fields model).follow c step = .ok (.field ⟨model, steps⟩) := by
  cases step with
  | dot name => exact ⟨[name], by simp, String.intercalate_singleton, dot_fields h.1 h.2 model⟩
  | item name =>
    refine ⟨(splitAll '.' name.toList).map String.ofList, ?_, ?_, rfl⟩
    · simpa using splitAll_ne_nil '.' name.toList
    · exact intercalate_splitAll name

/-- The fields of a record type with a schema for search are a property of the record type. -/
theorem dot_fields_of_isSearchable (hr : c.find? r.name = some r) (hsearchable : r.isSearchable) :
    (Referent.recordType r.name).dot c "fields" = .ok (.fields r.name) := by
  have hfound : ((Referent.recordType r.name).properties c).lookup "fields" =
      some (.fields r.name) := by
    rw [properties, hr]
    simp only [Option.map_some, Option.getD_some, RecordType.properties, hsearchable, if_true]
    cases r.home <;> rfl
  rw [dot, hfound]

end Referent

/-! ### Leaves that references lead to -/

namespace Reference

theorem referent_eq (hr : c.find? ref.model = some r) (hsearchable : r.isSearchable) :
    ref.referent c = ref.steps.foldlM (Referent.follow c) (.fields ref.model) := by
  have hname : r.name = ref.model := by simpa using List.find?_some hr
  rw [← hname] at hr ⊢
  rw [referent, ← hname, Referent.dot_fields_of_isSearchable hr hsearchable]
  rfl

/-- **References.** Steps that find no property lead to a field that has the dotted name of the
reference. -/
theorem exists_field_of_isPlain (hr : c.find? ref.model = some r) (hsearchable : r.isSearchable)
    (h : ref.IsPlain) :
    ∃ path, ref.field c = .ok path ∧ path.model = ref.model ∧ path.name = ref.dottedName := by
  obtain ⟨first, rest, hsteps, hfirst, hrest⟩ := h
  obtain ⟨names, hne, hnames, hfollow⟩ :=
    Referent.exists_follow_fields (c := c) hfirst ref.model
  refine ⟨⟨ref.model, names ++ rest.map ReferenceStep.name⟩, ?_, rfl, ?_⟩
  · have hreferent : ref.referent c =
        .ok (.field ⟨ref.model, names ++ rest.map ReferenceStep.name⟩) := by
      rw [referent_eq hr hsearchable, hsteps, List.foldlM_cons, hfollow]
      exact Referent.foldlM_follow_field hrest ⟨ref.model, names⟩
    rw [field, hreferent]
    rfl
  · rw [FieldPath.name, dottedName, hsteps, List.map_cons, ← hnames]
    exact intercalate_append hne _

end Reference

/-- A field is looked up by its dotted name among the leaves of its record type. -/
theorem FieldPath.resolve_eq {path : FieldPath} (hr : c.find? path.model = some r)
    (hcompile : compile c r = .ok ls) :
    path.resolve c = match ls.find? fun l => l.name = path.name with
      | some l => .ok l
      | none => .error (.notIndexed path.model (Value.quotedText path.name)) := by
  rw [resolve, hr]
  simp only [findLeaf_eq hcompile]
  rfl

theorem FieldPath.resolve_eq_ok_iff {path : FieldPath} (hr : c.find? path.model = some r)
    (hcompile : compile c r = .ok ls) (hnodup : (ls.map Leaf.name).Nodup) :
    path.resolve c = .ok l ↔ l ∈ ls ∧ l.name = path.name := by
  rw [resolve_eq hr hcompile]
  constructor
  · intro h
    split at h
    · next found hfound =>
      cases h
      exact ⟨List.mem_of_find?_eq_some hfound, by simpa using List.find?_some hfound⟩
    · cases h
  · rintro ⟨hl, hname⟩
    rw [← hname, find?_of_mem hnodup hl]

theorem FieldPath.resolve_eq_error {path : FieldPath} (hr : c.find? path.model = some r)
    (hcompile : compile c r = .ok ls) (h : ∀ l ∈ ls, l.name ≠ path.name) :
    path.resolve c = .error (.notIndexed path.model (Value.quotedText path.name)) := by
  have hnone : (ls.find? fun l => l.name = path.name) = none := by
    simpa [List.find?_eq_none] using h
  rw [resolve_eq hr hcompile, hnone]

namespace Schema

/-- **Names are keys.** The leaves of a record type have different names and different aliases, if
the fields of each record type in it have different names without points. A leaf is found by its
name, and a reference of plain steps leads to the leaf of its dotted name; where no leaf has this
name, it fails because the field is not indexed. Leaves that share an alias are refused: the first
one whose alias came before is reported, with the only one that it came with before. -/
theorem names_are_keys (hr : c.find? r.name = some r)
    (hnames : ∀ N, ReflTransGen (Nests c) r N → HasDottableNames N) :
    (∀ ls, compile c r = .ok ls →
      (ls.map Leaf.name).Nodup ∧ (ls.map Leaf.queryAlias).Nodup ∧
      (∀ name l, findLeaf c r name = .ok (some l) ↔ l ∈ ls ∧ l.name = name) ∧
      (∀ name, findLeaf c r name = .ok none ↔ ∀ l ∈ ls, l.name ≠ name) ∧
      (r.isSearchable → ∀ ref : Reference, ref.model = r.name → ref.IsPlain →
        (∀ l, ref.field c >>= FieldPath.resolve c = .ok l ↔ l ∈ ls ∧ l.name = ref.dottedName) ∧
        ((∀ l ∈ ls, l.name ≠ ref.dottedName) → ref.field c >>= FieldPath.resolve c =
          .error (.notIndexed r.name (Value.quotedText ref.dottedName))))) ∧
    (∀ ls, leaves c r = .ok ls → ¬ (ls.map Leaf.queryAlias).Nodup →
      ∃ before first between second after,
        ls = before ++ first :: between ++ second :: after ∧
        first.queryAlias = second.queryAlias ∧
        ((before ++ first :: between).map Leaf.queryAlias).Nodup ∧
        compile c r = .error (.duplicateAlias r.name
          (String.ofList (quoted second.queryAlias.toList)) first.path second.path)) := by
  refine ⟨fun ls hcompile => ?_, fun ls => compile_eq_duplicateAlias⟩
  have hnodup := nodup_names_of_leaves (leaves_eq_of_compile_eq_ok hcompile) hnames
  refine ⟨hnodup, nodup_aliases_of_compile hcompile,
    fun name l => findLeaf_eq_some_iff hcompile hnames,
    fun name => findLeaf_eq_none_iff hcompile, ?_⟩
  intro hsearchable ref hmodel hplain
  rw [← hmodel] at hr
  -- however the steps of a reference are written, they lead to one path, that of its dotted name
  obtain ⟨path, hpath, hpathModel, hpathName⟩ := ref.exists_field_of_isPlain hr hsearchable hplain
  rw [← hpathModel] at hr
  have hfield : ref.field c >>= FieldPath.resolve c = path.resolve c := by
    rw [hpath]
    rfl
  rw [hfield, ← hpathName, ← hmodel, ← hpathModel]
  exact ⟨fun l => path.resolve_eq_ok_iff hr hcompile hnodup, path.resolve_eq_error hr hcompile⟩

/-- Houses with an address, of which the city is indexed. -/
def houses : Catalogue :=
  (Catalogue.bases.declare
    ⟨"Address", "EmbeddedJsonModel", none, none,
      [indexedField "city" (.scalar .text),
        .declare "street" (.scalar .text) [] none none none .required]⟩).declare
    ⟨"House", "JsonModel", none, none, [indexedField "address" (.record "Address")]⟩

/-- The leaf of the city of a house. -/
def cityLeaf : Leaf := ⟨"address.city", "address__city", "$.address.city", .text, [], false⟩

/-- The same houses, with a field of their own under the alias of the city. -/
def doubledHouses : Catalogue :=
  houses.declare ⟨"Villa", "House", none, none, [indexedField "address__city" (.scalar .text)]⟩

theorem hasDottableNames_doubledHouses :
    ∀ record ∈ doubledHouses.types, HasDottableNames record := by
  have htypes : doubledHouses.types = [.plainBase, .embeddedBase, .persistedBase,
      doubledHouses.types[3], doubledHouses.types[4], doubledHouses.types[5]] := rfl
  rw [htypes]
  simp only [List.forall_mem_cons]
  refine ⟨?_, ?_, ?_, ?_, ?_, ?_, nofun⟩ <;> exact ⟨by decide, by decide⟩

theorem names_are_keys_houses :
    (houses.find? "House" = some houses.types[4] ∧
      ∀ N, ReflTransGen (Nests houses) houses.types[4] N → HasDottableNames N) ∧
    (∀ steps ∈ [[.item "address.city"], [.item "address", .item "city"],
        [.dot "address", .dot "city"]],
      (⟨"House", steps⟩ : Reference).field houses >>= FieldPath.resolve houses = .ok cityLeaf) ∧
    (⟨"House", [.dot "address"]⟩ : Reference).field houses >>= FieldPath.resolve houses =
      .error (.notIndexed "House" (Value.quotedText "address")) ∧
    ∃ shown first second, compile doubledHouses doubledHouses.types[5] =
      .error (.duplicateAlias "Villa" shown first second) := by
  have hmem (N : RecordType) (h : N ∈ houses.types) : N ∈ doubledHouses.types :=
    List.mem_append_left _ h
  have hnames : ∀ N, ReflTransGen (Nests houses) houses.types[4] N → HasDottableNames N :=
    fun N => forall_of_nests (fun N h => hasDottableNames_doubledHouses N (hmem N h))
      (List.getElem_mem _)
  have hcompile : compile houses houses.types[4] =
      .ok [⟨"id", "id", "$.id", .tag, [], false⟩, cityLeaf] := rfl
  obtain ⟨-, -, -, -, hreferences⟩ := (names_are_keys (c := houses) rfl hnames).1 _ hcompile
  have hplain : ∀ steps ∈ [[ReferenceStep.item "address.city"],
      [.item "address", .item "city"], [.dot "address", .dot "city"], [.dot "address"]],
      (⟨"House", steps⟩ : Reference).IsPlain := by
    simp only [List.forall_mem_cons]
    refine ⟨⟨_, _, rfl, trivial, nofun⟩, ⟨_, _, rfl, trivial, ?_⟩, ⟨_, _, rfl, ?_, ?_⟩,
      ⟨_, _, rfl, ?_, nofun⟩, nofun⟩
    · simp only [List.forall_mem_cons]
      exact ⟨trivial, nofun⟩
    · exact ⟨by decide +kernel, by decide⟩
    · simp only [List.forall_mem_cons]
      exact ⟨⟨by decide +kernel, by decide⟩, nofun⟩
    · exact ⟨by decide +kernel, by decide⟩
  simp only [List.forall_mem_cons] at hplain ⊢
  obtain ⟨hwhole, hitems, hdots, hcontainer, -⟩ := hplain
  refine ⟨⟨rfl, hnames⟩, ⟨?_, ?_, ?_, nofun⟩, ?_, ?_⟩
  · exact ((hreferences rfl _ rfl hwhole).1 cityLeaf).mpr ⟨by decide, rfl⟩
  · exact ((hreferences rfl _ rfl hitems).1 cityLeaf).mpr ⟨by decide, rfl⟩
  · exact ((hreferences rfl _ rfl hdots).1 cityLeaf).mpr ⟨by decide, rfl⟩
  · exact (hreferences rfl _ rfl hcontainer).2 (by decide)
  · obtain ⟨_, first, _, second, _, _, _, _, hrefused⟩ :=
      (names_are_keys (c := doubledHouses) (r := doubledHouses.types[5]) rfl
        (fun N => forall_of_nests hasDottableNames_doubledHouses (List.getElem_mem _))).2
        [⟨"id", "id", "$.id", .tag, [], false⟩, cityLeaf,
          ⟨"address__city", "address__city", "$.address__city", .text, [], false⟩] rfl (by decide)
    exact ⟨_, _, _, hrefused⟩

end Schema

end IndexedRecords
