import IndexedRecords.Proofs.Record.Numbers
import IndexedRecords.Proofs.Schema.Dates
import IndexedRecords.Proofs.Search.Ranges

/-!
# Numbers under paths

A query for a value on a numeric leaf looks for the number that the index has for the value, and the
path of the leaf selects what the value was written as. For whole numbers, members of enumerations
of whole numbers, dates and moments the two are one number; decimals are written as texts.

## Main statements

* `isFound_iff_of_leaf`: which values a query for them finds.
-/

namespace IndexedRecords

/-- A number in a document. -/
def Number.json : Number → Json
  | .int n => .int n
  | .float x => .float x

/-- The number that a token of a document stands for. -/
def Outline.number? : Outline → Option ℚ
  | .word cs => Numeral.value? cs
  | _ => none

theorem Number.number?_outline {x : Number} (h : x.isFinite) :
    x.json.outline.number? = some x.value := by
  cases x with
  | int n => exact Numeral.value?_wholeText n
  | float x =>
    cases x with
    | finite negative units => exact Numeral.value?_finite .document negative units
    | _ => cases h

/-- Whether a query on a numeric leaf finds a value by the number that it is written as: members of
enumerations do as what they stand for, truth values and decimals do not. -/
def Value.isCounted : Value → Bool
  | .bool _ | .decimal _ => false
  | _ => true

namespace Schema

open Traversal Record

variable {c : Catalogue} {r : RecordType} {f : Field} {l : Leaf} {v : Value} {j : Json}

/-- The document of a value is the number that the index has for the value, and the range of a query
for the value contains it. -/
def IsFound (l : Leaf) (v : Value) (j : Json) : Prop :=
  ∃ (x : Number) (token : ℚ), v.indexedNumber l.queryAlias = .ok x ∧ j = x.json ∧
    j.outline.number? = some token ∧ (x.digits ≤ Numeral.digitLimit →
      ∃ range : Search.Atom, (FieldTest.compare .equal v).clause l =
        .ok (String.ofList range.text) ∧ range.contains token)

theorem isFound_of_number {x : Number} (hnumeric : l.type = .numeric) (hfinite : x.isFinite)
    (hx : v.indexedNumber l.queryAlias = .ok x) : IsFound l v x.json := by
  refine ⟨x, x.value, hx, rfl, x.number?_outline hfinite, fun hdigits => ?_⟩
  exact ⟨FieldTest.compareAtom l .equal x, FieldTest.equalClause_eq hnumeric hx hdigits,
    (FieldTest.contains_equal_iff hfinite).mpr rfl⟩

/-- A number or time is found exactly if it is neither a truth value nor a decimal. -/
theorem isFound_quantityJson_iff (hnumeric : l.type = .numeric) (h : v.IsQuantity) :
    IsFound l v v.quantityJson ↔ v.isCounted := by
  cases h with
  | count h =>
    cases h with
    | int n => exact iff_of_true (isFound_of_number hnumeric (x := .int n) rfl rfl) rfl
    | bool b =>
      refine iff_of_false ?_ nofun
      rintro ⟨x, _, hx, _⟩
      cases hx
    | member _ _ n => exact iff_of_true (isFound_of_number hnumeric (x := .int n) rfl rfl) rfl
  | decimal d =>
    refine iff_of_false ?_ nofun
    rintro ⟨x, _, _, hj, _⟩
    cases x <;> cases hj
  | date d =>
    exact iff_of_true (isFound_of_number hnumeric (x := .int d.epochSeconds) rfl rfl) rfl
  | @moment m finite =>
    have hfinite : (Number.float m.epochSeconds).isFinite := by
      rw [Number.isFinite, finite]
      rfl
    exact iff_of_true (isFound_of_number hnumeric (x := .float m.epochSeconds) hfinite rfl) rfl

/-- The path of a field of single numbers or times ends with its name. -/
theorem taken_of_asksForNumber {chain : List Link} {last : Link} (hlast : last ∈ chain.getLast?)
    (h : last.field.shape.asksForNumber = true) (found : List Json) :
    taken (chainSteps chain) found = found := by
  have hsteps : lastSteps last.field = [] := by
    unfold Shape.asksForNumber at h
    rw [lastSteps, holding]
    split at h <;> first | cases h | skip
    all_goals
      next hshape =>
        rw [hshape]
        rfl
  rw [taken_chainSteps hlast, chainSteps, hsteps]
  rfl

/-- **Numbers under paths.** In the stored text of a valid record, the path of a leaf selects one
token for each value that the chain of the leaf leads to. If the leaf is numeric and the chain ends
in a field of single whole numbers, members of enumerations of these, decimals, dates or moments,
the token of a finite value other than null is the number that the index has for the value, and the
range of a query for the value contains it, exactly if the value is neither a decimal nor a truth
value. -/
theorem isFound_iff_of_leaf {record : Record} {ls : List Leaf} {payload : String}
    (hr : c.find? record.model = some r) (hsearchable : r.isSearchable)
    (haddr : ∀ N, Relation.ReflTransGen (Nests c) r N → Navigable c N)
    (hvalid : Belongs c (.record record.model) record.toValue) (hcompile : compile c r = .ok ls)
    (hl : l ∈ ls) (hnumeric : l.type = .numeric)
    (hpayload : Service.recordDocument c r record = .ok payload) :
    ∃ (chain : List Link) (path : List PathStep) (document : Outline) (selected : List Json),
      IndexedChain c r chain ∧ Describes chain l ∧
      PathStep.read? l.path.toList = some path ∧
      Outline.read? payload.toList = some document ∧
      document.select path = selected.map Json.outline ∧
      ∀ last ∈ chain.getLast?, last.field.shape.asksForNumber = true →
        List.Forall₂ (fun v j => v ≠ .none → v.isFinite → (IsFound l v j ↔ v.isCounted))
          (valuesAt chain record.fields) selected := by
  obtain ⟨chain, path, document, found, hchain, hdepicts, hpath, hdocument, hselect, hfound⟩ :=
    exists_found_of_leaf hr hsearchable haddr hvalid hcompile hl hpayload
  refine ⟨chain, path, document, _, hchain, hdepicts.toDescribes, hpath, hdocument, hselect,
    fun last hlast hshape => ?_⟩
  rw [taken_of_asksForNumber hlast hshape]
  -- value by value: each is written as a number or as a text, depending on what it is
  refine (hfound last hlast).imp ?_
  rintro v j ⟨r, hr, hbelongs, hj⟩ hne hfinite
  have hquantity := isQuantity_of_belongs hshape
    ((hbelongs.unwrap last.field.shape.unwraps).resolve_left hne) hfinite
  rw [writeField_of_isQuantity hr hshape hbelongs hquantity] at hj
  obtain rfl := Option.some.inj hj
  exact isFound_quantityJson_iff hnumeric hquantity

/-- Wares with a stock and a price. -/
def wares : Catalogue :=
  Catalogue.bases.declare ⟨"Ware", "JsonModel", none, none,
    [indexedField "stock" (.union [.scalar .int, .nullType]),
      indexedField "price" (.scalar .decimal)]⟩

/-- Three pieces for one and a half each. -/
def ware : Record :=
  ⟨"Ware", [("id", .text "a"), ("stock", .int 3), ("price", .decimal (.finite false 15 (-1)))]⟩

theorem ware_fields : wares.types[3].fields = [
    ⟨"id", .scalar .text, [.primaryKey none], none, none, none, .freshId⟩,
    indexedField "stock" (.union [.scalar .int, .nullType]),
    indexedField "price" (.scalar .decimal)] := rfl

theorem flat_ware : ∀ f ∈ wares.types[3].fields, inner? wares f = none := by
  rw [ware_fields]
  simp only [List.forall_mem_cons]
  exact ⟨rfl, rfl, rfl, nofun⟩

theorem belongs_ware : Belongs wares (.record "Ware") ware.toValue := by
  refine HasFields.belongs (r := wares.types[3]) rfl (.inl rfl) ⟨by decide, ?_⟩
  rw [ware_fields]
  simp only [List.forall_mem_cons]
  exact ⟨⟨_, List.mem_cons_self, .scalar rfl⟩,
    ⟨_, List.mem_cons_of_mem _ List.mem_cons_self, .union List.mem_cons_self (.scalar rfl)⟩,
    ⟨_, List.mem_cons_of_mem _ (List.mem_cons_of_mem _ List.mem_cons_self), .scalar rfl⟩, nofun⟩

/-- The leaves of the schema of a ware. -/
def wareLeaves : List Leaf :=
  [⟨"id", "id", "$.id", .tag, [], false⟩, ⟨"stock", "stock", "$.stock", .numeric, [], true⟩,
    ⟨"price", "price", "$.price", .numeric, [], false⟩]

theorem compile_wares : compile wares wares.types[3] = .ok wareLeaves := rfl

/-- The document of the ware. -/
def wareDocument : Json :=
  .object [("id", .text "a"), ("stock", .int 3), ("price", .text "1.5")]

theorem recordDocument_ware : Service.recordDocument wares wares.types[3] ware =
    .ok (String.ofList wareDocument.write) := by
  have hdocument : toJson? wares ware.model ware.fields = some wareDocument := rfl
  rw [Service.recordDocument, hdocument]
  rfl

theorem isFound_iff_of_leaf_ware :
    (Belongs wares (.record "Ware") ware.toValue ∧ wareLeaves[1].type = .numeric) ∧
    ∃ path document j, PathStep.read? "$.stock".toList = some path ∧
      Outline.read? wareDocument.write = some document ∧
      document.select path = [Json.outline j] ∧ IsFound wareLeaves[1] (.int 3) j := by
  obtain ⟨chain, path, document, selected, hchain, hdescribes, hpath, hdocument, hselect, hfound⟩ :=
    isFound_iff_of_leaf (r := wares.types[3]) (l := wareLeaves[1]) rfl rfl
      (fun N => navigable_of_flat (by decide) (by decide) (by decide) flat_ware)
      belongs_ware compile_wares (List.getElem_mem _) rfl recordDocument_ware
  rw [String.toList_ofList] at hdocument
  -- the chain is the one field of that name
  obtain ⟨⟨position, field⟩, rfl, hmem⟩ := hchain.exists_singleton flat_ware
  have hname : field.name = "stock" := hdescribes.name_eq.symm
  obtain rfl : field = indexedField "stock" (.union [.scalar .int, .nullType]) := by
    rw [ware_fields] at hmem
    simp only [List.mem_cons, List.not_mem_nil, or_false] at hmem
    obtain rfl | rfl | rfl := hmem <;> first | rfl | exact absurd hname (by decide)
  have hvalues : valuesAt [⟨position, indexedField "stock" (.union [.scalar .int, .nullType])⟩]
      ware.fields = [.int 3] := rfl
  have hall := hfound _ rfl rfl
  rw [hvalues] at hall
  obtain _ | ⟨hj, hnil⟩ := hall
  cases hnil
  exact ⟨⟨belongs_ware, rfl⟩, path, document, _, hpath, hdocument, hselect,
    (hj nofun rfl).mpr rfl⟩

/-- The path of a numeric leaf may select a text: the price of a ware. -/
theorem path_selects_decimal_text :
    Belongs wares (.record "Ware") ware.toValue ∧ wareLeaves[2].type = .numeric ∧
    ∃ path document, compile wares wares.types[3] = .ok wareLeaves ∧
      PathStep.read? wareLeaves[2].path.toList = some path ∧
      Service.recordDocument wares wares.types[3] ware = .ok (String.ofList wareDocument.write) ∧
      Outline.read? wareDocument.write = some document ∧
      document.select path = [.text "1.5"] ∧ (Outline.text "1.5").number? = none := by
  refine ⟨belongs_ware, rfl, [.member "price"], wareDocument.outline, compile_wares, by decide,
    recordDocument_ware, Outline.read?_write _, rfl, rfl⟩

end Schema

end IndexedRecords
