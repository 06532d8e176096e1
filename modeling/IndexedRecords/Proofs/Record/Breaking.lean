import IndexedRecords.Proofs.Record.Identifiers
import IndexedRecords.Proofs.Record.Parts

/-!
# Documents that break a reading

A document that is no record of its type has problems. Points and decimals do not keep to this: an
array that gives one of them in parts may end the whole reading with a fault. `Breaks` says which
documents do so, one case for each way from a shape to the points and decimals in it. It depends on
the shape and the document alone, except that a union is left at the first member that matches
exactly, and that a field which gets a fresh identifier is not read at all.

The items of iterables are taken as they come, so there is no way through them. The items of a tuple
are read also where there are too many of them.

## Main statements

* `breaks_tuple_iff`, `breaks_record_iff`, `breaks_union_iff`: the ways into containers and records.
* `holdsParts_of_breaks`: no document breaks a shape without points and decimals.
-/

namespace IndexedRecords

/-- The shape that each item of an array is read as. -/
def Shape.eachItem? : Shape → Option Shape
  | .generic head _ args =>
    match head with
    | .list | .mutableSequence | .queue | .sequence => some (args.headD .any)
    | .set | .frozenSet | .abstractSet => some (args.headD .any)
    | _ => none
  | .variadic item => some item
  | _ => none

/-- The shape that each value of an object is read as. -/
def Shape.eachValue? : Shape → Option Shape
  | .generic head _ args =>
    match head with
    | .map | .abstractMap | .mutableMap | .orderedMap => some (args.tail.headD .any)
    | _ => none
  | _ => none

/-- Whether an array may give a value of a kind in parts. -/
def Scalar.hasParts : Scalar → Bool
  | .point | .decimal => true
  | _ => false

/-- No part of a value of a shape is read as a shape of its own, and the value has no parts. -/
def Shape.isAtomic : Shape → Bool
  | .scalar k => !k.hasParts
  | .nullType | .nullValue | .any | .bare _ | .enumeration _ | .literal _ => true
  | .generic .type _ _ | .generic .iterable _ _ => true
  | _ => false

/-- No items are looked for in what has no parts. -/
theorem Shape.eachItem?_of_isAtomic {s : Shape} (h : s.isAtomic = true) : s.eachItem? = none := by
  cases s with
  | generic head older args => cases head <;> first | rfl | cases h
  | variadic => cases h
  | _ => rfl

/-- No values of members are looked for in what has no parts. -/
theorem Shape.eachValue?_of_isAtomic {s : Shape} (h : s.isAtomic = true) :
    s.eachValue? = none := by
  cases s with
  | generic head older args => cases head <;> first | rfl | cases h
  | _ => rfl

/-- Some part of the values of a shape is read as a point or as a decimal, besides what records
hold. -/
inductive Shape.HoldsParts : Shape → Prop where
  | scalar {k : Scalar} (parts : k.hasParts = true) : Shape.HoldsParts (.scalar k)
  | annotated {s : Shape} {markers : List Marker} (h : s.HoldsParts) :
      Shape.HoldsParts (.annotated s markers)
  | renamed {name : String} {s : Shape} (h : s.HoldsParts) : Shape.HoldsParts (.renamed name s)
  | variadic {s : Shape} (h : s.HoldsParts) : Shape.HoldsParts (.variadic s)
  | argument {head : Generic} {older : Bool} {args : List Shape} {s : Shape} (mem : s ∈ args)
      (h : s.HoldsParts) : Shape.HoldsParts (.generic head older args)
  | member {members : List Shape} {s : Shape} (mem : s ∈ members) (h : s.HoldsParts) :
      Shape.HoldsParts (.union members)

/-- An argument of a container that holds parts is one that is given, since anything that is
accepted in its place holds none. -/
theorem Shape.HoldsParts.of_headD {head : Generic} {older : Bool} {args rest : List Shape}
    (hrest : ∀ s ∈ rest, s ∈ args) (h : (rest.headD .any).HoldsParts) :
    Shape.HoldsParts (.generic head older args) := by
  cases rest with
  | nil => cases h
  | cons s rest => exact .argument (hrest s List.mem_cons_self) h

/-- A shape holds the parts that its items hold. -/
theorem Shape.HoldsParts.of_eachItem? {s shape : Shape} (each : shape.eachItem? = some s)
    (h : s.HoldsParts) : shape.HoldsParts := by
  cases shape with
  | generic head older args =>
    cases head <;> cases each
    all_goals exact .of_headD (fun _ => id) h
  | variadic item =>
    cases each
    exact .variadic h
  | _ => cases each

/-- A shape holds the parts that the values of its members hold. -/
theorem Shape.HoldsParts.of_eachValue? {s shape : Shape} (each : shape.eachValue? = some s)
    (h : s.HoldsParts) : shape.HoldsParts := by
  cases shape with
  | generic head older args =>
    cases head <;> cases each
    all_goals exact .of_headD (fun _ => List.mem_of_mem_tail) h
  | _ => cases each

/-- A shape has items or members, and not both. -/
theorem Shape.eachValue?_eq_none {s shape : Shape} (h : shape.eachItem? = some s) :
    shape.eachValue? = none := by
  cases shape with
  | generic head older args => cases head <;> first | rfl | cases h
  | _ => rfl

namespace Record

open Reading

variable {ctx : Context} {j : Json} {s shape : Shape} {r : RecordType} {f : Field}

/-! ### Ways to points -/

/-- The member of an object that a field of a record is read from. -/
def memberOf? (r : RecordType) (f : Field) (members : List (String × Json)) :
    Option (String × Json) :=
  let find (name : String) : Option (String × Json) := members.find? fun m => m.1 = name
  match f.readKey? with
  | none => find f.name
  | some key => if r.isSearchable then (find key).or (find f.name) else find key

theorem memberOf?_nil : memberOf? r f [] = none := by
  unfold memberOf?
  cases f.readKey? <;> simp

/-- The member that a field is read from is one of the members, whichever of the two names it was
found under. -/
theorem mem_of_memberOf? {members : List (String × Json)} {m : String × Json}
    (h : memberOf? r f members = some m) : m ∈ members := by
  have hfind {name : String} (hname : members.find? (fun m => m.1 = name) = some m) :
      m ∈ members := List.mem_of_find?_eq_some hname
  unfold memberOf? at h
  dsimp only at h
  split at h
  · exact hfind h
  · split at h
    · rcases Option.or_eq_some_iff.mp h with hkey | ⟨-, hname⟩
      · exact hfind hkey
      · exact hfind hname
    · exact hfind h

/-- The first entry with a key is that of the first member with it. -/
theorem find?_map_entryOfJson {ctx : Context} {members : List (String × Json)} {name : String}
    {isEntry : EntryView → Bool} (h : ∀ m, isEntry (entryOfJson ctx m) = decide (m.1 = name)) :
    ((members.map (entryOfJson ctx)).find? isEntry).map (fun e => (name, e)) =
      (members.find? fun m => m.1 = name).map fun m => (m.1, entryOfJson ctx m) := by
  have hentries : isEntry ∘ entryOfJson ctx = fun m => decide (m.1 = name) := funext h
  rw [List.find?_map, Option.map_map, hentries]
  cases hm : members.find? fun m => m.1 = name with
  | none => rfl
  | some m =>
    have hname : m.1 = name := by simpa using List.find?_some hm
    simp only [Option.map_some, Function.comp_apply, hname]

/-- The member that a field is read from has its entry. -/
theorem entryOf?_map (ctx : Context) (r : RecordType) (f : Field)
    (members : List (String × Json)) : entryOf? r f (members.map (entryOfJson ctx)) =
      (memberOf? r f members).map fun m => (m.1, entryOfJson ctx m) := by
  unfold entryOf? memberOf?
  cases f.readKey? with
  | none => exact find?_map_entryOfJson fun m => rfl
  | some key =>
    cases r.isSearchable with
    | false => exact find?_map_entryOfJson fun m => rfl
    | true =>
      refine (congrArg₂ Option.or ?_ ?_).trans Option.map_or.symm
      · exact find?_map_entryOfJson fun m => rfl
      · exact find?_map_entryOfJson fun m => rfl

/-- A document is read as a shape exactly, and holds no record: in a union, no other member of it
is tried. -/
def EndsSearch (ctx : Context) (s : Shape) (j : Json) : Prop :=
  EndsFresh (reader ctx (valueOfJson j) s) (.start 0)

/-- A document that ends with a fault where it is read as a shape. -/
inductive Breaks (ctx : Context) : Shape → Json → Prop where
  | point {j : Json} (broken : BreaksPoint j) : Breaks ctx (.scalar .point) j
  | decimal {j : Json} (broken : BreaksDecimal j) : Breaks ctx (.scalar .decimal) j
  | annotated {s : Shape} {markers : List Marker} {j : Json} (h : Breaks ctx s j) :
      Breaks ctx (.annotated s markers) j
  | renamed {name : String} {s : Shape} {j : Json} (h : Breaks ctx s j) :
      Breaks ctx (.renamed name s) j
  | item {shape s : Shape} {j item : Json} (each : shape.eachItem? = some s) (mem : item ∈ j.items)
      (h : Breaks ctx s item) : Breaks ctx shape j
  /-- An item of a tuple, also if there are too many. -/
  | part {older : Bool} {args : List Shape} {j : Json} {e : Shape × Json}
      (mem : e ∈ args.zip j.items) (h : Breaks ctx e.1 e.2) :
      Breaks ctx (.generic .tuple older args) j
  | value {shape s : Shape} {j : Json} {m : String × Json} (each : shape.eachValue? = some s)
      (mem : m ∈ j.members) (h : Breaks ctx s m.2) : Breaks ctx shape j
  /-- A field of a record, unless it gets a fresh identifier. -/
  | field {name : String} {r : RecordType} {f : Field} {j : Json} {m : String × Json}
      (found : ctx.catalogue.find? name = some r) (mem : f ∈ r.fields)
      (given : memberOf? r f j.members = some m)
      (kept : asksForId r f (valueOfJson m.2) = false) (h : Breaks ctx f.shape m.2) :
      Breaks ctx (.record name) j
  /-- A member of a union, unless one before it ends the search. -/
  | member {members before after : List Shape} {s : Shape} {j : Json}
      (split : members = before ++ s :: after)
      (first : ∀ t ∈ before, t.isNullType = false → ¬ EndsSearch ctx t j) (h : Breaks ctx s j) :
      Breaks ctx (.union members) j

/-- A document without parts breaks nothing. -/
theorem not_breaks_of_noParts (hitems : j.items = []) (hmembers : j.members = []) :
    ¬ Breaks ctx s j := by
  intro h
  induction h with
  | point broken => cases broken <;> cases hitems
  | decimal broken =>
    cases broken
    cases hitems
  | annotated _ ih | renamed _ ih | member _ _ _ ih => exact ih hitems hmembers
  | item _ mem => simp [hitems] at mem
  | part mem => simp [hitems] at mem
  | value _ mem => simp [hmembers] at mem
  | field _ _ given =>
    rw [hmembers, memberOf?_nil] at given
    cases given

/-- What has no parts of its own is broken by nothing. -/
theorem not_breaks_of_isAtomic (h : s.isAtomic = true) : ¬ Breaks ctx s j := by
  intro hbreaks
  cases hbreaks with
  | point | decimal | annotated | renamed | part | field | member => cases h
  | item each => cases (Shape.eachItem?_of_isAtomic h).symm.trans each
  | value each => cases (Shape.eachValue?_of_isAtomic h).symm.trans each

/-- A point is only broken by the array of its parts. -/
theorem breaks_point_iff : Breaks ctx (.scalar .point) j ↔ BreaksPoint j := by
  constructor
  · intro h
    cases h with
    | point broken => exact broken
    | item each => cases each
    | value each => cases each
  · exact .point

/-- A decimal is only broken by the array of its parts. -/
theorem breaks_decimal_iff : Breaks ctx (.scalar .decimal) j ↔ BreaksDecimal j := by
  constructor
  · intro h
    cases h with
    | decimal broken => exact broken
    | item each => cases each
    | value each => cases each
  · exact .decimal

/-- Markers do not keep a document from breaking a shape. -/
theorem breaks_annotated_iff {markers : List Marker} :
    Breaks ctx (.annotated s markers) j ↔ Breaks ctx s j := by
  constructor
  · intro h
    cases h with
    | annotated h => exact h
    | item each => cases each
    | value each => cases each
  · exact .annotated

/-- Nor does another name for a shape. -/
theorem breaks_renamed_iff {name : String} :
    Breaks ctx (.renamed name s) j ↔ Breaks ctx s j := by
  constructor
  · intro h
    cases h with
    | renamed h => exact h
    | item each => cases each
    | value each => cases each
  · exact .renamed

/-- A shape that accepts anything is broken by nothing. -/
theorem not_breaks_of_acceptsAnything : (s : Shape) → s.acceptsAnything = true → ¬ Breaks ctx s j
  | .any, _ | .scalar .bare, _ => not_breaks_of_isAtomic rfl
  | .annotated inner _, h => fun hbreaks =>
    not_breaks_of_acceptsAnything inner h (breaks_annotated_iff.mp hbreaks)
  | .renamed _ inner, h => fun hbreaks =>
    not_breaks_of_acceptsAnything inner h (breaks_renamed_iff.mp hbreaks)

/-- A container of items is broken by an item that breaks the shape of the items. -/
theorem breaks_iff_of_eachItem? (each : shape.eachItem? = some s) :
    Breaks ctx shape j ↔ ∃ item ∈ j.items, Breaks ctx s item := by
  constructor
  · intro h
    cases h with
    | item each' mem h =>
      cases each.symm.trans each'
      exact ⟨_, mem, h⟩
    | value each' => cases (Shape.eachValue?_eq_none each).symm.trans each'
    | _ => cases each
  · rintro ⟨item, mem, h⟩
    exact .item each mem h

/-- A container of members is broken by a member whose value breaks the shape of the values. -/
theorem breaks_iff_of_eachValue? (each : shape.eachValue? = some s) :
    Breaks ctx shape j ↔ ∃ m ∈ j.members, Breaks ctx s m.2 := by
  constructor
  · intro h
    cases h with
    | value each' mem h =>
      cases each.symm.trans each'
      exact ⟨_, mem, h⟩
    | item each' => cases (Shape.eachValue?_eq_none each').symm.trans each
    | _ => cases each
  · rintro ⟨m, mem, h⟩
    exact .value each mem h

/-- A tuple is broken by an item that breaks the shape in its place, also if there are more items
than shapes. -/
theorem breaks_tuple_iff {older : Bool} {args : List Shape} :
    Breaks ctx (.generic .tuple older args) j ↔ ∃ e ∈ args.zip j.items, Breaks ctx e.1 e.2 := by
  constructor
  · intro h
    cases h with
    | part mem h => exact ⟨_, mem, h⟩
    | item each => cases each
    | value each => cases each
  · rintro ⟨e, mem, h⟩
    exact .part mem h

/-- A record type is broken through one of its fields: through the member that the field is read
from, unless the field asks for a fresh identifier instead. -/
theorem breaks_record_iff {name : String} : Breaks ctx (.record name) j ↔
    ∃ r, ctx.catalogue.find? name = some r ∧ ∃ f ∈ r.fields, ∃ m, memberOf? r f j.members = some m ∧
      asksForId r f (valueOfJson m.2) = false ∧ Breaks ctx f.shape m.2 := by
  constructor
  · intro h
    cases h with
    | field found mem given kept h => exact ⟨_, found, _, mem, _, given, kept, h⟩
    | item each => cases each
    | value each => cases each
  · rintro ⟨r, found, f, mem, m, given, kept, h⟩
    exact .field found mem given kept h

/-- Null as a member of a union does not count. -/
theorem breaks_union_iff {members : List Shape} : Breaks ctx (.union members) j ↔
    ComesFirst (fun s => Breaks ctx s j) (fun s => EndsSearch ctx s j)
      (members.filter fun s => !s.isNullType) := by
  constructor
  · intro h
    cases h with
    | item each => cases each
    | value each => cases each
    | @member _ before after s _ split first h =>
      -- the member that breaks is not left out with those that only take null
      have hnull : s.isNullType = false := by
        cases s with
        | nullType => exact absurd h (not_breaks_of_isAtomic rfl)
        | _ => rfl
      refine ⟨before.filter fun s => !s.isNullType, s, after.filter fun s => !s.isNullType, ?_, h,
        fun t ht => ?_⟩
      · rw [split, List.filter_append, List.filter_cons_of_pos (by simp [hnull])]
      · obtain ⟨hbefore, ht⟩ := List.mem_filter.mp ht
        exact first t hbefore (by simpa using ht)
  · rintro ⟨before, s, after, hfilter, h, first⟩
    obtain ⟨before', rest, rfl, rfl, hrest⟩ := List.filter_eq_append_iff.mp hfilter
    obtain ⟨nulls, after', rfl, hnulls, -, rfl⟩ := List.filter_eq_cons_iff.mp hrest
    refine .member (List.append_assoc before' nulls (s :: after')).symm (fun t ht hnull => ?_) h
    rcases List.mem_append.mp ht with ht | ht
    · exact first t (List.mem_filter.mpr ⟨ht, by simp [hnull]⟩)
    · exact absurd (by simp [hnull]) (hnulls t ht)

/-- **Types without points and decimals.** A document breaks a shape only if there are points or
decimals in the shape or in some record type. -/
theorem holdsParts_of_breaks (h : Breaks ctx s j) :
    s.HoldsParts ∨ ∃ r ∈ ctx.catalogue.types, ∃ f ∈ r.fields, f.shape.HoldsParts := by
  induction h with
  | point | decimal => exact .inl (.scalar rfl)
  | annotated _ ih => exact ih.imp_left .annotated
  | renamed _ ih => exact ih.imp_left .renamed
  | item each _ _ ih => exact ih.imp_left (.of_eachItem? each)
  | part mem _ ih => exact ih.imp_left (.argument (List.of_mem_zip mem).1)
  | value each _ _ ih => exact ih.imp_left (.of_eachValue? each)
  | field found mem _ _ _ ih =>
    refine .inr (ih.elim (fun h => ⟨_, List.mem_of_find?_eq_some found, _, mem, h⟩) id)
  | member split _ _ ih =>
    subst split
    exact ih.imp_left (.member (List.mem_append_right _ List.mem_cons_self))

end Record

end IndexedRecords
