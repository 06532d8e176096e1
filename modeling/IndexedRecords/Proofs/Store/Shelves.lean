import IndexedRecords.Proofs.Store.Deleting
import IndexedRecords.Record
import IndexedRecords.Text.Cut

/-!
# Documents under a prefix

All documents stand in one table, whatever their types are. Those whose keys start with a prefix and
a colon are a table of their own under the rests of their keys, the identifiers: a shelf. Prefixes
without colons have disjoint shelves, so that what is put into one shelf or taken from it leaves the
other ones as they are.

## Main statements

* `lookup?_shelfOf`: a shelf holds what the table holds under the key of an identifier.
* `shelfOf_insert`, `shelfOf_filter`: what changes to the table do to a shelf.
* `changesShelf_put`, `changesShelf_take`: documents that are put under the key of an identifier, or
  taken from there, change one shelf.
-/

namespace IndexedRecords

/-! ### Keys -/

/-- The identifier that a key under a prefix stands for. -/
def idUnder? (keyPrefix key : String) : Option String :=
  ((keyPrefix.toList ++ [':']).isPrefixOf? key.toList).map String.ofList

variable {p q key id id' : String}

theorem toList_keyOf (p id : String) : (keyOf p id).toList = p.toList ++ [':'] ++ id.toList := by
  rw [keyOf, String.toList_append, String.toList_append]
  rfl

/-- A key stands for an identifier exactly if it is the key of that identifier. -/
theorem idUnder?_eq_some_iff : idUnder? p key = some id ↔ key = keyOf p id := by
  rw [idUnder?, Option.map_eq_some_iff]
  constructor
  · rintro ⟨cs, hcs, rfl⟩
    have heq := List.isPrefixOf?_eq_some_iff_append_eq.mp hcs
    refine String.toList_injective ?_
    rw [toList_keyOf, String.toList_ofList, heq]
  · rintro rfl
    refine ⟨id.toList, ?_, String.ofList_toList⟩
    rw [List.isPrefixOf?_eq_some_iff_append_eq, toList_keyOf]

/-- The keys under a prefix are those that start with the prefix and a colon. -/
theorem isSome_idUnder? (p key : String) :
    (idUnder? p key).isSome = (p.toList ++ [':']).isPrefixOf key.toList := by
  rw [idUnder?, Option.isSome_map, List.isSome_isPrefixOf?_eq_isPrefixOf]

theorem idUnder?_keyOf (p id : String) : idUnder? p (keyOf p id) = some id :=
  idUnder?_eq_some_iff.mpr rfl

/-- Different identifiers have different keys. -/
theorem keyOf_injective (p : String) : Function.Injective (keyOf p) := by
  intro id id' h
  have heq := idUnder?_keyOf p id
  rw [h, idUnder?_keyOf] at heq
  exact (Option.some.inj heq).symm

/-- Keys under different prefixes without colons are different. -/
theorem eq_of_keyOf_eq (hp : ':' ∉ p.toList) (hq : ':' ∉ q.toList) (h : keyOf p id = keyOf q id') :
    p = q := by
  have hlists := congrArg String.toList h
  rw [toList_keyOf, toList_keyOf, List.append_assoc, List.append_assoc] at hlists
  refine String.toList_injective ?_
  obtain ⟨more, heq, hrest⟩ | ⟨more, heq, hrest⟩ := List.append_eq_append_iff.mp hlists
  · cases more with
    | nil => rw [heq, List.append_nil]
    | cons c more =>
      obtain rfl : ':' = c := (List.cons.inj hrest).1
      exact absurd (heq ▸ by simp) hq
  · cases more with
    | nil => rw [heq, List.append_nil]
    | cons c more =>
      obtain rfl : ':' = c := (List.cons.inj hrest).1
      exact absurd (heq ▸ by simp) hp

/-! ### Shelves -/

/-- The documents under a prefix, by their identifiers. -/
def shelfOf (keyPrefix : String) (documents : List (String × String)) : List (String × String) :=
  documents.filterMap fun e => (idUnder? keyPrefix e.1).map (·, e.2)

variable {documents : List (String × String)} {payload : String}

theorem shelfOf_cons_keyOf (p id payload : String) (documents : List (String × String)) :
    shelfOf p ((keyOf p id, payload) :: documents) = (id, payload) :: shelfOf p documents := by
  rw [shelfOf, List.filterMap_cons, idUnder?_keyOf]
  rfl

theorem shelfOf_cons_of_none {e : String × String} (h : idUnder? p e.1 = none)
    (documents : List (String × String)) : shelfOf p (e :: documents) = shelfOf p documents := by
  rw [shelfOf, List.filterMap_cons, h]
  rfl

/-- A document stands on the shelf under an identifier, or elsewhere. -/
theorem eq_keyOf_or_none (p : String) (e : String × String) :
    (∃ id, e = (keyOf p id, e.2)) ∨ idUnder? p e.1 = none := by
  cases h : idUnder? p e.1 with
  | none => exact .inr rfl
  | some id => exact .inl ⟨id, Prod.ext (idUnder?_eq_some_iff.mp h) rfl⟩

theorem keyOf_ne_of_none (h : idUnder? p key = none) (id : String) : keyOf p id ≠ key := by
  rintro rfl
  rw [idUnder?_keyOf] at h
  cases h

/-- Prefixes without colons that differ have no keys in common: the first colon of a key ends its
prefix, whatever the identifier is. -/
theorem idUnder?_eq_none (hp : ':' ∉ p.toList) (hq : ':' ∉ q.toList) (hne : p ≠ q) (id : String) :
    idUnder? p (keyOf q id) = none := by
  cases h : idUnder? p (keyOf q id) with
  | none => rfl
  | some id' => exact absurd (eq_of_keyOf_eq hq hp (idUnder?_eq_some_iff.mp h)).symm hne

/-- A shelf holds what the table holds under the key of an identifier. -/
theorem lookup?_shelfOf (p id : String) (documents : List (String × String)) :
    Store.lookup? (shelfOf p documents) id = Store.lookup? documents (keyOf p id) := by
  induction documents with
  | nil => rfl
  | cons e documents ih =>
    obtain ⟨id', he⟩ | he := eq_keyOf_or_none p e
    · rw [he, shelfOf_cons_keyOf, Store.lookup?_cons, Store.lookup?_cons, ih]
      simp only [(keyOf_injective p).eq_iff]
    · rw [shelfOf_cons_of_none he, Store.lookup?_cons, ih, if_neg (keyOf_ne_of_none he id).symm]

/-- A document that is put under the key of an identifier is put on its shelf. -/
theorem shelfOf_insert (p id payload : String) (documents : List (String × String)) :
    shelfOf p (Store.insert (keyOf p id) payload documents) =
      Store.insert id payload (shelfOf p documents) := by
  induction documents with
  | nil => exact shelfOf_cons_keyOf p id payload []
  | cons e documents ih =>
    obtain ⟨id', he⟩ | he := eq_keyOf_or_none p e
    · rw [he, shelfOf_cons_keyOf, Store.insert, Store.insert]
      simp only [(keyOf_injective p).eq_iff]
      split
      · rw [shelfOf_cons_keyOf]
      · rw [shelfOf_cons_keyOf, ih]
    · rw [shelfOf_cons_of_none he, Store.insert, if_neg (keyOf_ne_of_none he id).symm,
        shelfOf_cons_of_none he, ih]

/-- A document that is put elsewhere leaves a shelf as it is. -/
theorem shelfOf_insert_of_none (h : idUnder? p key = none) (payload : String)
    (documents : List (String × String)) :
    shelfOf p (Store.insert key payload documents) = shelfOf p documents := by
  have hnew := shelfOf_cons_of_none (e := (key, payload)) h
  induction documents with
  | nil => exact hnew []
  | cons e documents ih =>
    rw [Store.insert]
    split
    · next heq => rw [hnew, shelfOf_cons_of_none (e := e) (heq ▸ h)]
    · obtain ⟨id, he⟩ | he := eq_keyOf_or_none p e
      · rw [he, shelfOf_cons_keyOf, shelfOf_cons_keyOf, ih]
      · rw [shelfOf_cons_of_none he, shelfOf_cons_of_none he, ih]

/-- Taking documents from the table takes those on a shelf from the shelf. -/
theorem shelfOf_filter (p : String) (keep : String → Bool) (documents : List (String × String)) :
    shelfOf p (documents.filter fun e => keep e.1) =
      (shelfOf p documents).filter fun e => keep (keyOf p e.1) := by
  induction documents with
  | nil => rfl
  | cons e documents ih =>
    obtain ⟨id, he⟩ | he := eq_keyOf_or_none p e
    · rw [he, shelfOf_cons_keyOf, List.filter_cons, List.filter_cons, ← ih]
      split
      · rw [shelfOf_cons_keyOf]
      · rfl
    · rw [shelfOf_cons_of_none he, ← ih, List.filter_cons]
      split
      · rw [shelfOf_cons_of_none he]
      · rfl

/-- The keys under a prefix are those of the identifiers on its shelf. -/
theorem filter_keys (p : String) (documents : List (String × String)) :
    (documents.map Prod.fst).filter (fun key => (idUnder? p key).isSome) =
      (shelfOf p documents).map fun e => keyOf p e.1 := by
  induction documents with
  | nil => rfl
  | cons e documents ih =>
    obtain ⟨id, he⟩ | he := eq_keyOf_or_none p e
    · rw [he, shelfOf_cons_keyOf, List.map_cons, List.map_cons, List.filter_cons, if_pos, ih]
      rw [idUnder?_keyOf]
      rfl
    · rw [shelfOf_cons_of_none he, List.map_cons, List.filter_cons, if_neg, ih]
      rw [he]
      nofun

/-- A shelf has no identifier twice if the table has no key twice. -/
theorem nodup_shelfOf (p : String) (h : (documents.map Prod.fst).Nodup) :
    ((shelfOf p documents).map Prod.fst).Nodup := by
  have hkeys := h.filter fun key => (idUnder? p key).isSome
  rw [filter_keys] at hkeys
  refine List.Nodup.of_map (keyOf p) ?_
  rw [List.map_map]
  exact hkeys

/-- A shelf holds no more than the whole table. -/
theorem length_shelfOf_le (p : String) (documents : List (String × String)) :
    (shelfOf p documents).length ≤ documents.length :=
  List.length_filterMap_le _ _

theorem mem_map_keyOf {ids : List String} : keyOf p id ∈ ids.map (keyOf p) ↔ id ∈ ids :=
  List.mem_map_of_injective (keyOf_injective p)

/-- The documents under the keys of some identifiers are counted on their shelf. -/
theorem countP_mem_map_keyOf (p : String) (ids : List String)
    (documents : List (String × String)) :
    documents.countP (fun e => e.1 ∈ ids.map (keyOf p)) =
      (shelfOf p documents).countP fun e => e.1 ∈ ids := by
  induction documents with
  | nil => rfl
  | cons e documents ih =>
    obtain ⟨id, he⟩ | he := eq_keyOf_or_none p e
    · rw [he, shelfOf_cons_keyOf, List.countP_cons, List.countP_cons, ih]
      simp only [mem_map_keyOf]
    · have hkey : e.1 ∉ ids.map (keyOf p) := fun hmem =>
        let ⟨id, _, heq⟩ := List.mem_map.mp hmem
        keyOf_ne_of_none he id heq
      rw [shelfOf_cons_of_none he, List.countP_cons_of_neg (by simpa using hkey), ih]

/-! ### Tables of one type -/

/-- Payloads under identifiers, in the order in which the identifiers came. -/
structure Shelf where
  documents : List (String × String)
  nodup : (documents.map Prod.fst).Nodup

namespace Shelf

/-- The shelf without documents. -/
def empty : Shelf := ⟨[], .nil⟩

/-- The identifiers of all documents. -/
def ids (shelf : Shelf) : List String := shelf.documents.map Prod.fst

/-- The payload of an identifier. -/
def payload? (shelf : Shelf) (id : String) : Option String := Store.lookup? shelf.documents id

/-- The identifiers that are there among some given ones. -/
def among (shelf : Shelf) (ids : List String) : List String := shelf.ids.filter (· ∈ ids)

/-- Puts a payload under an identifier: in its place where the identifier is there, else at the
end. -/
def put (shelf : Shelf) (id payload : String) : Shelf :=
  ⟨Store.insert id payload shelf.documents, Store.nodup_insert payload shelf.nodup⟩

/-- Takes the documents of some identifiers away. -/
def take (shelf : Shelf) (ids : List String) : Shelf :=
  ⟨shelf.documents.filter fun e => e.1 ∉ ids, Store.nodup_filter _ shelf.nodup⟩

/-- How many of some identifiers are on a shelf. -/
theorem length_among (shelf : Shelf) (ids : List String) :
    (shelf.among ids).length = shelf.documents.countP fun e => e.1 ∈ ids := by
  rw [among, Shelf.ids, ← List.countP_eq_length_filter, List.countP_map]
  rfl

end Shelf

/-- Documents change under one prefix only, where they become those of a shelf. -/
structure ChangesShelf (p : String) (documents documents' : List (String × String))
    (shelf : Shelf) : Prop where
  nodup : (documents'.map Prod.fst).Nodup
  own : shelfOf p documents' = shelf.documents
  others : ∀ q : String, ':' ∉ q.toList → q ≠ p → shelfOf q documents' = shelfOf q documents

variable {shelf : Shelf}

/-- Documents that do not change are those of the shelf they have. -/
theorem changesShelf_refl (hnodup : (documents.map Prod.fst).Nodup)
    (h : shelfOf p documents = shelf.documents) : ChangesShelf p documents documents shelf :=
  ⟨hnodup, h, fun _ _ _ => rfl⟩

/-- A document that is put under the key of an identifier is put on one shelf. -/
theorem changesShelf_put (hp : ':' ∉ p.toList) (hnodup : (documents.map Prod.fst).Nodup)
    (h : shelfOf p documents = shelf.documents) (id payload : String) :
    ChangesShelf p documents (Store.insert (keyOf p id) payload documents)
      (shelf.put id payload) where
  nodup := Store.nodup_insert payload hnodup
  own := by rw [shelfOf_insert, h, Shelf.put]
  others q hq hne := shelfOf_insert_of_none (idUnder?_eq_none hq hp hne id) payload documents

/-- Documents under the keys of identifiers are taken from one shelf. -/
theorem changesShelf_take (hp : ':' ∉ p.toList) (hnodup : (documents.map Prod.fst).Nodup)
    (h : shelfOf p documents = shelf.documents) (ids : List String) :
    ChangesShelf p documents (documents.filter fun e => e.1 ∉ ids.map (keyOf p))
      (shelf.take ids) where
  nodup := Store.nodup_filter _ hnodup
  own := by
    rw [shelfOf_filter p (fun key => key ∉ ids.map (keyOf p)), h, Shelf.take]
    simp only [mem_map_keyOf]
  others q hq hne := by
    rw [shelfOf_filter q fun key => key ∉ ids.map (keyOf p)]
    refine List.filter_eq_self.mpr fun e _ => decide_eq_true fun hmem => ?_
    obtain ⟨id, -, heq⟩ := List.mem_map.mp hmem
    exact hne (eq_of_keyOf_eq hp hq heq).symm

end IndexedRecords
