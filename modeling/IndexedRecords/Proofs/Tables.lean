import IndexedRecords.Json
import IndexedRecords.Store
import Mathlib.Data.List.Forall2
import Mathlib.Data.List.Nodup

/-!
# Tables in the order of insertion

A table holds values under keys and keeps the order in which the keys came. Entries with repeated
keys make a table as well (`Store.tableOf`): the last value of a key counts, in the place of the
first. Members of an object are merged in the same way.

## Main statements

* `Store.tableOf_of_nodup`: entries without repeated keys are a table already.
* `Store.forall₂_tableOf`: entries that correspond one by one make tables that do.
* `Store.lookup?_of_mem`, `Store.filter_of_mem`: in a table, a key leads to its one entry.
-/

namespace IndexedRecords

/-- Where items have different names, a name leads to its one item. -/
theorem find?_of_mem {α : Type} {name : α → String} {items : List α} {item : α}
    (hnames : (items.map name).Nodup) (h : item ∈ items) :
    (items.find? fun a => name a = name item) = some item := by
  obtain ⟨a, ha⟩ : ∃ a, (items.find? fun a => name a = name item) = some a :=
    Option.isSome_iff_exists.mp (List.find?_isSome.mpr ⟨item, h, by simp⟩)
  have hname : name a = name item := by simpa using List.find?_some ha
  rw [ha, List.inj_on_of_nodup_map hnames (List.mem_of_find?_eq_some ha) h hname]

/-- Two searches come to the same item if each of them would take what the other one finds. -/
theorem eq_of_find? {α : Type} {p q : α → Bool} {items : List α} {a b : α}
    (ha : items.find? p = some a) (hb : items.find? q = some b) (hqa : q a = true)
    (hpb : p b = true) : a = b := by
  induction items with
  | nil => cases ha
  | cons x items ih =>
    rw [List.find?_cons] at ha hb
    cases hp : p x <;> cases hq : q x <;> simp only [hp, hq, Option.some.injEq] at ha hb
    · exact ih ha hb
    · rw [← hb, hp] at hpb
      cases hpb
    · rw [← ha, hq] at hqa
      cases hqa
    · rw [← ha, hb]

namespace Store

variable {α β : Type} {key : String} {table : List (String × α)}

/-- The table of some entries: the last value of a key counts, in the place of the first. -/
def tableOf (entries : List (String × α)) : List (String × α) :=
  entries.foldl (fun table (key, value) => insert key value table) []

/-! ### Entries of a table -/

/-- In a table without repeated keys, an entry is found under its key. -/
theorem lookup?_of_mem {value : α} (hkeys : (table.map Prod.fst).Nodup)
    (h : (key, value) ∈ table) : lookup? table key = some value := by
  rw [lookup?, find?_of_mem hkeys h]
  rfl

/-- What is found under a key has that key. -/
theorem mem_map_fst_of_lookup? {value : α} (h : lookup? table key = some value) :
    key ∈ table.map Prod.fst := by
  obtain ⟨e, he, -⟩ := Option.map_eq_some_iff.mp h
  have hkey : e.1 = key := by simpa using List.find?_some he
  exact List.mem_map.mpr ⟨e, List.mem_of_find?_eq_some he, hkey⟩

/-- In a table without repeated keys, an entry is the only one under its key. -/
theorem filter_of_mem {value : α} (hkeys : (table.map Prod.fst).Nodup)
    (h : (key, value) ∈ table) : (table.filter fun e => e.1 = key) = [(key, value)] := by
  induction table with
  | nil => cases h
  | cons e table ih =>
    rw [List.map_cons, List.nodup_cons] at hkeys
    rcases List.mem_cons.mp h with rfl | h
    · have hrest : ∀ e ∈ table, ¬ e.1 = key := fun e he heq =>
        hkeys.1 (List.mem_map.mpr ⟨e, he, heq⟩)
      rw [List.filter_cons_of_pos (by simp), List.filter_eq_nil_iff.mpr fun e he => by
        simpa using hrest e he]
    · have hne : e.1 ≠ key := by
        rintro rfl
        exact hkeys.1 (List.mem_map.mpr ⟨_, h, rfl⟩)
      rw [List.filter_cons_of_neg (by simpa using hne), ih hkeys.2 h]

/-! ### Insertion -/

/-- A new key comes after those that are there. -/
theorem insert_of_notMem (value : α) (h : key ∉ table.map Prod.fst) :
    insert key value table = table ++ [(key, value)] := by
  induction table with
  | nil => rfl
  | cons e table ih =>
    rw [List.map_cons, List.mem_cons, not_or] at h
    rw [insert, if_neg (Ne.symm h.1), ih h.2, List.cons_append]

/-- A key that is there keeps its place. -/
theorem map_fst_insert_of_mem (value : α) (h : key ∈ table.map Prod.fst) :
    (insert key value table).map Prod.fst = table.map Prod.fst := by
  induction table with
  | nil => cases h
  | cons e table ih =>
    rw [insert]
    by_cases heq : e.1 = key
    · rw [if_pos heq, List.map_cons, List.map_cons, heq]
    · rw [List.map_cons, List.mem_cons] at h
      rw [if_neg heq, List.map_cons, List.map_cons, ih (h.resolve_left (Ne.symm heq))]

/-- Entries under new keys, all different, are put at the end of a table in their order. -/
theorem foldl_insert_of_nodup {entries : List (String × α)}
    (h : ((table ++ entries).map Prod.fst).Nodup) :
    (entries.foldl (fun table (key, value) => insert key value table) table) =
      table ++ entries := by
  induction entries generalizing table with
  | nil => simp
  | cons e entries ih =>
    have hnew : e.1 ∉ table.map Prod.fst := by
      rw [List.map_append, List.map_cons, List.nodup_append] at h
      exact fun hmem => h.2.2 _ hmem _ List.mem_cons_self rfl
    have hrest : ((table ++ [e]) ++ entries) = table ++ e :: entries := by simp
    rw [List.foldl_cons]
    dsimp only
    rw [insert_of_notMem e.2 hnew, ih (by rw [hrest]; exact h), hrest]

/-- Entries without repeated keys are a table already. -/
theorem tableOf_of_nodup {entries : List (String × α)} (h : (entries.map Prod.fst).Nodup) :
    tableOf entries = entries := by
  rw [tableOf, foldl_insert_of_nodup (by simpa using h), List.nil_append]

/-- A lookup starts with the first entry. -/
theorem lookup?_cons (e : String × α) (table : List (String × α)) (key : String) :
    lookup? (e :: table) key = if e.1 = key then some e.2 else lookup? table key := by
  rw [lookup?, List.find?_cons]
  by_cases h : e.1 = key
  · simp [h]
  · simp [h, lookup?]

/-- After a value has been put under a key, it is found there, and nothing else has changed. -/
theorem lookup?_insert_eq (key' : String) (value : α) (table : List (String × α)) :
    lookup? (insert key' value table) key =
      if key' = key then some value else lookup? table key := by
  induction table with
  | nil => rw [insert, lookup?_cons]
  | cons e table ih =>
    rw [insert]
    by_cases h : e.1 = key'
    · subst h
      rw [if_pos rfl, lookup?_cons, lookup?_cons]
      split <;> rfl
    · rw [if_neg h, lookup?_cons, lookup?_cons, ih]
      by_cases hkey : e.1 = key
      · subst hkey
        rw [if_pos rfl, if_pos rfl, if_neg (Ne.symm h)]
      · rw [if_neg hkey, if_neg hkey]

/-- What has been inserted is found. -/
theorem lookup?_insert (key : String) (value : α) (table : List (String × α)) :
    lookup? (insert key value table) key = some value :=
  (lookup?_insert_eq key value table).trans (if_pos rfl)

/-- The entries after a value has been put under a key: this one, and some of the old ones. -/
theorem mem_of_mem_insert {value : α} {e : String × α} (h : e ∈ insert key value table) :
    e = (key, value) ∨ e ∈ table := by
  induction table with
  | nil => exact .inl (List.mem_singleton.mp h)
  | cons first table ih =>
    rw [insert] at h
    split at h
    · exact (List.mem_cons.mp h).imp_right (List.mem_cons_of_mem _)
    · rcases List.mem_cons.mp h with rfl | h
      · exact .inr List.mem_cons_self
      · exact (ih h).imp_right (List.mem_cons_of_mem _)

/-- A table has no entries but those that it is made of. -/
theorem mem_of_mem_tableOf {entries : List (String × α)} {e : String × α}
    (h : e ∈ tableOf entries) : e ∈ entries := by
  have hfold : ∀ table : List (String × α),
      e ∈ entries.foldl (fun table (key, value) => insert key value table) table →
      e ∈ entries ∨ e ∈ table := by
    clear h
    induction entries with
    | nil => exact fun _ h => .inr h
    | cons first entries ih =>
      intro table h
      rcases ih _ h with h | h
      · exact .inl (List.mem_cons_of_mem _ h)
      · rcases mem_of_mem_insert h with rfl | h
        · exact .inl List.mem_cons_self
        · exact .inr h
  exact (hfold [] h).resolve_right List.not_mem_nil

/-- Entries that agree on the value of a key give it this value in their table. -/
theorem lookup?_tableOf {entries : List (String × α)} {value : α} (h : (key, value) ∈ entries)
    (hsame : ∀ e ∈ entries, e.1 = key → e.2 = value) :
    lookup? (tableOf entries) key = some value := by
  -- from any table that has the value already, or from any table if the value is still to come
  have hfold : ∀ table : List (String × α), (∀ e ∈ entries, e.1 = key → e.2 = value) →
      ((key, value) ∈ entries ∨ lookup? table key = some value) →
      lookup? (entries.foldl (fun table (key, value) => insert key value table) table) key =
        some value := by
    clear h hsame
    induction entries with
    | nil => exact fun _ _ h => h.resolve_left List.not_mem_nil
    | cons e entries ih =>
      intro table hsame h
      rw [List.forall_mem_cons] at hsame
      rw [List.foldl_cons]
      refine ih _ hsame.2 ?_
      rw [List.mem_cons, or_assoc] at h
      rw [lookup?_insert_eq]
      rcases h with rfl | h | h
      · exact .inr (if_pos rfl)
      · exact .inl h
      · refine .inr ?_
        split
        · next heq => rw [hsame.1 heq]
        · exact h
  exact hfold [] hsame (.inl h)

/-! ### Erasing -/

/-- Whether there is an entry under a key. -/
theorem hasKey_iff : hasKey table key = true ↔ key ∈ table.map Prod.fst := by
  simp [hasKey]

/-- There is nothing to be erased under a key that is missing. -/
theorem erase_of_notMem (hkey : key ∉ table.map Prod.fst) : erase key table = table := by
  refine List.filter_eq_self.mpr fun e he => decide_eq_true fun heq => hkey ?_
  exact heq ▸ List.mem_map_of_mem he

/-- No entry is left under a key that has been erased. -/
theorem notMem_erase (key : String) (table : List (String × α)) :
    key ∉ (erase key table).map Prod.fst := by
  rintro hmem
  obtain ⟨e, he, rfl⟩ := List.mem_map.mp hmem
  exact of_decide_eq_true (List.mem_filter.mp he).2 rfl

/-- Of two tables in a row, the first one counts where it has the key. -/
theorem lookup?_append (table table' : List (String × α)) (key : String) :
    lookup? (table ++ table') key = (lookup? table key).or (lookup? table' key) := by
  rw [lookup?, List.find?_append, Option.map_or]
  rfl

/-- After a key has been erased, nothing is found under it, and nothing else has changed. -/
theorem lookup?_erase (key' key : String) (table : List (String × α)) :
    lookup? (erase key' table) key = if key' = key then none else lookup? table key := by
  induction table with
  | nil => exact (ite_self none).symm
  | cons e table ih =>
    rw [erase, List.filter_cons, lookup?_cons]
    by_cases he : e.1 = key'
    · rw [if_neg (by simpa using he), ← erase, ih, he]
      split <;> rfl
    · rw [if_pos (by simpa using he), ← erase, lookup?_cons, ih]
      by_cases hkey : e.1 = key
      · rw [if_pos hkey, if_pos hkey, if_neg (hkey ▸ Ne.symm he)]
      · rw [if_neg hkey, if_neg hkey]

/-- Several keys may be erased one after the other. -/
theorem filter_notMem_cons (key : String) (keys : List String) (table : List (String × α)) :
    (table.filter fun e => e.1 ∉ key :: keys) =
      (erase key table).filter fun e => e.1 ∉ keys := by
  rw [erase, List.filter_filter]
  refine List.filter_congr fun e _ => ?_
  simp [Bool.and_comm]

/-! ### Corresponding tables -/

/-- Two entries have one key, and their values are related. -/
def SameKey (R : α → β → Prop) (a : String × α) (b : String × β) : Prop := a.1 = b.1 ∧ R a.2 b.2

/-- Tables stay in correspondence when corresponding values are put under the same key. -/
theorem forall₂_insert {R : α → β → Prop} {table' : List (String × β)} {a : α} {b : β}
    (h : List.Forall₂ (SameKey R) table table') (hab : R a b) :
    List.Forall₂ (SameKey R) (insert key a table) (insert key b table') := by
  induction h with
  | nil => exact .cons ⟨rfl, hab⟩ .nil
  | @cons e e' table table' he htable ih =>
    rw [insert, insert, ← he.1]
    split
    · exact .cons ⟨rfl, hab⟩ htable
    · exact .cons he ih

/-- Tables stay in correspondence when corresponding entries are put into them one after the
other. -/
theorem forall₂_foldl_insert {R : α → β → Prop} {entries : List (String × α)}
    {entries' : List (String × β)} {table' : List (String × β)}
    (htable : List.Forall₂ (SameKey R) table table')
    (h : List.Forall₂ (SameKey R) entries entries') :
    List.Forall₂ (SameKey R)
      (entries.foldl (fun table (key, value) => insert key value table) table)
      (entries'.foldl (fun table (key, value) => insert key value table) table') := by
  induction h generalizing table table' with
  | nil => exact htable
  | @cons e e' _ _ he _ ih =>
    obtain ⟨key, a⟩ := e
    obtain ⟨key', b⟩ := e'
    obtain ⟨rfl, hab⟩ := he
    exact ih (forall₂_insert htable hab)

/-- Entries that correspond one by one make tables that do. -/
theorem forall₂_tableOf {R : α → β → Prop} {entries : List (String × α)}
    {entries' : List (String × β)} (h : List.Forall₂ (SameKey R) entries entries') :
    List.Forall₂ (SameKey R) (tableOf entries) (tableOf entries') :=
  forall₂_foldl_insert .nil h

end Store

namespace Json

/-! ### Members of objects -/

/-- A member is set in an object as a value is put into a table. -/
theorem setMember_eq_insert (name : String) (value : Json) (members : List (String × Json)) :
    setMember name value members = Store.insert name value members := by
  induction members with
  | nil => rfl
  | cons member members ih =>
    rw [setMember, Store.insert, ih]
    split
    · next h => rw [h]
    · rfl

/-- The members of an object are merged into a table: the last one of each name counts. -/
theorem mergeMembers_eq_tableOf (members : List (String × Json)) :
    mergeMembers members = Store.tableOf members := by
  simp only [mergeMembers, Store.tableOf, setMember_eq_insert]

end Json

end IndexedRecords
