import IndexedRecords.Proofs.Tables
import IndexedRecords.Schema.Leaf

/-!
# Declarations of indexes

A store reads the declaration of an index word by word. Where every path starts with the sign of the
root and no option does, the clauses of some leaves are read as these leaves, whatever their other
words are.

An index is created anew at the end of the table of indexes. Tables that take in several entries in
this way end with the last entry of each name, after the entries of other names.

## Main statements

* `readClauses_clauses`: the clauses of leaves are read as the leaves.
* `createIndex_eq`: what a declaration does to a store.
* `foldl_replace`, `lookup?_foldl_replace_of_mem`, `foldl_replace_twice`: a table after several
  replacements.
-/

namespace IndexedRecords

/-- What a store keeps of a leaf. -/
def Leaf.stored (l : Leaf) : StoredAttribute := ⟨l.path, l.queryAlias, l.type.keyword, l.options⟩

namespace Store

variable {done : List StoredAttribute} {current : Option StoredAttribute} {word : String}
  {rest : List String}

/-! ### Clauses -/

theorem isPrefixOf_dollar_iff : "$".isPrefixOf word = true ↔ word.toList.head? = some '$' := by
  refine String.startsWith_string_iff.trans ?_
  cases word.toList with
  | nil => exact ⟨fun h => absurd h (by decide), nofun⟩
  | cons c cs => simp [List.cons_prefix_cons, eq_comm]

/-- A word that is no path is one more option. -/
theorem readClauses_option (h : word.toList.head? ≠ some '$') (a : StoredAttribute)
    (rest : List String) : readClauses done (some a) (word :: rest) =
      readClauses done (some { a with options := a.options ++ [word] }) rest := by
  have hword : "$".isPrefixOf word = false := by
    rw [← Bool.not_eq_true, isPrefixOf_dollar_iff]
    exact h
  rw [readClauses.eq_def]
  simp only [hword]

theorem readClauses_options {options : List String} (h : ∀ o ∈ options, o.toList.head? ≠ some '$')
    (a : StoredAttribute) (rest : List String) :
    readClauses done (some a) (options ++ rest) =
      readClauses done (some { a with options := a.options ++ options }) rest := by
  induction options generalizing a with
  | nil => rw [List.nil_append, List.append_nil]
  | cons o options ih =>
    obtain ⟨ho, hoptions⟩ := List.forall_mem_cons.mp h
    rw [List.cons_append, readClauses_option ho, ih hoptions, List.append_assoc]
    rfl

/-- A path starts a clause, whatever its alias and its type are. -/
theorem readClauses_path (h : word.toList.head? = some '$') (queryAlias type : String)
    (rest : List String) : readClauses done current (word :: "AS" :: queryAlias :: type :: rest) =
      readClauses (done ++ current.toList) (some ⟨word, queryAlias, type, []⟩) rest := by
  have hword : "$".isPrefixOf word = true := isPrefixOf_dollar_iff.mpr h
  rw [readClauses.eq_def]
  cases current <;> simp [hword]

/-- Paths can be told from options in the clauses of a leaf. -/
structure IsDeclarable (l : Leaf) : Prop where
  path : l.path.toList.head? = some '$'
  options : ∀ o ∈ l.options, o.toList.head? ≠ some '$'

theorem readClauses_clause {l : Leaf} (h : IsDeclarable l) (rest : List String) :
    readClauses done current (l.clause ++ rest) =
      readClauses (done ++ current.toList) (some l.stored) rest := by
  rw [Leaf.clause, List.append_assoc]
  refine (readClauses_path h.path _ _ _).trans ?_
  exact readClauses_options h.options _ rest

theorem readClauses_flatMap {ls : List Leaf} (h : ∀ l ∈ ls, IsDeclarable l) :
    readClauses done current (ls.flatMap Leaf.clause) =
      .ok (done ++ current.toList ++ ls.map Leaf.stored) := by
  induction ls generalizing done current with
  | nil =>
    rw [List.flatMap_nil, List.map_nil, List.append_nil, readClauses]
  | cons l ls ih =>
    obtain ⟨hl, hls⟩ := List.forall_mem_cons.mp h
    rw [List.flatMap_cons, readClauses_clause hl, ih hls, List.map_cons]
    simp

/-- **Clauses of leaves.** They are read as the leaves that they declare. -/
theorem readClauses_clauses {ls : List Leaf} (h : ∀ l ∈ ls, IsDeclarable l) :
    readClauses [] none (ls.flatMap Leaf.clause) = .ok (ls.map Leaf.stored) :=
  readClauses_flatMap h

/-! ### Declarations -/

/-- The words of the declaration of an index, from its kind on. -/
def declaration (keyPrefix : String) (clauses : List String) : List String :=
  ["ON", "JSON", "PREFIX", "1", keyPrefix ++ ":", "SCHEMA"] ++ clauses

theorem append_colon_ne (keyPrefix : String) : keyPrefix ++ ":" ≠ "SCHEMA" := by
  intro h
  have hlast := congrArg (fun s : String => s.toList.getLast?) h
  simp at hlast

/-- **Declarations.** An index of a new name is added to a store if its clauses can be read. -/
theorem createIndex_eq {s : Store} {name : String} (hname : name ∉ s.indexes.map Prod.fst)
    (keyPrefix : String) (clauses : List String) :
    s.createIndex name (declaration keyPrefix clauses) =
      match readClauses [] none clauses with
      | .ok attributes => (.ok (.text "OK"),
        { s with indexes := s.indexes ++ [(name, ⟨keyPrefix ++ ":", attributes⟩)] })
      | .error fault => (.error fault, s) := by
  have hprefix : (((declaration keyPrefix clauses).dropWhile (· ≠ "PREFIX")).drop 2).headD "" =
      keyPrefix ++ ":" := rfl
  have hclauses : ((declaration keyPrefix clauses).dropWhile (· ≠ "SCHEMA")).tail = clauses := by
    simp [declaration, append_colon_ne]
  rw [createIndex, if_neg (mt hasKey_iff.mp hname), hprefix, hclauses]
  dsimp only
  cases readClauses [] none clauses with
  | error fault => rfl
  | ok attributes => simp only [insert_of_notMem _ hname]

/-! ### Replacing entries -/

variable {α : Type} {table entries : List (String × α)} {e : String × α}

/-- The table with an entry at its end, in the place of any other entry of its key. -/
def replace (table : List (String × α)) (e : String × α) : List (String × α) :=
  erase e.1 table ++ [e]

/-- **Replacing.** Entries of other keys stay as they are; what comes after them depends on the new
entries only. -/
theorem foldl_replace (table entries : List (String × α)) :
    entries.foldl replace table =
      (table.filter fun e => e.1 ∉ entries.map Prod.fst) ++ entries.foldl replace [] := by
  induction entries generalizing table with
  | nil => simp
  | cons e entries ih =>
    have hone : replace [] e = [e] := rfl
    rw [List.foldl_cons, List.foldl_cons, hone, ih (replace table e), ih [e], replace,
      List.filter_append, List.map_cons, filter_notMem_cons, List.append_assoc]

theorem mem_of_mem_foldl_replace (h : e ∈ entries.foldl replace table) :
    e ∈ table ∨ e ∈ entries := by
  induction entries generalizing table with
  | nil => exact .inl h
  | cons first entries ih =>
    rcases ih h with h | h
    · rw [replace, List.mem_append, List.mem_singleton] at h
      rcases h with h | rfl
      · exact .inl (List.mem_of_mem_filter h)
      · exact .inr List.mem_cons_self
    · exact .inr (List.mem_cons_of_mem _ h)

theorem lookup?_replace (table : List (String × α)) (e : String × α) (key : String) :
    lookup? (replace table e) key = if e.1 = key then some e.2 else lookup? table key := by
  rw [replace, lookup?_append, lookup?_erase, lookup?_cons]
  by_cases h : e.1 = key
  · rw [if_pos h, if_pos h, if_pos h]
    rfl
  · rw [if_neg h, if_neg h, if_neg h]
    exact Option.or_none

theorem lookup?_foldl_replace_of_notMem {key : String} (h : key ∉ entries.map Prod.fst)
    (table : List (String × α)) :
    lookup? (entries.foldl replace table) key = lookup? table key := by
  induction entries generalizing table with
  | nil => rfl
  | cons e entries ih =>
    rw [List.map_cons, List.mem_cons, not_or] at h
    rw [List.foldl_cons, ih h.2, lookup?_replace, if_neg (Ne.symm h.1)]

/-- An entry is found if no other one has its key. -/
theorem lookup?_foldl_replace_of_mem (h : e ∈ entries)
    (hsame : ∀ e' ∈ entries, e'.1 = e.1 → e' = e) (table : List (String × α)) :
    lookup? (entries.foldl replace table) e.1 = some e.2 := by
  induction entries generalizing table with
  | nil => cases h
  | cons first entries ih =>
    have hrest : ∀ e' ∈ entries, e'.1 = e.1 → e' = e := fun e' he' =>
      hsame e' (List.mem_cons_of_mem _ he')
    rw [List.foldl_cons]
    by_cases hmem : e ∈ entries
    · exact ih hmem hrest _
    · obtain rfl := (List.mem_cons.mp h).resolve_right hmem
      have hkey : e.1 ∉ entries.map Prod.fst := by
        intro hkey
        obtain ⟨e', he', heq⟩ := List.mem_map.mp hkey
        exact hmem (hrest e' he' heq ▸ he')
      rw [lookup?_foldl_replace_of_notMem hkey, lookup?_replace, if_pos rfl]

/-- Entries of other keys stay in their order. -/
theorem filter_foldl_replace (table entries : List (String × α)) :
    ((entries.foldl replace table).filter fun e => e.1 ∉ entries.map Prod.fst) =
      table.filter fun e => e.1 ∉ entries.map Prod.fst := by
  have hnone : ((entries.foldl replace []).filter fun e => e.1 ∉ entries.map Prod.fst) = [] := by
    refine List.filter_eq_nil_iff.mpr fun e he => ?_
    have hmem := (mem_of_mem_foldl_replace he).resolve_left List.not_mem_nil
    simpa using ⟨e.2, hmem⟩
  rw [foldl_replace table, List.filter_append, hnone, List.append_nil, List.filter_filter]
  simp

/-- What has been replaced once is replaced by the same entries. -/
theorem foldl_replace_twice (table entries : List (String × α)) :
    entries.foldl replace (entries.foldl replace table) = entries.foldl replace table := by
  rw [foldl_replace (entries.foldl replace table), filter_foldl_replace, ← foldl_replace]

/-! ### Repeating -/

section

variable {τ ε : Type} {step : τ → ε → τ}

/-- A step that has nothing to do has nothing to do after other steps. -/
theorem foldl_of_stable (hstable : ∀ t a b, step t a = t → step (step t b) a = step t b) {t : τ}
    {a : ε} (h : step t a = t) (items : List ε) :
    step (items.foldl step t) a = items.foldl step t := by
  induction items generalizing t with
  | nil => exact h
  | cons b items ih => exact ih (hstable t a b h)

/-- Steps that have nothing to do after themselves, and then never again, need not be repeated. -/
theorem foldl_twice_of_stable (hself : ∀ t a, step (step t a) a = step t a)
    (hstable : ∀ t a b, step t a = t → step (step t b) a = step t b) (items : List ε) (t : τ) :
    items.foldl step (items.foldl step t) = items.foldl step t := by
  induction items generalizing t with
  | nil => rfl
  | cons a items ih =>
    rw [List.foldl_cons, List.foldl_cons, foldl_of_stable hstable (hself t a), ih]

end

/-- What has been erased once is erased. -/
theorem foldl_erase_twice (table entries : List (String × α)) :
    entries.foldl (fun t e => erase e.1 t) (entries.foldl (fun t e => erase e.1 t) table) =
      entries.foldl (fun t e => erase e.1 t) table := by
  refine foldl_twice_of_stable (fun t a => ?_) (fun t a b h => ?_) entries table
  · exact erase_of_notMem (notMem_erase a.1 t)
  · have hkey : a.1 ∉ t.map Prod.fst := h ▸ notMem_erase a.1 t
    exact erase_of_notMem fun hmem => hkey ((List.filter_sublist.map Prod.fst).subset hmem)

/-- The table with an entry at its end, unless there is one of its key. -/
def complete (table : List (String × α)) (e : String × α) : List (String × α) :=
  if hasKey table e.1 then table else table ++ [e]

theorem complete_eq_self_iff : complete table e = table ↔ e.1 ∈ table.map Prod.fst := by
  rw [complete, ← hasKey_iff]
  split
  · next h => exact iff_of_true rfl h
  · next h => exact iff_of_false (by simp) h

/-- What has been completed once is complete. -/
theorem foldl_complete_twice (table entries : List (String × α)) :
    entries.foldl complete (entries.foldl complete table) = entries.foldl complete table := by
  have hmem : ∀ (t : List (String × α)) (e : String × α) {key : String},
      key = e.1 ∨ key ∈ t.map Prod.fst → key ∈ (complete t e).map Prod.fst := by
    intro t e key h
    rw [complete]
    split
    · next hkey => exact h.elim (fun heq => heq ▸ hasKey_iff.mp hkey) id
    · simpa [or_comm] using h
  refine foldl_twice_of_stable (fun t a => ?_) (fun t a b h => ?_) entries table
  · exact complete_eq_self_iff.mpr (hmem t a (.inl rfl))
  · exact complete_eq_self_iff.mpr (hmem t b (.inr (complete_eq_self_iff.mp h)))

end Store

end IndexedRecords
