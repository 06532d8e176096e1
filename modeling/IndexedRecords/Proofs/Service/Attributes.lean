import IndexedRecords.Proofs.Traversal
import IndexedRecords.Service.Indexes
import Mathlib.Data.List.Induction

/-!
# Words about attributes

What a store says about an attribute comes in groups of words: an option with its value after it, or
a bare flag. Nothing separates the groups, and a value may be any word, also the name of an option
or of a flag. The words are read group by group all the same, so a value is never taken for a name.

## Main statements

* `readOptions_words`: the words of some groups are read as these groups.
* `lastValue_options`: the value of an option is that of the last group that names it.
* `describes_words`: what an attribute is, whatever the order of its groups.
-/

namespace IndexedRecords.Service

/-! ### Groups of words -/

/-- A word in lower case. -/
def lowerWord (word : String) : String := String.ofList (Text.lower word.toList)

/-- A word in upper case. -/
def upperWord (word : String) : String := String.ofList (Text.upper word.toList)

/-- Words that belong together: an option, in whatever case, and its value, or any other word. -/
inductive WordGroup where
  | option (name value : String) (valued : lowerWord name ∈ valuedOptions)
  | flag (word : String) (bare : lowerWord word ∉ valuedOptions)

namespace WordGroup

/-- The words of a group. -/
def words : WordGroup → List String
  | .option name value _ => [name, value]
  | .flag word _ => [word]

/-- The option of a group, in lower case, and its value. -/
def option? : WordGroup → Option (String × String)
  | .option name value _ => some (lowerWord name, value)
  | .flag _ _ => none

/-- The option that a group names, in lower case. -/
def name? (g : WordGroup) : Option String := g.option?.map Prod.fst

/-- The flag of a group, in upper case. -/
def flag? : WordGroup → Option String
  | .option _ _ _ => none
  | .flag word _ => some (upperWord word)

end WordGroup

open WordGroup

variable {groups groups' : List WordGroup} {g : WordGroup} {name value : String}

/-- A word that a value follows is read with it, whatever the value is. -/
theorem readOptions_valued (valued : lowerWord name ∈ valuedOptions) (value : String)
    (rest : List String) : readOptions (name :: value :: rest) =
      ((lowerWord name, value) :: (readOptions rest).1, (readOptions rest).2) := by
  have hvalued : valuedOptions.contains (String.ofList (Text.lower name.toList)) = true :=
    List.contains_iff_mem.mpr valued
  rw [readOptions.eq_def]
  simp only [hvalued]
  rfl

/-- Any other word stands for itself. -/
theorem readOptions_flag (bare : lowerWord name ∉ valuedOptions) (rest : List String) :
    readOptions (name :: rest) =
      ((readOptions rest).1, upperWord name :: (readOptions rest).2) := by
  have hbare : valuedOptions.contains (String.ofList (Text.lower name.toList)) = false :=
    Bool.eq_false_iff.mpr (mt List.contains_iff_mem.mp bare)
  rw [readOptions.eq_def]
  simp only [hbare]
  rfl

/-- **Groups of words.** The words of some groups are read as the options and flags of these
groups. -/
theorem readOptions_words (groups : List WordGroup) :
    readOptions (groups.flatMap words) = (groups.filterMap option?, groups.filterMap flag?) := by
  induction groups with
  | nil => exact readOptions.eq_def []
  | cons g groups ih =>
    cases g with
    | option name value valued =>
      rw [List.flatMap_cons, words, List.cons_append, List.cons_append, List.nil_append,
        readOptions_valued valued, ih]
      rfl
    | flag word bare =>
      rw [List.flatMap_cons, words, List.cons_append, List.nil_append, readOptions_flag bare, ih]
      rfl

/-! ### Last values -/

theorem lastValue?_concat {α : Type} (pairs : List (String × α)) (p : String × α) (name : String) :
    lastValue? (pairs ++ [p]) name = if p.1 = name then some p.2 else lastValue? pairs name := by
  rw [lastValue?, List.reverse_append, List.reverse_singleton, List.singleton_append,
    List.find?_cons]
  by_cases h : p.1 = name <;> simp [h, lastValue?]

/-- A name that stands only once has the value that stands with it. -/
theorem lastValue?_eq_some_iff {α : Type} {pairs : List (String × α)} {v : α}
    (hnodup : (pairs.map Prod.fst).Nodup) :
    lastValue? pairs name = some v ↔ (name, v) ∈ pairs := by
  -- a lookup starts at the last pair, which has another name than those before it
  induction pairs using List.reverseRecOn with
  | nil => simp [lastValue?]
  | append_singleton pairs p ih =>
    rw [List.map_append, List.nodup_append] at hnodup
    obtain ⟨hpairs, -, hnew⟩ := hnodup
    rw [lastValue?_concat, List.mem_append, List.mem_singleton, ← ih hpairs]
    split
    · next hname =>
      subst hname
      have hother : lastValue? pairs p.1 ≠ some v := fun h =>
        hnew p.1 (List.mem_map.mpr ⟨_, (ih hpairs).mp h, rfl⟩) p.1 (List.mem_singleton_self _) rfl
      rw [or_iff_right hother, Option.some.injEq, Prod.ext_iff]
      exact ⟨fun h => ⟨rfl, h.symm⟩, fun h => h.2.symm⟩
    · next hname =>
      refine (or_iff_left ?_).symm
      rintro rfl
      exact hname rfl

/-- The order of pairs with different names does not matter. -/
theorem lastValue?_perm {α : Type} {pairs pairs' : List (String × α)} (h : pairs.Perm pairs')
    (hnodup : (pairs.map Prod.fst).Nodup) (name : String) :
    lastValue? pairs' name = lastValue? pairs name := by
  refine Option.ext fun v => ?_
  have hnodup' : (pairs'.map Prod.fst).Nodup := (h.map Prod.fst).nodup_iff.mp hnodup
  rw [lastValue?_eq_some_iff hnodup, lastValue?_eq_some_iff hnodup', h.mem_iff]

/-- The value that groups give an option last, or no characters where none of them names it. -/
inductive LastValue (groups : List WordGroup) (name : String) : String → Prop
  | named {before after : List WordGroup} {word value : String}
      {valued : lowerWord word ∈ valuedOptions}
      (split : groups = before ++ .option word value valued :: after)
      (same : lowerWord word = name) (last : ∀ g ∈ after, g.name? ≠ some name) :
      LastValue groups name value
  | absent (h : ∀ g ∈ groups, g.name? ≠ some name) : LastValue groups name ""

/-- A group that does not name an option leaves its last value. -/
theorem LastValue.concat (h : LastValue groups name value) (hg : g.name? ≠ some name) :
    LastValue (groups ++ [g]) name value := by
  cases h with
  | @named before after word value valued split same last =>
    have hsplit : groups ++ [g] = before ++ .option word value valued :: (after ++ [g]) := by
      rw [split, List.append_assoc, List.cons_append]
    exact .named hsplit same
      (List.forall_mem_append.mpr ⟨last, List.forall_mem_singleton.mpr hg⟩)
  | absent h => exact .absent (List.forall_mem_append.mpr ⟨h, List.forall_mem_singleton.mpr hg⟩)

/-- **Last values.** The value of an option among those of some groups is their last one. -/
theorem lastValue_options (groups : List WordGroup) (name : String) :
    LastValue groups name ((lastValue? (groups.filterMap option?) name).getD "") := by
  induction groups using List.reverseRecOn with
  | nil => exact .absent (List.forall_mem_nil _)
  | append_singleton groups g ih =>
    rw [List.filterMap_append]
    cases g with
    | flag word bare =>
      rw [show [WordGroup.flag word bare].filterMap option? = [] from rfl, List.append_nil]
      exact ih.concat nofun
    | option word value valued =>
      rw [show [WordGroup.option word value valued].filterMap option? = [(lowerWord word, value)]
        from rfl, lastValue?_concat]
      split
      · next hname => exact .named rfl hname (List.forall_mem_nil _)
      · next hname => exact ih.concat fun h => hname (Option.some.inj h)

/-! ### Attributes -/

/-- What groups of words say about an attribute. -/
structure Describes (groups : List WordGroup) (info : AttributeInfo) : Prop where
  path : LastValue groups "identifier" info.path
  queryAlias : LastValue groups "attribute" info.queryAlias
  type : LastValue groups "type" info.type
  sortable : info.sortable = true ↔ ∃ word bare, .flag word bare ∈ groups ∧
    upperWord word = "SORTABLE"

/-- An attribute as it is read from the options and flags of its groups. -/
theorem attributeOfWords_words (groups : List WordGroup) : attributeOfWords (groups.flatMap words) =
    ⟨(lastValue? (groups.filterMap option?) "identifier").getD "",
      (lastValue? (groups.filterMap option?) "attribute").getD "",
      (lastValue? (groups.filterMap option?) "type").getD "",
      (groups.filterMap flag?).contains "SORTABLE"⟩ := by
  rw [attributeOfWords, readOptions_words]

theorem mem_flags_iff {word : String} : word ∈ groups.filterMap flag? ↔
    ∃ flag bare, .flag flag bare ∈ groups ∧ upperWord flag = word := by
  rw [List.mem_filterMap]
  constructor
  · rintro ⟨_ | ⟨flag, bare⟩, hmem, hflag⟩
    · cases hflag
    · exact ⟨flag, bare, hmem, Option.some.inj hflag⟩
  · rintro ⟨flag, bare, hmem, rfl⟩
    exact ⟨_, hmem, rfl⟩

theorem map_fst_options (groups : List WordGroup) :
    (groups.filterMap option?).map Prod.fst = groups.filterMap name? := by
  rw [List.map_filterMap]
  rfl

/-- Groups with different names say the same in any order. -/
theorem attributeOfWords_perm (h : groups.Perm groups') (hnodup : (groups.filterMap name?).Nodup) :
    attributeOfWords (groups'.flatMap words) = attributeOfWords (groups.flatMap words) := by
  have hoptions (name : String) := lastValue?_perm (h.filterMap option?)
    ((map_fst_options groups).symm ▸ hnodup) name
  have hflags : (groups'.filterMap flag?).contains "SORTABLE" =
      (groups.filterMap flag?).contains "SORTABLE" := (h.filterMap flag?).symm.contains_eq
  rw [attributeOfWords_words, attributeOfWords_words, hoptions, hoptions, hoptions, hflags]

/-- A reply whose items are read as words is read as the attribute that they are about. -/
theorem readAttributes_of_forall₂ {reply : Value} {items : List Value} {words : List String}
    (hitems : reply.items? = some items)
    (h : List.Forall₂ (fun item word => item.asText = .ok word) items words) :
    readAttributes (.list [reply]) = .ok [attributeOfWords words] := by
  have hwords : readTexts reply = .ok words := by
    rw [readTexts, Value.items, hitems]
    exact Traversal.mapM_eq_ok_iff.mpr h
  change [reply].mapM (fun item => do return attributeOfWords (← readTexts item)) = _
  rw [List.mapM_cons, hwords]
  rfl

/-- **Attributes.** What a reply says about an attribute is read group by group, whatever the values
are, so that exactly the options and flags of its groups are found: each option has the value that
it is given last, and the order of groups with different names does not matter. -/
theorem describes_words (groups : List WordGroup) :
    (∀ reply items, reply.items? = some items →
      List.Forall₂ (fun item word => item.asText = .ok word) items (groups.flatMap words) →
      readAttributes (.list [reply]) = .ok [attributeOfWords (groups.flatMap words)]) ∧
    readOptions (groups.flatMap words) = (groups.filterMap option?, groups.filterMap flag?) ∧
    Describes groups (attributeOfWords (groups.flatMap words)) ∧
    ∀ groups', groups.Perm groups' → (groups.filterMap name?).Nodup →
      attributeOfWords (groups'.flatMap words) = attributeOfWords (groups.flatMap words) := by
  refine ⟨fun reply items => readAttributes_of_forall₂, readOptions_words groups, ?_,
    fun groups' => attributeOfWords_perm⟩
  rw [attributeOfWords_words]
  refine ⟨lastValue_options groups _, lastValue_options groups _, lastValue_options groups _, ?_⟩
  rw [List.contains_iff_mem, mem_flags_iff]

/-- Words about a title, with names of options and flags as values. -/
def titleGroups : List WordGroup :=
  [.flag "NoStem" (by decide), .option "Type" "identifier" (by decide),
    .option "Attribute" "SORTABLE" (by decide), .option "IDENTIFIER" "$.title" (by decide)]

/-- A reply with the words about a title, the last group first and one name as bytes. -/
def titleReply : List Value :=
  [.text "IDENTIFIER", .text "$.title", .bytes [65, 116, 116, 114, 105, 98, 117, 116, 101],
    .text "SORTABLE", .text "Type", .text "identifier", .text "NoStem"]

theorem describes_words_title : titleGroups.Perm titleGroups.reverse ∧
    (titleGroups.filterMap name?).Nodup ∧
    List.Forall₂ (fun item word => item.asText = .ok word) titleReply
      (titleGroups.reverse.flatMap words) ∧
    readAttributes (.list [.list titleReply]) =
      .ok [⟨"$.title", "SORTABLE", "identifier", false⟩] := by
  have hperm : titleGroups.Perm titleGroups.reverse := (List.reverse_perm _).symm
  have hnodup : (titleGroups.filterMap name?).Nodup := by decide
  have hitems : List.Forall₂ (fun item word => item.asText = .ok word) titleReply
      (titleGroups.reverse.flatMap words) :=
    .cons rfl (.cons rfl (.cons rfl (.cons rfl (.cons rfl (.cons rfl (.cons rfl .nil))))))
  obtain ⟨hread, -⟩ := describes_words titleGroups.reverse
  obtain ⟨-, -, -, horder⟩ := describes_words titleGroups
  have hwords := hread (.list titleReply) titleReply rfl hitems
  have hinfo : attributeOfWords (titleGroups.flatMap words) =
      ⟨"$.title", "SORTABLE", "identifier", false⟩ := (attributeOfWords_words _).trans (by decide)
  rw [horder _ hperm hnodup, hinfo] at hwords
  exact ⟨hperm, hnodup, hitems, hwords⟩

end IndexedRecords.Service
