import IndexedRecords.Proofs.Schema.Clauses
import IndexedRecords.Proofs.Text.Replacing
import Mathlib.Data.List.Nodup

/-!
# Aliases of leaves

The alias of a nested leaf is put together part by part, with one part for each field of its chain
(`parts`), while the alias of a path is found by rewriting the whole path. The two agree as long as
no mark of a wildcard lies across two parts. No mark for the items of an array can; the mark for the
values of a map does where a later part starts with its star once marks for items are gone.

## Main statements

* `aliasText_joinWith_eq_iff`: for which parts the two ways agree.
* `queryAlias_eq_iff`: which leaves have the alias of their path.
-/

namespace IndexedRecords.Schema

open Text Traversal

variable {c : Catalogue} {record : RecordType} {f : Field} {link : Link} {l : Leaf}
  {ls : List Leaf} {chain : List Link}

/-! ### Rewriting a path -/

/-- A text without the marks that select all items of an array. -/
def withoutItems (cs : List Char) : List Char := replaceAll arrayWildcard.toList [] cs

/-- The alias of a path, from what follows the root. -/
def aliasText (cs : List Char) : List Char :=
  replaceAll ['.'] ['_', '_'] (replaceAll mapWildcard.toList [] (withoutItems cs))

/-- A text starts with a star once marks for items are gone. -/
def StartsWithStar (cs : List Char) : Prop := (withoutItems cs).head? = some '*'

/-- The root of a path leaves no trace in its alias. -/
theorem aliasOfPath_root (path : String) :
    aliasOfPath ("$." ++ path) = String.ofList (aliasText path.toList) := by
  simp [aliasOfPath, aliasText, withoutItems, stripLead, String.toList_append, List.isPrefixOf?]

/-- A text without stars does not start with one, whatever marks are gone. -/
theorem not_startsWithStar_of_notMem {cs : List Char} (h : '*' ∉ cs) : ¬ StartsWithStar cs := by
  have hcs : withoutItems cs = cs := replaceAll_of_notMem (by decide) h
  rw [StartsWithStar, hcs]
  exact fun hhead => h (List.mem_of_head? hhead)

/-- Marks for items do not lie across a point. -/
theorem withoutItems_append_dot (xs ys : List Char) :
    withoutItems (xs ++ '.' :: ys) = withoutItems xs ++ '.' :: withoutItems ys := by
  rw [withoutItems, replaceAll_append_cons (by decide),
    replaceAll_cons_of_notMem (by decide) (by decide)]
  rfl

/-- A mark for items at the end of a text is gone. -/
theorem withoutItems_append_items (xs : List Char) :
    withoutItems (xs ++ arrayWildcard.toList) = withoutItems xs := by
  have happend : withoutItems (xs ++ arrayWildcard.toList) =
      withoutItems xs ++ withoutItems arrayWildcard.toList :=
    replaceAll_append_cons (by decide) xs ['*', ']']
  exact happend.trans (List.append_nil _)

/-- Where two texts meet at a point, a star after it takes the point away with it. -/
theorem aliasText_append_dot_star {xs ys : List Char} (h : StartsWithStar ys) :
    aliasText (xs ++ '.' :: ys) = aliasText xs ++ (aliasText ys).tail := by
  obtain ⟨more, hmore⟩ := List.head?_eq_some_iff.mp h
  have hwhole : replaceAll mapWildcard.toList [] ('.' :: '*' :: more) =
      replaceAll mapWildcard.toList [] more :=
    replaceAll_mark_append (by decide) more
  have hstar : replaceAll mapWildcard.toList [] ('*' :: more) =
      '*' :: replaceAll mapWildcard.toList [] more :=
    replaceAll_cons_of_not_leading fun hprefix =>
      absurd (List.cons_prefix_cons.mp hprefix).1 (by decide)
  simp only [aliasText]
  rw [withoutItems_append_dot, hmore, replaceAll_append_cons (by decide), hwhole, hstar,
    replaceAll_singleton_append, replaceAll_cons_of_notMem (by decide) (by decide), List.tail_cons]

/-- A path is rewritten in two parts at a point, unless a star after it would make it part of a mark
for values. -/
theorem aliasText_append_dot {xs ys : List Char} (h : ¬ StartsWithStar ys) :
    aliasText (xs ++ '.' :: ys) = aliasText xs ++ '_' :: '_' :: aliasText ys := by
  have hdot : replaceAll mapWildcard.toList [] ('.' :: withoutItems ys) =
      '.' :: replaceAll mapWildcard.toList [] (withoutItems ys) := by
    refine replaceAll_cons_of_not_leading fun hprefix => h ?_
    obtain ⟨more, hmore⟩ := (List.cons_prefix_cons.mp hprefix).2
    rw [StartsWithStar, ← hmore]
    rfl
  simp only [aliasText]
  rw [withoutItems_append_dot, replaceAll_append_cons (by decide), hdot,
    replaceAll_singleton_append]
  exact congrArg _ (replaceAll_mark_append (by decide) _)

/-- Between a part and the next one stands the separator. -/
theorem joinWith_cons_cons {sep p q : List Char} {ps : List (List Char)} :
    joinWith sep (p :: q :: ps) = p ++ (sep ++ joinWith sep (q :: ps)) :=
  List.append_assoc p sep _

/-- Only the first of several parts can make them start with a star. -/
theorem startsWithStar_joinWith (p : List Char) (ps : List (List Char)) :
    StartsWithStar (joinWith ['.'] (p :: ps)) ↔ StartsWithStar p := by
  cases ps with
  | nil => rfl
  | cons q ps =>
    rw [joinWith_cons_cons, List.singleton_append]
    unfold StartsWithStar
    rw [withoutItems_append_dot]
    cases withoutItems p with
    | nil => simp
    | cons c cs => rfl

/-! ### Joining parts -/

/-- The alias of a joined path is never longer than the aliases of its parts joined: a mark across
two parts only takes characters away. -/
theorem length_aliasText_joinWith_le (ps : List (List Char)) :
    (aliasText (joinWith ['.'] ps)).length ≤ (joinWith ['_', '_'] (ps.map aliasText)).length := by
  induction ps with
  | nil => exact Nat.le_refl 0
  | cons p ps ih =>
    cases ps with
    | nil => exact Nat.le_refl _
    | cons q ps =>
      rw [List.map_cons] at ih
      rw [joinWith_cons_cons, List.singleton_append, List.map_cons, List.map_cons,
        joinWith_cons_cons, List.length_append, List.length_append]
      by_cases hstar : StartsWithStar (joinWith ['.'] (q :: ps))
      · rw [aliasText_append_dot_star hstar, List.length_append, List.length_tail]
        omega
      · rw [aliasText_append_dot hstar, List.length_append]
        simp only [List.length_cons, List.length_nil]
        omega

/-- **Joined parts.** The alias of a joined path is joined from the aliases of its parts if and only
if no part but the first starts with a star once marks for items are gone. -/
theorem aliasText_joinWith_eq_iff (p : List Char) (ps : List (List Char)) :
    aliasText (joinWith ['.'] (p :: ps)) = joinWith ['_', '_'] ((p :: ps).map aliasText) ↔
      ∀ q ∈ ps, ¬ StartsWithStar q := by
  induction ps generalizing p with
  | nil => simp [joinWith]
  | cons q ps ih =>
    have hjoin : joinWith ['_', '_'] ((p :: q :: ps).map aliasText) =
        aliasText p ++ '_' :: '_' :: joinWith ['_', '_'] ((q :: ps).map aliasText) :=
      joinWith_cons_cons
    rw [joinWith_cons_cons, List.singleton_append, hjoin, List.forall_mem_cons, ← ih q,
      ← startsWithStar_joinWith q ps]
    by_cases hstar : StartsWithStar (joinWith ['.'] (q :: ps))
    · -- the alias of the whole path is too short
      rw [aliasText_append_dot_star hstar]
      refine iff_of_false (fun heq => ?_) fun h => h.1 hstar
      have hlength := congrArg List.length (List.append_cancel_left heq)
      have hle := length_aliasText_joinWith_le (q :: ps)
      rw [List.length_tail, List.length_cons, List.length_cons] at hlength
      omega
    · rw [aliasText_append_dot hstar]
      simp [hstar]

/-! ### Parts of chains -/

/-- The parts of the path of a chain: the keys of its fields with the wildcards after them. -/
def parts : List Link → List (List Char)
  | [] => []
  | [link] => [(link.field.pathKey ++ lastWildcard link.field).toList]
  | link :: next :: rest =>
    (link.field.pathKey ++ (holding link.field).wildcard).toList :: parts (next :: rest)

/-- The parts of a longer chain start with the key of its first field and the wildcard of what this
holds. -/
theorem parts_cons (link : Link) {rest : List Link} (h : rest ≠ []) :
    parts (link :: rest) =
      (link.field.pathKey ++ (holding link.field).wildcard).toList :: parts rest := by
  obtain ⟨next, rest, rfl⟩ := List.exists_cons_of_ne_nil h
  rw [parts]

/-- A chain has parts. -/
theorem parts_ne_nil (h : chain ≠ []) : parts chain ≠ [] := by
  obtain ⟨link, rest, rfl⟩ := List.exists_cons_of_ne_nil h
  cases rest <;> nofun

/-- A part before others, with the separator between them. -/
theorem joinWith_cons {sep p : List Char} {ps : List (List Char)} (h : ps ≠ []) :
    joinWith sep (p :: ps) = p ++ (sep ++ joinWith sep ps) := by
  obtain ⟨q, ps, rfl⟩ := List.exists_cons_of_ne_nil h
  exact joinWith_cons_cons

/-- The path of a chain is that of its parts with points between them. -/
theorem chainPath_eq (h : chain ≠ []) :
    chainPath chain = "." ++ String.ofList (joinWith ['.'] (parts chain)) := by
  induction chain with
  | nil => exact absurd rfl h
  | cons link rest ih =>
    by_cases hrest : rest = []
    · subst hrest
      rw [chainPath, parts, joinWith, String.ofList_toList, String.append_assoc]
    · rw [chainPath_cons link hrest, ih hrest, parts_cons link hrest,
        joinWith_cons (parts_ne_nil hrest), String.ofList_append, String.ofList_append,
        String.ofList_toList]
      simp only [String.append_assoc]

/-- A wildcard after a key does not change with which sign the key starts. -/
theorem startsWithStar_append {key wildcard : String}
    (h : wildcard = "" ∨ wildcard = arrayWildcard ∨ wildcard = mapWildcard) :
    StartsWithStar (key ++ wildcard).toList ↔ StartsWithStar key.toList := by
  unfold StartsWithStar
  rw [String.toList_append]
  obtain rfl | rfl | rfl := h
  · rw [String.toList_empty, List.append_nil]
  · rw [withoutItems_append_items]
  · have hdot : withoutItems (key.toList ++ mapWildcard.toList) =
        withoutItems key.toList ++ ['.', '*'] :=
      withoutItems_append_dot key.toList ['*']
    rw [hdot]
    cases withoutItems key.toList with
    | nil => decide
    | cons c cs => rfl

/-- What follows the key of a field that holds records is one of the wildcards, or nothing. -/
theorem wildcard_cases (h : Holding) :
    h.wildcard = "" ∨ h.wildcard = arrayWildcard ∨ h.wildcard = mapWildcard := by
  cases h <;> simp [Holding.wildcard]

/-- What follows the key of the last field of a chain is one of the wildcards, or nothing. -/
theorem lastWildcard_cases (f : Field) :
    lastWildcard f = "" ∨ lastWildcard f = arrayWildcard ∨ lastWildcard f = mapWildcard := by
  unfold lastWildcard
  split
  · split <;> simp
  · simp

/-- The parts of a path and the keys of its chain start with stars at the same places. -/
theorem forall_mem_parts_iff :
    (∀ q ∈ parts chain, ¬ StartsWithStar q) ↔
      ∀ link ∈ chain, ¬ StartsWithStar link.field.pathKey.toList := by
  induction chain with
  | nil => simp [parts]
  | cons link rest ih =>
    by_cases hrest : rest = []
    · subst hrest
      simp only [parts, List.forall_mem_singleton,
        startsWithStar_append (lastWildcard_cases link.field)]
    · rw [parts_cons link hrest, List.forall_mem_cons, List.forall_mem_cons, ih,
        startsWithStar_append (wildcard_cases _)]

/-- A part starts with a star exactly if the key of its field does: the wildcard comes after the
key. -/
theorem forall_mem_tail_parts_iff :
    (∀ q ∈ (parts chain).tail, ¬ StartsWithStar q) ↔
      ∀ link ∈ chain.tail, ¬ StartsWithStar link.field.pathKey.toList := by
  match chain with
  | [] => simp [parts]
  | [link] => simp [parts]
  | link :: next :: rest => exact forall_mem_parts_iff

/-! ### Aliases of leaves -/

/-- A leaf of a chain has the alias that is joined from those of the parts of its path. -/
structure IsAliased (chain : List Link) (l : Leaf) : Prop extends Depicts chain l where
  alias_eq : l.queryAlias = String.ofList (joinWith ['_', '_'] ((parts chain).map aliasText))

/-- The alias of a leaf is put together part by part, at a single field and when a leaf is
lifted. -/
theorem isCarried_isAliased : IsCarried c IsAliased where
  leaf {_ _ link _ l} hm hi hnode := by
    have hdepicts := isCarried_depicts.leaf hm hi hnode
    obtain ⟨path, type, whole, hleaf⟩ := exists_leafOf_of_nodeOf hi hnode
    have hpath : l.path = "$." ++ (link.field.pathKey ++ lastWildcard link.field) := by
      rw [hdepicts.path_eq, chainPath, ← String.append_assoc, ← String.append_assoc,
        ← String.append_assoc]
      rfl
    exact ⟨hdepicts, by rw [(eq_of_leafOf hleaf).2, hpath, aliasOfPath_root]; rfl⟩
  lift {link rest l} hrest h := by
    have hroot : holdingPath link.field =
        "$." ++ (link.field.pathKey ++ (holding link.field).wildcard) := by
      rw [holdingPath, String.append_assoc]
    have halias : (liftLeaf link.field l).queryAlias =
        aliasOfPath (holdingPath link.field) ++ "__" ++ l.queryAlias := rfl
    refine ⟨h.toDepicts.liftLeaf hrest, ?_⟩
    rw [halias, h.alias_eq, hroot, aliasOfPath_root, parts_cons link hrest, List.map_cons,
      joinWith_cons (by simpa using parts_ne_nil hrest), String.ofList_append,
      String.ofList_append, String.append_assoc]

/-- A leaf has the alias of its path exactly if no key after the first one starts with a star. -/
theorem IsAliased.eq_aliasOfPath_iff (hchain : chain ≠ []) (h : IsAliased chain l) :
    l.queryAlias = aliasOfPath l.path ↔
      ∀ link ∈ chain.tail, ¬ StartsWithStar link.field.pathKey.toList := by
  have hpath : l.path = "$." ++ String.ofList (joinWith ['.'] (parts chain)) := by
    rw [h.path_eq, chainPath_eq hchain, ← String.append_assoc]
    rfl
  obtain ⟨p, ps, hparts⟩ := List.exists_cons_of_ne_nil (parts_ne_nil hchain)
  rw [h.alias_eq, hpath, aliasOfPath_root, String.toList_ofList, String.ofList_inj, eq_comm,
    ← forall_mem_tail_parts_iff, hparts, aliasText_joinWith_eq_iff, List.tail_cons]

/-- What holds of all fields in a catalogue holds along the chains of its record types. -/
theorem IndexedChain.forall_of_types {P : Field → Prop}
    (h : ∀ r ∈ c.types, ∀ f ∈ r.fields, P f) (hrecord : record ∈ c.types)
    (hchain : IndexedChain c record chain) : ∀ link ∈ chain, P link.field := by
  induction hchain with
  | last declared _ _ =>
    rw [List.forall_mem_singleton]
    exact h _ hrecord _ (List.mem_of_getElem? declared)
  | cons declared marked held _ ih =>
    have hinner := List.mem_of_find?_eq_some (find?_of_inner? held)
    exact List.forall_mem_cons.mpr ⟨h _ hrecord _ (List.mem_of_getElem? declared), ih hinner⟩

/-- **Aliases and paths.** A leaf has the alias of its path if and only if no key after the first
one of its chain starts with a star once marks for items are gone from it. Where no key holds a star
at all, as no identifier does, all leaves have the aliases of their paths, and these paths
differ. -/
theorem queryAlias_eq_iff (h : compile c record = .ok ls) :
    (∃ chains, Enumerates c record chains ∧
      List.Forall₂ (fun chain l => Describes chain l ∧
        (l.queryAlias = aliasOfPath l.path ↔
          ∀ link ∈ chain.tail, ¬ StartsWithStar link.field.pathKey.toList)) chains ls) ∧
    ((∀ chain, IndexedChain c record chain → ∀ link ∈ chain, '*' ∉ link.field.pathKey.toList) →
      (∀ l ∈ ls, l.queryAlias = aliasOfPath l.path) ∧ (ls.map Leaf.path).Nodup) := by
  obtain ⟨chains, henum, haliased⟩ :=
    (listsFrom_of_leavesWithin isCarried_isAliased (leaves_eq_of_compile_eq_ok h)).exists_enumerates
  have hchains : ∀ chain ∈ chains, IndexedChain c record chain := fun chain =>
    (henum.mem_iff chain).mp
  have hleaves := (List.forall₂_and_left chains ls).mpr ⟨hchains, haliased⟩
  refine ⟨⟨chains, henum, hleaves.imp fun chain l hl => ?_⟩, fun hplain => ?_⟩
  · exact ⟨hl.2.toDescribes, hl.2.eq_aliasOfPath_iff hl.1.ne_nil⟩
  · have heq : ∀ l ∈ ls, l.queryAlias = aliasOfPath l.path := by
      intro l hl
      obtain ⟨chain, -, hchain, hl⟩ := exists_of_mem_left hleaves.flip hl
      refine (hl.eq_aliasOfPath_iff hchain.ne_nil).mpr fun link hlink => ?_
      exact not_startsWithStar_of_notMem (hplain chain hchain link (List.mem_of_mem_tail hlink))
    have hmap : ls.map Leaf.queryAlias = (ls.map Leaf.path).map aliasOfPath := by
      rw [List.map_map]
      exact List.map_congr_left heq
    exact ⟨heq, List.Nodup.of_map aliasOfPath (hmap ▸ nodup_aliases_of_compile h)⟩

/-- Boxes that hold goods under a plain key and under keys that start with stars. -/
def boxes : Catalogue :=
  (Catalogue.bases.declare
    ⟨"Good", "EmbeddedJsonModel", none, none,
      [keyedField "plain" "name" (.scalar .text),
        keyedField "marked" "[*]*name" (.scalar .text)]⟩).declare
    ⟨"Box", "JsonModel", none, none, [indexedField "good" (.record "Good")]⟩

/-- The keys of mailboxes are identifiers; one key of boxes is none. -/
theorem queryAlias_eq_iff_mailboxes_boxes :
    (∃ ls, compile mailboxes mailboxes.types[4] = .ok ls ∧
      (∀ l ∈ ls, l.queryAlias = aliasOfPath l.path) ∧ (ls.map Leaf.path).Nodup) ∧
    ∃ ls chains, compile boxes boxes.types[4] = .ok ls ∧
      ls.map Leaf.queryAlias = ["id", "good__name", "good__*name"] ∧
      ls.map (fun l => aliasOfPath l.path) = ["id", "good__name", "goodname"] ∧
      Enumerates boxes boxes.types[4] chains ∧
      List.Forall₂ (fun chain l => Describes chain l ∧
        (l.queryAlias = aliasOfPath l.path ↔
          ∀ link ∈ chain.tail, ¬ StartsWithStar link.field.pathKey.toList)) chains ls := by
  have hplain : ∀ r ∈ mailboxes.types, ∀ f ∈ r.fields, '*' ∉ f.pathKey.toList := by decide
  have hmailbox : compile mailboxes mailboxes.types[4] = .ok _ := rfl
  have hpaths := (queryAlias_eq_iff hmailbox).2 fun chain hchain =>
    hchain.forall_of_types hplain (List.getElem_mem _)
  have hbox : compile boxes boxes.types[4] = .ok _ := rfl
  obtain ⟨chains, henum, hleaves⟩ := (queryAlias_eq_iff hbox).1
  exact ⟨⟨_, hmailbox, hpaths⟩, _, chains, hbox, rfl, rfl, henum, hleaves⟩

end IndexedRecords.Schema
