import IndexedRecords.Proofs.Schema.Clauses
import IndexedRecords.Proofs.Tables
import Mathlib.Data.List.Nodup

/-!
# Names of leaves

A leaf is found by its dotted name, and schemas do not check that no two leaves share one. They need
not: where the fields of each record type have different names without points (`HasDottableNames`),
the parts of a dotted name lead from field to field along one chain only.

## Main statements

* `IndexedChain.eq_of_chainName_eq`: a dotted name determines its chain of fields.
* `nodup_names_of_leaves`: the leaves of a schema have different names.
* `findLeaf_eq_some_iff`: a leaf is found by its own name, and by no other one.
* `compile_eq_duplicateAlias`: two leaves of one alias are reported by the first repetition.
-/

namespace IndexedRecords.Schema

open Relation Traversal

variable {c : Catalogue} {record inner : RecordType} {chain chain' : List Link} {l : Leaf}
  {ls : List Leaf}

/-- The fields of a record type have different names, and points can stand between these. -/
structure HasDottableNames (record : RecordType) : Prop where
  distinct : (record.fields.map Field.name).Nodup
  pointless : ∀ f ∈ record.fields, '.' ∉ f.name.toList

/-! ### Chains by their names -/

/-- The names of the fields of a chain. -/
def fieldNames (chain : List Link) : List String := chain.map fun link => link.field.name

theorem chainName_eq_intercalate (chain : List Link) :
    chainName chain = ".".intercalate (fieldNames chain) := rfl

/-- In a record type whose fields have different names, a name has one place. -/
theorem eq_of_name_eq {link link' : Link} (hnames : HasDottableNames record)
    (h : record.fields[link.position]? = some link.field)
    (h' : record.fields[link'.position]? = some link'.field)
    (heq : link.field.name = link'.field.name) : link = link' := by
  obtain ⟨hlt, hfield⟩ := List.getElem?_eq_some_iff.mp h
  obtain ⟨hlt', hfield'⟩ := List.getElem?_eq_some_iff.mp h'
  have hposition : link.position = link'.position := by
    have hi : link.position < (record.fields.map Field.name).length := by simpa using hlt
    have hj : link'.position < (record.fields.map Field.name).length := by simpa using hlt'
    have hname : (record.fields.map Field.name)[link.position] =
        (record.fields.map Field.name)[link'.position] := by
      rw [List.getElem_map, List.getElem_map, hfield, hfield', heq]
    exact hnames.distinct.getElem_inj_iff.mp hname
  rcases link with ⟨i, f⟩
  rcases link' with ⟨j, f'⟩
  obtain rfl : i = j := hposition
  exact congrArg (Link.mk i) (hfield.symm.trans hfield')

/-- The names of the fields on the way determine a chain. -/
theorem IndexedChain.eq_of_fieldNames_eq (h : IndexedChain c record chain)
    (h' : IndexedChain c record chain')
    (hnames : ∀ N, ReflTransGen (Nests c) record N → HasDottableNames N)
    (heq : fieldNames chain = fieldNames chain') : chain = chain' := by
  -- on the first chain; the second one is of the same length, so it goes on where the first does
  induction h generalizing chain' with
  | @last record link declared marked ends =>
    cases h' with
    | last declared' marked' ends' =>
      have hname := List.cons.inj heq
      rw [eq_of_name_eq (hnames _ .refl) declared declared' hname.1]
    | cons _ _ _ rest_chain' =>
      have hrest := (List.cons.inj heq).2
      exact absurd (List.map_eq_nil_iff.mp hrest.symm) rest_chain'.ne_nil
  | @cons record inner link rest declared marked held rest_chain ih =>
    cases h' with
    | last _ _ _ =>
      have hrest := (List.cons.inj heq).2
      exact absurd (List.map_eq_nil_iff.mp hrest) rest_chain.ne_nil
    | cons declared' marked' held' rest_chain' =>
      obtain ⟨hname, hrest⟩ := List.cons.inj heq
      obtain rfl := eq_of_name_eq (hnames _ .refl) declared declared' hname
      obtain rfl := Option.some.inj (held.symm.trans held')
      have hnests : Nests c record inner :=
        ⟨link.field, List.mem_of_getElem? declared, marked, held⟩
      rw [ih rest_chain' (fun N hN => hnames N (.head hnests hN)) hrest]

theorem IndexedChain.pointless (h : IndexedChain c record chain)
    (hnames : ∀ N, ReflTransGen (Nests c) record N → HasDottableNames N) :
    ∀ name ∈ fieldNames chain, '.' ∉ name.toList := by
  induction h with
  | last declared _ _ =>
    intro name hname
    obtain rfl := List.mem_singleton.mp hname
    exact (hnames _ .refl).pointless _ (List.mem_of_getElem? declared)
  | cons declared marked held _ ih =>
    have hmem := List.mem_of_getElem? declared
    intro name hname
    rcases List.mem_cons.mp hname with rfl | hname
    · exact (hnames _ .refl).pointless _ hmem
    · exact ih (fun N hN => hnames N (.head ⟨_, hmem, marked, held⟩ hN)) name hname

/-- Texts without points are found again between the points that join them. -/
theorem eq_of_intercalate_eq {names names' : List String} (hne : names ≠ []) (hne' : names' ≠ [])
    (h : ∀ name ∈ names, '.' ∉ name.toList) (h' : ∀ name ∈ names', '.' ∉ name.toList)
    (heq : ".".intercalate names = ".".intercalate names') : names = names' := by
  have hsplit : ∀ names : List String, names ≠ [] → (∀ name ∈ names, '.' ∉ name.toList) →
      (".".intercalate names).toList.splitOn '.' = names.map String.toList := by
    intro names hne h
    rw [String.toList_intercalate]
    refine List.splitOn_intercalate '.' ?_ (by simpa using hne)
    intro part hpart
    obtain ⟨name, hname, rfl⟩ := List.mem_map.mp hpart
    exact h name hname
  have hparts : names.map String.toList = names'.map String.toList := by
    rw [← hsplit names hne h, ← hsplit names' hne' h', heq]
  exact List.map_injective_iff.mpr (fun _ _ => String.toList_injective) hparts

/-- **Names and chains.** A dotted name determines its chain of fields. -/
theorem IndexedChain.eq_of_chainName_eq (h : IndexedChain c record chain)
    (h' : IndexedChain c record chain')
    (hnames : ∀ N, ReflTransGen (Nests c) record N → HasDottableNames N)
    (heq : chainName chain = chainName chain') : chain = chain' := by
  have hne : fieldNames chain ≠ [] := by simpa [fieldNames] using h.ne_nil
  have hne' : fieldNames chain' ≠ [] := by simpa [fieldNames] using h'.ne_nil
  rw [chainName_eq_intercalate, chainName_eq_intercalate] at heq
  exact h.eq_of_fieldNames_eq h' hnames
    (eq_of_intercalate_eq hne hne' (h.pointless hnames) (h'.pointless hnames) heq)

/-! ### Leaves by their names -/

theorem map_name_eq {chains : List (List Link)} (h : List.Forall₂ Describes chains ls) :
    ls.map Leaf.name = chains.map chainName := by
  induction h with
  | nil => rfl
  | cons hdescribes _ ih => rw [List.map_cons, List.map_cons, hdescribes.name_eq, ih]

/-- **Names.** The leaves of a record type have different names. -/
theorem nodup_names_of_leaves (h : leaves c record = .ok ls)
    (hnames : ∀ N, ReflTransGen (Nests c) record N → HasDottableNames N) :
    (ls.map Leaf.name).Nodup := by
  obtain ⟨chains, henum, hdescribes⟩ := exists_chains_of_leavesWithin h
  rw [map_name_eq hdescribes, List.Nodup, List.pairwise_map]
  refine henum.ordered.imp_of_mem fun {a b} ha hb hlt heq => ?_
  obtain rfl : a = b := ((henum.mem_iff a).mp ha).eq_of_chainName_eq ((henum.mem_iff b).mp hb)
    hnames heq
  exact List.lt_irrefl _ hlt

theorem findLeaf_eq (h : compile c record = .ok ls) (name : String) :
    findLeaf c record name = .ok (ls.find? fun l => l.name = name) := by
  rw [findLeaf, h]
  rfl

/-- A leaf is found by its own name, and by no other one. -/
theorem findLeaf_eq_some_iff (h : compile c record = .ok ls)
    (hnames : ∀ N, ReflTransGen (Nests c) record N → HasDottableNames N) {name : String} :
    findLeaf c record name = .ok (some l) ↔ l ∈ ls ∧ l.name = name := by
  rw [findLeaf_eq h, Except.ok.injEq]
  constructor
  · intro hfound
    exact ⟨List.mem_of_find?_eq_some hfound, by simpa using List.find?_some hfound⟩
  · rintro ⟨hl, rfl⟩
    exact find?_of_mem (nodup_names_of_leaves (leaves_eq_of_compile_eq_ok h) hnames) hl

theorem findLeaf_eq_none_iff (h : compile c record = .ok ls) {name : String} :
    findLeaf c record name = .ok none ↔ ∀ l ∈ ls, l.name ≠ name := by
  rw [findLeaf_eq h, Except.ok.injEq, List.find?_eq_none]
  simp

/-! ### Repeated aliases -/

/-- What is reported is the first leaf whose alias came before, after the leaf that it came with. -/
theorem exists_of_firstClash?_eq_some {before : List Leaf} {first second : Leaf}
    (h : firstClash? before ls = some (first, second))
    (hbefore : (before.map Leaf.queryAlias).Nodup) :
    ∃ seen rest, before ++ ls = seen ++ second :: rest ∧ first ∈ seen ∧
      first.queryAlias = second.queryAlias ∧ (seen.map Leaf.queryAlias).Nodup := by
  -- the leaves before have different aliases, which is the invariant
  induction ls generalizing before with
  | nil => cases h
  | cons l ls ih =>
    rw [firstClash?] at h
    split at h
    · next b hb =>
      obtain ⟨rfl, rfl⟩ : b = first ∧ l = second := by simpa using h
      exact ⟨before, ls, rfl, List.mem_of_find?_eq_some hb, by simpa using List.find?_some hb,
        hbefore⟩
    · next hnone =>
      have hfresh : ∀ b ∈ before, b.queryAlias ≠ l.queryAlias := by simpa using hnone
      have hseen : ((before ++ [l]).map Leaf.queryAlias).Nodup := by
        rw [List.map_append, List.nodup_append]
        refine ⟨hbefore, by simp, ?_⟩
        intro a ha b hb
        obtain ⟨l', hl', rfl⟩ := List.mem_map.mp ha
        obtain rfl : b = l.queryAlias := by simpa using hb
        exact hfresh l' hl'
      obtain ⟨seen, rest, happend, hfirst⟩ := ih h hseen
      exact ⟨seen, rest, by rw [← happend, List.append_assoc]; rfl, hfirst⟩

/-- **Repeated aliases.** Where leaves share an alias, the first one whose alias came before is
reported, after the only one that it came with before. -/
theorem compile_eq_duplicateAlias (h : leaves c record = .ok ls)
    (hrepeated : ¬ (ls.map Leaf.queryAlias).Nodup) :
    ∃ before first between second after,
      ls = before ++ first :: between ++ second :: after ∧ first.queryAlias = second.queryAlias ∧
      ((before ++ first :: between).map Leaf.queryAlias).Nodup ∧
      compile c record = .error (.duplicateAlias record.name
        (String.ofList (Text.quoted second.queryAlias.toList)) first.path second.path) := by
  cases hclash : firstClash? [] ls with
  | none => exact absurd (nodup_of_firstClash? hclash).2 hrepeated
  | some clash =>
    obtain ⟨first, second⟩ := clash
    obtain ⟨seen, after, hls, hfirst, halias, hseen⟩ :=
      exists_of_firstClash?_eq_some hclash List.nodup_nil
    obtain ⟨before, between, rfl⟩ := List.append_of_mem hfirst
    refine ⟨before, first, between, second, after, hls, halias, hseen, ?_⟩
    simp only [compile, h, bind, Except.bind, hclash]

end IndexedRecords.Schema
