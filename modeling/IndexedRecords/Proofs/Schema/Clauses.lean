import IndexedRecords.Proofs.Number.Whole
import IndexedRecords.Proofs.Schema.Chains
import IndexedRecords.Proofs.Text.Case
import Mathlib.Logic.Relation

/-!
# Clauses of schemas

When an index is created, each leaf is declared by a clause of words: its path, the word `AS`, its
alias, its type and its options. Nothing marks the end of a clause but the next path, which starts
with the sign of the root. So it matters which words start with that sign: all paths do, and options
do not unless the metric of a vector does.

## Main statements

* `head?_path_of_compile`: paths start at the root.
* `head?_ne_of_mem_options`: options do not, where metrics are plain.
* `nodup_aliases_of_compile`: the leaves of a schema have different aliases.
-/

namespace IndexedRecords.Schema

open Relation Traversal

variable {c : Catalogue} {nested : RecordType → Except SchemaFault (List Leaf)}
  {owner : String} {f : Field} {m : Marker} {record inner : RecordType} {l : Leaf} {ls : List Leaf}

/-! ### Paths -/

/-- The path of a leaf starts at the root, so that it is told from the words of a schema by its
first character. -/
theorem head?_path_of_compile (h : compile c record = .ok ls) (hl : l ∈ ls) :
    l.path.toList.head? = some '$' := by
  obtain ⟨chains, -, hdesc⟩ := exists_chains_of_leavesWithin (leaves_eq_of_compile_eq_ok h)
  obtain ⟨chain, -, hchain⟩ := exists_of_mem_left hdesc.flip hl
  rw [hchain.path_eq, String.toList_append]
  rfl

/-! ### Options -/

/-- The type and the options of a leaf are settled by a marked field, of a record type or of one
that is nested in it. -/
def IsSettled (c : Catalogue) (record : RecordType) (l : Leaf) : Prop :=
  ∃ inner, ReflTransGen (Nests c) record inner ∧ ∃ f ∈ inner.fields, ∃ m, f.indexing? = some m ∧
    l.type = fieldIndexType f ∧ leafOptions inner.name f.name m l.type = .ok l.options

/-- A leaf of a single field has the options of its index type and the alias of its path. -/
theorem eq_of_leafOf {field path : String} {type : IndexType} {whole : Bool}
    (h : leafOf owner field path m type whole = .ok (.leaf l)) :
    leafOptions owner field m l.type = .ok l.options ∧ l.queryAlias = aliasOfPath l.path := by
  rw [leafOf, bind_eq_ok_iff] at h
  obtain ⟨options, hoptions, h⟩ := h
  cases h
  exact ⟨hoptions, rfl⟩

/-- A field that is one leaf and holds no searchable records has made that leaf. -/
theorem exists_leafOf_of_nodeOf (hi : inner? c f = none)
    (h : nodeOf c nested owner f m = .ok (some (.leaf l))) :
    ∃ path type whole, leafOf owner f.name path m type whole = .ok (.leaf l) := by
  have hplain : ∀ r, recordType? c (holding f).shape = some r → r.isSearchable = false := by
    simpa [inner?, Option.filter_eq_none_iff] using hi
  unfold holding at hplain
  have hmade : ∀ {path : String} {type : IndexType} {whole : Bool},
      (do return some (← leafOf owner f.name path m type whole)) = Except.ok (some (.leaf l)) →
      ∃ path type whole, leafOf owner f.name path m type whole = .ok (.leaf l) := by
    intro path type whole h
    rw [bind_eq_ok_iff] at h
    obtain ⟨node, hnode, h⟩ := h
    cases h
    exact ⟨path, type, whole, hnode⟩
  simp only [nodeOf, bind_eq_ok_iff] at h
  obtain ⟨stated, -, h⟩ := h
  generalize Holding.ofShape f.shape.unwrap = held at hplain h
  split at h
  · next r _ hr =>
    rw [hplain r hr, if_neg (by simp)] at h
    exact hmade h
  · cases h
  · next r _ hr =>
    rw [hplain r hr, if_neg (by simp)] at h
    cases h
  · exact hmade h
  · exact hmade h

theorem leafOptions_of_nodeOf (hi : inner? c f = none)
    (h : nodeOf c nested owner f m = .ok (some (.leaf l))) :
    leafOptions owner f.name m l.type = .ok l.options := by
  obtain ⟨path, type, whole, hleaf⟩ := exists_leafOf_of_nodeOf hi h
  exact (eq_of_leafOf hleaf).1

/-- A leaf of a nested record type keeps its type and its options. -/
theorem IsSettled.liftLeaf (h : IsSettled c inner l) (hn : Nests c record inner) :
    IsSettled c record (liftLeaf f l) := by
  obtain ⟨last, hreach, hlast⟩ := h
  exact ⟨last, .head hn hreach, hlast⟩

theorem isSettled_of_fieldLeaves {part : List Leaf} (hf : f ∈ record.fields)
    (hnested : ∀ inner ls, nested inner = .ok ls → ∀ l ∈ ls, IsSettled c inner l)
    (h : fieldLeaves c nested record.name f = .ok part) (hl : l ∈ part) :
    IsSettled c record l := by
  cases hm : f.indexing? with
  | none =>
    rw [fieldLeaves, hm] at h
    cases h
    cases hl
  | some m =>
    -- a leaf of the field itself is settled by its marker, others are settled in the nested record
    -- type
    cases hi : inner? c f with
    | none =>
      simp only [fieldLeaves, hm, bind_eq_ok_iff] at h
      obtain ⟨node, hnode, h⟩ := h
      obtain ⟨-, l', rfl, -, -, htype, -⟩ | ⟨-, rfl⟩ := eq_leaf_or_eq_none_of_nodeOf hm hi hnode
      · cases h
        obtain rfl := List.mem_singleton.mp hl
        exact ⟨record, .refl, f, hf, m, hm, htype, leafOptions_of_nodeOf hi hnode⟩
      · cases h
        cases hl
    | some inner =>
      have hmarked : f.indexing?.isSome := by rw [hm]; rfl
      obtain ⟨ls, hls, rfl⟩ := exists_of_fieldLeaves_eq_ok hmarked hi h
      obtain ⟨l', hl', rfl⟩ := List.mem_map.mp hl
      exact (hnested inner ls hls l' hl').liftLeaf ⟨f, hf, hmarked, hi⟩

/-- Every leaf of a schema has options that some marked field settles, of the record type itself or
of one nested in it. -/
theorem isSettled_of_leavesWithin {bound : Nat} {enclosing : List String}
    (h : leavesWithin c bound enclosing record = .ok ls) (hl : l ∈ ls) : IsSettled c record l := by
  induction bound generalizing enclosing record ls l with
  | zero => cases h
  | succ bound ih =>
    rw [leavesWithin_succ, assembled, bind_eq_ok_iff] at h
    obtain ⟨parts, hparts, h⟩ := h
    cases h
    obtain ⟨part, hpart, hl⟩ := List.mem_flatten.mp hl
    obtain ⟨f, hf, hleaves⟩ := exists_of_mem_left (mapM_eq_ok_iff.mp hparts).flip hpart
    refine isSettled_of_fieldLeaves hf (fun inner ls hinner l hl => ?_) hleaves hl
    split at hinner
    · cases hinner
    · exact ih hinner hl

/-- No metric of a vector starts with the sign of the root, in a record type and in those that are
nested in it. -/
def HasPlainMetrics (c : Catalogue) (record : RecordType) : Prop :=
  ∀ inner, ReflTransGen (Nests c) record inner → ∀ f ∈ inner.fields, fieldIndexType f = .vector →
    ∀ stated sortable dimension metric,
      f.indexing? = some (.index stated sortable dimension metric) →
      metric.toList.head? ≠ some '$'

/-- The metric of a marker. -/
def metric? : Marker → Option String
  | .index _ _ _ metric => some metric
  | _ => none

/-- Metrics are plain where those of all markers of a catalogue are. -/
theorem hasPlainMetrics_of_markers {start : RecordType}
    (h : ∀ r ∈ c.types, ∀ f ∈ r.fields, ∀ m ∈ f.markers, ∀ metric ∈ metric? m,
      metric.toList.head? ≠ some '$')
    (hstart : start ∈ c.types) : HasPlainMetrics c start := by
  intro inner hinner f hf _ stated sortable dimension metric hindexing
  have hmarker := List.mem_of_find?_eq_some hindexing
  exact forall_of_nests h hstart hinner f hf _ hmarker metric rfl

theorem head?_wholeText_ne (n : Int) : (wholeText n).head? ≠ some '$' := by
  intro h
  rcases eq_minus_or_isDigit_of_mem_wholeText (List.mem_of_head? h) with heq | hdigit
  · exact absurd heq (by decide)
  · exact absurd hdigit (by decide)

/-- Of the words that options are made of, only the metric of a vector is free. -/
theorem head?_ne_of_leafOptions {field o : String} {type : IndexType} {options : List String}
    (h : leafOptions owner field m type = .ok options)
    (hmetric : type = .vector → ∀ stated sortable dimension metric,
      m = .index stated sortable dimension metric → metric.toList.head? ≠ some '$')
    (ho : o ∈ options) : o.toList.head? ≠ some '$' := by
  unfold leafOptions at h
  extract_lets sorting at h
  have hsorting : o ∈ sorting → o.toList.head? ≠ some '$' := by
    intro hmem
    unfold sorting at hmem
    split at hmem
    · obtain rfl := List.mem_singleton.mp hmem
      decide
    · cases hmem
  split at h
  · next stated sortable dimension metric =>
    cases h
    rcases List.mem_append.mp ho with ho | ho
    · simp only [List.mem_cons, List.not_mem_nil, or_false] at ho
      -- the words for vectors are fixed, but for the dimension and the metric
      rcases ho with rfl | rfl | rfl | rfl | rfl | rfl | rfl | rfl
      any_goals decide
      · rw [Dimension.text, String.toList_ofList]
        exact head?_wholeText_ne dimension.count
      · rw [String.toList_ofList]
        exact mt Text.head?_eq_dollar_of_upper (hmetric rfl _ _ _ _ rfl)
    · exact hsorting ho
  · cases h
  · rw [← Except.ok.inj h] at ho
    exact hsorting ho

/-- **Options and paths.** Where metrics are plain, no option of a leaf is taken for a path. -/
theorem head?_ne_of_mem_options {o : String} (plain : HasPlainMetrics c record)
    (h : compile c record = .ok ls) (hl : l ∈ ls) (ho : o ∈ l.options) :
    o.toList.head? ≠ some '$' := by
  obtain ⟨inner, hreach, f, hf, m, hm, htype, hoptions⟩ :=
    isSettled_of_leavesWithin (leaves_eq_of_compile_eq_ok h) hl
  refine head?_ne_of_leafOptions hoptions
    (fun hvector stated sortable dimension metric heq => ?_) ho
  exact plain inner hreach f hf (htype ▸ hvector) stated sortable dimension metric (heq ▸ hm)

/-! ### Aliases -/

/-- Where no clash of aliases is reported, all aliases are different. -/
theorem nodup_of_firstClash? {before : List Leaf} (h : firstClash? before ls = none) :
    (∀ b ∈ before, ∀ l ∈ ls, b.queryAlias ≠ l.queryAlias) ∧ (ls.map Leaf.queryAlias).Nodup := by
  induction ls generalizing before with
  | nil => exact ⟨fun _ _ => nofun, .nil⟩
  | cons l ls ih =>
    rw [firstClash?] at h
    split at h
    · cases h
    · next hnone =>
      have hfirst : ∀ b ∈ before, b.queryAlias ≠ l.queryAlias := by
        simpa using hnone
      obtain ⟨hothers, hnodup⟩ := ih h
      refine ⟨fun b hb l' hl' => ?_, ?_⟩
      · rcases List.mem_cons.mp hl' with rfl | hl'
        · exact hfirst b hb
        · exact hothers b (List.mem_append_left _ hb) l' hl'
      · rw [List.map_cons, List.nodup_cons]
        refine ⟨fun hmem => ?_, hnodup⟩
        obtain ⟨l', hl', heq⟩ := List.mem_map.mp hmem
        exact hothers l (List.mem_append_right _ (List.mem_singleton_self l)) l' hl' heq.symm

/-- Different aliases are not reported to clash. -/
theorem firstClash?_eq_none {before : List Leaf}
    (hbefore : ∀ b ∈ before, ∀ l ∈ ls, b.queryAlias ≠ l.queryAlias)
    (hnodup : (ls.map Leaf.queryAlias).Nodup) : firstClash? before ls = none := by
  induction ls generalizing before with
  | nil => rfl
  | cons l ls ih =>
    rw [List.map_cons, List.nodup_cons] at hnodup
    have hfirst : before.find? (fun b => b.queryAlias = l.queryAlias) = none := by
      simpa using fun b hb => hbefore b hb l List.mem_cons_self
    rw [firstClash?, hfirst]
    refine ih (fun b hb l' hl' => ?_) hnodup.2
    rcases List.mem_append.mp hb with hb | hb
    · exact hbefore b hb l' (List.mem_cons_of_mem _ hl')
    · obtain rfl := List.mem_singleton.mp hb
      exact fun heq => hnodup.1 (List.mem_map.mpr ⟨l', hl', heq.symm⟩)

/-- Leaves with different aliases are the schema of their record type. -/
theorem compile_eq_ok_of_nodup (h : leaves c record = .ok ls)
    (hnodup : (ls.map Leaf.queryAlias).Nodup) : compile c record = .ok ls := by
  have hclash : firstClash? [] ls = none := firstClash?_eq_none (by simp) hnodup
  rw [compile, bind_eq_ok_iff]
  exact ⟨ls, h, by rw [hclash]; rfl⟩

/-- **Aliases.** The leaves of a schema have different aliases. -/
theorem nodup_aliases_of_compile (h : compile c record = .ok ls) :
    (ls.map Leaf.queryAlias).Nodup := by
  rw [compile, bind_eq_ok_iff] at h
  obtain ⟨all, -, h⟩ := h
  split at h
  · cases h
  · next hnone =>
    cases h
    exact (nodup_of_firstClash? hnone).2

end IndexedRecords.Schema
