import IndexedRecords.Proofs.Schema.Nesting
import Mathlib.Data.List.Chain
import Mathlib.Data.List.Perm.Subperm
import Mathlib.Logic.Relation

/-!
# Cycles of nested record types

Record types may refer to each other in any way, so compiling one of them could go on forever. The
record types on the way to the one being compiled form a **stack**: each is nested in the one before
it, and no two are the same. A stack fits into the finite catalogue, which is why compilation ends
(`unfolds_leavesWithin`); and a type that is refused as cyclic closes the stack to a walk that comes
back (`isCycleReport_of_leavesWithin`). Conversely a schema cannot be compiled where a nested type
leads back to itself, since all the types on the way are different (`not_mem_of_leavesWithin`).
-/

namespace IndexedRecords.Schema

open Relation Traversal

variable {c : Catalogue} {start record inner : RecordType} {stack : List RecordType}

/-- The compilation of a record type inside of given enclosing types as a finite tree of calls,
whatever their number: a nested type that is among the enclosing ones is refused, and any other is
compiled with one enclosing type more. -/
inductive Unfolds (c : Catalogue) : (enclosing : List String) → RecordType →
    Except SchemaFault (List Leaf) → Prop where
  | intro {enclosing : List String} {record : RecordType} {result : Except SchemaFault (List Leaf)}
      (nested : RecordType → Except SchemaFault (List Leaf))
      (again : ∀ inner, Nests c record inner → inner.name ∈ enclosing →
        nested inner = .error (.cyclic (enclosing ++ [inner.name])))
      (fresh : ∀ inner, Nests c record inner → inner.name ∉ enclosing →
        Unfolds c (enclosing ++ [inner.name]) inner (nested inner))
      (result_eq : result = assembled c nested record) : Unfolds c enclosing record result

/-- The tree of calls determines the result. -/
theorem Unfolds.unique {enclosing : List String} {r r' : Except SchemaFault (List Leaf)}
    (h : Unfolds c enclosing record r) (h' : Unfolds c enclosing record r') : r = r' := by
  induction h generalizing r' with
  | @intro enclosing record _ nested again _ result_eq ih =>
    obtain ⟨nested', again', fresh', result_eq'⟩ := h'
    rw [result_eq, result_eq']
    refine assembled_congr fun inner hn => ?_
    by_cases hmem : inner.name ∈ enclosing
    · rw [again inner hn hmem, again' inner hn hmem]
    · exact ih inner hn hmem (fresh' inner hn hmem)

/-- A chain of names that leads from a record type through types nested in each other, all of them
different, and back to one of them. -/
def IsCycleReport (c : Catalogue) (start : RecordType) (chain : List String) : Prop :=
  ∃ types last, chain = (types ++ [last]).map RecordType.name ∧ types.head? = some start ∧
    (types ++ [last]).IsChain (Nests c) ∧ (types.map RecordType.name).Nodup ∧ last ∈ types

/-- A record type leads to one that is nested in itself, directly or through others. -/
def ReachesCycle (c : Catalogue) (start : RecordType) : Prop :=
  ∃ record, ReflTransGen (Nests c) start record ∧ TransGen (Nests c) record record

/-- What is reported leads to a cycle: the record types of a report nest one in the other, and the
last one stands among those before it. -/
theorem IsCycleReport.reachesCycle {chain : List String} (h : IsCycleReport c start chain) :
    ReachesCycle c start := by
  obtain ⟨types, last, -, hhead, hchain, -, hlast⟩ := h
  obtain ⟨before, after, rfl⟩ := List.append_of_mem hlast
  have hpairs := (hchain.imp fun _ _ => TransGen.single).pairwise
  simp only [List.append_assoc, List.cons_append, List.pairwise_append, List.pairwise_cons]
    at hpairs
  -- from its first occurrence on, the chain walks from the last type back to it
  refine ⟨last, ?_, hpairs.2.1.1 last (by simp)⟩
  cases before with
  | nil =>
    obtain rfl : last = start := by simpa using hhead
    exact .refl
  | cons first before =>
    obtain rfl : first = start := by simpa using hhead
    exact (hpairs.2.2 first (by simp) last (by simp)).to_reflTransGen

/-! ### Stacks -/

/-- The record types around the one being compiled, from the outermost one to that one itself. -/
structure IsStack (c : Catalogue) (start : RecordType) (stack : List RecordType)
    (record : RecordType) : Prop where
  head : stack.head? = some start
  last : stack.getLast? = some record
  linked : stack.IsChain (Nests c)
  distinct : (stack.map RecordType.name).Nodup
  found : ∀ r ∈ stack, c.find? r.name = some r

namespace IsStack

theorem singleton (h : c.find? start.name = some start) : IsStack c start [start] start where
  head := rfl
  last := rfl
  linked := .singleton start
  distinct := by simp
  found := by simpa using h

theorem linked_append (h : IsStack c start stack record) (hn : Nests c record inner) :
    (stack ++ [inner]).IsChain (Nests c) := by
  refine h.linked.append (.singleton inner) fun r hr r' hr' => ?_
  obtain rfl : record = r := by simpa [h.last] using hr
  obtain rfl : inner = r' := by simpa using hr'
  exact hn

/-- A record type can be put onto a stack if it is nested in the last one there and is not on the
stack itself. -/
theorem push (h : IsStack c start stack record) (hn : Nests c record inner)
    (hfresh : inner.name ∉ stack.map RecordType.name) :
    IsStack c start (stack ++ [inner]) inner where
  head := by rw [List.head?_append, h.head]; rfl
  last := by simp
  linked := h.linked_append hn
  distinct := by
    rw [List.map_append, List.nodup_append]
    refine ⟨h.distinct, by simp, fun a ha b hb => ?_⟩
    obtain rfl : b = inner.name := by simpa using hb
    exact fun hab => hfresh (hab ▸ ha)
  found := by
    intro r hr
    rcases List.mem_append.mp hr with hr | hr
    · exact h.found r hr
    · obtain rfl : r = inner := by simpa using hr
      exact hn.find?

/-- A stack is no longer than the catalogue. -/
theorem length_le (h : IsStack c start stack record) : stack.length ≤ c.types.length := by
  have hsub : stack.map RecordType.name ⊆ c.types.map RecordType.name := by
    intro name hname
    obtain ⟨r, hr, rfl⟩ := List.mem_map.mp hname
    exact List.mem_map_of_mem (List.mem_of_find?_eq_some (h.found r hr))
  simpa using (List.subperm_of_subset h.distinct hsub).length_le

/-- A bound with room for the rest of the catalogue keeps it when one more type is on the stack. -/
theorem lt_add_length_append {bound : Nat} (h : c.types.length < bound + 1 + stack.length) :
    c.types.length < bound + (stack ++ [inner]).length := by
  rw [List.length_append, List.length_singleton]
  omega

/-- A nested type whose name is on the stack is on the stack itself. -/
theorem mem_of_name_mem (h : IsStack c start stack record) (hn : Nests c record inner)
    (hmem : inner.name ∈ stack.map RecordType.name) : inner ∈ stack := by
  obtain ⟨r, hr, hname⟩ := List.mem_map.mp hmem
  have hfound := h.found r hr
  rw [hname, hn.find?] at hfound
  exact Option.some.inj hfound ▸ hr

end IsStack

/-! ### Compilation ends -/

/-- With a bound that leaves room for the rest of the catalogue, the bound is never met. -/
theorem unfolds_leavesWithin {bound : Nat} (h : IsStack c start stack record)
    (hbound : c.types.length < bound + stack.length) :
    Unfolds c (stack.map RecordType.name) record
      (leavesWithin c bound (stack.map RecordType.name) record) := by
  induction bound generalizing stack record with
  | zero =>
    -- the stack would be longer than the catalogue
    have := h.length_le
    omega
  | succ bound ih =>
    refine .intro _ (fun inner hn hmem => ?_) (fun inner hn hfresh => ?_)
      (leavesWithin_succ bound _)
    · simp only [List.contains_iff_mem, hmem, if_true]
    · have hpush := ih (h.push hn hfresh) (IsStack.lt_add_length_append hbound)
      simpa only [List.contains_iff_mem, hfresh, if_false, List.map_append, List.map_cons,
        List.map_nil] using hpush

/-! ### What a refusal says -/

/-- A cycle that is reported is one of record types on the stack, in the order in which they nest.
The bound covers all record types, so that it is never what ends the search. -/
theorem isCycleReport_of_leavesWithin {bound : Nat} {chain : List String}
    (h : IsStack c start stack record) (hbound : c.types.length < bound + stack.length)
    (hcyclic : leavesWithin c bound (stack.map RecordType.name) record = .error (.cyclic chain)) :
    IsCycleReport c start chain := by
  induction bound generalizing stack record with
  | zero =>
    have := h.length_le
    omega
  | succ bound ih =>
    rw [leavesWithin_succ] at hcyclic
    obtain ⟨inner, hn, hinner⟩ := exists_of_assembled_eq_cyclic hcyclic
    by_cases hmem : inner.name ∈ stack.map RecordType.name
    -- the refused type itself, or one that is refused further inside
    · rw [if_pos (by simpa using hmem)] at hinner
      cases hinner
      exact ⟨stack, inner, by simp, h.head, h.linked_append hn, h.distinct,
        h.mem_of_name_mem hn hmem⟩
    · rw [if_neg (by simpa using hmem)] at hinner
      exact ih (h.push hn hmem) (IsStack.lt_add_length_append hbound) (by simpa using hinner)

/-! ### What a schema excludes -/

/-- A record type with leaves has no record types on the stack nested in it, and each one that is
nested in it has leaves above a longer stack. -/
theorem exists_leavesWithin_of_nests {bound : Nat} {enclosing : List String} {ls : List Leaf}
    (h : leavesWithin c bound enclosing record = .ok ls) (hn : Nests c record inner) :
    inner.name ∉ enclosing ∧ ∃ bound' ls',
      leavesWithin c bound' (enclosing ++ [inner.name]) inner = .ok ls' := by
  cases bound with
  | zero => cases h
  | succ bound =>
    rw [leavesWithin_succ] at h
    obtain ⟨ls', hinner⟩ := exists_of_assembled_eq_ok h hn
    by_cases hmem : inner.name ∈ enclosing
    · rw [if_pos (by simpa using hmem)] at hinner
      cases hinner
    · rw [if_neg (by simpa using hmem)] at hinner
      exact ⟨hmem, bound, ls', hinner⟩

/-- Where a record type has leaves, no type that it leads to is among the enclosing ones. -/
theorem not_mem_of_leavesWithin {bound : Nat} {enclosing : List String} {ls : List Leaf}
    (h : leavesWithin c bound enclosing record = .ok ls)
    (hreach : TransGen (Nests c) record inner) : inner.name ∉ enclosing := by
  induction hreach using TransGen.head_induction_on generalizing bound enclosing ls with
  | single hn => exact (exists_leavesWithin_of_nests h hn).1
  | head hn _ ih =>
    obtain ⟨_, bound', ls', h'⟩ := exists_leavesWithin_of_nests h hn
    exact fun hmem => ih h' (List.mem_append_left _ hmem)

/-- A record type with leaves leads to no cycle. -/
theorem not_reachesCycle_of_leavesWithin {bound : Nat} {enclosing : List String} {ls : List Leaf}
    (h : leavesWithin c bound enclosing start = .ok ls) (hstart : start.name ∈ enclosing) :
    ¬ ReachesCycle c start := by
  rintro ⟨record, hreach, hcycle⟩
  induction hreach using ReflTransGen.head_induction_on generalizing bound enclosing ls with
  | refl => exact not_mem_of_leavesWithin h hcycle hstart
  | head hn _ ih =>
    obtain ⟨_, bound', ls', h'⟩ := exists_leavesWithin_of_nests h hn
    exact ih h' (by simp)

/-! ### Schemas of whole record types -/

/-- **Cycles of record types.** Compiling a record type of a catalogue ends, with the result that
the tree of its calls determines. It fails if the type leads to one that is nested in itself;
otherwise it never fails because of a cycle. A chain that it reports leads from the type through
different types, each nested in the one before, back to one of them. -/
theorem compile_detects_cycles (h : c.find? start.name = some start) :
    (∀ result, Unfolds c [start.name] start result ↔ result = leaves c start) ∧
    (ReachesCycle c start → ∃ fault, compile c start = .error fault) ∧
    (¬ ReachesCycle c start → ∀ chain, compile c start ≠ .error (.cyclic chain)) ∧
    (∀ chain, compile c start = .error (.cyclic chain) → IsCycleReport c start chain) := by
  have hstack := IsStack.singleton h
  have hbound : c.types.length < c.types.length + 1 + [start].length := by
    rw [List.length_singleton]
    omega
  have hunfolds : Unfolds c [start.name] start (leaves c start) :=
    unfolds_leavesWithin hstack hbound
  have hreport : ∀ chain, compile c start = .error (.cyclic chain) → IsCycleReport c start chain :=
    fun chain hchain =>
      isCycleReport_of_leavesWithin hstack hbound (compile_eq_cyclic_iff.mp hchain)
  refine ⟨fun result => ⟨fun hresult => hresult.unique hunfolds, fun hresult => hresult ▸ hunfolds⟩,
    fun hcycle => ?_, fun hnone chain hchain => hnone (hreport chain hchain).reachesCycle, hreport⟩
  cases hcompile : compile c start with
  | error fault => exact ⟨fault, rfl⟩
  | ok ls =>
    have hleaves := leaves_eq_of_compile_eq_ok hcompile
    exact absurd hcycle (not_reachesCycle_of_leavesWithin hleaves (by simp))

/-- Folders that hold notes, which may name the folder that they belong to. -/
def folders : Catalogue :=
  (Catalogue.bases.declare
    ⟨"Folder", "JsonModel", none, none,
      [indexedField "notes" (.generic .list false [.record "Note"])]⟩).declare
    ⟨"Note", "EmbeddedJsonModel", none, none,
      [indexedField "folder" (.optional (.record "Folder"))]⟩

theorem compile_detects_cycles_folders :
    ∃ folder, folders.find? "Folder" = some folder ∧ folder.name = "Folder" ∧
      ReachesCycle folders folder ∧ ∃ fault, compile folders folder = .error fault := by
  have hfolder : folders.find? "Folder" = some folders.types[3] := rfl
  have hnote : Nests folders folders.types[3] folders.types[4] :=
    ⟨indexedField "notes" (.generic .list false [.record "Note"]), .tail _ (.head _), rfl, rfl⟩
  have hback : Nests folders folders.types[4] folders.types[3] :=
    ⟨indexedField "folder" (.optional (.record "Folder")), .head _, rfl, rfl⟩
  have hcycle : ReachesCycle folders folders.types[3] := ⟨_, .refl, .tail (.single hnote) hback⟩
  exact ⟨_, hfolder, rfl, hcycle, (compile_detects_cycles hfolder).2.1 hcycle⟩

end IndexedRecords.Schema
