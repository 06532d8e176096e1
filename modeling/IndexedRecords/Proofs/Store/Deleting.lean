import IndexedRecords.Proofs.Tables

/-!
# Deleting documents

Deleting documents one by one takes the documents of all the keys, and counts each of them once,
also where a key is given twice.
-/

namespace IndexedRecords.Store

variable {key : String} {documents : List (String × String)}

theorem nodup_insert (payload : String) (h : (documents.map Prod.fst).Nodup) :
    ((insert key payload documents).map Prod.fst).Nodup := by
  by_cases hkey : key ∈ documents.map Prod.fst
  · rwa [map_fst_insert_of_mem payload hkey]
  · rw [insert_of_notMem payload hkey, List.map_append, List.map_singleton]
    exact List.nodup_append_comm.mp (List.nodup_cons.mpr ⟨hkey, h⟩)

theorem nodup_filter (keep : String × String → Bool) (h : (documents.map Prod.fst).Nodup) :
    ((documents.filter keep).map Prod.fst).Nodup :=
  h.sublist (List.Sublist.map _ List.filter_sublist)

/-- The one document of a key is counted apart from those of further keys. -/
theorem countP_mem_cons {keys : List String} (hnodup : (documents.map Prod.fst).Nodup)
    (hkey : key ∈ documents.map Prod.fst) :
    documents.countP (fun e => e.1 ∈ key :: keys) =
      (erase key documents).countP (fun e => e.1 ∈ keys) + 1 := by
  obtain ⟨⟨key', payload⟩, hmem, rfl⟩ := List.mem_map.mp hkey
  dsimp only at hmem ⊢
  have hothers : (erase key' documents).countP (fun e => e.1 ∈ key' :: keys) =
      (erase key' documents).countP (fun e => e.1 ∈ keys) := by
    refine List.countP_congr fun e he => ?_
    have hne : e.1 ≠ key' := of_decide_eq_true (List.mem_filter.mp he).2
    simp [hne]
  have hone : (documents.filter fun e => !decide (e.1 ≠ key')) = [(key', payload)] := by
    rw [← filter_of_mem hnodup hmem]
    simp
  rw [List.countP_eq_countP_filter_add documents _ fun e => e.1 ≠ key', hone, ← hothers, erase]
  simp

theorem countP_mem_cons_of_notMem {keys : List String} (hkey : key ∉ documents.map Prod.fst) :
    documents.countP (fun e => e.1 ∈ key :: keys) = documents.countP (fun e => e.1 ∈ keys) := by
  refine List.countP_congr fun e he => ?_
  have hne : e.1 ≠ key := fun heq => hkey (heq ▸ List.mem_map_of_mem he)
  simp [hne]

/-- **Deleting.** The documents of the keys are taken, and they are counted. -/
theorem deleteDocuments_eq (s : Store) (count : Nat) (keys : List String)
    (hnodup : (s.documents.map Prod.fst).Nodup) :
    s.deleteDocuments count keys =
      (.ok (.int (count + s.documents.countP fun e => e.1 ∈ keys : Nat)),
        { s with documents := s.documents.filter fun e => e.1 ∉ keys }) := by
  induction keys generalizing s count with
  | nil => simp [deleteDocuments]
  | cons key keys ih =>
    rw [deleteDocuments, filter_notMem_cons]
    split
    · next hkey =>
      rw [ih _ _ (nodup_filter _ hnodup), countP_mem_cons hnodup (hasKey_iff.mp hkey),
        Nat.add_right_comm, Nat.add_assoc]
    · next hkey =>
      have hnotMem := mt hasKey_iff.mpr hkey
      rw [ih _ _ hnodup, countP_mem_cons_of_notMem hnotMem, erase_of_notMem hnotMem]

end IndexedRecords.Store
