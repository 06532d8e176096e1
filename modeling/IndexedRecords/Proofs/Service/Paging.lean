import IndexedRecords.Proofs.Number.Numeral
import IndexedRecords.Proofs.Service.Running
import IndexedRecords.Proofs.Store.Shelves
import IndexedRecords.Proofs.Text.Glob
import IndexedRecords.Service.Registry

/-!
# Listing identifiers page by page

The keys of a type are asked for page by page, by the pattern of its prefix. However many keys a
page may have, all pages together hold each key that the pattern matches once, in order. If the
prefix has no wildcard, then these are the keys under the prefix, so that the identifiers on its
shelf are listed.

## Main statements

* `answer_scan`: the page of a store from a position on.
* `exists_scanFrom`: the pages from a position on, after which a listing ends by itself.
* `acts_listIds`: listing identifiers answers with those on the shelf, and changes nothing.
-/

namespace IndexedRecords

/-- A prefix that separates keys from those of other prefixes, and stands for itself in a
pattern. -/
def IsPlainPrefix (keyPrefix : String) : Prop :=
  ∀ ch ∈ keyPrefix.toList, ch ≠ ':' ∧ Glob.IsPlain ch

instance : DecidablePred IsPlainPrefix := fun p =>
  List.decidableBAll (fun ch => ch ≠ ':' ∧ Glob.IsPlain ch) p.toList

theorem IsPlainPrefix.colon_notMem {p : String} (h : IsPlainPrefix p) : ':' ∉ p.toList :=
  fun hmem => (h ':' hmem).1 rfl

theorem IsPlainPrefix.hasWildcard_eq_false {p : String} (h : IsPlainPrefix p) :
    Glob.hasWildcard p.toList = false :=
  Glob.hasWildcard_eq_false_of_isPlain fun ch hch => (h ch hch).2

/-! ### Pages -/

namespace Store

theorem slice_eq {α : Type} (items : List α) (start count : Nat) :
    slice items start (start + count) = (items.drop start).take count := by
  have hposition (n : Nat) : position items.length n = min items.length n := by
    rw [position, if_neg (by omega), Int.toNat_natCast]
  have hstop := hposition (start + count)
  rw [Nat.cast_add] at hstop
  rw [slice, hposition, hstop]
  obtain hle | hlt := Nat.le_total start items.length
  · rw [Nat.min_eq_right hle]
    refine List.take_eq_take_iff.mpr ?_
    rw [List.length_drop]
    omega
  · rw [Nat.min_eq_left hlt, List.drop_length, List.drop_eq_nil_of_le hlt, List.take_nil,
      List.take_nil]

/-- The keys that match the pattern of a prefix. -/
def matched (p : String) (documents : List (String × String)) : List String :=
  (documents.map Prod.fst).filter fun key =>
    Glob.matchesAll (Glob.parse (p.toList ++ [':', '*'])) key.toList

/-- The keys that match the pattern of a prefix without wildcards are those of the identifiers on
its shelf. -/
theorem matched_eq {p : String} (hp : Glob.hasWildcard p.toList = false)
    (documents : List (String × String)) :
    matched p documents = (shelfOf p documents).map fun e => keyOf p e.1 := by
  have hstart : Glob.MatchesStart p.toList := (Glob.matchesStart_iff _).mpr hp
  rw [← filter_keys, matched]
  refine List.filter_congr fun key _ => ?_
  rw [hstart, isSome_idUnder?]

/-- The position after a page of a given number of items, or zero where there are no more. -/
def nextStart (start count length : Nat) : Nat :=
  if start + count < length then start + count else 0

/-- A page of the keys that match the pattern of a prefix, after the position of the next page. -/
theorem answer_scan (p : String) (s : Store) (start count : Nat) :
    s.answer [.text "SCAN", .int start, .text "MATCH", .text (p ++ ":" ++ "*"), .text "COUNT",
        .int count] =
      match shownInt (nextStart start count (matched p s.documents).length : Nat) with
      | .ok next =>
        (.ok (.list [.text next, .list ((((matched p s.documents).drop start).take count).map
          .text)]), s)
      | .error fault => (.error (.value fault), s) := by
  have hpattern : (p ++ ":" ++ "*").toList = p.toList ++ [':', '*'] := by
    rw [String.toList_append, String.toList_append, List.append_assoc]
    rfl
  have hnext : (if (start : Int) + count < (matched p s.documents).length then
      (start : Int) + count else 0) =
      (nextStart start count (matched p s.documents).length : Nat) := by
    rw [nextStart]
    split <;> split <;> omega
  cases hshown : shownInt (nextStart start count (matched p s.documents).length : Nat) <;>
    rw [Store.answer, scan, hpattern, ← matched, hnext, slice_eq, hshown]

end Store

namespace Service

variable {p : String} {w : World} {s : Store}

/-! ### Reading pages -/

theorem lift_value_ok_bind {α β : Type} (a : α) (f : α → Service β) :
    ((liftM (Except.ok a : Except ValueFault α) : Service α) >>= f) = f a := rfl

/-- The first page starts at a position that can be told. -/
theorem zero_lt_longest : 0 < 10 ^ Numeral.digitLimit := Nat.pow_pos (by decide)

theorem shownInt_natCast (n : Nat) : shownInt n =
    if n < 10 ^ Numeral.digitLimit then .ok (String.ofList (Nat.toDigits 10 n))
    else .error (.tooManyDigits none) := by
  have htext : wholeText n = Nat.toDigits 10 n := by
    rw [wholeText, if_neg (by omega), Int.natAbs_natCast, List.nil_append]
  have hiff : (Nat.toDigits 10 n).length ≤ Numeral.digitLimit ↔ n < 10 ^ Numeral.digitLimit :=
    Nat.length_toDigits_le_iff (by decide) (by decide)
  rw [shownInt, htext, Int.natAbs_natCast]
  by_cases hshort : n < 10 ^ Numeral.digitLimit
  · rw [if_pos hshort, if_neg (Nat.not_lt.mpr (hiff.mpr hshort))]
  · rw [if_neg hshort, if_pos (Nat.not_le.mp (mt hiff.mp hshort))]

theorem toInt_text (text : String) :
    (Value.text text).toInt = Value.intOfText (Value.quotedText text).toList text.toList := rfl

/-- The position and the keys of a page are read as they are. -/
theorem readPage_eq {next : Nat} (short : next < 10 ^ Numeral.digitLimit) (keys : List Value) :
    readPage (.list [.text (String.ofList (Nat.toDigits 10 next)), .list keys]) =
      .ok (next, keys) := by
  have hlength : (Nat.toDigits 10 next).length ≤ Numeral.digitLimit :=
    (Nat.length_toDigits_le_iff (by decide) (by decide)).mpr short
  have hcursor : (Value.text (String.ofList (Nat.toDigits 10 next))).toInt = .ok next := by
    rw [toInt_text, Value.intOfText, String.toList_ofList, Numeral.readInt_toDigits hlength]
  generalize String.ofList (Nat.toDigits 10 next) = cursor at hcursor
  have hpair : (Value.list [.text cursor, .list keys]).pair = .ok (.text cursor, .list keys) := rfl
  have hshown : (Value.text cursor).asText = .ok cursor := rfl
  simp only [readPage, hpair, hshown, hcursor, bind, Except.bind, pure, Except.pure]
  cases keys <;> rfl

/-- Identifiers that are new and different are added in order. -/
theorem addIds_eq {found ids : List String} (h : (found ++ ids).Nodup) :
    addIds (p ++ ":") found (ids.map fun id => .text (keyOf p id)) = .ok (found ++ ids) := by
  induction ids generalizing found with
  | nil => rw [List.append_nil]; rfl
  | cons id ids ih =>
    have hstrip : String.ofList (Text.stripLead (p ++ ":").toList (keyOf p id).toList) = id := by
      have hlong : (p ++ ":").toList = p.toList ++ [':'] := String.toList_append
      have hlead := List.isPrefixOf?_eq_some_iff_append_eq.mpr (toList_keyOf p id).symm
      rw [hlong, Text.stripLead, hlead, Option.getD_some, String.ofList_toList]
    have hnew : id ∉ found := fun hmem =>
      (List.nodup_append.mp h).2.2 id hmem id List.mem_cons_self rfl
    rw [List.append_cons] at h ⊢
    rw [List.map_cons, addIds]
    change addIds (p ++ ":") (if found.contains (String.ofList (Text.stripLead (p ++ ":").toList
      (keyOf p id).toList)) then _ else _) _ = _
    rw [hstrip, if_neg (by simpa using hnew), ih h]

/-! ### All pages -/

/-- What listing the identifiers on a shelf answers. The position of each page but the first one is
told as a text, which it does not have if it has too many digits. -/
def listed (batch : Nat) (ids : List String) : Except Fault (List String) :=
  if ∃ start < ids.length, batch ∣ start ∧ 10 ^ Numeral.digitLimit ≤ start then
    .error (.value (.tooManyDigits none))
  else .ok ids

theorem listed_of_length_le {ids : List String} (h : ids.length ≤ 10 ^ Numeral.digitLimit)
    (batch : Nat) : listed batch ids = .ok ids :=
  if_neg fun ⟨_, hlt, _, hle⟩ => absurd (Nat.lt_of_lt_of_le hlt h) (Nat.not_lt.mpr hle)

/-- A page adds its identifiers to those found before, and what follows depends on the cursor of the
next page. -/
theorem scanFrom_succ {lead : String} {cursor count next : Int} {bound : Nat} {reply : Value}
    {keys : List Value} {found found' : List String} {w' : World}
    (hpage : execute [.text "SCAN", .int cursor, .text "MATCH", .text (lead ++ "*"), .text "COUNT",
        .int count] w = (.ok reply, w'))
    (hread : readPage reply = .ok (next, keys)) (hadd : addIds lead found keys = .ok found') :
    scanFrom lead count (bound + 1) cursor found w =
      (if next = 0 then pure found' else scanFrom lead count bound next found') w' := by
  rw [scanFrom, bind_run hpage, hread, lift_value_ok_bind]
  dsimp only
  rw [hadd, lift_value_ok_bind]

/-- Listing is stuck where a page starts at a position that has no text. -/
theorem listed_of_long {batch start : Nat} {ids : List String} (hlt : start < ids.length)
    (hdvd : batch ∣ start) (long : ¬ start < 10 ^ Numeral.digitLimit) :
    listed batch ids = .error (.value (.tooManyDigits none)) :=
  if_pos ⟨start, hlt, hdvd, Nat.not_lt.mp long⟩

/-- Listing succeeds if the last page starts at a position that has a text. -/
theorem listed_of_last {batch start : Nat} {ids : List String} (hdvd : batch ∣ start)
    (short : start < 10 ^ Numeral.digitLimit) (hlast : ids.length ≤ start + batch) :
    listed batch ids = .ok ids := by
  refine if_neg fun ⟨later, hlt, hdvd', hlong⟩ => ?_
  have hafter : batch ≤ later - start := Nat.le_of_dvd (by omega) (Nat.dvd_sub hdvd' hdvd)
  omega

/-- The page after the identifiers that have been found. -/
theorem answer_scan_rest (hp : Glob.hasWildcard p.toList = false) {batch : Nat}
    {found rest : List String}
    (hids : (shelfOf p s.documents).map Prod.fst = found ++ rest) {next : Nat}
    (hnext : Store.nextStart found.length batch (found.length + rest.length) = next) :
    s.answer [.text "SCAN", .int found.length, .text "MATCH", .text (p ++ ":" ++ "*"),
        .text "COUNT", .int batch] =
      if next < 10 ^ Numeral.digitLimit then
        (.ok (.list [.text (String.ofList (Nat.toDigits 10 next)),
          .list ((rest.take batch).map fun id => .text (keyOf p id))]), s)
      else (.error (.value (.tooManyDigits none)), s) := by
  have hmatched : Store.matched p s.documents = (found ++ rest).map (keyOf p) := by
    rw [Store.matched_eq hp, ← hids, List.map_map]
    rfl
  have hlength : (Store.matched p s.documents).length = found.length + rest.length := by
    rw [hmatched, List.length_map, List.length_append]
  have hpage : (((Store.matched p s.documents).drop found.length).take batch).map Value.text =
      (rest.take batch).map fun id => .text (keyOf p id) := by
    rw [hmatched, ← List.map_drop, List.drop_left, ← List.map_take, List.map_map]
    rfl
  rw [Store.answer_scan, hlength, hnext, hpage, shownInt_natCast]
  by_cases hshort : next < 10 ^ Numeral.digitLimit
  · rw [if_pos hshort, if_pos hshort]
  · rw [if_neg hshort, if_neg hshort]

/-- The pages from a position on add the rest of the identifiers on the shelf. The listing ends by
itself: it comes to the same, whatever the bound on its pages is. -/
theorem exists_scanFrom (hp : Glob.hasWildcard p.toList = false) (h : Serves w s)
    (hnodup : (s.documents.map Prod.fst).Nodup) {batch : Nat} (positive : 0 < batch)
    {found rest : List String} (hids : (shelfOf p s.documents).map Prod.fst = found ++ rest)
    (hstart : batch ∣ found.length) (short : found.length < 10 ^ Numeral.digitLimit) :
    ∃ w', (∀ bound, rest.length < bound → scanFrom (p ++ ":") batch bound found.length found w =
      (listed batch (found ++ rest), w')) ∧ Serves w' s ∧ w'.ids = w.ids := by
  induction hn : rest.length using Nat.strong_induction_on generalizing w found rest with
  | _ n ih =>
    subst hn
    have hnew : (found ++ rest.take batch).Nodup := by
      have hshelf := hids ▸ nodup_shelfOf p hnodup
      exact hshelf.sublist (List.Sublist.append_left (List.take_sublist _ _) _)
    have hadd := addIds_eq (p := p) hnew
    have hafter : batch ∣ found.length + batch :=
      (Nat.dvd_add_right hstart).mpr (Nat.dvd_refl batch)
    by_cases hmore : found.length + batch < found.length + rest.length
    · have hscan := answer_scan_rest hp hids (if_pos hmore)
      by_cases hshort : found.length + batch < 10 ^ Numeral.digitLimit
      -- the next page starts after this one
      · rw [if_pos hshort] at hscan
        obtain ⟨w₁, hpage, hserves, hids₁⟩ := Acts.execute h hscan
        have hfound : (found ++ rest.take batch).length = found.length + batch := by
          rw [List.length_append, List.length_take_of_le (by omega)]
        have hsplit : found ++ rest.take batch ++ rest.drop batch = found ++ rest := by
          rw [List.append_assoc, List.take_append_drop]
        have hless : (rest.drop batch).length < rest.length := by
          rw [List.length_drop]
          omega
        obtain ⟨w₂, hrest, hserves₂, hids₂⟩ := ih _ hless hserves (hids.trans hsplit.symm)
          (hfound ▸ hafter) (hfound ▸ hshort) rfl
        refine ⟨w₂, fun bound hbound => ?_, hserves₂, hids₂.trans hids₁⟩
        obtain ⟨bound, rfl⟩ := Nat.exists_eq_add_of_lt (Nat.zero_lt_of_lt hbound)
        have hnext := hrest bound (by omega)
        rw [hfound, hsplit] at hnext
        rw [Nat.zero_add, scanFrom_succ hpage (readPage_eq hshort _) hadd, if_neg (by omega)]
        exact hnext
      -- the start of the next page cannot be told
      · rw [if_neg hshort] at hscan
        obtain ⟨w₁, hpage, hserves, hids₁⟩ := Acts.execute h hscan
        refine ⟨w₁, fun bound hbound => ?_, hserves, hids₁⟩
        obtain ⟨bound, rfl⟩ := Nat.exists_eq_add_of_lt (Nat.zero_lt_of_lt hbound)
        rw [scanFrom, listed_of_long (by rwa [List.length_append]) hafter hshort]
        exact bind_run_error hpage
    -- this is the last page
    · have hscan := answer_scan_rest hp hids (if_neg hmore)
      rw [if_pos zero_lt_longest] at hscan
      obtain ⟨w₁, hpage, hserves, hids₁⟩ := Acts.execute h hscan
      refine ⟨w₁, fun bound hbound => ?_, hserves, hids₁⟩
      obtain ⟨bound, rfl⟩ := Nat.exists_eq_add_of_lt (Nat.zero_lt_of_lt hbound)
      rw [Nat.zero_add, scanFrom_succ hpage (readPage_eq zero_lt_longest _) hadd,
        listed_of_last hstart short (by rw [List.length_append]; omega),
        List.take_of_length_le (by omega)]
      rfl

section

variable {type : RecordType} {home : Home} (persisted : type.lineage = .persisted)
  (hhome : type.home = some home)

include persisted hhome

/-- Listing the identifiers of a type is reading pages from the start on. -/
theorem listIds_eq_scanFrom {batch : Int} (hbatch : batch ≠ 0)
    (environment : List (String × String)) (w : World) :
    listIds environment type (some batch) w =
      scanFrom (home.keyPrefix ++ ":") batch w.endpoint.pageLimit 0 [] w := by
  have hpages : allIds type batch w =
      scanFrom (home.keyPrefix ++ ":") batch w.endpoint.pageLimit 0 [] w := by
    rw [allIds, homeOf_eq hhome]
    rfl
  rw [listIds, requirePersisted_eq persisted, lift_ok_bind]
  dsimp only
  rw [if_pos hbatch]
  exact hpages

/-- In a store there are not more pages than documents, and one at the end. -/
theorem listIds_eq (h : Serves w s) {batch : Nat} (positive : 0 < batch)
    (environment : List (String × String)) :
    listIds environment type (some batch) w =
      scanFrom (home.keyPrefix ++ ":") batch (s.documents.length + 1) 0 [] w := by
  rw [listIds_eq_scanFrom persisted hhome (by omega), h.store]
  rfl

/-- **Listing.** All identifiers on the shelf of a type are listed in order, whatever number of keys
is asked for at once, and nothing changes. -/
theorem acts_listIds (hp : Glob.hasWildcard home.keyPrefix.toList = false) (h : Serves w s)
    (hnodup : (s.documents.map Prod.fst).Nodup) {batch : Nat} (positive : 0 < batch)
    (environment : List (String × String)) :
    Acts (listIds environment type (some batch)) w s
      (listed batch ((shelfOf home.keyPrefix s.documents).map Prod.fst)) s.documents w.ids := by
  obtain ⟨w', hpages, hserves, hids⟩ := exists_scanFrom hp h hnodup positive
    (List.nil_append _).symm (Nat.dvd_zero batch) zero_lt_longest
  refine ⟨w', ?_, hserves, hids⟩
  rw [listIds_eq persisted hhome h positive]
  refine hpages _ ?_
  rw [List.length_map]
  exact Nat.lt_succ_of_le (length_shelfOf_le _ _)

end

end Service

end IndexedRecords
