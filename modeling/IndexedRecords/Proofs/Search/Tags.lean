import IndexedRecords.Proofs.Search.Escaping
import IndexedRecords.Proofs.Search.Rendering

/-!
# Tags read back

Several tags stand between the braces of one atom, with bars in between. A reader of that text takes
a backslash for the escape of the next character. The writer escapes all characters that have a
meaning there but the backslash itself, so that a backslash in a value is taken for an escape.
Nothing is lost where the next character of the value is escaped on its own account and means
nothing to the reader: of the two backslashes one is left (`isInert`). Everywhere else the values
that are read differ from those that were written.

## Main statements

* `readTags_tagContent_iff`: values are read back exactly if all their backslashes are inert.
* `Expression.readTags_render_iff`: the same for the texts of a membership and of an equality.
* `Expression.eq_of_render_eq`: memberships in different inert values differ in their texts.
-/

namespace IndexedRecords

namespace Search

/-! ### The reader -/

/-- Whether a character ends a value or the whole text between braces, or may not stand there. -/
def isTagMark (c : Char) : Bool := c = '\x7b' || c = '\x7d' || c = '|'

/-- Puts characters before the first of the values that were read. -/
def prepend (cs : List Char) (read : List (List Char) × List Char) :
    List (List Char) × List Char :=
  (read.1.modifyHead (cs ++ ·), read.2)

/-- Reads values up to the closing brace, and returns the text after it. A bar starts the next value
and a backslash takes the next character as it is; an opening brace may only stand after one. -/
def readTags : List Char → Option (List (List Char) × List Char)
  | [] => none
  | '\\' :: c :: rest => (readTags rest).map (prepend [c])
  | c :: rest =>
    if c = '\x7d' then some ([[]], rest)
    else if c = '|' then (readTags rest).map fun (vs, after) => ([] :: vs, after)
    else if c = '\x7b' || c = '\\' then none
    else (readTags rest).map (prepend [c])

/-- Whether every backslash of a value stands before a reserved character that is no mark. -/
def isInert : List Char → Bool
  | [] => true
  | '\\' :: cs => (cs.head?.any fun d => reservedInTags.contains d && !isTagMark d) && isInert cs
  | _ :: cs => isInert cs

/-- Several values as they stand between the braces of an atom. -/
def tagContent (vs : List (List Char)) : List Char := ['|'].intercalate (vs.map escapeTagChars)

variable {c d : Char} {cs v rest : List Char} {vs : List (List Char)}

/-- Putting nothing before what was read changes nothing. -/
theorem prepend_nil (read : List (List Char) × List Char) : prepend [] read = read := by
  obtain ⟨vs, rest⟩ := read
  cases vs <;> rfl

/-- Characters are put before what was read one by one, the last of them first. -/
theorem prepend_cons (c : Char) (cs : List Char) :
    prepend (c :: cs) = prepend [c] ∘ prepend cs := by
  funext read
  simp [prepend, Function.comp_def]

/-- A backslash takes the next character as part of the value, whatever it is. -/
theorem readTags_escaped (c : Char) (rest : List Char) :
    readTags ('\\' :: c :: rest) = (readTags rest).map (prepend [c]) :=
  rfl

/-- A closing brace ends the values. The last of them is empty unless something was read before. -/
theorem readTags_close (rest : List Char) : readTags ('\x7d' :: rest) = some ([[]], rest) := rfl

/-- A bar ends a value, and the next one follows. -/
theorem readTags_bar (rest : List Char) :
    readTags ('|' :: rest) = (readTags rest).map fun (vs, after) => ([] :: vs, after) :=
  rfl

/-- Any other character is part of the value. -/
theorem readTags_plain (hmark : isTagMark c = false) (hslash : c ≠ '\\') (rest : List Char) :
    readTags (c :: rest) = (readTags rest).map (prepend [c]) := by
  simp only [isTagMark, Bool.or_eq_false_iff, decide_eq_false_iff_not] at hmark
  rw [readTags]
  · simp [hmark, hslash]
  · intro _ _ heq
    exact absurd heq hslash

/-! ### What is written -/

/-- A backslash is inert if the character after it is escaped by the writer anyway and means nothing
to the reader. -/
theorem isInert_backslash_cons :
    isInert ('\\' :: d :: cs) = true ↔
      d ∈ reservedInTags ∧ isTagMark d = false ∧ isInert (d :: cs) = true := by
  simp [isInert, and_assoc]

/-- Only backslashes can fail to be inert. -/
theorem isInert_cons (hslash : c ≠ '\\') (cs : List Char) : isInert (c :: cs) = isInert cs := by
  rw [isInert]
  exact hslash

/-- What is not escaped by the writer is no mark to the reader. -/
theorem isTagMark_eq_false_of_notMem (h : c ∉ reservedInTags) : isTagMark c = false := by
  have hmarks : ∀ d ∈ ['\x7b', '\x7d', '|'], d ∈ reservedInTags := by
    simp only [List.forall_mem_cons]
    exact ⟨by decide, by decide, by decide, nofun⟩
  have hc : c ∉ ['\x7b', '\x7d', '|'] := mt (hmarks c) h
  simpa [isTagMark, and_assoc] using hc

/-- Any other character than a backslash is read as it was written. -/
theorem readTags_escapeTagChars_cons (hslash : c ≠ '\\') (cs rest : List Char) :
    readTags (escapeTagChars (c :: cs) ++ rest) =
      (readTags (escapeTagChars cs ++ rest)).map (prepend [c]) := by
  by_cases hreserved : c ∈ reservedInTags
  · rw [escapeTagChars_cons_of_mem hreserved]
    rfl
  · rw [escapeTagChars_cons_of_notMem hreserved, List.cons_append,
      readTags_plain (isTagMark_eq_false_of_notMem hreserved) hslash]

/-- A backslash before a reserved character that is no mark takes the place of its escape. -/
theorem readTags_backslash_cons (hreserved : d ∈ reservedInTags) (hmark : isTagMark d = false)
    (cs rest : List Char) :
    readTags (escapeTagChars ('\\' :: d :: cs) ++ rest) =
      (readTags (escapeTagChars (d :: cs) ++ rest)).map (prepend ['\\']) := by
  have hslash := ne_backslash_of_mem hreserved
  rw [readTags_escapeTagChars_cons hslash, escapeTagChars_backslash_cons,
    escapeTagChars_cons_of_mem hreserved, List.cons_append, List.cons_append, readTags_escaped,
    List.cons_append, readTags_plain hmark hslash]

/-- An inert value is read back, whatever follows it. -/
theorem readTags_of_isInert (h : isInert v) (rest : List Char) :
    readTags (escapeTagChars v ++ rest) = (readTags rest).map (prepend v) := by
  induction v with
  | nil =>
    have hnil : prepend [] = id := funext prepend_nil
    rw [hnil, Option.map_id]
    rfl
  | cons c cs ih =>
    by_cases hslash : c = '\\'
    · subst hslash
      cases cs with
      | nil => cases h
      | cons d ds =>
        obtain ⟨hreserved, hmark, hds⟩ := isInert_backslash_cons.mp h
        rw [readTags_backslash_cons hreserved hmark, ih hds, prepend_cons '\\' (d :: ds),
          Option.map_map]
    · rw [isInert_cons hslash] at h
      rw [readTags_escapeTagChars_cons hslash, ih h, prepend_cons c cs, Option.map_map]

/-! ### What is lost -/

/-- The first of the values that are read from a text. -/
def ReadsFirst (cs v : List Char) : Prop := ∃ vs after, readTags cs = some (v :: vs, after)

/-- A character that has been read is the first one of the first value. -/
theorem readsFirst_of_map (h : readTags cs = (readTags rest).map (prepend [c])) :
    ReadsFirst cs v ↔ ∃ w, v = c :: w ∧ ReadsFirst rest w := by
  constructor
  · rintro ⟨vs, after, hread⟩
    rw [h, Option.map_eq_some_iff] at hread
    obtain ⟨⟨ws, _⟩, hrest, heq⟩ := hread
    cases ws with
    | nil => cases heq
    | cons w ws =>
      cases heq
      exact ⟨w, rfl, _, _, hrest⟩
  · rintro ⟨w, rfl, vs, after, hrest⟩
    refine ⟨vs, after, ?_⟩
    rw [h, hrest]
    rfl

/-- A character after a backslash is the first one of the first value. -/
theorem readsFirst_escaped : ReadsFirst ('\\' :: c :: rest) v ↔
    ∃ w, v = c :: w ∧ ReadsFirst rest w :=
  readsFirst_of_map (readTags_escaped c rest)

/-- At a mark the first value ends, or nothing can be read. -/
theorem eq_nil_of_readsFirst_mark (hmark : isTagMark c = true) (h : ReadsFirst (c :: rest) v) :
    v = [] := by
  obtain ⟨vs, after, hread⟩ := h
  rw [isTagMark, Bool.or_eq_true, Bool.or_eq_true, decide_eq_true_iff, decide_eq_true_iff,
    decide_eq_true_iff] at hmark
  obtain (rfl | rfl) | rfl := hmark
  · cases hread
  · cases hread
    rfl
  · rw [readTags_bar, Option.map_eq_some_iff] at hread
    obtain ⟨_, _, heq⟩ := hread
    cases heq
    rfl

/-- A character that is no backslash is read back as the first one of the value, escaped or not. -/
theorem readsFirst_cons (hslash : c ≠ '\\') :
    ReadsFirst (escapeTagChars (c :: cs) ++ rest) v ↔
      ∃ w, v = c :: w ∧ ReadsFirst (escapeTagChars cs ++ rest) w :=
  readsFirst_of_map (readTags_escapeTagChars_cons hslash cs rest)

/-- A character without a meaning is the first one of the first value. -/
theorem readsFirst_plain (hmark : isTagMark c = false) (hslash : c ≠ '\\') :
    ReadsFirst (c :: rest) v ↔ ∃ w, v = c :: w ∧ ReadsFirst rest w :=
  readsFirst_of_map (readTags_plain hmark hslash rest)

/-- A backslash is read for one that was written only if what follows it is an escape, or a further
backslash. -/
theorem exists_of_readsFirst_backslash (hmark : isTagMark c = true)
    (h : ReadsFirst (escapeTagChars ('\\' :: cs) ++ c :: rest) ('\\' :: v)) :
    ∃ d ds, cs = d :: ds ∧
      (d = '\\' ∧ ReadsFirst (escapeTagChars ds ++ c :: rest) v ∨
        d ∈ reservedInTags ∧ ReadsFirst (d :: (escapeTagChars ds ++ c :: rest)) v) := by
  rw [escapeTagChars_backslash_cons] at h
  cases cs with
  -- the backslash takes the mark after the value
  | nil =>
    obtain ⟨w, heq, _⟩ := readsFirst_escaped.mp h
    cases heq
    cases hmark
  | cons d ds =>
    refine ⟨d, ds, rfl, ?_⟩
    by_cases hreserved : d ∈ reservedInTags
    · rw [escapeTagChars_cons_of_mem hreserved] at h
      obtain ⟨w, heq, hw⟩ := readsFirst_escaped.mp h
      cases heq
      exact .inr ⟨hreserved, hw⟩
    · rw [escapeTagChars_cons_of_notMem hreserved] at h
      obtain ⟨w, heq, hw⟩ := readsFirst_escaped.mp h
      cases heq
      exact .inl ⟨rfl, hw⟩

/-- Of backslashes that were written before a value one is missing at least. -/
theorem not_readsFirst_replicate (hmark : isTagMark c = true) (n : Nat) :
    ¬ ReadsFirst (escapeTagChars v ++ c :: rest) (List.replicate (n + 1) '\\' ++ v) := by
  -- two backslashes of the value are read as one, so the induction is on its length
  induction hlength : v.length using Nat.strongRecOn generalizing v n with
  | ind length ih =>
    intro h
    rw [List.replicate_succ, List.cons_append] at h
    cases v with
    | nil => cases eq_nil_of_readsFirst_mark hmark h
    | cons d ds =>
      by_cases hslash : d = '\\'
      · subst hslash
        have hshift (cs : List Char) : List.replicate n '\\' ++ '\\' :: cs =
            '\\' :: (List.replicate n '\\' ++ cs) := by
          rw [List.append_cons, ← List.replicate_succ', List.replicate_succ, List.cons_append]
        obtain ⟨e, es, rfl, ⟨rfl, hes⟩ | ⟨hreserved, hes⟩⟩ := exists_of_readsFirst_backslash hmark h
        · refine ih es.length (by simp only [← hlength, List.length_cons]; omega) (n + 1) rfl ?_
          rwa [hshift, hshift] at hes
        -- what is read starts with a reserved character, but ought to start with a backslash
        · rw [hshift] at hes
          cases he : isTagMark e with
          | true => cases eq_nil_of_readsFirst_mark he hes
          | false =>
            obtain ⟨w, heq, _⟩ := (readsFirst_plain he (ne_backslash_of_mem hreserved)).mp hes
            cases heq
            exact ne_backslash_of_mem hreserved rfl
      · obtain ⟨w, heq, _⟩ := (readsFirst_cons hslash).mp h
        cases heq
        exact hslash rfl

/-- A value that is read back is inert. -/
theorem isInert_of_readsFirst (hmark : isTagMark c = true)
    (h : ReadsFirst (escapeTagChars v ++ c :: rest) v) : isInert v := by
  induction v with
  | nil => rfl
  | cons d ds ih =>
    by_cases hslash : d = '\\'
    · subst hslash
      obtain ⟨e, es, rfl, ⟨rfl, hes⟩ | ⟨hreserved, hes⟩⟩ := exists_of_readsFirst_backslash hmark h
      · exact absurd hes (not_readsFirst_replicate hmark 0)
      · cases he : isTagMark e with
        | true => cases eq_nil_of_readsFirst_mark he hes
        | false =>
          obtain ⟨w, heq, hw⟩ :=
            (readsFirst_of_map (readTags_backslash_cons hreserved he es _)).mp h
          cases heq
          exact isInert_backslash_cons.mpr ⟨hreserved, he, ih hw⟩
    · obtain ⟨w, heq, hw⟩ := (readsFirst_cons hslash).mp h
      cases heq
      rw [isInert_cons hslash]
      exact ih hw

/-! ### Several values -/

/-- Between a value and the next one stands a bar. -/
theorem tagContent_cons_cons (v w : List Char) (vs : List (List Char)) :
    tagContent (v :: w :: vs) = escapeTagChars v ++ '|' :: tagContent (w :: vs) := by
  rw [tagContent, List.map_cons, List.map_cons, List.intercalate_cons_cons, List.append_assoc]
  rfl

/-- What follows a value between the braces: a bar with the next value, or the closing brace. -/
theorem exists_mark_of_tagContent (v : List Char) (vs : List (List Char)) (rest : List Char) :
    ∃ c cs, isTagMark c = true ∧
      tagContent (v :: vs) ++ '\x7d' :: rest = escapeTagChars v ++ c :: cs := by
  cases vs with
  | nil => exact ⟨'\x7d', rest, rfl, by simp [tagContent]⟩
  | cons w vs =>
    refine ⟨'|', tagContent (w :: vs) ++ '\x7d' :: rest, rfl, ?_⟩
    rw [tagContent_cons_cons, List.append_assoc, List.cons_append]

/-- Values whose backslashes are all inert are read back. There must be at least one, since nothing
between the braces is read as one empty value. -/
theorem readTags_tagContent_of_isInert (hne : vs ≠ []) (h : ∀ v ∈ vs, isInert v)
    (rest : List Char) : readTags (tagContent vs ++ '\x7d' :: rest) = some (vs, rest) := by
  induction vs with
  | nil => exact absurd rfl hne
  | cons v vs ih =>
    have hv := h v List.mem_cons_self
    cases vs with
    | nil =>
      rw [tagContent, List.map_singleton, List.intercalate_singleton, readTags_of_isInert hv,
        readTags_close]
      simp [prepend]
    | cons w vs =>
      have hvs := ih (List.cons_ne_nil _ _) fun u hu => h u (List.mem_cons_of_mem _ hu)
      rw [tagContent_cons_cons, List.append_assoc, List.cons_append, readTags_of_isInert hv,
        readTags_bar, hvs]
      simp [prepend]

/-- **Tags read back.** The values between the braces are read back, up to the closing one, exactly
if every backslash in them is inert. -/
theorem readTags_tagContent_iff (hne : vs ≠ []) (rest : List Char) :
    readTags (tagContent vs ++ '\x7d' :: rest) = some (vs, rest) ↔ ∀ v ∈ vs, isInert v := by
  refine ⟨fun hread => ?_, fun h => readTags_tagContent_of_isInert hne h rest⟩
  induction vs with
  | nil => exact nofun
  | cons v vs ih =>
    have hv : isInert v := by
      obtain ⟨c, cs, hmark, htext⟩ := exists_mark_of_tagContent v vs rest
      exact isInert_of_readsFirst hmark ⟨vs, rest, htext ▸ hread⟩
    refine List.forall_mem_cons.mpr ⟨hv, ?_⟩
    cases vs with
    | nil => exact nofun
    | cons w vs =>
      -- the first value is read back, and so is what follows the bar
      refine ih (List.cons_ne_nil _ _) ?_
      rw [tagContent_cons_cons, List.append_assoc, List.cons_append, readTags_of_isInert hv,
        readTags_bar, Option.map_map, Option.map_eq_some_iff] at hread
      obtain ⟨⟨ws, after⟩, hws, heq⟩ := hread
      rw [hws]
      simpa [prepend] using heq

end Search

namespace Expression

open Search Traversal

variable {c : Catalogue} {model : String} {ref : Reference} {l : Leaf} {v : String}
  {vs ws : List String}

/-! ### Rendered tests -/

/-- The atom that a tag leaf has one of several values. -/
def tagAtom (l : Leaf) (vs : List String) : Atom :=
  .tag l.queryAlias.toList (tagContent (vs.map String.toList))

/-- A text stands under a tag with its reserved characters escaped. -/
theorem queryLiteral_of_tag (htag : l.type = .tag) (v : String) :
    (Value.text v).queryLiteral l.type l.queryAlias = .ok (escapeTag v) := by
  rw [htag]
  rfl

/-- The text of a membership among tags is an atom. -/
theorem render_oneOf_of_tag (hleads : ref.LeadsTo c model l) (htag : l.type = .tag)
    (hne : vs ≠ []) :
    ((Expression.oneOf ref (.list (vs.map .text))).build c >>= Predicate.render c) =
      .ok (String.ofList (tagAtom l vs).text) := by
  obtain ⟨path, hpath, _, hl⟩ := hleads
  have hbuild : (Expression.oneOf ref (.list (vs.map .text))).build c =
      .ok (.test path (.oneOf (vs.map .text))) := by
    rw [build, hpath]
    have hitems : (Value.list (vs.map .text)).items? = some (vs.map .text) := rfl
    exact Predicate.isOneOf_of_items hitems (mt List.map_eq_nil_iff.mp hne)
  have hliterals : ((vs.map Value.text).mapM fun v => v.queryLiteral l.type l.queryAlias) =
      .ok (vs.map escapeTag) := by
    rw [List.mapM_map]
    exact mapM_eq_ok_map fun v _ => queryLiteral_of_tag htag v
  rw [hbuild]
  change (path.resolve c >>= fun l => (FieldTest.oneOf (vs.map .text)).clause l) = _
  rw [hl]
  change FieldTest.oneOfClause l (vs.map .text) = _
  rw [FieldTest.oneOfClause, if_pos htag, hliterals]
  exact congrArg Except.ok (String.toList_injective (by
    simp [tagAtom, tagContent, Atom.text, escapeTag, Function.comp_def]))

/-- The text of an equality with a tag is an atom in parentheses. -/
theorem render_equal_of_tag (hleads : ref.LeadsTo c model l) (htag : l.type = .tag) (v : String) :
    ((Expression.compare .equal ref (.text v)).build c >>= Predicate.render c) =
      .ok (String.ofList ('(' :: (tagAtom l [v]).text ++ [')'])) := by
  obtain ⟨path, hpath, _, hl⟩ := hleads
  have hbuild : (Expression.compare .equal ref (.text v)).build c =
      .ok (.test path (.compare .equal (.text v))) := by
    rw [build, hpath]
    rfl
  rw [hbuild]
  change (path.resolve c >>= fun l => (FieldTest.compare .equal (.text v)).clause l) = _
  rw [hl]
  change FieldTest.equalClause l (.text v) = _
  rw [FieldTest.equalClause, queryLiteral_of_tag htag]
  simp only [htag]
  exact congrArg Except.ok (String.toList_injective (by
    simp [tagAtom, tagContent, Atom.text, escapeTag]))

/-- The values of an atom are read back exactly if all their backslashes are inert. -/
theorem readTags_tagAtom_iff (hne : vs ≠ []) :
    readTags (tagContent (vs.map String.toList) ++ ['\x7d']) = some (vs.map String.toList, []) ↔
      ∀ v ∈ vs, isInert v.toList := by
  rw [readTags_tagContent_iff (mt List.map_eq_nil_iff.mp hne)]
  exact List.forall_mem_map

/-- Inert values can be told from the atom that they are in. -/
theorem eq_of_tagAtom_eq (hvs : vs ≠ []) (hws : ws ≠ []) (hinertv : ∀ v ∈ vs, isInert v.toList)
    (hinertw : ∀ w ∈ ws, isInert w.toList) (h : (tagAtom l vs).text = (tagAtom l ws).text) :
    vs = ws := by
  have hcontent : tagContent (vs.map String.toList) = tagContent (ws.map String.toList) := by
    simpa [tagAtom, Atom.text] using h
  have hread := (readTags_tagAtom_iff hvs).mpr hinertv
  rw [hcontent, (readTags_tagAtom_iff hws).mpr hinertw] at hread
  have hmap : ws.map String.toList = vs.map String.toList := by simpa using hread
  exact (List.map_injective_iff.mpr (fun _ _ => String.toList_injective) hmap).symm

/-- **Tags in queries.** A membership among tags, and an equality with one, is rendered as an atom
with values between braces. They are read back exactly if every backslash in them stands before a
reserved character that is no mark, and such values differ where their texts do. -/
theorem readTags_render_iff (hleads : ref.LeadsTo c model l) (htag : l.type = .tag)
    (hne : vs ≠ []) :
    (∃ text content,
      ((Expression.oneOf ref (.list (vs.map .text))).build c >>= Predicate.render c) = .ok text ∧
      text.toList = (Atom.tag l.queryAlias.toList content).text ∧
      (readTags (content ++ ['\x7d']) = some (vs.map String.toList, []) ↔
        ∀ v ∈ vs, isInert v.toList)) ∧
    (∀ v, ∃ text content,
      ((Expression.compare .equal ref (.text v)).build c >>= Predicate.render c) = .ok text ∧
      text.toList = '(' :: (Atom.tag l.queryAlias.toList content).text ++ [')'] ∧
      (readTags (content ++ ['\x7d']) = some ([v.toList], []) ↔ isInert v.toList)) ∧
    ∀ ws, ws ≠ [] → (∀ v ∈ vs, isInert v.toList) → (∀ w ∈ ws, isInert w.toList) →
      ((Expression.oneOf ref (.list (vs.map .text))).build c >>= Predicate.render c) =
        ((Expression.oneOf ref (.list (ws.map .text))).build c >>= Predicate.render c) →
      vs = ws := by
  refine ⟨⟨_, tagContent (vs.map String.toList), render_oneOf_of_tag hleads htag hne, ?_,
    readTags_tagAtom_iff hne⟩, fun v => ⟨_, tagContent [v.toList],
    render_equal_of_tag hleads htag v, ?_, ?_⟩, fun ws hws hinertv hinertw heq => ?_⟩
  · rw [String.toList_ofList, tagAtom]
  · rw [String.toList_ofList, tagAtom, List.map_singleton]
  · rw [readTags_tagContent_iff (List.cons_ne_nil _ _), List.forall_mem_singleton]
  · rw [render_oneOf_of_tag hleads htag hne, render_oneOf_of_tag hleads htag hws] at heq
    exact eq_of_tagAtom_eq hne hws hinertv hinertw
      (String.ofList_injective (Except.ok.inj heq))

theorem readTags_render_iff_genres :
    ∃ text content,
      ((Expression.oneOf ⟨"Book", [.dot "genre"]⟩ (.list [.text "sci-fi", .text "a\\-b"])).build
        books >>= Predicate.render books) = .ok text ∧
      text.toList = (Atom.tag "genre".toList content).text ∧
      readTags (content ++ ['\x7d']) = some (["sci-fi".toList, "a\\-b".toList], []) := by
  have hne : ["sci-fi", "a\\-b"] ≠ [] := List.cons_ne_nil _ _
  obtain ⟨text, content, htext, hatom, hread⟩ := (readTags_render_iff leadsTo_genre rfl hne).1
  exact ⟨text, content, htext, hatom, hread.mpr (by decide)⟩

/-- A backslash at the end of a value hides the bar before the next one: two values are rendered as
a single other one is. -/
theorem render_conflates_tags :
    ["a\\", "b"] ≠ ["a|b"] ∧
      ((Expression.oneOf ⟨"Book", [.dot "genre"]⟩ (.list [.text "a\\", .text "b"])).build books >>=
        Predicate.render books) = .ok "@genre:\x7ba\\|b\x7d" ∧
      ((Expression.oneOf ⟨"Book", [.dot "genre"]⟩ (.list [.text "a|b"])).build books >>=
        Predicate.render books) = .ok "@genre:\x7ba\\|b\x7d" := by
  decide +kernel

end Expression

end IndexedRecords
