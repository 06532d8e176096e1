import IndexedRecords.Proofs.Text.Names
import Mathlib.Data.List.Forall2

/-!
# Readings of queries

The text of a query combines atoms: an alias with tags in braces, or with a range in brackets. The
grammar (`Reads`) has two forms of negation and leaves the parentheses around single tags optional.
Still no text can be read in two ways, since every form shows where it ends: a reader that never
goes back follows each reading (`readTerm_of_reads`).

## Main statements

* `Reads.unique`: a text has at most one reading.
-/

namespace IndexedRecords.Search

open Text

/-! ### The grammar -/

/-- A condition on one alias, as the text of a query shows it. -/
inductive Atom where
  | tag (name content : List Char)
  | range (name low high : List Char)
  deriving DecidableEq, Repr

/-- What the text of a query says about its atoms. -/
inductive Reading where
  | atom (a : Atom)
  | both (l r : Reading)
  | any (rs : List Reading)
  | negation (r : Reading)

/-- Whether a text can stand between braces: a backslash takes the next character with it, and no
other brace occurs. -/
def isTagContent : List Char → Bool
  | [] => true
  | '\\' :: _ :: rest => isTagContent rest
  | c :: rest => c ≠ '\\' && c ≠ '\x7b' && c ≠ '\x7d' && isTagContent rest

/-- Whether a character can stand in a bound of a range. -/
def isBoundChar (c : Char) : Bool := c ≠ ' ' && c ≠ ']'

namespace Atom

/-- The text of an atom. -/
def text : Atom → List Char
  | .tag name content => '@' :: name ++ ':' :: '\x7b' :: content ++ ['\x7d']
  | .range name low high => '@' :: name ++ ':' :: '[' :: low ++ ' ' :: high ++ [']']

/-- Whether the parts of an atom are what their places ask for. -/
def isProper : Atom → Bool
  | .tag name content => name ≠ [] && name.all isNameChar && isTagContent content
  | .range name low high =>
    name ≠ [] && name.all isNameChar && low ≠ [] && low.all isBoundChar && high ≠ [] &&
      high.all isBoundChar

end Atom

/-- A text has a reading. -/
inductive Reads : Reading → List Char → Prop where
  | atom {a : Atom} (proper : a.isProper) : Reads (.atom a) a.text
  | enclosed {name content : List Char} (proper : (Atom.tag name content).isProper) :
      Reads (.atom (.tag name content)) ('(' :: (Atom.tag name content).text ++ [')'])
  | both {l r : Reading} {s t : List Char} (left : Reads l s) (right : Reads r t) :
      Reads (.both l r) ('(' :: s ++ ' ' :: t ++ [')'])
  | any {rs : List Reading} {ss : List (List Char)} (several : 2 ≤ rs.length)
      (length : rs.length = ss.length) (each : ∀ p ∈ rs.zip ss, Reads p.1 p.2) :
      Reads (.any rs) ('(' :: [' ', '|', ' '].intercalate ss ++ [')'])
  | negation {r : Reading} {s : List Char} (inner : Reads r s) : Reads (.negation r) ('-' :: s)
  | enclosedNegation {r : Reading} {s : List Char} (inner : Reads r s) :
      Reads (.negation r) ('(' :: '-' :: s ++ [')'])

/-! ### Following a reading -/

/-- Reads tags up to the closing brace. -/
def readContent : List Char → Option (List Char × List Char)
  | [] => none
  | '\\' :: c :: rest => (readContent rest).map fun (cs, after) => ('\\' :: c :: cs, after)
  | c :: rest =>
    if c = '\x7d' then some ([], rest)
    else (readContent rest).map fun (cs, after) => (c :: cs, after)

/-- Reads an atom after its first character. -/
def readAtom (cs : List Char) : Option (Reading × List Char) :=
  let name := cs.takeWhile isNameChar
  match cs.dropWhile isNameChar with
  | ':' :: '\x7b' :: rest =>
    (readContent rest).map fun (content, after) => (.atom (.tag name content), after)
  | ':' :: '[' :: rest =>
    let low := rest.takeWhile isBoundChar
    match rest.dropWhile isBoundChar with
    | ' ' :: rest =>
      match rest.dropWhile isBoundChar with
      | ']' :: after => some (.atom (.range name low (rest.takeWhile isBoundChar)), after)
      | _ => none
    | _ => none
  | _ => none

mutual

/-- Reads a part of a query, and returns the text after it. What stands alone in parentheses counts
as itself. The bound counts steps; the length of the text is enough. -/
def readTerm : (bound : Nat) → List Char → Option (Reading × List Char)
  | 0, _ => none
  | _ + 1, '@' :: cs => readAtom cs
  | bound + 1, '-' :: cs => (readTerm bound cs).map fun (r, after) => (.negation r, after)
  | bound + 1, '(' :: cs =>
    match readTerm bound cs with
    | some (r, ')' :: after) => some (r, after)
    | some (r, ' ' :: '|' :: ' ' :: rest) =>
      (readOthers bound rest).map fun (rs, after) => (.any (r :: rs), after)
    | some (l, ' ' :: rest) =>
      match readTerm bound rest with
      | some (r, ')' :: after) => some (.both l r, after)
      | _ => none
    | _ => none
  | _, _ => none

/-- Reads the alternatives after the first bar, up to the end of the parenthesis. -/
def readOthers : (bound : Nat) → List Char → Option (List Reading × List Char)
  | 0, _ => none
  | bound + 1, cs =>
    match readTerm bound cs with
    | some (r, ')' :: after) => some ([r], after)
    | some (r, ' ' :: '|' :: ' ' :: rest) =>
      (readOthers bound rest).map fun (rs, after) => (r :: rs, after)
    | _ => none

end

/-- The content of a tag is read up to the first brace that is not escaped, which is the closing
one. -/
theorem readContent_append {content : List Char} (h : isTagContent content = true)
    (rest : List Char) : readContent (content ++ '\x7d' :: rest) = some (content, rest) := by
  induction content using isTagContent.induct with
  | case1 => rfl
  -- a backslash and what it takes with it, a closing brace as well
  | case2 c cs ih =>
    rw [isTagContent] at h
    rw [List.cons_append, List.cons_append, readContent, ih h]
    rfl
  | case3 c cs hne ih =>
    rw [isTagContent] at h
    · simp only [ne_eq, decide_not, Bool.and_eq_true, Bool.not_eq_eq_eq_not, Bool.not_true,
        decide_eq_false_iff_not] at h
      obtain ⟨⟨⟨hslash, _⟩, hbrace⟩, hcs⟩ := h
      rw [List.cons_append, readContent, if_neg hbrace, ih hcs]
      · rfl
      · exact fun _ _ heq _ => hslash heq
    · exact hne

/-- Where a bound ends. -/
theorem not_isBoundChar_head {c : Char} (hc : isBoundChar c = false) (rest : List Char) :
    ∀ d ∈ (c :: rest).head?, isBoundChar d = false := by
  intro d hd
  obtain rfl := Option.some.inj hd
  exact hc

/-- The text of a proper atom is read back as that atom, whatever follows it. -/
theorem readAtom_text {a : Atom} (h : a.isProper = true) (rest : List Char) :
    ∃ cs, a.text ++ rest = '@' :: cs ∧ readAtom cs = some (.atom a, rest) := by
  have hcolon : ∀ rest : List Char, ∀ d ∈ (':' :: rest).head?, isNameChar d = false := by
    intro rest d hd
    obtain rfl := Option.some.inj hd
    rfl
  cases a with
  | tag name content =>
    simp only [Atom.isProper, Bool.and_eq_true] at h
    obtain ⟨⟨_, hname⟩, hcontent⟩ := h
    refine ⟨name ++ ':' :: '\x7b' :: (content ++ '\x7d' :: rest), by simp [Atom.text], ?_⟩
    obtain ⟨htake, hdrop⟩ := takeWhile_dropWhile_append (List.all_eq_true.mp hname)
      (hcolon ('\x7b' :: (content ++ '\x7d' :: rest)))
    rw [readAtom, htake, hdrop]
    simp only [readContent_append hcontent, Option.map_some]
  -- a name ends at the colon, a lower bound at the space and an upper bound at the bracket
  | range name low high =>
    simp only [Atom.isProper, Bool.and_eq_true] at h
    obtain ⟨⟨⟨⟨⟨_, hname⟩, _⟩, hlow⟩, _⟩, hhigh⟩ := h
    refine ⟨name ++ ':' :: '[' :: (low ++ ' ' :: (high ++ ']' :: rest)), by simp [Atom.text], ?_⟩
    obtain ⟨htake, hdrop⟩ := takeWhile_dropWhile_append (List.all_eq_true.mp hname)
      (hcolon ('[' :: (low ++ ' ' :: (high ++ ']' :: rest))))
    obtain ⟨htakeLow, hdropLow⟩ := takeWhile_dropWhile_append (List.all_eq_true.mp hlow)
      (not_isBoundChar_head (show isBoundChar ' ' = false by decide) (high ++ ']' :: rest))
    obtain ⟨htakeHigh, hdropHigh⟩ := takeWhile_dropWhile_append (List.all_eq_true.mp hhigh)
      (not_isBoundChar_head (show isBoundChar ']' = false by decide) rest)
    rw [readAtom, htake, hdrop]
    simp only [htakeLow, hdropLow, htakeHigh, hdropHigh]

/-! ### Parentheses -/

/-- Parentheses around a single term add nothing to its meaning. -/
theorem readTerm_closed {bound : Nat} {cs rest : List Char} {r : Reading}
    (h : readTerm bound cs = some (r, ')' :: rest)) :
    readTerm (bound + 1) ('(' :: cs) = some (r, rest) := by
  rw [readTerm, h]
  rfl

/-- A space between two terms in parentheses joins them, unless a bar comes after it. -/
theorem readTerm_both {bound : Nat} {cs rest after : List Char} {c : Char} {l r : Reading}
    (hl : readTerm bound cs = some (l, ' ' :: c :: rest)) (hc : c ≠ '|')
    (hr : readTerm bound (c :: rest) = some (r, ')' :: after)) :
    readTerm (bound + 1) ('(' :: cs) = some (.both l r, after) := by
  rw [readTerm, hl]
  -- only the third form fits: after the space stands no bar
  split
  · next heq => cases heq
  · next heq =>
    cases heq
    exact absurd rfl hc
  · next heq =>
    cases heq
    rw [hr]
    rfl
  · next hother => exact absurd rfl (hother _ _)

/-- Bars between terms in parentheses make a choice of them. -/
theorem readTerm_any {bound : Nat} {cs rest after : List Char} {r : Reading} {rs : List Reading}
    (h : readTerm bound cs = some (r, ' ' :: '|' :: ' ' :: rest))
    (hrs : readOthers bound rest = some (rs, after)) :
    readTerm (bound + 1) ('(' :: cs) = some (.any (r :: rs), after) := by
  rw [readTerm, h]
  simp only [hrs, Option.map_some]

/-- The last term of a choice stands before the closing parenthesis. -/
theorem readOthers_last {bound : Nat} {cs rest : List Char} {r : Reading}
    (h : readTerm bound cs = some (r, ')' :: rest)) :
    readOthers (bound + 1) cs = some ([r], rest) := by
  rw [readOthers, h]
  rfl

/-- After a term and a bar, the other terms of the choice follow. -/
theorem readOthers_cons {bound : Nat} {cs rest after : List Char} {r : Reading} {rs : List Reading}
    (h : readTerm bound cs = some (r, ' ' :: '|' :: ' ' :: rest))
    (hrs : readOthers bound rest = some (rs, after)) :
    readOthers (bound + 1) cs = some (r :: rs, after) := by
  rw [readOthers, h]
  simp only [hrs, Option.map_some]

/-! ### Every reading is followed -/

/-- A text is read as a term, whatever stands after it. -/
def ReadsAs (s : List Char) (r : Reading) : Prop :=
  ∀ bound rest, s.length ≤ bound → readTerm bound (s ++ rest) = some (r, rest)

/-- Alternatives are read one by one. -/
theorem readOthers_intercalate {rs : List Reading} {ss : List (List Char)} (hne : rs ≠ [])
    (hlength : rs.length = ss.length) (h : ∀ p ∈ rs.zip ss, ReadsAs p.2 p.1) {bound : Nat}
    (rest : List Char) (hbound : ([' ', '|', ' '].intercalate ss).length + 1 ≤ bound) :
    readOthers bound ([' ', '|', ' '].intercalate ss ++ ')' :: rest) = some (rs, rest) := by
  -- on the alternatives; the text that is left gets shorter as fast as the bound
  induction rs generalizing ss bound with
  | nil => exact absurd rfl hne
  | cons r rs ih =>
    obtain ⟨s, ss, rfl⟩ := List.exists_cons_of_length_eq_add_one hlength.symm
    obtain ⟨bound, rfl⟩ : ∃ n, bound = n + 1 := ⟨bound - 1, by omega⟩
    have hs : ReadsAs s r := h (r, s) List.mem_cons_self
    cases rs with
    | nil =>
      obtain rfl := List.length_eq_zero_iff.mp (Nat.succ.inj hlength.symm)
      rw [List.intercalate_singleton] at hbound ⊢
      exact readOthers_last (hs bound _ (by omega))
    | cons next rs =>
      have hss : ss ≠ [] := by
        rintro rfl
        cases hlength
      rw [List.intercalate_cons_of_ne_nil hss] at hbound ⊢
      simp only [List.length_append, List.length_cons, List.length_nil] at hbound
      have hothers : readOthers bound ([' ', '|', ' '].intercalate ss ++ ')' :: rest) =
          some (next :: rs, rest) :=
        ih (List.cons_ne_nil _ _) (Nat.succ.inj hlength)
          (fun p hp => h p (List.mem_cons_of_mem _ hp)) (by omega)
      have htext : s ++ [' ', '|', ' '] ++ [' ', '|', ' '].intercalate ss ++ ')' :: rest =
          s ++ ' ' :: '|' :: ' ' :: ([' ', '|', ' '].intercalate ss ++ ')' :: rest) := by simp
      rw [htext]
      exact readOthers_cons (hs bound _ (by omega)) hothers

/-- A reading starts with an atom, a minus or a parenthesis. -/
theorem exists_head_of_reads {r : Reading} {s : List Char} (h : Reads r s) :
    ∃ c cs, s = c :: cs ∧ c ≠ '|' := by
  cases h with
  | @atom a proper => cases a <;> exact ⟨_, _, rfl, by decide⟩
  | enclosed | both | any | negation | enclosedNegation => exact ⟨_, _, rfl, by decide⟩

/-- A proper atom is the text of its own reading. -/
theorem readsAs_atom {a : Atom} (proper : a.isProper = true) : ReadsAs a.text (.atom a) := by
  intro bound rest hbound
  obtain ⟨cs, hcs, hread⟩ := readAtom_text proper rest
  have hpos : 0 < a.text.length := by cases a <;> exact Nat.succ_pos _
  obtain ⟨bound, rfl⟩ : ∃ n, bound = n + 1 := ⟨bound - 1, by omega⟩
  rw [hcs, readTerm, hread]

/-- A minus before a text negates its reading. -/
theorem readsAs_negation {r : Reading} {s : List Char} (h : ReadsAs s r) :
    ReadsAs ('-' :: s) (.negation r) := by
  intro bound rest hbound
  rw [List.length_cons] at hbound
  obtain ⟨bound, rfl⟩ : ∃ n, bound = n + 1 := ⟨bound - 1, by omega⟩
  rw [List.cons_append, readTerm, h bound rest (by omega)]
  rfl

/-- What stands alone in parentheses is read as itself. -/
theorem readsAs_closed {r : Reading} {s : List Char} (h : ReadsAs s r) :
    ReadsAs ('(' :: s ++ [')']) r := by
  intro bound rest hbound
  simp only [List.cons_append, List.length_cons, List.length_append] at hbound
  obtain ⟨bound, rfl⟩ : ∃ n, bound = n + 1 := ⟨bound - 1, by omega⟩
  rw [List.cons_append, List.cons_append, List.append_assoc]
  exact readTerm_closed (h bound _ (by omega))

/-- Two texts with a space between them, in parentheses, are read as their conjunction. -/
theorem readsAs_both {l r : Reading} {s t : List Char} (hl : ReadsAs s l) (hr : ReadsAs t r)
    (ht : ∃ c cs, t = c :: cs ∧ c ≠ '|') : ReadsAs ('(' :: s ++ ' ' :: t ++ [')']) (.both l r) := by
  intro bound rest hbound
  simp only [List.cons_append, List.length_cons, List.length_append] at hbound
  obtain ⟨bound, rfl⟩ : ∃ n, bound = n + 1 := ⟨bound - 1, by omega⟩
  obtain ⟨c, cs, rfl, hc⟩ := ht
  have htext : '(' :: s ++ ' ' :: (c :: cs) ++ [')'] ++ rest =
      '(' :: (s ++ ' ' :: c :: (cs ++ ')' :: rest)) := by simp
  rw [htext]
  exact readTerm_both (hl bound _ (by omega)) hc (hr bound (')' :: rest) (by omega))

/-- Texts with bars between them, in parentheses, are read as a choice of their readings. There must
be two of them at least: parentheses around a single one leave no trace. -/
theorem readsAs_any {rs : List Reading} {ss : List (List Char)} (several : 2 ≤ rs.length)
    (hlength : rs.length = ss.length) (h : ∀ p ∈ rs.zip ss, ReadsAs p.2 p.1) :
    ReadsAs ('(' :: [' ', '|', ' '].intercalate ss ++ [')']) (.any rs) := by
  intro bound rest hbound
  -- a bar follows the first alternative, which tells the list from a conjunction
  match rs, ss, several, hlength with
  | r :: next :: rs, s :: t :: ss, _, hlength =>
    have hs : ReadsAs s r := h (r, s) List.mem_cons_self
    rw [List.intercalate_cons_cons] at hbound ⊢
    simp only [List.cons_append, List.length_cons, List.length_append, List.length_nil] at hbound
    obtain ⟨bound, rfl⟩ : ∃ n, bound = n + 1 := ⟨bound - 1, by omega⟩
    have htext : '(' :: (s ++ [' ', '|', ' '] ++ [' ', '|', ' '].intercalate (t :: ss)) ++ [')'] ++
          rest = '(' :: (s ++ ' ' :: '|' :: ' ' ::
            ([' ', '|', ' '].intercalate (t :: ss) ++ ')' :: rest)) := by simp
    rw [htext]
    exact readTerm_any (hs bound _ (by omega)) (readOthers_intercalate (List.cons_ne_nil _ _)
      (Nat.succ.inj hlength) (fun p hp => h p (List.mem_cons_of_mem _ hp)) rest (by omega))

/-- Every reading of a text is followed, whatever stands after the text. -/
theorem readsAs_of_reads {r : Reading} {s : List Char} (h : Reads r s) : ReadsAs s r := by
  induction h with
  | atom proper => exact readsAs_atom proper
  | enclosed proper => exact readsAs_closed (readsAs_atom proper)
  | both _ right ihl ihr => exact readsAs_both ihl ihr (exists_head_of_reads right)
  | any several length _ ih => exact readsAs_any several length ih
  | negation _ ih => exact readsAs_negation ih
  | enclosedNegation _ ih => exact readsAs_closed (readsAs_negation ih)

/-- **Unambiguous queries.** A text has at most one reading. -/
theorem Reads.unique {r r' : Reading} {s : List Char} (h : Reads r s) (h' : Reads r' s) :
    r = r' := by
  have hr := readsAs_of_reads h s.length [] (Nat.le_refl _)
  have hr' := readsAs_of_reads h' s.length [] (Nat.le_refl _)
  exact congrArg Prod.fst (Option.some.inj (hr.symm.trans hr'))

/-! ### Truth -/

namespace Reading

mutual

/-- Whether a reading holds where the atoms are true or false as given. -/
def holds (truth : Atom → Bool) : Reading → Bool
  | .atom a => truth a
  | .both l r => holds truth l && holds truth r
  | .any rs => someHolds truth rs
  | .negation r => !holds truth r

/-- Whether one of several readings holds. -/
def someHolds (truth : Atom → Bool) : List Reading → Bool
  | [] => false
  | r :: rs => holds truth r || someHolds truth rs

end

theorem someHolds_eq_any (truth : Atom → Bool) (rs : List Reading) :
    someHolds truth rs = rs.any (holds truth) := by
  induction rs with
  | nil => rfl
  | cons r rs ih => rw [someHolds, ih, List.any_cons]

end Reading

end IndexedRecords.Search
