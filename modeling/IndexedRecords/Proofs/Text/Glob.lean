import IndexedRecords.Text.Glob
import Mathlib.Data.List.TakeWhile

/-!
# Patterns of a start

The keys of a type are asked for by the pattern of its prefix, a colon and a star. The characters of
the prefix are not escaped. They stand for themselves where none of them is a wildcard; then the
pattern matches exactly the texts that start with the prefix and the colon. With a wildcard it never
does.

## Main statements

* `parse_star`, `parse_question`, `parse_bracket`, `parse_literal`: how a pattern is read, one step
  at a time.
* `exists_short_match`: a pattern that matches a text matches a short one.
* `matchesStart_iff`: when the pattern of a prefix matches the texts that start with it.
-/

namespace IndexedRecords.Glob

variable {c : Char} {lead rest pattern inside after more cs : List Char} {atoms : List Atom}

/-- A character that stands for itself in a pattern, wherever it stands outside of brackets. -/
def IsPlain (c : Char) : Prop := c ≠ '*' ∧ c ≠ '?' ∧ c ≠ '['

instance : DecidablePred IsPlain := fun _ => inferInstanceAs (Decidable (_ ∧ _))

/-- Whether a text has a character that stands for others in a pattern: a star, a question mark, or
a bracket that is closed. -/
def hasWildcard : List Char → Bool
  | [] => false
  | c :: rest => c == '*' || c == '?' || (c == '[' && (bracket? rest).isSome) || hasWildcard rest

/-- There is no wildcard among plain characters. The converse fails: a bracket that is never closed
is no wildcard either. -/
theorem hasWildcard_eq_false_of_isPlain (h : ∀ c ∈ lead, IsPlain c) : hasWildcard lead = false := by
  induction lead with
  | nil => rfl
  | cons c lead ih =>
    obtain ⟨⟨hstar, hquestion, hbracket⟩, hlead⟩ := List.forall_mem_cons.mp h
    rw [hasWildcard, ih hlead, beq_false_of_ne hstar, beq_false_of_ne hquestion,
      beq_false_of_ne hbracket]
    rfl

/-! ### Brackets -/

/-- A character at the start of a text, and what comes after it. -/
def cutHead (c : Char) : List Char → List Char × List Char
  | [] => ([], [])
  | d :: rest => if d = c then ([c], rest) else ([], d :: rest)

/-- Cutting a character off the start of a text does not see what is put behind it, unless that
could be cut off itself. -/
theorem cutHead_append (hmore : more.head? ≠ some c) (cs : List Char) :
    cutHead c (cs ++ more) = ((cutHead c cs).1, (cutHead c cs).2 ++ more) := by
  cases cs with
  | nil =>
    cases more with
    | nil => rfl
    | cons d more => exact if_neg fun heq => hmore (congrArg some heq)
  | cons d cs =>
    rw [List.cons_append, cutHead, cutHead]
    split <;> rfl

/-- What is left is the end of the text. -/
theorem cutHead_suffix (c : Char) (cs : List Char) : (cutHead c cs).2 <:+ cs := by
  cases cs with
  | nil => exact List.suffix_refl _
  | cons d cs =>
    rw [cutHead]
    split
    · exact List.suffix_cons _ _
    · exact List.suffix_refl _

theorem cutHead_self (c : Char) (cs : List Char) : cutHead c (c :: cs) = ([c], cs) := if_pos rfl

/-- Nothing is cut off a text that starts otherwise. -/
theorem cutHead_of_ne (h : ∀ rest, cs = c :: rest → False) : cutHead c cs = ([], cs) := by
  cases cs with
  | nil => rfl
  | cons d cs =>
    refine if_neg fun heq => h cs ?_
    rw [heq]

/-- The characters of a bracket are cut after its sign, and after a closing bracket that comes
first. -/
theorem bracket?_eq (pattern : List Char) : bracket? pattern =
    ((cutHead ']' (cutHead '!' pattern).2).2.dropWhile (· != ']')).tail?.map fun rest =>
      ((cutHead '!' pattern).1 ++ (cutHead ']' (cutHead '!' pattern).2).1 ++
        (cutHead ']' (cutHead '!' pattern).2).2.takeWhile (· != ']'), rest) := by
  unfold bracket?
  split
  next sign inside hsign =>
  have hcut : cutHead '!' pattern = (sign, inside) := by
    split at hsign
    · cases hsign
      exact cutHead_self _ _
    · next hne =>
      cases hsign
      exact cutHead_of_ne hne
  split
  next first chars hfirst =>
  have hcut' : cutHead ']' inside = (first, chars) := by
    split at hfirst
    · cases hfirst
      exact cutHead_self _ _
    · next hne =>
      cases hfirst
      exact cutHead_of_ne hne
  rw [hcut, hcut']
  cases chars.dropWhile (· != ']') <;> rfl

/-- What comes after a bracket follows on its last character. -/
theorem exists_suffix_of_bracket? (h : bracket? pattern = some (inside, after)) :
    ∃ d, d :: after <:+ pattern := by
  rw [bracket?_eq, Option.map_eq_some_iff] at h
  obtain ⟨rest, hrest, hpair⟩ := h
  obtain rfl := congrArg Prod.snd hpair
  cases hdrop : (cutHead ']' (cutHead '!' pattern).2).2.dropWhile (· != ']') with
  | nil =>
    rw [hdrop] at hrest
    cases hrest
  | cons d chars =>
    rw [hdrop] at hrest
    obtain rfl := Option.some.inj hrest
    have hsuffix : d :: chars <:+ (cutHead ']' (cutHead '!' pattern).2).2 :=
      hdrop ▸ List.dropWhile_suffix _
    exact ⟨d, hsuffix.trans ((cutHead_suffix _ _).trans (cutHead_suffix _ _))⟩

/-- What comes after a bracket is shorter than the pattern, so that reading a pattern ends. -/
theorem length_lt_of_bracket? (h : bracket? pattern = some (inside, after)) :
    after.length < pattern.length := by
  obtain ⟨d, hsuffix⟩ := exists_suffix_of_bracket? h
  exact hsuffix.length_le

/-- A bracket is closed before what is added to a pattern without closing brackets. -/
theorem bracket?_append (hmore : ']' ∉ more) (hsign : more.head? ≠ some '!') (pattern : List Char) :
    bracket? (pattern ++ more) = (bracket? pattern).map fun b => (b.1, b.2 ++ more) := by
  have hfirst : more.head? ≠ some ']' := fun h => hmore (List.mem_of_head? h)
  have hopen : ∀ d ∈ more, (d != ']') = true := fun d hd =>
    bne_iff_ne.mpr fun heq => hmore (heq ▸ hd)
  rw [bracket?_eq, bracket?_eq, cutHead_append hsign]
  dsimp only
  rw [cutHead_append hfirst]
  dsimp only
  generalize (cutHead ']' (cutHead '!' pattern).2).2 = chars
  rw [List.dropWhile_append, List.takeWhile_append]
  cases hchars : chars.dropWhile (· != ']') with
  | nil =>
    rw [List.dropWhile_eq_nil_iff.mpr hopen]
    rfl
  | cons d rest =>
    -- the bracket is closed inside the pattern, so its inside is shorter than what follows the
    -- signs
    have hshort : (chars.takeWhile (· != ']')).length ≠ chars.length := by
      intro heq
      have hall := List.takeWhile_append_dropWhile (p := (· != ']')) (l := chars)
      rw [hchars] at hall
      have hlength := congrArg List.length hall
      rw [List.length_append, heq, List.length_cons] at hlength
      omega
    rw [if_neg hshort]
    rfl

/-! ### Reading a pattern -/

/-- The bound on the steps of the reader does not matter once it covers the length of the
pattern. -/
theorem parseWithin_eq_parseWithin {bound bound' : Nat} (h : pattern.length ≤ bound)
    (h' : pattern.length ≤ bound') : parseWithin bound pattern = parseWithin bound' pattern := by
  induction bound generalizing bound' pattern with
  | zero =>
    obtain rfl := List.eq_nil_of_length_eq_zero (Nat.le_zero.mp h)
    cases bound' <;> rfl
  | succ bound ih =>
    cases pattern with
    | nil => cases bound' <;> rfl
    | cons c pattern =>
      obtain ⟨bound', rfl⟩ : ∃ n, bound' = n + 1 := ⟨_, (Nat.succ_pred_eq_of_pos
        (Nat.lt_of_lt_of_le (Nat.succ_pos _) h')).symm⟩
      have hrest := ih (Nat.le_of_succ_le_succ h) (Nat.le_of_succ_le_succ h')
      rw [parseWithin, parseWithin, hrest]
      cases hbracket : bracket? pattern with
      | none => rfl
      | some b =>
        have hlt := length_lt_of_bracket? hbracket
        rw [List.length_cons] at h h'
        have hafter : parseWithin bound b.2 = parseWithin bound' b.2 := ih (by omega) (by omega)
        dsimp only
        rw [hafter]

/-- Bounds from the length of a pattern on read it to its end. -/
theorem parseWithin_eq_parse {bound : Nat} (h : pattern.length ≤ bound) :
    parseWithin bound pattern = parse pattern :=
  parseWithin_eq_parseWithin h le_rfl

/-- There is nothing to match in an empty pattern. -/
@[simp]
theorem parse_nil : parse [] = [] := rfl

/-- A star is read as any text. -/
@[simp]
theorem parse_star (pattern : List Char) : parse ('*' :: pattern) = .anyText :: parse pattern := rfl

/-- A question mark is read as any one character. -/
@[simp]
theorem parse_question (pattern : List Char) : parse ('?' :: pattern) = .anyChar :: parse pattern :=
  rfl

/-- A bracket that is closed is read as one character, one of those it lists or none of them. -/
theorem parse_bracket (h : bracket? pattern = some (inside, after)) :
    parse ('[' :: pattern) = bracketAtom inside :: parse after := by
  rw [← parseWithin_eq_parse (length_lt_of_bracket? h).le, parse, List.length_cons, parseWithin,
    if_neg (by decide), if_neg (by decide), if_pos rfl, h]

/-- Any other character is read as itself, and so is a bracket that is not closed. -/
theorem parse_literal (hstar : c ≠ '*') (hquestion : c ≠ '?')
    (hbracket : c = '[' → bracket? pattern = none) :
    parse (c :: pattern) = .literal c :: parse pattern := by
  rw [parse, List.length_cons, parseWithin, if_neg hstar, if_neg hquestion]
  by_cases hc : c = '['
  · rw [if_pos hc, hbracket hc]
    rfl
  · rw [if_neg hc]
    rfl

/-- What the first character of a pattern can be. -/
theorem kinds (c : Char) (pattern : List Char) :
    c = '*' ∨ c = '?' ∨ (c = '[' ∧ ∃ inside after, bracket? pattern = some (inside, after)) ∨
      (c ≠ '*' ∧ c ≠ '?' ∧ (c = '[' → bracket? pattern = none)) := by
  by_cases hstar : c = '*'
  · exact .inl hstar
  by_cases hquestion : c = '?'
  · exact .inr (.inl hquestion)
  cases hbracket : bracket? pattern with
  | none => exact .inr (.inr (.inr ⟨hstar, hquestion, fun _ => rfl⟩))
  | some b =>
    by_cases hc : c = '['
    · exact .inr (.inr (.inl ⟨hc, b.1, b.2, rfl⟩))
    · exact .inr (.inr (.inr ⟨hstar, hquestion, fun heq => absurd heq hc⟩))

/-- A bracket never stands for a longer text. -/
theorem bracketAtom_ne_anyText (inside : List Char) : bracketAtom inside ≠ .anyText := by
  rw [bracketAtom]
  split <;> exact Atom.noConfusion

/-! ### Short matches -/

/-- A text is an end of itself. -/
theorem anyEnd_of_self {p : List Char → Bool} (h : p cs = true) : anyEnd p cs = true := by
  cases cs with
  | nil => exact h
  | cons c cs => rw [anyEnd, h, Bool.true_or]

/-- An end of a text that matches is a text that matches. -/
theorem exists_of_anyEnd {p : List Char → Bool} (h : anyEnd p cs = true) :
    ∃ rest, p rest = true := by
  induction cs with
  | nil => exact ⟨[], h⟩
  | cons c cs ih =>
    rw [anyEnd, Bool.or_eq_true] at h
    exact h.elim (fun hself => ⟨_, hself⟩) ih

/-- An atom for one character takes the first one of a text. -/
theorem matchesAll_cons {atom : Atom} (h : atom ≠ .anyText) (c : Char) (cs : List Char) :
    matchesAll (atom :: atoms) (c :: cs) = (atom.accepts c && matchesAll atoms cs) := by
  cases atom with
  | anyText => exact absurd rfl h
  | _ => rfl

/-- An atom for one character does not match the empty text. -/
theorem matchesAll_cons_nil {atom : Atom} (h : atom ≠ .anyText) :
    matchesAll (atom :: atoms) [] = false := by
  cases atom with
  | anyText => exact absurd rfl h
  | _ => rfl

/-- The number of steps of a pattern that each match one character. -/
def width (atoms : List Atom) : Nat := atoms.countP (· ≠ .anyText)

/-- An atom for one character is one more step that matches a single character. -/
theorem width_cons {atom : Atom} (h : atom ≠ .anyText) (atoms : List Atom) :
    width (atom :: atoms) = width atoms + 1 :=
  List.countP_cons_of_pos (decide_eq_true h)

/-- A pattern that matches a text matches one that is not longer than the pattern. -/
theorem exists_short_match (h : matchesAll atoms cs = true) :
    ∃ short, matchesAll atoms short = true ∧ short.length ≤ width atoms := by
  induction atoms generalizing cs with
  | nil => exact ⟨[], rfl, Nat.le_refl _⟩
  | cons atom atoms ih =>
    by_cases hatom : atom = .anyText
    · subst hatom
      obtain ⟨rest, hrest⟩ := exists_of_anyEnd h
      obtain ⟨short, hshort, hlength⟩ := ih hrest
      exact ⟨short, anyEnd_of_self hshort, hlength⟩
    · cases cs with
      | nil =>
        rw [matchesAll_cons_nil hatom] at h
        cases h
      | cons c cs =>
        rw [matchesAll_cons hatom, Bool.and_eq_true] at h
        obtain ⟨short, hshort, hlength⟩ := ih h.2
        refine ⟨c :: short, ?_, ?_⟩
        · rw [matchesAll_cons hatom, h.1, hshort]
          rfl
        · rw [width_cons hatom]
          exact Nat.succ_le_succ hlength

/-- Each step for one character is read from a character of its own, which is no star. -/
theorem width_parse_le (pattern : List Char) :
    width (parse pattern) ≤ pattern.countP (· ≠ '*') := by
  induction hn : pattern.length using Nat.strong_induction_on generalizing pattern with
  | _ n ih =>
    subst hn
    cases pattern with
    | nil => exact Nat.le_refl _
    | cons c pattern =>
      have hrest := ih _ (Nat.lt_succ_self _) pattern rfl
      -- a bracket takes several characters and counts once, so equality does not hold
      obtain rfl | rfl | ⟨rfl, inside, after, hbracket⟩ | ⟨hstar, hquestion, hopen⟩ :=
        kinds c pattern
      · exact hrest
      · rw [parse_question, width_cons Atom.noConfusion, List.countP_cons_of_pos (by decide)]
        exact Nat.succ_le_succ hrest
      · have hafter := ih _ ((length_lt_of_bracket? hbracket).trans (Nat.lt_succ_self _)) after rfl
        obtain ⟨d, hsuffix⟩ := exists_suffix_of_bracket? hbracket
        have hcount : after.countP (· ≠ '*') ≤ pattern.countP (· ≠ '*') :=
          ((List.suffix_cons d after).trans hsuffix).sublist.countP_le
        rw [parse_bracket hbracket, width_cons (bracketAtom_ne_anyText inside),
          List.countP_cons_of_pos (by decide)]
        exact Nat.succ_le_succ (hafter.trans hcount)
      · rw [parse_literal hstar hquestion hopen, width_cons Atom.noConfusion,
          List.countP_cons_of_pos (by simpa using hstar)]
        exact Nat.succ_le_succ hrest

/-! ### Patterns of a prefix -/

/-- Whether the pattern of a prefix matches exactly the texts that start with the prefix and a
colon. -/
def MatchesStart (lead : List Char) : Prop :=
  ∀ cs, matchesAll (parse (lead ++ [':', '*'])) cs = (lead ++ [':']).isPrefixOf cs

/-- If the pattern of a prefix matches all keys under it, it matches the prefix and the colon by
themselves. -/
theorem MatchesStart.matches_self (h : MatchesStart lead) :
    matchesAll (parse (lead ++ [':', '*'])) (lead ++ [':']) = true := by
  rw [h]
  exact List.isPrefixOf_iff_prefix.mpr (List.prefix_refl _)

/-- A pattern that matches the texts of a start has a step for each of its characters. -/
theorem MatchesStart.length_lt (h : MatchesStart lead) :
    lead.length < width (parse (lead ++ [':', '*'])) := by
  obtain ⟨short, hshort, hlength⟩ := exists_short_match h.matches_self
  rw [h, List.isPrefixOf_iff_prefix] at hshort
  have hle := hshort.length_le
  rw [List.length_append] at hle
  exact Nat.lt_of_lt_of_le hle hlength

/-- The pattern of a prefix has no more atoms for one character than the prefix and the colon have
characters. -/
theorem width_parse_start_le (lead : List Char) :
    width (parse (lead ++ [':', '*'])) ≤ lead.length + 1 := by
  have hlead : lead.countP (· ≠ '*') ≤ lead.length := List.countP_le_length
  have hwidth := width_parse_le (lead ++ [':', '*'])
  rw [List.countP_append] at hwidth
  exact hwidth.trans (Nat.add_le_add_right hlead 1)

/-- Neither the colon nor the star closes a bracket, so that one which is open in the prefix stays
open in the pattern. -/
theorem bracket?_start (lead : List Char) :
    bracket? (lead ++ [':', '*']) = (bracket? lead).map fun b => (b.1, b.2 ++ [':', '*']) :=
  bracket?_append (by decide) (by decide) lead

/-- A character that stands for itself can be taken off a prefix together with its key. -/
theorem matchesStart_cons_of_literal (hstar : c ≠ '*') (hquestion : c ≠ '?')
    (hopen : c = '[' → bracket? lead = none) : MatchesStart (c :: lead) ↔ MatchesStart lead := by
  have hopen' (hc : c = '[') : bracket? (lead ++ [':', '*']) = none := by
    rw [bracket?_start, hopen hc]
    rfl
  have hstep (d : Char) (cs : List Char) :
      matchesAll (parse (c :: lead ++ [':', '*'])) (d :: cs) =
        (c == d && matchesAll (parse (lead ++ [':', '*'])) cs) := by
    rw [List.cons_append, parse_literal hstar hquestion hopen']
    rfl
  constructor
  · intro h cs
    have hcs := h (c :: cs)
    rw [hstep, List.cons_append, List.isPrefixOf, beq_self_eq_true, Bool.true_and,
      Bool.true_and] at hcs
    exact hcs
  · intro h cs
    cases cs with
    | nil =>
      rw [List.cons_append, parse_literal hstar hquestion hopen']
      rfl
    | cons d cs => rw [hstep, h cs, List.cons_append, List.isPrefixOf]

/-- **Patterns of a prefix.** The pattern of a prefix matches exactly the texts that start with the
prefix and a colon if and only if the prefix has no wildcard. -/
theorem matchesStart_iff (lead : List Char) : MatchesStart lead ↔ hasWildcard lead = false := by
  induction lead with
  | nil => exact ⟨fun _ => rfl, fun _ => matchesAll_literals_star [':']⟩
  | cons c lead ih =>
    obtain rfl | rfl | ⟨rfl, inside, after, hbracket⟩ | ⟨hstar, hquestion, hopen⟩ := kinds c lead
    -- a star needs no character
    · refine ⟨fun h => ?_, nofun⟩
      have hlength := h.length_lt
      exact absurd (width_parse_start_le lead) (Nat.not_le.mpr hlength)
    -- a question mark stands for other characters, too
    · refine ⟨fun h => ?_, nofun⟩
      have hself : matchesAll (parse (lead ++ [':', '*'])) (lead ++ [':']) = true := h.matches_self
      have hother : matchesAll (parse (lead ++ [':', '*'])) (lead ++ [':']) = false :=
        h ('a' :: (lead ++ [':']))
      rw [hself] at hother
      cases hother
    -- a bracket stands for one character, and has more
    · refine ⟨fun h => ?_, fun h => ?_⟩
      · have hstart : bracket? (lead ++ [':', '*']) = some (inside, after ++ [':', '*']) := by
          rw [bracket?_start, hbracket]
          rfl
        have hlength := h.length_lt
        rw [List.cons_append, parse_bracket hstart, width_cons (bracketAtom_ne_anyText inside)]
          at hlength
        have hwidth := width_parse_start_le after
        have hafter := length_lt_of_bracket? hbracket
        rw [List.length_cons] at hlength
        omega
      · rw [hasWildcard, hbracket] at h
        cases h
    · rw [matchesStart_cons_of_literal hstar hquestion hopen, ih, hasWildcard,
        beq_false_of_ne hstar, beq_false_of_ne hquestion]
      by_cases hc : c = '['
      · rw [hopen hc, Option.isSome_none, Bool.and_false]
        rfl
      · rw [beq_false_of_ne hc]
        rfl

end IndexedRecords.Glob
