import IndexedRecords.Proofs.Search.Clauses
import IndexedRecords.Search.Expression

/-!
# Rendered expressions

The text of an expression has exactly one reading, and it says what the expression asks for, however
tests, conjunctions, disjunctions and negations are nested. Each combination of predicates keeps the
claim that the text of a predicate has a certain meaning (`Predicate.Means`), and so do the
combinations of several predicates, which nest to the left.

## Main statements

* `Expression.existsUnique_reading`: reading a rendered expression gives it back, up to its truth.
-/

namespace IndexedRecords

open Search Traversal

variable {c : Catalogue} {model : String}

/-! ### What an expression asks for -/

namespace Reference

/-- A reference leads to a leaf of a record type. -/
def LeadsTo (c : Catalogue) (model : String) (ref : Reference) (l : Leaf) : Prop :=
  ∃ path, ref.field c = .ok path ∧ path.model = model ∧ path.resolve c = .ok l

/-- Whether a test of what a reference leads to holds where the atoms are true or false as given. -/
def holds (c : Catalogue) (truth : Atom → Bool) (ref : Reference) (t : FieldTest) : Bool :=
  match ref.field c >>= FieldPath.resolve c with
  | .ok l => t.holds truth l
  | .error _ => false

variable {truth : Atom → Bool} {ref : Reference} {t : FieldTest} {l : Leaf}

/-- A test of what a reference leads to is the test of that leaf. -/
theorem holds_of_leadsTo (h : ref.LeadsTo c model l) : ref.holds c truth t = t.holds truth l := by
  obtain ⟨path, hpath, _, hl⟩ := h
  have hfound : ref.field c >>= FieldPath.resolve c = .ok l := by
    rw [hpath]
    exact hl
  rw [holds, hfound]

end Reference

/-- What a field path resolves to is one of the leaves of its record type, so that what is known of
all leaves holds for it. -/
theorem FieldPath.mem_of_resolve {path : FieldPath} {r : RecordType} {ls : List Leaf} {l : Leaf}
    (hr : c.find? path.model = some r) (hcompile : Schema.compile c r = .ok ls)
    (h : path.resolve c = .ok l) : l ∈ ls := by
  have hlift (found : Option Leaf) :
      (liftM (Except.ok found : Except SchemaFault _) : Except SearchFault _) = .ok found := rfl
  rw [resolve, hr] at h
  simp only [Schema.findLeaf, hcompile, bind, Except.bind, pure, Except.pure, hlift] at h
  split at h
  · next found =>
    cases h
    exact List.mem_of_find?_eq_some found
  · cases h

namespace Expression

/-- All tests of an expression are about leaves of one record type, and their operands fit. -/
inductive Fits (c : Catalogue) (model : String) : Expression → Prop where
  | compare {op : Comparison} {ref : Reference} {v : Value} {l : Leaf}
      (leads : ref.LeadsTo c model l) (fits : (FieldTest.compare op v).Fits l) :
      Fits c model (.compare op ref v)
  | between {ref : Reference} {low high : Value} {l : Leaf} (leads : ref.LeadsTo c model l)
      (fits : (FieldTest.between low high).Fits l) : Fits c model (.between ref low high)
  | oneOf {ref : Reference} {options : Value} {items : List Value} {l : Leaf}
      (leads : ref.LeadsTo c model l) (yields : options.items? = some items)
      (fits : (FieldTest.oneOf items).Fits l) : Fits c model (.oneOf ref options)
  | both {l r : Expression} (left : Fits c model l) (right : Fits c model r) :
      Fits c model (.both l r)
  | either {l r : Expression} (left : Fits c model l) (right : Fits c model r) :
      Fits c model (.either l r)
  | negation {e : Expression} (inner : Fits c model e) : Fits c model (.negation e)
  | all {es : List Expression} (nonempty : es ≠ []) (each : ∀ e ∈ es, Fits c model e) :
      Fits c model (.all es)
  | any {es : List Expression} (nonempty : es ≠ []) (each : ∀ e ∈ es, Fits c model e) :
      Fits c model (.any es)

mutual

/-- Whether an expression holds where the atoms are true or false as given. -/
def holds (c : Catalogue) (truth : Atom → Bool) : Expression → Bool
  | .compare op ref v => ref.holds c truth (.compare op v)
  | .between ref low high => ref.holds c truth (.between low high)
  | .oneOf ref options => ref.holds c truth (.oneOf (options.items?.getD []))
  | .within _ _ _ _ _ => false
  | .both l r => holds c truth l && holds c truth r
  | .either l r => holds c truth l || holds c truth r
  | .negation e => !holds c truth e
  | .all es => everyHolds c truth es
  | .any es => someHolds c truth es

/-- Whether all of several expressions hold. -/
def everyHolds (c : Catalogue) (truth : Atom → Bool) : List Expression → Bool
  | [] => true
  | e :: es => holds c truth e && everyHolds c truth es

/-- Whether one of several expressions holds. -/
def someHolds (c : Catalogue) (truth : Atom → Bool) : List Expression → Bool
  | [] => false
  | e :: es => holds c truth e || someHolds c truth es

end

end Expression

/-! ### Combinations of predicates -/

namespace Predicate

/-- The text of a predicate about a record type has a reading of a given meaning. -/
def Means (c : Catalogue) (model : String) (p : Predicate) (meaning : (Atom → Bool) → Bool) :
    Prop :=
  p.model = model ∧ ∃ text reading, p.render c = .ok text ∧ Reads reading text.toList ∧
    ∀ truth, reading.holds truth = meaning truth

variable {p q : Predicate} {meaning meaning' : (Atom → Bool) → Bool}

/-- A single test on a leaf with a plain alias means that the leaf passes it. -/
theorem means_test {path : FieldPath} {l : Leaf} {t : FieldTest} (hmodel : path.model = model)
    (hl : path.resolve c = .ok l) (halias : l.HasPlainAlias) (ht : t.Fits l) :
    Means c model (.test path t) fun truth => t.holds truth l := by
  obtain ⟨text, reading, hclause, hreads, hholds⟩ := FieldTest.isRead_of_fits halias ht
  refine ⟨hmodel, text, reading, ?_, hreads, hholds⟩
  rw [render, hl]
  exact hclause

/-- A conjunction means that both of its parts hold: parentheses keep the two readings apart. -/
theorem means_both (hp : Means c model p meaning) (hq : Means c model q meaning') :
    Means c model (.both p q) fun truth => meaning truth && meaning' truth := by
  obtain ⟨hmodel, s, l, hs, hl, hholds⟩ := hp
  obtain ⟨_, t, r, ht, hr, hholds'⟩ := hq
  refine ⟨hmodel, "(" ++ s ++ " " ++ t ++ ")", .both l r, ?_, ?_, fun truth => ?_⟩
  · rw [render, hs, ht]
    rfl
  · have htext : ("(" ++ s ++ " " ++ t ++ ")").toList =
        '(' :: s.toList ++ ' ' :: t.toList ++ [')'] := by
      simp
    rw [htext]
    exact .both hl hr
  · rw [Reading.holds, hholds, hholds']

/-- A disjunction means that one of its parts holds. -/
theorem means_either (hp : Means c model p meaning) (hq : Means c model q meaning') :
    Means c model (.either p q) fun truth => meaning truth || meaning' truth := by
  obtain ⟨hmodel, s, l, hs, hl, hholds⟩ := hp
  obtain ⟨_, t, r, ht, hr, hholds'⟩ := hq
  refine ⟨hmodel, "(" ++ s ++ " | " ++ t ++ ")", .any [l, r], ?_, ?_, fun truth => ?_⟩
  · rw [render, hs, ht]
    rfl
  · have htext : ("(" ++ s ++ " | " ++ t ++ ")").toList =
        '(' :: [' ', '|', ' '].intercalate [s.toList, t.toList] ++ [')'] := by
      simp
    rw [htext]
    refine .any (Nat.le_refl 2) rfl ?_
    simp [hl, hr]
  · simp [Reading.holds, Reading.someHolds, hholds, hholds']

/-- A negation means that what it negates does not hold. -/
theorem means_negation (hp : Means c model p meaning) :
    Means c model (.negation p) fun truth => !meaning truth := by
  obtain ⟨hmodel, s, r, hs, hr, hholds⟩ := hp
  refine ⟨hmodel, "(-" ++ s ++ ")", .negation r, ?_, ?_, fun truth => ?_⟩
  · rw [render, hs]
    rfl
  · have htext : ("(-" ++ s ++ ")").toList = '(' :: '-' :: s.toList ++ [')'] := by simp
    rw [htext]
    exact .enclosedNegation hr
  · rw [Reading.holds, hholds]

/-- Predicates that mean something about one record type may be joined. -/
theorem checkModel_of_means (hp : Means c model p meaning) (hq : Means c model q meaning') :
    checkModel p.model q = .ok () :=
  if_pos (hq.1.trans hp.1.symm)

/-- Membership in options that can be listed is a single test, if there are any options. -/
theorem isOneOf_of_items {path : FieldPath} {options : Value} {items : List Value}
    (h : options.items? = some items) (hne : items ≠ []) :
    isOneOf path options = .ok (.test path (.oneOf items)) := by
  rw [isOneOf, Value.items, h]
  cases items with
  | nil => exact absurd rfl hne
  | cons v items => rfl

/-- Predicates with meanings are joined by a conjunction, and the meaning is that of both. -/
theorem exists_and (hp : Means c model p meaning) (hq : Means c model q meaning') :
    ∃ r, p.and q = .ok r ∧ Means c model r fun truth => meaning truth && meaning' truth := by
  refine ⟨.both p q, ?_, means_both hp hq⟩
  rw [Predicate.and, checkModel_of_means hp hq]
  rfl

/-- Predicates with meanings are joined by a disjunction, and the meaning is that of one of them. -/
theorem exists_or (hp : Means c model p meaning) (hq : Means c model q meaning') :
    ∃ r, p.or q = .ok r ∧ Means c model r fun truth => meaning truth || meaning' truth := by
  refine ⟨.either p q, ?_, means_either hp hq⟩
  rw [Predicate.or, checkModel_of_means hp hq]
  rfl

end Predicate

namespace Expression

variable {e : Expression} {es : List Expression}

/-! ### Several expressions -/

theorem everyHolds_eq_all (truth : Atom → Bool) (es : List Expression) :
    everyHolds c truth es = es.all (holds c truth) := by
  induction es with
  | nil => rfl
  | cons e es ih => rw [everyHolds, ih, List.all_cons]

theorem someHolds_eq_any (truth : Atom → Bool) (es : List Expression) :
    someHolds c truth es = es.any (holds c truth) := by
  induction es with
  | nil => rfl
  | cons e es ih => rw [someHolds, ih, List.any_cons]

/-- An expression is built and the text of its predicate has a reading, which holds where the
expression does. -/
def IsBuilt (c : Catalogue) (model : String) (e : Expression) : Prop :=
  ∃ p, e.build c = .ok p ∧ p.Means c model fun truth => e.holds c truth

/-- All of several expressions are built, each with its own meaning, and none of them keeps another
from being built. -/
theorem exists_buildAll (h : ∀ e ∈ es, IsBuilt c model e) :
    ∃ ps, buildAll c es = .ok ps ∧
      List.Forall₂ (fun e p => p.Means c model fun truth => e.holds c truth) es ps := by
  induction es with
  | nil => exact ⟨[], rfl, .nil⟩
  | cons e es ih =>
    obtain ⟨p, hp, hmeans⟩ := h e List.mem_cons_self
    obtain ⟨ps, hps, heach⟩ := ih fun e he => h e (List.mem_cons_of_mem _ he)
    refine ⟨p :: ps, ?_, .cons hmeans heach⟩
    rw [buildAll, hp, hps]
    rfl

/-- Predicates are combined from left to right, and so are their meanings. -/
theorem exists_foldlM {combine : Predicate → Predicate → Except SearchFault Predicate}
    {op : Bool → Bool → Bool}
    (hcombine : ∀ {p q meaning meaning'}, Predicate.Means c model p meaning →
      Predicate.Means c model q meaning' → ∃ r, combine p q = .ok r ∧
        Predicate.Means c model r fun truth => op (meaning truth) (meaning' truth))
    {ps : List Predicate}
    (h : List.Forall₂ (fun e p => Predicate.Means c model p fun truth => holds c truth e) es ps)
    {first : Predicate} {meaning : (Atom → Bool) → Bool} (hfirst : first.Means c model meaning) :
    ∃ r, ps.foldlM combine first = .ok r ∧
      r.Means c model fun truth =>
        es.foldl (fun b e => op b (holds c truth e)) (meaning truth) := by
  -- `first` combines the predicates so far, and `meaning` is that of the expressions behind them
  induction h generalizing first meaning with
  | nil => exact ⟨first, rfl, hfirst⟩
  | @cons e p es ps hp _ ih =>
    obtain ⟨next, hnext, hmeans⟩ := hcombine hfirst hp
    obtain ⟨r, hr, hresult⟩ := ih hmeans
    refine ⟨r, ?_, hresult⟩
    rw [List.foldlM_cons, hnext]
    exact hr

theorem foldl_and (f : Expression → Bool) (b : Bool) :
    es.foldl (fun b e => b && f e) b = (b && es.all f) := by
  induction es generalizing b with
  | nil => exact (Bool.and_true b).symm
  | cons e es ih => rw [List.foldl_cons, ih, List.all_cons, Bool.and_assoc]

theorem foldl_or (f : Expression → Bool) (b : Bool) :
    es.foldl (fun b e => b || f e) b = (b || es.any f) := by
  induction es generalizing b with
  | nil => exact (Bool.or_false b).symm
  | cons e es ih => rw [List.foldl_cons, ih, List.any_cons, Bool.or_assoc]

/-- Several expressions are joined from left to right; there must be at least one to start from. -/
theorem isBuilt_all (hne : es ≠ []) (h : ∀ e ∈ es, IsBuilt c model e) :
    IsBuilt c model (.all es) := by
  obtain ⟨ps, hps, heach⟩ := exists_buildAll h
  cases heach with
  | nil => exact absurd rfl hne
  | @cons e p es ps hp heach =>
    obtain ⟨r, hr, hmeans⟩ := exists_foldlM Predicate.exists_and heach hp
    refine ⟨r, ?_, ?_⟩
    · rw [build, hps]
      exact hr
    · simp only [foldl_and] at hmeans
      simpa only [holds, everyHolds, everyHolds_eq_all] using hmeans

/-- Several expressions are joined by disjunctions from left to right; there must be at least
one. -/
theorem isBuilt_any (hne : es ≠ []) (h : ∀ e ∈ es, IsBuilt c model e) :
    IsBuilt c model (.any es) := by
  obtain ⟨ps, hps, heach⟩ := exists_buildAll h
  cases heach with
  | nil => exact absurd rfl hne
  | @cons e p es ps hp heach =>
    obtain ⟨r, hr, hmeans⟩ := exists_foldlM Predicate.exists_or heach hp
    refine ⟨r, ?_, ?_⟩
    · rw [build, hps]
      exact hr
    · simp only [foldl_or] at hmeans
      simpa only [holds, someHolds, someHolds_eq_any] using hmeans

/-! ### Every expression that fits -/

/-- An expression that is built as one test means that test. -/
theorem isBuilt_of_test {ref : Reference} {l : Leaf} {t : FieldTest}
    (leads : ref.LeadsTo c model l) (halias : l.HasPlainAlias) (fits : t.Fits l)
    (hbuild : ∀ path, ref.field c = .ok path → e.build c = .ok (.test path t))
    (hholds : ∀ truth, e.holds c truth = ref.holds c truth t) : IsBuilt c model e := by
  have hmeaning : (fun truth => e.holds c truth) = fun truth => t.holds truth l := by
    funext truth
    rw [hholds, Reference.holds_of_leadsTo leads]
  obtain ⟨path, hpath, hmodel, hl⟩ := leads
  refine ⟨.test path t, hbuild path hpath, ?_⟩
  rw [hmeaning]
  exact Predicate.means_test hmodel hl halias fits

/-- An expression that fits is built, and its text has its meaning. -/
theorem isBuilt_of_fits (halias : ∀ ref l, Reference.LeadsTo c model ref l → l.HasPlainAlias)
    (h : e.Fits c model) : IsBuilt c model e := by
  induction h with
  -- a test goes through to its leaf, the others are joined as the parts of the expression are
  | compare leads fits =>
    refine isBuilt_of_test leads (halias _ _ leads) fits (fun path hpath => ?_) fun _ => rfl
    rw [build, hpath]
    rfl
  | between leads fits =>
    refine isBuilt_of_test leads (halias _ _ leads) fits (fun path hpath => ?_) fun _ => rfl
    rw [build, hpath]
    rfl
  | oneOf leads yields fits =>
    refine isBuilt_of_test leads (halias _ _ leads) fits (fun path hpath => ?_) fun truth => ?_
    · rw [build, hpath]
      exact Predicate.isOneOf_of_items yields fits.1
    · rw [holds, yields, Option.getD_some]
  | both _ _ ihl ihr =>
    obtain ⟨p, hp, hmeansp⟩ := ihl
    obtain ⟨q, hq, hmeansq⟩ := ihr
    obtain ⟨r, hr, hmeans⟩ := Predicate.exists_and hmeansp hmeansq
    refine ⟨r, ?_, by simpa only [holds] using hmeans⟩
    rw [build, hp, hq]
    exact hr
  | either _ _ ihl ihr =>
    obtain ⟨p, hp, hmeansp⟩ := ihl
    obtain ⟨q, hq, hmeansq⟩ := ihr
    obtain ⟨r, hr, hmeans⟩ := Predicate.exists_or hmeansp hmeansq
    refine ⟨r, ?_, by simpa only [holds] using hmeans⟩
    rw [build, hp, hq]
    exact hr
  | negation _ ih =>
    obtain ⟨p, hp, hmeans⟩ := ih
    refine ⟨.negation p, ?_, by simpa only [holds] using Predicate.means_negation hmeans⟩
    rw [build, hp]
    rfl
  | all nonempty _ ih => exact isBuilt_all nonempty ih
  | any nonempty _ ih => exact isBuilt_any nonempty ih

/-- **Expressions keep their meaning.** If the aliases of a record type are plain words, the text of
an expression that fits has exactly one reading, which holds wherever the expression does. -/
theorem existsUnique_reading {r : RecordType} {ls : List Leaf} (hr : c.find? model = some r)
    (hcompile : Schema.compile c r = .ok ls) (halias : ∀ l ∈ ls, l.HasPlainAlias)
    (h : e.Fits c model) :
    ∃ p text reading, e.build c = .ok p ∧ p.render c = .ok text ∧ Reads reading text.toList ∧
      (∀ other, Reads other text.toList → other = reading) ∧
      ∀ truth, reading.holds truth = e.holds c truth := by
  have hleads : ∀ ref l, Reference.LeadsTo c model ref l → l.HasPlainAlias := by
    rintro ref l ⟨path, _, rfl, hl⟩
    exact halias l (FieldPath.mem_of_resolve hr hcompile hl)
  obtain ⟨p, hp, _, text, reading, htext, hreads, hholds⟩ := isBuilt_of_fits hleads h
  exact ⟨p, text, reading, hp, htext, hreads, fun _ hother => hother.unique hreads, hholds⟩

/-- Books with a genre and a number of pages. -/
def books : Catalogue :=
  Catalogue.bases.declare ⟨"Book", "JsonModel", none, none, [
    .declare "genre" (.scalar .text) [.index (some (.known .tag)) false none "COSINE"] none none
      none .required,
    .declare "pages" (.scalar .int) [.plainIndex] none none none .required]⟩

/-- Short books, or those of one or two pages, of other genres than one and of some. -/
def shortBooks : Expression :=
  let genre : Reference := ⟨"Book", [.dot "genre"]⟩
  let pages : Reference := ⟨"Book", [.item "pages"]⟩
  .all [.compare .notEqual genre (.text "sci-fi"),
    .any [.oneOf pages (.list [.int 1, .int 2]), .negation (.compare .greater pages (.int 300))],
    .oneOf genre (.list [.text "a b", .text "c|d"])]

theorem compile_books : Schema.compile books books.types[3] = .ok [
    ⟨"id", "id", "$.id", .tag, [], false⟩, ⟨"genre", "genre", "$.genre", .tag, [], false⟩,
    ⟨"pages", "pages", "$.pages", .numeric, [], true⟩] := rfl

theorem leadsTo_genre : Reference.LeadsTo books "Book" ⟨"Book", [.dot "genre"]⟩
    ⟨"genre", "genre", "$.genre", .tag, [], false⟩ :=
  ⟨⟨"Book", ["genre"]⟩, by decide +kernel, rfl, rfl⟩

theorem leadsTo_pages : Reference.LeadsTo books "Book" ⟨"Book", [.item "pages"]⟩
    ⟨"pages", "pages", "$.pages", .numeric, [], true⟩ :=
  ⟨⟨"Book", ["pages"]⟩, rfl, rfl, rfl⟩

theorem fits_shortBooks : shortBooks.Fits books "Book" := by
  refine .all (List.cons_ne_nil _ _) ?_
  simp only [List.forall_mem_cons]
  refine ⟨.compare leadsTo_genre ⟨.tag rfl rfl (by decide), .inr (.inr rfl)⟩,
    .any (List.cons_ne_nil _ _) ?_, .oneOf leadsTo_genre rfl ⟨List.cons_ne_nil _ _, ?_⟩, nofun⟩
  · simp only [List.forall_mem_cons]
    refine ⟨.oneOf leadsTo_pages rfl ⟨List.cons_ne_nil _ _, ?_⟩,
      .negation (.compare leadsTo_pages ⟨.numeric rfl rfl (by decide), .inl rfl⟩), nofun⟩
    simp only [List.forall_mem_cons]
    exact ⟨.numeric rfl rfl (by decide), .numeric rfl rfl (by decide), nofun⟩
  · simp only [List.forall_mem_cons]
    exact ⟨.tag rfl rfl (by decide), .tag rfl rfl (by decide), nofun⟩

theorem existsUnique_reading_shortBooks :
    ∃ p text reading, shortBooks.build books = .ok p ∧ p.render books = .ok text ∧
      Reads reading text.toList ∧ (∀ other, Reads other text.toList → other = reading) ∧
      ∀ truth, reading.holds truth = shortBooks.holds books truth := by
  refine existsUnique_reading (r := books.types[3]) rfl compile_books ?_ fits_shortBooks
  simp only [List.forall_mem_cons]
  exact ⟨⟨by decide, by decide⟩, ⟨by decide, by decide⟩, ⟨by decide, by decide⟩, nofun⟩

example : (shortBooks.build books >>= Predicate.render books) =
    .ok ("((-(@genre:\x7bsci\\-fi\x7d) " ++
      "((@pages:[1 1] | @pages:[2 2]) | (-@pages:[301 +inf]))) @genre:\x7ba b|c\\|d\x7d)") := by
  decide +kernel

end Expression

end IndexedRecords
