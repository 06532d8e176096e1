import IndexedRecords.Proofs.Search.Deferral
import IndexedRecords.Proofs.Service.Running
import IndexedRecords.Service.Searching
import Mathlib.Data.List.Induction

/-!
# Searches step by step

A search is built by steps, and a step that is refused leaves the search as it was. What the steps
come to can be read off those that are accepted: the window and the order are the last ones that
have been asked for, and the predicates are joined one after the other from the last filter on. Each
step keeps the search about one record type (`Search.IsAbout`), which is why only a predicate or an
order of another type is refused, and why predicates that are accepted can always be joined.

## Main statements

* `Search.step_eq`: which steps are accepted, and what they give.
* `Search.run_eq`: steps in a row give what the accepted ones give.
* `Search.command_of_steps`: the command of the last search, and which fault there is instead.
-/

namespace IndexedRecords

open Traversal

variable {c : Catalogue} {model : String}

/-- A reference that leads to a field refers to it, so that a search can be ordered by it. -/
theorem Reference.referent_of_field {ref : Reference} {field : FieldPath}
    (h : ref.field c = .ok field) : ref.referent c = .ok (.field field) := by
  obtain ⟨referent, hreferent, hfield⟩ := bind_eq_ok_iff.mp h
  cases referent with
  | field path =>
    obtain rfl := Except.ok.inj hfield
    exact hreferent
  | _ => cases hfield

namespace Search

/-! ### Moves -/

/-- How a predicate joins the earlier ones of a search. -/
inductive Link where
  | filter
  | and
  | or
  deriving DecidableEq, Repr

namespace Link

/-- A predicate joined to an earlier one. A filter takes the place of it. -/
def join : Link → Predicate → Predicate → Predicate
  | .filter, _, p => p
  | .and, earlier, p => .both earlier p
  | .or, earlier, p => .either earlier p

/-- The text of a predicate joined to an earlier text. -/
def joinText : Link → String → String → String
  | .filter, _, text => text
  | .and, earlier, text => "(" ++ earlier ++ " " ++ text ++ ")"
  | .or, earlier, text => "(" ++ earlier ++ " | " ++ text ++ ")"

end Link

/-- A predicate that joins the earlier ones in some way. -/
structure Term where
  link : Link
  predicate : Predicate

/-- A step as a search takes it: its predicate has been built, and its reference has been
followed. -/
inductive Move where
  | term (t : Term)
  | window (offset count : Int)
  | order (field : FieldPath) (descending : Bool)

/-- What a step comes to before a search takes it. -/
inductive Step.Makes (c : Catalogue) : Step → Move → Prop where
  | filter {e : Expression} {p : Predicate} (build : e.build c = .ok p) :
      Makes c (.filter e) (.term ⟨.filter, p⟩)
  | and {e : Expression} {p : Predicate} (build : e.build c = .ok p) :
      Makes c (.and e) (.term ⟨.and, p⟩)
  | or {e : Expression} {p : Predicate} (build : e.build c = .ok p) :
      Makes c (.or e) (.term ⟨.or, p⟩)
  | limit {offset count : Int} : Makes c (.limit offset count) (.window offset count)
  | sortBy {ref : Reference} {field : FieldPath} {descending : Bool}
      (leads : ref.field c = .ok field) : Makes c (.sortBy ref descending) (.order field descending)

namespace Move

/-- A move is accepted if it is about the record type of the search and has no negative number. -/
def isAccepted (model : String) : Move → Bool
  | .term t => t.predicate.model = model
  | .window offset count => 0 ≤ offset ∧ 0 ≤ count
  | .order field _ => field.model = model

/-- Why a move is refused that is not accepted. -/
def refusal (model : String) : Move → SearchFault
  | .term t => .otherModel model t.predicate.model
  | .window _ _ => .negativeWindow
  | .order field _ => .otherModel model field.model

/-- The predicate of a move. -/
def term? : Move → Option Term
  | .term t => some t
  | _ => none

/-- The window of a move. -/
def window? : Move → Option (Int × Int)
  | .window offset count => some (offset, count)
  | _ => none

/-- The order of a move. -/
def order? : Move → Option (FieldPath × Bool)
  | .order field descending => some (field, descending)
  | _ => none

end Move

/-- The predicate of a search after one more has joined it. -/
def joined : Option Predicate → Term → Option Predicate
  | none, t => some t.predicate
  | some earlier, t => some (t.link.join earlier t.predicate)

/-- The search after a move that is accepted. -/
def take (s : Search) : Move → Search
  | .term t => { s with predicate := joined s.predicate t }
  | .window offset count => { s with window := some (offset, count) }
  | .order field descending => { s with sort := some (.field field, descending) }

/-! ### One step -/

/-- All parts of a search are about one record type. -/
structure IsAbout (s : Search) (model : String) : Prop where
  model_eq : s.model = model
  predicate_model : ∀ p, s.predicate = some p → p.model = model
  sort_model : ∀ key descending, s.sort = some (key, descending) → key.model = model

variable {s : Search} {step : Step} {move : Move} {steps : List Step} {moves : List Move}

/-- The search that asks for all records of a type is about this type. -/
theorem isAbout_all (model : String) : (all model).IsAbout model := ⟨rfl, nofun, nofun⟩

/-- Predicates about one record type are joined to a predicate about it. -/
theorem Link.model_join {link : Link} {p q : Predicate} (hp : p.model = model)
    (hq : q.model = model) : (link.join p q).model = model := by
  cases link with
  | filter => exact hq
  | and => exact hp
  | or => exact hp

/-- An accepted move keeps a search about its record type. -/
theorem IsAbout.take (hs : s.IsAbout model) (haccepted : move.isAccepted model) :
    (s.take move).IsAbout model := by
  cases move with
  | term t =>
    have ht : t.predicate.model = model := by simpa [Move.isAccepted] using haccepted
    refine ⟨hs.model_eq, ?_, hs.sort_model⟩
    intro p hp
    change joined s.predicate t = some p at hp
    cases hearlier : s.predicate with
    | none =>
      rw [hearlier] at hp
      obtain rfl := Option.some.inj hp
      exact ht
    | some earlier =>
      rw [hearlier] at hp
      obtain rfl := Option.some.inj hp
      exact Link.model_join (hs.predicate_model earlier hearlier) ht
  | window offset count => exact ⟨hs.model_eq, hs.predicate_model, hs.sort_model⟩
  | order field descending =>
    have hfield : field.model = model := by simpa [Move.isAccepted] using haccepted
    refine ⟨hs.model_eq, hs.predicate_model, ?_⟩
    intro key descending' hkey
    obtain ⟨rfl, -⟩ := Prod.mk.inj (Option.some.inj hkey)
    exact hfield

/-- A predicate about the record type of a search passes its check. -/
theorem checkModel_eq {p : Predicate} (h : p.model = model) : p.checkModel model = .ok () :=
  if_pos h

/-- The move of a term is accepted where the check of its predicate succeeds. -/
theorem checkModel_bind_eq (model : String) (t : Term) (next : Search) :
    (t.predicate.checkModel model >>= fun _ => .ok next) =
      if (Move.term t).isAccepted model then .ok next
      else .error ((Move.term t).refusal model) := by
  simp only [Predicate.checkModel, Move.isAccepted, decide_eq_true_eq]
  split <;> rfl

/-- A filter checks its predicate against the search itself, whatever the search asked for
before. -/
theorem filter_eq (s : Search) (p : Predicate) :
    s.filter p = p.checkModel s.model >>= fun _ => .ok (s.take (.term ⟨.filter, p⟩)) := by
  rw [filter, take]
  cases s.predicate <;> rfl

/-- An earlier predicate of the record type of the search lets every predicate of it join. -/
theorem checkModel_combine_eq (hs : s.IsAbout s.model) {link : Link}
    {combine : Predicate → Predicate → Except SearchFault Predicate}
    (hcombine : ∀ earlier p, combine earlier p =
      p.checkModel earlier.model >>= fun _ => .ok (link.join earlier p)) (p : Predicate) :
    (do
      p.checkModel s.model
      match s.predicate with
      | some earlier => return { s with predicate := some (← combine earlier p) }
      | none => return { s with predicate := some p }) =
      p.checkModel s.model >>= fun _ => Except.ok (s.take (.term ⟨link, p⟩)) := by
  by_cases hp : p.model = s.model
  · rw [checkModel_eq hp, take]
    cases hearlier : s.predicate with
    | none => rfl
    | some earlier =>
      have hjoin : combine earlier p = .ok (link.join earlier p) := by
        rw [hcombine, checkModel_eq (hp.trans (hs.predicate_model earlier hearlier).symm)]
        rfl
      change (do return { s with predicate := some (← combine earlier p) }) = _
      rw [hjoin]
      rfl
  · rw [Predicate.checkModel, if_neg hp]
    rfl

/-- Joining by a conjunction takes a predicate about the record type of the search. The check is
made against the earlier predicate, which is about that type too. -/
theorem and_eq (hs : s.IsAbout s.model) (p : Predicate) :
    s.and p = p.checkModel s.model >>= fun _ => .ok (s.take (.term ⟨.and, p⟩)) := by
  have hcombine (earlier p : Predicate) : earlier.and p =
      p.checkModel earlier.model >>= fun _ => .ok (Link.and.join earlier p) := rfl
  exact checkModel_combine_eq hs hcombine p

/-- Joining by a disjunction takes a predicate about the record type of the search. -/
theorem or_eq (hs : s.IsAbout s.model) (p : Predicate) :
    s.or p = p.checkModel s.model >>= fun _ => .ok (s.take (.term ⟨.or, p⟩)) := by
  have hcombine (earlier p : Predicate) : earlier.or p =
      p.checkModel earlier.model >>= fun _ => .ok (Link.or.join earlier p) := rfl
  exact checkModel_combine_eq hs hcombine p

/-- A window is set unless one of its numbers is negative. -/
theorem limit_eq (s : Search) (offset count : Int) :
    s.limit offset count =
      if (Move.window offset count).isAccepted model then .ok (s.take (.window offset count))
      else .error ((Move.window offset count).refusal model) := by
  simp only [limit, Move.isAccepted, decide_eq_true_eq]
  by_cases h : offset < 0 ∨ count < 0
  · rw [if_pos h, if_neg (by omega)]
    rfl
  · rw [if_neg h, if_pos (by omega)]
    rfl

/-- An order is set if its field belongs to the record type of the search. -/
theorem sortBy_eq (s : Search) (field : FieldPath) (descending : Bool) :
    s.sortBy (.field field) descending =
      if (Move.order field descending).isAccepted s.model then
        .ok (s.take (.order field descending))
      else .error ((Move.order field descending).refusal s.model) := by
  simp only [sortBy, Move.isAccepted, decide_eq_true_eq]
  rfl

/-- **One step.** A search about a record type accepts the steps about this type that have no
negative number, and refuses all others. -/
theorem step_eq (hs : s.IsAbout model) (h : step.Makes c move) :
    s.step c step =
      if move.isAccepted model then .ok (s.take move) else .error (move.refusal model) := by
  obtain rfl := hs.model_eq
  cases h with
  | @filter e p build =>
    rw [Search.step, build, ← checkModel_bind_eq]
    exact filter_eq s p
  | @and e p build =>
    rw [Search.step, build, ← checkModel_bind_eq]
    exact and_eq hs p
  | @or e p build =>
    rw [Search.step, build, ← checkModel_bind_eq]
    exact or_eq hs p
  | limit => exact limit_eq s _ _
  | @sortBy ref field descending leads =>
    rw [Search.step, Reference.referent_of_field leads, ← sortBy_eq]
    rfl

/-! ### Steps in a row -/

/-- Takes a step, if it is accepted. -/
def follow (c : Catalogue) (s : Search) (step : Step) : Search :=
  match s.step c step with
  | .ok next => next
  | .error _ => s

/-- Takes steps in a row. A step that is refused is followed from where it started. -/
def run (c : Catalogue) (s : Search) (steps : List Step) : Search := steps.foldl (follow c) s

/-- A step that is not accepted leaves the search as it is, so that the next step starts from
there. -/
theorem follow_eq (hs : s.IsAbout model) (h : step.Makes c move) :
    s.follow c step = if move.isAccepted model then s.take move else s := by
  rw [follow, step_eq hs h]
  split <;> split <;> simp_all

/-- **Steps in a row.** They give what the accepted ones give. -/
theorem run_eq (hs : s.IsAbout model) (h : List.Forall₂ (Step.Makes c) steps moves) :
    s.run c steps = (moves.filter (Move.isAccepted model)).foldl take s ∧
      (s.run c steps).IsAbout model := by
  -- the search that a step leads to is about the same record type, from which the rest goes on
  induction h generalizing s with
  | nil => exact ⟨rfl, hs⟩
  | @cons step move steps moves hstep _ ih =>
    have hrun : s.run c (step :: steps) = (s.follow c step).run c steps := rfl
    rw [hrun, follow_eq hs hstep, List.filter_cons]
    split
    · next haccepted => exact ih (hs.take haccepted)
    · exact ih hs

/-- Every search on the way is about the record type of the first one. -/
theorem isAbout_run (hs : s.IsAbout model) (h : List.Forall₂ (Step.Makes c) steps moves)
    {taken : List Step} (htaken : taken <+: steps) : (s.run c taken).IsAbout model := by
  rw [List.prefix_iff_eq_take.mp htaken]
  exact (run_eq hs (List.forall₂_take _ h)).2

/-- A step on the way leads to the next search, or is refused. -/
theorem step_run_eq {taken later : List Step} (hs : s.IsAbout model)
    (h : List.Forall₂ (Step.Makes c) (taken ++ step :: later) moves) (hstep : step.Makes c move) :
    (s.run c taken).step c step =
      if move.isAccepted model then .ok (s.run c (taken ++ [step]))
      else .error (move.refusal model) := by
  have habout : (s.run c taken).IsAbout model := isAbout_run hs h (List.prefix_append _ _)
  have hnext : s.run c (taken ++ [step]) = (s.run c taken).follow c step := List.foldl_append
  rw [step_eq habout hstep, hnext, follow_eq habout hstep]
  split <;> rfl

/-! ### The last window and the last order -/

/-- A part of a search that some moves set is as the last of them sets it. -/
theorem foldl_take_eq_getLast? {α : Type} {part : Search → Option α} {of : Move → Option α}
    (h : ∀ s move, part (s.take move) = (of move).or (part s)) (moves : List Move) (s : Search) :
    part (moves.foldl take s) = (moves.filterMap of).getLast?.or (part s) := by
  induction moves using List.reverseRecOn with
  | nil => rfl
  | append_singleton moves move ih =>
    rw [List.foldl_append, List.foldl_cons, List.foldl_nil, h, ih, List.filterMap_append,
      List.getLast?_append, List.filterMap_cons]
    cases of move <;> rfl

/-- The window of a search is the last one that was set. -/
theorem window_foldl_take (moves : List Move) :
    (moves.foldl take (all model)).window = (moves.filterMap Move.window?).getLast? := by
  refine (foldl_take_eq_getLast? (fun s move => ?_) moves _).trans Option.or_none
  cases move <;> rfl

/-- The order of a search is the last one that was set. -/
theorem sort_foldl_take (moves : List Move) :
    (moves.foldl take (all model)).sort =
      (moves.filterMap Move.order?).getLast?.map fun o => (.field o.1, o.2) := by
  rw [← List.getLast?_map, List.map_filterMap]
  refine (foldl_take_eq_getLast? (fun s move => ?_) moves _).trans Option.or_none
  cases move <;> rfl

/-! ### The predicates that stand -/

/-- The predicates of a search that are still asked for: those from the last filter on, or all of
them if there is no filter. -/
def standing : List Term → List Term
  | [] => []
  | t :: later => if later.any (·.link = .filter) then standing later else t :: later

/-- Several predicates joined from left to right. -/
def joinAll : List Term → Option Predicate
  | [] => none
  | t :: later => some (later.foldl (fun earlier u => u.link.join earlier u.predicate) t.predicate)

/-- What stands is a part at the end. It starts with a filter, unless it is all that there is, and
no filter follows its start. -/
theorem standing_append {before later : List Term} {t : Term} (h : t.link = .filter ∨ before = [])
    (hlater : ∀ u ∈ later, u.link ≠ .filter) : standing (before ++ t :: later) = t :: later := by
  induction before with
  | nil =>
    rw [List.nil_append, standing, if_neg]
    simpa using hlater
  | cons u before ih =>
    have ht : t.link = .filter := h.resolve_right (List.cons_ne_nil _ _)
    rw [List.cons_append, standing, if_pos]
    · exact ih (.inl ht)
    · simp [ht]

/-- No filter follows the start of what stands. -/
theorem link_ne_filter_of_standing_eq {terms later : List Term} {t : Term}
    (h : standing terms = t :: later) : ∀ u ∈ later, u.link ≠ .filter := by
  induction terms with
  | nil => cases h
  | cons u terms ih =>
    rw [standing] at h
    split at h
    · exact ih h
    · next hnone =>
      obtain ⟨rfl, rfl⟩ := List.cons.inj h
      simpa using hnone

/-- Once there is a predicate, every further one is joined to it by its own link. -/
theorem foldl_joined_some (terms : List Term) (p : Predicate) :
    terms.foldl joined (some p) =
      some (terms.foldl (fun earlier u => u.link.join earlier u.predicate) p) := by
  induction terms generalizing p with
  | nil => rfl
  | cons t terms ih => exact ih _

/-- Where there is a filter, nothing depends on what was asked for before. -/
theorem foldl_joined_of_any {terms : List Term} (h : terms.any (·.link = .filter))
    (earlier : Option Predicate) : terms.foldl joined earlier = terms.foldl joined none := by
  induction terms generalizing earlier with
  | nil => cases h
  | cons t terms ih =>
    rw [List.foldl_cons, List.foldl_cons]
    by_cases hterms : terms.any (·.link = .filter)
    · rw [ih hterms, ih hterms (joined none t)]
    · have ht : t.link = .filter := by simpa [hterms] using h
      cases earlier with
      | none => rfl
      | some earlier => rw [joined, joined, ht, Link.join]

/-- Terms that join one after the other come to the join of those that still stand: a filter drops
what was asked for before it. -/
theorem foldl_joined_none (terms : List Term) :
    terms.foldl joined none = joinAll (standing terms) := by
  induction terms with
  | nil => rfl
  | cons t terms ih =>
    rw [List.foldl_cons, standing]
    split
    · next hfilter => rw [foldl_joined_of_any hfilter, ih]
    · exact foldl_joined_some terms t.predicate

/-- The predicate of a search joins those that stand. -/
theorem predicate_foldl_take (moves : List Move) :
    (moves.foldl take (all model)).predicate = joinAll (standing (moves.filterMap Move.term?)) := by
  rw [← foldl_joined_none, List.foldl_filterMap]
  refine (List.foldl_hom Search.predicate fun s move => ?_).symm
  cases move <;> rfl

/-! ### The text of the query -/

/-- The text of a term, with the way in which it joins the earlier ones. -/
structure IsRendered (c : Catalogue) (t : Term) (u : Link × String) : Prop where
  link_eq : u.1 = t.link
  render_eq : t.predicate.render c = .ok u.2

/-- The query of several texts joined from left to right. -/
def joinTexts : List (Link × String) → String
  | [] => "*"
  | u :: later => later.foldl (fun earlier v => v.1.joinText earlier v.2) u.2

/-- A joined predicate is rendered if both of its parts are, and then the texts are joined. -/
theorem render_join_eq_ok_iff {link : Link} (hlink : link ≠ .filter) {p q : Predicate}
    {text : String} : (link.join p q).render c = .ok text ↔
      ∃ left right, p.render c = .ok left ∧ q.render c = .ok right ∧
        link.joinText left right = text := by
  cases link with
  | filter => exact absurd rfl hlink
  | and => simp only [Link.join, Predicate.render, bind_eq_ok_iff, pure_eq_ok_iff, Link.joinText,
      exists_and_left]
  | or => simp only [Link.join, Predicate.render, bind_eq_ok_iff, pure_eq_ok_iff, Link.joinText,
      exists_and_left]

/-- Predicates that join without a filter are rendered one by one, and their texts are joined from
left to right in the same way. -/
theorem render_foldl_join_eq_ok_iff {later : List Term} (hlater : ∀ u ∈ later, u.link ≠ .filter)
    {p : Predicate} {text : String} :
    (later.foldl (fun earlier u => u.link.join earlier u.predicate) p).render c = .ok text ↔
      ∃ first rendered, p.render c = .ok first ∧ List.Forall₂ (IsRendered c) later rendered ∧
        rendered.foldl (fun earlier v => v.1.joinText earlier v.2) first = text := by
  -- on the later terms, with the join of the earlier ones as the first predicate
  induction later generalizing p with
  | nil =>
    constructor
    · intro htext
      exact ⟨text, [], htext, .nil, rfl⟩
    · rintro ⟨first, rendered, hfirst, hnil, rfl⟩
      obtain rfl := List.forall₂_nil_left_iff.mp hnil
      exact hfirst
  | cons u later ih =>
    obtain ⟨hu, hlater⟩ := List.forall_mem_cons.mp hlater
    rw [List.foldl_cons, ih hlater]
    constructor
    · rintro ⟨joined, rendered, hjoined, hrendered, rfl⟩
      obtain ⟨first, next, hfirst, hnext, rfl⟩ := (render_join_eq_ok_iff hu).mp hjoined
      exact ⟨first, (u.link, next) :: rendered, hfirst, .cons ⟨rfl, hnext⟩ hrendered, rfl⟩
    · rintro ⟨first, rendered, hfirst, hrendered, rfl⟩
      obtain ⟨⟨link, next⟩, rendered, hnext, hrest, rfl⟩ := List.forall₂_cons_left_iff.mp hrendered
      obtain rfl : link = u.link := hnext.link_eq
      exact ⟨u.link.joinText first next, rendered,
        (render_join_eq_ok_iff hu).mpr ⟨first, next, hfirst, hnext.render_eq, rfl⟩, hrest, rfl⟩

/-- The tests of predicates that join without a filter are those of each of them, in the order of
the steps. It is the order in which they are rendered. -/
theorem tests_foldl_join {later : List Term} (hlater : ∀ u ∈ later, u.link ≠ .filter)
    (p : Predicate) :
    (later.foldl (fun earlier u => u.link.join earlier u.predicate) p).tests =
      p.tests ++ later.flatMap (·.predicate.tests) := by
  induction later generalizing p with
  | nil => exact (List.append_nil _).symm
  | cons u later ih =>
    obtain ⟨hu, hlater⟩ := List.forall_mem_cons.mp hlater
    have htests : (u.link.join p u.predicate).tests = p.tests ++ u.predicate.tests := by
      cases hlink : u.link with
      | filter => exact absurd hlink hu
      | and => rfl
      | or => rfl
    rw [List.foldl_cons, ih hlater, htests, List.append_assoc, List.flatMap_cons]

variable {terms : List Term}

/-- The query of predicates that stand goes through all their tests. -/
theorem outcome_query (h : s.predicate = joinAll (standing terms)) :
    Outcome (Predicate.renderTest c) ((standing terms).flatMap (·.predicate.tests))
      (fun _ => True) (s.query c) := by
  rw [query, h]
  cases hstanding : standing terms with
  | nil => exact .pure trivial
  | cons t later =>
    rw [List.flatMap_cons, ← tests_foldl_join (link_ne_filter_of_standing_eq hstanding)]
    exact Predicate.outcome_render _

/-- The query of predicates that stand joins their texts. -/
theorem query_eq_ok_iff (h : s.predicate = joinAll (standing terms)) {text : String} :
    s.query c = .ok text ↔ ∃ rendered,
      List.Forall₂ (IsRendered c) (standing terms) rendered ∧ joinTexts rendered = text := by
  rw [query, h]
  cases hstanding : standing terms with
  | nil =>
    constructor
    · intro htext
      exact ⟨[], .nil, Except.ok.inj htext⟩
    · rintro ⟨rendered, hnil, rfl⟩
      obtain rfl := List.forall₂_nil_left_iff.mp hnil
      rfl
  | cons t later =>
    refine (render_foldl_join_eq_ok_iff (link_ne_filter_of_standing_eq hstanding)).trans ⟨?_, ?_⟩
    · rintro ⟨first, rendered, hfirst, hrendered, htext⟩
      exact ⟨(t.link, first) :: rendered, .cons ⟨rfl, hfirst⟩ hrendered, htext⟩
    · rintro ⟨rendered, hrendered, htext⟩
      obtain ⟨first, rendered, hfirst, hrest, rfl⟩ := List.forall₂_cons_left_iff.mp hrendered
      exact ⟨first.2, rendered, hfirst.render_eq, hrest, htext⟩

/-! ### The command -/

/-- The arguments for an order, by the alias of its field. -/
inductive IsOrder (c : Catalogue) : Option (FieldPath × Bool) → List Argument → Prop where
  | none : IsOrder c none []
  | some {field : FieldPath} {descending : Bool} {l : Leaf} (resolves : field.resolve c = .ok l) :
      IsOrder c (some (field, descending))
        [.text "SORTBY", .text l.queryAlias, .text (if descending then "DESC" else "ASC")]

variable {last : Option (FieldPath × Bool)} {order : List Argument} {fault : SearchFault}

/-- An order turns into arguments once its field has been looked up. -/
theorem sortArguments_some (c : Catalogue) (field : FieldPath) (descending : Bool) :
    sortArguments c (some (.field field, descending)) = field.resolve c >>= fun l =>
      pure [.text "SORTBY", .text l.queryAlias, .text (if descending then "DESC" else "ASC")] :=
  rfl

/-- The arguments of an order are found exactly when there is none, or when its field is known. -/
theorem sortArguments_eq_ok_iff :
    sortArguments c (last.map fun o => (.field o.1, o.2)) = .ok order ↔ IsOrder c last order := by
  rcases last with _ | ⟨field, descending⟩
  · constructor
    · rintro ⟨⟩
      exact .none
    · rintro ⟨⟩
      rfl
  · rw [Option.map_some, sortArguments_some, bind_eq_ok_iff]
    constructor
    · rintro ⟨l, hl, ⟨⟩⟩
      exact .some hl
    · intro horder
      cases horder with
      | some hl => exact ⟨_, hl, rfl⟩

/-- An order is refused only for a field that is not known. -/
theorem sortArguments_eq_error_iff :
    sortArguments c (last.map fun o => (.field o.1, o.2)) = .error fault ↔
      ∃ field descending, last = some (field, descending) ∧ field.resolve c = .error fault := by
  rcases last with _ | ⟨field, descending⟩
  · exact ⟨nofun, nofun⟩
  · rw [Option.map_some, sortArguments_some, bind_eq_error_iff]
    constructor
    · rintro (hfault | ⟨l, _, ⟨⟩⟩)
      exact ⟨field, descending, rfl, hfault⟩
    · rintro ⟨_, _, ⟨⟩, hfault⟩
      exact .inl hfault

/-- The command of a search succeeds where its query and its order do. -/
theorem command_eq_ok_iff {index : String} {args : List Argument} :
    s.command c index = .ok args ↔ ∃ text order, s.query c = .ok text ∧
      sortArguments c s.sort = .ok order ∧
      [.text "FT.SEARCH", .text index, .text text] ++ windowArguments s.window ++ order = args := by
  simp only [command, commandWithin, bind_eq_ok_iff, pure_eq_ok_iff, exists_and_left]

/-- The command of a search fails as its query does, or else as its order does. -/
theorem command_eq_error_iff {index : String} :
    s.command c index = .error fault ↔ s.query c = .error fault ∨
      (∃ text, s.query c = .ok text) ∧ sortArguments c s.sort = .error fault := by
  rw [command, commandWithin, bind_eq_error_iff]
  refine or_congr_right ⟨?_, ?_⟩
  · rintro ⟨text, htext, horder⟩
    obtain hfault | ⟨order, -, ⟨⟩⟩ := bind_eq_error_iff.mp horder
    exact ⟨⟨text, htext⟩, hfault⟩
  · rintro ⟨⟨text, htext⟩, hfault⟩
    exact ⟨text, htext, bind_eq_error_iff.mpr (.inl hfault)⟩

/-- A search is the fold of moves: its predicates are those that stand, and its window and its order
are the last ones. -/
structure IsFoldOf (s : Search) (moves : List Move) : Prop where
  predicate_eq : s.predicate = joinAll (standing (moves.filterMap Move.term?))
  window_eq : s.window = (moves.filterMap Move.window?).getLast?
  sort_eq : s.sort = (moves.filterMap Move.order?).getLast?.map fun o => (.field o.1, o.2)

/-- A run of steps from the search for all records comes to what its accepted steps say: predicates
that stand, the last window and the last order. -/
theorem isFoldOf_run (h : List.Forall₂ (Step.Makes c) steps moves) :
    ((all model).run c steps).IsFoldOf (moves.filter (Move.isAccepted model)) := by
  rw [(run_eq (isAbout_all model) h).1]
  exact ⟨predicate_foldl_take _, window_foldl_take _, sort_foldl_take _⟩

namespace IsFoldOf

variable (hfold : s.IsFoldOf moves)

include hfold

/-- The command of a fold has the texts of the predicates that stand, the last window and the last
order. -/
theorem command_eq_ok_iff {index : String} {args : List Argument} :
    s.command c index = .ok args ↔ ∃ rendered order,
      List.Forall₂ (IsRendered c) (standing (moves.filterMap Move.term?)) rendered ∧
      IsOrder c (moves.filterMap Move.order?).getLast? order ∧
      args = [.text "FT.SEARCH", .text index, .text (joinTexts rendered)] ++
        windowArguments (moves.filterMap Move.window?).getLast? ++ order := by
  rw [Search.command_eq_ok_iff, hfold.window_eq, hfold.sort_eq]
  constructor
  · rintro ⟨text, order, htext, horder, rfl⟩
    obtain ⟨rendered, hrendered, rfl⟩ := (query_eq_ok_iff hfold.predicate_eq).mp htext
    exact ⟨rendered, order, hrendered, sortArguments_eq_ok_iff.mp horder, rfl⟩
  · rintro ⟨rendered, order, hrendered, horder, rfl⟩
    exact ⟨_, order, (query_eq_ok_iff hfold.predicate_eq).mpr ⟨rendered, hrendered, rfl⟩,
      sortArguments_eq_ok_iff.mpr horder, rfl⟩

/-- The command of a fold fails as the leftmost test that does, or else as the field of its
order. -/
theorem command_eq_error_iff {index : String} :
    s.command c index = .error fault ↔
      FailsFirst (Predicate.renderTest c)
        ((standing (moves.filterMap Move.term?)).flatMap (·.predicate.tests)) fault ∨
      (∀ t ∈ (standing (moves.filterMap Move.term?)).flatMap (·.predicate.tests),
        ∃ text, Predicate.renderTest c t = .ok text) ∧
      ∃ field descending, (moves.filterMap Move.order?).getLast? = some (field, descending) ∧
        field.resolve c = .error fault := by
  have houtcome := outcome_query (c := c) hfold.predicate_eq
  rw [Search.command_eq_error_iff, hfold.sort_eq, sortArguments_eq_error_iff, houtcome.error_iff,
    houtcome.exists_ok_iff]

end IsFoldOf

/-- **Searches as folds.** The search that steps lead to is the fold of the accepted ones. A step is
refused if its predicate or its field belongs to another record type or if its window has a negative
number, and then it changes nothing. The command asks for the predicates that stand, joined from
left to right, with the last accepted window and the last accepted order. It fails as the leftmost
test that has no text, and if there is none as the field of the order. -/
theorem command_of_steps {type : RecordType} {home : Home} (persisted : type.lineage = .persisted)
    (hhome : type.home = some home) (h : List.Forall₂ (Step.Makes c) steps moves) :
    let start := all type.name
    let final := start.run c steps
    let accepted := moves.filter (Move.isAccepted type.name)
    let terms := standing (accepted.filterMap Move.term?)
    let window := (accepted.filterMap Move.window?).getLast?
    let last := (accepted.filterMap Move.order?).getLast?
    Service.searchOf type = .ok start ∧
    (∀ taken step later move, steps = taken ++ step :: later → step.Makes c move →
      (start.run c taken).step c step =
        if move.isAccepted type.name then .ok (start.run c (taken ++ [step]))
        else .error (move.refusal type.name)) ∧
    (∀ taken, taken <+: steps → (start.run c taken).IsAbout type.name) ∧
    (∀ before t later, accepted.filterMap Move.term? = before ++ t :: later →
      (t.link = .filter ∨ before = []) → (∀ u ∈ later, u.link ≠ .filter) → terms = t :: later) ∧
    Service.searchCommand c type final final.window =
      (final.command c home.indexName).mapError .ofSearch ∧
    (∀ args, final.command c home.indexName = .ok args ↔ ∃ rendered order,
      List.Forall₂ (IsRendered c) terms rendered ∧ IsOrder c last order ∧
      args = [.text "FT.SEARCH", .text home.indexName, .text (joinTexts rendered)] ++
        windowArguments window ++ order) ∧
    ∀ fault, final.command c home.indexName = .error fault ↔
      FailsFirst (Predicate.renderTest c) (terms.flatMap (·.predicate.tests)) fault ∨
      (∀ t ∈ terms.flatMap (·.predicate.tests), ∃ text, Predicate.renderTest c t = .ok text) ∧
        ∃ field descending, last = some (field, descending) ∧ field.resolve c = .error fault := by
  intro start final accepted terms window last
  have hstart : start.IsAbout type.name := isAbout_all type.name
  have hfold : final.IsFoldOf accepted := isFoldOf_run h
  refine ⟨?_, ?_, fun taken htaken => isAbout_run hstart h htaken, ?_, ?_,
    fun args => hfold.command_eq_ok_iff, fun fault => hfold.command_eq_error_iff⟩
  · rw [Service.searchOf, Service.requirePersisted_eq persisted]
    rfl
  · rintro taken step later move rfl hstep
    exact step_run_eq hstart h hstep
  · intro before t later hterms hlink hlater
    rw [← standing_append hlink hlater, ← hterms]
  · rw [Service.searchCommand, Service.homeOf_eq hhome]
    rfl

/-- Books with a number of pages, and authors with a year of birth. -/
def library : Catalogue :=
  (Catalogue.bases.declare
    ⟨"Book", "JsonModel", none, none, [Schema.indexedField "pages" (.scalar .int)]⟩).declare
    ⟨"Author", "JsonModel", none, none, [Schema.indexedField "born" (.scalar .int)]⟩

/-- Steps in a search for books, some of which are about authors or go back before the start. -/
def bookSteps : List Step :=
  let pages : Reference := ⟨"Book", [.item "pages"]⟩
  let born : Reference := ⟨"Author", [.item "born"]⟩
  [.or (.compare .greater pages (.int 300)), .limit 0 10,
    .filter (.compare .equal born (.int 1900)),
    .or (.compare .equal pages (.int 7)), .limit (-1) 5, .sortBy pages true, .sortBy born false]

/-- What the steps come to. -/
def bookMoves : List Move :=
  let pages : FieldPath := ⟨"Book", ["pages"]⟩
  let born : FieldPath := ⟨"Author", ["born"]⟩
  [.term ⟨.or, .test pages (.compare .greater (.int 300))⟩, .window 0 10,
    .term ⟨.filter, .test born (.compare .equal (.int 1900))⟩,
    .term ⟨.or, .test pages (.compare .equal (.int 7))⟩, .window (-1) 5, .order pages true,
    .order born false]

theorem makes_bookSteps : List.Forall₂ (Step.Makes library) bookSteps bookMoves :=
  .cons (.or rfl) (.cons .limit (.cons (.filter rfl) (.cons (.or rfl) (.cons .limit
    (.cons (.sortBy rfl) (.cons (.sortBy rfl) .nil))))))

theorem command_of_steps_library :
    (library.types[3].lineage = .persisted ∧
      List.Forall₂ (Step.Makes library) bookSteps bookMoves) ∧
    ((all "Book").run library bookSteps).command library "idx:Book" =
      .ok [.text "FT.SEARCH", .text "idx:Book", .text "(@pages:[301 +inf] | @pages:[7 7])",
        .text "LIMIT", .int 0, .int 10, .text "SORTBY", .text "pages", .text "DESC"] := by
  have hpersisted : library.types[3].lineage = .persisted := rfl
  obtain ⟨-, -, -, -, -, hcommand, -⟩ := command_of_steps hpersisted rfl makes_bookSteps
  have hrendered : List.Forall₂ (IsRendered library)
      [⟨.or, .test ⟨"Book", ["pages"]⟩ (.compare .greater (.int 300))⟩,
        ⟨.or, .test ⟨"Book", ["pages"]⟩ (.compare .equal (.int 7))⟩]
      [(.or, "@pages:[301 +inf]"), (.or, "@pages:[7 7]")] :=
    .cons ⟨rfl, rfl⟩ (.cons ⟨rfl, rfl⟩ .nil)
  have horder : IsOrder library (some (⟨"Book", ["pages"]⟩, true))
      [.text "SORTBY", .text "pages", .text "DESC"] :=
    .some (l := ⟨"pages", "pages", "$.pages", .numeric, [], true⟩) rfl
  exact ⟨⟨hpersisted, makes_bookSteps⟩, (hcommand _).mpr ⟨_, _, hrendered, horder, rfl⟩⟩

end Search

end IndexedRecords
