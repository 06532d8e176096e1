import IndexedRecords.Proofs.Schema.Nesting
import IndexedRecords.Proofs.Traversal
import IndexedRecords.Search.Expression

/-!
# Faults that are deferred

Building a predicate looks nothing up in a schema. It can be refused in two kinds of places only,
the checkpoints of an expression: a membership needs options, and both sides of a combination have
to be about one record type. Everything else that can be wrong with a test is left to rendering.
Both stop at the first fault on their way, which is that of the leftmost checkpoint or test that
fails.

## Main statements

* `Predicate.outcome_render`: rendering goes through the tests of a predicate one by one.
* `Expression.outcome_build`: building goes through the checkpoints of an expression one by one.
* `Expression.faults_of_build_render`: both together, where all references lead to fields.
-/

namespace IndexedRecords

open Traversal

variable {c : Catalogue} {p q : Predicate}

/-! ### Rendering -/

namespace Predicate

/-- The tests of a predicate, from left to right. -/
def tests : Predicate → List (FieldPath × FieldTest)
  | .test field t => [(field, t)]
  | .both l r => tests l ++ tests r
  | .either l r => tests l ++ tests r
  | .negation p => tests p

/-- The text of a test on its own. -/
def renderTest (c : Catalogue) (t : FieldPath × FieldTest) : Except SearchFault String :=
  (Predicate.test t.1 t.2).render c

/-- **Rendering.** The text of a predicate fails as the leftmost of its tests that does. -/
theorem outcome_render (p : Predicate) :
    Outcome (renderTest c) p.tests (fun _ => True) (p.render c) := by
  -- a combination adds nothing that could fail to its sides, which are rendered in their order
  induction p with
  | test field t =>
    have hsingle : Outcome (renderTest c) [(field, t)] _ (renderTest c (field, t)) :=
      Outcome.single _
    exact hsingle.mono fun _ _ => trivial
  | both l r ihl ihr =>
    exact ihl.bind fun left _ =>
      ihr.map (f := fun right => "(" ++ left ++ " " ++ right ++ ")") fun _ _ => trivial
  | either l r ihl ihr =>
    exact ihl.bind fun left _ =>
      ihr.map (f := fun right => "(" ++ left ++ " | " ++ right ++ ")") fun _ _ => trivial
  | negation p ih => exact ih.map (f := fun inner => "(-" ++ inner ++ ")") fun _ _ => trivial

end Predicate

/-! ### Checkpoints -/

/-- A place where building an expression can be refused. -/
inductive Checkpoint where
  /-- a membership of a field in the items of a value -/
  | membership (field : FieldPath) (options : Value)
  /-- a combination of predicates about two record types -/
  | combination (left right : String)

/-- Whether a checkpoint is passed: a value needs items, and the record types have to be one. -/
def Checkpoint.check : Checkpoint → Except SearchFault Unit
  | .membership field options =>
    match options.items with
    | .error fault => .error (.value fault)
    | .ok [] => .error (.noOptions field.name)
    | .ok (_ :: _) => .ok ()
  | .combination left right => if right = left then .ok () else .error (.otherModel left right)

/-- The field that a reference leads to, if it leads to one. -/
def Reference.path (c : Catalogue) (ref : Reference) : FieldPath :=
  match ref.field c with
  | .ok path => path
  | .error _ => ⟨ref.model, []⟩

theorem Reference.path_eq {ref : Reference} {path : FieldPath} (h : ref.field c = .ok path) :
    ref.path c = path := by
  rw [Reference.path, h]

namespace Expression

/-- All references of an expression lead to fields, all its units are known, and it has no
combination of nothing. -/
inductive IsGrounded (c : Catalogue) : Expression → Prop where
  | compare {op : Comparison} {ref : Reference} {operand : Value} {path : FieldPath}
      (leads : ref.field c = .ok path) : IsGrounded c (.compare op ref operand)
  | between {ref : Reference} {low high : Value} {path : FieldPath}
      (leads : ref.field c = .ok path) : IsGrounded c (.between ref low high)
  | oneOf {ref : Reference} {options : Value} {path : FieldPath}
      (leads : ref.field c = .ok path) : IsGrounded c (.oneOf ref options)
  | within {ref : Reference} {longitude latitude radius : Value} {word : String} {unit : GeoUnit}
      {path : FieldPath} (leads : ref.field c = .ok path)
      (known : GeoUnit.ofWord? word = some unit) :
      IsGrounded c (.within ref longitude latitude radius word)
  | both {l r : Expression} (left : IsGrounded c l) (right : IsGrounded c r) :
      IsGrounded c (.both l r)
  | either {l r : Expression} (left : IsGrounded c l) (right : IsGrounded c r) :
      IsGrounded c (.either l r)
  | negation {e : Expression} (inner : IsGrounded c e) : IsGrounded c (.negation e)
  | all {es : List Expression} (nonempty : es ≠ []) (each : ∀ e ∈ es, IsGrounded c e) :
      IsGrounded c (.all es)
  | any {es : List Expression} (nonempty : es ≠ []) (each : ∀ e ∈ es, IsGrounded c e) :
      IsGrounded c (.any es)

mutual

/-- The record type that an expression is about: that of its leftmost reference. -/
def model (c : Catalogue) : Expression → String
  | .compare _ ref _ => (ref.path c).model
  | .between ref _ _ => (ref.path c).model
  | .oneOf ref _ => (ref.path c).model
  | .within ref _ _ _ _ => (ref.path c).model
  | .both l _ => model c l
  | .either l _ => model c l
  | .negation e => model c e
  | .all es => modelOfFirst c es
  | .any es => modelOfFirst c es

/-- The record type that the first of several expressions is about. -/
def modelOfFirst (c : Catalogue) : List Expression → String
  | [] => ""
  | e :: _ => model c e

end

mutual

/-- The tests of an expression, from left to right. -/
def tests (c : Catalogue) : Expression → List (FieldPath × FieldTest)
  | .compare op ref operand => [(ref.path c, .compare op operand)]
  | .between ref low high => [(ref.path c, .between low high)]
  | .oneOf ref options => options.items?.toList.map fun items => (ref.path c, .oneOf items)
  | .within ref longitude latitude radius word =>
    (GeoUnit.ofWord? word).toList.map fun unit =>
      (ref.path c, .within longitude latitude radius unit)
  | .both l r => tests c l ++ tests c r
  | .either l r => tests c l ++ tests c r
  | .negation e => tests c e
  | .all es => testsOfAll c es
  | .any es => testsOfAll c es

/-- The tests of several expressions, from left to right. -/
def testsOfAll (c : Catalogue) : List Expression → List (FieldPath × FieldTest)
  | [] => []
  | e :: es => tests c e ++ testsOfAll c es

end

/-- The combinations of the first of several expressions with the others. -/
def combinations (c : Catalogue) (es : List Expression) : List Checkpoint :=
  es.tail.map fun e => .combination (modelOfFirst c es) (model c e)

mutual

/-- The checkpoints of an expression in the order of its construction: those of its parts from left
to right, and then its own. -/
def checkpoints (c : Catalogue) : Expression → List Checkpoint
  | .compare _ _ _ => []
  | .between _ _ _ => []
  | .oneOf ref options => [.membership (ref.path c) options]
  | .within _ _ _ _ _ => []
  | .both l r => checkpoints c l ++ (checkpoints c r ++ [.combination (model c l) (model c r)])
  | .either l r => checkpoints c l ++ (checkpoints c r ++ [.combination (model c l) (model c r)])
  | .negation e => checkpoints c e
  | .all es => checkpointsOfAll c es ++ combinations c es
  | .any es => checkpointsOfAll c es ++ combinations c es

/-- The checkpoints of several expressions, from left to right. -/
def checkpointsOfAll (c : Catalogue) : List Expression → List Checkpoint
  | [] => []
  | e :: es => checkpoints c e ++ checkpointsOfAll c es

end

/-- A predicate is what an expression asks for: it is about the same record type and has the same
tests in the same order. -/
structure IsBuiltAs (c : Catalogue) (e : Expression) (p : Predicate) : Prop where
  model_eq : p.model = e.model c
  tests_eq : p.tests = e.tests c

end Expression

/-! ### Combinations -/

namespace Predicate

/-- A way to combine two predicates: refused where the predicates are about two record types, it
gives a predicate that is about the first of them and has the tests of both. -/
def IsCombination (combine : Predicate → Predicate → Except SearchFault Predicate) : Prop :=
  ∀ p q, Outcome Checkpoint.check [.combination p.model q.model]
    (fun r => r.model = p.model ∧ r.tests = p.tests ++ q.tests) (combine p q)

theorem isCombination_and : IsCombination Predicate.and := by
  intro p q
  have hcheck : p.and q =
      Checkpoint.check (.combination p.model q.model) >>= fun _ => .ok (.both p q) := rfl
  rw [hcheck]
  exact (Outcome.single _).map fun _ _ => ⟨rfl, rfl⟩

theorem isCombination_or : IsCombination Predicate.or := by
  intro p q
  have hcheck : p.or q =
      Checkpoint.check (.combination p.model q.model) >>= fun _ => .ok (.either p q) := rfl
  rw [hcheck]
  exact (Outcome.single _).map fun _ _ => ⟨rfl, rfl⟩

/-- Predicates are combined from left to right, and all of them have to be about the record type of
the first one. -/
theorem IsCombination.outcome_foldlM
    {combine : Predicate → Predicate → Except SearchFault Predicate}
    (h : IsCombination combine) (first : Predicate) (others : List Predicate) :
    Outcome Checkpoint.check (others.map fun q => .combination first.model q.model)
      (fun r => r.model = first.model ∧ r.tests = first.tests ++ others.flatMap tests)
      (others.foldlM combine first) := by
  induction others generalizing first with
  | nil => exact .pure ⟨rfl, (List.append_nil _).symm⟩
  | cons q others ih =>
    rw [List.foldlM_cons]
    refine (h first q).bind fun next hnext => ?_
    rw [← hnext.1]
    refine (ih next).mono fun r hr => ⟨hr.1, ?_⟩
    rw [hr.2, hnext.2, List.append_assoc, List.flatMap_cons]

end Predicate

/-! ### Building -/

namespace Expression

variable {e l r : Expression} {es : List Expression} {ref : Reference} {path : FieldPath}
  {combine : Predicate → Predicate → Except SearchFault Predicate}

/-- A single test is built of the field that a reference leads to. -/
theorem outcome_test (leads : ref.field c = .ok path) {t : FieldTest}
    (hmodel : e.model c = (ref.path c).model) (htests : e.tests c = [(ref.path c, t)]) :
    Outcome Checkpoint.check [] (IsBuiltAs c e) (.ok (.test path t)) := by
  rw [Reference.path_eq leads] at hmodel htests
  exact .pure ⟨hmodel.symm, htests.symm⟩

/-- A membership is refused where its checkpoint is. -/
theorem outcome_isOneOf (leads : ref.field c = .ok path) (options : Value) :
    Outcome Checkpoint.check [.membership path options] (IsBuiltAs c (.oneOf ref options))
      (Predicate.isOneOf path options) := by
  have hcheck : Predicate.isOneOf path options =
      Checkpoint.check (.membership path options) >>= fun _ =>
        .ok (.test path (.oneOf (options.items?.getD []))) := by
    rw [Predicate.isOneOf, Checkpoint.check, Value.items]
    rcases options.items? with _ | _ | ⟨item, items⟩ <;> rfl
  rw [hcheck]
  refine (Outcome.single _).map fun _ hpassed => ?_
  -- a passed checkpoint has found items, which are those of the only test
  rw [Checkpoint.check, Value.items] at hpassed
  rcases hitems : options.items? with _ | items
  · rw [hitems] at hpassed
    cases hpassed
  · constructor
    · rw [model, Reference.path_eq leads, Predicate.model]
    · rw [tests, Reference.path_eq leads, hitems]
      rfl

theorem outcome_buildAll
    (h : ∀ e ∈ es, Outcome Checkpoint.check (e.checkpoints c) (IsBuiltAs c e) (e.build c)) :
    Outcome Checkpoint.check (checkpointsOfAll c es) (List.Forall₂ (IsBuiltAs c) es)
      (buildAll c es) := by
  induction es with
  | nil =>
    rw [checkpointsOfAll, buildAll]
    exact .pure .nil
  | cons e es ih =>
    obtain ⟨he, hes⟩ := List.forall_mem_cons.mp h
    rw [checkpointsOfAll, buildAll]
    exact he.bind fun p hp => (ih hes).map fun ps hps => .cons hp hps

/-- Expressions that are built one by one have the record types and the tests of what is built. -/
theorem flatMap_tests_of_forall₂ {ps : List Predicate} (h : List.Forall₂ (IsBuiltAs c) es ps) :
    ps.flatMap Predicate.tests = testsOfAll c es := by
  induction h with
  | nil => rfl
  | cons hp _ ih => rw [List.flatMap_cons, testsOfAll, hp.tests_eq, ih]

theorem map_model_of_forall₂ {ps : List Predicate} (h : List.Forall₂ (IsBuiltAs c) es ps) :
    ps.map Predicate.model = es.map (model c) := by
  induction h with
  | nil => rfl
  | cons hp _ ih => rw [List.map_cons, List.map_cons, hp.model_eq, ih]

/-- Two expressions that are built are combined as their predicates are. -/
theorem IsBuiltAs.outcome_combine (hcombine : Predicate.IsCombination combine)
    (hl : IsBuiltAs c l p) (hr : IsBuiltAs c r q) (hmodel : e.model c = l.model c)
    (htests : e.tests c = l.tests c ++ r.tests c) :
    Outcome Checkpoint.check [.combination (l.model c) (r.model c)] (IsBuiltAs c e)
      (combine p q) := by
  rw [← hl.model_eq, ← hr.model_eq]
  refine (hcombine p q).mono fun s hs => ⟨?_, ?_⟩
  · rw [hs.1, hl.model_eq, hmodel]
  · rw [hs.2, hl.tests_eq, hr.tests_eq, htests]

/-- Several expressions that are built are combined as their predicates are. -/
theorem outcome_foldlM_of_forall₂ (hcombine : Predicate.IsCombination combine)
    {first : Predicate} {others : List Predicate}
    (h : List.Forall₂ (IsBuiltAs c) es (first :: others)) (hmodel : e.model c = modelOfFirst c es)
    (htests : e.tests c = testsOfAll c es) :
    Outcome Checkpoint.check (combinations c es) (IsBuiltAs c e)
      (others.foldlM combine first) := by
  obtain ⟨e', es, hfirst, hothers, rfl⟩ := List.forall₂_cons_right_iff.mp h
  have hcombinations : combinations c (e' :: es) =
      others.map fun q => .combination first.model q.model := by
    have hmap := congrArg (List.map (Checkpoint.combination first.model))
      (map_model_of_forall₂ hothers)
    rw [List.map_map, List.map_map, hfirst.model_eq] at hmap
    rw [hfirst.model_eq]
    exact hmap.symm
  rw [hcombinations]
  refine (hcombine.outcome_foldlM first others).mono fun s hs => ⟨?_, ?_⟩
  · rw [hs.1, hfirst.model_eq, hmodel, modelOfFirst]
  · rw [hs.2, hfirst.tests_eq, flatMap_tests_of_forall₂ hothers, htests, testsOfAll]

/-- **Building.** An expression fails to be built as the leftmost of its checkpoints that is not
passed. -/
theorem outcome_build (h : e.IsGrounded c) :
    Outcome Checkpoint.check (e.checkpoints c) (IsBuiltAs c e) (e.build c) := by
  induction h with
  | compare leads =>
    rw [build, leads, checkpoints]
    exact outcome_test leads (by rw [model]) (by rw [tests])
  | between leads =>
    rw [build, leads, checkpoints]
    exact outcome_test leads (by rw [model]) (by rw [tests])
  | @oneOf ref options path leads =>
    rw [build, leads, checkpoints, Reference.path_eq leads]
    exact outcome_isOneOf leads options
  | @within ref longitude latitude radius word unit path leads known =>
    rw [build, leads, checkpoints]
    dsimp only [Bind.bind, Except.bind]
    rw [known]
    refine outcome_test leads (by rw [model]) ?_
    rw [tests, known]
    rfl
  -- the left part is built first, so its checkpoints come before those of the right one
  | both _ _ ihl ihr =>
    rw [build, checkpoints]
    refine ihl.bind fun p hp => ihr.bind fun q hq => ?_
    exact hp.outcome_combine Predicate.isCombination_and hq (by rw [model]) (by rw [tests])
  | either _ _ ihl ihr =>
    rw [build, checkpoints]
    refine ihl.bind fun p hp => ihr.bind fun q hq => ?_
    exact hp.outcome_combine Predicate.isCombination_or hq (by rw [model]) (by rw [tests])
  | negation _ ih =>
    rw [build, checkpoints]
    refine ih.map fun p hp => ⟨?_, ?_⟩
    · rw [model, ← hp.model_eq, Predicate.model]
    · rw [tests, ← hp.tests_eq, Predicate.tests]
  | all nonempty _ ih =>
    rw [build, checkpoints]
    refine (outcome_buildAll ih).bind fun ps hps => ?_
    rcases ps with _ | ⟨first, others⟩
    · exact absurd (List.forall₂_nil_right_iff.mp hps) nonempty
    · exact outcome_foldlM_of_forall₂ Predicate.isCombination_and hps (by rw [model])
        (by rw [tests])
  | any nonempty _ ih =>
    rw [build, checkpoints]
    refine (outcome_buildAll ih).bind fun ps hps => ?_
    rcases ps with _ | ⟨first, others⟩
    · exact absurd (List.forall₂_nil_right_iff.mp hps) nonempty
    · exact outcome_foldlM_of_forall₂ Predicate.isCombination_or hps (by rw [model]) (by rw [tests])

/-- **Deferred faults.** Where all references lead to fields, building fails as the leftmost
checkpoint that is not passed, and asks no schema. What is built has the tests of the expression,
and its rendering fails as the leftmost of these tests that has no text on its own. -/
theorem faults_of_build_render (h : e.IsGrounded c) :
    ((∃ p, e.build c = .ok p) ↔ ∀ place ∈ e.checkpoints c, place.check = .ok ()) ∧
    (∀ fault, e.build c = .error fault ↔ FailsFirst Checkpoint.check (e.checkpoints c) fault) ∧
    ∀ p, e.build c = .ok p →
      p.model = e.model c ∧ p.tests = e.tests c ∧
      ((∃ text, p.render c = .ok text) ↔
        ∀ t ∈ e.tests c, ∃ text, Predicate.renderTest c t = .ok text) ∧
      ∀ fault, p.render c = .error fault ↔
        FailsFirst (Predicate.renderTest c) (e.tests c) fault := by
  have hbuild := outcome_build h
  refine ⟨?_, fun fault => hbuild.error_iff, fun p hp => ?_⟩
  · have hunit (place : Checkpoint) : (∃ passed, place.check = .ok passed) ↔ place.check = .ok () :=
      ⟨fun ⟨_, hpassed⟩ => hpassed, fun hpassed => ⟨(), hpassed⟩⟩
    rw [hbuild.exists_ok_iff]
    exact forall₂_congr fun place _ => hunit place
  · rw [hp] at hbuild
    obtain ⟨hmodel, htests⟩ := hbuild.result_of_ok
    have hrender := Predicate.outcome_render (c := c) p
    rw [htests] at hrender
    exact ⟨hmodel, htests, hrender.exists_ok_iff, fun fault => hrender.error_iff⟩

/-- Persons with managers, who are persons as well, so that their schema has a cycle. -/
def staff : Catalogue :=
  Catalogue.bases.declare ⟨"Person", "JsonModel", none, none,
    [Schema.indexedField "age" (.scalar .int),
      Schema.indexedField "manager" (.optional (.record "Person"))]⟩

/-- Persons above an age. -/
def seniors : Expression := .compare .greater ⟨"Person", [.dot "age"]⟩ (.int 40)

/-- Persons whose manager has one of no ages. -/
def nobody : Expression := .oneOf ⟨"Person", [.dot "manager", .item "age"]⟩ (.list [])

theorem field_seniors : (⟨"Person", [.dot "age"]⟩ : Reference).field staff =
    .ok ⟨"Person", ["age"]⟩ := by
  decide +kernel

theorem field_nobody : (⟨"Person", [.dot "manager", .item "age"]⟩ : Reference).field staff =
    .ok ⟨"Person", ["manager", "age"]⟩ := by
  decide +kernel

theorem isGrounded_seniors : seniors.IsGrounded staff := .compare field_seniors

theorem isGrounded_nobody : nobody.IsGrounded staff := .oneOf field_nobody

/-- The schema of persons is refused when a predicate about them is rendered, not when it is built;
the membership is refused at once. -/
theorem faults_of_build_render_staff :
    ((Expression.both seniors nobody).IsGrounded staff ∧
      (Expression.both seniors nobody).build staff = .error (.noOptions "manager.age")) ∧
    ((Expression.negation seniors).IsGrounded staff ∧
      ∃ p, (Expression.negation seniors).build staff = .ok p ∧
        p.render staff = .error (.schema (.cyclic ["Person", "Person"]))) := by
  refine ⟨⟨.both isGrounded_seniors isGrounded_nobody, ?_⟩, .negation isGrounded_seniors, ?_⟩
  · refine ((faults_of_build_render (.both isGrounded_seniors isGrounded_nobody)).2.1 _).mpr ?_
    refine ⟨[], .membership _ (.list []), [.combination _ _], rfl, nofun, ?_⟩
    rw [Reference.path_eq field_nobody]
    rfl
  · obtain ⟨hbuilt, -, hrender⟩ := faults_of_build_render (.negation isGrounded_seniors)
    obtain ⟨p, hp⟩ := hbuilt.mpr nofun
    have hcyclic : Predicate.renderTest staff
        (Reference.path staff ⟨"Person", [.dot "age"]⟩, .compare .greater (.int 40)) =
          .error (.schema (.cyclic ["Person", "Person"])) := by
      rw [Reference.path_eq field_seniors]
      rfl
    exact ⟨p, hp, ((hrender p hp).2.2.2 _).mpr (failsFirst_singleton.mpr hcyclic)⟩

end Expression

end IndexedRecords
