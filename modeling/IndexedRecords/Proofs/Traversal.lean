import Mathlib.Data.List.Forall2

/-!
# Steps that may fail

Steps that may fail are chained, and a list is traversed by such steps from left to right and up to
the first failure. A chain succeeds exactly where both of its steps do (`bind_eq_ok_iff`), and a
traversal where every step does (`mapM_eq_ok_iff`, `mapM_eq_some_iff`); the failure of a traversal
is that of one of the steps (`exists_of_mapM_eq_error`). Of several steps in a row, the leftmost one
that fails is the one whose reason is known (`FailsFirst`, `Outcome`).
-/

namespace IndexedRecords.Traversal

variable {α β ε : Type}

/-- Of two lists that correspond item by item, every item of the first has its counterpart in the
second. -/
theorem exists_of_mem_left {R : α → β → Prop} {xs : List α} {ys : List β} {x : α}
    (h : List.Forall₂ R xs ys) (hx : x ∈ xs) : ∃ y ∈ ys, R x y := by
  induction h with
  | nil => cases hx
  | @cons x' y' xs ys hxy _ ih =>
    rcases List.mem_cons.mp hx with rfl | hx
    · exact ⟨y', List.mem_cons_self, hxy⟩
    · obtain ⟨y, hy, hxy⟩ := ih hx
      exact ⟨y, List.mem_cons_of_mem _ hy, hxy⟩

/-! ### Failures with a reason -/

/-- Two steps in a row succeed if the first one does and the second one does on its result. -/
theorem bind_eq_ok_iff {x : Except ε α} {f : α → Except ε β} {b : β} :
    (x >>= f) = .ok b ↔ ∃ a, x = .ok a ∧ f a = .ok b := by
  cases x with
  | error e => exact ⟨nofun, nofun⟩
  | ok a => exact ⟨fun h => ⟨a, rfl, h⟩, fun ⟨_, ha, h⟩ => Except.ok.inj ha ▸ h⟩

/-- Two steps in a row fail if the first one fails, or if the second one fails on its result. -/
theorem bind_eq_error_iff {x : Except ε α} {f : α → Except ε β} {e : ε} :
    (x >>= f) = .error e ↔ x = .error e ∨ ∃ a, x = .ok a ∧ f a = .error e := by
  cases x with
  | error e' =>
    constructor
    · rintro ⟨⟩
      exact .inl rfl
    · rintro (⟨⟨⟩⟩ | ⟨_, ⟨⟩, _⟩)
      rfl
  | ok a =>
    refine ⟨fun h => .inr ⟨a, rfl, h⟩, ?_⟩
    rintro (⟨⟨⟩⟩ | ⟨_, ⟨⟩, h⟩)
    exact h

theorem pure_eq_ok_iff {a b : α} : (pure a : Except ε α) = .ok b ↔ a = b :=
  ⟨Except.ok.inj, fun h => h ▸ rfl⟩

/-- Giving the reason of a failure in other words does not change when a step succeeds. -/
theorem mapError_eq_ok_iff {ε' : Type} {x : Except ε α} {f : ε → ε'} {a : α} :
    x.mapError f = .ok a ↔ x = .ok a := by
  cases x <;> simp [Except.mapError]

/-- A traversal succeeds if all of its steps do, and then it has their results in the order of the
list. -/
theorem mapM_eq_ok_iff {f : α → Except ε β} {xs : List α} {ys : List β} :
    xs.mapM f = .ok ys ↔ List.Forall₂ (fun x y => f x = .ok y) xs ys := by
  induction xs generalizing ys with
  | nil => rw [List.mapM_nil, List.forall₂_nil_left_iff, pure_eq_ok_iff, eq_comm]
  | cons x xs ih =>
    simp only [List.mapM_cons, List.forall₂_cons_left_iff, bind_eq_ok_iff, pure_eq_ok_iff]
    constructor
    · rintro ⟨y, hy, us, hus, rfl⟩
      exact ⟨y, us, hy, ih.mp hus, rfl⟩
    · rintro ⟨y, us, hy, hus, rfl⟩
      exact ⟨y, hy, us, ih.mpr hus, rfl⟩

/-- A traversal whose steps all succeed has a result that can be written down. -/
theorem mapM_eq_ok_map {f : α → Except ε β} {g : α → β} {xs : List α}
    (h : ∀ x ∈ xs, f x = .ok (g x)) : xs.mapM f = .ok (xs.map g) :=
  mapM_eq_ok_iff.mpr (List.forall₂_map_right_iff.mpr (List.forall₂_same.mpr h))

/-- A traversal fails for the reason of one of its steps. It is the first step that fails, which
`FailsFirst` says. -/
theorem exists_of_mapM_eq_error {f : α → Except ε β} {xs : List α} {e : ε}
    (h : xs.mapM f = .error e) : ∃ x ∈ xs, f x = .error e := by
  induction xs with
  | nil => cases h
  | cons x xs ih =>
    simp only [List.mapM_cons, bind_eq_error_iff] at h
    rcases h with hx | ⟨y, _, hxs | ⟨ys, _, ⟨⟩⟩⟩
    · exact ⟨x, List.mem_cons_self, hx⟩
    · obtain ⟨x', hx', he⟩ := ih hxs
      exact ⟨x', List.mem_cons_of_mem _ hx', he⟩

/-- A traversal only depends on the steps at the items of the list. -/
theorem mapM_congr {m : Type → Type} [Monad m] [LawfulMonad m] {f g : α → m β} {xs : List α}
    (h : ∀ x ∈ xs, f x = g x) : xs.mapM f = xs.mapM g := by
  induction xs with
  | nil => rfl
  | cons x xs ih =>
    rw [List.mapM_cons, List.mapM_cons, h x List.mem_cons_self,
      ih fun y hy => h y (List.mem_cons_of_mem _ hy)]

/-! ### The first failure -/

/-- The leftmost step that fails, of those at the items of a list, fails for a given reason. -/
def FailsFirst (f : α → Except ε β) (xs : List α) (e : ε) : Prop :=
  ∃ before x after, xs = before ++ x :: after ∧ (∀ y ∈ before, ∃ b, f y = .ok b) ∧ f x = .error e

section FailsFirst

variable {f : α → Except ε β} {xs ys : List α} {e : ε}

/-- Without steps there is no failure. -/
theorem not_failsFirst_nil : ¬ FailsFirst f [] e := by
  rintro ⟨before, x, after, hnil, -⟩
  simp at hnil

/-- The first failure is that of the first step or, after it has succeeded, that of a later one. -/
theorem failsFirst_cons {x : α} :
    FailsFirst f (x :: xs) e ↔ f x = .error e ∨ (∃ b, f x = .ok b) ∧ FailsFirst f xs e := by
  constructor
  · rintro ⟨before, y, after, hxs, hbefore, hy⟩
    rcases before with _ | ⟨z, before⟩
    · obtain ⟨rfl, -⟩ := List.cons.inj hxs
      exact .inl hy
    · obtain ⟨rfl, rfl⟩ := List.cons.inj hxs
      exact .inr ⟨hbefore x List.mem_cons_self, before, y, after, rfl,
        fun z hz => hbefore z (List.mem_cons_of_mem _ hz), hy⟩
  · rintro (hx | ⟨hx, before, y, after, rfl, hbefore, hy⟩)
    · exact ⟨[], x, xs, rfl, nofun, hx⟩
    · exact ⟨x :: before, y, after, rfl, List.forall_mem_cons.mpr ⟨hx, hbefore⟩, hy⟩

/-- A single step fails for its own reason. -/
theorem failsFirst_singleton {x : α} : FailsFirst f [x] e ↔ f x = .error e := by
  rw [failsFirst_cons, or_iff_left]
  exact fun h => not_failsFirst_nil h.2

/-- The first failure stays the first one, whatever steps come after it. -/
theorem FailsFirst.append_left (h : FailsFirst f xs e) (ys : List α) :
    FailsFirst f (xs ++ ys) e := by
  obtain ⟨before, x, after, rfl, hbefore, hx⟩ := h
  exact ⟨before, x, after ++ ys, by rw [List.append_assoc, List.cons_append], hbefore, hx⟩

/-- The first failure stays the first one behind steps that succeed. -/
theorem FailsFirst.append_right (h : FailsFirst f ys e) (hxs : ∀ x ∈ xs, ∃ b, f x = .ok b) :
    FailsFirst f (xs ++ ys) e := by
  obtain ⟨before, y, after, rfl, hbefore, hy⟩ := h
  refine ⟨xs ++ before, y, after, by rw [List.append_assoc], ?_, hy⟩
  intro x hx
  rcases List.mem_append.mp hx with hx | hx
  · exact hxs x hx
  · exact hbefore x hx

/-- Where one step fails, not all succeed. -/
theorem FailsFirst.not_forall (h : FailsFirst f xs e) : ¬ ∀ x ∈ xs, ∃ b, f x = .ok b := by
  obtain ⟨before, x, after, rfl, -, hx⟩ := h
  intro hall
  obtain ⟨b, hb⟩ := hall x (List.mem_append_right _ List.mem_cons_self)
  rw [hx] at hb
  cases hb

/-- There is one reason for the first failure. -/
theorem FailsFirst.unique {e' : ε} (h : FailsFirst f xs e) (h' : FailsFirst f xs e') : e = e' := by
  induction xs with
  | nil => exact absurd h not_failsFirst_nil
  | cons x xs ih =>
    rw [failsFirst_cons] at h h'
    rcases h with hx | ⟨⟨b, hx⟩, hxs⟩ <;> rcases h' with hx' | ⟨⟨b', hx'⟩, hxs'⟩
    · exact Except.error.inj (hx.symm.trans hx')
    · exact nomatch hx.symm.trans hx'
    · exact nomatch hx.symm.trans hx'
    · exact ih hxs hxs'

end FailsFirst

/-- What steps that may fail come to, judged by a list of checks: they have a result of some kind
where all of the checks succeed, and else they fail as the leftmost check that does. -/
inductive Outcome {γ δ : Type} (check : γ → Except ε δ) (xs : List γ) (P : α → Prop) :
    Except ε α → Prop where
  | ok {a : α} (all : ∀ x ∈ xs, ∃ b, check x = .ok b) (result : P a) : Outcome check xs P (.ok a)
  | error {e : ε} (first : FailsFirst check xs e) : Outcome check xs P (.error e)

namespace Outcome

variable {γ δ : Type} {check : γ → Except ε δ} {xs ys : List γ} {P : α → Prop} {Q : β → Prop}

/-- A value at hand needs no checks. -/
theorem pure {a : α} (h : P a) : Outcome check [] P (.ok a) := .ok nofun h

/-- A check is judged by itself, and its result is what it returns. -/
theorem single (x : γ) : Outcome check [x] (fun b => check x = .ok b) (check x) := by
  cases hx : check x with
  | ok b => exact .ok (List.forall_mem_singleton.mpr ⟨b, hx⟩) rfl
  | error e => exact .error (failsFirst_singleton.mpr hx)

/-- A result of one kind is a result of any kind that is implied by it. -/
theorem mono {P' : α → Prop} {x : Except ε α} (hx : Outcome check xs P x)
    (h : ∀ a, P a → P' a) : Outcome check xs P' x := by
  cases hx with
  | ok all result => exact .ok all (h _ result)
  | error first => exact .error first

/-- The checks of the first step come before those of what follows it. -/
theorem bind {x : Except ε α} {f : α → Except ε β} (hx : Outcome check xs P x)
    (hf : ∀ a, P a → Outcome check ys Q (f a)) : Outcome check (xs ++ ys) Q (x >>= f) := by
  cases hx with
  | error first => exact .error (first.append_left ys)
  | @ok a all result =>
    change Outcome check (xs ++ ys) Q (f a)
    have hnext := hf a result
    generalize f a = y at hnext ⊢
    cases hnext with
    | ok all' result' => exact .ok (List.forall_mem_append.mpr ⟨all, all'⟩) result'
    | error first => exact .error (first.append_right all)

/-- A result may be turned into another one: no check comes with that. -/
theorem map {x : Except ε α} {f : α → β} (hx : Outcome check xs P x) (hf : ∀ a, P a → Q (f a)) :
    Outcome check xs Q (x >>= fun a => Except.ok (f a)) := by
  have h : Outcome check (xs ++ []) Q (x >>= fun a => Except.ok (f a)) :=
    hx.bind fun a ha => .pure (hf a ha)
  rwa [List.append_nil] at h

/-- There is a result exactly where all checks succeed. -/
theorem exists_ok_iff {x : Except ε α} (h : Outcome check xs P x) :
    (∃ a, x = .ok a) ↔ ∀ y ∈ xs, ∃ b, check y = .ok b := by
  cases h with
  | ok all _ => exact iff_of_true ⟨_, rfl⟩ all
  | error first => exact iff_of_false nofun first.not_forall

/-- There is a failure exactly where a check fails, and it is the one of the leftmost such check. -/
theorem error_iff {x : Except ε α} (h : Outcome check xs P x) {e : ε} :
    x = .error e ↔ FailsFirst check xs e := by
  cases h with
  | ok all _ => exact iff_of_false nofun fun first => first.not_forall all
  | error first =>
    constructor
    · rintro ⟨⟩
      exact first
    · intro hfirst
      rw [first.unique hfirst]

/-- A result that has been returned is one of the kind that was promised. -/
theorem result_of_ok {a : α} (h : Outcome check xs P (.ok a)) : P a := by
  cases h with
  | ok _ result => exact result

end Outcome

/-! ### Failures without a reason -/

/-- A traversal by steps that fail without a reason succeeds if all of its steps do. -/
theorem mapM_eq_some_iff {f : α → Option β} {xs : List α} {ys : List β} :
    xs.mapM f = some ys ↔ List.Forall₂ (fun x y => f x = some y) xs ys := by
  induction xs generalizing ys with
  | nil =>
    rw [List.mapM_nil, List.forall₂_nil_left_iff]
    exact ⟨fun h => (Option.some.inj h).symm, fun h => h ▸ rfl⟩
  | cons x xs ih =>
    simp only [List.mapM_cons, List.forall₂_cons_left_iff, Option.bind_eq_bind,
      Option.bind_eq_some_iff, Option.pure_def, Option.some.injEq]
    constructor
    · rintro ⟨y, hy, us, hus, rfl⟩
      exact ⟨y, us, hy, ih.mp hus, rfl⟩
    · rintro ⟨y, us, hy, hus, rfl⟩
      exact ⟨y, hy, us, ih.mpr hus, rfl⟩

end IndexedRecords.Traversal
