import IndexedRecords.Proofs.Record.Reading

/-!
# Readings that end with faults

A reading that fails has problems, which are collected, or a fault, which ends everything at once.
Whether a reading ends with a fault does not depend on its progress (`FaultsIff`), and each way to
build a reading has its lemma: side by side, any fault counts; in a union, only one that comes
before an exact match of something that is no record. So exact matches have to be followed along
(`FreshIff`): a reading leaves its progress fresh in the same cases whatever identifiers it makes.

## Main statements

* `BreaksIff.all`: readings side by side.
* `FaultsIff.bestOf`, `FreshIff.bestOf`: readings among which a union chooses.
-/

namespace IndexedRecords.Record

open Reading

variable {α β γ : Type} {r : Reading α} {s : Reading β} {f : α → Reading β} {p q : Progress}

/-! ### Items before others -/

/-- An item of one kind stands before all items of another kind. -/
def ComesFirst (P Q : γ → Prop) (xs : List γ) : Prop :=
  ∃ before x after, xs = before ++ x :: after ∧ P x ∧ ∀ y ∈ before, ¬ Q y

theorem not_comesFirst_nil {P Q : γ → Prop} : ¬ ComesFirst P Q [] := by
  rintro ⟨before, x, after, hnil, -⟩
  simp at hnil

/-- The first item either is one of the first kind, or it is none of the second kind and does not
matter. -/
theorem comesFirst_cons {P Q : γ → Prop} {x : γ} {xs : List γ} :
    ComesFirst P Q (x :: xs) ↔ P x ∨ ¬ Q x ∧ ComesFirst P Q xs := by
  constructor
  · rintro ⟨before, y, after, hxs, hy, hbefore⟩
    rcases before with _ | ⟨z, before⟩
    · obtain ⟨rfl, -⟩ := List.cons.inj hxs
      exact .inl hy
    · obtain ⟨rfl, rfl⟩ := List.cons.inj hxs
      obtain ⟨hx, hbefore⟩ := List.forall_mem_cons.mp hbefore
      exact .inr ⟨hx, before, y, after, rfl, hy, hbefore⟩
  · rintro (hx | ⟨hx, before, y, after, rfl, hy, hbefore⟩)
    · exact ⟨[], x, xs, rfl, hx, nofun⟩
    · exact ⟨x :: before, y, after, rfl, hy, List.forall_mem_cons.mpr ⟨hx, hbefore⟩⟩

/-! ### Runs of readings -/

/-- After a step that succeeds, the next one starts with its result and with the progress it has
made. -/
theorem bind_apply_ok {a : α} (h : r p = (.ok a, q)) : (r >>= f) p = f a q := by
  change ExceptT.bindCont f (r p).1 (r p).2 = f a q
  rw [h]
  rfl

theorem bind_apply_error {e : Rejection} (h : r p = (.error e, q)) :
    (r >>= f) p = (.error e, q) := by
  change ExceptT.bindCont f (r p).1 (r p).2 = (.error e, q)
  rw [h]
  rfl

/-- Readings side by side are read in turn. -/
theorem all_cons (r : Reading α) (rs : List (Reading α)) :
    all (r :: rs) = (do
      let (a, as) ← both r (all rs)
      return a :: as) := by
  funext p
  rw [all]
  rcases hp : both r (all rs) p with ⟨_ | ⟨a, as⟩, q⟩
  · rw [bind_apply_error hp]
    simp only [hp]
  · rw [bind_apply_ok hp]
    simp only [hp]
    rfl

/-! ### Faults -/

/-- The faults of a part of a point that is no number. -/
inductive IsFloatFault : ValueFault → Prop where
  | kind (kind : String) : IsFloatFault (.notAFloat kind)
  | large : IsFloatFault .tooLargeForFloat

/-- The faults of values that are given in parts: of a part of a point that is no number, and of a
part of a decimal that is no sign, no exponent or name in the place of one, and no digits. -/
inductive IsPartFault : ValueFault → Prop where
  | float {fault : ValueFault} (h : IsFloatFault fault) : IsPartFault fault
  | sign : IsPartFault .malformedSign
  | exponent : IsPartFault .malformedExponent
  | special : IsPartFault .malformedSpecial
  | digits : IsPartFault .malformedDigits
  | word (word : String) : IsPartFault (.tooLargeForWord word)

/-- A reading ends with a fault in some cases and not in others, whatever progress there has
been. -/
structure FaultsIff (r : Reading α) (broken : Prop) : Prop where
  isPartFault : ∀ p fault, (r p).1 = .error (.fault fault) → IsPartFault fault
  iff : ∀ p, (∃ fault, (r p).1 = .error (.fault fault)) ↔ broken

namespace FaultsIff

variable {b b' : Prop}

/-- The cases may be put in other words. -/
theorem congr (h : FaultsIff r b) (hb : b ↔ b') : FaultsIff r b' :=
  ⟨h.isPartFault, fun p => (h.iff p).trans hb⟩

/-- A reading that never ends with a fault does so in no case at all. -/
theorem never (h : ∀ p fault, (r p).1 ≠ .error (.fault fault)) : FaultsIff r False where
  isPartFault p fault hfault := absurd hfault (h p fault)
  iff p := iff_of_false (fun ⟨fault, hfault⟩ => h p fault hfault) id

theorem pure (a : α) : FaultsIff (pure a : Reading α) False := .never fun _ _ => nofun

/-- To report problems is not to end with a fault. -/
theorem problems (ps : List Problem) : FaultsIff (throw (.problems ps) : Reading α) False :=
  .never fun _ _ => nofun

theorem settled {x : Except Rejection α} (h : ∀ fault, x ≠ .error (.fault fault)) :
    FaultsIff (settled x) False := .never fun _ => h

/-- Two readings that always end with the same fault do so in the same cases. -/
theorem of_same_faults (hr : FaultsIff r b) (h : ∀ p fault,
    (s p).1 = .error (.fault fault) ↔ (r p).1 = .error (.fault fault)) : FaultsIff s b where
  isPartFault p fault hfault := hr.isPartFault p fault ((h p fault).mp hfault)
  iff p := (exists_congr (h p)).trans (hr.iff p)

/-- What never ends with a fault can follow a reading. -/
theorem bind_left (hr : FaultsIff r b) (hf : ∀ a, FaultsIff (f a) False) :
    FaultsIff (r >>= f) b := by
  refine hr.of_same_faults fun p fault => ?_
  rcases hp : r p with ⟨_ | a, q⟩
  · rw [bind_apply_error hp]
    simp
  · rw [bind_apply_ok hp]
    exact iff_of_false (fun hfault => (hf a).iff q |>.mp ⟨fault, hfault⟩) nofun

/-- What always succeeds can come before a reading. -/
theorem bind_right (hr : ∀ p, ∃ a, (r p).1 = .ok a) (hf : ∀ a, FaultsIff (f a) b) :
    FaultsIff (r >>= f) b := by
  have hrun : ∀ p, ∃ a q, (r >>= f) p = f a q := by
    intro p
    obtain ⟨a, ha⟩ := hr p
    exact ⟨a, (r p).2, bind_apply_ok (Prod.ext ha rfl)⟩
  refine ⟨fun p fault hfault => ?_, fun p => ?_⟩
  · obtain ⟨a, q, hp⟩ := hrun p
    exact (hf a).isPartFault q fault (hp ▸ hfault)
  · obtain ⟨a, q, hp⟩ := hrun p
    rw [hp]
    exact (hf a).iff q

/-- The place of a reading is no part of a fault, so it changes none. -/
theorem under (h : FaultsIff r b) (steps : List Place) : FaultsIff (under steps r) b := by
  refine h.of_same_faults fun p fault => ?_
  rw [Reading.under]
  obtain ⟨(ps | _) | a, q⟩ := r p
  · simp [Rejection.under]
  · exact Iff.rfl
  · simp

/-- Problems of the first of two readings do not keep the second one from being read. -/
theorem both (hr : FaultsIff r b) (hs : FaultsIff s b') : FaultsIff (both r s) (b ∨ b') := by
  -- the second reading starts with the progress of the first one, which does not matter to it
  have hrun : ∀ p, ∃ q, ∀ fault, (Reading.both r s p).1 = .error (.fault fault) ↔
      (r p).1 = .error (.fault fault) ∨
        (∀ fault, (r p).1 ≠ .error (.fault fault)) ∧ (s q).1 = .error (.fault fault) := by
    intro p
    rw [Reading.both]
    obtain ⟨(ps | first) | a, q⟩ := r p
    all_goals refine ⟨q, fun fault => ?_⟩
    · rcases hq : s q with ⟨(qs | second) | c, q'⟩ <;> simp [hq]
    · simp
    · rcases hq : s q with ⟨(qs | second) | c, q'⟩ <;> simp [hq]
  refine ⟨fun p fault hfault => ?_, fun p => ?_⟩
  · obtain ⟨q, hq⟩ := hrun p
    rcases (hq fault).mp hfault with hfirst | ⟨-, hsecond⟩
    · exact hr.isPartFault p fault hfirst
    · exact hs.isPartFault q fault hsecond
  · obtain ⟨q, hq⟩ := hrun p
    simp only [hq, exists_or, exists_and_left]
    rw [hr.iff p, hs.iff q, ← not_exists, hr.iff p]
    tauto

/-- What is read only for its faults has those faults. -/
theorem spoiled (kind : ProblemKind) (h : FaultsIff r b) :
    FaultsIff (spoiled kind r : Reading β) b := by
  refine h.of_same_faults fun p fault => ?_
  rw [Reading.spoiled]
  obtain ⟨(ps | _) | a, q⟩ := r p <;> simp [Rejection.here]

/-- Readings side by side end with a fault where one of them does. -/
theorem all {b : γ → Prop} {xs : List γ} {rs : List (Reading α)}
    (h : List.Forall₂ (fun x r => FaultsIff r (b x)) xs rs) :
    FaultsIff (all rs) (∃ x ∈ xs, b x) := by
  induction h with
  | nil => exact (FaultsIff.pure []).congr (by simp)
  | cons hr _ ih =>
    rw [all_cons]
    exact ((hr.both ih).bind_left fun _ => .pure _).congr (by simp)

end FaultsIff

/-! ### Exact matches -/

/-- Everything has matched exactly so far, and no record has been read. -/
def IsFresh (p : Progress) : Prop := p.closeness = .exact ∧ p.given = none

theorem isFresh_start (ids : Nat) : IsFresh (.start ids) := ⟨rfl, rfl⟩

/-- A reading succeeds and leaves its progress fresh. -/
def EndsFresh (r : Reading α) (p : Progress) : Prop := ∃ a, (r p).1 = .ok a ∧ IsFresh (r p).2

/-- A reading leaves fresh progress fresh in some cases and not in others, and no other progress. -/
def FreshIff (r : Reading α) (exact : Prop) : Prop := ∀ p, EndsFresh r p ↔ IsFresh p ∧ exact

/-- A reading does not make progress fresh that is not. -/
def KeepsLoose (r : Reading α) : Prop := ∀ p, EndsFresh r p → IsFresh p

/-- Of two steps in turn, progress that is fresh at the end has been fresh in between, and so at the
start. -/
theorem KeepsLoose.bind (hr : KeepsLoose r) (hf : ∀ a, KeepsLoose (f a)) :
    KeepsLoose (r >>= f) := by
  rintro p ⟨b, hb, hfresh⟩
  rcases hp : r p with ⟨_ | a, q⟩
  · rw [bind_apply_error hp] at hb
    cases hb
  · rw [bind_apply_ok hp] at hb hfresh
    have hq : IsFresh q := hf a q ⟨b, hb, hfresh⟩
    exact hr p ⟨a, by rw [hp], by rw [hp]; exact hq⟩

theorem KeepsLoose.under (hr : KeepsLoose r) (steps : List Place) :
    KeepsLoose (under steps r) := by
  rintro p ⟨a, ha, hfresh⟩
  rw [Reading.under] at ha hfresh
  rcases hp : r p with ⟨_ | a, q⟩
  · rw [hp] at ha
    cases ha
  · rw [hp] at hfresh
    exact hr p ⟨a, by rw [hp], by rw [hp]; exact hfresh⟩

/-- Readings side by side share their progress, so neither of them can make it fresh again. -/
theorem KeepsLoose.both (hr : KeepsLoose r) (hs : KeepsLoose s) : KeepsLoose (both r s) := by
  rintro p ⟨ab, hab, hfresh⟩
  rw [Reading.both] at hab hfresh
  rcases hp : r p with ⟨(ps | fault) | a, q⟩
  · rw [hp] at hab
    rcases hq : s q with ⟨(qs | fault) | c, q'⟩ <;> simp [hq] at hab
  · rw [hp] at hab
    cases hab
  · rcases hq : s q with ⟨_ | c, q'⟩
    · simp [hp, hq] at hab
    · simp only [hp, hq] at hfresh
      have hmiddle : IsFresh q := hs q ⟨c, by rw [hq], by rw [hq]; exact hfresh⟩
      exact hr p ⟨a, by rw [hp], by rw [hp]; exact hmiddle⟩

/-- So it is with any number of readings side by side. -/
theorem KeepsLoose.all {rs : List (Reading α)} (h : ∀ r ∈ rs, KeepsLoose r) :
    KeepsLoose (all rs) := by
  induction rs with
  | nil => exact fun p hends => hends.choose_spec.2
  | cons r rs ih =>
    obtain ⟨hr, hrs⟩ := List.forall_mem_cons.mp h
    rw [all_cons]
    exact (hr.both (ih hrs)).bind fun _ p hends => hends.choose_spec.2

/-- To make an identifier is not to match anything. -/
theorem keepsLoose_freshId : KeepsLoose freshId := fun _ hends => hends.choose_spec.2

namespace FreshIff

variable {e e' : Prop}

theorem congr (h : FreshIff r e) (he : e ↔ e') : FreshIff r e' := fun p =>
  (h p).trans (and_congr_right fun _ => he)

/-- Where it is known when a reading keeps progress fresh, it is known that it makes none fresh. -/
theorem keepsLoose (h : FreshIff r e) : KeepsLoose r := fun p hends => ((h p).mp hends).1

/-- The cases are those of a reading that starts with nothing read. -/
theorem iff_start (h : FreshIff r e) (ids : Nat) : EndsFresh r (.start ids) ↔ e :=
  (h (.start ids)).trans (and_iff_right (isFresh_start ids))

/-- A result that makes no progress keeps it fresh if it is one. -/
theorem settled (x : Except Rejection α) : FreshIff (settled x) (∃ a, x = .ok a) := fun _ =>
  exists_and_right.trans and_comm

theorem pure (a : α) : FreshIff (pure a : Reading α) True :=
  (FreshIff.settled (.ok a)).congr (iff_true_intro ⟨a, rfl⟩)

/-- What fails does not count as keeping progress fresh. -/
theorem throw (x : Rejection) : FreshIff (throw x : Reading α) False :=
  (FreshIff.settled (.error x)).congr (iff_of_false (fun ⟨_, hok⟩ => nomatch hok) id)

/-- To note a match keeps progress fresh only if the match is exact. -/
theorem loosen (c : Closeness) : FreshIff (loosen c) (c = .exact) := by
  intro p
  have hloosest : p.closeness.loosest c = .exact ↔ p.closeness = .exact ∧ c = .exact := by
    cases p.closeness <;> cases c <;> decide
  constructor
  · rintro ⟨_, -, hcloseness, hgiven⟩
    obtain ⟨hp, hc⟩ := hloosest.mp hcloseness
    exact ⟨⟨hp, hgiven⟩, hc⟩
  · rintro ⟨⟨hp, hgiven⟩, hc⟩
    exact ⟨(), rfl, hloosest.mpr ⟨hp, hc⟩, hgiven⟩

/-- To note fields that are given to a record makes progress stale, even if there are none. -/
theorem give (fields : Nat) : FreshIff (give fields) False := fun _ =>
  iff_of_false (fun ⟨_, _, _, hgiven⟩ => nomatch hgiven) fun h => h.2

/-- Two steps in turn keep progress fresh if each of them does. -/
theorem bind (hr : FreshIff r e) (hf : ∀ a, FreshIff (f a) e') : FreshIff (r >>= f) (e ∧ e') := by
  intro p
  rw [← and_assoc, ← hr p]
  constructor
  · rintro ⟨b, hb, hfresh⟩
    rcases hp : r p with ⟨_ | a, q⟩
    · rw [bind_apply_error hp] at hb
      cases hb
    · rw [bind_apply_ok hp] at hb hfresh
      obtain ⟨hq, he'⟩ := (hf a q).mp ⟨b, hb, hfresh⟩
      exact ⟨⟨a, by rw [hp], by rw [hp]; exact hq⟩, he'⟩
  · rintro ⟨⟨a, ha, hq⟩, he'⟩
    have hrun : (r >>= f) p = f a (r p).2 := bind_apply_ok (Prod.ext ha rfl)
    rw [EndsFresh, hrun]
    exact (hf a _).mpr ⟨hq, he'⟩

/-- What follows a match that is not exact does not count. -/
theorem loosened {c : Closeness} (hc : c ≠ .exact) (hs : KeepsLoose s) :
    FreshIff (Reading.loosen c >>= fun _ => s) False := by
  intro p
  refine iff_of_false (fun ⟨b, hb, hfresh⟩ => ?_) fun h => h.2
  have hq : IsFresh (Reading.loosen c p).2 := hs _ ⟨b, hb, hfresh⟩
  exact hc ((FreshIff.loosen c p).mp ⟨(), rfl, hq⟩).2

theorem under (h : FreshIff r e) (steps : List Place) : FreshIff (under steps r) e := by
  intro p
  rw [← h p, EndsFresh, EndsFresh, Reading.under]
  obtain ⟨_ | a, q⟩ := r p
  · simp
  · exact Iff.rfl

/-- What is read only for its faults never succeeds. -/
theorem spoiled (kind : ProblemKind) (r : Reading α) :
    FreshIff (spoiled kind r : Reading β) False := by
  refine fun p => iff_of_false ?_ fun h => h.2
  rintro ⟨b, hb, -⟩
  rw [Reading.spoiled] at hb
  split at hb <;> cases hb

/-- Two readings side by side keep progress fresh if each of them does: a failure of the first one
is not made up for by the second. -/
theorem both (hr : FreshIff r e) (hs : FreshIff s e') : FreshIff (both r s) (e ∧ e') := by
  intro p
  rw [← and_assoc, ← hr p, EndsFresh, EndsFresh, Reading.both]
  obtain ⟨(ps | fault) | a, q⟩ := r p
  · rcases hq : s q with ⟨(qs | fault) | c, q'⟩ <;> simp [hq]
  · simp
  · have hsecond := hs q
    rw [EndsFresh] at hsecond
    rcases hq : s q with ⟨_ | c, q'⟩
    · simpa [hq] using hsecond
    · simpa [hq] using hsecond

end FreshIff

/-! ### Unions -/

/-- A candidate that ends a search: an exact match of something that is no record. -/
def Candidate.IsFinal (c : Candidate) : Prop := c.closeness = .exact ∧ c.given = none

/-- To settle on a candidate that ends the search keeps progress fresh, and no other candidate
does. -/
theorem freshIff_choose (c : Candidate) : FreshIff c.choose c.IsFinal := by
  unfold Candidate.choose Candidate.IsFinal
  refine (FreshIff.loosen c.closeness).bind fun _ => ?_
  cases c.given with
  | none => exact (FreshIff.pure c.value).congr (by simp)
  | some n => exact ((FreshIff.give n).bind fun _ => .pure c.value).congr (by simp)

/-- A search that has come to its end has no faults. -/
theorem faultsIff_choose (c : Candidate) : FaultsIff c.choose False := by
  unfold Candidate.choose
  refine .bind_right (fun p => ⟨(), rfl⟩) fun _ => ?_
  cases c.given with
  | none => exact .pure c.value
  | some n => exact .bind_right (fun p => ⟨(), rfl⟩) fun _ => .pure c.value

section

variable {best : Option Candidate} {ps : List Problem} {name : String} {first : Reading Value}
  {rest : List (String × Reading Value)}

/-- A fault ends a search. -/
theorem bestOf_of_fault {fault : ValueFault}
    (h : first (.start p.ids) = (.error (.fault fault), q)) :
    bestOf best ps ((name, first) :: rest) p =
      (.error (.fault fault), { p with ids := q.ids }) := by
  cases best <;> simp only [bestOf, h]

/-- So does an exact match of something that is no record. -/
theorem bestOf_of_endsFresh (h : EndsFresh first (.start p.ids)) : ∃ c ids, c.IsFinal ∧
    bestOf best ps ((name, first) :: rest) p = Candidate.choose c { p with ids } := by
  obtain ⟨v, hv, hfresh⟩ := h
  have hrun : first (.start p.ids) = (.ok v, (first (.start p.ids)).2) := Prod.ext hv rfl
  generalize (first (.start p.ids)).2 = q at hrun hfresh
  refine ⟨⟨v, q.closeness, q.given⟩, q.ids, hfresh, ?_⟩
  obtain ⟨hcloseness, hgiven⟩ := hfresh
  cases best <;> simp only [bestOf, hrun, hcloseness, hgiven, and_self, if_true]

/-- Otherwise the search goes on, with some candidate that does not end it. -/
theorem bestOf_of_other (hfault : ∀ fault, (first (.start p.ids)).1 ≠ .error (.fault fault))
    (hfresh : ¬ EndsFresh first (.start p.ids)) (hbest : ∀ c ∈ best, ¬ c.IsFinal) :
    ∃ best' ps' ids, (∀ c ∈ best', ¬ Candidate.IsFinal c) ∧
      bestOf best ps ((name, first) :: rest) p = bestOf best' ps' rest { p with ids } := by
  rcases hrun : first (.start p.ids) with ⟨(qs | fault) | v, q⟩
  · refine ⟨best, ps ++ qs.map fun p => { p with place := .key name :: p.place }, q.ids, hbest, ?_⟩
    cases best <;> simp only [bestOf, hrun]
  · exact absurd (congrArg Prod.fst hrun) (hfault fault)
  · have hq : ¬ (q.closeness = .exact ∧ q.given = none) := fun hq =>
      hfresh ⟨v, congrArg Prod.fst hrun, by rw [hrun]; exact hq⟩
    by_cases hbetter : best.all (Candidate.isBetter ⟨v, q.closeness, q.given⟩) = true
    · refine ⟨some ⟨v, q.closeness, q.given⟩, ps, q.ids, ?_, ?_⟩
      · rintro c ⟨⟩
        exact hq
      · cases best <;> simp only [bestOf, hrun, hq, hbetter, if_true, if_false]
    · refine ⟨best, ps, q.ids, hbest, ?_⟩
      cases best <;> simp only [bestOf, hrun, hq, hbetter, Bool.false_eq_true, if_false]

variable {b e : γ → Prop} {xs : List γ} {rs : List (String × Reading Value)}

/-- **Faults of unions.** Of several readings, the fault of one counts where no reading before it
ends the search. -/
theorem FaultsIff.bestOf
    (h : List.Forall₂ (fun x r => FaultsIff r.2 (b x) ∧ FreshIff r.2 (e x)) xs rs)
    (hbest : ∀ c ∈ best, ¬ c.IsFinal) : FaultsIff (bestOf best ps rs) (ComesFirst b e xs) := by
  suffices hrun : ∀ p, (∀ fault, (Record.bestOf best ps rs p).1 = .error (.fault fault) →
      IsPartFault fault) ∧ ((∃ fault, (Record.bestOf best ps rs p).1 = .error (.fault fault)) ↔
        ComesFirst b e xs) from
    ⟨fun p => (hrun p).1, fun p => (hrun p).2⟩
  intro p
  -- on the candidates: the leftmost of them ends with a fault, ends the search, or does neither
  induction h generalizing best ps p with
  | nil =>
    have hnever : FaultsIff (Record.bestOf best ps []) False := by
      cases best with
      | none => exact .problems ps
      | some c => exact faultsIff_choose c
    exact ⟨hnever.isPartFault p, (hnever.iff p).trans (iff_of_false id not_comesFirst_nil)⟩
  | @cons x r xs rs hr _ ih =>
    obtain ⟨name, first⟩ := r
    obtain ⟨hfaults, hfresh⟩ := hr
    rw [comesFirst_cons, ← hfaults.iff (.start p.ids), ← hfresh.iff_start p.ids]
    by_cases hfault : ∃ fault, (first (.start p.ids)).1 = .error (.fault fault)
    · obtain ⟨fault, hfault⟩ := hfault
      rw [bestOf_of_fault (Prod.ext hfault rfl)]
      refine ⟨?_, iff_of_true ⟨fault, rfl⟩ (.inl ⟨fault, hfault⟩)⟩
      rintro _ ⟨⟩
      exact hfaults.isPartFault _ fault hfault
    · by_cases hends : EndsFresh first (.start p.ids)
      · obtain ⟨c, ids, -, hrun⟩ := bestOf_of_endsFresh hends
        rw [hrun]
        refine ⟨(faultsIff_choose c).isPartFault _, ((faultsIff_choose c).iff _).trans ?_⟩
        exact iff_of_false id fun h => h.elim hfault fun h => h.1 hends
      · -- the invariant: no candidate kept so far would have ended the search
        obtain ⟨best', ps', ids, hbest', hrun⟩ :=
          bestOf_of_other (not_exists.mp hfault) hends hbest
        rw [hrun, or_iff_right hfault, and_iff_right hends]
        exact ih hbest' _

/-- **Exact matches in unions.** Of several readings, the exact match of one counts where no reading
before it ends with a fault. -/
theorem FreshIff.bestOf
    (h : List.Forall₂ (fun x r => FaultsIff r.2 (b x) ∧ FreshIff r.2 (e x)) xs rs)
    (hbest : ∀ c ∈ best, ¬ c.IsFinal) : FreshIff (bestOf best ps rs) (ComesFirst e b xs) := by
  intro p
  induction h generalizing best ps p with
  | nil =>
    have hnever : FreshIff (Record.bestOf best ps []) False := by
      cases best with
      | none => exact .throw (.problems ps)
      | some c => exact (freshIff_choose c).congr (iff_of_false (hbest c rfl) id)
    exact (hnever p).trans (and_congr_right fun _ => iff_of_false id not_comesFirst_nil)
  | @cons x r xs rs hr _ ih =>
    obtain ⟨name, first⟩ := r
    obtain ⟨hfaults, hfresh⟩ := hr
    rw [comesFirst_cons, ← hfaults.iff (.start p.ids), ← hfresh.iff_start p.ids]
    -- the first candidate ends the search, ends it with a fault, or leaves it to the others
    by_cases hends : EndsFresh first (.start p.ids)
    · obtain ⟨c, ids, hfinal, hrun⟩ := bestOf_of_endsFresh hends
      rw [EndsFresh, hrun]
      refine (freshIff_choose c _).trans (and_congr Iff.rfl ?_)
      exact iff_of_true hfinal (.inl hends)
    · by_cases hfault : ∃ fault, (first (.start p.ids)).1 = .error (.fault fault)
      · obtain ⟨fault, hfault'⟩ := hfault
        rw [EndsFresh, bestOf_of_fault (Prod.ext hfault' rfl)]
        refine iff_of_false (fun ⟨_, hok, _⟩ => nomatch hok) fun h => ?_
        exact h.2.elim hends fun h => h.1 ⟨fault, hfault'⟩
      · obtain ⟨best', ps', ids, hbest', hrun⟩ :=
          bestOf_of_other (not_exists.mp hfault) hends hbest
        rw [EndsFresh, hrun, or_iff_right hends, and_iff_right hfault]
        exact ih hbest' _

end

/-! ### Known readings -/

/-- A reading ends with a fault in some cases, and keeps its progress fresh in some cases. -/
structure BreaksIff (r : Reading α) (broken : Prop) : Prop where
  faults : FaultsIff r broken
  fresh : ∃ e, FreshIff r e

namespace BreaksIff

variable {b b' : Prop} {c : Closeness}

theorem congr (h : BreaksIff r b) (hb : b ↔ b') : BreaksIff r b' := ⟨h.faults.congr hb, h.fresh⟩

theorem pure (a : α) : BreaksIff (pure a : Reading α) False := ⟨.pure a, True, .pure a⟩

theorem problems (ps : List Problem) : BreaksIff (throw (.problems ps) : Reading α) False :=
  ⟨.problems ps, False, .throw _⟩

/-- A result without a fault has no faults, and keeps progress fresh if it is no failure. -/
theorem settled {x : Except Rejection α} (h : ∀ fault, x ≠ .error (.fault fault)) :
    BreaksIff (settled x) False := ⟨.settled h, _, .settled x⟩

/-- What follows a known reading is known with it, if it has no faults and keeps progress fresh in
the same cases whatever it follows. -/
theorem bind_left {e : Prop} (hr : BreaksIff r b) (hf : ∀ a, FaultsIff (f a) False)
    (hfresh : ∀ a, FreshIff (f a) e) : BreaksIff (r >>= f) b := by
  obtain ⟨e', he'⟩ := hr.fresh
  exact ⟨hr.faults.bind_left hf, _, he'.bind hfresh⟩

/-- What is made of the result of a reading changes neither its faults nor its progress. -/
theorem map (hr : BreaksIff r b) (g : α → β) : BreaksIff (do return g (← r)) b :=
  hr.bind_left (fun _ => .pure _) fun _ => .pure _

/-- To note how closely something matches does not matter to faults. -/
theorem loosen (c : Closeness) (hr : BreaksIff r b) :
    BreaksIff (Reading.loosen c >>= fun _ => r) b := by
  obtain ⟨e, he⟩ := hr.fresh
  exact ⟨.bind_right (fun _ => ⟨(), rfl⟩) fun _ => hr.faults, _,
    (FreshIff.loosen c).bind fun _ => he⟩

/-- What follows a match that is not exact need not be known to keep progress fresh. -/
theorem loosened (hc : c ≠ .exact) (hr : FaultsIff r b) (hloose : KeepsLoose r) :
    BreaksIff (Reading.loosen c >>= fun _ => r) b :=
  ⟨.bind_right (fun _ => ⟨(), rfl⟩) fun _ => hr, False, .loosened hc hloose⟩

/-- The place of a known reading does not matter. -/
theorem under (h : BreaksIff r b) (steps : List Place) : BreaksIff (under steps r) b := by
  obtain ⟨e, he⟩ := h.fresh
  exact ⟨h.faults.under steps, e, he.under steps⟩

/-- What is read only for its faults has those faults, and never succeeds. -/
theorem spoiled (kind : ProblemKind) (h : BreaksIff r b) :
    BreaksIff (spoiled kind r : Reading β) b :=
  ⟨h.faults.spoiled kind, False, .spoiled kind r⟩

/-- Two known readings side by side end with a fault where one of them does. -/
theorem both (hr : BreaksIff r b) (hs : BreaksIff s b') : BreaksIff (both r s) (b ∨ b') := by
  obtain ⟨e, he⟩ := hr.fresh
  obtain ⟨e', he'⟩ := hs.fresh
  exact ⟨hr.faults.both hs.faults, _, he.both he'⟩

theorem all_nil : BreaksIff (all ([] : List (Reading α))) False := .pure []

theorem all_cons {rs : List (Reading α)} (hr : BreaksIff r b) (hrs : BreaksIff (all rs) b') :
    BreaksIff (all (r :: rs)) (b ∨ b') := by
  rw [Record.all_cons]
  exact (hr.both hrs).map _

/-- Readings side by side end with a fault where one of them does. -/
theorem all {b : γ → Prop} {xs : List γ} {rs : List (Reading α)}
    (h : List.Forall₂ (fun x r => BreaksIff r (b x)) xs rs) :
    BreaksIff (Reading.all rs) (∃ x ∈ xs, b x) := by
  induction h with
  | nil => exact all_nil.congr (by simp)
  | cons hr _ ih => exact (hr.all_cons ih).congr (by simp)

/-- A reading that keeps fresh progress fresh does so from the start. -/
theorem freshIff_start (h : BreaksIff r b) : FreshIff r (EndsFresh r (.start 0)) := by
  obtain ⟨e, he⟩ := h.fresh
  exact he.congr (he.iff_start 0).symm

end BreaksIff

end IndexedRecords.Record
