import IndexedRecords.Proofs.Alike
import IndexedRecords.Proofs.Connection.Parts
import IndexedRecords.Proofs.Number.Digits
import IndexedRecords.Proofs.Text.Case
import Mathlib.Data.Bool.AllAny

/-!
# Refused URLs

A URL is read as a connection with a host, a port and perhaps a database, or it is refused. Nearly
all of what may be wrong with it is reported as a fault of the configuration. Two things are not:
an authority that cannot be cut, and a database that is written in digits but is no number, because
one of the digits has no place value or because there are too many of them. `Escapes` says which
URLs these are.

## Main statements

* `databaseOfPath_of_digits`, `databaseOfPath_of_unreadable`: databases that are written in digits.
* `ofUrl_readUnless_escapes`: what becomes of any URL.
-/

namespace IndexedRecords

open Text

namespace Url

/-! ### Databases -/

/-- A text of digits that is no number. -/
structure IsUnreadable (segment : List Char) : Prop where
  digits : ∀ c ∈ segment, isDigit c = true
  unread : (∃ c ∈ segment, decimalDigit? c = none) ∨ Numeral.digitLimit < segment.length

/-- The number of the database that the segment of a path names. -/
def databaseOf (segment : List Char) : Option Nat :=
  if segment = [] then none else some (Numeral.ofDigits (segment.filterMap decimalDigit?))

variable {path : List Char}

/-- A segment with other characters than digits is reported as no database. -/
theorem databaseOfPath_of_other (shownUrl : String) (h : ¬ ∀ c ∈ segmentOf path, isDigit c = true) :
    databaseOfPath shownUrl path = .error (.invalidDatabase shownUrl) := by
  have hne : segmentOf path ≠ [] := by
    intro hempty
    exact h (hempty ▸ List.forall_mem_nil _)
  rw [databaseOfPath_eq, if_neg hne, if_neg (mt List.all_eq_true.mp h)]

/-- Digits that are a number name the database of that number. -/
theorem databaseOfPath_of_digits (shownUrl : String) (h : ∀ c ∈ segmentOf path, isDigit c = true)
    (hread : ¬ IsUnreadable (segmentOf path)) :
    databaseOfPath shownUrl path = .ok (databaseOf (segmentOf path)) := by
  have hdecimals := Numeral.decimals_of_not_exists fun hother => hread ⟨h, .inl hother⟩
  have hshort : ¬ Numeral.digitLimit < (segmentOf path).length :=
    fun hlong => hread ⟨h, .inr hlong⟩
  rw [databaseOfPath_eq, databaseOf]
  split
  · rfl
  · next hne =>
    rw [if_pos (List.all_eq_true.mpr h), Value.intOfText, Numeral.readInt_of_decimals hdecimals hne,
      if_neg hshort]
    rfl

theorem IsUnreadable.ne_nil {segment : List Char} (h : IsUnreadable segment) : segment ≠ [] := by
  rintro rfl
  obtain ⟨c, hc, -⟩ | hlong := h.unread
  · cases hc
  · exact absurd hlong (by decide)

/-- A segment that consists of digits is no number if one of them is a digit without decimal value,
or if there are too many. -/
theorem IsUnreadable.readInt {segment : List Char} (h : IsUnreadable segment) :
    ∃ fault, Numeral.readInt segment = .error fault := by
  by_cases hother : ∃ c ∈ segment, decimalDigit? c = none
  · exact Numeral.readInt_of_ornamental h.digits hother
  · have hread := Numeral.readInt_of_decimals (Numeral.decimals_of_not_exists hother) h.ne_nil
    exact ⟨_, hread.trans (if_pos (h.unread.resolve_left hother))⟩

/-- Digits that are no number are an unusable value. -/
theorem databaseOfPath_of_unreadable (shownUrl : String) (h : IsUnreadable (segmentOf path)) :
    ∃ fault, databaseOfPath shownUrl path = .error (.unreadableDatabase fault) ∧
      fault.classOf = .unusableValue := by
  have hread : ∃ fault,
      Value.intOfText (quoted (segmentOf path)) (segmentOf path) = .error fault := by
    obtain ⟨fault, hfault⟩ := h.readInt
    rw [Value.intOfText, hfault]
    cases fault <;> exact ⟨_, rfl⟩
  obtain ⟨fault, hfault⟩ := hread
  refine ⟨fault, ?_, Value.classOf_of_intOfText hfault⟩
  rw [databaseOfPath_eq, if_neg h.ne_nil, if_pos (List.all_eq_true.mpr h.digits), hfault]

/-! ### Hosts and ports -/

/-- A port that is read is one of the range. -/
theorem portNumber?_range {port : List Char} {n : Nat} (h : portNumber? port = some n) :
    1 ≤ n ∧ n ≤ 65535 := by
  have hdefault : 1 ≤ defaultPort ∧ defaultPort ≤ 65535 := by decide
  unfold portNumber? at h
  dsimp only at h
  split at h
  · exact Option.some.inj h ▸ hdefault
  · split at h
    · split at h
      · exact Option.some.inj h ▸ hdefault
      · next hzero =>
        split at h
        · next hle => exact Option.some.inj h ▸ ⟨Nat.pos_of_ne_zero hzero, hle⟩
        · cases h
    · cases h

theorem normalHost_ne_nil {host : List Char} (h : host ≠ []) : normalHost host ≠ [] := by
  intro hempty
  obtain ⟨hbefore, hafter⟩ := List.append_eq_nil_iff.mp hempty
  have hnone : host.takeWhile (· ≠ '%') = [] := by
    by_contra hne
    exact lower_ne_nil hne hbefore
  rw [← List.takeWhile_append_dropWhile (p := (· ≠ '%')) (l := host), hnone, hafter] at h
  exact h rfl

end Url

open Url

/-! ### What becomes of a URL -/

/-- The parts of a URL lead to a server. -/
structure UrlParts.IsAddressed (parts : UrlParts) : Prop where
  scheme : String.ofList parts.scheme = "redis" ∨ String.ofList parts.scheme = "rediss"
  host : parts.host ≠ []
  port : ∃ n, portNumber? parts.port = some n

/-- What a URL is read as: a host, a port, and the database that its path names. -/
structure Connection.IsReadFrom (c : Connection) (url : String) : Prop where
  host_ne_empty : c.host ≠ ""
  port_pos : 1 ≤ c.port
  port_le : c.port ≤ 65535
  database_eq : c.database = databaseOf (segmentOf (partsOf url).path)

/-- What is wrong with a URL, but is not reported as a fault of the configuration. -/
inductive Url.Escapes (url : String) : Prop where
  | unbalanced (h : IsUnbalanced (partsOf url).authority)
  | misleading (h : isMisleading (partsOf url).authority = true)
  | database (addressed : (partsOf url).IsAddressed)
      (h : IsUnreadable (segmentOf (partsOf url).path))

/-- A URL is read, or refused with a fault of the configuration, unless what is wrong with it
escapes as an unusable value. -/
structure Connection.ReadUnless (outcome : Except ConnectionFault Connection)
    (sound : Connection → Prop) (escapes : Prop) : Prop where
  settled : ¬ escapes → (∃ c, outcome = .ok c ∧ sound c) ∨
    ∃ fault, outcome = .error fault ∧ fault.classOf = .configuration
  escaped : escapes → ∃ fault, outcome = .error fault ∧ fault.classOf = .unusableValue

namespace Connection

variable {url : String} {sound : Connection → Prop} {escapes : Prop}

/-- A connection that is read does not escape. -/
theorem ReadUnless.ok {c : Connection} (hsound : sound c) (hescapes : ¬ escapes) :
    ReadUnless (.ok c) sound escapes :=
  ⟨fun _ => .inl ⟨c, rfl, hsound⟩, fun h => absurd h hescapes⟩

/-- A fault of the configuration is reported and does not escape. -/
theorem ReadUnless.report {fault : ConnectionFault} (hfault : fault.classOf = .configuration)
    (hescapes : ¬ escapes) : ReadUnless (.error fault) sound escapes :=
  ⟨fun _ => .inr ⟨fault, rfl, hfault⟩, fun h => absurd h hescapes⟩

/-- A value that cannot be used escapes. -/
theorem ReadUnless.escape {fault : ConnectionFault} (hfault : fault.classOf = .unusableValue)
    (hescapes : escapes) : ReadUnless (.error fault) sound escapes :=
  ⟨fun h => absurd hescapes h, fun _ => ⟨fault, rfl, hfault⟩⟩

/-- Once there is a server, a URL is read or not as the database is. -/
theorem ReadUnless.database (shownUrl : String) {path : List Char} {make : Option Nat → Connection}
    (hsound : ∀ database, database = databaseOf (segmentOf path) → sound (make database))
    (hescapes : escapes ↔ IsUnreadable (segmentOf path)) :
    ReadUnless ((databaseOfPath shownUrl path).map make) sound escapes := by
  by_cases hdigits : ∀ c ∈ segmentOf path, isDigit c = true
  · by_cases hunread : IsUnreadable (segmentOf path)
    · obtain ⟨fault, hfault, hclass⟩ := databaseOfPath_of_unreadable shownUrl hunread
      rw [hfault]
      exact .escape hclass (hescapes.mpr hunread)
    · rw [databaseOfPath_of_digits _ hdigits hunread]
      exact .ok (hsound _ rfl) (mt hescapes.mp hunread)
  · rw [databaseOfPath_of_other _ hdigits]
    exact .report rfl fun h => hdigits (hescapes.mp h).digits

/-- **Refused URLs.** A URL is read as a connection with a host, a port from 1 to 65535 and the
database that its path names, or it is refused with a fault of the configuration, unless it is one
of those whose fault escapes. -/
theorem ofUrl_readUnless_escapes (url : String) :
    ReadUnless (ofUrl url) (IsReadFrom · url) (Escapes url) := by
  rw [ofUrl_eq]
  dsimp only
  by_cases hbrackets : IsUnbalanced (partsOf url).authority
  · rw [if_pos hbrackets]
    exact .escape rfl (.unbalanced hbrackets)
  by_cases hmisleading : isMisleading (partsOf url).authority = true
  · rw [if_neg hbrackets, if_pos hmisleading]
    exact .escape rfl (.misleading hmisleading)
  -- from here on only the database can escape
  have hescapes : Escapes url → (partsOf url).IsAddressed ∧
      IsUnreadable (segmentOf (partsOf url).path) := by
    rintro (h | h | ⟨haddressed, h⟩)
    · exact absurd h hbrackets
    · exact absurd h hmisleading
    · exact ⟨haddressed, h⟩
  rw [if_neg hbrackets, if_neg hmisleading]
  split
  · next hscheme =>
    refine .report rfl fun h => ?_
    rcases (hescapes h).1.scheme with heq | heq <;>
      exact absurd (hscheme.symm.trans heq) (by decide)
  split
  · next hscheme =>
    exact .report rfl fun h => (hescapes h).1.scheme.elim hscheme.1 hscheme.2
  next hscheme =>
  have hknown := Decidable.or_iff_not_not_and_not.mpr hscheme
  split
  · next hhost => exact .report rfl fun h => (hescapes h).1.host hhost
  next hhost =>
  cases hport : portNumber? (partsOf url).port with
  | none =>
    refine .report rfl fun h => ?_
    obtain ⟨n, hn⟩ := (hescapes h).1.port
    cases hport.symm.trans hn
  | some port =>
    have haddressed : (partsOf url).IsAddressed := ⟨hknown, hhost, port, hport⟩
    have hnonempty : String.ofList (normalHost (partsOf url).host) ≠ "" :=
      mt String.ofList_eq_empty_iff.mp (normalHost_ne_nil hhost)
    obtain ⟨hpos, hle⟩ := portNumber?_range hport
    refine .database _ (fun database hdatabase => ?_)
      ⟨fun h => (hescapes h).2, fun h => .database haddressed h⟩
    exact ⟨hnonempty, hpos, hle, hdatabase⟩

/-- A digit of another script names a database, and a superscript escapes. -/
theorem ofUrl_readUnless_escapes_digits :
    ¬ Escapes "redis://localhost/٣" ∧
    ((∃ c, ofUrl "redis://localhost/٣" = .ok c ∧ c.IsReadFrom "redis://localhost/٣") ∨
      ∃ fault, ofUrl "redis://localhost/٣" = .error fault ∧ fault.classOf = .configuration) ∧
    Escapes "redis://localhost/²" ∧
    ∃ fault, ofUrl "redis://localhost/²" = .error fault ∧ fault.classOf = .unusableValue := by
  have hread : ¬ Escapes "redis://localhost/٣" := by
    rintro (h | h | ⟨-, h⟩)
    · exact absurd h (by decide +kernel)
    · exact absurd h (by decide +kernel)
    · obtain hother | hlong := h.unread
      · exact absurd (List.any_iff_exists_prop.mpr hother) (by decide +kernel)
      · exact absurd hlong (by decide +kernel)
  have hescapes : Escapes "redis://localhost/²" := by
    have haddressed : (partsOf "redis://localhost/²").IsAddressed :=
      ⟨.inl (by decide +kernel), by decide +kernel, 6379, by decide +kernel⟩
    exact .database haddressed ⟨List.all_iff_forall_prop.mp (by decide +kernel),
      .inl (List.any_iff_exists_prop.mp (by decide +kernel))⟩
  exact ⟨hread, (ofUrl_readUnless_escapes "redis://localhost/٣").settled hread, hescapes,
    (ofUrl_readUnless_escapes "redis://localhost/²").escaped hescapes⟩

/-- A superscript in the place of the database is not reported as a fault of the configuration. -/
theorem ofUrl_superscript :
    ofUrl "redis://localhost/²" = .error (.unreadableDatabase (.malformedInt "'²'")) ∧
      (ConnectionFault.unreadableDatabase (.malformedInt "'²'")).classOf ≠ .configuration :=
  ⟨by decide +kernel, by decide⟩

end Connection

end IndexedRecords
