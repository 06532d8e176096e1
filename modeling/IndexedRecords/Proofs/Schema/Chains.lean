import IndexedRecords.Proofs.Layers
import IndexedRecords.Proofs.Schema.Nesting

/-!
# Chains of marked fields

A leaf of a schema stands for a chain of marked fields (`IndexedChain`): from a field of the record
type through fields of the record types that these hold, down to a field that holds no records. The
schema of a record type lists exactly its chains, each once and in the order of declaration, and
a chain determines the name, the path and the index type of its leaf (`Describes`). What else holds
of leaves is shown once for a single field and once for a nested leaf (`IsCarried`,
`listsFrom_of_leavesWithin`).
-/

namespace IndexedRecords

/-! ### Index types of unwrapped shapes -/

namespace Shape

/-- A union with one member besides null is indexed as that member. -/
theorem IsSole.soleIndexType_eq {members : List Shape} {s : Shape} (h : IsSole members s) :
    soleIndexType members = s.indexType := by
  induction h with
  | skip null _ ih => rw [soleIndexType, if_pos null, ih]
  | here nonnull null => rw [soleIndexType, if_neg nonnull, if_pos null]

/-- Annotations and null do not matter to the index type. -/
theorem Unwraps.indexType_eq {s t : Shape} (h : Unwraps s t) : t.indexType = s.indexType := by
  induction h with
  | bare => rfl
  | annotated _ ih => rw [ih, indexType]
  | union sole _ ih => rw [ih, indexType, sole.soleIndexType_eq]

end Shape

namespace Schema

open Traversal

variable {c : Catalogue} {nested : RecordType → Except SchemaFault (List Leaf)}
  {owner : String} {f : Field} {m : Marker} {record inner : RecordType}

/-! ### Chains and their leaves -/

/-- A field at its place among the fields of its record type. -/
structure Link where
  position : Nat
  field : Field

/-- A field holds no records; a map of records without a schema counts as a single value. -/
def EndsChain (c : Catalogue) (f : Field) : Prop :=
  match holding f with
  | .one shape | .sequence shape => recordType? c shape = none
  | .map shape => ∀ record, recordType? c shape = some record → record.isSearchable = false

/-- A chain of marked fields that starts in a record type: each field but the last one holds the
searchable records that the next field belongs to. -/
inductive IndexedChain (c : Catalogue) : RecordType → List Link → Prop where
  | last {record : RecordType} {link : Link}
      (declared : record.fields[link.position]? = some link.field)
      (marked : link.field.indexing?.isSome) (ends : EndsChain c link.field) :
      IndexedChain c record [link]
  | cons {record inner : RecordType} {link : Link} {rest : List Link}
      (declared : record.fields[link.position]? = some link.field)
      (marked : link.field.indexing?.isSome) (held : inner? c link.field = some inner)
      (rest_chain : IndexedChain c inner rest) : IndexedChain c record (link :: rest)

/-- The index type that a marker states in a way that can be read. -/
def statedIndexType? (m : Marker) : Option IndexType :=
  m.stated.bind fun
    | .known type => some type
    | .word s => IndexType.ofName? (String.ofList (Text.lower s.toList))

/-- Whether a field holds a map. -/
def holdsMap (f : Field) : Bool :=
  match holding f with
  | .map _ => true
  | _ => false

/-- The index type of a field that ends a chain: the one that its first marker states; else that of
tags, if the marker names an identifier or the field holds a map; else the one of its shape. -/
def fieldIndexType (f : Field) : IndexType :=
  match f.indexing?.bind statedIndexType? with
  | some type => type
  | none => if f.indexing?.any Marker.isPrimaryKey || holdsMap f then .tag else f.shape.indexType

/-- What follows the name of the last field of a chain: a sequence is indexed item by item, unless
it is one vector. -/
def lastWildcard (f : Field) : String :=
  match holding f with
  | .sequence _ => if fieldIndexType f = .vector then "" else arrayWildcard
  | _ => ""

/-- The names of the fields of a chain with points between them. -/
def chainName (chain : List Link) : String :=
  ".".intercalate (chain.map fun link => link.field.name)

/-- The path of a chain below the root of a document. -/
def chainPath : List Link → String
  | [] => ""
  | [link] => "." ++ link.field.pathKey ++ lastWildcard link.field
  | link :: next :: rest =>
    "." ++ link.field.pathKey ++ (holding link.field).wildcard ++ chainPath (next :: rest)

/-- A leaf is that of a chain. -/
structure Describes (chain : List Link) (l : Leaf) : Prop where
  name_eq : l.name = chainName chain
  path_eq : l.path = "$" ++ chainPath chain
  type_eq : chain.getLast?.map (fun link => fieldIndexType link.field) = some l.type

/-- Whether a field holds whole numbers, on their own or in a sequence. -/
def holdsWhole (f : Field) : Bool :=
  match holding f with
  | .one shape | .sequence shape => shape.isWhole
  | .map _ => false

/-- A leaf is that of a chain, and says whether the chain ends in whole numbers that are indexed as
such. -/
structure Depicts (chain : List Link) (l : Leaf) : Prop extends Describes chain l where
  integral_eq : chain.getLast?.map (fun link =>
    holdsWhole link.field && fieldIndexType link.field = .numeric) = some l.integral

/-- The positions of the fields of a chain. Chains in the order of declaration, the chains through
one field together, have their positions in the order of lists. -/
def positions (chain : List Link) : List Nat := chain.map Link.position

/-- A list of chains holds all chains of a record type, each once and in the order of
declaration. -/
structure Enumerates (c : Catalogue) (record : RecordType) (chains : List (List Link)) : Prop where
  mem_iff : ∀ chain, chain ∈ chains ↔ IndexedChain c record chain
  ordered : chains.Pairwise fun a b => positions a < positions b

/-- A chain has at least the field that it ends with. -/
theorem IndexedChain.ne_nil {chain : List Link} (h : IndexedChain c record chain) : chain ≠ [] := by
  cases h <;> nofun

/-! ### The leaf of one field -/

/-- The index type that counts as stated: the one that the marker names, or that of tags for a
primary key. -/
theorem stated_eq_of_statedType {field : String} {stated : Option IndexType}
    (h : statedType owner field m = .ok stated) :
    stated = (statedIndexType? m).or (if m.isPrimaryKey then some .tag else none) := by
  unfold statedType at h
  unfold statedIndexType?
  split at h
  · next hm =>
    cases h
    rw [hm]
    rfl
  · next hm =>
    split at h
    · next ht =>
      cases h
      rw [hm]
      simp [ht]
    · cases h
  · next hm =>
    cases h
    rw [hm]
    rfl

/-- The index type that is settled for a field that ends a chain. -/
theorem getD_eq_fieldIndexType {stated : Option IndexType} (hm : f.indexing? = some m)
    (h : statedType owner f.name m = .ok stated) :
    stated.getD (if holdsMap f then .tag else f.shape.unwrap.indexType) = fieldIndexType f := by
  rw [stated_eq_of_statedType h, fieldIndexType, hm, Option.bind_some,
    f.shape.unwraps.indexType_eq]
  cases statedIndexType? m with
  | some type => rfl
  | none => cases hp : m.isPrimaryKey <;> simp [hp]

/-- A field that contributes one leaf: the leaf has its name, its path and its index type. -/
theorem eq_some_leaf_of_leafOf {field path : String} {type : IndexType} {whole : Bool}
    {node : Option SchemaNode}
    (h : (do return some (← leafOf owner field path m type whole)) = Except.ok node) :
    ∃ l, node = some (.leaf l) ∧ l.name = field ∧ l.path = path ∧ l.type = type ∧
      l.integral = (whole && type = .numeric) := by
  rw [bind_eq_ok_iff] at h
  obtain ⟨leaf, hleaf, h⟩ := h
  rw [leafOf, bind_eq_ok_iff] at hleaf
  obtain ⟨options, _, hleaf⟩ := hleaf
  cases hleaf
  cases h
  exact ⟨_, rfl, rfl, rfl, rfl, rfl⟩

/-- A shape that is held as one value is held as itself. -/
theorem eq_of_ofShape_eq_one {s t : Shape} (h : Holding.ofShape s = .one t) : t = s := by
  unfold Holding.ofShape at h
  split at h
  · cases h
  · split at h
    · cases h
    · exact (Holding.one.inj h).symm

/-- A marked field that holds no searchable records is one leaf if it holds no records at all, and
else contributes nothing. -/
theorem eq_leaf_or_eq_none_of_nodeOf {node : Option SchemaNode} (hm : f.indexing? = some m)
    (hi : inner? c f = none) (h : nodeOf c nested owner f m = .ok node) :
    (EndsChain c f ∧ ∃ l, node = some (.leaf l) ∧ l.name = f.name ∧
      l.path = "$." ++ f.pathKey ++ lastWildcard f ∧ l.type = fieldIndexType f ∧
      l.integral = (holdsWhole f && fieldIndexType f = .numeric)) ∨
    (¬ EndsChain c f ∧ node = none) := by
  have hplain : ∀ r, recordType? c (holding f).shape = some r → r.isSearchable = false := by
    simpa [inner?, Option.filter_eq_none_iff] using hi
  simp only [nodeOf, bind_eq_ok_iff] at h
  obtain ⟨stated, hstated, h⟩ := h
  have htype := getD_eq_fieldIndexType hm hstated
  unfold EndsChain lastWildcard holdsWhole
  unfold holdsMap holding at htype
  unfold holding at hplain ⊢
  generalize hheld : Holding.ofShape f.shape.unwrap = held at *
  split at h
  -- a map of plain records
  · next r value hr =>
    left
    rw [hplain r hr, if_neg (by simp)] at h
    obtain ⟨l, rfl, hname, hpath, hl, hwhole⟩ := eq_some_leaf_of_leafOf h
    exact ⟨hplain, l, rfl, hname, by simpa using hpath, hl.trans htype, hwhole⟩
  -- a map of other values is refused
  · cases h
  -- plain records that no map holds
  · next held _ _ r hmap hr =>
    right
    rw [hplain r hr, if_neg (by simp)] at h
    cases h
    refine ⟨?_, rfl⟩
    cases held with
    | one shape | sequence shape => exact fun hnone => by cases hnone.symm.trans hr
    | map shape => exact absurd rfl (hmap shape)
  -- no records at all: several values or one, where a vector counts as one
  · next item hr =>
    left
    obtain ⟨l, rfl, hname, hpath, hl, hwhole⟩ := eq_some_leaf_of_leafOf h
    simp only [Bool.false_eq_true, if_false] at htype
    refine ⟨hr, l, rfl, hname, ?_, hl.trans htype, by rw [hwhole, htype]⟩
    rw [hpath, htype]
    split <;> simp [Holding.wildcard]
  · next shape hr =>
    left
    obtain ⟨l, rfl, hname, hpath, hl, hwhole⟩ := eq_some_leaf_of_leafOf h
    simp only [Bool.false_eq_true, if_false] at htype
    obtain rfl := eq_of_ofShape_eq_one hheld
    exact ⟨hr, l, rfl, hname, by simpa using hpath, hl.trans htype, by rw [hwhole, htype]⟩

/-! ### The leaves of one field -/

/-- The path of a chain starts with a point, so that it can stand after the root or after another
path. -/
theorem exists_chainPath_eq {chain : List Link} (h : chain ≠ []) :
    ∃ path, chainPath chain = "." ++ path := by
  match chain with
  | [] => exact absurd rfl h
  | [link] => exact ⟨_, by rw [chainPath, String.append_assoc]⟩
  | link :: next :: rest => exact ⟨_, by rw [chainPath, String.append_assoc, String.append_assoc]⟩

/-- The name of a longer chain is that of its rest, below the name of the first field. -/
theorem chainName_cons (link : Link) {rest : List Link} (h : rest ≠ []) :
    chainName (link :: rest) = link.field.name ++ "." ++ chainName rest := by
  obtain ⟨next, rest, rfl⟩ := List.exists_cons_of_ne_nil h
  simp only [chainName, List.map_cons, String.intercalate_cons_cons]

/-- The path of a longer chain is that of its rest, below the key of the first field and its
wildcard. -/
theorem chainPath_cons (link : Link) {rest : List Link} (h : rest ≠ []) :
    chainPath (link :: rest) =
      "." ++ link.field.pathKey ++ (holding link.field).wildcard ++ chainPath rest := by
  obtain ⟨next, rest, rfl⟩ := List.exists_cons_of_ne_nil h
  rw [chainPath]

/-- The path of a nested leaf is put in the place of the root. -/
theorem liftLeaf_path {l : Leaf} {path : String} (h : l.path = "$." ++ path) :
    (liftLeaf f l).path = holdingPath f ++ "." ++ path :=
  Leaf.under_path h f.name (aliasOfPath (holdingPath f)) (holdingPath f)

/-- A leaf of a nested schema, lifted through the field that holds it, is the leaf of the longer
chain. -/
theorem Describes.liftLeaf {chain : List Link} {l : Leaf} {link : Link} (hchain : chain ≠ [])
    (h : Describes chain l) : Describes (link :: chain) (liftLeaf link.field l) where
  name_eq := by
    rw [chainName_cons link hchain, ← h.name_eq]
    rfl
  path_eq := by
    obtain ⟨path, hpath⟩ := exists_chainPath_eq hchain
    have hl : l.path = "$." ++ path := by
      rw [h.path_eq, hpath, ← String.append_assoc]
      rfl
    rw [chainPath_cons link hchain, liftLeaf_path hl, hpath, holdingPath]
    simp only [String.append_assoc]
    rfl
  type_eq := by
    obtain ⟨next, rest, rfl⟩ := List.exists_cons_of_ne_nil hchain
    exact h.type_eq

/-- Lifting a leaf does not change whether it stands for whole numbers, which its last field
says. -/
theorem Depicts.liftLeaf {chain : List Link} {l : Leaf} {link : Link} (hchain : chain ≠ [])
    (h : Depicts chain l) : Depicts (link :: chain) (liftLeaf link.field l) where
  toDescribes := h.toDescribes.liftLeaf hchain
  integral_eq := by
    obtain ⟨next, rest, rfl⟩ := List.exists_cons_of_ne_nil hchain
    exact h.integral_eq

/-! ### Enumerating chains -/

/-- No schema is nested in a field that ends a chain. -/
theorem inner?_eq_none_of_endsChain (h : EndsChain c f) : inner? c f = none := by
  unfold EndsChain at h
  unfold inner?
  rw [Option.filter_eq_none_iff]
  intro r hr
  generalize holding f = held at h hr
  cases held with
  | one shape | sequence shape => exact nomatch h.symm.trans hr
  | map shape => rw [h r hr]; simp

/-- The chains whose first field stands at a given position. -/
theorem indexedChain_at_iff {i : Nat} {chain : List Link} (hf : record.fields[i]? = some f) :
    (IndexedChain c record chain ∧ (positions chain).head? = some i) ↔
      f.indexing?.isSome ∧ ((EndsChain c f ∧ chain = [⟨i, f⟩]) ∨
        ∃ inner rest, inner? c f = some inner ∧ IndexedChain c inner rest ∧
          chain = ⟨i, f⟩ :: rest) := by
  constructor
  · rintro ⟨hchain, hhead⟩
    cases hchain with
    | @last _ link declared marked ends =>
      obtain rfl : link.position = i := by simpa [positions] using hhead
      obtain rfl : f = link.field := Option.some.inj (hf.symm.trans declared)
      exact ⟨marked, .inl ⟨ends, rfl⟩⟩
    | @cons _ inner link rest declared marked held rest_chain =>
      obtain rfl : link.position = i := by simpa [positions] using hhead
      obtain rfl : f = link.field := Option.some.inj (hf.symm.trans declared)
      exact ⟨marked, .inr ⟨inner, rest, held, rest_chain, rfl⟩⟩
  · rintro ⟨marked, ⟨ends, rfl⟩ | ⟨inner, rest, held, rest_chain, rfl⟩⟩
    · exact ⟨.last hf marked ends, rfl⟩
    · exact ⟨.cons hf marked held rest_chain, rfl⟩

/-- A list of chains holds the chains of a record type that start at positions of some kind, each
once and in the order of declaration. -/
structure EnumeratesFrom (c : Catalogue) (record : RecordType) (starts : Nat → Prop)
    (chains : List (List Link)) : Prop where
  mem_iff : ∀ chain, chain ∈ chains ↔
    IndexedChain c record chain ∧ ∃ i, (positions chain).head? = some i ∧ starts i
  ordered : chains.Pairwise fun a b => positions a < positions b

/-- A list of leaves stands, in a given way, for the chains that start at positions of some kind. -/
def ListsFrom (c : Catalogue) (R : List Link → Leaf → Prop) (record : RecordType)
    (starts : Nat → Prop) (ls : List Leaf) : Prop :=
  ∃ chains, EnumeratesFrom c record starts chains ∧ List.Forall₂ R chains ls

/-- A chain starts with a field of its record type. -/
theorem IndexedChain.exists_head {chain : List Link} (h : IndexedChain c record chain) :
    ∃ i, (positions chain).head? = some i ∧ i < record.fields.length := by
  cases h with
  | last declared _ _ => exact ⟨_, rfl, (List.getElem?_eq_some_iff.mp declared).1⟩
  | cons declared _ _ _ => exact ⟨_, rfl, (List.getElem?_eq_some_iff.mp declared).1⟩

/-- Lists of positions are compared by their first items where these differ. So chains through an
earlier field come before those through a later one. -/
theorem lt_of_head?_lt {as bs : List Nat} {i j : Nat} (ha : as.head? = some i)
    (hb : bs.head? = some j) (hij : i < j) : as < bs := by
  obtain ⟨as, rfl⟩ := List.head?_eq_some_iff.mp ha
  obtain ⟨bs, rfl⟩ := List.head?_eq_some_iff.mp hb
  exact List.cons_lt_cons_iff.mpr (.inl hij)

variable {R : List Link → Leaf → Prop} {starts starts' : Nat → Prop} {ls ls' : List Leaf}

/-- No leaves are listed for fields of which there are none. -/
theorem listsFrom_nil (h : ∀ i < record.fields.length, ¬ starts i) :
    ListsFrom c R record starts [] := by
  refine ⟨[], ⟨fun chain => ⟨nofun, ?_⟩, .nil⟩, .nil⟩
  rintro ⟨hchain, i, hi, hstarts⟩
  obtain ⟨j, hj, hlt⟩ := hchain.exists_head
  obtain rfl : i = j := Option.some.inj (hi.symm.trans hj)
  exact absurd hstarts (h i hlt)

/-- Chains that start at earlier positions come before those that start at later ones. -/
theorem ListsFrom.append (h : ListsFrom c R record starts ls)
    (h' : ListsFrom c R record starts' ls') (hlt : ∀ i j, starts i → starts' j → i < j) :
    ListsFrom c R record (fun i => starts i ∨ starts' i) (ls ++ ls') := by
  obtain ⟨first, ⟨hfirst, hfirstOrd⟩, hfirstRel⟩ := h
  obtain ⟨later, ⟨hlater, hlaterOrd⟩, hlaterRel⟩ := h'
  refine ⟨first ++ later, ⟨fun chain => ?_, ?_⟩, List.rel_append hfirstRel hlaterRel⟩
  · rw [List.mem_append, hfirst, hlater, ← and_or_left, ← exists_or]
    simp only [and_or_left]
  · refine List.pairwise_append.mpr ⟨hfirstOrd, hlaterOrd, fun a ha b hb => ?_⟩
    obtain ⟨-, i, hi, hstarts⟩ := (hfirst a).mp ha
    obtain ⟨-, j, hj, hstarts'⟩ := (hlater b).mp hb
    exact lt_of_head?_lt hi hj (hlt i j hstarts hstarts')

/-- Only positions of fields matter to what a list of leaves covers. -/
theorem ListsFrom.congr (h : ListsFrom c R record starts ls)
    (hiff : ∀ i < record.fields.length, starts i ↔ starts' i) :
    ListsFrom c R record starts' ls := by
  obtain ⟨chains, ⟨hmem, hord⟩, hrel⟩ := h
  refine ⟨chains, ⟨fun chain => ?_, hord⟩, hrel⟩
  rw [hmem]
  refine and_congr_right fun hchain => exists_congr fun i => and_congr_right fun hi => ?_
  obtain ⟨j, hj, hlt⟩ := hchain.exists_head
  obtain rfl : i = j := Option.some.inj (hi.symm.trans hj)
  exact hiff i hlt

/-- Leaves that are listed from all fields on are those of all chains, each once and in the order of
declaration. -/
theorem ListsFrom.exists_enumerates (h : ListsFrom c R record (fun _ => True) ls) :
    ∃ chains, Enumerates c record chains ∧ List.Forall₂ R chains ls := by
  obtain ⟨chains, ⟨hmem, hord⟩, hrel⟩ := h
  refine ⟨chains, ⟨fun chain => ?_, hord⟩, hrel⟩
  rw [hmem, and_iff_left_iff_imp]
  intro hchain
  obtain ⟨i, hi, -⟩ := hchain.exists_head
  exact ⟨i, hi, trivial⟩

/-! ### What compiling carries -/

/-- A relation between chains and leaves that compiling carries from the record types that are
nested in a record type to that one: it holds of a field that is one leaf, and of a leaf seen from
the record of a field where it holds of the leaf itself. -/
structure IsCarried (c : Catalogue) (R : List Link → Leaf → Prop) : Prop where
  leaf : ∀ {nested : RecordType → Except SchemaFault (List Leaf)} {owner : String} {link : Link}
    {m : Marker} {l : Leaf}, link.field.indexing? = some m → inner? c link.field = none →
    nodeOf c nested owner link.field m = .ok (some (.leaf l)) → R [link] l
  lift : ∀ {link : Link} {rest : List Link} {l : Leaf}, rest ≠ [] → R rest l →
    R (link :: rest) (Schema.liftLeaf link.field l)

/-- Being depicted is shown for single fields and for lifted leaves. This makes it hold of all
leaves of a schema. -/
theorem isCarried_depicts : IsCarried c Depicts where
  leaf hm hi hnode := by
    obtain ⟨-, l, ⟨⟩, hname, hpath, htype, hintegral⟩ | ⟨-, ⟨⟩⟩ :=
      eq_leaf_or_eq_none_of_nodeOf hm hi hnode
    refine ⟨⟨?_, ?_, ?_⟩, ?_⟩
    · simp [hname, chainName]
    · rw [hpath, chainPath, ← String.append_assoc, ← String.append_assoc]
      rfl
    · simp [htype]
    · simp [hintegral]
  lift hrest h := h.liftLeaf hrest

/-- What a field contributes are the leaves of the chains that start with it. -/
theorem listsFrom_of_fieldLeaves {i : Nat} (hR : IsCarried c R)
    (hf : record.fields[i]? = some f)
    (hnested : ∀ inner ls, nested inner = .ok ls → ListsFrom c R inner (fun _ => True) ls)
    (h : fieldLeaves c nested owner f = .ok ls) : ListsFrom c R record (· = i) ls := by
  suffices hat : ∃ chains, (∀ chain, chain ∈ chains ↔
      IndexedChain c record chain ∧ (positions chain).head? = some i) ∧
      (chains.Pairwise fun a b => positions a < positions b) ∧ List.Forall₂ R chains ls by
    obtain ⟨chains, hmem, hord, hrel⟩ := hat
    exact ⟨chains, ⟨by simpa using hmem, hord⟩, hrel⟩
  simp only [indexedChain_at_iff hf]
  cases hm : f.indexing? with
  | none =>
    rw [fieldLeaves, hm] at h
    cases h
    exact ⟨[], by simp, .nil, .nil⟩
  | some m =>
    have hmarked : f.indexing?.isSome := by rw [hm]; rfl
    -- a field ends its chains or goes on with those of the record type that it holds
    cases hi : inner? c f with
    | none =>
      simp only [fieldLeaves, hm, bind_eq_ok_iff] at h
      obtain ⟨node, hnode, h⟩ := h
      obtain ⟨hends, l, rfl, -⟩ | ⟨hends, rfl⟩ := eq_leaf_or_eq_none_of_nodeOf hm hi hnode
      · cases h
        exact ⟨[[⟨i, f⟩]], by simp [hends], by simp, .cons (hR.leaf hm hi hnode) .nil⟩
      · cases h
        exact ⟨[], by simp [hends], .nil, .nil⟩
    | some inner =>
      obtain ⟨ls, hls, rfl⟩ := exists_of_fieldLeaves_eq_ok hmarked hi h
      obtain ⟨chains, henum, hrel⟩ := (hnested inner ls hls).exists_enumerates
      have hends : ¬ EndsChain c f := fun hends => by
        rw [inner?_eq_none_of_endsChain hends] at hi
        cases hi
      refine ⟨chains.map (⟨i, f⟩ :: ·), fun chain => ?_, ?_, ?_⟩
      · simp [henum.mem_iff, hends, eq_comm]
      · rw [List.pairwise_map]
        exact henum.ordered.imp fun hab => List.cons_lt_cons_iff.mpr (.inr ⟨rfl, hab⟩)
      · rw [List.forall₂_map_left_iff, List.forall₂_map_right_iff]
        have hchains : ∀ chain ∈ chains, chain ≠ [] := fun chain hchain =>
          ((henum.mem_iff chain).mp hchain).ne_nil
        exact ((List.forall₂_and_left chains ls).mpr ⟨hchains, hrel⟩).imp
          fun chain l hl => hR.lift hl.1 hl.2

/-- What neighbouring fields contribute are the leaves of the chains that start with one of them. -/
theorem listsFrom_of_fields {before fields after : List Field} {parts : List (List Leaf)}
    (hR : IsCarried c R) (hfields : record.fields = before ++ fields ++ after)
    (hnested : ∀ inner ls, nested inner = .ok ls → ListsFrom c R inner (fun _ => True) ls)
    (h : List.Forall₂ (fun f part => fieldLeaves c nested owner f = .ok part) fields parts) :
    ListsFrom c R record (fun i => before.length ≤ i ∧ i < before.length + fields.length)
      parts.flatten := by
  -- on the fields; those already done move to the fields before
  induction h generalizing before with
  | nil => exact listsFrom_nil fun i _ ⟨hle, hlt⟩ => by simp at hlt; omega
  | @cons f part fields parts hpart _ ih =>
    have hf : record.fields[before.length]? = some f := by simp [hfields]
    have hrest : record.fields = (before ++ [f]) ++ fields ++ after := by simp [hfields]
    have hlater := (listsFrom_of_fieldLeaves hR hf hnested hpart).append (ih hrest)
      fun i j hi hj => by simp at hj; omega
    refine hlater.congr fun i _ => ?_
    simp only [List.length_append, List.length_cons, List.length_nil]
    omega

/-- The leaves that are assembled field by field are those of the chains through these fields,
provided that nested schemas are listed rightly. The induction goes along the fields. -/
theorem listsFrom_of_assembled (hR : IsCarried c R)
    (hnested : ∀ inner ls, nested inner = .ok ls → ListsFrom c R inner (fun _ => True) ls)
    (h : assembled c nested record = .ok ls) : ListsFrom c R record (fun _ => True) ls := by
  rw [assembled, bind_eq_ok_iff] at h
  obtain ⟨parts, hparts, h⟩ := h
  cases h
  have hfields : record.fields = [] ++ record.fields ++ [] := by simp
  refine (listsFrom_of_fields hR hfields hnested (mapM_eq_ok_iff.mp hparts)).congr fun i hi => ?_
  simpa using hi

/-- What compiling carries holds of all chains of a record type and their leaves. -/
theorem listsFrom_of_leavesWithin {bound : Nat} {enclosing : List String} (hR : IsCarried c R)
    (h : leavesWithin c bound enclosing record = .ok ls) :
    ListsFrom c R record (fun _ => True) ls := by
  induction bound generalizing enclosing record ls with
  | zero => cases h
  | succ bound ih =>
    rw [leavesWithin_succ] at h
    refine listsFrom_of_assembled hR (fun inner ls hinner => ?_) h
    split at hinner
    · cases hinner
    · exact ih hinner

/-- A schema that is found within some bound lists the leaves of all chains, each with its name,
path, index type and mark for whole numbers. -/
theorem exists_depicted_of_leavesWithin {bound : Nat} {enclosing : List String} {ls : List Leaf}
    (h : leavesWithin c bound enclosing record = .ok ls) :
    ∃ chains, Enumerates c record chains ∧ List.Forall₂ Depicts chains ls :=
  (listsFrom_of_leavesWithin isCarried_depicts h).exists_enumerates

/-- A schema that is found within some bound lists the leaves of all chains, whatever the bound is
and whichever record types enclose this one. -/
theorem exists_chains_of_leavesWithin {bound : Nat} {enclosing : List String} {ls : List Leaf}
    (h : leavesWithin c bound enclosing record = .ok ls) :
    ∃ chains, Enumerates c record chains ∧ List.Forall₂ Describes chains ls := by
  obtain ⟨chains, henum, hdepicts⟩ := exists_depicted_of_leavesWithin h
  exact ⟨chains, henum, hdepicts.imp fun _ _ h => h.toDescribes⟩

/-- **The leaves of a schema.** A schema lists the chains of marked fields of its record type, each
once and in the order of declaration; the leaf of a chain has its name, its path and the index type
of its last field. -/
theorem compile_lists_chains {ls : List Leaf} (h : compile c record = .ok ls) :
    ∃ chains, Enumerates c record chains ∧ List.Forall₂ Describes chains ls :=
  exists_chains_of_leavesWithin (leaves_eq_of_compile_eq_ok h)

/-- Mailboxes that keep letters by number. -/
def mailboxes : Catalogue :=
  (Catalogue.bases.declare
    ⟨"Letter", "EmbeddedJsonModel", none, none,
      [indexedField "sender" (.optional (.scalar .text)),
        indexedField "stamps" (.generic .list false [.scalar .int])]⟩).declare
    ⟨"Mailbox", "JsonModel", none, none,
      [indexedField "received" (.generic .map false [.scalar .int, .record "Letter"])]⟩

theorem compile_lists_chains_mailboxes :
    ∃ ls chains, compile mailboxes mailboxes.types[4] = .ok ls ∧
      ls.map Leaf.path = ["$.id", "$.received.*.sender", "$.received.*.stamps[*]"] ∧
      Enumerates mailboxes mailboxes.types[4] chains ∧ List.Forall₂ Describes chains ls := by
  have h : compile mailboxes mailboxes.types[4] = .ok [
      ⟨"id", "id", "$.id", .tag, [], false⟩,
      ⟨"received.sender", "received__sender", "$.received.*.sender", .text, [], false⟩,
      ⟨"received.stamps", "received__stamps", "$.received.*.stamps[*]", .numeric, [], true⟩] := rfl
  obtain ⟨chains, henum, hdesc⟩ := compile_lists_chains h
  exact ⟨_, chains, h, rfl, henum, hdesc⟩

end Schema

end IndexedRecords
