import IndexedRecords.Schema.Leaf

/-!
# Flattened trees

A tree of containers and leaves is flattened level by level: each container puts its name, its alias
and its path before those of all leaves below it. So a leaf that stands under several containers is
rewritten once for each of them, and each time the root is taken off its path. Where all paths of
the tree are absolute, what comes out can be read off the way from the root of the tree down to the
leaf, whatever its depth (`Branch.rerooted`).

## Main statements

* `mem_branches_iff`, `pairwise_branches`: the branches of a tree are its leaves, each once and from
  left to right.
* `flatten_condenseAt`: it does not matter if a container anywhere in the tree is flattened first.
* `flatten_eq_rerooted`: flattening lists the branches of a tree, each as one leaf.
-/

namespace IndexedRecords

open Text

/-! ### Paths -/

/-- A path without the mark of the root. -/
def belowRoot (path : String) : String := String.ofList (path.toList.drop "$.".length)

/-- Paths below each other as one path: only the first of them keeps the root. -/
def joinPaths : List String → String
  | [] => ""
  | first :: later => ".".intercalate (first :: later.map belowRoot)

/-- The mark of the root is taken off once, from the start of the path. -/
theorem belowRoot_append (rest : String) : belowRoot ("$." ++ rest) = rest := by
  rw [belowRoot, String.toList_append, List.drop_left' (by decide), String.ofList_toList]

/-- Paths below an absolute one make an absolute path. -/
theorem joinPaths_append_cons (rest : String) (later : List String) :
    joinPaths (("$." ++ rest) :: later) =
      "$." ++ ".".intercalate (rest :: later.map belowRoot) := by
  rw [joinPaths]
  cases later with
  | nil => rw [List.map_nil, String.intercalate_singleton, String.intercalate_singleton]
  | cons next later =>
    rw [List.map_cons, String.intercalate_cons_cons, String.intercalate_cons_cons]
    simp only [String.append_assoc]

/-- The root of the second path is lost when it is put below the first one, and that of the later
paths is too. -/
theorem joinPaths_cons_append_cons (first rest : String) (later : List String) :
    joinPaths (first :: ("$." ++ rest) :: later) =
      first ++ "." ++ ".".intercalate (rest :: later.map belowRoot) := by
  rw [joinPaths, List.map_cons, belowRoot_append, String.intercalate_cons_cons]

/-- The path of a nested leaf is put in the place of the root. -/
theorem Leaf.under_path {l : Leaf} {rest : String} (h : l.path = "$." ++ rest)
    (name queryAlias path : String) :
    (l.under name queryAlias path).path = path ++ "." ++ rest := by
  have hstrip : stripLead "$.".toList ("$.".toList ++ rest.toList) = rest.toList := rfl
  rw [Leaf.under, h, String.toList_append, hstrip, String.ofList_toList]

namespace SchemaNode

/-! ### Trees -/

/-- Induction on trees: what holds of a container may be shown from what holds of its children. -/
@[elab_as_elim, induction_eliminator]
theorem inductionOn {motive : SchemaNode → Prop} (node : SchemaNode)
    (leaf : ∀ l, motive (.leaf l))
    (container : ∀ name queryAlias path children, (∀ child ∈ children, motive child) →
      motive (.container name queryAlias path children)) : motive node :=
  SchemaNode.rec (motive_2 := fun children => ∀ child ∈ children, motive child) leaf
    container nofun (fun _ _ hchild hrest => List.forall_mem_cons.mpr ⟨hchild, hrest⟩) node

/-- The name at the root of a tree. -/
def name : SchemaNode → String
  | .leaf l => l.name
  | .container name _ _ _ => name

/-- The alias at the root of a tree. -/
def queryAlias : SchemaNode → String
  | .leaf l => l.queryAlias
  | .container _ queryAlias _ _ => queryAlias

/-- The path at the root of a tree. -/
def path : SchemaNode → String
  | .leaf l => l.path
  | .container _ _ path _ => path

/-- All paths of a tree are absolute: they start at the root of a document. -/
inductive IsAbsolute : SchemaNode → Prop where
  | leaf {l : Leaf} (rest : String) (hpath : l.path = "$." ++ rest) : IsAbsolute (.leaf l)
  | container {name queryAlias path : String} {children : List SchemaNode} (rest : String)
      (hpath : path = "$." ++ rest) (hchildren : ∀ child ∈ children, IsAbsolute child) :
      IsAbsolute (.container name queryAlias path children)

/-- Trees are flattened one by one. -/
theorem flattenAll_eq_flatMap (nodes : List SchemaNode) :
    flattenAll nodes = nodes.flatMap flatten := by
  induction nodes with
  | nil => rfl
  | cons node nodes ih => rw [flattenAll, ih, List.flatMap_cons]

/-- A container puts itself before all leaves below it. -/
theorem flatten_container (name queryAlias path : String) (children : List SchemaNode) :
    flatten (.container name queryAlias path children) =
      (children.flatMap flatten).map fun l => l.under name queryAlias path := by
  rw [flatten, flattenAll_eq_flatMap]

/-- Leaves by themselves are flat already. -/
theorem flattenAll_map_leaf (ls : List Leaf) : flattenAll (ls.map .leaf) = ls := by
  induction ls with
  | nil => rfl
  | cons l ls ih => rw [List.map_cons, flattenAll, ih, flatten]; rfl

/-! ### Branches -/

/-- A leaf of a tree with the way to it: the positions of the children that are taken, and the
containers that these are the children of. -/
structure Branch where
  address : List Nat
  containers : List SchemaNode
  leaf : Leaf

namespace Branch

/-- A branch of the child that a container has at a position, as one of the container. -/
def inside (b : Branch) (node : SchemaNode) (position : Nat) : Branch :=
  ⟨position :: b.address, node :: b.containers, b.leaf⟩

/-- The nodes of a branch from the root of the tree to the leaf. -/
def nodes (b : Branch) : List SchemaNode := b.containers ++ [.leaf b.leaf]

end Branch

/-- The leaf of a branch as it is seen from the root of the tree. -/
def Branch.rerooted (b : Branch) : Leaf :=
  { b.leaf with
    name := ".".intercalate (b.nodes.map name)
    queryAlias := "__".intercalate (b.nodes.map queryAlias)
    path := joinPaths (b.nodes.map path) }

/-- The branches of a tree, one for each of its leaves. -/
inductive HasBranch : SchemaNode → Branch → Prop where
  | leaf (l : Leaf) : HasBranch (.leaf l) ⟨[], [], l⟩
  | child {name queryAlias path : String} {children : List SchemaNode} {child : SchemaNode}
      {position : Nat} {b : Branch} (hchild : children[position]? = some child)
      (hb : HasBranch child b) :
      HasBranch (.container name queryAlias path children)
        (b.inside (.container name queryAlias path children) position)

mutual

/-- The branches of a tree from left to right. -/
def branches : SchemaNode → List Branch
  | .leaf l => [⟨[], [], l⟩]
  | .container name queryAlias path children =>
    branchesFrom (.container name queryAlias path children) 0 children

/-- The branches of a container through those of its children that stand from a position on. -/
def branchesFrom (node : SchemaNode) (position : Nat) : List SchemaNode → List Branch
  | [] => []
  | child :: rest =>
    (branches child).map (·.inside node position) ++ branchesFrom node (position + 1) rest

end

variable {node child : SchemaNode} {children : List SchemaNode} {b : Branch}

/-- The branches of a container go through one of its children, at the position of that child. -/
theorem mem_branchesFrom_iff {position : Nat} :
    b ∈ branchesFrom node position children ↔
      ∃ (i : Nat) (child : SchemaNode) (inner : Branch), children[i]? = some child ∧
        inner ∈ child.branches ∧ b = inner.inside node (position + i) := by
  induction children generalizing position with
  | nil => simp [branchesFrom]
  | cons first rest ih =>
    rw [branchesFrom, List.mem_append, List.mem_map, ih]
    constructor
    · rintro (⟨inner, hinner, rfl⟩ | ⟨i, child, inner, hchild, hinner, rfl⟩)
      · exact ⟨0, first, inner, rfl, hinner, rfl⟩
      · exact ⟨i + 1, child, inner, hchild, hinner, by rw [Nat.add_right_comm, Nat.add_assoc]⟩
    · rintro ⟨_ | i, child, inner, hchild, hinner, rfl⟩
      · cases hchild
        exact .inl ⟨inner, hinner, rfl⟩
      · exact .inr ⟨i, child, inner, hchild, hinner, by rw [Nat.add_right_comm, Nat.add_assoc]⟩

/-- **Branches.** The list of the branches of a tree holds all of its branches: a leaf by itself,
and a branch of any child of a container, to any depth. -/
theorem mem_branches_iff : b ∈ node.branches ↔ node.HasBranch b := by
  induction node generalizing b with
  | leaf l =>
    rw [branches, List.mem_singleton]
    constructor
    · rintro rfl
      exact .leaf l
    · rintro ⟨⟩
      rfl
  | container name queryAlias path children ih =>
    rw [branches, mem_branchesFrom_iff]
    constructor
    · rintro ⟨i, child, inner, hchild, hinner, rfl⟩
      rw [Nat.zero_add]
      exact .child hchild ((ih child (List.mem_of_getElem? hchild)).mp hinner)
    · intro h
      cases h with
      | child hchild hinner =>
        exact ⟨_, _, _, hchild, (ih _ (List.mem_of_getElem? hchild)).mpr hinner,
          by rw [Nat.zero_add]⟩

/-- The branches of a container are in the order of addresses if those of its children are. The
position of the child comes first in an address, so that branches of different children are in order
as well. -/
theorem pairwise_branchesFrom
    (h : ∀ child ∈ children, child.branches.Pairwise fun a b => a.address < b.address)
    (position : Nat) :
    (branchesFrom node position children).Pairwise fun a b => a.address < b.address := by
  induction children generalizing position with
  | nil => exact .nil
  | cons first rest ih =>
    obtain ⟨hfirst, hrest⟩ := List.forall_mem_cons.mp h
    rw [branchesFrom, List.pairwise_append, List.pairwise_map]
    refine ⟨hfirst.imp fun hab => List.cons_lt_cons_iff.mpr (.inr ⟨rfl, hab⟩),
      ih hrest (position + 1), fun a ha b hb => ?_⟩
    obtain ⟨a, _, rfl⟩ := List.mem_map.mp ha
    obtain ⟨i, child, b, _, _, rfl⟩ := mem_branchesFrom_iff.mp hb
    exact List.cons_lt_cons_iff.mpr (.inl (by omega))

/-- Branches are listed by their addresses in the order of lists, so each stands there once. -/
theorem pairwise_branches (node : SchemaNode) :
    node.branches.Pairwise fun a b => a.address < b.address := by
  induction node with
  | leaf l => exact List.pairwise_singleton _ _
  | container name queryAlias path children ih => exact pairwise_branchesFrom ih 0

/-! ### Leaves seen from the root -/

/-- A branch starts at the root of the tree. -/
theorem HasBranch.exists_nodes_eq_cons (h : node.HasBranch b) :
    ∃ later, b.nodes = node :: later := by
  cases h with
  | leaf l => exact ⟨[], rfl⟩
  | child hchild hb => exact ⟨_, rfl⟩

/-- The path at the root of an absolute tree is absolute. -/
theorem IsAbsolute.exists_path_eq (h : node.IsAbsolute) : ∃ rest, node.path = "$." ++ rest := by
  cases h with
  | leaf rest hpath => exact ⟨rest, hpath⟩
  | container rest hpath hchildren => exact ⟨rest, hpath⟩

/-- A leaf that is a tree by itself is seen as it is. -/
theorem rerooted_leaf (l : Leaf) : Branch.rerooted ⟨[], [], l⟩ = l := by
  simp [Branch.rerooted, Branch.nodes, joinPaths, name, queryAlias, path]

/-- A branch of a child, seen from the container, is the branch as it is seen from the child, put
under the container. -/
theorem rerooted_inside (habsolute : child.IsAbsolute) (hb : child.HasBranch b) (node : SchemaNode)
    (position : Nat) :
    (b.inside node position).rerooted = b.rerooted.under node.name node.queryAlias node.path := by
  obtain ⟨later, hnodes⟩ := hb.exists_nodes_eq_cons
  obtain ⟨rest, hrest⟩ := habsolute.exists_path_eq
  have hinside : (b.inside node position).nodes = node :: child :: later := by
    rw [← hnodes]
    rfl
  -- the path below the child starts at the root, so that the root is taken off once
  have hpath : b.rerooted.path =
      "$." ++ ".".intercalate (rest :: (later.map path).map belowRoot) := by
    change joinPaths (b.nodes.map path) = _
    rw [hnodes, List.map_cons, hrest, joinPaths_append_cons]
  have hunder := Leaf.under_path hpath node.name node.queryAlias node.path
  have hnames (sep : String) (f : SchemaNode → String) :
      sep.intercalate ((b.inside node position).nodes.map f) =
        f node ++ sep ++ sep.intercalate (b.nodes.map f) := by
    rw [hinside, hnodes, List.map_cons, List.map_cons, String.intercalate_cons_cons]
  have hpaths : joinPaths ((b.inside node position).nodes.map path) =
      (b.rerooted.under node.name node.queryAlias node.path).path := by
    rw [hunder, hinside, List.map_cons, List.map_cons, hrest, joinPaths_cons_append_cons]
  rw [Branch.rerooted, hnames, hnames, hpaths]
  rfl

/-- The leaves below a container, seen from its root, are those of its children with the container
before them. -/
theorem map_rerooted_branchesFrom
    (h : ∀ child ∈ children,
      child.IsAbsolute ∧ child.flatten = child.branches.map Branch.rerooted) (position : Nat) :
    (branchesFrom node position children).map Branch.rerooted =
      (children.flatMap flatten).map fun l => l.under node.name node.queryAlias node.path := by
  induction children generalizing position with
  | nil => rfl
  | cons first rest ih =>
    obtain ⟨⟨habsolute, hfirst⟩, hrest⟩ := List.forall_mem_cons.mp h
    rw [branchesFrom, List.map_append, ih hrest, List.flatMap_cons, List.map_append, hfirst,
      List.map_map, List.map_map]
    congr 1
    exact List.map_congr_left fun b hb =>
      rerooted_inside habsolute (mem_branches_iff.mp hb) node position

/-- Flattening lists the branches of an absolute tree, each as it is seen from the root. The
induction is on the tree, with a container as the root of the branches of its children. -/
theorem flatten_eq_map_rerooted (h : node.IsAbsolute) :
    node.flatten = node.branches.map Branch.rerooted := by
  induction node with
  | leaf l => rw [flatten, branches, List.map_singleton, rerooted_leaf]
  | container name queryAlias path children ih =>
    cases h with
    | container rest hpath hchildren =>
      rw [flatten_container, branches, map_rerooted_branchesFrom fun child hchild =>
        ⟨hchildren child hchild, ih child hchild (hchildren child hchild)⟩]
      rfl

/-! ### Containers that are flattened first -/

/-- The tree in which the container at an address has the leaves of its flattened children as its
children. -/
def condenseAt : List Nat → SchemaNode → SchemaNode
  | _, .leaf l => .leaf l
  | [], .container name queryAlias path children =>
    .container name queryAlias path ((children.flatMap flatten).map .leaf)
  | position :: address, .container name queryAlias path children =>
    .container name queryAlias path (children.modify position (condenseAt address))

/-- A child may be replaced by one that has the same leaves. -/
theorem flatMap_flatten_modify {f : SchemaNode → SchemaNode}
    (h : ∀ node, (f node).flatten = node.flatten) (children : List SchemaNode) (position : Nat) :
    (children.modify position f).flatMap flatten = children.flatMap flatten := by
  induction children generalizing position with
  | nil => cases position <;> rfl
  | cons first rest ih =>
    cases position with
    | zero => rw [List.modify_zero_cons, List.flatMap_cons, List.flatMap_cons, h]
    | succ position => rw [List.modify_succ_cons, List.flatMap_cons, List.flatMap_cons, ih]

/-- Flattening a part of a tree first changes nothing in what the whole is flattened to. -/
theorem flatten_condenseAt (address : List Nat) (node : SchemaNode) :
    (node.condenseAt address).flatten = node.flatten := by
  induction address generalizing node with
  | nil =>
    cases node with
    | leaf l => rfl
    | container name queryAlias path children =>
      rw [condenseAt, flatten, flattenAll_map_leaf, flatten_container]
  | cons position address ih =>
    cases node with
    | leaf l => rfl
    | container name queryAlias path children =>
      rw [condenseAt, flatten_container, flatten_container, flatMap_flatten_modify ih]

/-- **Flattening.** A tree whose paths are absolute is flattened to one leaf for each of its
branches, from left to right: the names, the aliases and the paths on the branch are joined, where
only the first path keeps the root, and all else is that of the leaf at the end. Flattening the
children of any container beforehand makes no difference. -/
theorem flatten_eq_rerooted (h : node.IsAbsolute) :
    node.flatten = node.branches.map Branch.rerooted ∧
    (∀ b, b ∈ node.branches ↔ node.HasBranch b) ∧
    (node.branches.Pairwise fun a b => a.address < b.address) ∧
    ∀ address, (node.condenseAt address).flatten = node.flatten :=
  ⟨flatten_eq_map_rerooted h, fun _ => mem_branches_iff, pairwise_branches node,
    fun address => flatten_condenseAt address node⟩

/-- Notes whose authors have an address of their own. -/
def notes : SchemaNode :=
  .container "notes" "notes" "$.notes[*]" [
    .leaf ⟨"year", "year", "$.year", .numeric, ["SORTABLE"], true⟩,
    .container "drafts" "drafts" "$.drafts.*" [],
    .container "author" "by" "$.by" [
      .container "address" "address" "$.$.address" [
        .leaf ⟨"city", "city", "$.$.city", .tag, [], false⟩]]]

theorem flatten_eq_rerooted_notes :
    notes.IsAbsolute ∧
    notes.flatten = [
      ⟨"notes.year", "notes__year", "$.notes[*].year", .numeric, ["SORTABLE"], true⟩,
      ⟨"notes.author.address.city", "notes__by__address__city",
        "$.notes[*].by.$.address.$.city", .tag, [], false⟩] ∧
    (notes.condenseAt [2]).flatten = notes.flatten := by
  have haddress : IsAbsolute (.container "address" "address" "$.$.address"
      [.leaf ⟨"city", "city", "$.$.city", .tag, [], false⟩]) :=
    .container "$.address" rfl (List.forall_mem_singleton.mpr (.leaf "$.city" rfl))
  have h : notes.IsAbsolute := by
    refine .container "notes[*]" rfl ?_
    simp only [List.forall_mem_cons]
    exact ⟨.leaf "year" rfl, .container "drafts.*" rfl nofun,
      .container "by" rfl (List.forall_mem_singleton.mpr haddress), nofun⟩
  obtain ⟨hflatten, -, -, hcondense⟩ := flatten_eq_rerooted h
  exact ⟨h, hflatten.trans rfl, hcondense [2]⟩

end SchemaNode

end IndexedRecords
