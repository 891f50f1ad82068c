import Verbatim.Proofs.Tree.Cells

/-!
# Forests

A node owns its condition and its children. Where every node has one owner at most and no node lies
below itself, the nodes make up a forest, whether they are in the store or not. A walk down a forest
takes fewer steps than there are nodes, so the subtree of a node is found as a whole.

## Main definitions

* `Tree.Owns`, `Tree.Below`: the node right above another, and those somewhere above it
* `Tree.Forest`: what makes the nodes of a tree a forest
* `Tree.Founded`: walking down from a node ends, where nodes may have several owners
* `Tree.height`, `Tree.depth`: how many nodes there are below a node, and above it

## Main results

* `Tree.Forest.mem_subtree`: **the subtree of a node is all that lies below it**
* `Tree.Forest.rewired`: what stays a forest when one node gets other nodes to own
-/

namespace Verbatim

namespace Tree

open Relation

variable {tree other : Tree} {id x p q : NodeId}

/-! ### Owners -/

/-- The node has the other one as its condition or as a child. -/
def Owns (tree : Tree) (p x : NodeId) : Prop :=
  x ∈ tree.directNodes p

/-- The second node is the first one, or lies somewhere below it. -/
def Below (tree : Tree) : NodeId → NodeId → Prop :=
  ReflTransGen tree.Owns

/-- No node has the node as its condition or as a child. -/
def Loose (tree : Tree) (x : NodeId) : Prop :=
  ∀ p, ¬ tree.Owns p x

theorem Owns.made (owns : tree.Owns p x) : tree.Made p := by
  by_contra missing
  have nothing : tree.cell? p = none := by
    cases found : tree.cell? p with
    | none => rfl
    | some cell => exact absurd ⟨cell, found⟩ missing
  simp [Owns, directNodes, condition?, children, nothing] at owns

/-- A node owns its condition. -/
theorem owns_condition (member : x ∈ tree.condition? p) : tree.Owns p x :=
  List.mem_append_left _ (Option.mem_toList.2 member)

/-- A node owns its children. -/
theorem owns_child (member : x ∈ tree.children p) : tree.Owns p x :=
  List.mem_append_right _ member

theorem Below.single (owns : tree.Owns p x) : tree.Below p x :=
  ReflTransGen.single owns

/-- A node below another one is that node, or its owner is below it as well. -/
theorem Below.cases_owner (below : tree.Below id x) :
    x = id ∨ ∃ p, tree.Below id p ∧ tree.Owns p x :=
  ReflTransGen.cases_tail below

/-- Nothing has a loose node below it but the node itself. -/
theorem Loose.eq_of_below (loose : tree.Loose x) (below : tree.Below id x) : x = id :=
  below.cases_owner.resolve_right fun ⟨p, _, owns⟩ => loose p owns

theorem Alike.owns (alike : tree.Alike other) : other.Owns = tree.Owns := by
  funext p x
  rw [Owns, Owns, alike.directNodes]

theorem Alike.below (alike : tree.Alike other) : other.Below = tree.Below := by
  rw [Below, Below, alike.owns]

/-- The nodes of the tree make up a forest. -/
structure Forest (tree : Tree) : Prop where
  made : ∀ {p x}, tree.Owns p x → tree.Made x
  distinct : ∀ p, (tree.directNodes p).Nodup
  owner : ∀ {p q x}, tree.Owns p x → tree.Owns q x → p = q
  acyclic : ∀ x, ¬ TransGen tree.Owns x x

/-- Nothing that is below the node lies below itself, so walking down from it ends. Nodes may have
several owners. -/
def Founded (tree : Tree) (id : NodeId) : Prop :=
  ∀ p, tree.Below id p → ¬ TransGen tree.Owns p p

theorem Forest.founded (forest : tree.Forest) (id : NodeId) : tree.Founded id :=
  fun p _ => forest.acyclic p

theorem Founded.of_below (founded : tree.Founded id) (below : tree.Below id x) : tree.Founded x :=
  fun p further => founded p (below.trans further)

theorem Founded.of_owns (founded : tree.Founded id) (owns : tree.Owns id x) : tree.Founded x :=
  founded.of_below (.single owns)

theorem Alike.forest (alike : tree.Alike other) (forest : tree.Forest) : other.Forest where
  made owns := alike.made.2 (forest.made (alike.owns ▸ owns))
  distinct p := by
    rw [alike.directNodes]
    exact forest.distinct p
  owner owns ownsToo := by
    rw [alike.owns] at owns ownsToo
    exact forest.owner owns ownsToo
  acyclic x := by
    rw [alike.owns]
    exact forest.acyclic x

namespace Forest

variable (forest : tree.Forest)
include forest

theorem made_of_below (below : tree.Below id x) (made : tree.Made id) : tree.Made x := by
  obtain rfl | ⟨p, -, owns⟩ := below.cases_owner
  · exact made
  · exact forest.made owns

/-- An owner does not lie below what it owns. -/
theorem not_below_owner (owns : tree.Owns p x) : ¬ tree.Below x p :=
  fun below => forest.acyclic x (TransGen.tail' below owns)

/-- What lies below a node lies there with its owner, but for the node itself. -/
theorem below_owner (owns : tree.Owns q x) (below : tree.Below p x) (other : x ≠ p) :
    tree.Below p q := by
  obtain same | ⟨owner, above, ownsToo⟩ := below.cases_owner
  · exact absurd same other
  · rwa [forest.owner ownsToo owns] at above

/-- Two nodes with something below both of them lie one below the other. -/
theorem below_or_below (first : tree.Below p x) (second : tree.Below q x) :
    tree.Below p q ∨ tree.Below q p := by
  induction first with
  | refl => exact .inr second
  | tail above owns ih =>
    obtain rfl | ⟨owner, below, ownsToo⟩ := second.cases_owner
    · exact .inl (above.tail owns)
    · rw [forest.owner ownsToo owns] at below
      exact ih below

/-- What lies below a loose node and below another node has the one below the other. -/
theorem below_of_loose (loose : tree.Loose q) (first : tree.Below p x) (second : tree.Below q x) :
    tree.Below q p := by
  obtain below | below := forest.below_or_below first second
  · obtain rfl := loose.eq_of_below below
    exact .refl
  · exact below

end Forest

/-! ### Counting nodes -/

/-- The names of all nodes of the tree. -/
def names (tree : Tree) : List NodeId :=
  tree.cells.toList.zipIdx.map fun (cell, place) => ⟨cell.kind, place + 1⟩

theorem Made.mem_names (made : tree.Made id) : id ∈ tree.names := by
  have positive := made.number_pos
  obtain ⟨cell, found⟩ := made
  obtain ⟨-, here, kind⟩ := cell?_eq_some.1 found
  rw [names, List.mem_map]
  refine ⟨(cell, id.number - 1), List.mk_mem_zipIdx_iff_getElem?.2 (by simpa using here), ?_⟩
  obtain ⟨k, number⟩ := id
  simp only at kind positive ⊢
  rw [kind, Nat.sub_add_cancel positive]

/-- Whether a node is loose can be seen from the names. -/
theorem loose_of_names (nobody : tree.names.all fun p => !(tree.directNodes p).contains x) :
    tree.Loose x := by
  intro p owns
  have free := List.all_eq_true.1 nobody p owns.made.mem_names
  rw [Bool.not_eq_true', ← Bool.not_eq_true, List.contains_iff_mem] at free
  exact free owns

open Classical in
/-- How many nodes pass a test. -/
noncomputable def count (tree : Tree) (test : NodeId → Prop) : Nat :=
  (tree.names.toFinset.filter test).card

theorem count_le (tree : Tree) (test : NodeId → Prop) : tree.count test ≤ tree.cells.size := by
  classical
  calc tree.count test ≤ tree.names.toFinset.card := Finset.card_filter_le _ _
    _ ≤ tree.names.length := List.toFinset_card_le _
    _ = tree.cells.size := by simp [names]

theorem count_lt {less more : NodeId → Prop} (within : ∀ x, less x → more x) (made : tree.Made id)
    (passes : more id) (fails : ¬ less id) : tree.count less < tree.count more := by
  classical
  apply Finset.card_lt_card
  rw [Finset.ssubset_iff_of_subset (Finset.monotone_filter_right _ fun x _ => within x)]
  refine ⟨id, Finset.mem_filter.2 ⟨List.mem_toFinset.2 made.mem_names, passes⟩, ?_⟩
  exact fun member => fails (Finset.mem_filter.1 member).2

/-- How many nodes are below a node, with the node itself. -/
noncomputable def height (tree : Tree) (id : NodeId) : Nat :=
  tree.count (tree.Below id)

/-- How many nodes are above a node, with the node itself. -/
noncomputable def depth (tree : Tree) (id : NodeId) : Nat :=
  tree.count fun x => tree.Below x id

theorem height_le (tree : Tree) (id : NodeId) : tree.height id ≤ tree.cells.size :=
  count_le tree _

theorem depth_le (tree : Tree) (id : NodeId) : tree.depth id ≤ tree.cells.size :=
  count_le tree _

theorem height_lt_of_acyclic (acyclic : ¬ TransGen tree.Owns p p) (owns : tree.Owns p x) :
    tree.height x < tree.height p :=
  count_lt (fun _ below => .head owns below) owns.made .refl
    fun above => acyclic (TransGen.head' owns above)

theorem Founded.height_lt (founded : tree.Founded p) (owns : tree.Owns p x) :
    tree.height x < tree.height p :=
  height_lt_of_acyclic (founded p .refl) owns

theorem Forest.height_lt (forest : tree.Forest) (owns : tree.Owns p x) :
    tree.height x < tree.height p :=
  height_lt_of_acyclic (forest.acyclic p) owns

theorem Forest.depth_lt (forest : tree.Forest) (owns : tree.Owns p x) :
    tree.depth p < tree.depth x :=
  count_lt (fun _ below => .tail below owns) (forest.made owns) .refl (forest.not_below_owner owns)

/-! ### Subtrees -/

theorem below_of_mem_subtreeWithin {steps : Nat} (member : x ∈ tree.subtreeWithin steps id) :
    tree.Below id x := by
  induction steps generalizing id with
  | zero =>
    obtain rfl := List.mem_singleton.1 member
    exact .refl
  | succ steps ih =>
    obtain rfl | deeper := List.mem_cons.1 member
    · exact .refl
    · obtain ⟨sub, owns, inside⟩ := List.mem_flatMap.1 deeper
      exact .head owns (ih inside)

/-- Walking down finds all that lies below a node, if nothing there lies below itself. -/
theorem Founded.mem_subtreeWithin {steps : Nat} (founded : tree.Founded id)
    (enough : tree.height id ≤ steps) (below : tree.Below id x) :
    x ∈ tree.subtreeWithin steps id := by
  induction steps generalizing id with
  | zero =>
    obtain rfl | ⟨sub, owns, -⟩ := ReflTransGen.cases_head below
    · exact List.mem_singleton_self _
    · have := founded.height_lt owns
      omega
  | succ steps ih =>
    obtain rfl | ⟨sub, owns, inside⟩ := ReflTransGen.cases_head below
    · exact List.mem_cons_self
    · have lower := founded.height_lt owns
      refine List.mem_cons_of_mem _ (List.mem_flatMap.2 ⟨sub, owns, ?_⟩)
      exact ih (founded.of_owns owns) (by omega) inside

/-- The subtree of a node is all that lies below it, if nothing there lies below itself. -/
theorem Founded.mem_subtree (founded : tree.Founded id) :
    x ∈ tree.subtree id ↔ tree.Below id x :=
  ⟨below_of_mem_subtreeWithin, founded.mem_subtreeWithin (tree.height_le id)⟩

namespace Forest

variable (forest : tree.Forest)
include forest

/-- **The subtree of a node is all that lies below it.** -/
theorem mem_subtree : x ∈ tree.subtree id ↔ tree.Below id x :=
  (forest.founded id).mem_subtree

end Forest

/-! ### Rewiring one node -/

/-- A node owns other nodes than before: some may be gone, and one may be new. -/
structure Rewired (tree other : Tree) (p : NodeId) (gone here : Option NodeId) : Prop where
  made : ∀ {x}, other.Made x ↔ tree.Made x
  owns : ∀ {q x}, other.Owns q x ↔ tree.Owns q x ∧ x ∉ gone ∨ q = p ∧ x ∈ here
  distinct : (other.directNodes p).Nodup
  elsewhere : ∀ {q}, q ≠ p → other.directNodes q = tree.directNodes q

/-- What can be put below a node: it was made in the tree, nobody owns it, and the node is not below
it. -/
structure Attachable (tree : Tree) (p new : NodeId) : Prop where
  made : tree.Made new
  loose : tree.Loose new
  apart : ¬ tree.Below new p

/-- Where one node may own new nodes and all others own what they did, a way down was there before,
or goes through a new node. -/
theorem below_or_through {here : Option NodeId}
    (owns : ∀ {q x}, other.Owns q x → tree.Owns q x ∨ q = p ∧ x ∈ here)
    (strictly : TransGen other.Owns q x) : TransGen tree.Owns q x ∨
      ∃ new ∈ here, tree.Below q p ∧ tree.Below new x := by
  induction strictly with
  | single last =>
    obtain before | ⟨rfl, new⟩ := owns last
    · exact .inl (.single before)
    · exact .inr ⟨_, new, .refl, .refl⟩
  | tail _ last ih =>
    obtain before | ⟨rfl, new⟩ := owns last
    · refine ih.imp (·.tail before) ?_
      rintro ⟨new, member, above, below⟩
      exact ⟨new, member, above, below.tail before⟩
    · obtain path | ⟨-, -, above, -⟩ := ih
      · exact .inr ⟨_, new, path.to_reflTransGen, .refl⟩
      · exact .inr ⟨_, new, above, .refl⟩

/-- Walking down still ends when a node gets new ones that it is not below, if it does from them. -/
theorem Founded.rewired {here : Option NodeId} (founded : tree.Founded id)
    (owns : ∀ {q x}, other.Owns q x → tree.Owns q x ∨ q = p ∧ x ∈ here)
    (fits : ∀ new ∈ here, tree.Founded new ∧ ¬ tree.Below new p) : other.Founded id := by
  intro x below cycle
  obtain before | ⟨new, member, above, down⟩ := below_or_through owns cycle
  · obtain rfl | strictly := reflTransGen_iff_eq_or_transGen.1 below
    · exact founded x .refl before
    · obtain inside | ⟨new, member, -, inside⟩ := below_or_through owns strictly
      · exact founded x inside.to_reflTransGen before
      · exact (fits new member).1 x inside before
  · exact (fits new member).2 (down.trans above)

/-- A forest stays one when a node gets other nodes to own. -/
theorem Forest.rewired {gone here : Option NodeId} (forest : tree.Forest)
    (rewired : tree.Rewired other p gone here) (fits : ∀ new ∈ here, tree.Attachable p new) :
    other.Forest where
  made owns := by
    refine rewired.made.2 ?_
    obtain ⟨before, -⟩ | ⟨-, new⟩ := rewired.owns.1 owns
    · exact forest.made before
    · exact (fits _ new).made
  distinct q := by
    by_cases same : q = p
    · rw [same]
      exact rewired.distinct
    · rw [rewired.elsewhere same]
      exact forest.distinct q
  owner owns ownsToo := by
    obtain ⟨before, -⟩ | ⟨rfl, new⟩ := rewired.owns.1 owns <;>
      obtain ⟨beforeToo, -⟩ | ⟨rfl, newToo⟩ := rewired.owns.1 ownsToo
    · exact forest.owner before beforeToo
    · exact absurd before ((fits _ newToo).loose _)
    · exact absurd beforeToo ((fits _ new).loose _)
    · rfl
  acyclic x := by
    refine (forest.founded x).rewired (fun owned => ?_)
      (fun new member => ⟨forest.founded new, (fits new member).apart⟩) x .refl
    exact (rewired.owns.1 owned).imp_left And.left

end Tree

end Verbatim
