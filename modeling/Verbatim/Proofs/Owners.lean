import Verbatim.Proofs.Tree.Traced

/-!
# One owner for every node

A node is the condition or a child of one node at most, and never lies below itself. Builds and
edits keep it so, on whatever nodes: also nodes that left the tree may be asked, and may be put
somewhere again. What counts is that they come back as they left. The checks of a link look at the
store and the links, where a subtree that left has no entries, so they take a part of it for a node
that nobody owns. Such a part can be put below another node, and then it has two owners.

## Main definitions

* `Tree.slots`: what all nodes have as conditions and as children
* `Call.Undivided`: no part is taken out of a subtree that left the tree
* `Tree.Undivided`: the states of an empty tree after any number of such calls

## Main results

* `Tree.Kept.perform`: every such call keeps tables in agreement with the owners
* `Tree.nodup_slots_of_undivided`: **no node has two owners, and no node lies below itself**
* `Tree.slots_of_divided`: where a part is taken out, it can get a second owner
-/

namespace Verbatim

open Relation

/-- What is handed over is no part of a subtree that left the tree, and if it left the tree itself,
then not together with the receiver. -/
def Candidate.Undivided (tree : Tree) (receiver : NodeId) : Candidate → Prop
  | .own node => tree.Made node ∧ (∀ owner, tree.Owns owner node → tree.contains owner) ∧
      (tree.Below node receiver → tree.contains node)
  | _ => True

/-- Receivers were made in the tree, roots are in the store, and what is put somewhere is no part of
a subtree that left the tree. -/
def Call.Undivided (tree : Tree) : Call → Prop
  | .create _ | .build _ => True
  | .setRoot node => tree.contains node
  | .setAttribute receiver .. | .removeChild receiver _ | .setConditionText receiver _ =>
    tree.Made receiver
  | .addChild receiver child _ => tree.Made receiver ∧ child.Undivided tree receiver
  | .replaceChild receiver _ new => tree.Made receiver ∧ new.Undivided tree receiver
  | .setCondition receiver condition => tree.Made receiver ∧ condition.Undivided tree receiver

namespace Tree

variable {tree other : Tree} {id x p new : NodeId}

/-- What becomes of an empty tree as long as subtrees that leave it stay in one piece. -/
inductive Undivided : Tree → Prop where
  | empty (label : String) (settings : Settings) : Undivided (empty label settings)
  | call {tree : Tree} (call : Call) : Undivided tree → call.Undivided tree →
      Undivided (tree.perform call)

/-- The conditions and the children of all nodes that were ever made, node by node. -/
def slots (tree : Tree) : List NodeId :=
  tree.names.flatMap tree.directNodes

/-! ### Slots of forests -/

theorem nodup_names (tree : Tree) : tree.names.Nodup := by
  refine List.Nodup.of_map NodeId.number ?_
  have numbers : tree.names.map NodeId.number = tree.cells.toList.zipIdx.map (·.2 + 1) := by
    rw [names, List.map_map]
    rfl
  rw [numbers]
  exact List.Nodup.of_map (· - 1) (by
    simp [Function.comp_def, List.zipIdx_map_snd, List.nodup_range'])

/-- In a forest, every node is in one slot at most. -/
theorem Forest.nodup_slots (forest : tree.Forest) : tree.slots.Nodup := by
  refine List.nodup_flatMap.2 ⟨fun p _ => forest.distinct p, ?_⟩
  refine (nodup_names tree).imp fun different x owns ownsToo => ?_
  exact different (forest.owner owns ownsToo)

/-! ### Calls -/

namespace Kept

section

variable (kept : tree.Kept)
include kept

/-- What comes in one piece can be put below the receiver if it passes the check of its link. -/
theorem attachable {candidate : Candidate} (undivided : candidate.Undivided tree p)
    (passed : tree.linkRefusal? p candidate = .ok new) :
    tree.Attachable p new ∧ tree.root ≠ some new := by
  obtain ⟨rfl, top, notRoot, apart⟩ := linkRefusal?_eq_ok.1 passed
  obtain ⟨made, owners, stored⟩ := undivided
  refine ⟨⟨made, fun q owns => ?_, fun below => ?_⟩, notRoot⟩
  · have inside := owners q owns
    rw [parent?, kept.owned (kept.down owns inside) owns] at top
    exact absurd ((if_pos inside).symm.trans top) (Option.some_ne_none q)
  · exact apart (kept.mem_lineageWithin (stored below) below (tree.depth_le p))

theorem setConditionText (made : tree.Made p) (text : String) :
    (tree.setConditionText p text).1.Kept := by
  obtain ⟨e, -, same⟩ | ⟨node, failure, -, -, same⟩ | ⟨node, condition, -, built, same⟩ :=
    setConditionText_cases tree p text <;> rw [same]
  · exact kept
  · exact kept.build node.toRaw
  · obtain ⟨planted, -, grown, rfl⟩ := build_eq_ok built
    rw [grown]
    have later := kept.plant planted
    obtain ⟨stored, loose⟩ := kept.planted planted
    refine later.touched (later.setCondition ((grown_plant tree planted).made made) fun new => ?_)
    exact later.attachable ⟨made_of_contains stored, fun q owns => absurd owns (loose q),
      fun _ => stored⟩

end

/-- **Every call that leaves subtrees in one piece keeps the tables in agreement with the owners.** -/
theorem perform (kept : tree.Kept) {call : Call} (undivided : call.Undivided tree) :
    (tree.perform call).Kept := by
  cases call with
  | create kind => exact kept.grown (grown_create tree kind)
  | build raw => exact kept.build raw
  | setRoot node =>
    show ((tree.setRoot? node).getD tree).Kept
    cases passed : tree.setRoot? node with
    | none => exact kept
    | some other => exact kept.setRoot? undivided passed
  | setAttribute receiver name value => exact kept.touched (kept.setAttribute name value)
  | addChild receiver child index =>
    exact kept.touched (kept.addChild undivided.1 (fun _ => kept.attachable undivided.2) index)
  | removeChild receiver child => exact kept.touched (kept.removeChild undivided child)
  | replaceChild receiver old new =>
    exact kept.touched (kept.replaceChild undivided.1 (fun _ => kept.attachable undivided.2) old)
  | setCondition receiver condition =>
    exact kept.touched (kept.setCondition undivided.1 fun _ => kept.attachable undivided.2)
  | setConditionText receiver text => exact kept.setConditionText undivided text

end Kept

/-! ### Runs -/

theorem Undivided.kept (undivided : tree.Undivided) : tree.Kept := by
  induction undivided with
  | empty label settings => exact (sound_empty label settings).kept
  | call call _ undivided ih => exact ih.perform undivided

/-- **No node has two owners, and no node lies below itself**, whatever left the tree and came back,
as long as it came back in one piece. -/
theorem nodup_slots_of_undivided (undivided : tree.Undivided) :
    tree.slots.Nodup ∧ ∀ x, ¬ TransGen tree.Owns x x :=
  ⟨undivided.kept.nodup_slots, undivided.kept.acyclic⟩

/-- What nobody owns can be put below a node that nobody owns. -/
theorem undivided_of_loose (made : tree.Made x) (loose : tree.Loose x) (top : tree.Loose p)
    (other : p ≠ x) : (Candidate.own x).Undivided tree p := by
  refine ⟨made, fun q owns => absurd owns (loose q), fun below => ?_⟩
  obtain same | ⟨q, -, owns⟩ := below.cases_owner
  · exact absurd same other
  · exact absurd owns (top q)

/-- A loop leaves the unit and a loop inside it leaves the one that left. Then both are put into the
unit, side by side. -/
theorem nodup_slots_of_undivided_loops : ∃ tree : Tree, tree.Undivided ∧
    (tree.slots.Nodup ∧ ∀ x, ¬ TransGen tree.Owns x x) ∧
      tree.children ⟨.compilationUnit, 1⟩ = [⟨.whileLoop, 3⟩, ⟨.whileLoop, 2⟩] := by
  let node : Node := .mk .compilationUnit [] none [.mk .whileLoop [] none
    [.mk .whileLoop [] none [] []] []] []
  let unit : NodeId := ⟨.compilationUnit, 1⟩
  let outer : NodeId := ⟨.whileLoop, 2⟩
  let inner : NodeId := ⟨.whileLoop, 3⟩
  obtain ⟨first, built⟩ : ∃ tree, tree = (empty "t" {}).perform (.build node.toJson) := ⟨_, rfl⟩
  obtain ⟨second, removed⟩ : ∃ tree, tree = first.perform (.removeChild unit (.own outer)) := ⟨_, rfl⟩
  obtain ⟨third, parted⟩ : ∃ tree, tree = second.perform (.removeChild outer (.own inner)) := ⟨_, rfl⟩
  obtain ⟨fourth, added⟩ : ∃ tree, tree = third.perform (.addChild unit (.own inner) none) := ⟨_, rfl⟩
  have undivided : first.Undivided := built ▸ .call (.build node.toJson) (.empty _ _) trivial
  have made : (first.cell? unit).isSome := by
    rw [built]
    cbv
  have undivided : second.Undivided := removed ▸ undivided.call (.removeChild unit (.own outer))
    (Option.isSome_iff_exists.1 made)
  have made : (second.cell? outer).isSome := by
    rw [removed, built]
    cbv
  have undivided : third.Undivided := parted ▸ undivided.call (.removeChild outer (.own inner))
    (Option.isSome_iff_exists.1 made)
  have made : (third.cell? unit).isSome ∧ (third.cell? inner).isSome := by
    rw [parted, removed, built]
    cbv
  have loose : third.Loose unit ∧ third.Loose inner := by
    rw [parted, removed, built]
    exact ⟨loose_of_names (by cbv), loose_of_names (by cbv)⟩
  have undivided : fourth.Undivided := added ▸ undivided.call (.addChild unit (.own inner) none)
    ⟨Option.isSome_iff_exists.1 made.1, undivided_of_loose (Option.isSome_iff_exists.1 made.2)
      loose.2 loose.1 (by decide)⟩
  have made : (fourth.cell? unit).isSome ∧ (fourth.cell? outer).isSome := by
    rw [added, parted, removed, built]
    cbv
  have loose : fourth.Loose unit ∧ fourth.Loose outer := by
    rw [added, parted, removed, built]
    exact ⟨loose_of_names (by cbv), loose_of_names (by cbv)⟩
  have undivided := undivided.call (.addChild unit (.own outer) none)
    ⟨Option.isSome_iff_exists.1 made.1, undivided_of_loose (Option.isSome_iff_exists.1 made.2)
      loose.2 loose.1 (by decide)⟩
  refine ⟨_, undivided, nodup_slots_of_undivided undivided, ?_⟩
  rw [added, parted, removed, built]
  cbv

/-- The inner one of two loops is put into the unit while the outer one, which still has it, is away.
Then the outer one comes back, and the inner one has two owners. -/
theorem slots_of_divided :
    let node : Node := .mk .compilationUnit [] none [.mk .whileLoop [] none
      [.mk .whileLoop [] none [] []] []] []
    let unit : NodeId := ⟨.compilationUnit, 1⟩
    let outer : NodeId := ⟨.whileLoop, 2⟩
    let inner : NodeId := ⟨.whileLoop, 3⟩
    let last : Tree := [.build node.toJson, .removeChild unit (.own outer),
      .addChild unit (.own inner) none, .addChild unit (.own outer) none].foldl perform (empty "t" {})
    last.Possible ∧ ¬ last.slots.Nodup := by
  intro node unit outer inner last
  obtain ⟨first, built⟩ : ∃ tree, tree = (empty "t" {}).perform (.build node.toJson) := ⟨_, rfl⟩
  obtain ⟨second, removed⟩ : ∃ tree, tree = first.perform (.removeChild unit (.own outer)) := ⟨_, rfl⟩
  obtain ⟨third, part⟩ : ∃ tree, tree = second.perform (.addChild unit (.own inner) none) := ⟨_, rfl⟩
  have whole : last = third.perform (.addChild unit (.own outer) none) := by
    rw [part, removed, built]
    rfl
  have made : (first.cell? unit).isSome := by
    rw [built]
    cbv
  have possible : first.Possible := built ▸ .call (.build node.toJson) (.empty _ _) trivial
  have possible : second.Possible := removed ▸ possible.call (.removeChild unit (.own outer))
    (Option.isSome_iff_exists.1 made)
  have made : (second.cell? unit).isSome ∧ (second.cell? inner).isSome := by
    rw [removed, built]
    cbv
  have possible : third.Possible := part ▸ possible.call (.addChild unit (.own inner) none)
    ⟨Option.isSome_iff_exists.1 made.1, Option.isSome_iff_exists.1 made.2⟩
  have made : (third.cell? unit).isSome ∧ (third.cell? outer).isSome := by
    rw [part, removed, built]
    cbv
  refine ⟨whole ▸ possible.call (.addChild unit (.own outer) none)
    ⟨Option.isSome_iff_exists.1 made.1, Option.isSome_iff_exists.1 made.2⟩, ?_⟩
  have slots : last.slots = [inner, outer, inner] := by
    rw [whole, part, removed, built]
    cbv
  rw [slots]
  decide

end Tree

end Verbatim
