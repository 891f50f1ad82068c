import Verbatim.Proofs.Build.JsonForm
import Verbatim.Proofs.Tree.Views

/-!
# Nodes at places

A path leads down a value, to the node at its end, and that node can be changed where it stands. The
path that a tree gives for a node leads down the value of the topmost node above it. So what is known
of a value with one node changed is known of the changed node, and of the node right above it.

## Main definitions

* `Node.at?`: the node that a path leads to
* `Node.update`: the node that a path leads to, changed where it stands

## Main results

* `Node.at?_update`, `Node.All.update`: what is at a place after a change there, and what is
  everywhere
* `Tree.Forest.at?_path`: **the path of a node leads to it**
-/

namespace Verbatim

namespace Node

variable {node inner : Node} {change : Node → Node} {property : Node → Prop}

/-! ### Values -/

/-- The node one step below a node. -/
def step? (node : Node) : PathStep → Option Node
  | .condition => node.condition
  | .index place => node.children[place]?

/-- The node that a path leads to. -/
def at? (node : Node) : Path → Option Node
  | [] => some node
  | step :: rest => (node.step? step).bind fun below => below.at? rest

/-- The node with the one that a path leads to changed, and all others as they are. -/
def update (change : Node → Node) : Path → Node → Node
  | [], node => change node
  | .condition :: rest, mk kind attributes condition children gaps =>
    mk kind attributes (condition.map (update change rest)) children gaps
  | .index place :: rest, mk kind attributes condition children gaps =>
    mk kind attributes condition (children.modify place (update change rest)) gaps

theorem step?_update (step : PathStep) (rest : Path) :
    (node.update change (step :: rest)).step? step = (node.step? step).map (update change rest) := by
  obtain ⟨kind, attributes, condition, children, gaps⟩ := node
  cases step with
  | condition => rfl
  | index place => exact List.getElem?_modify_eq _ _ _

theorem update_congr {other : Node → Node} {path : Path} (found : node.at? path = some inner)
    (same : other inner = change inner) : node.update other path = node.update change path := by
  induction path generalizing node with
  | nil =>
    obtain rfl := Option.some.inj found
    exact same
  | cons step rest ih =>
    obtain ⟨below, stepped, deeper⟩ := Option.bind_eq_some_iff.1 found
    obtain ⟨kind, attributes, condition, children, gaps⟩ := node
    cases step with
    | condition =>
      obtain rfl : condition = some below := stepped
      rw [update, update, Option.map_some, Option.map_some, ih deeper]
    | index place =>
      rw [update, update]
      congr 1
      refine List.ext_getElem? fun spot => ?_
      rw [List.getElem?_modify, List.getElem?_modify]
      by_cases here : place = spot
      · subst here
        simp [show children[place]? = some below from stepped, ih deeper]
      · simp [here]

theorem at?_update {path : Path} (found : node.at? path = some inner) :
    (node.update change path).at? path = some (change inner) := by
  induction path generalizing node with
  | nil => exact Option.some.inj found ▸ rfl
  | cons step rest ih =>
    obtain ⟨below, stepped, found⟩ := Option.bind_eq_some_iff.1 found
    rw [at?, step?_update, stepped]
    exact ih found

/-- A change at the end of a path is a change of every node on the way. -/
theorem update_append (change : Node → Node) (front rest : Path) :
    update change (front ++ rest) = update (update change rest) front := by
  induction front with
  | nil => rfl
  | cons step front ih =>
    funext ⟨kind, attributes, condition, children, gaps⟩
    cases step <;> rw [List.cons_append, update, update, ih]

theorem All.step (all : node.All property) {step : PathStep} (found : node.step? step = some inner) :
    inner.All property := by
  obtain ⟨-, condition, children⟩ := all
  cases step with
  | condition => exact condition inner found
  | index place => exact children inner (List.mem_of_getElem? found)

/-- What holds of a node and everything below it holds at every place. -/
theorem All.at? (all : node.All property) {path : Path} (found : node.at? path = some inner) :
    inner.All property := by
  induction path generalizing node with
  | nil => exact Option.some.inj found ▸ all
  | cons step rest ih =>
    obtain ⟨below, stepped, found⟩ := Option.bind_eq_some_iff.1 found
    exact ih (all.step stepped) found

/-- A change below a node leaves what the raw value of the node relies on. -/
theorem Written.update (written : node.Written) (step : PathStep) (rest : Path) :
    (node.update change (step :: rest)).Written := by
  obtain ⟨kind, attributes, condition, children, gaps⟩ := node
  cases step with
  | condition =>
    exact ⟨written.names, fun absent => Option.map_eq_none_iff.2 (written.slot absent), written.gaps⟩
  | index place => exact ⟨written.names, written.slot, written.gaps⟩

/-- What holds everywhere, and does not depend on what is below, holds everywhere after a change. -/
theorem All.update (all : node.All property)
    (stays : ∀ node step rest, property node → property (Node.update change (step :: rest) node))
    {path : Path} (found : node.at? path = some inner) (changed : (change inner).All property) :
    (node.update change path).All property := by
  induction path generalizing node with
  | nil => exact Option.some.inj found ▸ changed
  | cons step rest ih =>
    obtain ⟨below, stepped, found⟩ := Option.bind_eq_some_iff.1 found
    have here := stays node step rest all.here
    have later := ih (all.step stepped) found
    obtain ⟨-, belowCondition, belowChildren⟩ := all
    obtain ⟨kind, attributes, condition, children, gaps⟩ := node
    cases step with
    | condition =>
      obtain rfl : condition = some below := stepped
      refine .mk here (fun other member => ?_) belowChildren
      exact Option.some.inj member ▸ later
    | index place =>
      refine .mk here belowCondition fun other member => ?_
      obtain ⟨spot, there⟩ := List.mem_iff_getElem?.1 member
      rw [Node.update, Node.children, List.getElem?_modify] at there
      obtain ⟨before, was, rfl⟩ := Option.map_eq_some_iff.1 there
      split
      · next same =>
        subst same
        obtain rfl : below = before := Option.some.inj (stepped.symm.trans was)
        exact later
      · exact belowChildren before (List.mem_of_getElem? was)

end Node

namespace Tree

open Relation

variable {tree : Tree} {id p x top : NodeId} {path rest : Path} {steps place : Nat}

/-! ### Trees -/

theorem step?_index (tree : Tree) (p : NodeId) (place : Nat) :
    tree.step? p (PathStep.index place).request = (tree.children p)[place]? := by
  rw [PathStep.request, step?, if_neg (Int.not_lt.2 (Int.natCast_nonneg place)), Int.toNat_natCast]

/-- A node that a step leads to is owned. -/
theorem owns_of_step? {step : PathStep} (stepped : tree.step? p step.request = some x) :
    tree.Owns p x := by
  cases step with
  | condition => exact owns_condition stepped
  | index place =>
    rw [step?_index] at stepped
    exact owns_child (List.mem_of_getElem? stepped)

/-- Step by step down, one below the other. -/
theorem below_of_descend (reached : tree.descend id (path.map PathStep.request) = .ok x) :
    tree.Below id x := by
  induction path generalizing id with
  | nil => exact Except.ok.inj reached ▸ .refl
  | cons step rest ih =>
    rw [List.map_cons, descend] at reached
    split at reached
    · next below stepped => exact .head (owns_of_step? stepped) (ih reached)
    · contradiction

/-- One more step down. -/
theorem descend_concat {step : PathStep} :
    tree.descend id ((path ++ [step]).map PathStep.request) = .ok x ↔
      ∃ p, tree.descend id (path.map PathStep.request) = .ok p ∧
        tree.step? p step.request = some x := by
  induction path generalizing id with
  | nil => cases stepped : tree.step? id step.request <;> simp [descend, stepped]
  | cons first rest ih =>
    rw [List.cons_append, List.map_cons, descend, List.map_cons, descend]
    cases tree.step? id first.request with
    | none => simp
    | some below => exact ih

/-- The steps up from a node are those down from the last node above it. -/
theorem descend_pathWithin (found : tree.pathWithin steps id rest = .ok path) :
    ∃ front top, path = front ++ rest ∧ (tree.lineageWithin steps id).getLast? = some top ∧
      tree.descend top (front.map PathStep.request) = .ok id := by
  induction steps generalizing id rest with
  | zero => exact ⟨[], id, (Except.ok.inj found).symm, rfl, rfl⟩
  | succ steps ih =>
    rw [pathWithin] at found
    rw [lineageWithin]
    cases above : tree.parent? id with
    | none =>
      rw [above] at found
      exact ⟨[], id, (Except.ok.inj found).symm, rfl, rfl⟩
    | some p =>
      rw [above] at found
      -- One more step down from the parent.
      have further {step : PathStep} (stepped : tree.step? p step.request = some id)
          (found : tree.pathWithin steps p (step :: rest) = .ok path) :
          ∃ front top, path = front ++ rest ∧
            (id :: tree.lineageWithin steps p).getLast? = some top ∧
              tree.descend top (front.map PathStep.request) = .ok id := by
        obtain ⟨front, top, rfl, last, reached⟩ := ih found
        exact ⟨front ++ [step], top, by simp, by simp [List.getLast?_cons, last],
          descend_concat.2 ⟨p, reached, stepped⟩⟩
      dsimp only at found ⊢
      split at found
      · next slot =>
        have stepped : tree.step? p PathStep.condition.request = some id := of_decide_eq_true slot
        exact further stepped found
      · split at found
        · next spot =>
          exact further ((tree.step?_index p _).trans (getElem?_of_position? spot)) found
        · contradiction

/-- A step leads to the same node in the tree and in its value. -/
theorem Founded.step?_view (founded : tree.Founded p) (step : PathStep) :
    (tree.view p).step? step = (tree.step? p step.request).map tree.view := by
  rw [founded.view_eq]
  cases step with
  | condition => rfl
  | index place =>
    rw [step?_index]
    exact List.getElem?_map ..

/-- The node that steps lead to is seen at their end. -/
theorem Founded.at?_of_descend (founded : tree.Founded id)
    (reached : tree.descend id (path.map PathStep.request) = .ok x) :
    (tree.view id).at? path = some (tree.view x) := by
  induction path generalizing id with
  | nil => exact Except.ok.inj reached ▸ rfl
  | cons step rest ih =>
    rw [List.map_cons, descend] at reached
    split at reached
    · next below stepped =>
      rw [Node.at?, founded.step?_view, stepped]
      exact ih (founded.of_owns (owns_of_step? stepped)) reached
    · contradiction

namespace Forest

variable (forest : tree.Forest)
include forest

/-- The steps up from a node are those down the value of the last node above it. -/
theorem at?_pathWithin (found : tree.pathWithin steps id rest = .ok path) :
    ∃ front top, path = front ++ rest ∧ (tree.lineageWithin steps id).getLast? = some top ∧
      tree.Below top id ∧ (tree.view top).at? front = some (tree.view id) := by
  obtain ⟨front, top, split, last, reached⟩ := descend_pathWithin found
  exact ⟨front, top, split, last, below_of_descend reached,
    (forest.founded top).at?_of_descend reached⟩

/-- **The path of a node leads to it**, from the topmost node above it. -/
theorem at?_path (found : tree.path id = .ok path) :
    ∃ top, (tree.lineage id).getLast? = some top ∧ tree.Below top id ∧
      (tree.view top).at? path = some (tree.view id) := by
  obtain ⟨front, top, rfl, last, below, reached⟩ := forest.at?_pathWithin found
  rw [List.append_nil]
  exact ⟨top, last, below, reached⟩

/-- The path of a child ends with the step from its parent. -/
theorem at?_path_parent (found : tree.path x = .ok path) (above : tree.parent? x = some p)
    (spot : tree.position? p x = some place) :
    ∃ front top, path = front ++ [.index place] ∧ (tree.lineage x).getLast? = some top ∧
      (tree.view top).at? front = some (tree.view p) := by
  have child := List.mem_of_getElem? (getElem?_of_position? spot)
  -- What is a child is not the condition as well.
  have slot : ¬ tree.isConditionOf x p := fun slot =>
    (List.nodup_append.1 (forest.distinct p)).2.2 x
      (Option.mem_toList.2 (of_decide_eq_true slot)) x child rfl
  have made := forest.made (owns_child child)
  obtain ⟨steps, size⟩ := Nat.exists_eq_succ_of_ne_zero (n := tree.cells.size)
    (by have := made.number_le; have := made.number_pos; omega)
  rw [Tree.path, size, pathWithin, above] at found
  simp only [slot, spot] at found
  obtain ⟨front, top, rfl, last, -, reached⟩ := forest.at?_pathWithin found
  refine ⟨front, top, rfl, ?_, reached⟩
  rw [lineage, size, lineageWithin, above]
  simp [List.getLast?_cons, last]

end Forest

end Tree

end Verbatim
