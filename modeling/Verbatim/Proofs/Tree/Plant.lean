import Verbatim.Tree.Source
import Verbatim.Proofs.Build.Depth
import Verbatim.Proofs.Source.Lexemes

/-!
# Planted nodes

A node that is put into a tree is found there again: seen as a value it is the node it was.

## Main definitions

* `Tree.Has`: the cells of the tree from a number on

## Main results

* `Node.length_cellsFrom`: every node takes one number
* `Tree.view_plant`: **a planted node looks like itself**
-/

namespace Verbatim

namespace Node

/-! ### Numbers -/

mutual

theorem length_cellsFrom (number : Nat) (link : Link) : ∀ node : Node,
    (cellsFrom number link node).length = node.size
  | mk kind attributes none children gaps => by
    rw [cellsFrom, size, List.length_cons, length_childCells, Nat.add_comm]
  | mk kind attributes (some condition) children gaps => by
    rw [cellsFrom, size, List.length_append, List.length_cons, length_cellsFrom,
      length_childCells]
    omega

theorem length_childCells (number : Nat) (parent : NodeId) : ∀ nodes : List Node,
    (childCells number parent nodes).2.length = sizeAll nodes
  | [] => rfl
  | child :: rest => by
    rw [childCells, sizeAll, List.length_append, length_cellsFrom, length_childCells]

end

end Node

namespace Tree

/-! ### Cells from a number on -/

/-- From the given number on, the tree has the given cells. -/
def Has (tree : Tree) (number : Nat) (cells : List Cell) : Prop :=
  ∃ before after, tree.cells.toList = before ++ (cells ++ after) ∧ number = before.length + 1

theorem Has.append {tree : Tree} {number : Nat} {first second : List Cell}
    (h : tree.Has number (first ++ second)) :
    tree.Has number first ∧ tree.Has (number + first.length) second := by
  obtain ⟨before, after, same, rfl⟩ := h
  refine ⟨⟨before, second ++ after, by rw [same, List.append_assoc], rfl⟩,
    ⟨before ++ first, after, by rw [same]; simp, ?_⟩⟩
  rw [List.length_append]
  omega

theorem Has.cons {tree : Tree} {number : Nat} {cell : Cell} {rest : List Cell}
    (h : tree.Has number (cell :: rest)) : tree.Has (number + 1) rest :=
  (@Has.append tree number [cell] rest h).2

theorem Has.cell? {tree : Tree} {number : Nat} {cell : Cell} {rest : List Cell}
    (h : tree.Has number (cell :: rest)) : tree.cell? ⟨cell.kind, number⟩ = some cell := by
  obtain ⟨before, after, same, rfl⟩ := h
  have found : tree.cells[before.length]? = some cell := by
    rw [← Array.getElem?_toList, same]
    simp
  rw [Tree.cell?, if_neg (by simp), Nat.add_sub_cancel, found]
  simp

/-! ### Values of planted nodes -/

mutual

theorem viewWithin_of_has {tree : Tree} : ∀ (node : Node) {number steps : Nat} {link : Link},
    node.size ≤ steps → tree.Has number (node.cellsFrom number link) →
      tree.viewWithin steps ⟨node.kind, number⟩ = node
  | .mk kind attributes none children gaps, number, 0, link, few, _ => by
    simp [Node.size] at few
  | .mk kind attributes none children gaps, number, steps + 1, link, few, has => by
    rw [Node.size] at few
    rw [Node.cellsFrom] at has
    have enough : Node.sizeAll children ≤ steps := by omega
    have below := map_viewWithin_of_has children enough has.cons
    show tree.viewWithin (steps + 1) ⟨kind, number⟩ = _
    simp only [viewWithin, has.cell?, ConditionSlot.node?, Option.map_none, below]
  | .mk kind attributes (some condition) children gaps, number, 0, link, few, _ => by
    rw [Node.size] at few
    omega
  | .mk kind attributes (some condition) children gaps, number, steps + 1, link, few, has => by
    rw [Node.size] at few
    rw [Node.cellsFrom] at has
    obtain ⟨first, later⟩ := has.append
    rw [List.length_cons, Node.length_cellsFrom, ← Nat.add_assoc, Nat.add_right_comm] at later
    have enough : condition.size ≤ steps ∧ Node.sizeAll children ≤ steps := by omega
    have inner := viewWithin_of_has condition enough.1 first.cons
    have below := map_viewWithin_of_has children enough.2 later
    show tree.viewWithin (steps + 1) ⟨kind, number⟩ = _
    simp only [viewWithin, first.cell?, ConditionSlot.node?, Option.map_some, inner, below]

theorem map_viewWithin_of_has {tree : Tree} : ∀ (nodes : List Node) {number steps : Nat}
    {parent : NodeId}, Node.sizeAll nodes ≤ steps →
      tree.Has number (Node.childCells number parent nodes).2 →
        (Node.childCells number parent nodes).1.map (tree.viewWithin steps) = nodes
  | [], _, _, _, _, _ => rfl
  | child :: rest, number, steps, parent, few, has => by
    rw [Node.sizeAll] at few
    rw [Node.childCells] at has ⊢
    obtain ⟨here, later⟩ := has.append
    rw [Node.length_cellsFrom] at later
    rw [List.map_cons, viewWithin_of_has child (by omega) here,
      map_viewWithin_of_has rest (by omega) later]

end

theorem has_plant (tree : Tree) (node : Node) : (tree.plant node).1.Has (tree.cells.size + 1)
    (node.cellsFrom (tree.cells.size + 1) .top) :=
  ⟨tree.cells.toList, [], by simp [plant], by simp⟩

theorem size_plant (tree : Tree) (node : Node) :
    (tree.plant node).1.cells.size = tree.cells.size + node.size := by
  rw [← Array.length_toList]
  simp [plant, Node.length_cellsFrom]

theorem build_eq_ok {tree : Tree} {raw : Json} {id : NodeId} (h : (tree.build raw).2 = .ok id) :
    ∃ node, Node.ofRaw tree.settings.strictStructure false raw = .ok node ∧
      (tree.build raw).1 = (tree.plant node).1 ∧ id = (tree.plant node).2 := by
  unfold build at h ⊢
  split at h
  · next node built => exact ⟨node, built, rfl, (Except.ok.inj h).symm⟩
  · simp at h

theorem build_eq_error {tree : Tree} {raw : Json} {failure : BuildFailure}
    (h : (tree.build raw).2 = .error failure) :
    Node.ofRaw tree.settings.strictStructure false raw = .error failure ∧
      (tree.build raw).1 = tree.absorb failure := by
  unfold build at h ⊢
  split at h
  · simp at h
  · next wrong built =>
    obtain rfl := Except.error.inj h
    exact ⟨built, rfl⟩

/-- A tree is made of the node that the raw tree stands for, and fails as the node does. -/
theorem ofRaw_eq_map {label : String} {settings : Settings} {raw : Json}
    (deep : raw.nesting ≤ settings.maxDepth) : ofRaw label settings raw =
      (Node.ofRaw settings.strictStructure false raw).map fun node =>
        { ((empty label settings).plant node).1 with
          root := some ((empty label settings).plant node).2 } := by
  have same : (empty label settings).settings = settings := rfl
  simp only [ofRaw, checkDepth_eq, if_neg (Nat.not_lt.2 deep), build, same]
  cases Node.ofRaw settings.strictStructure false raw <;> rfl

/-- When a tree is made, and what it is. -/
theorem ofRaw_eq_ok {label : String} {settings : Settings} {raw : Json} {tree : Tree} :
    ofRaw label settings raw = .ok tree ↔ raw.nesting ≤ settings.maxDepth ∧
      ∃ node, Node.ofRaw settings.strictStructure false raw = .ok node ∧
        tree = { ((empty label settings).plant node).1 with
          root := some ((empty label settings).plant node).2 } := by
  by_cases deep : raw.nesting ≤ settings.maxDepth
  · rw [ofRaw_eq_map deep]
    cases Node.ofRaw settings.strictStructure false raw <;> simp [deep, Except.map, eq_comm]
  · simp only [ofRaw, checkDepth_eq, if_pos (Nat.not_le.1 deep), deep, false_and, iff_false]
    intro same
    contradiction

/-- **A planted node looks like itself.** -/
theorem view_plant (tree : Tree) (node : Node) :
    (tree.plant node).1.view (tree.plant node).2 = node := by
  rw [view, size_plant]
  exact viewWithin_of_has node (by omega) (has_plant tree node)

end Tree

end Verbatim
