import Verbatim.Settings.Basic
import Verbatim.Syntax.Node
import Verbatim.Tree.NodeId

/-!
# Trees

A tree keeps all nodes that were ever made in it, by number. Nodes name their children. Beside them
the tree keeps two tables: the *store*, which says which of the nodes are in use, and the *links*
from nodes to their parents, where a node is at the *top*, *under* a parent, or has no entry at all.
Taking a subtree out of the tree drops its nodes from both tables; they keep their contents and
their own children, so that the subtree can come back whole.

## Main definitions

* `Cell`, `Tree`: the contents of a node, and all of them
* `Tree.contains`, `Tree.link`: the store and the links
* `Tree.parent?`, `Tree.children`, `Tree.condition?`: what is where
* `Tree.directNodes`, `Tree.subtree`: the nodes right below a node, and all of its subtree
* `Tree.create`: a new node at the top
* `Tree.adopt`, `Tree.release`: put a subtree under a parent, and drop it
* `Tree.view`: a node and everything below it as a value

## Implementation notes

Nothing here asks whether the store, the links and the children agree: that is for the edits to
keep, and for theorems to state. Walking down or up a tree takes at most as many steps as there are cells, which
is enough wherever no node lies below itself.
-/

namespace Verbatim

/-- The slot for a condition. Once a condition was there, the slot is emptied and not unset. -/
inductive ConditionSlot where
  | unset
  | emptied
  | holds (node : NodeId)
  deriving DecidableEq, Repr

/-- The node in the slot. -/
def ConditionSlot.node? : ConditionSlot → Option NodeId
  | .holds node => some node
  | _ => none

/-- The entry of a node among the links: none, one without a parent, or one with a parent. -/
inductive Link where
  | missing
  | top
  | under (parent : NodeId)
  deriving DecidableEq, Repr

/-- The contents of a node. -/
structure Cell where
  kind : Kind
  attributes : List (String × Json) := []
  condition : ConditionSlot := .unset
  children : List NodeId := []
  gaps : Gaps := []
  /-- Whether the node is in the store. -/
  stored : Bool := true
  link : Link := .top

/-- Who is told about changes. -/
inductive Observer where
  /-- One that keeps what it is told. -/
  | recorder
  /-- The change log with this number. -/
  | log (number : Nat)
  deriving DecidableEq, Repr

/-- A tree. -/
structure Tree where
  /-- The tree's own name in messages. -/
  label : String
  settings : Settings
  /-- The contents of every node made so far; the node with number `n` is at place `n - 1`. -/
  cells : Array Cell := #[]
  root : Option NodeId := none
  filePath : Option String := none
  observers : List Observer := []
  /-- Whether recorded states are being put back, for which the grammar's checks are off. -/
  replaying : Bool := false

namespace Tree

/-! ### Cells -/

/-- The contents of a node, if it was made in this tree. -/
def cell? (tree : Tree) (id : NodeId) : Option Cell :=
  if id.number = 0 then none
  else tree.cells[id.number - 1]?.filter fun cell => cell.kind = id.kind

/-- Change the contents of a node. -/
def modify (tree : Tree) (id : NodeId) (change : Cell → Cell) : Tree :=
  match tree.cell? id with
  | some cell => { tree with cells := tree.cells.setIfInBounds (id.number - 1) (change cell) }
  | none => tree

/-- The name of the next node of the given kind. -/
def nextId (tree : Tree) (kind : Kind) : NodeId :=
  ⟨kind, tree.cells.size + 1⟩

/-- Make a new node, at the top. -/
def create (tree : Tree) (kind : Kind) : Tree × NodeId :=
  ({ tree with cells := tree.cells.push { kind } }, tree.nextId kind)

/-- Use up numbers without making nodes. -/
def skip (tree : Tree) (count : Nat) : Tree :=
  let vacant : Cell := { kind := .compilationUnit, stored := false, link := .missing }
  { tree with cells := tree.cells ++ Array.replicate count vacant }

/-! ### What is where -/

/-- Where the node is linked. -/
def link (tree : Tree) (id : NodeId) : Link :=
  match tree.cell? id with
  | some cell => cell.link
  | none => .missing

/-- Whether the node is in the store. -/
def contains (tree : Tree) (id : NodeId) : Bool :=
  match tree.cell? id with
  | some cell => cell.stored
  | none => false

/-- The parent that the node is linked to, if that is in the store. -/
def parent? (tree : Tree) (id : NodeId) : Option NodeId :=
  match tree.link id with
  | .under parent => if tree.contains parent then some parent else none
  | _ => none

/-- The children in order. -/
def children (tree : Tree) (id : NodeId) : List NodeId :=
  match tree.cell? id with
  | some cell => cell.children
  | none => []

/-- The condition. -/
def condition? (tree : Tree) (id : NodeId) : Option NodeId :=
  (tree.cell? id).bind fun cell => cell.condition.node?

/-- An attribute that was ever set. It can hold null. -/
def attribute? (tree : Tree) (id : NodeId) (name : String) : Option Json :=
  (tree.cell? id).bind fun cell => cell.attributes.lookup name

/-- The gap texts of the node's own. -/
def gaps (tree : Tree) (id : NodeId) : Gaps :=
  match tree.cell? id with
  | some cell => cell.gaps
  | none => []

/-- The node's operator as running text, if it has one. -/
def operator? (tree : Tree) (id : NodeId) : Option String :=
  match tree.attribute? id "operator" with
  | none | some .null => none
  | some value => some value.plainText

/-- The condition, if there is one, and the children. -/
def directNodes (tree : Tree) (id : NodeId) : List NodeId :=
  (tree.condition? id).toList ++ tree.children id

/-- The place of a child. -/
def position? (tree : Tree) (parent child : NodeId) : Option Nat :=
  (tree.children parent).findIdx? (· = child)

/-- The root, if it is in the store. -/
def root? (tree : Tree) : Option NodeId :=
  tree.root.filter fun id => tree.contains id

/-- The names of all nodes in the store, in the order in which they were made. -/
def stored (tree : Tree) : List NodeId :=
  tree.cells.toList.zipIdx.filterMap fun (cell, place) =>
    if cell.stored then some ⟨cell.kind, place + 1⟩ else none

/-! ### Subtrees -/

/-- The node and everything below it, each node before what is below it. -/
def subtreeWithin (tree : Tree) : Nat → NodeId → List NodeId
  | 0, id => [id]
  | steps + 1, id => id :: (tree.directNodes id).flatMap (tree.subtreeWithin steps)

/-- The node and everything below it, each node before what is below it. -/
def subtree (tree : Tree) (id : NodeId) : List NodeId :=
  tree.subtreeWithin tree.cells.size id

/-- The node with everything below it as a value. -/
def viewWithin (tree : Tree) : Nat → NodeId → Node
  | 0, id => .mk id.kind [] none [] []
  | steps + 1, id =>
    match tree.cell? id with
    | none => .mk id.kind [] none [] []
    | some cell =>
      .mk cell.kind cell.attributes (cell.condition.node?.map (tree.viewWithin steps))
        (cell.children.map (tree.viewWithin steps)) cell.gaps

/-- The node with everything below it as a value. -/
def view (tree : Tree) (id : NodeId) : Node :=
  tree.viewWithin (tree.cells.size + 1) id

/-! ### Links -/

/-- Link a node elsewhere. -/
def setLink (tree : Tree) (id : NodeId) (link : Link) : Tree :=
  tree.modify id fun cell => { cell with link }

/-- Put a node into the store, without a parent. -/
def register (tree : Tree) (id : NodeId) : Tree :=
  tree.modify id fun cell => { cell with stored := true, link := .top }

/-- Take a node out of the store and from the links. -/
def drop (tree : Tree) (id : NodeId) : Tree :=
  tree.modify id fun cell => { cell with stored := false, link := .missing }

/-- Put a dropped subtree back into the store, with the links inside it. -/
def restoreWithin : Nat → Tree → NodeId → Tree
  | 0, tree, id => tree.register id
  | steps + 1, tree, id =>
    (tree.directNodes id).foldl
      (fun tree sub => (restoreWithin steps tree sub).setLink sub (.under id))
      (tree.register id)

/-- Put a dropped subtree back into the store, with the links inside it. -/
def restore (tree : Tree) (id : NodeId) : Tree :=
  restoreWithin tree.cells.size tree id

/-- Link a child under a parent. A dropped subtree comes back whole. -/
def adopt (tree : Tree) (child parent : NodeId) : Tree :=
  (if tree.contains child then tree else tree.restore child).setLink child (.under parent)

/-- Drop the nodes of a subtree, of which the top node is named as well. -/
def dropAll (tree : Tree) (ids : List NodeId) (top : NodeId) : Tree :=
  let dropped := ids.foldl drop tree
  if tree.root = some top then { dropped with root := none } else dropped

/-- Drop a node and everything below it. -/
def release (tree : Tree) (id : NodeId) : Tree :=
  tree.dropAll (tree.subtree id) id

/-- Make a node the root, if nothing is above it. -/
def setRoot? (tree : Tree) (id : NodeId) : Option Tree :=
  match tree.link id with
  | .under _ => none
  | _ => some { tree with root := some id }

end Tree

end Verbatim
