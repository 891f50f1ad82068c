import Verbatim.Syntax.Kind

/-!
# Names of nodes, and paths

A node is named by its kind and by a number that counts the nodes made in its tree. A path leads to
a node from the root, by child places and by the step to a condition.

## Main definitions

* `NodeId`, `NodeId.text`, `NodeId.shown`: names of nodes, and how they are written
* `PathStep`, `Path`
-/

namespace Verbatim

/-- The name of a node: its kind, and how many nodes its tree had made when it was made. -/
structure NodeId where
  kind : Kind
  number : Nat
  deriving DecidableEq, Repr

namespace NodeId

/-- The written name, such as `IfStatement:3`. -/
def text (id : NodeId) : String :=
  s!"{id.kind.tag}:{id.number}"

/-- The name of the class of nodes: those with a slot for a condition, and all others. -/
def className (id : NodeId) : String :=
  if id.kind.hasCondition then "ConditionalStatement" else "AstNode"

/-- The node as messages show it. -/
def shown (id : NodeId) : String :=
  s!"<{id.className} {id.text}>"

end NodeId

/-- One step down the tree. -/
inductive PathStep where
  | index (place : Nat)
  | condition
  deriving DecidableEq, Repr

/-- The steps from the root to a node. -/
abbrev Path := List PathStep

end Verbatim
