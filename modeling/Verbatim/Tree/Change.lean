import Verbatim.Tree.Basic

/-!
# Changes

What an edit did, told to whoever watches the tree and kept by change logs.

## Main definitions

* `Change`: the node, where it is, and what was there before and is there after
* `Tree.subscribe`, `Tree.unsubscribe`: who is told
-/

namespace Verbatim

/-- What an edit does. -/
inductive Action where
  | setAttribute
  | addChild
  | removeChild
  | replaceChild
  deriving DecidableEq, Repr

/-- The action's name. -/
def Action.name : Action → String
  | .setAttribute => "set_attribute"
  | .addChild => "add_child"
  | .removeChild => "remove_child"
  | .replaceChild => "replace_child"

/-- What was there before a change, or is there after it: the value of an attribute, or a node. -/
inductive Content where
  | value (value : Json)
  | node (id : NodeId)

namespace Content

/-- Nothing. -/
def nothing : Content := .value .null

/-- The node in an optional slot. -/
def ofNode? : Option NodeId → Content
  | some id => .node id
  | none => nothing

/-- The content as a raw value: nodes by their names. -/
def toJson : Content → Json
  | .value raw => raw
  | .node id => .text id.text

end Content

/-- The name under which the condition appears among the attributes. -/
def conditionName : String := "condition"

/-- What one edit did. -/
structure Change where
  action : Action
  node : NodeId
  path : Path
  /-- The attribute that was set. -/
  name : Option String := none
  /-- The place among the children. -/
  index : Option Nat := none
  before : Content := .nothing
  after : Content := .nothing

/-- A step as raw value. -/
def PathStep.toJson : PathStep → Json
  | .index place => .int place
  | .condition => .text "condition"

/-- The change as raw value. -/
def Change.toJson (change : Change) : Json :=
  .object <|
    [("action", .text change.action.name), ("node_id", .text change.node.text),
      ("path", .array (change.path.map PathStep.toJson))]
    ++ (change.name.map fun name => ("attribute", Json.text name)).toList
    ++ (change.index.map fun place => ("index", Json.int place)).toList
    ++ [("old_value", change.before.toJson), ("new_value", change.after.toJson)]

namespace Tree

/-- Tell an observer about changes from now on. One that is told already is not told twice. -/
def subscribe (tree : Tree) (observer : Observer) : Tree :=
  if tree.observers.contains observer then tree
  else { tree with observers := tree.observers ++ [observer] }

/-- No longer tell an observer. -/
def unsubscribe (tree : Tree) (observer : Observer) : Tree :=
  { tree with observers := tree.observers.erase observer }

end Tree

end Verbatim
