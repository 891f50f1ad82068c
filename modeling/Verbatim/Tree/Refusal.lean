import Verbatim.Syntax.Rules
import Verbatim.Tree.NodeId

/-!
# Refused edits

Why an edit is refused.

## Main definitions

* `Refusal`: the operation that is refused, and the cause
* `Refusal.message`
-/

namespace Verbatim

/-- The operations that can be refused. -/
inductive Operation where
  | setAttribute
  | addChild
  | removeChild
  | replaceChild
  | setCondition
  | indexOf
  | undo
  deriving DecidableEq, Repr

/-- The operation's name. -/
def Operation.name : Operation → String
  | .setAttribute => "set_attribute"
  | .addChild => "add_child"
  | .removeChild => "remove_child"
  | .replaceChild => "replace_child"
  | .setCondition => "set_condition"
  | .indexOf => "index_of"
  | .undo => "undo"

/-- The causes of refusals. -/
inductive RefusalCause where
  /-- The kind has no such attribute. -/
  | noAttribute (kind : Kind) (name : String)
  /-- The condition is no attribute to be set. -/
  | conditionSlot (kind : Kind)
  | attribute (problem : AttributeProblem)
  | arrangement (problem : ArrangementProblem)
  /-- No further child fits. -/
  | full (kind : Kind) (limit : Nat)
  | indexOutOfRange (index : Int)
  /-- No child can go. -/
  | needed (kind : Kind) (least : Nat)
  /-- There is nothing to attach. -/
  | nothing (kind : Kind)
  /-- What is to be attached is no node. -/
  | notNode (value : Json)
  | foreign (node : NodeId)
  | attached (node owner : NodeId)
  | rootAttached
  | ancestor (node receiver : NodeId)
  | category (parent child : Kind)
  | notChild (shown : String) (receiver : NodeId)
  | notExpression (kind : Kind)
  /-- The node of a recorded change is gone. -/
  | vanished (node : NodeId)

/-- The text of a child of a category that the parent does not take. -/
def categoryMessage (parent child : Kind) : String :=
  s!"{parent.tag} does not accept {child.category.name} {child.tag} as a child"

/-- The text of the cause. -/
def RefusalCause.message : RefusalCause → String
  | .noAttribute kind name => s!"{kind.tag} has no attribute '{name}'"
  | .conditionSlot kind => s!"Use set_condition to change the condition of {kind.tag}"
  | .attribute problem => problem.message
  | .arrangement problem => problem.message
  | .full kind limit => s!"{kind.tag} accepts at most {limit} children"
  | .indexOutOfRange index => s!"Child index out of range: {index}"
  | .needed kind least =>
    s!"{kind.tag} needs at least {least} children; use replace_child instead"
  | .nothing kind => s!"Cannot attach None to {kind.tag}"
  | .notNode value => s!"Expected AstNode, got {value.typeName}"
  | .foreign node => s!"{node.shown} belongs to another tree"
  | .attached node owner => s!"{node.shown} is already attached to {owner.shown}"
  | .rootAttached => "The root node cannot be attached"
  | .ancestor node receiver => s!"{node.shown} is an ancestor of {receiver.shown}"
  | .category parent child => categoryMessage parent child
  | .notChild shown receiver => s!"{shown} is not a child of {receiver.shown}"
  | .notExpression kind => s!"Condition must be an expression, got {kind.tag}"
  | .vanished node => s!"Node {node.text} is no longer part of the tree"

/-- A refused edit. -/
structure Refusal where
  operation : Operation
  cause : RefusalCause

/-- The text of the refusal. -/
def Refusal.message (refusal : Refusal) : String :=
  refusal.cause.message

/-- The text of the refusal of a root that has a parent or is no node of the tree. -/
def rootRefusalMessage (node : NodeId) : String :=
  s!"Node {node.text} cannot be the root of this tree"

end Verbatim
