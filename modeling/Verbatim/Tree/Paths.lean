import Verbatim.Text.Numeral
import Verbatim.Tree.Basic
import Verbatim.Tree.Refusal

/-!
# Paths of a tree

The path of a node is found by walking up, and the node of a path by walking down. Written paths
have their steps between slashes: `0/1/condition`.

## Main definitions

* `Tree.path`: the steps from the topmost node above a node down to it
* `Tree.resolve`: the node that a path leads to
* `Tree.find`: the nodes below the root that pass a test
* `Path.read`, `Path.text`: written paths
-/

namespace Verbatim

/-! ### Walking up -/

namespace Tree

/-- Whether the child is the condition of the parent. -/
def isConditionOf (tree : Tree) (child parent : NodeId) : Bool :=
  tree.condition? parent = some child

/-- The steps from the topmost node down to a node, put before the given ones. It fails where a
node's parent has it neither as condition nor as child. -/
def pathWithin (tree : Tree) : Nat → NodeId → Path → Except Refusal Path
  | 0, _, path => .ok path
  | steps + 1, id, path =>
    match tree.parent? id with
    | none => .ok path
    | some parent =>
      if tree.isConditionOf id parent then tree.pathWithin steps parent (.condition :: path)
      else
        match tree.position? parent id with
        | some place => tree.pathWithin steps parent (.index place :: path)
        | none => .error ⟨.indexOf, .notChild id.shown parent⟩

/-- The steps from the topmost node above a node down to it. -/
def path (tree : Tree) (id : NodeId) : Except Refusal Path :=
  tree.pathWithin tree.cells.size id []

/-- The node and all nodes above it, from below. -/
def lineageWithin (tree : Tree) : Nat → NodeId → List NodeId
  | 0, id => [id]
  | steps + 1, id =>
    match tree.parent? id with
    | none => [id]
    | some parent => id :: tree.lineageWithin steps parent

/-- The node and all nodes above it, from below. -/
def lineage (tree : Tree) (id : NodeId) : List NodeId :=
  tree.lineageWithin tree.cells.size id

end Tree

/-! ### Walking down -/

/-- A step as it is asked for, which need not make sense. -/
inductive StepRequest where
  | index (place : Int)
  | condition
  /-- A truth value, which counts as one or zero. -/
  | truth (value : Bool)
  /-- Something else, as messages show it. -/
  | other (shown : String)
  deriving DecidableEq, Repr

/-- The request as messages show it. -/
def StepRequest.shown : StepRequest → String
  | .index place => toString place
  | .condition => "'condition'"
  | .truth value => (Json.bool value).quotedText
  | .other shown => shown

/-- The request that a raw value makes. -/
def StepRequest.ofRaw : Json → StepRequest
  | .int place => .index place
  | .bool value => .truth value
  | .text "condition" => .condition
  | value => .other value.quotedText

/-- The request for a step. -/
def PathStep.request : PathStep → StepRequest
  | .index place => .index place
  | .condition => .condition

/-- Why a path leads nowhere. -/
inductive LookupFailure where
  | noRoot (label : String)
  | noNode (step : StepRequest) (below : NodeId)
  deriving DecidableEq, Repr

/-- The text of the failure. -/
def LookupFailure.message : LookupFailure → String
  | .noRoot label => s!"Tree {label} has no root"
  | .noNode step below => s!"No node at step {step.shown} below {below.shown}"

namespace Tree

/-- The node one step below a node. -/
def step? (tree : Tree) (id : NodeId) : StepRequest → Option NodeId
  | .condition => tree.condition? id
  | .index place => if place < 0 then none else (tree.children id)[place.toNat]?
  | .truth value => (tree.children id)[value.toNat]?
  | .other _ => none

/-- The node some steps below a node. -/
def descend (tree : Tree) : NodeId → List StepRequest → Except LookupFailure NodeId
  | id, [] => .ok id
  | id, step :: rest =>
    match tree.step? id step with
    | some below => tree.descend below rest
    | none => .error (.noNode step id)

/-- The node that steps from the root lead to. -/
def resolveSteps (tree : Tree) (steps : List StepRequest) : Except LookupFailure NodeId :=
  match tree.root? with
  | some root => tree.descend root steps
  | none => .error (.noRoot tree.label)

/-- The node that a path leads to. -/
def resolve (tree : Tree) (path : Path) : Except LookupFailure NodeId :=
  tree.resolveSteps (path.map PathStep.request)

/-- The nodes below the root that pass the test, in the order of the text. -/
def find (tree : Tree) (test : NodeId → Bool) : List NodeId :=
  match tree.root? with
  | some root => (tree.subtree root).filter test
  | none => []

end Tree

/-! ### Written paths -/

/-- Why a text is no path. -/
inductive PathError where
  | badStep (text : String)
  | badNumber (error : Text.NumeralError)
  deriving DecidableEq, Repr

/-- The text of the error. -/
def PathError.message : PathError → String
  | .badStep text => s!"Invalid path step: {Text.quoted text}"
  | .badNumber error => error.message

/-- The step that a text between slashes stands for. -/
def PathStep.read (text : String) : Except PathError PathStep :=
  if text = "condition" then .ok .condition
  else if text.toList.all Text.isDigitLike then
    match Text.readInteger text with
    | .ok place => .ok (.index place.toNat)
    | .error e => .error (.badNumber e)
  else .error (.badStep text)

/-- The path that a text stands for. Slashes at the ends and double slashes do not count. -/
def Path.read (text : String) : Except PathError Path :=
  let body := Text.stripBy (· = '/') (Text.strip text)
  (((body.split '/').toList.map String.Slice.copy).filter (· ≠ "")).mapM PathStep.read

/-- The written step. -/
def PathStep.text : PathStep → String
  | .index place => toString place
  | .condition => "condition"

/-- The written path. -/
def Path.text (path : Path) : String :=
  "/".intercalate (path.map PathStep.text)

end Verbatim
