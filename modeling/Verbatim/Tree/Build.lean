import Verbatim.Tree.Depth
import Verbatim.Tree.Paths

/-!
# Building from raw trees

A raw tree becomes nodes from the top down: a node is made, then takes its attributes and gaps, then
its condition, then its children one after the other. Whatever the grammar would not read back is
refused on the way, at the first fault.

A build that fails leaves no node of its own behind, with one exception: a connector that was to be
a condition is complete when it is refused, and stays in the store on its own. The numbers that the
build used stay used.

## Main definitions

* `Node.ofRaw`: the node that a raw tree stands for, or where it fails
* `Node.complete`: the checks on one raw node
* `Tree.plant`: put a node and everything below it into a tree
* `Tree.build`: both together
* `Tree.ofRaw`: a tree of its own for a raw tree that is not nested too deep

## Implementation notes

Building has two halves. `Node.ofRaw` only reads and makes a value; `Tree.plant` cannot fail and
gives numbers to the nodes of a value, each node before what is below it and the condition before
the children. A failure carries how many numbers were used, so that the tree can skip them.

Like the text of a node, the node of a raw value is put together from what its condition and its
children gave, each of which may have failed. `Node.complete` looks at them in order, so the first
fault is the one reported.
-/

namespace Verbatim

/-! ### Failures -/

/-- Why a raw tree is refused. Most causes name the raw tag of the node at fault. -/
inductive BuildError where
  | notMapping (value : Json)
  | noTag
  | unknownTag (tag : String)
  /-- The raw node is of another kind than the node that is to take it over. -/
  | wrongTag (kind : Kind) (found : Json)
  | missing (tag name : String)
  | attribute (tag name : String) (problem : AttributeProblem)
  | gaps (tag : String) (problem : GapProblem)
  | childrenNotList (tag : String)
  | childCount (tag : String) (count : Nat)
  | category (tag : String) (parent child : Kind)
  | arrangement (tag : String) (problem : ArrangementProblem)
  | conditionNotExpression (kind found : Kind)
  | tooDeep (limit : Nat)
  /-- The node was built, but the edit that was to attach it is refused. -/
  | refused (refusal : Refusal)

namespace BuildError

/-- The text of the error. -/
def message : BuildError → String
  | .notMapping value => s!"Raw node must be a mapping, got {value.typeName}"
  | .noTag => "Raw node has no 'type' string"
  | .unknownTag tag => s!"Unrecognized node type: {Text.quoted tag}"
  | .wrongTag kind found =>
    s!"Cannot initialize {kind.tag} from raw node of type {found.quotedText}"
  | .missing tag name => s!"{tag}: missing required field '{name}'"
  | .attribute tag _ problem => s!"{tag}: {problem.message}"
  | .gaps tag problem => s!"{tag}: {problem.message}"
  | .childrenNotList tag => s!"{tag}: 'children' must be a list"
  | .childCount tag count => s!"{tag}: unexpected number of children ({count})"
  | .category _ parent child => categoryMessage parent child
  | .arrangement tag problem => s!"{tag}: {problem.message}"
  | .conditionNotExpression kind found =>
    s!"{kind.tag}: condition must be an expression, got {found.tag}"
  | .tooDeep limit => s!"Raw tree is nested deeper than {limit} levels"
  | .refused refusal => refusal.message

/-- The tag of the raw node at fault, as far as it is known. -/
def tag : BuildError → Json
  | .notMapping _ | .noTag | .tooDeep _ | .refused _ => .null
  | .wrongTag _ found => found
  | .unknownTag tag | .missing tag _ | .attribute tag .. | .gaps tag _ | .childrenNotList tag
  | .childCount tag _ | .category tag .. | .arrangement tag _ => .text tag
  | .conditionNotExpression kind _ => .text kind.tag

/-- The field at fault. -/
def field : BuildError → Option String
  | .notMapping _ | .noTag | .wrongTag .. => some "type"
  | .missing _ name | .attribute _ name _ => some name
  | .gaps .. => some "ws"
  | .childrenNotList _ | .childCount .. | .category .. | .arrangement .. => some "children"
  | .conditionNotExpression .. => some "condition"
  | .unknownTag _ | .tooDeep _ | .refused _ => none

end BuildError

/-- A build that failed. -/
structure BuildFailure where
  error : BuildError
  /-- How many numbers went to nodes that are gone. -/
  wasted : Nat := 0
  /-- The refused condition that stays behind, with the numbers after those. -/
  stranded : Option Node := none
  /-- The nodes whose build was given up, innermost first. -/
  abandoned : List Kind := []

namespace BuildFailure

/-- The same failure after further numbers were used. -/
def after (count : Nat) (failure : BuildFailure) : BuildFailure :=
  { failure with wasted := count + failure.wasted }

/-- The same failure, seen from a build of the given kind. -/
def inside (kind : Kind) (failure : BuildFailure) : BuildFailure :=
  { failure with abandoned := failure.abandoned ++ [kind] }

end BuildFailure

/-! ### Sizes of nodes -/

namespace Node

mutual

/-- How many nodes the value has. -/
def size : Node → Nat
  | mk _ _ none children _ => 1 + sizeAll children
  | mk _ _ (some condition) children _ => 1 + size condition + sizeAll children

/-- How many nodes the values have together. -/
def sizeAll : List Node → Nat
  | [] => 0
  | node :: rest => size node + sizeAll rest

end

/-- The operator as running text, if the node has one. -/
def operator? (node : Node) : Option String :=
  (node.attribute? "operator").map Json.plainText

/-! ### Reading one raw node -/

/-- The kind that a raw node asks for. -/
def rawKind (raw : Json) : Except BuildError Kind :=
  match raw with
  | .object _ =>
    match raw.get? "type" with
    | some (.text tag) =>
      match Kind.ofTag? tag with
      | some kind => .ok kind
      | none => .error (.unknownTag tag)
    | _ => .error .noTag
  | _ => .error (.notMapping raw)

/-- The kind that a raw node asks for as a child, where connector definitions are told from plain
ones. -/
def rawChildKind (raw : Json) : Except BuildError Kind :=
  if isConnectorDefinition raw then .ok .connectorDefinition else rawKind raw

/-- Read the attributes of the kind in order: the good ones up to the first fault, and the fault. -/
def readAttributes (kind : Kind) (tag : String) (raw : Json) :
    List String → List (String × Json) × Option BuildError
  | [] => ([], none)
  | name :: rest =>
    match raw.present? name with
    | none => ([], some (.missing tag name))
    | some value =>
      match attributeProblem? kind name value with
      | some problem => ([], some (.attribute tag name problem))
      | none =>
        let (more, fault) := readAttributes kind tag raw rest
        ((name, value) :: more, fault)

/-- Read the gaps of a raw node over those the node has. -/
def readGaps (kind : Kind) (tag : String) (raw : Json) (gaps : Gaps) : Except BuildError Gaps :=
  match raw.present? "ws" with
  | none => .ok gaps
  | some rawGaps => (gaps.load kind.layout rawGaps).mapError (.gaps tag)

/-- Why a node of the kind cannot have so many children. -/
def countFault? (kind : Kind) (tag : String) (count : Nat) : Option BuildError :=
  let tooMany := match kind.maxChildren with
    | some limit => limit < count
    | none => false
  if count < kind.minChildren || tooMany then some (.childCount tag count) else none

/-- Why the children of a raw node cannot be read: they are no list, or their number is wrong for
the kind. -/
def childrenFault? (kind : Kind) (tag : String) (raw : Json) : Option BuildError :=
  match raw.present? "children" with
  | none => countFault? kind tag 0
  | some (.array items) => countFault? kind tag items.length
  | some _ => some (.childrenNotList tag)

/-- The problem of a child list, if there is one: the order of clauses where structure is strict, or
an operand that binds too loosely. -/
def arrangementProblem? (strict : Bool) (kind : Kind) (operator : Option String)
    (children : List (Kind × Option String)) : Option ArrangementProblem :=
  if kind = .ifElse then
    if strict then clauseOrderProblem? (children.map Prod.fst) else none
  else
    children.zipIdx.findSome? fun ((child, childOperator), place) =>
      operandProblem? kind operator place child childOperator

/-- Why a finished child does not fit behind the given ones. -/
def childFault? (strict : Bool) (kind : Kind) (tag : String) (operator : Option String)
    (before : List (Kind × Option String)) (child : Kind × Option String) : Option BuildError :=
  if strict && !kind.accepts.contains child.1.category then
    some (.category tag kind child.1)
  else
    (arrangementProblem? strict kind operator (before ++ [child])).map (.arrangement tag)

/-- Why a finished node cannot be the condition. A connector is refused as an edit is, and stays. -/
def conditionFault? (kind : Kind) (condition : Node) : Option BuildFailure :=
  if condition.kind.category ≠ .expression then
    some { error := .conditionNotExpression kind condition.kind, wasted := condition.size }
  else if condition.kind = .connectorCreation then
    some {
      error := .refused ⟨.setCondition, .notExpression condition.kind⟩
      stranded := some condition }
  else none

/-- What arrangement looks at in a child. -/
def outline (node : Node) : Kind × Option String :=
  (node.kind, node.operator?)

/-- The condition of a raw node, for kinds that have one and where it is not null. -/
def takeCondition (kind : Kind) (raw : Json) (condition : Option (Except BuildFailure Node)) :
    Except BuildFailure (Option Node) :=
  match kind.hasCondition, raw.present? "condition", condition with
  | true, some _, some built => do
    let condition ← built
    match conditionFault? kind condition with
    | some failure => throw failure
    | none => return some condition
  | _, _, _ => return none

/-- The children behind the given ones, up to the first that failed or does not fit. -/
def takeChildren (strict : Bool) (kind : Kind) (tag : String) (operator : Option String) :
    List (Kind × Option String) → List (Except BuildFailure Node) →
    Except BuildFailure (List Node)
  | _, [] => .ok []
  | _, .error failure :: _ => .error failure
  | before, .ok child :: rest =>
    match childFault? strict kind tag operator before child.outline with
    | some error => .error { error, wasted := child.size }
    | none =>
      match takeChildren strict kind tag operator (before ++ [child.outline]) rest with
      | .ok others => .ok (child :: others)
      | .error failure => .error (failure.after child.size)

/-- The tag of a raw node in messages. -/
def rawTag (kind : Kind) (raw : Json) : String :=
  match raw.get? "type" with
  | some (.text tag) => tag
  | _ => kind.tag

/-- Fill a new node of the kind from a raw node. -/
def fill (strict : Bool) (kind : Kind) (raw : Json) (condition : Option (Except BuildFailure Node))
    (children : List (Except BuildFailure Node)) : Except BuildFailure Node := do
  let tag := rawTag kind raw
  let (attributes, fault) := readAttributes kind tag raw kind.attributes
  if let some error := fault then
    throw { error }
  let gaps ← (readGaps kind tag raw []).mapError fun error => { error }
  let condition ← takeCondition kind raw condition
  let used := (condition.map size).getD 0
  if let some error := childrenFault? kind tag raw then
    throw { error, wasted := used }
  let operator := (mk kind attributes none [] []).operator?
  let children ←
    (takeChildren strict kind tag operator [] children).mapError (BuildFailure.after used)
  return mk kind attributes condition children gaps

/-- The node of a raw node, from what its condition and its children gave. Every node uses a number,
and only a build of its own is reported as abandoned: children are built with their parents. -/
def complete (strict asChild : Bool) (raw : Json) (condition : Option (Except BuildFailure Node))
    (children : List (Except BuildFailure Node)) : Except BuildFailure Node := do
  let kind ← (if asChild then rawChildKind raw else rawKind raw).mapError fun error => { error }
  (fill strict kind raw condition children).mapError fun failure =>
    let failure := failure.after 1
    if asChild then failure else failure.inside kind

/-! ### Reading whole raw trees -/

mutual

/-- The node that a raw tree stands for. -/
def ofRaw (strict asChild : Bool) : Json → Except BuildFailure Node
  | .object fields =>
    complete strict asChild (.object fields) (rawCondition strict fields)
      (rawChildren strict fields)
  | raw => complete strict asChild raw none []

/-- The node of the condition among the fields. -/
def rawCondition (strict : Bool) : List (String × Json) → Option (Except BuildFailure Node)
  | [] => none
  | (name, value) :: rest =>
    if name = "condition" then some (ofRaw strict false value) else rawCondition strict rest

/-- The nodes of the children among the fields. -/
def rawChildren (strict : Bool) : List (String × Json) → List (Except BuildFailure Node)
  | [] => []
  | (name, value) :: rest =>
    if name = "children" then
      match value with
      | .array items => rawItems strict items
      | _ => []
    else rawChildren strict rest

/-- The node of each item. -/
def rawItems (strict : Bool) : List Json → List (Except BuildFailure Node)
  | [] => []
  | item :: rest => ofRaw strict true item :: rawItems strict rest

end

/-! ### Numbering -/

mutual

/-- The cells of a node and everything below it, numbered from the given number on: the node, its
condition, its children. -/
def cellsFrom (number : Nat) (link : Link) : Node → List Cell
  | mk kind attributes none children gaps =>
    let below := childCells (number + 1) ⟨kind, number⟩ children
    { kind, attributes, children := below.1, gaps, link } :: below.2
  | mk kind attributes (some condition) children gaps =>
    let below := childCells (number + 1 + condition.size) ⟨kind, number⟩ children
    { kind, attributes, condition := .holds ⟨condition.kind, number + 1⟩, children := below.1, gaps,
      link } :: cellsFrom (number + 1) (.under ⟨kind, number⟩) condition ++ below.2

/-- The names and the cells of children, numbered from the given number on. -/
def childCells (number : Nat) (parent : NodeId) : List Node → List NodeId × List Cell
  | [] => ([], [])
  | child :: rest =>
    let below := childCells (number + child.size) parent rest
    (⟨child.kind, number⟩ :: below.1, cellsFrom number (.under parent) child ++ below.2)

end

end Node

namespace Tree

/-- Put a node and everything below it into the tree, at the top. -/
def plant (tree : Tree) (node : Node) : Tree × NodeId :=
  ({ tree with cells := tree.cells ++ node.cellsFrom (tree.cells.size + 1) .top },
    tree.nextId node.kind)

/-- What a failed build leaves in the tree. -/
def absorb (tree : Tree) (failure : BuildFailure) : Tree :=
  let tree := tree.skip failure.wasted
  match failure.stranded with
  | some node => (tree.plant node).1
  | none => tree

/-- Build a raw tree, at the top. -/
def build (tree : Tree) (raw : Json) : Tree × Except BuildFailure NodeId :=
  match Node.ofRaw tree.settings.strictStructure false raw with
  | .ok node =>
    let (tree, id) := tree.plant node
    (tree, .ok id)
  | .error failure => (tree.absorb failure, .error failure)

/-- A new tree with nothing in it. -/
def empty (label : String) (settings : Settings) : Tree :=
  { label, settings }

/-- Refuse a raw tree that is nested deeper than the limit. -/
def checkDepth (limit : Nat) (raw : Json) : Except BuildFailure Unit :=
  if raw.nestsDeeper limit then .error { error := .tooDeep limit } else .ok ()

/-- A new tree that is built from a raw tree, which must not be nested too deep. -/
def ofRaw (label : String) (settings : Settings) (raw : Json) : Except BuildFailure Tree := do
  checkDepth settings.maxDepth raw
  let (tree, built) := (empty label settings).build raw
  let id ← built
  return { tree with root := some id }

end Tree

end Verbatim
