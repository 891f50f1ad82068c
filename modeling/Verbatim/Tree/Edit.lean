import Verbatim.Tree.Build
import Verbatim.Tree.Change

/-!
# Edits

The edits of a tree. Each has a check, which only reads, and an effect, which always works. An edit
that its check refuses leaves the tree as it was. An edit that passes gives the change it made, with
the path of the edited node as it is afterwards; the path is missing only in trees whose links do
not agree with their children.

While recorded states are put back, the checks of the grammar are off: every such state was there
before. The checks of the links stay on.

## Main definitions

* `Candidate`: what is handed to an edit as a node
* `Tree.linkRefusal?`, `Tree.attachRefusal?`: why a candidate cannot be attached
* `Tree.setAttribute`, `Tree.addChild`, `Tree.removeChild`, `Tree.replaceChild`,
  `Tree.setCondition`, `Tree.restoreCondition`, `Tree.setConditionText`: the edits
* `Tree.takeOver`: fill a node from a raw node, on top of what it has

## Implementation notes

An edit gives the tree back also when it fails, since a failing path comes after the effect.
-/

namespace Verbatim

/-- What is handed to an edit where it wants a node. -/
inductive Candidate where
  | nothing
  /-- A value that is no node. -/
  | value (value : Json)
  /-- A node of another tree. -/
  | foreign (node : NodeId)
  /-- A node that was made in the tree. -/
  | own (node : NodeId)

/-- The candidate as messages show it. -/
def Candidate.shown : Candidate → String
  | .nothing => "None"
  | .value v => v.quotedText
  | .foreign node | .own node => node.shown

/-- What an edit gives: the tree afterwards, and the change or why there is none. -/
abbrev Edited (ε : Type) := Tree × Except ε Change

namespace Tree

/-! ### Checks -/

/-- Why a candidate cannot be linked below a node: it is no node of the tree, it has a parent, it is
the root, or the node lies below it. -/
def linkRefusal? (tree : Tree) (receiver : NodeId) (candidate : Candidate) :
    Except RefusalCause NodeId :=
  match candidate with
  | .nothing => .error (.nothing receiver.kind)
  | .value v => .error (.notNode v)
  | .foreign node => .error (.foreign node)
  | .own node =>
    match tree.parent? node with
    | some owner => .error (.attached node owner)
    | none =>
      if tree.root = some node then .error .rootAttached
      else if (tree.lineage receiver).contains node then .error (.ancestor node receiver)
      else .ok node

/-- Why a candidate cannot become a child of a node. Where structure is strict, its category
counts. -/
def attachRefusal? (tree : Tree) (receiver : NodeId) (candidate : Candidate) :
    Except RefusalCause NodeId := do
  let node ← tree.linkRefusal? receiver candidate
  if tree.settings.strictStructure && !receiver.kind.accepts.contains node.kind.category then
    throw (.category receiver.kind node.kind)
  return node

/-- What arrangement looks at in a node. -/
def outline (tree : Tree) (id : NodeId) : Kind × Option String :=
  (id.kind, tree.operator? id)

/-- The problem of a prospective child list under a prospective operator. -/
def arrangementProblem? (tree : Tree) (receiver : NodeId) (operator : Option String)
    (children : List NodeId) : Option ArrangementProblem :=
  Node.arrangementProblem? tree.settings.strictStructure receiver.kind operator
    (children.map tree.outline)

/-- Refuse a prospective child list with a problem, unless recorded states are put back. -/
def checkArrangement (tree : Tree) (receiver : NodeId) (children : List NodeId) :
    Except RefusalCause Unit :=
  if tree.replaying then .ok ()
  else
    match tree.arrangementProblem? receiver (tree.operator? receiver) children with
    | some problem => .error (.arrangement problem)
    | none => .ok ()

/-- The place of a candidate among the children of a node. -/
def indexOf (tree : Tree) (parent : NodeId) (candidate : Candidate) :
    Except Refusal (Nat × NodeId) :=
  let found := match candidate with
    | .own node => (tree.position? parent node).map (·, node)
    | _ => none
  match found with
  | some place => .ok place
  | none => .error ⟨.indexOf, .notChild candidate.shown parent⟩

/-- Why an attribute cannot be set. A new operator must bind its operands, and must itself fit where
the node stands. -/
def attributeRefusal? (tree : Tree) (id : NodeId) (name : String) (value : Json) :
    Option RefusalCause :=
  if !id.kind.attributes.contains name then
    if name = conditionName && id.kind.hasCondition then some (.conditionSlot id.kind)
    else some (.noAttribute id.kind name)
  else
    match attributeProblem? id.kind name value with
    | some problem => some (.attribute problem)
    | none =>
      if name ≠ "operator" then none
      else
        let operator := some value.plainText
        match tree.arrangementProblem? id operator (tree.children id) with
        | some problem => some (.arrangement problem)
        | none => do
          let parent ← tree.parent? id
          let place ← tree.position? parent id
          let problem ←
            operandProblem? parent.kind (tree.operator? parent) place id.kind operator
          return .arrangement problem

/-! ### Effects -/

/-- Set an attribute. -/
def storeAttribute (tree : Tree) (id : NodeId) (name : String) (value : Json) : Tree :=
  tree.modify id fun cell => { cell with attributes := Json.insertField name value cell.attributes }

/-- Set the condition slot. -/
def storeCondition (tree : Tree) (id : NodeId) (slot : ConditionSlot) : Tree :=
  tree.modify id fun cell => { cell with condition := slot }

/-- Set the list of children. -/
def storeChildren (tree : Tree) (id : NodeId) (children : List NodeId) : Tree :=
  tree.modify id fun cell => { cell with children }

/-- Set the gap texts. -/
def storeGaps (tree : Tree) (id : NodeId) (gaps : Gaps) : Tree :=
  tree.modify id fun cell => { cell with gaps }

/-- The change of a node, with the node's path as it is now. -/
def described (tree : Tree) (id : NodeId) (change : Path → Change) : Edited Refusal :=
  (tree, (tree.path id).map change)

/-! ### Attributes -/

/-- Set an attribute and describe the change. -/
def changeAttribute (tree : Tree) (id : NodeId) (name : String) (value : Json) : Edited Refusal :=
  let before := (tree.attribute? id name).getD .null
  (tree.storeAttribute id name value).described id fun path =>
    { action := .setAttribute, node := id, path, name := some name, before := .value before,
      after := .value value }

/-- Set the condition slot and describe the change. -/
def changeCondition (tree : Tree) (id : NodeId) (before : Option NodeId) (slot : ConditionSlot) :
    Edited Refusal :=
  (tree.storeCondition id slot).described id fun path =>
    { action := .setAttribute, node := id, path, name := some conditionName,
      before := .ofNode? before, after := .ofNode? slot.node? }

/-- Set an attribute of a node. -/
def setAttribute (tree : Tree) (id : NodeId) (name : String) (value : Json) : Edited Refusal :=
  match if tree.replaying then none else tree.attributeRefusal? id name value with
  | some cause => (tree, .error ⟨.setAttribute, cause⟩)
  | none => tree.changeAttribute id name value

/-! ### Children -/

/-- The place for a new child: behind all others unless asked for, and never behind a gap. -/
def newPlace (tree : Tree) (id : NodeId) : Option Int → Except RefusalCause Nat
  | none => .ok (tree.children id).length
  | some index =>
    if 0 ≤ index ∧ index ≤ (tree.children id).length then .ok index.toNat
    else .error (.indexOutOfRange index)

/-- Check a new child, and give it with its place. -/
def checkAddChild (tree : Tree) (id : NodeId) (candidate : Candidate) (index : Option Int) :
    Except RefusalCause (NodeId × Nat) := do
  let child ← tree.attachRefusal? id candidate
  match id.kind.maxChildren with
  | some limit =>
    if limit ≤ (tree.children id).length then
      throw (.full id.kind limit)
  | none => pure ()
  let place ← tree.newPlace id index
  tree.checkArrangement id ((tree.children id).insertIdx place child)
  return (child, place)

/-- Put a child at a place. -/
def insertChild (tree : Tree) (id child : NodeId) (place : Nat) : Tree :=
  (tree.storeChildren id ((tree.children id).insertIdx place child)).adopt child id

/-- Add a child to a node, at an index or behind all others. -/
def addChild (tree : Tree) (id : NodeId) (candidate : Candidate) (index : Option Int) :
    Edited Refusal :=
  match tree.checkAddChild id candidate index with
  | .error cause => (tree, .error ⟨.addChild, cause⟩)
  | .ok (child, place) =>
    (tree.insertChild id child place).described id fun path =>
      { action := .addChild, node := id, path, index := some place, after := .node child }

/-- Check that a child can go, and give it with its place. -/
def checkRemoveChild (tree : Tree) (id : NodeId) (candidate : Candidate) :
    Except Refusal (NodeId × Nat) := do
  let (place, child) ← tree.indexOf id candidate
  if !tree.replaying && (tree.children id).length ≤ id.kind.minChildren then
    throw ⟨.removeChild, .needed id.kind id.kind.minChildren⟩
  (tree.checkArrangement id ((tree.children id).eraseIdx place)).mapError (⟨.removeChild, ·⟩)
  return (child, place)

/-- Take the child out of a place. -/
def eraseChild (tree : Tree) (id child : NodeId) (place : Nat) : Tree :=
  (tree.storeChildren id ((tree.children id).eraseIdx place)).release child

/-- Remove a child. Its subtree leaves the tree. -/
def removeChild (tree : Tree) (id : NodeId) (candidate : Candidate) : Edited Refusal :=
  match tree.checkRemoveChild id candidate with
  | .error refusal => (tree, .error refusal)
  | .ok (child, place) =>
    (tree.eraseChild id child place).described id fun path =>
      { action := .removeChild, node := id, path, index := some place, before := .node child }

/-- Check a replacement, and give the old child, the new one and the place. -/
def checkReplaceChild (tree : Tree) (id : NodeId) (old new : Candidate) :
    Except Refusal (NodeId × NodeId × Nat) := do
  let (place, old) ← tree.indexOf id old
  let check : Except RefusalCause NodeId := do
    let new ← tree.attachRefusal? id new
    tree.checkArrangement id ((tree.children id).set place new)
    return new
  let new ← check.mapError (⟨.replaceChild, ·⟩)
  return (old, new, place)

/-- Put one child in the place of another. -/
def exchangeChild (tree : Tree) (id old new : NodeId) (place : Nat) : Tree :=
  ((tree.storeChildren id ((tree.children id).set place new)).release old).adopt new id

/-- Put a new child in the place of an old one. The old one's subtree leaves the tree. -/
def replaceChild (tree : Tree) (id : NodeId) (old new : Candidate) : Edited Refusal :=
  match tree.checkReplaceChild id old new with
  | .error refusal => (tree, .error refusal)
  | .ok (old, new, place) =>
    (tree.exchangeChild id old new place).described id fun path =>
      { action := .replaceChild, node := id, path, index := some place, before := .node old,
        after := .node new }

/-! ### Conditions -/

/-- Check a condition: an expression that can be linked, and no connector. -/
def checkCondition (tree : Tree) (id : NodeId) (candidate : Candidate) :
    Except RefusalCause NodeId := do
  let node ← tree.linkRefusal? id candidate
  if node.kind.category ≠ .expression ∨ node.kind.strength? none = some 0 then
    throw (.notExpression node.kind)
  return node

/-- Put a condition in place of the one before, if there was one. -/
def exchangeCondition (tree : Tree) (before : Option NodeId) (id new : NodeId) : Tree :=
  let adopted := tree.adopt new id
  match before with
  | some old => adopted.release old
  | none => adopted

/-- Set the condition of a node. Nothing, and the condition that is there, change nothing. -/
def setCondition (tree : Tree) (id : NodeId) (candidate : Candidate) :
    Tree × Except Refusal (Option Change) :=
  let before := tree.condition? id
  let same := match candidate with
    | .nothing => true
    | .own node => before = some node
    | _ => false
  if same then (tree, .ok none)
  else
    match tree.checkCondition id candidate with
    | .error cause => (tree, .error ⟨.setCondition, cause⟩)
    | .ok new =>
      let (tree, change) :=
        (tree.exchangeCondition before id new).changeCondition id before (.holds new)
      (tree, change.map some)

/-- Put back a condition, or the lack of one. -/
def restoreCondition (tree : Tree) (id : NodeId) (candidate : Candidate) :
    Tree × Except Refusal Unit :=
  match candidate with
  | .nothing =>
    let before := tree.condition? id
    let released := match before with
      | some old => tree.release old
      | none => tree
    let (tree, change) := released.changeCondition id before .emptied
    (tree, change.map fun _ => ())
  | _ =>
    let (tree, change) := tree.setCondition id candidate
    (tree, change.map fun _ => ())

/-- Why a condition cannot be set from a text. -/
inductive ConditionTextError where
  | parse (error : ParseError)
  | build (failure : BuildFailure)
  | refused (refusal : Refusal)

/-- The text of the error. -/
def ConditionTextError.message : ConditionTextError → String
  | .parse error => error.message
  | .build failure => failure.error.message
  | .refused refusal => refusal.message

/-- Set the condition of a node to the expression that a text holds. -/
def setConditionText (tree : Tree) (id : NodeId) (text : String) :
    Tree × Except ConditionTextError (Option Change) :=
  match (Fragment.expression text).parse with
  | .error e => (tree, .error (.parse e))
  | .ok node =>
    match tree.build node.toRaw with
    | (tree, .error failure) => (tree, .error (.build failure))
    | (tree, .ok condition) =>
      let (tree, change) := tree.setCondition id (.own condition)
      (tree, change.mapError .refused)

/-! ### Filling a node -/

/-- Take over the attributes of a raw node, up to the first fault. -/
def takeAttributes (tree : Tree) (id : NodeId) (tag : String) (raw : Json) :
    Tree × Except BuildFailure Unit :=
  let (attributes, fault) := Node.readAttributes id.kind tag raw id.kind.attributes
  let tree := attributes.foldl (fun tree entry => tree.storeAttribute id entry.1 entry.2) tree
  match fault with
  | some error => (tree, .error { error })
  | none => (tree, .ok ())

/-- Take over the gaps of a raw node. -/
def takeGaps (tree : Tree) (id : NodeId) (tag : String) (raw : Json) :
    Tree × Except BuildFailure Unit :=
  match Node.readGaps id.kind tag raw (tree.gaps id) with
  | .ok gaps => (tree.storeGaps id gaps, .ok ())
  | .error error => (tree, .error { error })

/-- Take over the condition of a raw node. -/
def takeCondition (tree : Tree) (id : NodeId) (raw : Json) : Tree × Except BuildFailure Unit :=
  match id.kind.hasCondition, raw.present? "condition" with
  | true, some rawCondition =>
    match tree.build rawCondition with
    | (tree, .error failure) => (tree, .error failure)
    | (tree, .ok condition) =>
      if condition.kind.category ≠ .expression then
        (tree.release condition,
          .error { error := .conditionNotExpression id.kind condition.kind })
      else
        let (tree, change) := tree.setCondition id (.own condition)
        match change with
        | .ok _ => (tree, .ok ())
        | .error refusal => (tree, .error { error := .refused refusal })
  | _, _ => (tree, .ok ())

/-- Take over the children of a raw node behind those that are there. A child that fails is dropped;
those before it stay. -/
def takeChildren (tree : Tree) (id : NodeId) (tag : String) :
    List Json → Tree × Except BuildFailure Unit
  | [] => (tree, .ok ())
  | raw :: rest =>
    match Node.ofRaw tree.settings.strictStructure true raw with
    | .error failure => (tree.absorb failure, .error failure)
    | .ok node =>
      let (planted, child) := tree.plant node
      let fault := Node.childFault? tree.settings.strictStructure id.kind tag
        (tree.operator? id) ((tree.children id).map tree.outline) node.outline
      match fault with
      | some error => (planted.release child, .error { error })
      | none =>
        match planted.addChild id (.own child) none with
        | (tree, .error refusal) => (tree.release child, .error { error := .refused refusal })
        | (tree, .ok _) => takeChildren tree id tag rest

/-- Fill a node from a raw node of its kind: attributes, gaps, condition and children, one after the
other. What was taken over before a fault stays. -/
def takeOver (tree : Tree) (id : NodeId) (raw : Json) : Tree × Except BuildFailure Unit :=
  let found := (raw.get? "type").getD .null
  let tag := match found with
    | .text tag => tag
    | _ => id.kind.tag
  if found == .text id.kind.tag || found == .text id.kind.wireTag then
    match tree.takeAttributes id tag raw with
    | (tree, .error failure) => (tree, .error failure)
    | (tree, .ok ()) =>
      match tree.takeGaps id tag raw with
      | (tree, .error failure) => (tree, .error failure)
      | (tree, .ok ()) =>
        match tree.takeCondition id raw with
        | (tree, .error failure) => (tree, .error failure)
        | (tree, .ok ()) =>
          match Node.childrenFault? id.kind tag raw with
          | some error => (tree, .error { error })
          | none =>
            let items := match raw.present? "children" with
              | some (.array items) => items
              | _ => []
            tree.takeChildren id tag items
  else (tree, .error { error := .wrongTag id.kind found })

end Tree

end Verbatim
