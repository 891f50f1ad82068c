import Verbatim.Tree.Edit

/-!
# History

A history keeps the changes it is told of, so that they can be taken back and made again. Taking a
change back is itself an edit of the tree, but a silent one: nobody is told, so it is not kept as a
change of its own.

## Main definitions

* `Tree.revert`, `Tree.reapply`: take a change back, make it again
* `History`, `History.record`: the changes that can be taken back and made again
* `History.ofLimit`: an empty history, `LimitError`: why there is none with a limit
* `History.undo`, `History.redo`: walk along the history

## Main results

* `History.record_undoable`, `History.record_redoable`: what recording a change does

## Implementation notes

Both lists have the newest change first. A change leaves its list before it is taken back or made
again, and reaches the other list only if that works; so a change that no longer fits the tree is
forgotten.
-/

namespace Verbatim

/-! ### Replaying one change -/

/-- What was there, as something to be put back. -/
def Content.candidate : Content → Candidate
  | .value .null => .nothing
  | .value v => .value v
  | .node id => .own id

/-- What was there, as the value of an attribute. -/
def Content.attributeValue : Content → Json
  | .value v => v
  | .node id => .text id.text

namespace Tree

/-- Forget what change an edit made. -/
def withoutChange (edited : Tree × Except Refusal Change) : Tree × Except Refusal Unit :=
  (edited.1, edited.2.map fun _ => ())

/-- Put content back under the name of an attribute or into the condition slot. -/
def putBack (tree : Tree) (id : NodeId) (name : String) (content : Content) :
    Tree × Except Refusal Unit :=
  if name = conditionName && id.kind.hasCondition then tree.restoreCondition id content.candidate
  else withoutChange (tree.setAttribute id name content.attributeValue)

/-- Put a child back at the place of the change. -/
def putChild (tree : Tree) (change : Change) (content : Content) : Tree × Except Refusal Unit :=
  withoutChange (tree.addChild change.node content.candidate (change.index.map Int.ofNat))

/-- Take a child away again. -/
def takeChild (tree : Tree) (change : Change) (content : Content) : Tree × Except Refusal Unit :=
  withoutChange (tree.removeChild change.node content.candidate)

/-- Take a change back. -/
def revert (tree : Tree) (change : Change) : Tree × Except Refusal Unit :=
  match change.action with
  | .setAttribute => tree.putBack change.node (change.name.getD "") change.before
  | .addChild => tree.takeChild change change.after
  | .removeChild => tree.putChild change change.before
  | .replaceChild =>
    withoutChange
      (tree.replaceChild change.node change.after.candidate change.before.candidate)

/-- Make a change again. -/
def reapply (tree : Tree) (change : Change) : Tree × Except Refusal Unit :=
  match change.action with
  | .setAttribute => tree.putBack change.node (change.name.getD "") change.after
  | .addChild => tree.putChild change change.after
  | .removeChild => tree.takeChild change change.before
  | .replaceChild =>
    withoutChange
      (tree.replaceChild change.node change.before.candidate change.after.candidate)

/-- Run an edit that puts back recorded states, with the checks of the grammar off. -/
def whileReplaying {α : Type} (tree : Tree) (edit : Tree → Tree × α) : Tree × α :=
  let (edited, result) := edit { tree with replaying := true }
  ({ edited with replaying := tree.replaying }, result)

/-- Replay a change at its node, which must be in the store. -/
def replay (tree : Tree) (change : Change) (edit : Tree → Change → Tree × Except Refusal Unit) :
    Tree × Except Refusal Unit :=
  if tree.contains change.node then tree.whileReplaying fun tree => edit tree change
  else (tree, .error ⟨.undo, .vanished change.node⟩)

end Tree

/-! ### Histories -/

/-- The changes that can be taken back, and those that can be made again. -/
structure History where
  /-- The most changes that are kept for taking back; zero stands for all. -/
  limit : Nat
  undoable : List Change := []
  redoable : List Change := []

/-- Why there is no history with a limit. -/
inductive LimitError where
  | negative
  /-- The limit does not fit 64 bits with a sign. -/
  | tooLarge
  deriving DecidableEq, Repr

/-- The text of the error. -/
def LimitError.message : LimitError → String
  | .negative => "maxlen must be non-negative"
  | .tooLarge => "Python int too large to convert to C ssize_t"

namespace History

/-- An empty history that keeps at most as many changes. -/
def ofLimit (limit : Int) : Except LimitError History :=
  if limit < -0x8000000000000000 || 0x8000000000000000 ≤ limit then .error .tooLarge
  else if limit < 0 then .error .negative
  else .ok { limit := limit.toNat }

/-- Keep a change for taking back. The oldest goes where there are too many. -/
def keep (history : History) (change : Change) : List Change :=
  let changes := change :: history.undoable
  if history.limit = 0 then changes else changes.take history.limit

/-- Keep a new change. What was taken back before can no longer be made again. -/
def record (history : History) (change : Change) : History :=
  { history with undoable := history.keep change, redoable := [] }

theorem record_undoable (history : History) (change : Change) :
    (history.record change).undoable = history.keep change := rfl

theorem record_redoable (history : History) (change : Change) :
    (history.record change).redoable = [] := rfl

/-- Forget everything. -/
def clear (history : History) : History :=
  { history with undoable := [], redoable := [] }

/-- The changes that can be taken back, the oldest first. -/
def changes (history : History) : List Change :=
  history.undoable.reverse

/-- Take back the newest change of a tree, if there is one. -/
def undo (history : History) (tree : Tree) : History × Tree × Except Refusal (Option Change) :=
  match history.undoable with
  | [] => (history, tree, .ok none)
  | change :: rest =>
    let shortened := { history with undoable := rest }
    match tree.replay change Tree.revert with
    | (tree, .ok ()) =>
      ({ shortened with redoable := change :: history.redoable }, tree, .ok (some change))
    | (tree, .error refusal) => (shortened, tree, .error refusal)

/-- Make the change again that was taken back last, if there is one. -/
def redo (history : History) (tree : Tree) : History × Tree × Except Refusal (Option Change) :=
  match history.redoable with
  | [] => (history, tree, .ok none)
  | change :: rest =>
    let shortened := { history with redoable := rest }
    match tree.replay change Tree.reapply with
    | (tree, .ok ()) => ({ shortened with undoable := history.keep change }, tree, .ok (some change))
    | (tree, .error refusal) => (shortened, tree, .error refusal)

/-- Walk along a history that watches no tree. There is no node to change, so the next change is
only forgotten. -/
def lose (history : History) : List Change → History × Except Refusal (Option Change)
  | [] => (history, .ok none)
  | change :: _ => (history, .error ⟨.undo, .vanished change.node⟩)

/-- Take back a change without a tree. -/
def undoDetached (history : History) : History × Except Refusal (Option Change) :=
  lose { history with undoable := history.undoable.tail } history.undoable

/-- Make a change again without a tree. -/
def redoDetached (history : History) : History × Except Refusal (Option Change) :=
  lose { history with redoable := history.redoable.tail } history.redoable

end History

end Verbatim
