import Verbatim.Tree.History
import Verbatim.Tree.Source

/-!
# Workspaces

Several trees side by side, with the observers that watch them: histories, and one recorder that
keeps all it is told. A node is reached by a handle, since trees number their nodes on their own. A
node of one tree can be handed to an edit of another, which then refuses it.

## Main definitions

* `Handle`, `Given`: nodes across trees, and what is handed to an edit
* `Workspace`: the trees, the register of trees, the histories and what the recorder heard
* `Workspace.edit`: an edit of a tree, told to its observers unless it is silent
* `Workspace.setRoot?`, `Workspace.release`: roots and removals by handle
* `Workspace.watch`, `Workspace.attach`, `Workspace.detach`: histories that watch trees
* `Workspace.undo`, `Workspace.redo`: walk along a history

## Main results

* `Tree.map_deliveries`: every observer is told once, in the order in which they came
-/

namespace Verbatim

/-- A node of one of several trees. -/
structure Handle where
  tree : Nat
  node : NodeId
  deriving DecidableEq, Repr

/-- What is handed to an edit. -/
inductive Given where
  | nothing
  | value (value : Json)
  | node (handle : Handle)

/-- What was handed over, as the tree with the given number sees it. -/
def Given.candidate (number : Nat) : Given → Candidate
  | .nothing => .nothing
  | .value v => .value v
  | .node handle => if handle.tree = number then .own handle.node else .foreign handle.node

/-- Who is told about a change of the tree, in order. -/
def Tree.deliveries (tree : Tree) (change : Change) : List (Observer × Change) :=
  tree.observers.map (·, change)

theorem Tree.map_deliveries (tree : Tree) (change : Change) :
    (tree.deliveries change).map Prod.fst = tree.observers := by
  simp [Tree.deliveries, Function.comp_def]

/-- A history with the number of the tree it watches. -/
structure Watch where
  history : History
  watched : Option Nat

/-- Several trees. -/
structure Workspace where
  trees : List Tree := []
  /-- The numbers of the trees that can be looked up. -/
  registered : List Nat := []
  watches : List Watch := []
  /-- What the recorder was told, in order. -/
  heard : List Change := []

namespace Workspace

/-! ### Trees -/

/-- The tree with the given number. -/
def tree? (workspace : Workspace) (number : Nat) : Option Tree :=
  workspace.trees[number]?

/-- Put a tree in the place of another. -/
def setTree (workspace : Workspace) (number : Nat) (tree : Tree) : Workspace :=
  { workspace with trees := workspace.trees.set number tree }

/-- Add a tree, and give its number. -/
def addTree (workspace : Workspace) (tree : Tree) : Workspace × Nat :=
  ({ workspace with trees := workspace.trees ++ [tree] }, workspace.trees.length)

/-- Let a tree be looked up. -/
def register (workspace : Workspace) (number : Nat) : Workspace :=
  { workspace with registered := number :: workspace.registered }

/-- Whether a tree can be looked up. -/
def isRegistered (workspace : Workspace) (number : Nat) : Bool :=
  workspace.registered.contains number

/-- Let a tree no longer be looked up. -/
def unregister (workspace : Workspace) (number : Nat) : Workspace :=
  { workspace with registered := workspace.registered.erase number }

/-! ### Telling observers -/

/-- Tell one observer about a change. -/
def tell (workspace : Workspace) : Observer × Change → Workspace
  | (.recorder, change) => { workspace with heard := workspace.heard ++ [change] }
  | (.log number, change) =>
    { workspace with
      watches := workspace.watches.modify number fun watch =>
        { watch with history := watch.history.record change } }

/-- Tell all observers of a tree about a change. -/
def publish (workspace : Workspace) (tree : Tree) (change : Change) : Workspace :=
  (tree.deliveries change).foldl tell workspace

/-- Edit the tree with the given number, and tell its observers unless the edit is silent. -/
def edit {ε : Type} (workspace : Workspace) (number : Nat) (tree : Tree) (silent : Bool)
    (action : Tree → Tree × Except ε (Option Change)) : Workspace × Except ε (Option Change) :=
  let (tree, result) := action tree
  let workspace := workspace.setTree number tree
  match result with
  | .ok (some change) =>
    if silent then (workspace, result) else (workspace.publish tree change, result)
  | _ => (workspace, result)

/-! ### Nodes of other trees -/

/-- Make a node the root of the tree with the given number. -/
def setRoot? (workspace : Workspace) (number : Nat) (handle : Handle) : Option Workspace := do
  let tree ← workspace.tree? number
  if handle.tree = number then
    return workspace.setTree number (← tree.setRoot? handle.node)
  else
    none

/-- Drop a node and everything below it from the tree with the given number. Nodes are dropped by
their names, also where they are those of another tree. -/
def release (workspace : Workspace) (number : Nat) (handle : Handle) : Workspace :=
  match workspace.tree? number, workspace.tree? handle.tree with
  | some tree, some owner =>
    workspace.setTree number (tree.dropAll (owner.subtree handle.node) handle.node)
  | _, _ => workspace

/-! ### Histories -/

/-- Let a history stop watching. -/
def detach (workspace : Workspace) (number : Nat) : Workspace :=
  match workspace.watches[number]? with
  | some { history, watched := some treeNumber } =>
    let workspace := { workspace with
      watches := workspace.watches.set number { history, watched := none } }
    match workspace.tree? treeNumber with
    | some tree => workspace.setTree treeNumber (tree.unsubscribe (.log number))
    | none => workspace
  | _ => workspace

/-- Let a history watch a tree, and no other. -/
def attach (workspace : Workspace) (number treeNumber : Nat) : Workspace :=
  let workspace := workspace.detach number
  match workspace.watches[number]?, workspace.tree? treeNumber with
  | some watch, some tree =>
    let workspace := { workspace with
      watches := workspace.watches.set number { watch with watched := some treeNumber } }
    workspace.setTree treeNumber (tree.subscribe (.log number))
  | _, _ => workspace

/-- Add a history that watches nothing, and give its number. -/
def addHistory (workspace : Workspace) (history : History) : Workspace × Nat :=
  ({ workspace with watches := workspace.watches ++ [{ history, watched := none }] },
    workspace.watches.length)

/-- Add a history with the undo limit of a tree, and let it watch the tree. -/
def watch (workspace : Workspace) (treeNumber : Nat) : Except LimitError (Workspace × Nat) := do
  let limit : Nat := match workspace.tree? treeNumber with
    | some tree => tree.settings.undoLimit
    | none => 0
  let (workspace, number) := workspace.addHistory (← History.ofLimit limit)
  return (workspace.attach number treeNumber, number)

/-- The history with the given number. -/
def history? (workspace : Workspace) (number : Nat) : Option History :=
  (workspace.watches[number]?).map Watch.history

/-- Change a history. -/
def setHistory (workspace : Workspace) (number : Nat) (history : History) : Workspace :=
  { workspace with
    watches := workspace.watches.modify number fun watch => { watch with history } }

/-- Walk along a history, in the tree it watches or without one. -/
def walk (workspace : Workspace) (number : Nat)
    (step : History → Tree → History × Tree × Except Refusal (Option Change))
    (stepDetached : History → History × Except Refusal (Option Change)) :
    Workspace × Except Refusal (Option Change) :=
  match workspace.watches[number]? with
  | none => (workspace, .ok none)
  | some { history, watched } =>
    match watched.bind fun treeNumber => (workspace.tree? treeNumber).map (treeNumber, ·) with
    | some (treeNumber, tree) =>
      let (history, tree, result) := step history tree
      ((workspace.setTree treeNumber tree).setHistory number history, result)
    | none =>
      let (history, result) := stepDetached history
      (workspace.setHistory number history, result)

/-- Take back the newest change in a history. -/
def undo (workspace : Workspace) (number : Nat) : Workspace × Except Refusal (Option Change) :=
  workspace.walk number History.undo History.undoDetached

/-- Make the change of a history again that was taken back last. -/
def redo (workspace : Workspace) (number : Nat) : Workspace × Except Refusal (Option Change) :=
  workspace.walk number History.redo History.redoDetached

end Workspace

end Verbatim
