import Verbatim.Proofs.Refusals
import Verbatim.Proofs.Tree.Tracks
import Verbatim.Proofs.UndoRedo

/-!
# Undo and redo while a tree is put together

A history watches a tree from before its first change. Nodes are made and parts are built, they are
changed while they are loose or below the root, and they are joined, in any order. Then all of it is
taken back, and made again.

A change is found by the name of its node, which must be in the store when the change's turn comes. A
part that was put somewhere goes out of the store when that is taken back, whether it was loose
before or not. So a loose part that was changed and then put somewhere is not found when the change
is to be taken back. All changes are taken back where no loose part is put somewhere after it was
changed: parts are put where they belong first, and filled then. Subtrees that left the tree may come
back changed, since they were not in the store before.

## Main definitions

* `Tree.Fresh`: a tree before its first change
* `Edit.Orderly`: edits of nodes in the store that put nothing somewhere that was changed while it was
  loose
* `Construction`: what is done to a tree that a history watches
* `Workspace.Walked`: one step along a history after the other, all of which work

## Main results

* `Recorded.edit`: an edit puts its change on the track back
* `Walking.undo`, `Walking.redo`: every step along the history works
* `Construction.undo_redo`: **everything can be taken back and made again, and then all nodes look as
  they did**
* `Workspace.undo_vanished`: a loose loop is changed and then put below the root, and not all of it can
  be taken back

## Implementation notes

Each change is remembered with the node at the top that was above its node. Such nodes stay at the
top, since they are never put anywhere: somewhere below each of them a node was changed.
-/

namespace Verbatim

namespace Tree

/-- A tree before its first change: nodes were made and trees were built in it. -/
inductive Fresh : Tree → Prop where
  | empty (label : String) (settings : Settings) : Fresh (empty label settings)
  | create {tree : Tree} (kind : Kind) (fresh : Fresh tree) : Fresh (tree.create kind).1
  | build {tree : Tree} {raw : Json} {id : NodeId} (fresh : Fresh tree)
      (made : (tree.build raw).2 = .ok id) : Fresh (tree.build raw).1
  | setRoot {tree other : Tree} {id : NodeId} (fresh : Fresh tree) (stored : tree.contains id)
      (made : tree.setRoot? id = some other) : Fresh other
  | aside {tree : Tree} (observers : List Observer) (filePath : Option String) (fresh : Fresh tree) :
      Fresh { tree with observers, filePath }

/-- What is built has only what is allowed. -/
theorem lawful_of_ofRaw {strict : Bool} {raw : Json} {node : Node}
    (built : Node.ofRaw strict false raw = .ok node) : node.All (Node.Lawful strict) :=
  Node.All.imp (fun _ fit => fit.lawful) (Node.fit_of_ofRaw built)

theorem Fresh.steady {tree : Tree} (fresh : tree.Fresh) : tree.Steady := by
  induction fresh with
  | empty label settings => exact ⟨sound_empty label settings, lawful_empty label settings, rfl⟩
  | create kind _ ih => exact ih.plant (Node.lawful_bare _ kind)
  | build _ made ih =>
    obtain ⟨node, built, same, -⟩ := build_eq_ok made
    rw [same]
    exact ih.plant (lawful_of_ofRaw built)
  | setRoot _ stored made ih => exact ih.setRoot? stored made
  | aside observers filePath _ ih => exact ⟨ih.sound.of_cells rfl rfl, ih.lawful, ih.calm⟩

end Tree

/-- An edit of a node in the store, which puts nothing somewhere that was changed while it was loose.
-/
structure Edit.Orderly (tree : Tree) (changes : List Change) (edit : Edit) : Prop where
  stored : tree.contains edit.receiver
  usable : edit.inserted.Usable tree
  slot : edit.needsSlot → edit.receiver.kind.hasCondition
  plain : edit.readsText = false
  /-- What is in the store when it is put somewhere was not changed, and neither was anything below
  it. -/
  untouched : ∀ x, edit.inserted = .own x → tree.contains x →
    ∀ change ∈ changes, ¬ tree.Below x change.node

/-- What is done to a tree that a history watches: nodes are made and trees are built in it, a node in
the store becomes its root, and orderly edits work. -/
inductive Construction (number log : Nat) (start : Workspace) : Workspace → Prop where
  | start : Construction number log start start
  | create {workspace : Workspace} {tree : Tree} (kind : Kind)
      (construction : Construction number log start workspace)
      (found : workspace.tree? number = some tree) :
      Construction number log start (workspace.setTree number (tree.create kind).1)
  | build {workspace : Workspace} {tree : Tree} {raw : Json} {id : NodeId}
      (construction : Construction number log start workspace)
      (found : workspace.tree? number = some tree) (made : (tree.build raw).2 = .ok id) :
      Construction number log start (workspace.setTree number (tree.build raw).1)
  | setRoot {workspace later : Workspace} {tree : Tree} {id : NodeId}
      (construction : Construction number log start workspace)
      (found : workspace.tree? number = some tree) (stored : tree.contains id)
      (made : workspace.setRoot? number ⟨number, id⟩ = some later) :
      Construction number log start later
  | edit {workspace : Workspace} {tree : Tree} {history : History} {edit : Edit}
      {result : Option Change} (construction : Construction number log start workspace)
      (found : workspace.tree? number = some tree) (watch : workspace.history? log = some history)
      (orderly : edit.Orderly tree history.undoable) (worked : (edit.apply tree).2 = .ok result) :
      Construction number log start (workspace.edit number tree false edit.apply).1

/-! ### Recording -/

/-- The way back from a tree that was put together: the changes so far, the newest first, each with
the node at the top above it. -/
structure Recorded (tree : Tree) (history : History) (past : List (Change × NodeId)) : Prop where
  steady : tree.Steady
  behind : ∃ start, Tree.Track tree.Top start tree (past.map fun step => (step.1.inverse, step.2))
  /-- Nodes with a change below them are still at the top, with a change below them. -/
  tops : ∀ step ∈ past, tree.Top step.2 ∧ ∃ other ∈ past, tree.Below step.2 other.1.node
  unlimited : history.limit = 0
  undoable : history.undoable = past.map Prod.fst
  redoable : history.redoable = []

namespace Recorded

variable {tree other base : Tree} {history : History} {past : List (Change × NodeId)}
  {change : Change} {gone here : Option NodeId}

theorem start (steady : tree.Steady) : Recorded tree { limit := 0 } [] where
  steady
  behind := ⟨tree, .nil (.refl tree)⟩
  tops _ member := absurd member List.not_mem_nil
  unlimited := rfl
  undoable := rfl
  redoable := rfl

section

variable (recorded : Recorded tree history past)
include recorded

/-- Nodes are made. -/
theorem plant {node : Node} (all : node.All (Node.Lawful tree.settings.strictStructure)) :
    Recorded (tree.plant node).1 history past where
  steady := recorded.steady.plant all
  behind := by
    obtain ⟨start, track⟩ := recorded.behind
    exact ⟨_, track.plant all fun _ => Tree.top_plant_cases⟩
  tops step member := by
    obtain ⟨top, other, memberToo, below⟩ := recorded.tops step member
    exact ⟨(Tree.grown_plant tree node).top top, other, memberToo, Tree.below_plant below node⟩
  unlimited := recorded.unlimited
  undoable := recorded.undoable
  redoable := recorded.redoable

/-- A node becomes the root. -/
theorem setRoot {id : NodeId} (stored : tree.contains id) (made : tree.setRoot? id = some other) :
    Recorded other history past := by
  have steady := recorded.steady.setRoot? stored made
  obtain ⟨-, rfl⟩ := Tree.setRoot?_eq_some.1 made
  obtain ⟨start, track⟩ := recorded.behind
  exact {
    steady
    behind := ⟨start, track.of_matches (Tree.matches_of_cells rfl) rfl⟩
    tops := recorded.tops
    unlimited := recorded.unlimited
    undoable := recorded.undoable
    redoable := recorded.redoable }

/-- A change is made and recorded. -/
theorem record (steady : other.Steady) (frame : tree.SameFrame other) (filled : tree.Filled base)
    (leads : base.Leads other change) (stored : tree.contains change.node)
    (exchanged : tree.Exchanged other change.node gone here)
    (untouched : ∀ h ∈ here, tree.contains h →
      ∀ change ∈ history.undoable, ¬ tree.Below h change.node) :
    ∃ top, Recorded other (history.record change) ((change, top) :: past) := by
  obtain ⟨sound, lawful, settings, owns⟩ := filled.keeps recorded.steady.sound recorded.steady.lawful
  have below : base.Below = tree.Below := by rw [Tree.Below, Tree.Below, owns]
  have tops {x : NodeId} : other.Top x ↔ tree.Top x ∧ x ∉ here :=
    exchanged.top_iff recorded.steady.sound.kept
  have moved {x : NodeId} (inside : tree.Below x change.node) : other.Below x change.node :=
    leads.below sound.toForest (below ▸ inside)
  obtain ⟨top, isTop, inside⟩ := recorded.steady.sound.exists_top stored
  -- The node at the top does not come below the receiver, since the receiver is below it.
  have stays : other.Top top := tops.2 ⟨isTop, fun member =>
    (exchanged.exchange.fits member).apart inside⟩
  refine ⟨top, ⟨steady, ?_, fun step member => ?_, recorded.unlimited, ?_, rfl⟩⟩
  · obtain ⟨start, track⟩ := recorded.behind
    obtain ⟨start, track⟩ := track.filled filled
    refine ⟨start, .cons sound lawful (settings.trans frame.settings.symm) leads.inverse
      (fun x isFree => ?_) (moved inside) (track.mono fun x isFree => (tops.1 isFree).1)⟩
    rw [Tree.Loose, owns]
    exact (tops.1 isFree).1.2
  · obtain rfl | member := List.mem_cons.1 member
    · exact ⟨stays, _, List.mem_cons_self, moved inside⟩
    · obtain ⟨wasTop, last, memberToo, under⟩ := recorded.tops step member
      have known : last.1 ∈ history.undoable := by
        rw [recorded.undoable]
        exact List.mem_map_of_mem memberToo
      refine ⟨tops.2 ⟨wasTop, fun new => untouched _ new wasTop.1 _ known under⟩, ?_⟩
      -- What left the node at the top left it by this very change.
      by_cases above : tree.Below step.2 change.node
      · exact ⟨_, List.mem_cons_self, moved above⟩
      · exact ⟨last, List.mem_cons_of_mem _ memberToo,
          (Tree.below_congr exchanged.rewired.elsewhere above).2 under⟩
  · rw [History.record, History.keep, if_pos recorded.unlimited, recorded.undoable]
    rfl

/-- An orderly edit works, and is recorded if it changed anything. -/
theorem edit {edit : Edit} {result : Option Change} (orderly : edit.Orderly tree history.undoable)
    (worked : (edit.apply tree).2 = .ok result) :
    ∃ past, Recorded (edit.apply tree).1 (result.elim history history.record) past := by
  have sound := recorded.steady.sound
  obtain ⟨rfl, same⟩ | ⟨change, base, rfl, filled, leads, receiver⟩ :=
    edit.led_filled sound recorded.steady.calm orderly.stored orderly.slot orderly.plain worked
  · rw [same]
    exact ⟨past, recorded⟩
  · obtain ⟨gone, here, exchanged, inserted⟩ :=
      sound.touched_apply orderly.stored orderly.usable orderly.plain
    have stored := orderly.stored
    rw [← receiver] at exchanged stored
    obtain ⟨top, next⟩ := recorded.record
      (recorded.steady.apply orderly.stored orderly.usable orderly.plain) (edit.frame sound) filled
      leads stored exchanged fun h member => orderly.untouched h (inserted h member)
    exact ⟨_, next⟩

end

end Recorded

namespace Workspace

variable {workspace later : Workspace} {number log : Nat} {tree : Tree} {history : History}

theorem setRoot?_eq_some {id : NodeId} (found : workspace.tree? number = some tree)
    (made : workspace.setRoot? number ⟨number, id⟩ = some later) :
    ∃ other, tree.setRoot? id = some other ∧ later = workspace.setTree number other := by
  simp only [setRoot?, found, Option.bind_eq_bind, Option.bind_some, if_true] at made
  obtain ⟨other, passed, same⟩ := Option.bind_eq_some_iff.1 made
  exact ⟨other, passed, (Option.some.inj same).symm⟩

end Workspace

/-- What is done to a tree in a construction is recorded by the history that watches it. -/
theorem Construction.recorded {number log : Nat} {start workspace : Workspace} {first : Tree}
    (steady : first.Steady) (watching : start.Watching number log first { limit := 0 })
    (construction : Construction number log start workspace) :
    ∃ tree history past, workspace.Watching number log tree history ∧
      Recorded tree history past := by
  induction construction with
  | start => exact ⟨first, _, [], watching, .start steady⟩
  | create kind _ found ih =>
    obtain ⟨tree, history, past, watching, recorded⟩ := ih
    obtain rfl := Option.some.inj (found.symm.trans watching.found)
    exact ⟨_, history, past, watching.setTree rfl, recorded.plant (Node.lawful_bare _ kind)⟩
  | build _ found made ih =>
    obtain ⟨tree, history, past, watching, recorded⟩ := ih
    obtain rfl := Option.some.inj (found.symm.trans watching.found)
    obtain ⟨node, built, same, -⟩ := Tree.build_eq_ok made
    rw [same]
    exact ⟨_, history, past, watching.setTree rfl, recorded.plant (Tree.lawful_of_ofRaw built)⟩
  | setRoot _ found stored made ih =>
    obtain ⟨tree, history, past, watching, recorded⟩ := ih
    obtain rfl := Option.some.inj (found.symm.trans watching.found)
    obtain ⟨other, passed, rfl⟩ := Workspace.setRoot?_eq_some found made
    refine ⟨other, history, past, watching.setTree ?_, recorded.setRoot stored passed⟩
    rw [(Tree.setRoot?_eq_some.1 passed).2]
  | @edit _ _ _ edit _ _ found watch orderly worked ih =>
    obtain ⟨tree, history, past, watching, recorded⟩ := ih
    obtain rfl := Option.some.inj (found.symm.trans watching.found)
    rw [Workspace.history?, watching.watch] at watch
    obtain rfl := Option.some.inj watch
    obtain ⟨past, next⟩ := recorded.edit orderly worked
    exact ⟨_, _, past, watching.edit worked (edit.frame recorded.steady.sound), next⟩

/-! ### Walking -/

/-- A tree on the way back from the goal, or on the way there again. -/
structure Walking (free : NodeId → Prop) (goal tree : Tree) (history : History)
    (past ahead : List (Change × NodeId)) : Prop where
  sound : tree.Sound
  lawful : tree.Lawful
  frame : goal.SameFrame tree
  tops : ∀ x, free x → tree.Top x
  root : ∀ x, goal.root = some x → free x
  named : ∀ step ∈ past ++ ahead, free step.2
  behind : ∃ start, Tree.Track free start tree (past.map fun step => (step.1.inverse, step.2))
  forward : Tree.Track free goal tree ahead
  unlimited : history.limit = 0
  undoable : history.undoable = past.map Prod.fst
  redoable : history.redoable = ahead.map Prod.fst

namespace Walking

variable {free : NodeId → Prop} {goal tree : Tree} {history : History} {change : Change}
  {top : NodeId} {past ahead : List (Change × NodeId)}

/-- The newest change is taken back. -/
theorem undo (walking : Walking free goal tree history ((change, top) :: past) ahead) :
    (history.undo tree).2.2 = .ok (some change) ∧ tree.SameFrame (history.undo tree).2.1 ∧
      Walking free goal (history.undo tree).2.1 (history.undo tree).1 past
        ((change, top) :: ahead) := by
  obtain ⟨start, behind⟩ := walking.behind
  have isFree : free top := walking.named _ List.mem_cons_self
  obtain ⟨next, made, sound, lawful, frame, tops, behind, forward⟩ :=
    behind.walk walking.sound walking.lawful walking.tops isFree fun x isRoot =>
      walking.root x (walking.frame.root.symm.trans isRoot)
  rw [← Tree.replay_revert] at made
  have forward := forward _ _ walking.forward
  rw [Change.inverse_inverse] at forward
  rw [History.undo_eq walking.undoable made]
  refine ⟨rfl, frame, ?_⟩
  exact {
    sound
    lawful
    frame := walking.frame.trans frame
    tops
    root := walking.root
    named := fun step member => walking.named step (List.perm_middle.mem_iff.1 member)
    behind := ⟨start, behind⟩
    forward
    unlimited := walking.unlimited
    undoable := rfl
    redoable := congrArg (List.cons change) walking.redoable }

/-- The change is made again that was taken back last. -/
theorem redo (walking : Walking free goal tree history past ((change, top) :: ahead)) :
    (history.redo tree).2.2 = .ok (some change) ∧ tree.SameFrame (history.redo tree).2.1 ∧
      Walking free goal (history.redo tree).2.1 (history.redo tree).1 ((change, top) :: past)
        ahead := by
  obtain ⟨start, behind⟩ := walking.behind
  have isFree : free top := walking.named _ (List.mem_append_right _ List.mem_cons_self)
  obtain ⟨next, made, sound, lawful, frame, tops, forward, back⟩ :=
    walking.forward.walk walking.sound walking.lawful walking.tops isFree fun x isRoot =>
      walking.root x (walking.frame.root.symm.trans isRoot)
  rw [History.redo_eq walking.redoable made]
  refine ⟨rfl, frame, ?_⟩
  exact {
    sound
    lawful
    frame := walking.frame.trans frame
    tops
    root := walking.root
    named := fun step member => walking.named step (List.perm_middle.mem_iff.2 member)
    behind := ⟨start, back _ _ behind⟩
    forward
    unlimited := walking.unlimited
    undoable := by
      show history.keep change = _
      rw [History.keep, if_pos walking.unlimited, walking.undoable]
      rfl
    redoable := rfl }

end Walking

/-- From what was recorded, one can walk back. -/
theorem Recorded.walking {tree : Tree} {history : History} {past : List (Change × NodeId)}
    (recorded : Recorded tree history past) :
    Walking tree.Top tree tree history past [] where
  sound := recorded.steady.sound
  lawful := recorded.steady.lawful
  frame := .refl tree
  tops _ := id
  root _ := recorded.steady.sound.root_stored
  named step member := (recorded.tops step (List.append_nil past ▸ member)).1
  behind := recorded.behind
  forward := .nil (.refl tree)
  unlimited := recorded.unlimited
  undoable := recorded.undoable
  redoable := recorded.redoable

/-! ### Walking along the history -/

namespace Workspace

/-- One step after the other, each of which works and gives back a change. -/
inductive Walked (step : Workspace → Workspace × Except Refusal (Option Change)) :
    Workspace → List Change → Workspace → Prop where
  | nil (workspace : Workspace) : Walked step workspace [] workspace
  | cons {workspace last : Workspace} {change : Change} {changes : List Change}
      (worked : (step workspace).2 = .ok (some change))
      (rest : Walked step (step workspace).1 changes last) :
      Walked step workspace (change :: changes) last

end Workspace

namespace Walking

variable {free : NodeId → Prop} {goal tree : Tree} {history : History} {workspace : Workspace}
  {number log : Nat} {past ahead : List (Change × NodeId)}

theorem history_eq (walking : Walking free goal tree history past ahead) : history =
    { limit := 0, undoable := past.map Prod.fst, redoable := ahead.map Prod.fst } := by
  rw [← walking.unlimited, ← walking.undoable, ← walking.redoable]

/-- All changes are taken back. -/
theorem undo_all (walking : Walking free goal tree history past ahead)
    (watching : workspace.Watching number log tree history) :
    ∃ last tree history, Workspace.Walked (·.undo log) workspace (past.map Prod.fst) last ∧
      last.Watching number log tree history ∧
      Walking free goal tree history [] (past.reverse ++ ahead) := by
  induction past generalizing workspace tree history ahead with
  | nil => exact ⟨workspace, tree, history, .nil workspace, watching, walking⟩
  | cons step past ih =>
    obtain ⟨worked, frame, next⟩ := walking.undo
    obtain ⟨result, watchingNext⟩ := watching.walk frame
    obtain ⟨last, tree, history, walked, rest⟩ := ih next watchingNext
    rw [List.reverse_cons, List.append_assoc]
    exact ⟨last, tree, history, .cons (result.trans worked) walked, rest⟩

/-- All changes are made again. -/
theorem redo_all (walking : Walking free goal tree history past ahead)
    (watching : workspace.Watching number log tree history) :
    ∃ last tree history, Workspace.Walked (·.redo log) workspace (ahead.map Prod.fst) last ∧
      last.Watching number log tree history ∧
      Walking free goal tree history (ahead.reverse ++ past) [] := by
  induction ahead generalizing workspace tree history past with
  | nil => exact ⟨workspace, tree, history, .nil workspace, watching, walking⟩
  | cons step ahead ih =>
    obtain ⟨worked, frame, next⟩ := walking.redo
    obtain ⟨result, watchingNext⟩ := watching.walk frame
    obtain ⟨last, tree, history, walked, rest⟩ := ih next watchingNext
    rw [List.reverse_cons, List.append_assoc]
    exact ⟨last, tree, history, .cons (result.trans worked) walked, rest⟩

end Walking

/-- **Everything can be taken back and made again, and then all nodes look as they did.** Afterwards
there is nothing more to be taken back, and nothing more to be made again. -/
theorem Construction.undo_redo {number log : Nat} {start workspace : Workspace} {first : Tree}
    (fresh : first.Fresh) (watching : start.Watching number log first { limit := 0 })
    (construction : Construction number log start workspace) :
    ∃ tree history undone redone last,
      workspace.tree? number = some tree ∧ workspace.history? log = some history ∧
      Workspace.Walked (·.undo log) workspace history.undoable undone ∧
      undone.history? log = some { limit := 0, redoable := history.undoable.reverse } ∧
      Workspace.Walked (·.redo log) undone history.undoable.reverse redone ∧
      redone.history? log = some history ∧ redone.tree? number = some last ∧
      last.root = tree.root ∧ ∀ id, last.snapshot id = tree.snapshot id := by
  obtain ⟨tree, history, past, watching, recorded⟩ := construction.recorded fresh.steady watching
  obtain ⟨undone, bare, before, undo, watchingBare, walking⟩ :=
    recorded.walking.undo_all watching
  rw [List.append_nil] at walking
  obtain ⟨redone, last, after, redo, watchingLast, again⟩ := walking.redo_all watchingBare
  rw [List.append_nil, List.reverse_reverse] at again
  have changes : (past.reverse).map Prod.fst = history.undoable.reverse := by
    rw [List.map_reverse, recorded.undoable]
  refine ⟨tree, history, undone, redone, last, watching.found, watching.history?,
    recorded.undoable ▸ undo, ?_, changes ▸ redo, ?_, watchingLast.found, again.frame.root,
    fun id => ?_⟩
  · rw [watchingBare.history?, walking.history_eq, changes]
    rfl
  · rw [watchingLast.history?, again.history_eq, recorded.walking.history_eq]
  · cases again.forward with
    | nil same => exact Tree.snapshot_congr (same.symm.view id)

/-- A unit as the root, a loose loop and a loose reference to a variable, watched by a history. -/
theorem Workspace.watching_parts : ∃ (first : Tree) (start : Workspace),
    first = {
      label := "t", settings := {}, root := some ⟨.compilationUnit, 1⟩, observers := [.log 0],
      cells := #[{ kind := .compilationUnit }, { kind := .whileLoop },
        { kind := .reference, attributes := [("variable_name", .text "x")] }] } ∧
    start = { trees := [first], watches := [{ history := { limit := 0 }, watched := some 0 }] } ∧
    first.Fresh ∧ start.Watching 0 0 first { limit := 0 } := by
  let raw : Json := (Node.mk .reference [("variable_name", .text "x")] none [] []).toJson
  obtain ⟨rooted, made⟩ : ∃ tree : Tree, tree =
    { ((Tree.empty "t" {}).create .compilationUnit).1 with root := some ⟨.compilationUnit, 1⟩ } :=
      ⟨_, rfl⟩
  have fresh : rooted.Fresh := .setRoot (.create .compilationUnit (.empty "t" {}))
    (show Tree.contains _ ⟨.compilationUnit, 1⟩ by cbv) (by rw [made]; cbv)
  have built : ((rooted.create .whileLoop).1.build raw).2 = .ok ⟨.reference, 3⟩ := by
    rw [made]
    cbv
  refine ⟨_, _, ?_, rfl, .aside [.log 0] none (.build (.create .whileLoop fresh) built),
    rfl, rfl, rfl⟩
  rw [made]
  cbv

/-- A loop is put below the root, and then it gets its condition. Both are taken back and made again. -/
theorem Construction.undo_redo_loop : ∃ (first : Tree) (start workspace : Workspace),
    first.Fresh ∧ start.Watching 0 0 first { limit := 0 } ∧ Construction 0 0 start workspace ∧
      ∃ tree history undone redone last,
        workspace.tree? 0 = some tree ∧ workspace.history? 0 = some history ∧
        Workspace.Walked (·.undo 0) workspace history.undoable undone ∧
        undone.history? 0 = some { limit := 0, redoable := history.undoable.reverse } ∧
        Workspace.Walked (·.redo 0) undone history.undoable.reverse redone ∧
        redone.history? 0 = some history ∧ redone.tree? 0 = some last ∧
        last.root = tree.root ∧ ∀ id, last.snapshot id = tree.snapshot id := by
  let unit : NodeId := ⟨.compilationUnit, 1⟩
  let loop : NodeId := ⟨.whileLoop, 2⟩
  let reference : NodeId := ⟨.reference, 3⟩
  let addition : Edit := .addChild unit (.own loop) none
  let setting : Edit := .setCondition loop (.own reference)
  obtain ⟨first, start, made, -, fresh, watching⟩ := Workspace.watching_parts
  have stored : first.contains unit ∧ first.contains loop := by
    rw [made]
    cbv
  let added : Change :=
    { action := .addChild, node := unit, path := [], index := some 0, after := .node loop }
  have worked : (addition.apply first).2 = .ok (some added) := by
    rw [made]
    cbv
  have orderly : addition.Orderly first [] := ⟨stored.1, .inl stored.2, Bool.noConfusion, rfl,
    fun _ _ _ _ member => absurd member List.not_mem_nil⟩
  have opening : Construction 0 0 start start := .start
  have joining := opening.edit watching.found watching.history? orderly worked
  have watchingNext := watching.edit worked (addition.frame fresh.steady.sound)
  obtain ⟨second, joined⟩ : ∃ tree, tree = (addition.apply first).1 := ⟨_, rfl⟩
  rw [← joined] at watchingNext
  have stored : second.contains loop ∧ second.contains reference := by
    rw [joined, made]
    cbv
  have loose : second.Loose unit := by
    rw [joined, made]
    exact Tree.loose_of_names (by cbv)
  let filled : Change :=
    { action := .setAttribute, node := loop, path := [.index 0], name := some conditionName,
      after := .node reference }
  have worked : (setting.apply second).2 = .ok (some filled) := by
    rw [joined, made]
    cbv
  have orderly : setting.Orderly second [added] := by
    refine ⟨stored.1, .inl stored.2, fun _ => rfl, rfl, fun x same _ change member below => ?_⟩
    obtain rfl := Candidate.own.inj same
    obtain rfl := List.mem_singleton.1 member
    exact absurd (loose.eq_of_below below) (by decide)
  have filling := joining.edit watchingNext.found watchingNext.history? orderly worked
  exact ⟨first, start, _, fresh, watching, filling, Construction.undo_redo fresh watching filling⟩

/-- The loop gets its condition while it is loose, and then it is put below the root. Both calls work.
Taking back the second one takes the loop out of the store, and then the first one finds no loop. -/
theorem Workspace.undo_vanished :
    let unit : NodeId := ⟨.compilationUnit, 1⟩
    let loop : NodeId := ⟨.whileLoop, 2⟩
    let reference : NodeId := ⟨.reference, 3⟩
    ∃ (first second : Tree) (start middle last : Workspace) (filled added : Change),
      first.Fresh ∧ start.Watching 0 0 first { limit := 0 } ∧
      first.contains loop ∧ first.contains reference ∧
      start.edit 0 first false (Edit.setCondition loop (.own reference)).apply =
        (middle, .ok (some filled)) ∧
      middle.tree? 0 = some second ∧ second.contains unit ∧ second.contains loop ∧
      middle.edit 0 second false (Edit.addChild unit (.own loop) none).apply =
        (last, .ok (some added)) ∧
      (last.undo 0).2 = .ok (some added) ∧
      ((last.undo 0).1.undo 0).2 = .error ⟨.undo, .vanished loop⟩ := by
  intro unit loop reference
  let filled : Change :=
    { action := .setAttribute, node := loop, path := [], name := some conditionName,
      after := .node reference }
  let added : Change :=
    { action := .addChild, node := unit, path := [], index := some 0, after := .node loop }
  obtain ⟨first, start, made, opened, fresh, watching⟩ := Workspace.watching_parts
  let setting : Edit := .setCondition loop (.own reference)
  let addition : Edit := .addChild unit (.own loop) none
  obtain ⟨second, changed⟩ : ∃ tree, tree = (setting.apply first).1 := ⟨_, rfl⟩
  obtain ⟨middle, begun⟩ : ∃ workspace, workspace = (start.edit 0 first false setting.apply).1 :=
    ⟨_, rfl⟩
  have worked : (setting.apply first).2 = .ok (some filled) := by
    rw [made]
    cbv
  have watchingNext := watching.edit worked (setting.frame fresh.steady.sound)
  rw [← begun, ← changed] at watchingNext
  have stored : first.contains loop ∧ first.contains reference := by
    rw [made]
    cbv
  have storedNext : second.contains unit ∧ second.contains loop := by
    rw [changed, made]
    cbv
  have workedNext : (addition.apply second).2 = .ok (some added) := by
    rw [changed, made]
    cbv
  refine ⟨first, second, start, middle, _, filled, added, fresh, watching, stored.1, stored.2,
    Prod.ext begun.symm ?_, watchingNext.found, storedNext.1, storedNext.2, Prod.ext rfl ?_, ?_, ?_⟩
  · rw [Workspace.edit_result, worked]
  · rw [Workspace.edit_result, workedNext]
  · rw [begun, changed, opened, made]
    cbv
  · rw [begun, changed, opened, made]
    cbv

end Verbatim
