import Verbatim.Proofs.Coherence
import Verbatim.Proofs.Tree.Fitting

/-!
# Working on a tree

What a program does with a tree once it is built: it asks for edits of nodes below the root. What it
puts in are nodes that it built in the tree, and subtrees that left it. The root, the settings and
the observers of the tree stay as they are, and so do the tables and the grammar.

## Main definitions

* `Edit`, `Edit.apply`: what can be asked for, and what it does
* `Edit.Allowed`: what is asked of the receiver and of nodes that are put somewhere
* `Tree.Ready`: a tree that can be worked on

## Main results

* `Edit.frame`: edits change nothing beside the cells
* `Tree.Ready.apply`, `Tree.Ready.build`: edits and builds that work keep trees ready
-/

namespace Verbatim

/-- An edit that can be asked for. -/
inductive Edit where
  | setAttribute (receiver : NodeId) (name : String) (value : Json)
  | addChild (receiver : NodeId) (child : Candidate) (index : Option Int)
  | removeChild (receiver : NodeId) (child : Candidate)
  | replaceChild (receiver : NodeId) (old new : Candidate)
  | setCondition (receiver : NodeId) (condition : Candidate)
  | setConditionText (receiver : NodeId) (text : String)

namespace Edit

/-- The node that is asked. -/
def receiver : Edit → NodeId
  | setAttribute receiver .. | addChild receiver .. | removeChild receiver _
  | replaceChild receiver .. | setCondition receiver _ | setConditionText receiver _ => receiver

/-- What is put into the tree. -/
def inserted : Edit → Candidate
  | addChild _ child _ => child
  | replaceChild _ _ new => new
  | setCondition _ condition => condition
  | setAttribute .. | removeChild .. | setConditionText .. => .nothing

/-- Whether only nodes with a slot for a condition can be asked. -/
def needsSlot : Edit → Bool
  | setCondition .. | setConditionText .. => true
  | _ => false

/-- Whether a condition is read from a text. -/
def readsText : Edit → Bool
  | setConditionText .. => true
  | _ => false

/-- What the edit does, with the change that observers are told of. -/
def apply (edit : Edit) (tree : Tree) : Tree × Except Tree.ConditionTextError (Option Change) :=
  let plain (edited : Edited Refusal) := (edited.1, (edited.2.map some).mapError .refused)
  match edit with
  | setAttribute receiver name value => plain (tree.setAttribute receiver name value)
  | addChild receiver child index => plain (tree.addChild receiver child index)
  | removeChild receiver child => plain (tree.removeChild receiver child)
  | replaceChild receiver old new => plain (tree.replaceChild receiver old new)
  | setCondition receiver condition =>
    let (tree, change) := tree.setCondition receiver condition
    (tree, change.mapError .refused)
  | setConditionText receiver text => tree.setConditionText receiver text

/-- The receiver is below the root, what is put somewhere may go into the tree, and only nodes with a
slot are asked to take a condition. -/
structure Allowed (tree : Tree) (edit : Edit) : Prop where
  inside : ∃ root, tree.root = some root ∧ tree.Below root edit.receiver
  usable : edit.inserted.Usable tree
  slot : edit.needsSlot → edit.receiver.kind.hasCondition

/-- The edit as a call. -/
def call : Edit → Call
  | setAttribute receiver name value => .setAttribute receiver name value
  | addChild receiver child index => .addChild receiver child index
  | removeChild receiver child => .removeChild receiver child
  | replaceChild receiver old new => .replaceChild receiver old new
  | setCondition receiver condition => .setCondition receiver condition
  | setConditionText receiver text => .setConditionText receiver text

theorem perform_call (edit : Edit) (tree : Tree) : tree.perform edit.call = (edit.apply tree).1 := by
  cases edit <;> rfl

end Edit

namespace Tree

variable {tree other : Tree} {id x p old new child : NodeId} {edit : Edit}

/-! ### Soundness -/

/-- Nodes below the root are in the store. -/
theorem Sound.contains_receiver (sound : tree.Sound) (allowed : edit.Allowed tree) :
    tree.contains edit.receiver := by
  obtain ⟨root, isRoot, below⟩ := allowed.inside
  exact (sound.contains_below below).2 (sound.root_stored isRoot).1

/-- Edits keep trees sound. -/
theorem Sound.apply (sound : tree.Sound) (allowed : edit.Allowed tree) :
    (edit.apply tree).1.Sound := by
  have stored := sound.contains_receiver allowed
  have usable := allowed.usable
  rw [← Edit.perform_call]
  refine sound.perform ?_
  cases edit with
  | setAttribute | removeChild | setConditionText => exact stored
  | addChild | replaceChild | setCondition => exact ⟨stored, usable⟩

/-- An edit exchanges what its receiver owns. -/
theorem Sound.touched_apply (sound : tree.Sound) (stored : tree.contains edit.receiver)
    (usable : edit.inserted.Usable tree) (plain : edit.readsText = false) :
    tree.Touched (edit.apply tree).1 edit.receiver edit.inserted := by
  have kept := sound.kept
  have made := made_of_contains stored
  cases edit with
  | setAttribute p name value => exact kept.setAttribute name value
  | addChild p child index =>
    exact kept.addChild made (fun _ => sound.attachable_of_usable stored usable) index
  | removeChild p child => exact kept.removeChild made child
  | replaceChild p oldCandidate candidate =>
    exact kept.replaceChild made (fun _ => sound.attachable_of_usable stored usable) oldCandidate
  | setCondition p candidate =>
    exact kept.setCondition made fun _ => sound.attachable_of_usable stored usable
  | setConditionText => exact absurd plain Bool.noConfusion

/-! ### Frames -/

/-- Nothing changed beside the cells. -/
def SameFrame (tree other : Tree) : Prop :=
  ∃ cells, other = { tree with cells }

namespace SameFrame

theorem refl (tree : Tree) : tree.SameFrame tree :=
  ⟨tree.cells, rfl⟩

theorem trans {third : Tree} (first : tree.SameFrame other) (second : other.SameFrame third) :
    tree.SameFrame third := by
  obtain ⟨cells, rfl⟩ := first
  obtain ⟨cells, rfl⟩ := second
  exact ⟨cells, rfl⟩

theorem symm (same : tree.SameFrame other) : other.SameFrame tree := by
  obtain ⟨cells, rfl⟩ := same
  exact ⟨tree.cells, rfl⟩

theorem modify (tree : Tree) (id : NodeId) (change : Cell → Cell) :
    tree.SameFrame (tree.modify id change) :=
  frame_modify

theorem storeChildren (tree : Tree) (p : NodeId) (children : List NodeId) :
    tree.SameFrame (tree.storeChildren p children) :=
  modify tree p _

theorem of_alike (alike : tree.Alike other) (root : other.root = tree.root) :
    tree.SameFrame other := by
  obtain ⟨cells, top, rfl⟩ := alike.frame
  obtain rfl : top = tree.root := root
  exact ⟨cells, rfl⟩

theorem adopt (tree : Tree) (child parent : NodeId) : tree.SameFrame (tree.adopt child parent) :=
  of_alike (Alike.adopt tree child parent) (root_adopt tree child parent)

theorem release (notRoot : tree.root ≠ some id) : tree.SameFrame (tree.release id) :=
  of_alike (Alike.release tree id) (root_release notRoot)

theorem plant (tree : Tree) (node : Node) : tree.SameFrame (tree.plant node).1 :=
  ⟨_, rfl⟩

theorem build (tree : Tree) (raw : Json) : tree.SameFrame (tree.build raw).1 := by
  unfold Tree.build
  split
  · exact plant tree _
  · unfold absorb
    split
    · exact trans ⟨_, rfl⟩ (plant _ _)
    · exact ⟨_, rfl⟩

theorem root (same : tree.SameFrame other) : other.root = tree.root := by
  obtain ⟨cells, rfl⟩ := same
  rfl

theorem settings (same : tree.SameFrame other) : other.settings = tree.settings := by
  obtain ⟨cells, rfl⟩ := same
  rfl

theorem replaying (same : tree.SameFrame other) : other.replaying = tree.replaying := by
  obtain ⟨cells, rfl⟩ := same
  rfl

theorem observers (same : tree.SameFrame other) : other.observers = tree.observers := by
  obtain ⟨cells, rfl⟩ := same
  rfl

end SameFrame

section Frames

variable {place : Nat}

theorem Sound.notRoot_of_owns (sound : tree.Sound) (owns : tree.Owns p x) : tree.root ≠ some x :=
  fun isRoot => (sound.root_stored isRoot).2 p owns

theorem SameFrame.insertChild (tree : Tree) (p child : NodeId) (place : Nat) :
    tree.SameFrame (tree.insertChild p child place) :=
  trans (storeChildren tree p _) (adopt _ child p)

theorem SameFrame.eraseChild (sound : tree.Sound) (owns : tree.Owns p child) :
    tree.SameFrame (tree.eraseChild p child place) := by
  have changed := storeChildren tree p ((tree.children p).eraseIdx place)
  refine changed.trans (release ?_)
  rw [changed.root]
  exact sound.notRoot_of_owns owns

theorem SameFrame.exchangeChild (sound : tree.Sound) (owns : tree.Owns p old) :
    tree.SameFrame (tree.exchangeChild p old new place) := by
  have changed := storeChildren tree p ((tree.children p).set place new)
  refine (changed.trans (release ?_)).trans (adopt _ new p)
  rw [changed.root]
  exact sound.notRoot_of_owns owns

theorem SameFrame.exchangeCondition (sound : tree.Sound) (p new : NodeId) :
    tree.SameFrame (tree.exchangeCondition (tree.condition? p) p new) := by
  have adopted := adopt tree new p
  unfold Tree.exchangeCondition
  cases slot : tree.condition? p with
  | none => exact adopted
  | some old =>
    refine adopted.trans (release ?_)
    rw [adopted.root]
    exact sound.notRoot_of_owns (owns_condition slot)

theorem SameFrame.setCondition (sound : tree.Sound) (p : NodeId) (candidate : Candidate) :
    tree.SameFrame (tree.setCondition p candidate).1 := by
  obtain same | ⟨cause, -, same⟩ | ⟨new, -, same⟩ := setCondition_cases tree p candidate <;> rw [same]
  · exact refl tree
  · exact refl tree
  · exact (exchangeCondition sound p new).trans (modify _ p _)

end Frames

end Tree

/-- Edits change nothing beside the cells. -/
theorem Edit.frame {tree : Tree} (sound : tree.Sound) (edit : Edit) :
    tree.SameFrame (edit.apply tree).1 := by
  cases edit with
  | setAttribute p name value =>
    show tree.SameFrame (tree.setAttribute p name value).1
    obtain ⟨cause, -, same⟩ | ⟨-, same⟩ := tree.setAttribute_cases p name value <;> rw [same]
    · exact .refl tree
    · exact .modify tree p _
  | addChild p candidate index =>
    show tree.SameFrame (tree.addChild p candidate index).1
    obtain ⟨cause, -, same⟩ | ⟨child, place, -, same⟩ := tree.addChild_cases p candidate index <;>
      rw [same]
    · exact .refl tree
    · exact .insertChild tree p child place
  | removeChild p candidate =>
    show tree.SameFrame (tree.removeChild p candidate).1
    obtain ⟨refusal, -, same⟩ | ⟨child, place, checked, same⟩ := tree.removeChild_cases p candidate <;>
      rw [same]
    · exact .refl tree
    · obtain ⟨-, spot, -⟩ := Tree.checkRemoveChild_eq_ok.1 checked
      exact .eraseChild sound
        (Tree.owns_child (List.mem_of_getElem? (Tree.getElem?_of_position? spot)))
  | replaceChild p oldCandidate candidate =>
    show tree.SameFrame (tree.replaceChild p oldCandidate candidate).1
    obtain ⟨refusal, -, same⟩ | ⟨old, new, place, checked, same⟩ :=
      tree.replaceChild_cases p oldCandidate candidate <;> rw [same]
    · exact .refl tree
    · obtain ⟨-, spot, -⟩ := Tree.checkReplaceChild_eq_ok.1 checked
      exact .exchangeChild sound
        (Tree.owns_child (List.mem_of_getElem? (Tree.getElem?_of_position? spot)))
  | setCondition p candidate => exact .setCondition sound p candidate
  | setConditionText p text =>
    show tree.SameFrame (tree.setConditionText p text).1
    obtain ⟨e, -, same⟩ | ⟨node, failure, -, -, same⟩ | ⟨node, condition, -, -, same⟩ :=
      tree.setConditionText_cases p text <;> rw [same]
    · exact .refl tree
    · exact .build tree node.toRaw
    · exact (Tree.SameFrame.build tree node.toRaw).trans
        (.setCondition (sound.build node.toRaw) p (.own condition))

/-! ### Ready trees -/

/-- A tree to be worked on: its tables agree with its owners, its nodes have what a build asks for,
and the checks of the grammar are on. -/
structure Tree.Ready (tree : Tree) : Prop where
  sound : tree.Sound
  fitting : tree.Fitting
  calm : tree.replaying = false

/-- Edits that work keep trees fitting. -/
theorem Tree.Fitting.apply {tree : Tree} {edit : Edit} {change : Option Change}
    (fitting : tree.Fitting) (sound : tree.Sound) (calm : tree.replaying = false)
    (allowed : edit.Allowed tree) (worked : (edit.apply tree).2 = .ok change) :
    (edit.apply tree).1.Fitting := by
  have stored := sound.contains_receiver allowed
  have made := made_of_contains stored
  have slot := allowed.slot
  cases edit with
  | setAttribute p name value => exact fitting.setAttribute calm sound stored name value
  | addChild p candidate index => exact fitting.addChild calm made candidate index
  | removeChild p candidate => exact fitting.removeChild calm made candidate
  | replaceChild p oldCandidate candidate =>
    exact fitting.replaceChild calm made oldCandidate candidate
  | setCondition p candidate => exact fitting.setCondition (slot rfl) candidate
  | setConditionText p text => exact fitting.setConditionText sound (slot rfl) worked

/-- Edits that work keep trees ready. -/
theorem Tree.Ready.apply {tree : Tree} {edit : Edit} {change : Option Change} (ready : tree.Ready)
    (allowed : edit.Allowed tree) (worked : (edit.apply tree).2 = .ok change) :
    (edit.apply tree).1.Ready :=
  ⟨ready.sound.apply allowed, ready.fitting.apply ready.sound ready.calm allowed worked,
    (edit.frame ready.sound).replaying.trans ready.calm⟩

theorem Tree.Ready.build {tree : Tree} {raw : Json} {id : NodeId} (ready : tree.Ready)
    (made : (tree.build raw).2 = .ok id) : (tree.build raw).1.Ready :=
  ⟨ready.sound.build raw, ready.fitting.build ready.sound made,
    (Tree.SameFrame.build tree raw).replaying.trans ready.calm⟩

end Verbatim
