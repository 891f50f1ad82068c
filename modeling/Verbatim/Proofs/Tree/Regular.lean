import Verbatim.Proofs.Refusals
import Verbatim.Proofs.Tree.Lawful
import Verbatim.Proofs.Tree.Replay

/-!
# Regular trees

What nodes have is limited by their kinds in all states of a tree: there is room for their children,
and a slot for their condition. That needs no forest, and it does not matter where the nodes are that
calls name. A subtree that left the tree may still own a node that was taken out of it and is in the
store again, and such trees may be coherent too.

A coherent tree in such a state is regular, and that is all that the text of a tree goes by. Calls on
nodes in the store keep trees in one piece, whether they work or fail, and all their states are
coherent.

## Main definitions

* `Tree.Housed`: there is a place for all that the nodes of a tree have
* `Tree.Regular`: a coherent tree as calls leave it
* `Tree.Neat`: a steady tree that has conditions only where there is a slot
* `Tree.Handled`: the states of an empty tree after any number of calls on its nodes
* `Tree.Assembled`: the states of an empty tree after any number of calls on nodes in the store

## Main results

* `Tree.Handled.housed`: **every call on nodes of a tree leaves a place for all that they have**
* `Tree.Handled.regular`: **every coherent state that calls lead to is regular**
* `Tree.Assembled.neat`: every state that calls on nodes in the store lead to is neat
-/

namespace Verbatim

/-- Only nodes with a slot are asked to take a condition. -/
def Call.Fits : Call → Prop
  | .setCondition receiver _ | .setConditionText receiver _ => receiver.kind.hasCondition
  | _ => True

namespace Node

/-- There is a place for all that a node has. -/
def Housed (strict : Bool) (node : Node) : Prop :=
  node.Lawful strict ∧ (node.condition.isSome → node.kind.hasCondition)

theorem housed_of_fit {strict : Bool} {node : Node} (fit : node.All (Fit strict)) :
    node.All (Housed strict) := by
  refine All.imp (fun node fit => ⟨fit.lawful, fun present => ?_⟩) fit
  by_contra noSlot
  have absent := fit.condition.slot (Bool.eq_false_iff.2 noSlot)
  rw [Option.map_eq_none_iff.1 absent] at present
  contradiction

theorem housed_bare (strict : Bool) (kind : Kind) :
    (Node.mk kind [] none [] []).All (Housed strict) :=
  .mk ⟨(lawful_bare strict kind).here, nofun⟩
    (fun _ member => absurd member (Option.not_mem_none _))
    fun _ member => absurd member List.not_mem_nil

end Node

namespace Tree

variable {tree other : Tree} {id x p : NodeId} {change : Cell → Cell} {edit : Edit}

/-- There is a place for all that the nodes of the tree have, wherever they are. -/
structure Housed (tree : Tree) : Prop where
  lawful : tree.Lawful
  slotted : ∀ {p x}, tree.condition? p = some x → p.kind.hasCondition

/-- A coherent tree as calls leave it. Nodes have only what there is a place for, and the checks of the
grammar are on. Nodes that left the tree may own nodes in the store. -/
structure Regular (tree : Tree) : Prop where
  coherent : tree.Coherent
  room : ∀ {p limit}, p.kind.maxChildren = some limit → (tree.children p).length ≤ limit
  slotted : ∀ {p x}, tree.condition? p = some x → p.kind.hasCondition
  calm : tree.replaying = false

/-- A steady tree that has conditions only where there is a slot. -/
structure Neat (tree : Tree) : Prop extends Steady tree where
  slotted : ∀ {p x}, tree.condition? p = some x → p.kind.hasCondition

/-- What becomes of an empty tree. The nodes that calls name may have left the tree, or may be owned
by nodes that did. -/
inductive Handled : Tree → Prop where
  | empty (label : String) (settings : Settings) : Handled (empty label settings)
  | call {tree : Tree} (call : Call) : Handled tree → call.Known tree → call.Fits →
      Handled (tree.perform call)

/-- What becomes of an empty tree where receivers are in the store, and what is put somewhere is there
as well or owned by no node. -/
inductive Assembled : Tree → Prop where
  | empty (label : String) (settings : Settings) : Assembled (empty label settings)
  | call {tree : Tree} (call : Call) : Assembled tree → call.Allowed tree → call.Fits →
      Assembled (tree.perform call)

/-! ### Trees that grow -/

theorem Lawful.skip (lawful : tree.Lawful) (count : Nat) : (tree.skip count).Lawful := by
  intro id cell found
  rcases Nat.lt_or_ge tree.cells.size id.number with new | old
  · rw [vacant_of_skip new found]
    exact (Node.lawful_bare _ .compilationUnit).here
  · rw [(grown_skip tree count).older old] at found
    exact lawful id cell found

theorem housed_empty (label : String) (settings : Settings) : (empty label settings).Housed where
  lawful := lawful_empty label settings
  slotted {p x} slot := by
    obtain ⟨cell, found, -⟩ := Option.bind_eq_some_iff.1 slot
    obtain ⟨-, here, -⟩ := cell?_eq_some.1 found
    exact absurd here (by simp [Tree.empty])

namespace Housed

variable (housed : tree.Housed)
include housed

/-- No node has more children than it takes. -/
theorem room {limit : Nat} (most : p.kind.maxChildren = some limit) :
    (tree.children p).length ≤ limit := by
  by_cases made : tree.Made p
  · have room := (housed.lawful.allows made).room limit most
    rwa [List.length_map] at room
  · cases nothing : tree.children p with
    | nil => exact Nat.zero_le _
    | cons child rest => exact absurd (owns_child (nothing ▸ List.mem_cons_self)).made made

theorem skip (count : Nat) : (tree.skip count).Housed where
  lawful := housed.lawful.skip count
  slotted {p x} slot := by
    rcases Nat.lt_or_ge tree.cells.size p.number with new | old
    · obtain ⟨cell, found, here⟩ := Option.bind_eq_some_iff.1 slot
      rw [vacant_of_skip new found] at here
      contradiction
    · rw [condition?_congr ((grown_skip tree count).contents old)] at slot
      exact housed.slotted slot

theorem plant {node : Node} (all : node.All (Node.Housed tree.settings.strictStructure)) :
    (tree.plant node).1.Housed where
  lawful := housed.lawful.plant (Node.All.imp (fun _ housed => housed.1) all)
  slotted {p x} slot := by
    have grown := grown_plant tree node
    rcases Nat.lt_or_ge tree.cells.size p.number with new | old
    · rw [← view_plant tree node] at all
      have here := ((founded_plant tree node).of_all_view all
        (below_planted (owns_condition (Option.mem_def.2 slot)).made new)).2
      rw [kind_view, (grown.founded new).view_eq, Node.condition, slot] at here
      exact here rfl
    · rw [condition?_congr (grown.contents old)] at slot
      exact housed.slotted slot

/-- A build plants what is fit and uses up numbers, whether it works or not. -/
theorem build (raw : Json) : (tree.build raw).1.Housed := by
  unfold Tree.build
  split
  · next built => exact housed.plant (Node.housed_of_fit (Node.fit_of_ofRaw built))
  · next failure failed =>
    have left := Node.leaves_of_ofRaw raw failed
    unfold absorb
    split
    · next stranded =>
      exact (housed.skip failure.wasted).plant (Node.housed_of_fit (left _ stranded))
    · exact housed.skip failure.wasted

end Housed

/-! ### Edits -/

section Slots

variable (slotted : ∀ {p x}, tree.condition? p = some x → p.kind.hasCondition)
include slotted

theorem slotted_modify (inner : Cell.Inner change)
    (same : ∀ cell, (change cell).condition = cell.condition)
    (slot : (tree.modify id change).condition? p = some x) : p.kind.hasCondition := by
  refine slotted (p := p) (x := x) ?_
  rw [condition?, cell?_modify inner.kind] at slot
  by_cases here : p = id
  · rw [if_pos here, ← here] at slot
    rw [condition?]
    cases found : tree.cell? p with
    | none => rw [found] at slot; contradiction
    | some cell =>
      rw [found] at slot
      exact (congrArg ConditionSlot.node? (same cell)).symm.trans slot
  · rwa [if_neg here] at slot

theorem slotted_setCondition (fits : p.kind.hasCondition) (candidate : Candidate) {q : NodeId}
    (slot : (tree.setCondition p candidate).1.condition? q = some x) : q.kind.hasCondition := by
  obtain same | ⟨cause, -, same⟩ | ⟨new, -, same⟩ := setCondition_cases tree p candidate <;>
    rw [same] at slot
  · exact slotted slot
  · exact slotted slot
  · by_cases here : q = p
    · exact here ▸ fits
    · have beside : ((tree.exchangeCondition (tree.condition? p) p new).storeCondition p
          (.holds new)).contents? q = tree.contents? q := by
        rw [storeCondition, contents?_modify_eq (Cell.inner_condition (.holds new)).kind, if_neg here]
        exact (Alike.exchangeCondition tree _ p new).matches.contents q
      exact slotted ((condition?_congr beside).symm.trans slot)

theorem slotted_apply (fits : edit.needsSlot → edit.receiver.kind.hasCondition)
    (plain : edit.readsText = false) (slot : (edit.apply tree).1.condition? p = some x) :
    p.kind.hasCondition := by
  have children (q : NodeId) (others : List NodeId) {later : Tree}
      (same : (tree.storeChildren q others).Matches later) (slot : later.condition? p = some x) :
      p.kind.hasCondition :=
    slotted_modify slotted (Cell.inner_children others) (fun _ => rfl) (same.condition? ▸ slot)
  cases edit with
  | setAttribute q name value =>
    obtain ⟨cause, -, same⟩ | ⟨-, same⟩ := setAttribute_cases tree q name value <;>
      simp only [Edit.apply, same] at slot
    · exact slotted slot
    · exact slotted_modify slotted (Cell.inner_attributes _ _) (fun _ => rfl) slot
  | addChild q candidate index =>
    obtain ⟨cause, -, same⟩ | ⟨child, place, -, same⟩ := addChild_cases tree q candidate index <;>
      simp only [Edit.apply, same] at slot
    · exact slotted slot
    · exact children q _ (Alike.adopt _ child q).matches slot
  | removeChild q candidate =>
    obtain ⟨cause, -, same⟩ | ⟨child, place, -, same⟩ := removeChild_cases tree q candidate <;>
      simp only [Edit.apply, same] at slot
    · exact slotted slot
    · exact children q _ (Alike.release _ child).matches slot
  | replaceChild q oldCandidate candidate =>
    obtain ⟨cause, -, same⟩ | ⟨old, new, place, -, same⟩ :=
      replaceChild_cases tree q oldCandidate candidate <;> simp only [Edit.apply, same] at slot
    · exact slotted slot
    · exact children q _ ((Alike.release _ old).trans (Alike.adopt _ new q)).matches slot
  | setCondition q candidate => exact slotted_setCondition slotted (fits rfl) candidate slot
  | setConditionText => exact absurd plain Bool.noConfusion

end Slots

namespace Housed

variable (housed : tree.Housed)
include housed

/-- Edits leave a place for all that nodes have, whether they work or not. -/
theorem apply (edit : Edit) (made : tree.Made edit.receiver)
    (fits : edit.needsSlot → edit.receiver.kind.hasCondition) (plain : edit.readsText = false) :
    (edit.apply tree).1.Housed :=
  ⟨housed.lawful.apply made plain, slotted_apply housed.slotted fits plain⟩

theorem setConditionText (made : tree.Made p) (fits : p.kind.hasCondition) (text : String) :
    (tree.setConditionText p text).1.Housed := by
  obtain ⟨e, -, same⟩ | ⟨node, failure, -, -, same⟩ | ⟨node, condition, -, built, same⟩ :=
    setConditionText_cases tree p text <;> rw [same]
  · exact housed
  · exact housed.build node.toRaw
  · obtain ⟨planted, -, grown, -⟩ := build_eq_ok built
    have made : (tree.build node.toRaw).1.Made p := grown ▸ (grown_plant tree planted).made made
    exact (housed.build node.toRaw).apply (.setCondition p (.own condition)) made (fun _ => fits) rfl

/-- So do all calls on nodes of the tree. -/
theorem perform {call : Call} (known : call.Known tree) (fits : call.Fits) :
    (tree.perform call).Housed := by
  cases call with
  | create kind => exact housed.plant (Node.housed_bare _ kind)
  | build raw => exact housed.build raw
  | setRoot node =>
    show ((tree.setRoot? node).getD tree).Housed
    cases passed : tree.setRoot? node with
    | none => exact housed
    | some other =>
      obtain ⟨-, rfl⟩ := setRoot?_eq_some.1 passed
      exact ⟨housed.lawful, housed.slotted⟩
  | setAttribute p name value => exact housed.apply (.setAttribute p name value) known nofun rfl
  | addChild p child index => exact housed.apply (.addChild p child index) known.1 nofun rfl
  | removeChild p child => exact housed.apply (.removeChild p child) known nofun rfl
  | replaceChild p old new => exact housed.apply (.replaceChild p old new) known.1 nofun rfl
  | setCondition p condition =>
    exact housed.apply (.setCondition p condition) known.1 (fun _ => fits) rfl
  | setConditionText p text => exact housed.setConditionText known fits text

end Housed

/-- **Every call on nodes of a tree leaves a place for all that they have.** -/
theorem Handled.housed (handled : tree.Handled) : tree.Housed := by
  induction handled with
  | empty label settings => exact housed_empty label settings
  | call call _ known fits ih => exact ih.perform known fits

/-! ### The checks stay on -/

theorem replaying_modify : (tree.modify id change).replaying = tree.replaying :=
  (SameFrame.modify tree id change).replaying

theorem replaying_setCondition (tree : Tree) (p : NodeId) (candidate : Candidate) :
    (tree.setCondition p candidate).1.replaying = tree.replaying := by
  obtain same | ⟨cause, -, same⟩ | ⟨new, -, same⟩ := setCondition_cases tree p candidate <;> rw [same]
  exact replaying_modify.trans (Alike.exchangeCondition tree _ p new).replaying

/-- Edits leave the checks of the grammar on, whether they work or not. -/
theorem replaying_apply (tree : Tree) (edit : Edit) :
    (edit.apply tree).1.replaying = tree.replaying := by
  cases edit with
  | setAttribute p name value =>
    obtain ⟨cause, -, same⟩ | ⟨-, same⟩ := setAttribute_cases tree p name value <;>
      simp only [Edit.apply, same]
    exact replaying_modify
  | addChild p candidate index =>
    obtain ⟨cause, -, same⟩ | ⟨child, place, -, same⟩ := addChild_cases tree p candidate index <;>
      simp only [Edit.apply, same]
    exact (SameFrame.insertChild tree p child place).replaying
  | removeChild p candidate =>
    obtain ⟨cause, -, same⟩ | ⟨child, place, -, same⟩ := removeChild_cases tree p candidate <;>
      simp only [Edit.apply, same]
    exact (Alike.release _ child).replaying.trans replaying_modify
  | replaceChild p oldCandidate candidate =>
    obtain ⟨cause, -, same⟩ | ⟨old, new, place, -, same⟩ :=
      replaceChild_cases tree p oldCandidate candidate <;> simp only [Edit.apply, same]
    exact ((Alike.release _ old).trans (Alike.adopt _ new p)).replaying.trans replaying_modify
  | setCondition p candidate => exact replaying_setCondition tree p candidate
  | setConditionText p text =>
    show (tree.setConditionText p text).1.replaying = tree.replaying
    obtain ⟨e, -, same⟩ | ⟨node, failure, -, -, same⟩ | ⟨node, condition, -, -, same⟩ :=
      setConditionText_cases tree p text <;> rw [same]
    · exact (SameFrame.build tree node.toRaw).replaying
    · exact (replaying_setCondition ..).trans (SameFrame.build tree node.toRaw).replaying

theorem replaying_perform (tree : Tree) (call : Call) :
    (tree.perform call).replaying = tree.replaying := by
  cases call with
  | create kind => rfl
  | build raw => exact (SameFrame.build tree raw).replaying
  | setRoot node =>
    show ((tree.setRoot? node).getD tree).replaying = tree.replaying
    cases passed : tree.setRoot? node with
    | none => rfl
    | some other =>
      obtain ⟨-, rfl⟩ := setRoot?_eq_some.1 passed
      rfl
  | setAttribute p name value => exact tree.replaying_apply (.setAttribute p name value)
  | addChild p child index => exact tree.replaying_apply (.addChild p child index)
  | removeChild p child => exact tree.replaying_apply (.removeChild p child)
  | replaceChild p old new => exact tree.replaying_apply (.replaceChild p old new)
  | setCondition p condition => exact tree.replaying_apply (.setCondition p condition)
  | setConditionText p text => exact tree.replaying_apply (.setConditionText p text)

theorem Handled.calm (handled : tree.Handled) : tree.replaying = false := by
  induction handled with
  | empty label settings => rfl
  | @call tree call _ _ _ ih => exact (tree.replaying_perform call).trans ih

/-- **Every coherent state that calls lead to is regular.** -/
theorem Handled.regular (handled : tree.Handled) (coherent : tree.Coherent) : tree.Regular where
  coherent := coherent
  room := handled.housed.room
  slotted := handled.housed.slotted
  calm := handled.calm

/-! ### Calls on nodes in the store -/

namespace Neat

theorem housed (neat : tree.Neat) : tree.Housed :=
  ⟨neat.lawful, neat.slotted⟩

/-- Neat trees are regular. -/
theorem regular (neat : tree.Neat) : tree.Regular where
  coherent := neat.sound.coherent
  room := neat.housed.room
  slotted := neat.slotted
  calm := neat.calm

/-- Every call keeps a tree neat. -/
theorem perform (neat : tree.Neat) {call : Call} (allowed : call.Allowed tree) (fits : call.Fits) :
    (tree.perform call).Neat := by
  have housed := neat.housed.perform allowed.known fits
  exact ⟨⟨neat.sound.perform allowed, housed.lawful, (tree.replaying_perform call).trans neat.calm⟩,
    housed.slotted⟩

end Neat

theorem Assembled.handled (assembled : tree.Assembled) : tree.Handled := by
  induction assembled with
  | empty label settings => exact .empty label settings
  | call call _ allowed fits ih => exact ih.call call allowed.known fits

/-- Every state that calls on nodes in the store lead to is neat. -/
theorem Assembled.neat (assembled : tree.Assembled) : tree.Neat := by
  induction assembled with
  | empty label settings =>
    have housed := housed_empty label settings
    exact ⟨⟨sound_empty label settings, housed.lawful, rfl⟩, housed.slotted⟩
  | call call _ allowed fits ih => exact ih.perform allowed fits

end Tree

end Verbatim
