import Verbatim.Proofs.Tree.Edits

/-!
# Trees stay coherent

Whatever is done to a tree that began empty, its store and its links agree with what its nodes own.
Calls may be refused on the way, builds may fail, subtrees may leave and come back: as long as
receivers are in the store, and nodes that are put somewhere are in the store or owned by no node,
every state is coherent.

## Main definitions

* `Call`, `Tree.perform`: one thing that is done to a tree
* `Call.Allowed`: what is asked of receivers and of nodes that are put somewhere
* `Tree.Reachable`: the states of an empty tree after any number of calls
* `Tree.Coherent`: how the store, the links, the owners and the root agree

## Main results

* `Tree.Sound.perform`: every call keeps a tree sound
* `Tree.Sound.coherent`: sound trees are coherent
* `Tree.coherent_of_reachable`: **every reachable state is coherent**
-/

namespace Verbatim

open Relation

/-- One thing that is done to a tree. -/
inductive Call where
  | create (kind : Kind)
  | build (raw : Json)
  | setRoot (node : NodeId)
  | setAttribute (receiver : NodeId) (name : String) (value : Json)
  | addChild (receiver : NodeId) (child : Candidate) (index : Option Int)
  | removeChild (receiver : NodeId) (child : Candidate)
  | replaceChild (receiver : NodeId) (old new : Candidate)
  | setCondition (receiver : NodeId) (condition : Candidate)
  | setConditionText (receiver : NodeId) (text : String)

/-- The tree afterwards, whether the call works or not. -/
def Tree.perform (tree : Tree) : Call → Tree
  | .create kind => (tree.create kind).1
  | .build raw => (tree.build raw).1
  | .setRoot node => (tree.setRoot? node).getD tree
  | .setAttribute receiver name value => (tree.setAttribute receiver name value).1
  | .addChild receiver child index => (tree.addChild receiver child index).1
  | .removeChild receiver child => (tree.removeChild receiver child).1
  | .replaceChild receiver old new => (tree.replaceChild receiver old new).1
  | .setCondition receiver condition => (tree.setCondition receiver condition).1
  | .setConditionText receiver text => (tree.setConditionText receiver text).1

/-- Receivers and roots are in the store, and what is put somewhere may go into the tree. -/
def Call.Allowed (tree : Tree) : Call → Prop
  | .create _ | .build _ => True
  | .setRoot node => tree.contains node
  | .setAttribute receiver .. | .removeChild receiver _ | .setConditionText receiver _ =>
    tree.contains receiver
  | .addChild receiver child _ => tree.contains receiver ∧ child.Usable tree
  | .replaceChild receiver _ new => tree.contains receiver ∧ new.Usable tree
  | .setCondition receiver condition => tree.contains receiver ∧ condition.Usable tree

namespace Tree

variable {tree : Tree} {id x p : NodeId}

/-- What becomes of an empty tree. -/
inductive Reachable : Tree → Prop where
  | empty (label : String) (settings : Settings) : Reachable (empty label settings)
  | call {tree : Tree} (call : Call) : Reachable tree → call.Allowed tree →
      Reachable (tree.perform call)

/-- The store, the links, the owners and the root agree. -/
structure Coherent (tree : Tree) : Prop where
  /-- The nodes in the store are those among the links. -/
  keys : ∀ id, tree.contains id ↔ tree.link id ≠ .missing
  /-- What a node owns is there once. -/
  distinct : ∀ id, tree.contains id → (tree.directNodes id).Nodup
  /-- What a node owns is in the store and linked to it. -/
  owned : ∀ id, tree.contains id → ∀ x ∈ tree.directNodes id,
    tree.contains x ∧ tree.link x = .under id
  /-- What a node is linked to is in the store and owns it. -/
  linked : ∀ id p, tree.contains id → tree.link id = .under p →
    tree.contains p ∧ id ∈ tree.directNodes p
  /-- The way up from a node ends. -/
  ends : ∀ id, tree.contains id → ∃ top, ReflTransGen (fun x p => tree.link x = .under p) id top ∧
    tree.contains top ∧ tree.link top = .top
  /-- The root is in the store and has nothing above it. -/
  root : ∀ id, tree.root = some id → tree.contains id ∧ tree.link id = .top

/-! ### Runs -/

theorem sound_empty (label : String) (settings : Settings) : (empty label settings).Sound := by
  have nothing (id : NodeId) : (empty label settings).cell? id = none := by
    simp [cell?, empty]
  have loose {p x : NodeId} : ¬ (empty label settings).Owns p x := fun owns => by
    obtain ⟨cell, found⟩ := owns.made
    exact absurd (found.symm.trans (nothing p)) (Option.some_ne_none cell)
  have outside {x : NodeId} : ¬ (empty label settings).contains x := fun stored => by
    obtain ⟨cell, found⟩ := made_of_contains stored
    exact absurd (found.symm.trans (nothing x)) (Option.some_ne_none cell)
  refine ⟨⟨fun owns => absurd owns loose, fun p => ?_, fun owns => absurd owns loose,
    fun x cycle => ?_⟩, fun owns => absurd owns loose, fun {x} _ => ?_,
    fun stored => absurd stored outside, fun stored => absurd stored outside,
    fun isRoot => absurd isRoot.symm (Option.some_ne_none _)⟩
  · rw [List.eq_nil_iff_forall_not_mem.2 fun x owns => loose owns]
    exact List.nodup_nil
  · obtain ⟨p, -, owns⟩ := TransGen.tail'_iff.1 cycle
    exact loose owns
  · rw [link, nothing]

/-- Every call keeps a tree sound. -/
theorem Sound.perform (sound : tree.Sound) {call : Call} (allowed : call.Allowed tree) :
    (tree.perform call).Sound := by
  cases call with
  | create kind => exact sound.create kind
  | build raw => exact sound.build raw
  | setRoot node =>
    show ((tree.setRoot? node).getD tree).Sound
    cases passed : tree.setRoot? node with
    | none => exact sound
    | some other => exact sound.setRoot? allowed passed
  | setAttribute receiver name value => exact sound.setAttribute allowed name value
  | addChild receiver child index => exact sound.addChild allowed.1 allowed.2 index
  | removeChild receiver child => exact sound.removeChild allowed child
  | replaceChild receiver old new => exact sound.replaceChild allowed.1 old allowed.2
  | setCondition receiver condition => exact sound.setCondition allowed.1 allowed.2
  | setConditionText receiver text => exact sound.setConditionText allowed text

theorem Reachable.sound (reachable : tree.Reachable) : tree.Sound := by
  induction reachable with
  | empty label settings => exact sound_empty label settings
  | call call _ allowed ih => exact ih.perform allowed

/-- The way up from a node in the store ends at the top. -/
theorem Sound.ends (sound : tree.Sound) (stored : tree.contains id) :
    ∃ top, ReflTransGen (fun x p => tree.link x = .under p) id top ∧
      tree.contains top ∧ tree.link top = .top := by
  obtain ⟨top, isTop, below⟩ := sound.exists_top stored
  refine ⟨top, ?_, isTop.1, sound.free isTop.1 isTop.2⟩
  induction below with
  | refl => exact .refl
  | tail _ owns ih => exact .head (sound.owned stored owns) (ih ((sound.together owns).1 stored))

/-- Sound trees are coherent. -/
theorem Sound.coherent (sound : tree.Sound) : tree.Coherent where
  keys _ := sound.contains_iff
  distinct id _ := sound.distinct id
  owned _ stored _ owns :=
    have inside := (sound.together owns).2 stored
    ⟨inside, sound.owned inside owns⟩
  linked _ _ stored linked :=
    have owns := (sound.owns_of_link linked).2
    ⟨(sound.together owns).1 stored, owns⟩
  ends _ stored := sound.ends stored
  root _ isRoot :=
    have ⟨stored, loose⟩ := sound.root_stored isRoot
    ⟨stored, sound.free stored loose⟩

/-- **Every reachable state is coherent.** -/
theorem coherent_of_reachable (reachable : tree.Reachable) : tree.Coherent :=
  reachable.sound.coherent

/-- A loop is removed and put back, and then gets another condition. -/
theorem coherent_detour : ∃ tree : Tree, tree.Reachable ∧ tree.Coherent ∧
    tree.link ⟨.whileLoop, 2⟩ = .under ⟨.compilationUnit, 1⟩ ∧
      tree.link ⟨.reference, 3⟩ = .missing := by
  let node : Node := .mk .compilationUnit [] none
    [.mk .whileLoop [] (some (.mk .reference [("variable_name", .text "x")] none [] [])) [] []] []
  let removal : Call := .removeChild ⟨.compilationUnit, 1⟩ (.own ⟨.whileLoop, 2⟩)
  let addition : Call := .addChild ⟨.compilationUnit, 1⟩ (.own ⟨.whileLoop, 2⟩) none
  obtain ⟨first, built⟩ : ∃ tree, tree = (empty "t" {}).perform (.build node.toJson) := ⟨_, rfl⟩
  obtain ⟨second, removed⟩ : ∃ tree, tree = first.perform removal := ⟨_, rfl⟩
  obtain ⟨third, added⟩ : ∃ tree, tree = second.perform addition := ⟨_, rfl⟩
  have reachable : first.Reachable := built ▸ .call (.build node.toJson) (.empty _ _) trivial
  have inside : first.contains ⟨.compilationUnit, 1⟩ := by
    rw [built]
    cbv
  have reachable : second.Reachable := removed ▸ reachable.call removal inside
  have inside : second.contains ⟨.compilationUnit, 1⟩ := by
    rw [removed, built]
    cbv
  have made : (second.cell? ⟨.whileLoop, 2⟩).isSome := by
    rw [removed, built]
    cbv
  have loose : second.Loose ⟨.whileLoop, 2⟩ := by
    rw [removed, built]
    exact loose_of_names (by cbv)
  have reachable : third.Reachable := added ▸ reachable.call addition
    ⟨inside, .inr ⟨Option.isSome_iff_exists.1 made, loose⟩⟩
  have inside : third.contains ⟨.whileLoop, 2⟩ := by
    rw [added, removed, built]
    cbv
  have reachable := reachable.call (.setConditionText ⟨.whileLoop, 2⟩ "y") inside
  refine ⟨_, reachable, coherent_of_reachable reachable, ?_, ?_⟩ <;>
    · rw [added, removed, built]
      cbv

end Tree

end Verbatim
