import Verbatim.Proofs.Owners
import Verbatim.Proofs.Tree.Regions
import Verbatim.Tree.Workspace

/-!
# Observers are told once, and what they are told is true

An edit that works tells every observer of the tree about one change, the one that it gives back. By
then the tree is as it will be, so an observer that looks finds what the change says: the path leads
to the node, and the tree differs from what it was in what the change names and in nothing else.
Edits that fail or change nothing, silent edits, builds, and walks along a history tell nobody.

Edits can tell of a tree that is no longer coherent. They do where a node was taken out of a subtree
that left the tree, and the subtree comes back.

## Main definitions

* `Tree.Describes`: a change is a true description of what became of a tree
* `Workspace.Told`: all observers were told, and found the tree as it is
* `Workspace.Unheard`, `Workspace.UnheardWalk`: nobody was told anything

## Main results

* `Edit.describes_of_worked`: the change of an edit is a true description
* `Workspace.told_of_edit`: **observers are told once, and what they are told is true**
* `Workspace.told_of_divided`: what is told where a subtree comes back without one of its nodes
-/

namespace Verbatim

open Relation

/-! ### Descriptions -/

namespace Tree

variable {tree later base : Tree} {change : Change} {id root p : NodeId} {path : Path}

/-- A change is a true description of what became of a tree. Its path leads to its node, and its node
differs in what the change names, from the old value to the new one, while all other nodes hold what
they did. An attribute that was never set counts as nothing, and an expression that was read from a
text was planted first. -/
structure Describes (change : Change) (tree later : Tree) : Prop where
  resolved : later.resolve change.path = .ok change.node
  differs : ∃ base, (tree.Filled base ∨ tree.Extended base) ∧ base.Leads later change

section Paths

variable (tree : Tree) (p : NodeId)

/-- Changes are described with the paths that their nodes have afterwards. -/
theorem path_of_setAttribute {name : String} {value : Json}
    (worked : (tree.setAttribute p name value).2 = .ok change) :
    (tree.setAttribute p name value).1.path change.node = .ok change.path := by
  obtain ⟨cause, -, same⟩ | ⟨-, same⟩ := setAttribute_cases tree p name value <;>
    rw [same] at worked ⊢
  · contradiction
  · obtain ⟨path, found, rfl⟩ := map_eq_ok.1 worked
    exact found

theorem path_of_addChild {candidate : Candidate} {index : Option Int}
    (worked : (tree.addChild p candidate index).2 = .ok change) :
    (tree.addChild p candidate index).1.path change.node = .ok change.path := by
  obtain ⟨cause, -, same⟩ | ⟨child, place, -, same⟩ := addChild_cases tree p candidate index <;>
    rw [same] at worked ⊢
  · contradiction
  · obtain ⟨path, found, rfl⟩ := map_eq_ok.1 worked
    exact found

theorem path_of_removeChild {candidate : Candidate}
    (worked : (tree.removeChild p candidate).2 = .ok change) :
    (tree.removeChild p candidate).1.path change.node = .ok change.path := by
  obtain ⟨cause, -, same⟩ | ⟨child, place, -, same⟩ := removeChild_cases tree p candidate <;>
    rw [same] at worked ⊢
  · contradiction
  · obtain ⟨path, found, rfl⟩ := map_eq_ok.1 worked
    exact found

theorem path_of_replaceChild {oldCandidate candidate : Candidate}
    (worked : (tree.replaceChild p oldCandidate candidate).2 = .ok change) :
    (tree.replaceChild p oldCandidate candidate).1.path change.node = .ok change.path := by
  obtain ⟨cause, -, same⟩ | ⟨old, new, place, -, same⟩ :=
    replaceChild_cases tree p oldCandidate candidate <;> rw [same] at worked ⊢
  · contradiction
  · obtain ⟨path, found, rfl⟩ := map_eq_ok.1 worked
    exact found

theorem path_of_setCondition {candidate : Candidate}
    (worked : (tree.setCondition p candidate).2 = .ok (some change)) :
    (tree.setCondition p candidate).1.path change.node = .ok change.path := by
  obtain same | ⟨cause, -, same⟩ | ⟨new, -, same⟩ := setCondition_cases tree p candidate <;>
    rw [same] at worked ⊢
  · exact nomatch Except.ok.inj worked
  · contradiction
  · obtain ⟨_, made, same⟩ := map_eq_ok.1 worked
    obtain rfl := Option.some.inj same
    obtain ⟨path, found, rfl⟩ := map_eq_ok.1 made
    exact found

theorem path_of_setConditionText {text : String}
    (worked : (tree.setConditionText p text).2 = .ok (some change)) :
    (tree.setConditionText p text).1.path change.node = .ok change.path := by
  obtain ⟨e, -, same⟩ | ⟨node, failure, -, -, same⟩ | ⟨node, condition, -, -, same⟩ :=
    setConditionText_cases tree p text <;> rw [same] at worked ⊢
  · contradiction
  · contradiction
  · exact path_of_setCondition _ p (mapError_eq_ok.1 worked)

end Paths

theorem Led.leads (led : tree.Led (some change) later) : tree.Leads later change := by
  cases led
  assumption

/-- What a change is told from is sound, and has the same nodes below one another. -/
theorem Sound.of_base (sound : tree.Sound) (grown : tree.Filled base ∨ tree.Extended base) :
    base.Sound ∧ ∀ p x, tree.Below p x → base.Below p x := by
  obtain (rfl | ⟨p, name, -, -, -, rfl⟩) | (rfl | ⟨node, -, rfl⟩) := grown
  · exact ⟨sound, fun _ _ => id⟩
  · refine ⟨sound.storeAttribute name .null, fun _ _ below => ?_⟩
    rwa [Below, owns_storeAttribute]
  · exact ⟨sound, fun _ _ => id⟩
  · exact ⟨sound.plant node, fun _ _ below => below_plant below node⟩

end Tree

namespace Edit

variable {tree : Tree} {edit : Edit} {change : Change}

/-- The change of an edit is described with the path that its node has afterwards. -/
theorem path_of_worked (worked : (edit.apply tree).2 = .ok (some change)) :
    (edit.apply tree).1.path change.node = .ok change.path := by
  have told {edited : Edited Refusal}
      (right : ∀ change, edited.2 = .ok change → edited.1.path change.node = .ok change.path)
      (worked : (edited.2.map some).mapError Tree.ConditionTextError.refused = .ok (some change)) :
      edited.1.path change.node = .ok change.path := by
    obtain ⟨_, made, same⟩ := map_eq_ok.1 (mapError_eq_ok.1 worked)
    exact right change (Option.some.inj same ▸ made)
  cases edit with
  | setAttribute p name value => exact told (fun _ => Tree.path_of_setAttribute tree p) worked
  | addChild p child index => exact told (fun _ => Tree.path_of_addChild tree p) worked
  | removeChild p child => exact told (fun _ => Tree.path_of_removeChild tree p) worked
  | replaceChild p old new => exact told (fun _ => Tree.path_of_replaceChild tree p) worked
  | setCondition p condition => exact tree.path_of_setCondition p (mapError_eq_ok.1 worked)
  | setConditionText p text => exact tree.path_of_setConditionText p worked

/-- The change of an edit leads from the tree before, from one with an attribute spelled out, or from
one with a new expression, to the tree after. -/
theorem leads_of_worked (sound : tree.Sound) (calm : tree.replaying = false)
    (allowed : edit.Allowed tree) (worked : (edit.apply tree).2 = .ok (some change)) :
    ∃ base, (tree.Filled base ∨ tree.Extended base) ∧ base.Leads (edit.apply tree).1 change ∧
      change.node = edit.receiver := by
  have stored := sound.contains_receiver allowed
  cases plain : edit.readsText with
  | false =>
    obtain ⟨none, -⟩ | ⟨_, base, same, filled, leads, here⟩ :=
      led_filled sound calm stored allowed.slot plain worked
    · contradiction
    · obtain rfl := Option.some.inj same
      exact ⟨base, .inl filled, leads, here⟩
  | true =>
    cases edit with
    | setConditionText p text =>
      have worked : (tree.setConditionText p text).2 = .ok (some change) := worked
      show ∃ base : Tree, _ ∧ base.Leads (tree.setConditionText p text).1 change ∧ _
      obtain ⟨e, -, same⟩ | ⟨node, failure, -, -, same⟩ | ⟨node, condition, -, built, same⟩ :=
        tree.setConditionText_cases p text <;> rw [same] at worked ⊢
      · contradiction
      · contradiction
      · obtain ⟨led, here⟩ := Tree.led_setCondition (sound.build node.toRaw)
          (Tree.contains_build node.toRaw stored) (allowed.slot rfl) (mapError_eq_ok.1 worked)
        exact ⟨_, .inr (Tree.extended_build built), led.leads, here change rfl⟩
    | setAttribute | addChild | removeChild | replaceChild | setCondition =>
      exact absurd plain Bool.noConfusion

/-- **The change of an edit is a true description** of what became of the tree, which is coherent
again. -/
theorem describes_of_worked (sound : tree.Sound) (calm : tree.replaying = false)
    (allowed : edit.Allowed tree) (worked : (edit.apply tree).2 = .ok (some change)) :
    change.node = edit.receiver ∧ (edit.apply tree).1.Coherent ∧
      Tree.Describes change tree (edit.apply tree).1 := by
  have later := sound.apply allowed
  obtain ⟨base, grown, leads, here⟩ := leads_of_worked sound calm allowed worked
  obtain ⟨root, isRoot, inside⟩ := allowed.inside
  obtain ⟨soundBase, below⟩ := sound.of_base grown
  have inside := leads.below soundBase.toForest (here.symm ▸ below _ _ inside)
  refine ⟨here, later.coherent, ?_, base, grown, leads⟩
  exact later.coherent.resolve_path ((edit.frame sound).root.trans isRoot) inside
    (path_of_worked worked)

end Edit

/-! ### Deliveries -/

namespace Workspace

variable {workspace later : Workspace} {number log : Nat} {tree other : Tree} {edit : Edit}
  {change : Change} {observers : List Observer}

/-- Observers were told of one change, each of them once and in order, and whoever was told found the
tree as it is. -/
structure Told (workspace later : Workspace) (number : Nat) (tree : Tree)
    (observers : List Observer) (change : Change) : Prop where
  told : later = (observers.map (·, change)).foldl tell workspace
  found : ∀ first rest, observers = first ++ rest →
    ((first.map (·, change)).foldl tell workspace).tree? number = some tree

/-- Nobody was told anything: the recorder heard nothing, and no history recorded anything. -/
structure Unheard (workspace later : Workspace) : Prop where
  heard : later.heard = workspace.heard
  watches : later.watches = workspace.watches

/-- Nobody was told anything while a history was walked along, and that history did not record
anything either: the next change in the direction of the walk left it. -/
structure UnheardWalk (workspace later : Workspace) (log : Nat) (ahead : History → List Change) : Prop where
  heard : later.heard = workspace.heard
  watches : ∀ other, other ≠ log → later.watches[other]? = workspace.watches[other]?
  history : ∀ history, workspace.history? log = some history →
    ∃ after, later.history? log = some after ∧ ahead after = (ahead history).tail

/-- Telling observers leaves the trees. -/
theorem trees_foldl_tell (observers : List Observer) (change : Change) :
    ((observers.map (·, change)).foldl tell workspace).trees = workspace.trees := by
  induction observers generalizing workspace with
  | nil => rfl
  | cons observer rest ih =>
    rw [List.map_cons, List.foldl_cons, ih]
    cases observer <;> rfl

theorem tree?_setTree (found : workspace.tree? number = some tree) :
    (workspace.setTree number other).tree? number = some other :=
  List.getElem?_set_self (List.getElem?_eq_some_iff.1 found).1

theorem told_publish (found : workspace.tree? number = some tree)
    (same : tree.observers = observers) :
    workspace.Told (workspace.publish tree change) number tree observers change where
  told := by rw [publish, Tree.deliveries, same]
  found first rest _ := by
    rw [tree?, trees_foldl_tell]
    exact found

theorem unheard_setTree (workspace : Workspace) (number : Nat) (tree : Tree) :
    workspace.Unheard (workspace.setTree number tree) :=
  ⟨rfl, rfl⟩

theorem unheardWalk_setHistory {base : Workspace} {ahead : History → List Change}
    {history after : History} (unheard : workspace.Unheard base)
    (found : workspace.history? log = some history) (moved : ahead after = (ahead history).tail) :
    workspace.UnheardWalk (base.setHistory log after) log ahead where
  heard := unheard.heard
  watches other away := by
    simp only [setHistory, List.getElem?_modify, if_neg away.symm, unheard.watches, id_map']
  history before known := by
    obtain rfl := Option.some.inj (found.symm.trans known)
    obtain ⟨watch, here, -⟩ := Option.map_eq_some_iff.1 found
    refine ⟨after, ?_, moved⟩
    simp only [history?, setHistory, List.getElem?_modify, if_true, unheard.watches, here]
    rfl

/-- Walking along a history tells nobody. -/
theorem unheardWalk_walk {ahead : History → List Change}
    {step : History → Tree → History × Tree × Except Refusal (Option Change)}
    {stepDetached : History → History × Except Refusal (Option Change)}
    (moved : ∀ history tree, ahead (step history tree).1 = (ahead history).tail)
    (movedDetached : ∀ history, ahead (stepDetached history).1 = (ahead history).tail) :
    workspace.UnheardWalk (workspace.walk log step stepDetached).1 log ahead := by
  unfold walk
  cases here : workspace.watches[log]? with
  | none => exact ⟨rfl, fun _ _ => rfl, fun _ known => by simp [history?, here] at known⟩
  | some watch =>
    have found : workspace.history? log = some watch.history := by rw [history?, here, Option.map_some]
    obtain ⟨history, watched⟩ := watch
    dsimp only
    split
    · exact unheardWalk_setHistory (unheard_setTree ..) found (moved history _)
    · exact unheardWalk_setHistory ⟨rfl, rfl⟩ found (movedDetached history)

end Workspace

namespace History

/-- Whether it works or not, undoing takes the newest change from those that can be taken back. -/
theorem undoable_undo (history : History) (tree : Tree) :
    (history.undo tree).1.undoable = history.undoable.tail := by
  obtain ⟨limit, undoable, redoable⟩ := history
  cases undoable with
  | nil => rfl
  | cons change rest =>
    simp only [undo]
    split <;> rfl

/-- Whether it works or not, redoing takes the newest change from those that can be made again. -/
theorem redoable_redo (history : History) (tree : Tree) :
    (history.redo tree).1.redoable = history.redoable.tail := by
  obtain ⟨limit, undoable, redoable⟩ := history
  cases redoable with
  | nil => rfl
  | cons change rest =>
    simp only [redo]
    split <;> rfl

theorem undoable_undoDetached (history : History) :
    history.undoDetached.1.undoable = history.undoable.tail := by
  obtain ⟨limit, undoable, redoable⟩ := history
  cases undoable <;> rfl

theorem redoable_redoDetached (history : History) :
    history.redoDetached.1.redoable = history.redoable.tail := by
  obtain ⟨limit, undoable, redoable⟩ := history
  cases redoable <;> rfl

end History

namespace Workspace

variable {workspace : Workspace} {number : Nat} {tree : Tree} {edit : Edit}

/-- **Observers are told once, and what they are told is true.** -/
theorem told_of_edit (sound : tree.Sound) (calm : tree.replaying = false)
    (found : workspace.tree? number = some tree) (allowed : edit.Allowed tree) :
    (∀ change, (edit.apply tree).2 = .ok (some change) →
      (workspace.edit number tree false edit.apply).2 = .ok (some change) ∧
        change.node = edit.receiver ∧ (edit.apply tree).1.Coherent ∧
        Tree.Describes change tree (edit.apply tree).1 ∧
        (workspace.setTree number (edit.apply tree).1).Told
          (workspace.edit number tree false edit.apply).1 number (edit.apply tree).1
          tree.observers change) ∧
      ((∀ change, (edit.apply tree).2 ≠ .ok (some change)) →
        workspace.Unheard (workspace.edit number tree false edit.apply).1) ∧
      workspace.Unheard (workspace.edit number tree true edit.apply).1 ∧
      (∀ raw, workspace.Unheard (workspace.setTree number (tree.build raw).1)) ∧
      (∀ log, workspace.UnheardWalk (workspace.undo log).1 log History.undoable) ∧
      ∀ log, workspace.UnheardWalk (workspace.redo log).1 log History.redoable := by
  refine ⟨fun change worked => ?_, fun quiet => ?_, ?_, fun raw => unheard_setTree .., fun log =>
    unheardWalk_walk History.undoable_undo History.undoable_undoDetached, fun log =>
    unheardWalk_walk History.redoable_redo History.redoable_redoDetached⟩
  · obtain ⟨here, coherent, describes⟩ := edit.describes_of_worked sound calm allowed worked
    have published : workspace.edit number tree false edit.apply =
        ((workspace.setTree number (edit.apply tree).1).publish (edit.apply tree).1 change,
          .ok (some change)) := by
      simp only [Workspace.edit, worked]
      rfl
    rw [published]
    exact ⟨rfl, here, coherent, describes,
      told_publish (tree?_setTree found) (edit.frame sound).observers⟩
  · have same : (workspace.edit number tree false edit.apply).1 =
        workspace.setTree number (edit.apply tree).1 := by
      unfold Workspace.edit
      rcases applied : edit.apply tree with ⟨later, error | _ | change⟩
      · rfl
      · rfl
      · exact absurd (congrArg Prod.snd applied) (quiet change)
    rw [same]
    exact unheard_setTree ..
  · have same : (workspace.edit number tree true edit.apply).1 =
        workspace.setTree number (edit.apply tree).1 := by
      unfold Workspace.edit
      rcases edit.apply tree with ⟨later, error | _ | change⟩ <;> rfl
    rw [same]
    exact unheard_setTree ..

/-- A recorder and a history watch a loop that gets a new condition. -/
theorem told_of_edit_loop : ∃ (tree : Tree) (workspace : Workspace) (edit : Edit) (change : Change),
    tree.Sound ∧ tree.replaying = false ∧ workspace.tree? 0 = some tree ∧ edit.Allowed tree ∧
      (edit.apply tree).2 = .ok (some change) ∧ tree.observers = [.recorder, .log 0] ∧
      (workspace.edit 0 tree false edit.apply).1.heard = [change] ∧
      (workspace.edit 0 tree false edit.apply).1.history? 0 = some { limit := 0, undoable := [change] } ∧
      Tree.Describes change tree (edit.apply tree).1 := by
  let node : Node := .mk .compilationUnit [] none
    [.mk .whileLoop [] (some (.mk .reference [("variable_name", .text "x")] none [] [])) [] []] []
  let unit : NodeId := ⟨.compilationUnit, 1⟩
  let loop : NodeId := ⟨.whileLoop, 2⟩
  let edit : Edit := .setConditionText loop "y"
  obtain ⟨first, built⟩ : ∃ tree, tree = (Tree.empty "t" {}).perform (.build node.toJson) := ⟨_, rfl⟩
  obtain ⟨second, rooted⟩ : ∃ tree, tree = first.perform (.setRoot unit) := ⟨_, rfl⟩
  obtain ⟨tree, watched⟩ : ∃ tree, tree = { second with observers := [.recorder, .log 0] } :=
    ⟨_, rfl⟩
  let workspace : Workspace :=
    { trees := [tree], watches := [{ history := { limit := 0 }, watched := some 0 }] }
  have inside : first.contains unit := by
    rw [built]
    cbv
  have reachable : first.Reachable := built ▸ .call (.build node.toJson) (.empty "t" {}) trivial
  have reachable : second.Reachable := rooted ▸ reachable.call (.setRoot unit) inside
  have sound : tree.Sound := watched ▸ reachable.sound.of_cells rfl rfl
  have facts : tree.replaying = false ∧ tree.root = some unit ∧
      (tree.directNodes unit).contains loop ∧ tree.observers = [.recorder, .log 0] := by
    rw [watched, rooted, built]
    exact ⟨by cbv, by cbv, by cbv, rfl⟩
  obtain ⟨calm, isRoot, owns, observers⟩ := facts
  have allowed : edit.Allowed tree :=
    ⟨⟨unit, isRoot, .single (List.contains_iff_mem.1 owns)⟩, trivial, fun _ => rfl⟩
  obtain ⟨change, worked⟩ : ∃ change, (edit.apply tree).2 = .ok (some change) := by
    rw [watched, rooted, built]
    exact ⟨_, by cbv⟩
  obtain ⟨-, -, -, describes, told⟩ :=
    (@told_of_edit workspace 0 tree edit sound calm rfl allowed).1 change worked
  refine ⟨tree, workspace, edit, change, sound, calm, rfl, allowed, worked, observers, ?_, ?_,
    describes⟩ <;> rw [told.told, observers] <;> rfl

/-- An inner loop is taken out of a loop that left the tree, and then the outer one comes back. The
edit works and is told, but the tree is not coherent any more: the unit has the inner loop as a child,
which is linked to the outer one. -/
theorem told_of_divided :
    let node : Node := .mk .compilationUnit [] none [.mk .whileLoop [] none
      [.mk .whileLoop [] none [] []] []] []
    let unit : NodeId := ⟨.compilationUnit, 1⟩
    let outer : NodeId := ⟨.whileLoop, 2⟩
    let inner : NodeId := ⟨.whileLoop, 3⟩
    let tree : Tree := [.build node.toJson, .setRoot unit, .removeChild unit (.own outer),
      .addChild unit (.own inner) none].foldl Tree.perform (Tree.empty "t" {})
    let edit : Edit := .addChild unit (.own outer) none
    tree.Possible ∧ tree.Coherent ∧ tree.root = some edit.receiver ∧
      (∃ change, (edit.apply tree).2 = .ok (some change)) ∧ ¬ (edit.apply tree).1.Coherent := by
  intro node unit outer inner tree edit
  obtain ⟨first, built⟩ : ∃ tree, tree = (Tree.empty "t" {}).perform (.build node.toJson) := ⟨_, rfl⟩
  obtain ⟨second, rooted⟩ : ∃ tree, tree = first.perform (.setRoot unit) := ⟨_, rfl⟩
  obtain ⟨third, removed⟩ : ∃ tree, tree = second.perform (.removeChild unit (.own outer)) := ⟨_, rfl⟩
  have whole : tree = third.perform (.addChild unit (.own inner) none) := by
    rw [removed, rooted, built]
    rfl
  have possible : first.Possible := built ▸ .call (.build node.toJson) (.empty _ _) trivial
  have made : (first.cell? unit).isSome := by
    rw [built]
    cbv
  have possible : second.Possible := rooted ▸ possible.call (.setRoot unit)
    (Option.isSome_iff_exists.1 made)
  have made : (second.cell? unit).isSome := by
    rw [rooted, built]
    cbv
  have possible : third.Possible := removed ▸ possible.call (.removeChild unit (.own outer))
    (Option.isSome_iff_exists.1 made)
  have made : (third.cell? unit).isSome ∧ (third.cell? inner).isSome := by
    rw [removed, rooted, built]
    cbv
  have possible : tree.Possible := whole ▸ possible.call (.addChild unit (.own inner) none)
    ⟨Option.isSome_iff_exists.1 made.1, Option.isSome_iff_exists.1 made.2⟩
  -- The outer loop still has the inner one, but it is not in the store.
  have table : tree.names = [unit, outer, inner] ∧ tree.root = some unit ∧
      (tree.contains unit = true ∧ tree.link unit = .top ∧ tree.directNodes unit = [inner]) ∧
      (tree.contains outer = false ∧ tree.link outer = .missing) ∧
      (tree.contains inner = true ∧ tree.link inner = .under unit ∧ tree.directNodes inner = []) := by
    rw [whole, removed, rooted, built]
    exact ⟨by cbv, by cbv, ⟨by cbv, by cbv, by cbv⟩, ⟨by cbv, by cbv⟩, by cbv, by cbv, by cbv⟩
  obtain ⟨names, isRoot, ⟨storedU, linkU, ownsU⟩, ⟨goneO, linkO⟩, storedI, linkI, ownsI⟩ := table
  have each (id : NodeId) : id = unit ∨ id = inner ∨
      tree.contains id = false ∧ tree.link id = .missing := by
    by_cases made : tree.Made id
    · have member := made.mem_names
      rw [names] at member
      simp only [List.mem_cons, List.not_mem_nil, or_false] at member
      obtain rfl | rfl | rfl := member
      · exact .inl rfl
      · exact .inr (.inr ⟨goneO, linkO⟩)
      · exact .inr (.inl rfl)
    · have nothing : tree.cell? id = none :=
        Option.eq_none_iff_forall_ne_some.2 fun cell found => made ⟨cell, found⟩
      exact .inr (.inr ⟨by rw [Tree.contains, nothing], by rw [Tree.link, nothing]⟩)
  have stored_cases {id : NodeId} (stored : tree.contains id) : id = unit ∨ id = inner :=
    (each id).imp_right fun other => other.resolve_right fun gone => by simp [gone.1] at stored
  have coherent : tree.Coherent := {
    keys := fun id => by
      obtain rfl | rfl | ⟨gone, missing⟩ := each id
      · simp [storedU, linkU]
      · simp [storedI, linkI]
      · simp [gone, missing]
    distinct := fun id stored => by
      obtain rfl | rfl := stored_cases stored
      · simp [ownsU]
      · simp [ownsI]
    owned := fun id stored x member => by
      obtain rfl | rfl := stored_cases stored
      · obtain rfl := List.mem_singleton.1 (ownsU ▸ member)
        exact ⟨storedI, linkI⟩
      · exact absurd (ownsI ▸ member) List.not_mem_nil
    linked := fun id p stored linked => by
      obtain rfl | rfl := stored_cases stored
      · exact Link.noConfusion (linkU.symm.trans linked)
      · obtain rfl := Link.under.inj (linkI.symm.trans linked)
        exact ⟨storedU, ownsU ▸ List.mem_singleton_self inner⟩
    ends := fun id stored => by
      obtain rfl | rfl := stored_cases stored
      · exact ⟨unit, .refl, storedU, linkU⟩
      · exact ⟨unit, .single linkI, storedU, linkU⟩
    root := fun id same => by
      obtain rfl := Option.some.inj (isRoot.symm.trans same)
      exact ⟨storedU, linkU⟩ }
  have later : (edit.apply tree).1.contains unit = true ∧
      ((edit.apply tree).1.directNodes unit).contains inner = true ∧
      (edit.apply tree).1.link inner = .under outer := by
    rw [whole, removed, rooted, built]
    exact ⟨by cbv, by cbv, by cbv⟩
  refine ⟨possible, coherent, isRoot, ?_, fun again => ?_⟩
  · rw [whole, removed, rooted, built]
    exact ⟨_, by cbv⟩
  · have linked := (again.owned unit later.1 inner (List.contains_iff_mem.1 later.2.1)).2
    exact absurd (Link.under.inj (later.2.2.symm.trans linked)) (by decide)

end Workspace

end Verbatim
