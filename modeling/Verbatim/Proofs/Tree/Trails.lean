import Verbatim.Proofs.Tree.Replay

/-!
# Trails of changes

What a history can do to a tree from where it is: a list of changes, each of which leads to the tree
that the next one starts from. Every tree on the way is ready, so the whole list can be walked. The
trees are not kept anywhere, and need not be: what the changes lead to is known by its contents, and
each tree on the way stands for all that hold the same.

A node that is built in between is in none of those trees. But all of them grow alike, so the trail
can be taken as one through the grown trees.

## Main definitions

* `Snapshot`, `Tree.snapshot`: what is seen of a tree from outside
* `Tree.Trail`: changes that can be made one after the other, and what is seen after each
* `Tree.Led`: what an edit makes of a tree, as told by its change
* `Tree.Filled`: a tree with one attribute more, where it was never set

## Main results

* `Tree.Trail.plant`, `Tree.Trail.of_matches`: what leaves a trail as it is
* `Tree.Trail.walk`: **one step along a trail, and the way back**
* `Edit.led_filled`, `Edit.led`: the change that an edit tells of leads from the tree before to the
  tree after
-/

namespace Verbatim

/-- What is seen of a node from outside: its raw value and its text. -/
structure Snapshot where
  value : Json
  text : Except RenderError String

namespace Tree

open Relation

/-- A node as it is seen from outside. -/
def snapshot (tree : Tree) (id : NodeId) : Snapshot :=
  { value := (tree.view id).toJson, text := tree.source id }

variable {tree other first last : Tree} {root x p : NodeId} {change : Change} {node : Node}

theorem snapshot_congr (same : other.view root = tree.view root) :
    other.snapshot root = tree.snapshot root := by
  rw [snapshot, snapshot, source, source, same]

/-! ### Trees that grow alike -/

theorem contents?_plant_of_new (size : other.cells.size = tree.cells.size)
    (new : tree.cells.size < x.number) :
    (other.plant node).1.contents? x = (tree.plant node).1.contents? x := by
  have behind (tree : Tree) (new : tree.cells.size < x.number) : (tree.plant node).1.cells[x.number - 1]? =
      (node.cellsFrom (tree.cells.size + 1) .top)[x.number - 1 - tree.cells.size]? := by
    rw [← Array.getElem?_toList, show (tree.plant node).1.cells.toList = tree.cells.toList ++
      node.cellsFrom (tree.cells.size + 1) .top by simp [Tree.plant],
      List.getElem?_append_right (by rw [Array.length_toList]; omega), Array.length_toList]
  rw [contents?, contents?, cell?, cell?, behind tree new, behind other (size ▸ new), size]

theorem Matches.plant (same : tree.Matches other) (node : Node) :
    (tree.plant node).1.Matches (other.plant node).1 := by
  refine ⟨by rw [size_plant, size_plant, same.size], fun x => ?_⟩
  rcases Nat.lt_or_ge tree.cells.size x.number with new | old
  · exact contents?_plant_of_new same.size new
  · rw [(grown_plant tree node).contents old, (grown_plant other node).contents (same.size ▸ old),
      same.contents]

/-- A change of an old node can be made before or after a tree grows. -/
theorem Matches.plant_modify {f : Cell → Cell} (becomes : (tree.modify p f).Matches other)
    (keeps : ∀ cell, (f cell).kind = cell.kind) (made : tree.Made p) (node : Node) :
    ((tree.plant node).1.modify p f).Matches (other.plant node).1 := by
  refine trans ?_ (becomes.plant node)
  have old := made.number_le
  have grown := grown_plant tree node
  have size : (tree.modify p f).cells.size = tree.cells.size := size_modify
  refine ⟨by rw [size_plant, size_modify, size_modify, size_plant], fun x => ?_⟩
  rw [contents?_modify_eq keeps]
  rcases Nat.lt_or_ge tree.cells.size x.number with new | aged
  · rw [contents?_plant_of_new size new, if_neg]
    rintro rfl
    omega
  · rw [(grown_plant _ node).contents (size ▸ aged), contents?_modify_eq keeps, grown.older old,
      grown.contents aged]

theorem Leads.plant (leads : first.Leads last change) (node : Node) :
    (first.plant node).1.Leads (last.plant node).1 change := by
  have grown := grown_plant first node
  cases leads with
  | field made known was becomes =>
    refine .field (grown.made made) known ?_ ?_
    · rw [attribute?_congr (grown.contents made.number_le), was]
    · exact becomes.plant_modify (fun _ => rfl) made node
  | condition made slot was different becomes =>
    refine .condition (grown.made made) slot ?_ different ?_
    · rw [condition?_congr (grown.contents made.number_le), was]
    · exact becomes.plant_modify (fun _ => rfl) made node
  | add made inside becomes =>
    have children := children_congr (grown.contents made.number_le)
    refine .add (grown.made made) (children ▸ inside) ?_
    rw [children]
    exact becomes.plant_modify (fun _ => rfl) made node
  | remove made found becomes =>
    have children := children_congr (grown.contents made.number_le)
    refine .remove (grown.made made) (children ▸ found) ?_
    rw [children]
    exact becomes.plant_modify (fun _ => rfl) made node
  | replace made found different becomes =>
    have children := children_congr (grown.contents made.number_le)
    refine .replace (grown.made made) (children ▸ found) different ?_
    rw [children]
    exact becomes.plant_modify (fun _ => rfl) made node

/-- A node below which a change is made stays where it is. -/
theorem Leads.below (leads : first.Leads last change) (forest : first.Forest)
    (inside : first.Below root change.node) : last.Below root change.node := by
  -- The way down does not pass the node of the change, since nothing is below itself.
  induction inside using ReflTransGen.head_induction_on with
  | refl => exact .refl
  | @head p x owns below ih =>
    refine .head ?_ ih
    rw [Owns, leads.elsewhere]
    · exact owns
    · rintro rfl
      exact forest.not_below_owner owns below

/-! ### Trails -/

/-- Changes that can be made one after the other, and what is seen of the root after each. -/
inductive Trail (root : NodeId) : Tree → List (Change × Snapshot) → Prop where
  | nil (tree : Tree) : Trail root tree []
  | cons {tree next : Tree} {change : Change} {rest : List (Change × Snapshot)}
      (ready : next.Ready) (frame : tree.SameFrame next) (leads : tree.Leads next change)
      (inside : tree.Below root change.node) (trail : Trail root next rest) :
      Trail root tree ((change, next.snapshot root) :: rest)

variable {steps rest : List (Change × Snapshot)} {seen : Snapshot}

/-- A trail starts from every tree that holds the same. -/
theorem Trail.of_matches (trail : Trail root tree steps) (same : tree.Matches other)
    (frame : tree.SameFrame other) : Trail root other steps := by
  cases trail with
  | nil => exact .nil other
  | cons ready further leads inside trail =>
    refine .cons ready (frame.symm.trans further) (leads.congr same (.refl _)) ?_ trail
    rw [same.below]
    exact inside

theorem Ready.plant (ready : tree.Ready)
    (fit : node.All (Node.Fit tree.settings.strictStructure)) : (tree.plant node).1.Ready :=
  ⟨ready.sound.plant node, ready.fitting.plant ready.sound fit, ready.calm⟩

theorem snapshot_plant (ready : tree.Ready) (top : tree.root = some root) (node : Node) :
    (tree.plant node).1.snapshot root = tree.snapshot root := by
  have made := made_of_contains (ready.sound.root_stored top).1
  refine snapshot_congr ((grown_plant tree node).view ready.sound.toForest made.number_le ?_)
  rw [size_plant]
  exact Nat.le_add_right _ _

theorem below_plant (below : tree.Below x p) (node : Node) : (tree.plant node).1.Below x p :=
  ReflTransGen.mono (fun _ _ => (grown_plant tree node).owns_of_owns) x p below

/-- A trail leads through grown trees if it led through those that did not grow. -/
theorem Trail.plant (trail : Trail root tree steps) (top : tree.root = some root)
    (fit : node.All (Node.Fit tree.settings.strictStructure)) :
    Trail root (tree.plant node).1 steps := by
  induction trail with
  | nil tree => exact .nil _
  | @cons tree next change rest ready frame leads inside trail ih =>
    have topToo : next.root = some root := frame.root.trans top
    have fitToo := frame.settings.symm ▸ fit
    rw [← snapshot_plant ready topToo node]
    refine .cons (ready.plant fitToo) ?_ (leads.plant node) (below_plant inside node)
      (ih topToo fitToo)
    exact ((SameFrame.plant tree node).symm.trans frame).trans (.plant next node)

/-- Replaying a change that leads to a lawful tree. -/
theorem Leads.replay (leads : tree.Leads last change) (sound : tree.Sound) (forest : last.Forest)
    (lawful : last.Lawful) (settings : last.settings = tree.settings)
    (root : ∀ top, tree.root = some top → last.Loose top) (stored : tree.contains change.node) :
    ∃ later, tree.replay change Tree.reapply = (later, .ok ()) ∧ later.Sound ∧
      tree.SameFrame later ∧ last.Matches later ∧ ∀ x, tree.Top x → last.Loose x → later.Top x := by
  have can : Replayable { tree with replaying := true } last change :=
    ⟨leads.congr (matches_of_cells rfl) (.refl last), forest, lawful, sound.of_cells rfl rfl, stored,
      rfl, settings.symm, root⟩
  obtain ⟨done, made, later, same, equal, tops⟩ := can.reapply
  obtain ⟨cells, rfl⟩ := same
  refine ⟨{ tree with cells }, ?_, later.of_cells rfl rfl, ⟨cells, rfl⟩,
    equal.symm.trans (matches_of_cells rfl), tops⟩
  rw [Tree.replay, if_pos stored, whileReplaying, made]

/-- **One step along a trail, and the way back.** -/
theorem Trail.walk (trail : Trail root tree ((change, seen) :: rest)) (ready : tree.Ready)
    (top : tree.root = some root) :
    ∃ next, tree.replay change Tree.reapply = (next, .ok ()) ∧ next.Ready ∧ tree.SameFrame next ∧
      next.snapshot root = seen ∧ Trail root next rest ∧
      ∀ steps, Trail root tree steps →
        Trail root next ((change.inverse, tree.snapshot root) :: steps) := by
  cases trail with
  | @cons _ last _ _ readyToo frame leads inside trail =>
    have forest := ready.sound.toForest
    have stored := (ready.sound.contains_below inside).2 (ready.sound.root_stored top).1
    obtain ⟨next, made, sound, frameNext, same, -⟩ :=
      leads.replay ready.sound readyToo.sound.toForest readyToo.fitting.lawful frame.settings
        (fun top isRoot => (readyToo.sound.root_stored (frame.root.trans isRoot)).2) stored
    have readyNext : next.Ready := ⟨sound, same.fitting
      (frameNext.settings.trans frame.settings.symm) readyToo.fitting, frameNext.replaying.trans ready.calm⟩
    -- The tree that was reached at first is gone; the one that is reached now holds the same.
    have leads := leads.congr (.refl tree) same
    refine ⟨next, made, readyNext, frameNext, snapshot_congr (same.view root),
      trail.of_matches same (frame.symm.trans frameNext), fun steps trail => ?_⟩
    exact .cons ready frameNext.symm leads.inverse (leads.below forest inside) trail

/-- Taking a change back is going the way of its inverse. -/
theorem replay_revert (tree : Tree) (change : Change) :
    tree.replay change Tree.revert = tree.replay change.inverse Tree.reapply := by
  rw [replay, replay, whileReplaying, whileReplaying, revert_eq]
  rfl

/-! ### Edits -/

/-- What became of a tree, as told by a change. -/
inductive Led (tree : Tree) : Option Change → Tree → Prop where
  | idle : Led tree none tree
  | change {other : Tree} {change : Change} (leads : tree.Leads other change) :
    Led tree (some change) other

/-- A tree that may have grown by a node that is fit. -/
def Extended (tree other : Tree) : Prop :=
  other = tree ∨ ∃ node : Node, node.All (Node.Fit tree.settings.strictStructure) ∧
    other = (tree.plant node).1

/-- What growing leaves: what is seen of the root, its nodes, and trails. -/
theorem Extended.keeps (extended : tree.Extended other) (ready : tree.Ready)
    (top : tree.root = some root) :
    other.Ready ∧ tree.SameFrame other ∧ other.snapshot root = tree.snapshot root ∧
      (∀ p, tree.Below root p → other.Below root p) ∧
      ∀ steps, Trail root tree steps → Trail root other steps := by
  obtain rfl | ⟨node, fit, rfl⟩ := extended
  · exact ⟨ready, .refl _, rfl, fun _ => id, fun _ => id⟩
  · exact ⟨ready.plant fit, .plant tree node, snapshot_plant ready top node,
      fun _ below => below_plant below node, fun _ trail => trail.plant top fit⟩

theorem extended_build {raw : Json} (made : (tree.build raw).2 = .ok x) :
    tree.Extended (tree.build raw).1 := by
  obtain ⟨node, built, same, -⟩ := build_eq_ok made
  exact .inr ⟨node, Node.fit_of_ofRaw built, same⟩

theorem described_eq_ok {describe : Path → Change}
    (made : (tree.described p describe).2 = .ok change) : ∃ path, change = describe path := by
  obtain ⟨path, -, same⟩ := map_eq_ok.1 made
  exact ⟨path, same.symm⟩

/-- All attributes of the nodes of a fitting tree have a value. -/
theorem Fitting.attribute? (fitting : tree.Fitting) (made : tree.Made p) {name : String}
    (known : name ∈ p.kind.attributes) : ∃ value, tree.attribute? p name = some value := by
  obtain ⟨cell, found⟩ := made
  rw [← kind_of_cell? found, ← (fitting p cell found).own.names] at known
  obtain ⟨entry, member, rfl⟩ := List.mem_map.1 known
  rw [Tree.attribute?, found, ← Option.isSome_iff_exists]
  exact List.lookup_isSome_iff.2 ⟨entry, member, BEq.rfl⟩

/-- A child that passes the check of its link is none yet. -/
theorem Sound.ne_of_linked (sound : tree.Sound) (stored : tree.contains p) {old new : NodeId}
    {candidate : Candidate} (passed : tree.linkRefusal? p candidate = .ok new)
    (owns : tree.Owns p old) : new ≠ old := by
  rintro rfl
  obtain ⟨-, loose, -⟩ := linkRefusal?_eq_ok.1 passed
  rw [sound.parent?_eq_some.2 ⟨(sound.together owns).2 stored, owns⟩] at loose
  contradiction

/-- A tree in which an attribute that was never set may be spelled out as nothing. -/
def Filled (tree other : Tree) : Prop :=
  other = tree ∨ ∃ p name, tree.Made p ∧ name ∈ p.kind.attributes ∧
    tree.attribute? p name = none ∧ other = tree.storeAttribute p name .null

/-- In fitting trees all attributes were set. -/
theorem Filled.eq_of_fitting (filled : tree.Filled other) (fitting : tree.Fitting) :
    other = tree := by
  obtain same | ⟨p, name, made, known, unset, -⟩ := filled
  · exact same
  · obtain ⟨value, found⟩ := fitting.attribute? made known
    exact absurd (unset.symm.trans found) nofun

section Edits

variable (sound : tree.Sound) (stored : tree.contains p)
include sound stored

omit sound in
/-- An attribute that was never set counts as nothing, and nothing is what will be put back. -/
theorem led_setAttribute (calm : tree.replaying = false) {name : String} {value : Json}
    (worked : (tree.setAttribute p name value).2 = .ok change) :
    ∃ base, tree.Filled base ∧ base.Leads (tree.setAttribute p name value).1 change ∧
      change.node = p := by
  have made := made_of_contains stored
  obtain ⟨cause, -, same⟩ | ⟨checked, same⟩ := setAttribute_cases tree p name value <;>
    rw [same] at worked ⊢
  · contradiction
  · obtain ⟨path, rfl⟩ := described_eq_ok worked
    have known := (settable_of_attributeRefusal? (checked calm)).known
    cases was : tree.attribute? p name with
    | some before => exact ⟨tree, .inl rfl, .field made known was (.refl _), rfl⟩
    | none =>
      refine ⟨_, .inr ⟨p, name, made, known, was, rfl⟩, .field ?_ known
        (attribute?_storeAttribute made name .null) (Matches.storeAttribute_again name _ _), rfl⟩
      exact (made_modify (Cell.inner_attributes name .null)).2 made

omit sound in
theorem led_addChild {candidate : Candidate} {index : Option Int}
    (worked : (tree.addChild p candidate index).2 = .ok change) :
    tree.Leads (tree.addChild p candidate index).1 change ∧ change.node = p := by
  obtain ⟨cause, -, same⟩ | ⟨child, place, checked, same⟩ := addChild_cases tree p candidate index <;>
    rw [same] at worked ⊢
  · contradiction
  · obtain ⟨path, rfl⟩ := described_eq_ok worked
    obtain ⟨-, -, inside, -⟩ := checkAddChild_eq_ok.1 checked
    exact ⟨.add (made_of_contains stored) (newPlace_le inside) (Alike.adopt _ _ p).matches, rfl⟩

omit sound in
theorem led_removeChild {candidate : Candidate}
    (worked : (tree.removeChild p candidate).2 = .ok change) :
    tree.Leads (tree.removeChild p candidate).1 change ∧ change.node = p := by
  obtain ⟨refusal, -, same⟩ | ⟨child, place, checked, same⟩ := removeChild_cases tree p candidate <;>
    rw [same] at worked ⊢
  · contradiction
  · obtain ⟨path, rfl⟩ := described_eq_ok worked
    obtain ⟨-, spot, -⟩ := checkRemoveChild_eq_ok.1 checked
    exact ⟨.remove (made_of_contains stored) (getElem?_of_position? spot)
      (Alike.release _ _).matches, rfl⟩

theorem led_replaceChild {oldCandidate candidate : Candidate}
    (worked : (tree.replaceChild p oldCandidate candidate).2 = .ok change) :
    tree.Leads (tree.replaceChild p oldCandidate candidate).1 change ∧ change.node = p := by
  obtain ⟨refusal, -, same⟩ | ⟨old, new, place, checked, same⟩ :=
    replaceChild_cases tree p oldCandidate candidate <;> rw [same] at worked ⊢
  · contradiction
  · obtain ⟨path, rfl⟩ := described_eq_ok worked
    obtain ⟨-, spot, attached, -⟩ := checkReplaceChild_eq_ok.1 checked
    have here := getElem?_of_position? spot
    have different := sound.ne_of_linked stored (attachRefusal?_eq_ok.1 attached).1
      (owns_child (List.mem_of_getElem? here))
    exact ⟨.replace (made_of_contains stored) here different
      ((Alike.release _ _).trans (Alike.adopt _ _ p)).matches, rfl⟩

theorem led_setCondition (slot : p.kind.hasCondition) {candidate : Candidate}
    {result : Option Change} (worked : (tree.setCondition p candidate).2 = .ok result) :
    tree.Led result (tree.setCondition p candidate).1 ∧ ∀ change ∈ result, change.node = p := by
  obtain same | ⟨cause, -, same⟩ | ⟨new, checked, same⟩ := setCondition_cases tree p candidate <;>
    rw [same] at worked ⊢
  · obtain rfl := Except.ok.inj worked
    exact ⟨.idle, fun change member => absurd member (Option.not_mem_none change)⟩
  · contradiction
  · obtain ⟨change, made, rfl⟩ := map_eq_ok.1 worked
    obtain ⟨path, rfl⟩ := described_eq_ok made
    have linked := (checkCondition_eq_ok.1 checked).1
    have different : some new ≠ tree.condition? p := fun same =>
      sound.ne_of_linked stored linked (owns_condition same.symm) rfl
    have becomes : (tree.storeCondition p (.ofNode? (some new))).Matches
        ((tree.exchangeCondition (tree.condition? p) p new).storeCondition p (.holds new)) :=
      (Alike.exchangeCondition tree _ p new).matches.storeCondition rfl
    exact ⟨.change (.condition (made_of_contains stored) slot rfl different becomes),
      fun change same => Option.some.inj same ▸ rfl⟩

end Edits

theorem led_setConditionText (ready : tree.Ready) (stored : tree.contains p)
    (slot : p.kind.hasCondition) {text : String}
    {result : Option Change} (worked : (tree.setConditionText p text).2 = .ok result) :
    ∃ base, tree.Extended base ∧ base.Led result (tree.setConditionText p text).1 ∧
      ∀ change ∈ result, change.node = p := by
  obtain ⟨e, -, same⟩ | ⟨node, failure, -, -, same⟩ | ⟨node, condition, -, built, same⟩ :=
    setConditionText_cases tree p text <;> rw [same] at worked ⊢
  · contradiction
  · contradiction
  · exact ⟨_, extended_build built, led_setCondition (ready.build built).sound
      (contains_build node.toRaw stored) slot (mapError_eq_ok.1 worked)⟩

end Tree

namespace Edit

variable {tree : Tree} {edit : Edit} {result : Option Change}

/-- An edit does nothing and tells of nothing, or the change that it tells of leads from the tree
before, or from one with an attribute spelled out, to the tree after. -/
theorem led_filled (sound : tree.Sound) (calm : tree.replaying = false)
    (stored : tree.contains edit.receiver) (slot : edit.needsSlot → edit.receiver.kind.hasCondition)
    (plain : edit.readsText = false) (worked : (edit.apply tree).2 = .ok result) :
    result = none ∧ (edit.apply tree).1 = tree ∨ ∃ change base, result = some change ∧
      tree.Filled base ∧ base.Leads (edit.apply tree).1 change ∧ change.node = edit.receiver := by
  have told {edited : Edited Refusal} (right : ∀ change, edited.2 = .ok change →
      ∃ base, tree.Filled base ∧ base.Leads edited.1 change ∧ change.node = edit.receiver)
      (worked : (edited.2.map some).mapError Tree.ConditionTextError.refused = .ok result) :
      result = none ∧ edited.1 = tree ∨ ∃ change base, result = some change ∧ tree.Filled base ∧
        base.Leads edited.1 change ∧ change.node = edit.receiver := by
    obtain ⟨change, made, rfl⟩ := map_eq_ok.1 (mapError_eq_ok.1 worked)
    obtain ⟨base, filled, leads, here⟩ := right change made
    exact .inr ⟨change, base, rfl, filled, leads, here⟩
  cases edit with
  | setAttribute => exact told (fun _ => Tree.led_setAttribute stored calm) worked
  | addChild => exact told (fun _ made => ⟨tree, .inl rfl, Tree.led_addChild stored made⟩) worked
  | removeChild => exact told (fun _ made => ⟨tree, .inl rfl, Tree.led_removeChild stored made⟩) worked
  | replaceChild =>
    exact told (fun _ made => ⟨tree, .inl rfl, Tree.led_replaceChild sound stored made⟩) worked
  | setCondition p candidate =>
    obtain ⟨led, receiver⟩ := @Tree.led_setCondition tree p sound stored (slot rfl) candidate result
      (mapError_eq_ok.1 worked)
    have applied : ((setCondition p candidate).apply tree).1 = (tree.setCondition p candidate).1 := rfl
    rw [applied]
    revert led
    generalize (tree.setCondition p candidate).1 = later
    intro led
    cases led with
    | idle => exact .inl ⟨rfl, rfl⟩
    | change leads => exact .inr ⟨_, tree, rfl, .inl rfl, leads, receiver _ rfl⟩
  | setConditionText => exact absurd plain Bool.noConfusion

/-- The change that an edit tells of leads from the tree before, or from one that only grew, to the
tree after. -/
theorem led (ready : tree.Ready) (allowed : edit.Allowed tree)
    (worked : (edit.apply tree).2 = .ok result) :
    ∃ base, tree.Extended base ∧ base.Led result (edit.apply tree).1 ∧
      ∀ change ∈ result, change.node = edit.receiver := by
  have stored := ready.sound.contains_receiver allowed
  have slot := allowed.slot
  cases plain : edit.readsText with
  | false =>
    obtain ⟨rfl, same⟩ | ⟨change, base, rfl, filled, leads, here⟩ :=
      led_filled ready.sound ready.calm stored slot plain worked
    · rw [same]
      exact ⟨tree, .inl rfl, .idle, fun change member => absurd member (Option.not_mem_none change)⟩
    · obtain rfl := filled.eq_of_fitting ready.fitting
      exact ⟨base, .inl rfl, .change leads, fun other same => Option.some.inj same ▸ here⟩
  | true =>
    cases edit with
    | setConditionText => exact Tree.led_setConditionText ready stored (slot rfl) worked
    | setAttribute | addChild | removeChild | replaceChild | setCondition =>
      exact absurd plain Bool.noConfusion

end Edit

end Verbatim
