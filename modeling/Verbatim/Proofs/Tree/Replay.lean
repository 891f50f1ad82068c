import Verbatim.Proofs.Tree.Lawful
import Verbatim.Tree.History

/-!
# Changes are made again and taken back

A change leads from one tree to another. Making it again, in any tree with the contents of the
first, gives the contents of the other; and since taking a change back is making its inverse, the
way back is the way of the inverse. The checks of the links and the limits of the grammar are on
meanwhile, and let every such change through.

## Main definitions

* `Change.inverse`: the change in the other direction
* `Tree.Leads`: what a change makes of a tree

## Main results

* `Tree.Leads.inverse`: the inverse of a change leads back
* `Tree.Replayable.reapply`: **a change that leads to a lawful tree can be made again**

## Implementation notes

The two trees are compared by their contents. A subtree that was taken out and put back is in the
store as it was, but one that was built and put in goes out of the store when that is taken back, so
the tables are not the same. In contents, a slot that was emptied counts as unset.
-/

namespace Verbatim

/-! ### The other direction -/

/-- The action in the other direction. -/
def Action.inverse : Action → Action
  | .setAttribute => .setAttribute
  | .addChild => .removeChild
  | .removeChild => .addChild
  | .replaceChild => .replaceChild

/-- The change in the other direction. -/
def Change.inverse (change : Change) : Change :=
  { change with action := change.action.inverse, before := change.after, after := change.before }

theorem Change.inverse_inverse (change : Change) : change.inverse.inverse = change := by
  obtain ⟨action, node, path, name, index, before, after⟩ := change
  cases action <;> rfl

/-- Taking a change back is making the change in the other direction. -/
theorem Tree.revert_eq (tree : Tree) (change : Change) :
    tree.revert change = tree.reapply change.inverse := by
  obtain ⟨action, node, path, name, index, before, after⟩ := change
  cases action <;> rfl

/-- The slot with a node in it, or unset. -/
def ConditionSlot.ofNode? : Option NodeId → ConditionSlot
  | some id => .holds id
  | none => .unset

theorem ConditionSlot.node?_ofNode? (node : Option NodeId) :
    (ConditionSlot.ofNode? node).node? = node := by
  cases node <;> rfl

theorem ConditionSlot.ofNode?_node? (slot : ConditionSlot) :
    ConditionSlot.ofNode? slot.node? = slot.plain := by
  cases slot <;> rfl

theorem ConditionSlot.plain_plain (slot : ConditionSlot) : slot.plain.plain = slot.plain := by
  cases slot <;> rfl

namespace Tree

open Relation

variable {tree other first last : Tree} {id x p q old new child : NodeId} {change : Change}
  {place : Nat}

/-! ### Contents after one changed cell -/

theorem contents?_modify_eq {f : Cell → Cell} (keeps : ∀ cell, (f cell).kind = cell.kind) :
    (tree.modify p f).contents? x =
      if x = p then (tree.cell? p).map fun cell => (f cell).contents else tree.contents? x := by
  rw [contents?, cell?_modify keeps]
  split
  · rw [Option.map_map]
    rfl
  · rfl

/-- The same change of the same contents. -/
theorem Matches.modify {f g : Cell → Cell} (same : tree.Matches other)
    (keeps : ∀ cell, (f cell).kind = cell.kind) (keepsToo : ∀ cell, (g cell).kind = cell.kind)
    (agree : ∀ cell cellToo : Cell, cellToo.contents = cell.contents →
      (g cellToo).contents = (f cell).contents) :
    (tree.modify p f).Matches (other.modify p g) := by
  refine ⟨size_modify.trans (same.size.trans size_modify.symm), fun x => ?_⟩
  rw [contents?_modify_eq keeps, contents?_modify_eq keepsToo]
  split
  · have here := same.contents p
    rw [contents?, contents?] at here
    cases found : tree.cell? p with
    | none =>
      rw [found] at here
      rw [Option.map_eq_none_iff.1 here]
      rfl
    | some cell =>
      rw [found] at here
      obtain ⟨cellToo, foundToo, equal⟩ := Option.map_eq_some_iff.1 here
      rw [foundToo]
      exact congrArg some (agree cell cellToo equal)
  · exact same.contents x

/-- A change of a cell and the way back. -/
theorem Matches.modify_back {f g : Cell → Cell} (keeps : ∀ cell, (f cell).kind = cell.kind)
    (keepsToo : ∀ cell, (g cell).kind = cell.kind)
    (back : ∀ cell, tree.cell? p = some cell → (g (f cell)).contents = cell.contents) :
    ((tree.modify p f).modify p g).Matches tree := by
  refine ⟨(size_modify.trans size_modify).symm, fun x => ?_⟩
  rw [contents?_modify_eq keepsToo, contents?_modify_eq keeps, cell?_modify keeps]
  by_cases here : x = p
  · rw [if_pos here, if_pos rfl, here, contents?, Option.map_map]
    cases found : tree.cell? p with
    | none => rfl
    | some cell => exact congrArg some (back cell found).symm
  · rw [if_neg here, if_neg here]

theorem Matches.storeChildren (same : tree.Matches other) (children : List NodeId) :
    (tree.storeChildren p children).Matches (other.storeChildren p children) :=
  same.modify (fun _ => rfl) (fun _ => rfl) fun _ _ equal =>
    congrArg (fun cell : Cell => { cell with children }) equal

theorem Matches.storeAttribute (same : tree.Matches other) (name : String) (value : Json) :
    (tree.storeAttribute p name value).Matches (other.storeAttribute p name value) :=
  same.modify (fun _ => rfl) (fun _ => rfl) fun _ _ equal =>
    congrArg (fun cell : Cell =>
      { cell with attributes := Json.insertField name value cell.attributes }) equal

theorem Matches.storeCondition (same : tree.Matches other) {slot slotToo : ConditionSlot}
    (plain : slotToo.plain = slot.plain) :
    (tree.storeCondition p slot).Matches (other.storeCondition p slotToo) :=
  same.modify (fun _ => rfl) (fun _ => rfl) fun cell cellToo equal => by
    show { cellToo.contents with condition := slotToo.plain } =
      { cell.contents with condition := slot.plain }
    rw [equal, plain]

/-- The children that a node had are put back. -/
theorem Matches.storeChildren_back (children : List NodeId) :
    ((tree.storeChildren p children).storeChildren p (tree.children p)).Matches tree := by
  refine Matches.modify_back (fun _ => rfl) (fun _ => rfl) fun cell found => ?_
  rw [Tree.children, found]

theorem children_storeChildren (made : tree.Made p) (children : List NodeId) :
    (tree.storeChildren p children).children p = children := by
  obtain ⟨cell, found⟩ := made
  rw [Tree.children, cell?_storeChildren, if_pos rfl, found]
  rfl

theorem condition?_storeCondition (made : tree.Made p) (slot : ConditionSlot) :
    (tree.storeCondition p slot).condition? p = slot.node? := by
  obtain ⟨cell, found⟩ := made
  rw [condition?, cell?_storeCondition, if_pos rfl, found]
  rfl

theorem attribute?_storeAttribute (made : tree.Made p) (name : String) (value : Json) :
    (tree.storeAttribute p name value).attribute? p name = some value := by
  obtain ⟨cell, found⟩ := made
  rw [attribute?, cell?_storeAttribute, if_pos rfl, found]
  exact (lookup_insertField name).trans (if_pos rfl)

theorem insertField_insertField (name : String) (first second : Json)
    (fields : List (String × Json)) :
    Json.insertField name second (Json.insertField name first fields) =
      Json.insertField name second fields := by
  induction fields with
  | nil => simp [Json.insertField]
  | cons field rest ih =>
    by_cases here : field.1 = name
    · simp [Json.insertField, here]
    · simp [Json.insertField, here, ih]

/-- What was set first does not show. -/
theorem Matches.storeAttribute_again (name : String) (first second : Json) :
    ((tree.storeAttribute p name first).storeAttribute p name second).Matches
      (tree.storeAttribute p name second) := by
  have keeps (value : Json) := (Cell.inner_attributes name value).kind
  refine ⟨size_modify.trans (size_modify.trans size_modify).symm, fun x => ?_⟩
  rw [Tree.storeAttribute, Tree.storeAttribute, Tree.storeAttribute, contents?_modify_eq (keeps _),
    contents?_modify_eq (keeps _), contents?_modify_eq (keeps _), cell?_modify (keeps _), if_pos rfl,
    Option.map_map]
  by_cases here : x = p
  · rw [if_pos here, if_pos here]
    refine Option.map_congr fun cell _ => ?_
    exact congrArg (fun attributes => Cell.contents { cell with attributes })
      (insertField_insertField name first second cell.attributes).symm
  · rw [if_neg here, if_neg here, if_neg here]

theorem insertField_of_lookup {name : String} {value : Json} {fields : List (String × Json)}
    (found : fields.lookup name = some value) : Json.insertField name value fields = fields := by
  induction fields with
  | nil => contradiction
  | cons field rest ih =>
    rw [Json.insertField]
    by_cases here : field.1 = name
    · rw [List.lookup_cons, here, BEq.rfl] at found
      rw [if_pos here, ← here, ← Option.some.inj found]
    · rw [List.lookup_cons, beq_false_of_ne (Ne.symm here)] at found
      rw [if_neg here, ih found]

/-! ### What a change makes of a tree -/

/-- What a change makes of a tree. Both are known by their contents only. -/
inductive Leads (tree other : Tree) : Change → Prop where
  | field {p : NodeId} {path : Path} {name : String} {before after : Json}
      (made : tree.Made p) (known : name ∈ p.kind.attributes)
      (was : tree.attribute? p name = some before)
      (becomes : (tree.storeAttribute p name after).Matches other) :
      Leads tree other
        { action := .setAttribute, node := p, path, name := some name, before := .value before,
          after := .value after }
  | condition {p : NodeId} {path : Path} {before after : Option NodeId}
      (made : tree.Made p) (slot : p.kind.hasCondition) (was : tree.condition? p = before)
      (different : after ≠ before)
      (becomes : (tree.storeCondition p (.ofNode? after)).Matches other) :
      Leads tree other
        { action := .setAttribute, node := p, path, name := some conditionName,
          before := .ofNode? before, after := .ofNode? after }
  | add {p child : NodeId} {path : Path} {place : Nat} (made : tree.Made p)
      (inside : place ≤ (tree.children p).length)
      (becomes :
        (tree.storeChildren p ((tree.children p).insertIdx place child)).Matches other) :
      Leads tree other
        { action := .addChild, node := p, path, index := some place, after := .node child }
  | remove {p child : NodeId} {path : Path} {place : Nat} (made : tree.Made p)
      (found : (tree.children p)[place]? = some child)
      (becomes : (tree.storeChildren p ((tree.children p).eraseIdx place)).Matches other) :
      Leads tree other
        { action := .removeChild, node := p, path, index := some place, before := .node child }
  | replace {p old new : NodeId} {path : Path} {place : Nat}
      (made : tree.Made p) (found : (tree.children p)[place]? = some old) (different : new ≠ old)
      (becomes : (tree.storeChildren p ((tree.children p).set place new)).Matches other) :
      Leads tree other
        { action := .replaceChild, node := p, path, index := some place, before := .node old,
          after := .node new }

namespace Leads

/-- Only the node of the change holds something else afterwards. -/
theorem contents (leads : first.Leads last change) (away : x ≠ change.node) :
    last.contents? x = first.contents? x := by
  have beside {f : Cell → Cell} (inner : Cell.Inner f)
      (becomes : (first.modify change.node f).Matches last) : last.contents? x = first.contents? x :=
    (becomes.contents x).trans ((contents?_modify_eq inner.kind).trans (if_neg away))
  cases leads with
  | field _ _ _ becomes => exact beside (Cell.inner_attributes _ _) becomes
  | condition _ _ _ _ becomes => exact beside (Cell.inner_condition _) becomes
  | add _ _ becomes | remove _ _ becomes | replace _ _ _ becomes =>
    exact beside (Cell.inner_children _) becomes

/-- Only the node of the change owns other nodes afterwards. -/
theorem elsewhere (leads : first.Leads last change) (away : q ≠ change.node) :
    last.directNodes q = first.directNodes q :=
  directNodes_congr (leads.contents away)

theorem made (leads : first.Leads last change) : last.Made x ↔ first.Made x := by
  cases leads with
  | field _ _ _ becomes => exact becomes.made.trans (made_modify (Cell.inner_attributes _ _))
  | condition _ _ _ _ becomes => exact becomes.made.trans (made_modify (Cell.inner_condition _))
  | add _ _ becomes | remove _ _ becomes | replace _ _ _ becomes =>
    exact becomes.made.trans (made_modify (Cell.inner_children _))

theorem size (leads : first.Leads last change) : last.cells.size = first.cells.size := by
  cases leads with
  | field _ _ _ becomes | condition _ _ _ _ becomes | add _ _ becomes | remove _ _ becomes
  | replace _ _ _ becomes => exact becomes.size.trans size_modify

/-- A change can be seen in trees with the same contents. -/
theorem congr (leads : first.Leads last change) (same : first.Matches tree)
    (sameToo : last.Matches other) : tree.Leads other change := by
  cases leads with
  | field made known was becomes =>
    refine .field (same.made.2 made) known ((attribute?_congr (same.contents _) _).trans was) ?_
    exact (same.symm.storeAttribute _ _).trans (becomes.trans sameToo)
  | condition made slot was different becomes =>
    refine .condition (same.made.2 made) slot (same.condition?.trans was) different ?_
    exact (same.symm.storeCondition rfl).trans (becomes.trans sameToo)
  | add made inside becomes =>
    refine .add (same.made.2 made) (same.children ▸ inside) ?_
    rw [same.children]
    exact (same.symm.storeChildren _).trans (becomes.trans sameToo)
  | remove made found becomes =>
    refine .remove (same.made.2 made) (same.children ▸ found) ?_
    rw [same.children]
    exact (same.symm.storeChildren _).trans (becomes.trans sameToo)
  | replace made found different becomes =>
    refine .replace (same.made.2 made) (same.children ▸ found) different ?_
    rw [same.children]
    exact (same.symm.storeChildren _).trans (becomes.trans sameToo)

/-- **The inverse of a change leads back.** -/
theorem inverse (leads : first.Leads last change) : last.Leads first change.inverse := by
  have madeLast (x : NodeId) : last.Made x ↔ first.Made x := leads.made
  cases leads with
  | @field p path name before after made known was becomes =>
    refine .field ((madeLast _).2 made) known ?_ ?_
    · exact (attribute?_congr (becomes.contents p) name).trans
        (attribute?_storeAttribute made name after)
    · refine (becomes.symm.storeAttribute name before).trans
        (Matches.modify_back (fun _ => rfl) (fun _ => rfl) fun cell found => ?_)
      have was : cell.attributes.lookup name = some before := by
        rwa [attribute?, found] at was
      show
        { cell.contents with
          attributes := Json.insertField name before
            (Json.insertField name after cell.attributes) } = cell.contents
      rw [insertField_insertField, insertField_of_lookup was]
      rfl
  | @condition p path before after made slot was different becomes =>
    refine .condition ((madeLast _).2 made) slot ?_ different.symm ?_
    · exact becomes.condition?.trans
        ((condition?_storeCondition made _).trans (ConditionSlot.node?_ofNode? after))
    · refine (becomes.symm.storeCondition rfl).trans
        (Matches.modify_back (fun _ => rfl) (fun _ => rfl) fun cell found => ?_)
      have was : cell.condition.node? = before := by
        rwa [condition?, found] at was
      show { cell.contents with condition := (ConditionSlot.ofNode? before).plain } = cell.contents
      rw [← was, ConditionSlot.ofNode?_node?, ConditionSlot.plain_plain]
      rfl
  | @add p child path place made inside becomes =>
    have children := becomes.children.trans
      (children_storeChildren made ((first.children p).insertIdx place child))
    refine .remove ((madeLast _).2 made) ?_ ?_
    · rw [children, List.getElem?_insertIdx_self, if_pos inside]
    · rw [children, List.eraseIdx_insertIdx_self]
      exact (becomes.symm.storeChildren _).trans (Matches.storeChildren_back _)
  | @remove p child path place made found becomes =>
    obtain ⟨inside, here⟩ := List.getElem?_eq_some_iff.1 found
    have children := becomes.children.trans
      (children_storeChildren made ((first.children p).eraseIdx place))
    have length := List.length_eraseIdx_of_lt inside
    refine .add ((madeLast _).2 made) ?_ ?_
    · rw [children]
      omega
    · rw [children, ← here, List.insertIdx_eraseIdx_getElem inside]
      exact (becomes.symm.storeChildren _).trans (Matches.storeChildren_back _)
  | @replace p old new path place made found different becomes =>
    obtain ⟨inside, here⟩ := List.getElem?_eq_some_iff.1 found
    have children := becomes.children.trans
      (children_storeChildren made ((first.children p).set place new))
    refine .replace ((madeLast _).2 made) ?_ different.symm ?_
    · rw [children, List.getElem?_set_self inside]
    · rw [children, List.set_set, ← here, List.set_getElem_self]
      exact (becomes.symm.storeChildren _).trans (Matches.storeChildren_back _)

end Leads

/-! ### Making a change again -/

theorem withoutChange_described (sound : tree.Sound) (p : NodeId) (describe : Path → Change) :
    withoutChange (tree.described p describe) = (tree, .ok ()) := by
  obtain ⟨path, found⟩ := sound.path_ok p
  rw [withoutChange, described, found]
  rfl

/-- A condition that passes the check of a condition is put back. -/
theorem restoreCondition_own (different : tree.condition? p ≠ some new)
    (checked : tree.checkCondition p (.own new) = .ok new) :
    tree.restoreCondition p (.own new) = withoutChange
      ((tree.exchangeCondition (tree.condition? p) p new).changeCondition p (tree.condition? p)
        (.holds new)) := by
  unfold restoreCondition setCondition
  have here : ¬ decide (tree.condition? p = some new) := by simpa using different
  simp only [if_neg here, checked, withoutChange]
  generalize (tree.exchangeCondition (tree.condition? p) p new).changeCondition p
    (tree.condition? p) (.holds new) = edited
  cases edited.2 <;> rfl

theorem restoreCondition_nothing (tree : Tree) (p : NodeId) :
    tree.restoreCondition p .nothing = withoutChange
      (((tree.condition? p).elim tree tree.release).changeCondition p (tree.condition? p)
        .emptied) := by
  unfold restoreCondition
  cases tree.condition? p <;> rfl

/-- Nothing but the cells and the root makes a tree sound. -/
theorem Sound.of_cells (sound : tree.Sound) (cells : other.cells = tree.cells)
    (root : other.root = tree.root) : other.Sound := by
  cases tree
  cases other
  obtain rfl := cells
  obtain rfl := root
  exact { sound with }

theorem matches_of_cells (cells : other.cells = tree.cells) : tree.Matches other :=
  ⟨by rw [cells], fun id => by rw [contents?, contents?, cell?, cell?, cells]⟩

/-- What a node will own, and does not own yet, can be put below it. -/
theorem Leads.attachable (leads : first.Leads last change) (forest : last.Forest)
    (owns : last.Owns change.node x) (gone : ¬ first.Owns change.node x) :
    first.Attachable change.node x where
  made := leads.made.1 (forest.made owns)
  loose q already := by
    by_cases here : q = change.node
    · exact gone (here ▸ already)
    · rw [Owns, ← leads.elsewhere here] at already
      exact here (forest.owner already owns)
  apart below := by
    refine forest.not_below_owner owns ((below_congr (fun {q} (away : q ≠ change.node) => ?_) ?_).1 below)
    · exact (leads.elsewhere away).symm
    · exact forest.not_below_owner owns

/-- A change can be made again here: the tables are sound, recorded states are being put back, and
the change leads to a forest that is lawful, in which the root is not owned. -/
structure Replayable (tree last : Tree) (change : Change) : Prop where
  leads : tree.Leads last change
  forest : last.Forest
  lawful : last.Lawful
  sound : tree.Sound
  stored : tree.contains change.node
  replaying : tree.replaying = true
  settings : tree.settings = last.settings
  root : ∀ top, tree.root = some top → last.Loose top

/-- A change was made again. Nodes at the top stay there unless they are owned now. -/
def Done (tree last : Tree) (replayed : Tree × Except Refusal Unit) : Prop :=
  ∃ later, replayed = (later, .ok ()) ∧ later.Sound ∧ tree.SameFrame later ∧ later.Matches last ∧
    ∀ x, tree.Top x → last.Loose x → later.Top x

/-- A node that is among those which a node will own, and is not meant by those that it owns. -/
theorem not_owns_of_perm {rest : List NodeId} (forest : last.Forest)
    (after : (last.directNodes p).Perm (x :: rest)) (before : first.Owns p x → x ∈ rest) :
    ¬ first.Owns p x := fun owns =>
  (List.nodup_cons.1 (after.nodup_iff.1 (forest.distinct p))).1 (before owns)

namespace Replayable

/-- The links let through what will be owned. -/
theorem linked (can : tree.Replayable last change) (owns : last.Owns change.node x)
    (gone : ¬ tree.Owns change.node x) :
    tree.Attachable change.node x ∧ tree.root ≠ some x ∧
      tree.linkRefusal? change.node (.own x) = .ok x := by
  have attachable := can.leads.attachable can.forest owns gone
  have notRoot : tree.root ≠ some x := fun isRoot => can.root x isRoot _ owns
  exact ⟨attachable, notRoot, can.sound.linkRefusal?_own can.stored attachable notRoot⟩

/-- The grammar lets through what will be a child. -/
theorem attached (can : tree.Replayable last change) (member : x ∈ last.children change.node)
    (gone : ¬ tree.Owns change.node x) :
    tree.Attachable change.node x ∧ tree.root ≠ some x ∧
      tree.attachRefusal? change.node (.own x) = .ok x := by
  have owns := owns_child member
  obtain ⟨attachable, notRoot, linked⟩ := can.linked owns gone
  refine ⟨attachable, notRoot, attachRefusal?_eq_ok.2 ⟨linked, fun strict => ?_⟩⟩
  rw [can.settings] at strict
  exact (can.lawful.allows owns.made).accepted strict _ (List.mem_map_of_mem member)

/-- The tables are exchanged along with what the node owns. -/
theorem done {later : Tree} {gone here : Option NodeId} {replayed : Tree × Except Refusal Unit}
    (can : tree.Replayable last change) (exchanged : tree.Exchanged later change.node gone here)
    (frame : tree.SameFrame later) (same : later.Matches last)
    (made : later.Sound → replayed = (later, .ok ())) : tree.Done last replayed := by
  have sound := can.sound.exchanged (fun _ _ => can.stored) exchanged
  refine ⟨later, made sound, sound, frame, same, fun x top loose => ?_⟩
  refine (exchanged.top_iff can.sound.kept).2 ⟨top, fun member => loose change.node ?_⟩
  rw [same.owns]
  exact exchanged.rewired.owns.2 (.inr ⟨rfl, member⟩)

section Actions

variable {path : Path} {name : String}

theorem field {before after : Json}
    (can : tree.Replayable last
      { action := .setAttribute, node := p, path, name := some name, before := .value before,
        after := .value after })
    (known : name ∈ p.kind.attributes)
    (becomes : (tree.storeAttribute p name after).Matches last) :
    tree.Done last (tree.putBack p name (.value after)) := by
  -- No attribute has the name of the slot, so this is not taken for a condition.
  have apart : ¬ (name = conditionName && p.kind.hasCondition) := by
    simp only [Bool.and_eq_true, decide_eq_true_eq, not_and]
    rintro rfl has
    revert known has
    cases p.kind <;> decide
  refine can.done (can.sound.kept.storeAttribute name after) (.modify tree p _) becomes fun later => ?_
  rw [putBack, if_neg apart, Tree.setAttribute, if_pos can.replaying]
  exact withoutChange_described later p _

/-- A condition that was there is put back. -/
theorem holds {before : Option NodeId}
    (can : tree.Replayable last
      { action := .setAttribute, node := p, path, name := some conditionName,
        before := .ofNode? before, after := .node new })
    (was : tree.condition? p = before) (different : some new ≠ before)
    (becomes : (tree.storeCondition p (.holds new)).Matches last) :
    tree.Done last (tree.restoreCondition p (.own new)) := by
  have stored : tree.contains p := can.stored
  have made := made_of_contains stored
  have after : (last.directNodes p).Perm (new :: tree.children p) := by
    rw [becomes.directNodes, directNodes_storeCondition made]
    rfl
  have gone : ¬ tree.Owns p new := by
    refine not_owns_of_perm can.forest after fun owns => ?_
    rcases List.mem_append.1 owns with slot | child
    · exact absurd ((Option.mem_toList.1 slot).symm.trans was) different
    · exact child
  have slot : last.condition? p = some new :=
    becomes.condition?.trans (condition?_storeCondition made _)
  have owns := owns_condition slot
  obtain ⟨attachable, notRoot, linked⟩ := can.linked owns gone
  obtain ⟨expression, plain⟩ := (can.lawful.allows owns.made).expression new.kind
    (Option.mem_map_of_mem NodeId.kind slot)
  have checked := checkCondition_eq_ok.2 ⟨linked, expression, strength?_ne_zero expression plain⟩
  have alike := Alike.exchangeCondition tree (tree.condition? p) p new
  refine can.done (can.sound.kept.exchangeCondition made attachable notRoot)
    ((SameFrame.exchangeCondition can.sound p new).trans (.modify _ p _))
    ((alike.matches.symm.storeCondition rfl).trans becomes) fun later => ?_
  rw [restoreCondition_own (was.trans_ne different.symm) checked]
  exact withoutChange_described later p _

/-- The slot for the condition is emptied again. -/
theorem emptied {before : Option NodeId}
    (can : tree.Replayable last
      { action := .setAttribute, node := p, path, name := some conditionName,
        before := .ofNode? before, after := .nothing })
    (becomes : (tree.storeCondition p .unset).Matches last) :
    tree.Done last (tree.restoreCondition p .nothing) := by
  have released : tree.Alike ((tree.condition? p).elim tree tree.release) ∧
      tree.SameFrame ((tree.condition? p).elim tree tree.release) := by
    cases slot : tree.condition? p with
    | none => exact ⟨.refl tree, .refl tree⟩
    | some old =>
      exact ⟨Alike.release tree old, .release (can.sound.notRoot_of_owns (owns_condition slot))⟩
  have same : (((tree.condition? p).elim tree tree.release).storeCondition p .emptied).Matches
      (tree.storeCondition p .unset) := released.1.matches.symm.storeCondition rfl
  refine can.done (can.sound.kept.eraseCondition (made_of_contains can.stored))
    (released.2.trans (.modify _ p _)) (same.trans becomes) fun later => ?_
  rw [restoreCondition_nothing]
  exact withoutChange_described later p _

theorem add {child : NodeId}
    (can : tree.Replayable last
      { action := .addChild, node := p, path, index := some place, after := .node child })
    (inside : place ≤ (tree.children p).length)
    (becomes : (tree.storeChildren p ((tree.children p).insertIdx place child)).Matches last) :
    tree.Done last (withoutChange (tree.addChild p (.own child) (some place))) := by
  have stored : tree.contains p := can.stored
  have made := made_of_contains stored
  have children := becomes.children.trans
    (children_storeChildren made ((tree.children p).insertIdx place child))
  have after : (last.directNodes p).Perm (child :: tree.directNodes p) := by
    rw [becomes.directNodes, directNodes_storeChildren made]
    exact ((List.perm_insertIdx child _ inside).append_left _).trans List.perm_middle
  have gone : ¬ tree.Owns p child := not_owns_of_perm can.forest after id
  have member : child ∈ last.children p := by
    rw [children]
    exact (List.mem_insertIdx inside).2 (.inl rfl)
  obtain ⟨attachable, notRoot, attached⟩ := can.attached member gone
  have room (limit : Nat) (most : p.kind.maxChildren = some limit) :
      (tree.children p).length < limit := by
    have count := (can.lawful.allows (owns_child member).made).room limit most
    rw [List.length_map, children, List.length_insertIdx_of_le_length inside] at count
    exact count
  have checked := checkAddChild_eq_ok.2 ⟨attached, room, newPlace_of_le inside,
    checkArrangement_of_replaying can.replaying _⟩
  refine can.done (can.sound.kept.insertChild made attachable notRoot inside)
    (.insertChild tree p child place) ((Alike.adopt _ child p).matches.symm.trans becomes)
    fun later => ?_
  rw [Tree.addChild, checked]
  exact withoutChange_described later p _

theorem remove {child : NodeId}
    (can : tree.Replayable last
      { action := .removeChild, node := p, path, index := some place, before := .node child })
    (found : (tree.children p)[place]? = some child)
    (becomes : (tree.storeChildren p ((tree.children p).eraseIdx place)).Matches last) :
    tree.Done last (withoutChange (tree.removeChild p (.own child))) := by
  have owns := owns_child (List.mem_of_getElem? found)
  have spot := position?_of_getElem? (List.nodup_append.1 (can.sound.distinct p)).2.1 found
  have checked := checkRemoveChild_eq_ok.2 ⟨rfl, spot, fun calm => absurd can.replaying calm,
    checkArrangement_of_replaying can.replaying _⟩
  refine can.done (can.sound.kept.eraseChild (made_of_contains can.stored) found)
    (.eraseChild can.sound owns) ((Alike.release _ child).matches.symm.trans becomes) fun later => ?_
  rw [Tree.removeChild, checked]
  exact withoutChange_described later p _

theorem replace
    (can : tree.Replayable last
      { action := .replaceChild, node := p, path, index := some place, before := .node old,
        after := .node new })
    (found : (tree.children p)[place]? = some old) (different : new ≠ old)
    (becomes : (tree.storeChildren p ((tree.children p).set place new)).Matches last) :
    tree.Done last (withoutChange (tree.replaceChild p (.own old) (.own new))) := by
  have stored : tree.contains p := can.stored
  have made := made_of_contains stored
  have owns := owns_child (List.mem_of_getElem? found)
  obtain ⟨inside, here⟩ := List.getElem?_eq_some_iff.1 found
  have children := becomes.children.trans
    (children_storeChildren made ((tree.children p).set place new))
  have before : (tree.directNodes p).Perm
      (old :: ((tree.condition? p).toList ++ (tree.children p).eraseIdx place)) := by
    have perm := List.getElem_cons_eraseIdx_perm inside
    rw [here] at perm
    exact (perm.symm.append_left _).trans List.perm_middle
  have after : (last.directNodes p).Perm
      (new :: ((tree.condition? p).toList ++ (tree.children p).eraseIdx place)) := by
    rw [becomes.directNodes, directNodes_storeChildren made]
    exact ((List.set_perm_cons_eraseIdx inside new).append_left _).trans List.perm_middle
  -- Nothing is owned twice afterwards, so the new child is not among the others now.
  have gone : ¬ tree.Owns p new := not_owns_of_perm can.forest after fun already =>
    (List.mem_cons.1 (before.mem_iff.1 already)).resolve_left different
  have member : new ∈ last.children p := by
    rw [children]
    exact List.mem_set inside new
  obtain ⟨attachable, notRoot, attached⟩ := can.attached member gone
  have spot := position?_of_getElem? (List.nodup_append.1 (can.sound.distinct p)).2.1 found
  have checked := checkReplaceChild_eq_ok.2 ⟨rfl, spot, attached,
    checkArrangement_of_replaying can.replaying _⟩
  refine can.done (can.sound.kept.exchangeChild made found attachable notRoot)
    (.exchangeChild can.sound owns)
    (((Alike.release _ old).trans (Alike.adopt _ new p)).matches.symm.trans becomes) fun later => ?_
  rw [Tree.replaceChild, checked]
  exact withoutChange_described later p _

end Actions

/-- **A change that leads to a lawful tree can be made again.** -/
theorem reapply (can : tree.Replayable last change) : tree.Done last (tree.reapply change) := by
  have leads := can.leads
  cases leads with
  | field made known was becomes => exact can.field known becomes
  | @condition p path before after made slot was different becomes =>
    have here : conditionName = conditionName && p.kind.hasCondition := by
      rw [decide_eq_true rfl, slot]
      rfl
    show tree.Done last (tree.putBack p conditionName (.ofNode? after))
    rw [putBack, if_pos here]
    cases after with
    | none => exact can.emptied becomes
    | some new => exact can.holds was different becomes
  | add made inside becomes => exact can.add inside becomes
  | remove made found becomes => exact can.remove found becomes
  | replace made found different becomes => exact can.replace found different becomes

end Replayable

end Tree

end Verbatim
