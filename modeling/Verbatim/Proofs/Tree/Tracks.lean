import Verbatim.Proofs.Tree.Trails

/-!
# Tracks through unfinished trees

A trail starts from the root and leads through trees that a build would accept. While a tree is put
together there may be no root, and its parts are changed before they are joined. Then each change is
made below some node at the top. A track names that node for each of its changes, and the changes can
be made in turn as long as the named nodes stay at the top: the store has the node of a change when
the node at the top is there, and nodes go out of the store only with what they are owned by.

So there is a set of free nodes, which nobody owns in any of the trees that the track leads through.
Nodes that are free and at the top before a step are at the top after it.

## Main definitions

* `Tree.Track`: changes that can be made one after the other, and where they lead

## Main results

* `Tree.Track.plant`, `Tree.Track.fill`, `Tree.Track.of_matches`: what leaves a track as it is
* `Tree.Track.walk`: **one step along a track, and the way back**

## Implementation notes

An attribute that was never set counts as nothing when it is set, and nothing is what is put back. So
the tree that one comes back to has one attribute more than the tree from which one left. All trees
farther back get the attribute as well: as long as it was not set, no change on the way back is about
it.
-/

namespace Verbatim

namespace Tree

open Relation

variable {tree other first last goal : Tree} {p q x top : NodeId} {change : Change} {node : Node}
  {name : String} {free more : NodeId → Prop} {steps rest : List (Change × NodeId)}

/-! ### Spelling out an attribute -/

theorem attribute?_modify {change : Cell → Cell} (keeps : ∀ cell, (change cell).kind = cell.kind)
    (same : ∀ cell, q = p →
      (change cell).attributes.lookup name = cell.attributes.lookup name) :
    (tree.modify q change).attribute? p name = tree.attribute? p name := by
  rw [attribute?, attribute?, cell?_modify keeps]
  by_cases here : p = q
  · rw [if_pos here, ← here]
    cases tree.cell? p with
    | none => rfl
    | some cell => exact same cell here.symm
  · rw [if_neg here]

/-- Two changes can be made in either order if they do not touch the same. -/
theorem Matches.modify_comm {f g : Cell → Cell} (keeps : ∀ cell, (f cell).kind = cell.kind)
    (keepsToo : ∀ cell, (g cell).kind = cell.kind)
    (agree : ∀ cell, tree.cell? p = some cell → q = p →
      (g (f cell)).contents = (f (g cell)).contents) :
    ((tree.modify p f).modify q g).Matches ((tree.modify q g).modify p f) := by
  refine ⟨(size_modify.trans size_modify).trans (size_modify.trans size_modify).symm, fun x => ?_⟩
  rw [contents?_modify_eq keeps, contents?_modify_eq keepsToo, contents?_modify_eq keepsToo,
    contents?_modify_eq keeps, cell?_modify keeps, cell?_modify keepsToo]
  by_cases same : q = p
  · subst same
    by_cases here : x = q
    · simp only [here, if_true, Option.map_map]
      exact Option.map_congr fun cell found => (agree cell found rfl).symm
    · simp only [here, if_false]
  · by_cases here : x = p
    · have away : x ≠ q := fun equal => same (equal.symm.trans here)
      simp only [here, if_true, Ne.symm same, if_false]
    · simp only [here, if_false, same]

theorem insertField_comm {other : String} {value given before : Json}
    {fields : List (String × Json)} (found : fields.lookup other = some before)
    (different : other ≠ name) :
    Json.insertField other value (Json.insertField name given fields) =
      Json.insertField name given (Json.insertField other value fields) := by
  induction fields with
  | nil => contradiction
  | cons field rest ih =>
    by_cases first : field.1 = name
    · simp [Json.insertField, first, different.symm]
    · by_cases second : field.1 = other
      · simp [Json.insertField, second, different]
      · rw [List.lookup_cons, beq_false_of_ne (Ne.symm second)] at found
        simp [Json.insertField, first, second, ih found]

/-- A change leaves an attribute unset that was never set, and leads as well between trees that have
the attribute. -/
theorem Leads.fill (leads : first.Leads last change) (unset : first.attribute? p name = none)
    (value : Json) : last.attribute? p name = none ∧
      (first.storeAttribute p name value).Leads (last.storeAttribute p name value) change := by
  have inner := Cell.inner_attributes name value
  have made {x : NodeId} (made : first.Made x) : (first.storeAttribute p name value).Made x :=
    (made_modify inner).2 made
  have still {f : Cell → Cell} {q : NodeId} (becomes : (first.modify q f).Matches last)
      (keeps : ∀ cell, (f cell).kind = cell.kind)
      (same : ∀ cell, q = p → (f cell).attributes.lookup name = cell.attributes.lookup name) :
      last.attribute? p name = none :=
    (attribute?_congr (becomes.contents p) name).trans ((attribute?_modify keeps same).trans unset)
  have moved {f : Cell → Cell} {q : NodeId} (becomes : (first.modify q f).Matches last)
      (keeps : ∀ cell, (f cell).kind = cell.kind)
      (agree : ∀ cell, first.cell? p = some cell → q = p →
        (f { cell with attributes := Json.insertField name value cell.attributes }).contents =
          { (f cell).contents with
            attributes := Json.insertField name value (f cell).contents.attributes }) :
      ((first.storeAttribute p name value).modify q f).Matches
        (last.storeAttribute p name value) :=
    (Matches.modify_comm inner.kind keeps agree).trans (becomes.storeAttribute name value)
  cases leads with
  | @field q path other before after here known was becomes =>
    have apart : q = p → other ≠ name := by
      rintro rfl rfl
      exact absurd (unset.symm.trans was) nofun
    have keeps (cell : Cell) := (Cell.inner_attributes other after).kind cell
    refine ⟨still becomes keeps fun cell same => ?_, .field (made here) known ?_
      (moved becomes keeps fun cell found same => ?_)⟩
    · exact (lookup_insertField name).trans (if_neg (apart same).symm)
    · rw [storeAttribute, attribute?_modify inner.kind fun cell same => ?_, was]
      exact (lookup_insertField other).trans (if_neg (apart same.symm))
    · subst same
      rw [attribute?, found] at was
      exact congrArg (fun attributes => Cell.contents { cell with attributes })
        (insertField_comm was (apart rfl))
  | condition here slot was different becomes =>
    refine ⟨still becomes (fun _ => rfl) fun _ _ => rfl, .condition (made here) slot ?_ different
      (moved becomes (fun _ => rfl) fun _ _ _ => rfl)⟩
    rw [condition?_storeAttribute, was]
  | add here inside becomes =>
    refine ⟨still becomes (fun _ => rfl) fun _ _ => rfl, .add (made here) ?_ ?_⟩
    · rwa [children_storeAttribute]
    · rw [children_storeAttribute]
      exact moved becomes (fun _ => rfl) fun _ _ _ => rfl
  | remove here found becomes =>
    refine ⟨still becomes (fun _ => rfl) fun _ _ => rfl, .remove (made here) ?_ ?_⟩
    · rwa [children_storeAttribute]
    · rw [children_storeAttribute]
      exact moved becomes (fun _ => rfl) fun _ _ _ => rfl
  | replace here found different becomes =>
    refine ⟨still becomes (fun _ => rfl) fun _ _ => rfl, .replace (made here) ?_ different ?_⟩
    · rwa [children_storeAttribute]
    · rw [children_storeAttribute]
      exact moved becomes (fun _ => rfl) fun _ _ _ => rfl

/-- Spelling out an attribute leaves the tables, what the kinds allow, and the owners. -/
theorem Filled.keeps (filled : tree.Filled other) (sound : tree.Sound) (lawful : tree.Lawful) :
    other.Sound ∧ other.Lawful ∧ other.settings = tree.settings ∧ other.Owns = tree.Owns := by
  obtain rfl | ⟨p, name, -, -, -, rfl⟩ := filled
  · exact ⟨sound, lawful, rfl, rfl⟩
  · exact ⟨sound.storeAttribute name .null, lawful.storeAttribute name .null, settings_modify,
      owns_storeAttribute⟩

/-! ### Tracks -/

/-- Changes that can be made one after the other, each below the node that is named beside it, up to
a tree that holds what the goal holds. On the way nobody owns a free node. -/
inductive Track (free : NodeId → Prop) (goal : Tree) : Tree → List (Change × NodeId) → Prop where
  | nil {tree : Tree} (same : tree.Matches goal) : Track free goal tree []
  | cons {tree next : Tree} {change : Change} {top : NodeId} {rest : List (Change × NodeId)}
      (sound : next.Sound) (lawful : next.Lawful) (settings : next.settings = tree.settings)
      (leads : tree.Leads next change) (loose : ∀ x, free x → next.Loose x)
      (inside : tree.Below top change.node) (track : Track free goal next rest) :
      Track free goal tree ((change, top) :: rest)

namespace Track

/-- A track starts from every tree that holds the same. -/
theorem of_matches (track : Track free goal tree steps) (same : tree.Matches other)
    (settings : other.settings = tree.settings) : Track free goal other steps := by
  cases track with
  | nil sameGoal => exact .nil (same.symm.trans sameGoal)
  | cons sound lawful further leads loose inside track =>
    refine .cons sound lawful (further.trans settings.symm) (leads.congr same (.refl _)) loose ?_ track
    rw [same.below]
    exact inside

theorem mono (track : Track free goal tree steps) (fewer : ∀ x, more x → free x) :
    Track more goal tree steps := by
  induction track with
  | nil same => exact .nil same
  | cons sound lawful settings leads loose inside _ ih =>
    exact .cons sound lawful settings leads (fun x isFree => loose x (fewer x isFree)) inside ih

/-- A track leads through grown trees if it led through those that did not grow. Nobody owns the new
node there. -/
theorem plant (track : Track free goal tree steps)
    (all : node.All (Node.Lawful tree.settings.strictStructure))
    (old : ∀ x, more x → x = (tree.plant node).2 ∨ free x ∧ x.number ≤ tree.cells.size) :
    Track more (goal.plant node).1 (tree.plant node).1 steps := by
  induction track with
  | nil same => exact .nil (same.plant node)
  | @cons tree next change top rest sound lawful settings leads loose inside _ ih =>
    have allToo := settings.symm ▸ all
    have number : (next.plant node).2 = (tree.plant node).2 := by
      rw [Tree.plant, Tree.plant, nextId, nextId, leads.size]
    refine .cons (sound.plant node) (lawful.plant allToo) settings (leads.plant node)
      (fun x isFree => ?_) (below_plant inside node) (ih allToo ?_)
    · obtain rfl | ⟨isFree, aged⟩ := old x isFree
      · rw [← number]
        exact (sound.planted node).2
      · exact (grown_plant next node).loose_of_loose (leads.size ▸ aged) (loose x isFree)
    · rw [number, leads.size]
      exact old

/-- A track leads through trees with one attribute more, if it was never set. -/
theorem fill (track : Track free goal tree steps) (unset : tree.attribute? p name = none)
    (value : Json) :
    Track free (goal.storeAttribute p name value) (tree.storeAttribute p name value) steps := by
  induction track with
  | nil same => exact .nil (same.storeAttribute name value)
  | @cons tree next change top rest sound lawful settings leads loose inside _ ih =>
    obtain ⟨still, leads⟩ := leads.fill unset value
    refine .cons (sound.storeAttribute name value) (lawful.storeAttribute name value) ?_ leads
      (fun x isFree => ?_) ?_ (ih still)
    · exact settings_modify.trans (settings.trans settings_modify.symm)
    · rw [Loose, owns_storeAttribute]
      exact loose x isFree
    · rw [Below, owns_storeAttribute]
      exact inside

/-- A track starts as well where an attribute is spelled out. -/
theorem filled (track : Track free goal tree steps) (filled : tree.Filled other) :
    ∃ goal, Track free goal other steps := by
  obtain rfl | ⟨p, name, -, -, unset, rfl⟩ := filled
  · exact ⟨goal, track⟩
  · exact ⟨_, track.fill unset .null⟩

/-- **One step along a track, and the way back.** -/
theorem walk (track : Track free goal tree ((change, top) :: rest)) (sound : tree.Sound)
    (lawful : tree.Lawful) (tops : ∀ x, free x → tree.Top x) (isFree : free top)
    (root : ∀ x, tree.root = some x → free x) :
    ∃ next, tree.replay change Tree.reapply = (next, .ok ()) ∧ next.Sound ∧ next.Lawful ∧
      tree.SameFrame next ∧ (∀ x, free x → next.Top x) ∧ Track free goal next rest ∧
      ∀ start steps, Track free start tree steps →
        Track free start next ((change.inverse, top) :: steps) := by
  cases track with
  | cons soundLast lawfulLast settings leads loose inside track =>
    have stored := (sound.contains_below inside).2 (tops top isFree).1
    obtain ⟨next, made, soundNext, frame, same, stay⟩ := leads.replay sound soundLast.toForest
      lawfulLast settings (fun x isRoot => loose x (root x isRoot)) stored
    have settingsNext := frame.settings.trans settings.symm
    -- The tree that was reached at first is gone; the one that is reached now holds the same.
    have leads := leads.congr (.refl tree) same
    refine ⟨next, made, soundNext, same.lawful settingsNext lawfulLast, frame,
      fun x isFree => stay x (tops x isFree) (loose x isFree), track.of_matches same settingsNext,
      fun start steps track => ?_⟩
    exact .cons sound lawful frame.settings.symm leads.inverse (fun x isFree => (tops x isFree).2)
      (leads.below sound.toForest inside) track

end Track

end Tree

end Verbatim
