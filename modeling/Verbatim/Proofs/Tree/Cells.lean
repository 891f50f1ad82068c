import Mathlib
import Verbatim.Tree.Edit

/-!
# Cells and what they hold

What a tree holds at each name after one cell was changed, and the part of a cell that does not
speak of the store and the links. Most of what can be asked of a tree looks at that part only, so
that two trees with the same contents are alike in it.

## Main definitions

* `Tree.Made`: the name belongs to a node of the tree
* `Cell.contents`, `Tree.contents?`: a cell without its place in the store and the links
* `Tree.Alike`: the same contents everywhere, and nothing changed beside the cells and the root

## Main results

* `Tree.cell?_modify`: what is where after one cell was changed
* `Tree.Alike.setLink`, `Tree.Alike.register`, `Tree.Alike.drop`: moving a node leaves all contents
-/

namespace Verbatim

namespace Tree

variable {tree other third : Tree} {id x : NodeId} {cell : Cell} {change : Cell → Cell}

/-! ### Names -/

/-- The name belongs to a node that was made in the tree. -/
def Made (tree : Tree) (id : NodeId) : Prop :=
  ∃ cell, tree.cell? id = some cell

theorem cell?_eq_some : tree.cell? id = some cell ↔
    id.number ≠ 0 ∧ tree.cells[id.number - 1]? = some cell ∧ cell.kind = id.kind := by
  by_cases zero : id.number = 0
  · simp [cell?, zero]
  · simp [cell?, zero, Option.filter_eq_some_iff]

theorem kind_of_cell? (found : tree.cell? id = some cell) : cell.kind = id.kind :=
  (cell?_eq_some.1 found).2.2

theorem Made.number_pos (made : tree.Made id) : 0 < id.number := by
  obtain ⟨cell, found⟩ := made
  exact Nat.pos_of_ne_zero (cell?_eq_some.1 found).1

theorem Made.number_le (made : tree.Made id) : id.number ≤ tree.cells.size := by
  have positive := made.number_pos
  obtain ⟨cell, found⟩ := made
  obtain ⟨inside, -⟩ := Array.getElem?_eq_some_iff.1 (cell?_eq_some.1 found).2.1
  omega

/-- Numbers tell nodes apart. -/
theorem Made.eq_of_number (made : tree.Made id) (madeToo : tree.Made x)
    (same : id.number = x.number) : id = x := by
  obtain ⟨cell, found⟩ := made
  obtain ⟨cellToo, foundToo⟩ := madeToo
  obtain ⟨-, here, kind⟩ := cell?_eq_some.1 found
  obtain ⟨-, hereToo, kindToo⟩ := cell?_eq_some.1 foundToo
  obtain rfl : cell = cellToo := by
    rw [same] at here
    exact Option.some.inj (here.symm.trans hereToo)
  obtain ⟨k, n⟩ := id
  obtain ⟨kToo, nToo⟩ := x
  obtain rfl : k = kToo := kind.symm.trans kindToo
  obtain rfl : n = nToo := same
  rfl

/-! ### One changed cell -/

/-- What is where after one cell was changed. -/
theorem cell?_modify (keeps : ∀ cell, (change cell).kind = cell.kind) :
    (tree.modify id change).cell? x = if x = id then (tree.cell? id).map change else tree.cell? x := by
  cases found : tree.cell? id with
  | none =>
    simp only [modify, found]
    split
    · rename_i same
      rw [same, found]
      rfl
    · rfl
  | some cell =>
    obtain ⟨positive, here, kind⟩ := cell?_eq_some.1 found
    simp only [modify, found]
    by_cases same : x = id
    · rw [if_pos same, same, Option.map_some, cell?_eq_some]
      refine ⟨positive, ?_, (keeps cell).trans kind⟩
      exact Array.getElem?_setIfInBounds_self_of_lt (Array.getElem?_eq_some_iff.1 here).1
    · rw [if_neg same]
      by_cases zero : x.number = 0
      · simp [cell?, zero]
      · by_cases number : x.number = id.number
        · -- The same number with another kind names no node, before and after.
          have otherKind : x.kind ≠ cell.kind := fun sameKind => same (by
            obtain ⟨k, n⟩ := x
            obtain ⟨kToo, nToo⟩ := id
            obtain rfl : k = kToo := sameKind.trans kind
            obtain rfl : n = nToo := number
            rfl)
          have inside := (Array.getElem?_eq_some_iff.1 here).1
          rw [cell?, cell?, if_neg zero, if_neg zero, number, here,
            Array.getElem?_setIfInBounds_self_of_lt inside]
          rw [Option.filter_some_neg (by simpa [keeps] using otherKind.symm),
            Option.filter_some_neg (by simpa using otherKind.symm)]
        · have apart : id.number - 1 ≠ x.number - 1 := by omega
          simp only [cell?, zero, if_false, Array.getElem?_setIfInBounds_ne apart]

theorem size_modify : (tree.modify id change).cells.size = tree.cells.size := by
  unfold modify
  split <;> simp

theorem frame_modify : ∃ cells, tree.modify id change = { tree with cells } := by
  unfold modify
  split
  · exact ⟨_, rfl⟩
  · exact ⟨tree.cells, rfl⟩

theorem root_modify : (tree.modify id change).root = tree.root := by
  obtain ⟨cells, same⟩ := @frame_modify tree id change
  rw [same]

theorem cell?_setLink {link : Link} : (tree.setLink id link).cell? x =
    if x = id then (tree.cell? id).map fun cell => { cell with link } else tree.cell? x :=
  cell?_modify fun _ => rfl

theorem cell?_register : (tree.register id).cell? x =
    if x = id then (tree.cell? id).map fun cell => { cell with stored := true, link := .top }
    else tree.cell? x :=
  cell?_modify fun _ => rfl

theorem cell?_storeChildren {children : List NodeId} : (tree.storeChildren id children).cell? x =
    if x = id then (tree.cell? id).map fun cell => { cell with children } else tree.cell? x :=
  cell?_modify fun _ => rfl

theorem cell?_storeCondition {slot : ConditionSlot} : (tree.storeCondition id slot).cell? x =
    if x = id then (tree.cell? id).map fun cell => { cell with condition := slot }
    else tree.cell? x :=
  cell?_modify fun _ => rfl

theorem cell?_storeAttribute {name : String} {value : Json} :
    (tree.storeAttribute id name value).cell? x =
      if x = id then (tree.cell? id).map fun cell =>
        { cell with attributes := Json.insertField name value cell.attributes }
      else tree.cell? x :=
  cell?_modify fun _ => rfl

theorem cell?_drop : (tree.drop id).cell? x =
    if x = id then (tree.cell? id).map fun cell => { cell with stored := false, link := .missing }
    else tree.cell? x :=
  cell?_modify fun _ => rfl

end Tree

/-! ### Contents -/

/-- The slot, where one that was emptied counts as unset. -/
def ConditionSlot.plain : ConditionSlot → ConditionSlot
  | .holds node => .holds node
  | _ => .unset

theorem ConditionSlot.node?_plain (slot : ConditionSlot) : slot.plain.node? = slot.node? := by
  cases slot <;> rfl

/-- The cell without its place in the store and the links. -/
def Cell.contents (cell : Cell) : Cell :=
  { cell with condition := cell.condition.plain, stored := true, link := .top }

/-- The change of a cell is one of its contents: it leaves its place in the store and the links. -/
structure Cell.Inner (change : Cell → Cell) : Prop where
  kind : ∀ cell, (change cell).kind = cell.kind
  stored : ∀ cell, (change cell).stored = cell.stored
  link : ∀ cell, (change cell).link = cell.link

theorem Cell.inner_children (children : List NodeId) :
    Cell.Inner fun cell => { cell with children } :=
  ⟨fun _ => rfl, fun _ => rfl, fun _ => rfl⟩

theorem Cell.inner_condition (condition : ConditionSlot) :
    Cell.Inner fun cell => { cell with condition } :=
  ⟨fun _ => rfl, fun _ => rfl, fun _ => rfl⟩

theorem Cell.inner_attributes (name : String) (value : Json) : Cell.Inner fun cell =>
    { cell with attributes := Json.insertField name value cell.attributes } :=
  ⟨fun _ => rfl, fun _ => rfl, fun _ => rfl⟩

theorem Cell.inner_gaps (gaps : Gaps) : Cell.Inner fun cell => { cell with gaps } :=
  ⟨fun _ => rfl, fun _ => rfl, fun _ => rfl⟩

namespace Tree

variable {tree other third : Tree} {id x : NodeId} {cell : Cell} {change : Cell → Cell}

/-- What a node holds. -/
def contents? (tree : Tree) (id : NodeId) : Option Cell :=
  (tree.cell? id).map Cell.contents

theorem contents?_of_cell? (found : tree.cell? id = some cell) :
    tree.contents? id = some cell.contents := by
  rw [contents?, found, Option.map_some]

theorem made_iff_contents? : tree.Made id ↔ ∃ cell, tree.contents? id = some cell := by
  simp only [Made, contents?, Option.map_eq_some_iff]
  refine ⟨fun ⟨cell, found⟩ => ⟨cell.contents, cell, found, rfl⟩, ?_⟩
  rintro ⟨-, cell, found, -⟩
  exact ⟨cell, found⟩

/-- A change of a cell that is not about its contents leaves all contents. -/
theorem contents?_modify (keeps : ∀ cell, (change cell).kind = cell.kind)
    (same : ∀ cell, (change cell).contents = cell.contents) :
    (tree.modify id change).contents? x = tree.contents? x := by
  rw [contents?, contents?, cell?_modify keeps]
  split
  · rename_i here
    rw [here, Option.map_map]
    exact congrArg (Option.map · (tree.cell? id)) (funext same)
  · rfl

section Congruence

variable (same : other.contents? id = tree.contents? id)
include same

theorem made_congr : other.Made id ↔ tree.Made id := by
  rw [made_iff_contents?, made_iff_contents?, same]

/-- What looks at contents only is the same where contents are. -/
theorem match_congr {α : Type} (ask : Cell → α) (plain : ∀ cell, ask cell.contents = ask cell) :
    (other.cell? id).map ask = (tree.cell? id).map ask := by
  have through (tree : Tree) : (tree.cell? id).map ask = (tree.contents? id).map ask := by
    rw [contents?, Option.map_map]
    exact congrArg (Option.map · (tree.cell? id)) (funext fun cell => (plain cell).symm)
  rw [through, through, same]

theorem children_congr : other.children id = tree.children id := by
  have equal := match_congr same Cell.children fun _ => rfl
  unfold children
  cases first : other.cell? id <;> cases second : tree.cell? id <;> simp_all

theorem condition?_congr : other.condition? id = tree.condition? id := by
  have equal := match_congr same (fun cell => cell.condition.node?) fun cell =>
    cell.condition.node?_plain
  unfold condition?
  cases first : other.cell? id <;> cases second : tree.cell? id <;> simp_all

theorem directNodes_congr : other.directNodes id = tree.directNodes id := by
  rw [directNodes, directNodes, children_congr same, condition?_congr same]

theorem attribute?_congr (name : String) : other.attribute? id name = tree.attribute? id name := by
  have equal := match_congr same Cell.attributes fun _ => rfl
  unfold attribute?
  cases first : other.cell? id <;> cases second : tree.cell? id <;> simp_all

theorem operator?_congr : other.operator? id = tree.operator? id := by
  rw [operator?, operator?, attribute?_congr same]

end Congruence

/-! ### Alike trees -/

/-- Two trees whose nodes hold the same. They may differ in the store, the links and the root. -/
structure Alike (tree other : Tree) : Prop where
  size : other.cells.size = tree.cells.size
  contents : ∀ id, other.contents? id = tree.contents? id
  frame : ∃ cells root, other = { tree with cells, root }

namespace Alike

theorem refl (tree : Tree) : tree.Alike tree :=
  ⟨rfl, fun _ => rfl, tree.cells, tree.root, rfl⟩

theorem trans (alike : tree.Alike other) (further : other.Alike third) : tree.Alike third := by
  refine ⟨further.size.trans alike.size, fun id => (further.contents id).trans (alike.contents id),
    ?_⟩
  obtain ⟨-, -, cells, root, rfl⟩ := alike
  obtain ⟨-, -, cells, root, rfl⟩ := further
  exact ⟨cells, root, rfl⟩

theorem modify (keeps : ∀ cell, (change cell).kind = cell.kind)
    (same : ∀ cell, (change cell).contents = cell.contents) : tree.Alike (tree.modify id change) := by
  obtain ⟨cells, frame⟩ := @frame_modify tree id change
  exact ⟨size_modify, fun _ => contents?_modify keeps same, cells, tree.root, frame⟩

theorem setLink (tree : Tree) (id : NodeId) (link : Link) : tree.Alike (tree.setLink id link) :=
  modify (fun _ => rfl) fun _ => rfl

theorem register (tree : Tree) (id : NodeId) : tree.Alike (tree.register id) :=
  modify (fun _ => rfl) fun _ => rfl

theorem drop (tree : Tree) (id : NodeId) : tree.Alike (tree.drop id) :=
  modify (fun _ => rfl) fun _ => rfl

theorem settings (alike : tree.Alike other) : other.settings = tree.settings := by
  obtain ⟨cells, root, rfl⟩ := alike.frame
  rfl

theorem replaying (alike : tree.Alike other) : other.replaying = tree.replaying := by
  obtain ⟨cells, root, rfl⟩ := alike.frame
  rfl

theorem made (alike : tree.Alike other) : other.Made id ↔ tree.Made id :=
  made_congr (alike.contents id)

theorem children (alike : tree.Alike other) : other.children id = tree.children id :=
  children_congr (alike.contents id)

theorem directNodes (alike : tree.Alike other) : other.directNodes id = tree.directNodes id :=
  directNodes_congr (alike.contents id)

end Alike

end Tree

end Verbatim
