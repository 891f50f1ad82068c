import Verbatim.Proofs.Tree.Sound

/-!
# Subtrees that leave and come back

What releasing a subtree and adopting one do to the store and the links. Both leave what the nodes
hold as it was. Releasing takes a subtree from both tables and touches nothing else. Adopting a
subtree that is in the store links its top elsewhere; one that is not comes back whole, with its
links inside.

## Main definitions

* `Tree.Restored`: a subtree is in the store again

## Main results

* `Tree.contains_release`, `Tree.link_release`: what a release does to the tables
* `Tree.Forest.restored`: **restoring puts back exactly the subtree**
-/

namespace Verbatim

namespace Tree

open Relation

variable {tree other now after : Tree} {id x p q : NodeId} {change : Cell → Cell}

/-! ### Tables after one changed cell -/

theorem contains_congr (same : other.cell? x = tree.cell? x) : other.contains x = tree.contains x := by
  rw [contains, contains, same]

theorem link_congr (same : other.cell? x = tree.cell? x) : other.link x = tree.link x := by
  rw [link, link, same]

theorem contains_iff_cell? : tree.contains x ↔ ∃ cell, tree.cell? x = some cell ∧ cell.stored := by
  unfold contains
  cases found : tree.cell? x <;> simp

theorem link_of_cell? {cell : Cell} (found : tree.cell? x = some cell) : tree.link x = cell.link := by
  rw [link, found]

/-- A change of contents leaves the tables. -/
theorem tables_modify (inner : Cell.Inner change) :
    (tree.modify id change).contains x = tree.contains x ∧
      (tree.modify id change).link x = tree.link x := by
  rw [contains, contains, link, link, cell?_modify inner.kind]
  by_cases here : x = id
  · rw [if_pos here, here]
    cases tree.cell? id with
    | none => exact ⟨rfl, rfl⟩
    | some cell => exact ⟨inner.stored cell, inner.link cell⟩
  · rw [if_neg here]
    exact ⟨rfl, rfl⟩

theorem link_setLink (made : tree.Made id) {link : Link} : (tree.setLink id link).link id = link := by
  obtain ⟨cell, found⟩ := made
  rw [Tree.link, cell?_setLink, if_pos rfl, found]
  rfl

theorem contains_setLink {link : Link} : (tree.setLink id link).contains x = tree.contains x := by
  rw [contains, contains, cell?_setLink]
  by_cases here : x = id
  · rw [if_pos here, here]
    cases tree.cell? id <;> rfl
  · rw [if_neg here]

theorem register_self (made : tree.Made id) :
    (tree.register id).contains id ∧ (tree.register id).link id = .top := by
  obtain ⟨cell, found⟩ := made
  rw [contains, link, cell?_register, if_pos rfl, found]
  exact ⟨rfl, rfl⟩

/-! ### Releasing -/

theorem cell?_foldl_drop (ids : List NodeId) : (ids.foldl drop tree).cell? x =
    if x ∈ ids then (tree.cell? x).map fun cell => { cell with stored := false, link := .missing }
    else tree.cell? x := by
  induction ids generalizing tree with
  | nil => rfl
  | cons id rest ih =>
    rw [List.foldl_cons, ih, cell?_drop]
    by_cases here : x = id
    · subst here
      rw [if_pos rfl, if_pos List.mem_cons_self, Option.map_map]
      split <;> rfl
    · simp only [here, if_false, List.mem_cons, false_or]

theorem Alike.foldl {step : Tree → NodeId → Tree} (right : ∀ now id, Tree.Alike now (step now id))
    (ids : List NodeId) : tree.Alike (ids.foldl step tree) := by
  induction ids generalizing tree with
  | nil => exact Alike.refl tree
  | cons id rest ih => exact (right tree id).trans ih

theorem root_foldl {step : Tree → NodeId → Tree}
    (right : ∀ now id, (step now id).root = Tree.root now)
    (ids : List NodeId) : (ids.foldl step tree).root = tree.root := by
  induction ids generalizing tree with
  | nil => rfl
  | cons id rest ih => exact ih.trans (right tree id)

theorem cell?_release : (tree.release id).cell? x = (((tree.subtree id).foldl drop tree).cell? x) := by
  rw [release, dropAll]
  split <;> rfl

theorem Alike.release (tree : Tree) (id : NodeId) : tree.Alike (tree.release id) := by
  have dropped : tree.Alike ((tree.subtree id).foldl Tree.drop tree) := Alike.foldl Alike.drop _
  rw [Tree.release, dropAll]
  split
  · obtain ⟨size, contents, cells, root, same⟩ := dropped
    refine ⟨size, contents, cells, none, ?_⟩
    rw [same]
  · exact dropped

theorem root_release (notRoot : tree.root ≠ some id) : (tree.release id).root = tree.root := by
  rw [release, dropAll, if_neg notRoot]
  exact root_foldl (fun _ _ => root_modify) _

theorem contains_release : (tree.release id).contains x ↔ tree.contains x ∧ x ∉ tree.subtree id := by
  rw [contains_iff_cell?, contains_iff_cell?, cell?_release, cell?_foldl_drop]
  by_cases inside : x ∈ tree.subtree id
  · simp [inside]
  · simp [inside]

theorem link_release : (tree.release id).link x =
    if x ∈ tree.subtree id then .missing else tree.link x := by
  rw [link, link, cell?_release, cell?_foldl_drop]
  by_cases inside : x ∈ tree.subtree id
  · rw [if_pos inside, if_pos inside]
    cases tree.cell? x <;> rfl
  · rw [if_neg inside, if_neg inside]

/-! ### Restoring -/

theorem Alike.restoreWithin (steps : Nat) (tree : Tree) (id : NodeId) :
    tree.Alike (restoreWithin steps tree id) := by
  induction steps generalizing tree id with
  | zero => exact Alike.register tree id
  | succ steps ih =>
    exact (Alike.register tree id).trans
      (Alike.foldl (fun now sub => (ih now sub).trans (Alike.setLink _ sub _)) _)

theorem Alike.adopt (tree : Tree) (child parent : NodeId) :
    tree.Alike (tree.adopt child parent) := by
  refine Alike.trans ?_ (Alike.setLink _ child _)
  split
  · exact Alike.refl tree
  · exact Alike.restoreWithin _ tree child

theorem root_restoreWithin (steps : Nat) (tree : Tree) (id : NodeId) :
    (restoreWithin steps tree id).root = tree.root := by
  induction steps generalizing tree id with
  | zero => exact root_modify
  | succ steps ih =>
    exact (root_foldl (fun now sub => root_modify.trans (ih now sub)) _).trans root_modify

theorem root_adopt (tree : Tree) (child parent : NodeId) :
    (tree.adopt child parent).root = tree.root := by
  refine root_modify.trans ?_
  split
  · rfl
  · exact root_restoreWithin _ tree child

/-- The subtree of a node is in the store again, with its links inside, and nothing else moved. -/
structure Restored (tree now after : Tree) (id : NodeId) : Prop where
  elsewhere : ∀ {x}, ¬ tree.Below id x → after.cell? x = now.cell? x
  stored : ∀ {x}, tree.Below id x → after.contains x
  top : after.link id = .top
  linked : ∀ {q x}, tree.Below id q → tree.Owns q x → after.link x = .under q

/-- The subtrees of some of the nodes that a node owns are in the store again, below it. -/
structure RestoredAll (tree now after : Tree) (id : NodeId) (subs : List NodeId) : Prop where
  elsewhere : ∀ {x}, (∀ sub ∈ subs, ¬ tree.Below sub x) → after.cell? x = now.cell? x
  stored : ∀ {sub x}, sub ∈ subs → tree.Below sub x → after.contains x
  top : ∀ {sub}, sub ∈ subs → after.link sub = .under id
  linked : ∀ {sub q x}, sub ∈ subs → tree.Below sub q → tree.Owns q x → after.link x = .under q

namespace Forest

variable (forest : tree.Forest)
include forest

/-- The subtrees of two nodes with one owner have nothing in common. -/
theorem apart_of_owns {sub subToo : NodeId} (owns : tree.Owns p sub) (ownsToo : tree.Owns p subToo)
    (different : sub ≠ subToo) (below : tree.Below sub x) : ¬ tree.Below subToo x := by
  have never {a b : NodeId} (ownsA : tree.Owns p a) (ownsB : tree.Owns p b) (different : a ≠ b) :
      ¬ tree.Below a b := by
    intro inside
    obtain same | ⟨owner, above, owns⟩ := inside.cases_owner
    · exact different same.symm
    · rw [forest.owner owns ownsB] at above
      exact forest.not_below_owner ownsA above
  intro belowToo
  obtain inside | inside := forest.below_or_below below belowToo
  · exact never owns ownsToo different inside
  · exact never ownsToo owns different.symm inside

/-- If restoring is right for each of the nodes, it is right for all of them. -/
theorem restored_all {subs : List NodeId} {again : Tree → NodeId → Tree}
    (unchanged : ∀ now sub, Tree.Alike now (again now sub))
    (right : ∀ {now sub}, sub ∈ subs → tree.Alike now → tree.Restored now (again now sub) sub)
    (alike : tree.Alike now) (distinct : subs.Nodup) (owns : ∀ sub ∈ subs, tree.Owns id sub) :
    tree.RestoredAll now
      (subs.foldl (fun now sub => (again now sub).setLink sub (.under id)) now) id subs := by
  induction subs generalizing now with
  | nil =>
    exact ⟨fun _ => rfl, fun member => absurd member List.not_mem_nil,
      fun member => absurd member List.not_mem_nil, fun member => absurd member List.not_mem_nil⟩
  | cons sub rest ih =>
    obtain ⟨fresh, distinct⟩ := List.nodup_cons.1 distinct
    obtain ⟨ownsSub, owns⟩ := List.forall_mem_cons.1 owns
    have first := right List.mem_cons_self alike
    have alikeNext := alike.trans (unchanged now sub)
    have further := ih (fun member => right (List.mem_cons_of_mem _ member))
      (alikeNext.trans (Alike.setLink _ sub (.under id))) distinct owns
    -- What is below the first node stays as it is when the others are restored.
    have kept {x : NodeId} (below : tree.Below sub x) :
        ∀ other ∈ rest, ¬ tree.Below other x := fun other member =>
      forest.apart_of_owns ownsSub (owns other member) (fun same => fresh (same ▸ member)) below
    have madeSub : (again now sub).Made sub := alikeNext.made.2 (forest.made ownsSub)
    rw [List.foldl_cons]
    refine ⟨fun away => ?_, fun member below => ?_, fun member => ?_, fun member below ownsX => ?_⟩
    · obtain ⟨notFirst, notRest⟩ := List.forall_mem_cons.1 away
      rw [further.elsewhere notRest, cell?_setLink, if_neg, first.elsewhere notFirst]
      exact fun same => notFirst (same ▸ .refl)
    · obtain rfl | member := List.mem_cons.1 member
      · rw [contains_congr (further.elsewhere (kept below)), contains_setLink]
        exact first.stored below
      · exact further.stored member below
    · obtain rfl | member := List.mem_cons.1 member
      · rw [link_congr (further.elsewhere (kept .refl)), link_setLink madeSub]
      · exact further.top member
    · obtain rfl | member := List.mem_cons.1 member
      · rw [link_congr (further.elsewhere (kept (.tail below ownsX))), link,
          cell?_setLink, if_neg]
        · exact first.linked below ownsX
        · rintro rfl
          exact forest.not_below_owner ownsX below
      · exact further.linked member below ownsX

theorem restored_within {steps : Nat} (alike : tree.Alike now) (made : tree.Made id)
    (enough : tree.height id ≤ steps) : tree.Restored now (restoreWithin steps now id) id := by
  induction steps generalizing now id with
  | zero =>
    obtain ⟨stored, top⟩ := register_self (alike.made.2 made)
    have nothing {x : NodeId} : ¬ tree.Owns id x := fun owns => by
      have := forest.height_lt owns
      omega
    have only {x : NodeId} (below : tree.Below id x) : x = id := by
      obtain same | ⟨sub, owns, -⟩ := ReflTransGen.cases_head below
      · exact same.symm
      · exact absurd owns nothing
    refine ⟨fun away => ?_, fun below => ?_, top, fun below owns => ?_⟩
    · rw [restoreWithin, cell?_register, if_neg]
      exact fun same => away (same ▸ .refl)
    · rw [only below]
      exact stored
    · rw [only below] at owns
      exact absurd owns nothing
  | succ steps ih =>
    obtain ⟨stored, top⟩ := register_self (alike.made.2 made)
    have registering := Alike.register now id
    have owns : ∀ sub ∈ now.directNodes id, tree.Owns id sub := fun sub member => by
      rw [alike.directNodes] at member
      exact member
    have all := forest.restored_all (Alike.restoreWithin steps) (fun member alike => ih alike (forest.made (owns _ member))
      (by have := forest.height_lt (owns _ member); omega)) (alike.trans registering)
      (by rw [alike.directNodes]; exact forest.distinct id) owns
    have notBelow : ∀ sub ∈ now.directNodes id, ¬ tree.Below sub id := fun sub member =>
      forest.not_below_owner (owns sub member)
    have member {x : NodeId} (owns : tree.Owns id x) : x ∈ now.directNodes id := by
      rw [alike.directNodes]
      exact owns
    rw [restoreWithin]
    refine ⟨fun away => ?_, fun below => ?_, ?_, fun below ownsX => ?_⟩
    · rw [all.elsewhere fun sub member below => away (.head (owns sub member) below),
        cell?_register, if_neg]
      exact fun same => away (same ▸ .refl)
    · obtain rfl | ⟨sub, ownsSub, inside⟩ := ReflTransGen.cases_head below
      · rw [contains_congr (all.elsewhere notBelow)]
        exact stored
      · exact all.stored (member ownsSub) inside
    · rw [link_congr (all.elsewhere notBelow)]
      exact top
    · obtain rfl | ⟨sub, ownsSub, inside⟩ := ReflTransGen.cases_head below
      · exact all.top (member ownsX)
      · exact all.linked (member ownsSub) inside ownsX

/-- **Restoring puts back exactly the subtree.** -/
theorem restored (alike : tree.Alike now) (made : tree.Made id) :
    tree.Restored now (now.restore id) id :=
  forest.restored_within alike made (by rw [alike.size]; exact tree.height_le id)

end Forest

end Tree

end Verbatim
