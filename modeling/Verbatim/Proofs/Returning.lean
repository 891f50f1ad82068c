import Verbatim.Proofs.Addresses

/-!
# Subtrees that leave and return

A subtree that is released is gone from the store and from the links, and nothing else is. Adopting
it below the same node puts back every entry as it was, so that the two calls together do nothing.

Restoring walks down the subtree from its top and writes the entry of a node twice: at the top when
the walk comes to the node, and under its owner when what is below it is back. The second entry is
the one that the node had before, since in a coherent tree a node in the store is linked to its
owner. So it does not matter in which order subtrees are restored, nor whether they are disjoint:
whatever is written last at a name is what was there.

## Main definitions

* `Tree.OffTables`: two trees that differ in the store and the links only
* `Tree.Healed`: some names are as in a given tree again, and all others are left alone

## Main results

* `Tree.Coherent.healed_restore`: a restored subtree is as it was
* `Tree.Coherent.adopt_release`: **releasing a subtree and adopting it again changes nothing**
-/

namespace Verbatim

namespace Tree

open Relation

variable {tree now later after other : Tree} {c p x : NodeId} {first second : NodeId → Prop}

/-! ### Names that are as they were -/

/-- The contents of two trees are the same at every name, but for the store and the links. -/
def OffTables (tree now : Tree) : Prop :=
  ∀ x, (now.cell? x).map (fun cell => { cell with stored := true, link := .top }) =
    (tree.cell? x).map fun cell => { cell with stored := true, link := .top }

theorem OffTables.directNodes (same : tree.OffTables now) (x : NodeId) :
    now.directNodes x = tree.directNodes x := by
  have entry := same x
  unfold Tree.directNodes Tree.condition? Tree.children
  cases here : now.cell? x <;> cases there : tree.cell? x <;> simp_all

/-- At the names of a class there is what is in the tree, and everywhere else what was there
before. -/
structure Healed (tree now after : Tree) (here : NodeId → Prop) : Prop where
  inside : ∀ {x}, here x → after.cell? x = tree.cell? x
  outside : ∀ {x}, ¬ here x → after.cell? x = now.cell? x

namespace Healed

theorem offTables (healed : tree.Healed now after first) (same : tree.OffTables now) :
    tree.OffTables after := by
  intro x
  by_cases here : first x
  · rw [healed.inside here]
  · rw [healed.outside here, same x]

theorem trans (healed : tree.Healed now later first) (further : tree.Healed later after second) :
    tree.Healed now after fun x => first x ∨ second x where
  inside {x} here := by
    by_cases again : second x
    · exact further.inside again
    · exact (further.outside again).trans (healed.inside (here.resolve_right again))
  outside away :=
    (further.outside fun here => away (.inr here)).trans
      (healed.outside fun here => away (.inl here))

theorem congr (healed : tree.Healed now after first) (same : ∀ x, first x ↔ second x) :
    tree.Healed now after second where
  inside {x} here := healed.inside ((same x).2 here)
  outside {x} away := healed.outside fun here => away ((same x).1 here)

/-- If each of some steps heals its names, all of them together do. -/
theorem foldl {step : Tree → NodeId → Tree} {here : NodeId → NodeId → Prop} {subs : List NodeId}
    (each : ∀ sub ∈ subs, ∀ now, tree.OffTables now → tree.Healed now (step now sub) (here sub))
    (same : tree.OffTables now) :
    tree.Healed now (subs.foldl step now) fun x => ∃ sub ∈ subs, here sub x := by
  induction subs generalizing now with
  | nil => exact ⟨fun none => by simp at none, fun _ => rfl⟩
  | cons sub rest ih =>
    have one := each sub List.mem_cons_self now same
    have others := ih (fun other member => each other (List.mem_cons_of_mem _ member))
      (one.offTables same)
    exact (one.trans others).congr fun x => by simp

end Healed

/-! ### Restoring -/

namespace Coherent

variable (coherent : tree.Coherent)
include coherent

/-- In a coherent tree a node in the store has the entry that its owner gives it. -/
theorem cell?_of_owns (stored : tree.contains p) (owns : tree.Owns p x) :
    (tree.cell? x).map (fun cell => { cell with stored := true, link := .under p }) =
      tree.cell? x := by
  obtain ⟨inside, linked⟩ := coherent.owned p stored x owns
  obtain ⟨cell, found, isStored⟩ := contains_iff_cell?.1 inside
  rw [link_of_cell? found] at linked
  rw [found, Option.map_some, ← isStored, ← linked]

theorem height_lt {sub : NodeId} (stored : tree.contains p) (owns : tree.Owns p c)
    (further : tree.Owns c sub) : tree.height sub < tree.height c :=
  (coherent.founded (coherent.owned p stored c owns).1).height_lt further

/-- What is owned by a node heals the node with everything below it. -/
theorem healed_of_owned (stored : tree.contains p) (owns : tree.Owns p c)
    (same : tree.OffTables now)
    (healed : tree.Healed (now.register c) after fun x => ∃ sub, tree.Owns c sub ∧ tree.Below sub x) :
    tree.Healed now (after.setLink c (.under p)) (tree.Below c) where
  inside {x} below := by
    obtain rfl | ⟨sub, ownsSub, inside⟩ := ReflTransGen.cases_head below
    · have away : ¬ ∃ sub, tree.Owns c sub ∧ tree.Below sub c := fun ⟨sub, ownsSub, inside⟩ =>
        coherent.acyclic (coherent.owned p stored c owns).1 (TransGen.head' ownsSub inside)
      -- The entry at the top gives way to the one under the owner.
      have entry := congrArg (Option.map fun cell => { cell with link := .under p }) (same c)
      simp only [Option.map_map, Function.comp_def] at entry
      rw [cell?_setLink, if_pos rfl, healed.outside away, cell?_register, if_pos rfl,
        Option.map_map, ← coherent.cell?_of_owns stored owns]
      exact entry
    · have other : x ≠ c := by
        rintro rfl
        exact coherent.acyclic (coherent.owned p stored x owns).1 (TransGen.head' ownsSub inside)
      rw [cell?_setLink, if_neg other, healed.inside ⟨sub, ownsSub, inside⟩]
  outside {x} away := by
    have other : x ≠ c := by
      rintro rfl
      exact away .refl
    rw [cell?_setLink, if_neg other, healed.outside, cell?_register, if_neg other]
    rintro ⟨sub, ownsSub, inside⟩
    exact away (.head ownsSub inside)

theorem healed_restoreWithin {steps : Nat} (stored : tree.contains p) (owns : tree.Owns p c)
    (enough : tree.height c ≤ steps) (same : tree.OffTables now) :
    tree.Healed now ((restoreWithin steps now c).setLink c (.under p)) (tree.Below c) := by
  induction steps generalizing now c p with
  | zero =>
    refine coherent.healed_of_owned stored owns same ⟨?_, fun _ => rfl⟩
    rintro x ⟨sub, ownsSub, -⟩
    have := coherent.height_lt stored owns ownsSub
    omega
  | succ steps ih =>
    refine coherent.healed_of_owned stored owns same ?_
    have registered : tree.OffTables (now.register c) := by
      intro x
      rw [cell?_register, ← same x]
      by_cases here : x = c
      · rw [if_pos here, here, Option.map_map]
        rfl
      · rw [if_neg here]
    have each : ∀ sub ∈ now.directNodes c, ∀ later, tree.OffTables later →
        tree.Healed later ((restoreWithin steps later sub).setLink sub (.under c))
          (tree.Below sub) := by
      intro sub member later sameLater
      rw [same.directNodes] at member
      have := coherent.height_lt stored owns member
      exact ih (coherent.owned p stored c owns).1 member (by omega) sameLater
    refine (Healed.foldl each registered).congr fun x => ?_
    rw [same.directNodes]
    rfl

/-- A restored subtree is as it was. -/
theorem healed_restore (stored : tree.contains p) (owns : tree.Owns p c)
    (same : tree.OffTables now) (size : now.cells.size = tree.cells.size) :
    tree.Healed now ((now.restore c).setLink c (.under p)) (tree.Below c) :=
  coherent.healed_restoreWithin stored owns (size ▸ tree.height_le c) same

/-! ### Releasing -/

/-- A released subtree is gone from both tables, and everything else is as it was. -/
theorem cell?_release (stored : tree.contains c) (x : NodeId) :
    (¬ tree.Below c x → (tree.release c).cell? x = tree.cell? x) ∧
      (tree.Below c x → (tree.release c).cell? x =
        (tree.cell? x).map fun cell => { cell with stored := false, link := .missing }) := by
  rw [Tree.cell?_release, cell?_foldl_drop]
  refine ⟨fun away => if_neg fun member => ?_, fun below => if_pos ?_⟩
  · exact away ((coherent.mem_subtree stored).1 member)
  · exact (coherent.mem_subtree stored).2 below

theorem offTables_release (stored : tree.contains c) : tree.OffTables (tree.release c) := by
  intro x
  obtain ⟨outside, inside⟩ := coherent.cell?_release stored x
  by_cases below : tree.Below c x
  · rw [inside below, Option.map_map]
    rfl
  · rw [outside below]

end Coherent

/-! ### There and back -/

/-- Trees with the same cell at every name have the same cells. -/
theorem cells_eq_of_cell? (size : other.cells.size = tree.cells.size)
    (same : ∀ x, other.cell? x = tree.cell? x) : other.cells = tree.cells := by
  refine Array.ext size fun place _ inside => ?_
  have found : tree.cell? ⟨tree.cells[place].kind, place + 1⟩ = some tree.cells[place] :=
    cell?_eq_some.2 ⟨Nat.succ_ne_zero place, Array.getElem?_eq_getElem inside, rfl⟩
  rw [← same] at found
  obtain ⟨-, there, -⟩ := cell?_eq_some.1 found
  exact (Array.getElem?_eq_some_iff.1 there).2

/-- **Releasing a subtree and adopting it again changes nothing.** Between the two calls exactly the
nodes of the subtree are missing from the store and from the links; whatever else there was is as it
was. -/
theorem Coherent.adopt_release (coherent : tree.Coherent) (stored : tree.contains p)
    (owns : tree.Owns p c) :
    (tree.release c).adopt c p = tree ∧
      (∀ x, tree.Below c x → (tree.contains x ∧ tree.link x ≠ .missing) ∧
        ¬ (tree.release c).contains x ∧ (tree.release c).link x = .missing) ∧
      ∀ x, ¬ tree.Below c x → (tree.release c).contains x = tree.contains x ∧
        (tree.release c).link x = tree.link x := by
  obtain ⟨inside, linked⟩ := coherent.owned p stored c owns
  have gone {x : NodeId} (below : tree.Below c x) : ¬ (tree.release c).contains x := fun left =>
    (contains_release.1 left).2 ((coherent.mem_subtree inside).2 below)
  refine ⟨?_, fun x below => ?_, fun x away => ?_⟩
  · have released := Alike.release tree c
    have whole := released.trans (Alike.adopt (tree.release c) c p)
    have again : ((tree.release c).adopt c p).cells = tree.cells := by
      refine cells_eq_of_cell? whole.size fun x => ?_
      have healed := coherent.healed_restore stored owns (coherent.offTables_release inside)
        released.size
      rw [adopt, if_neg (gone .refl)]
      by_cases below : tree.Below c x
      · exact healed.inside below
      · exact (healed.outside below).trans ((coherent.cell?_release inside x).1 below)
    have root : ((tree.release c).adopt c p).root = tree.root := by
      rw [root_adopt, root_release]
      intro isRoot
      exact Link.noConfusion (linked.symm.trans (coherent.root c isRoot).2)
    obtain ⟨cells, top, same⟩ := whole.frame
    rw [same] at again root ⊢
    obtain rfl : cells = tree.cells := again
    obtain rfl : top = tree.root := root
    rfl
  · have present := coherent.contains_below inside below
    refine ⟨⟨present, (coherent.keys x).1 present⟩, gone below, ?_⟩
    rw [link_release, if_pos ((coherent.mem_subtree inside).2 below)]
  · have same := (coherent.cell?_release inside x).1 away
    exact ⟨contains_congr same, link_congr same⟩

/-- A loop whose condition is a call leaves with the call and its argument, and returns. -/
theorem adopt_release_loop : ∃ tree : Tree, tree.Coherent ∧
    tree.link ⟨.reference, 4⟩ = .under ⟨.call, 3⟩ ∧
    (tree.release ⟨.whileLoop, 2⟩).link ⟨.reference, 4⟩ = .missing ∧
      (tree.release ⟨.whileLoop, 2⟩).adopt ⟨.whileLoop, 2⟩ ⟨.compilationUnit, 1⟩ = tree := by
  let argument : Node := .mk .reference [("variable_name", .text "x")] none [] []
  let call : Node := .mk .call [("function_name", .text "f")] none [argument] []
  let node : Node := .mk .compilationUnit [] none [.mk .whileLoop [] (some call) [] []] []
  obtain ⟨tree, built⟩ : ∃ tree, tree = (empty "t" {}).perform (.build node.toJson) := ⟨_, rfl⟩
  have reachable : tree.Reachable := built ▸ .call (.build node.toJson) (.empty _ _) trivial
  have stored : tree.contains ⟨.compilationUnit, 1⟩ := by
    rw [built]
    cbv
  have children : tree.directNodes ⟨.compilationUnit, 1⟩ = [⟨.whileLoop, 2⟩] := by
    rw [built]
    cbv
  have condition : tree.directNodes ⟨.whileLoop, 2⟩ = [⟨.call, 3⟩] := by
    rw [built]
    cbv
  have arguments : tree.directNodes ⟨.call, 3⟩ = [⟨.reference, 4⟩] := by
    rw [built]
    cbv
  have linked : tree.link ⟨.reference, 4⟩ = .under ⟨.call, 3⟩ := by
    rw [built]
    cbv
  have only {p x : NodeId} (direct : tree.directNodes p = [x]) : tree.Owns p x := by
    rw [Owns, direct]
    exact List.mem_singleton_self x
  have coherent := coherent_of_reachable reachable
  obtain ⟨returned, left, -⟩ := coherent.adopt_release stored (only children)
  obtain ⟨-, -, missing⟩ := left _ (.tail (.single (only condition)) (only arguments))
  exact ⟨tree, coherent, linked, missing, returned⟩

end Tree

end Verbatim
