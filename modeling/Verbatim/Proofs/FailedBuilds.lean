import Verbatim.Proofs.Refusals

/-!
# Failed builds leave no trace

A build that fails gives its numbers up and leaves the tree as it was. It never needs to ask what the
tree looks like, so this holds of any tree, with any settings.

One raw tree is not dropped as a whole. A connector counts as an expression, so it is built as a
condition and passes the check that drops other nodes. Then the edit that should attach it refuses
it, and the build stops with the refusal of that edit, as if it had been asked for the edit. By then
the connector belongs to nobody. The statement that it was built for is dropped without it, so the
connector stays in the store, at the top.

## Main results

* `Tree.build_of_error`: **what a failed build raises and leaves**
* `Tree.build_of_error_stranded`: a connector that is left behind
-/

namespace Verbatim

open Relation

namespace Tree

variable {tree : Tree} {raw : Json} {failure : BuildFailure}

/-- **What a failed build raises and leaves.** It raises an error of the raw tree and leaves the tree
as it was, except where the raw tree asks for a connector as a condition. Then the connector may be
refused, and it is all that is left. -/
theorem build_of_error (failed : (tree.build raw).2 = .error failure) :
    (failure.error.report = .malformedTree ∨ failure.error.report = .unknownType) ∧
        tree.Unchanged (tree.build raw).1 ∨
      ∃ statement connector, ReflTransGen Json.Asks raw statement ∧
        statement.PairsConnector tree.settings.strictStructure connector ∧
        failure.error = .refused ⟨.setCondition, .notExpression .connectorCreation⟩ ∧
        (tree.build raw).1 = ((tree.skip failure.wasted).plant connector).1 := by
  obtain ⟨wrong, left⟩ := build_eq_error failed
  rw [left, absorb]
  obtain ⟨plain, clean⟩ | ⟨statement, connector, above, pairs, refused, stranded⟩ :=
    (Node.fails_of_ofRaw raw wrong).plain_or_connector
  · left
    rw [clean]
    refine ⟨?_, .skip tree failure.wasted⟩
    cases reported : failure.error.report with
    | malformedTree => exact .inl rfl
    | unknownType => exact .inr rfl
    | invalidMutation => exact absurd reported plain.report_ne
  · right
    rw [stranded]
    exact ⟨statement, connector, above, pairs, refused, rfl⟩

/-- A loop is built below which the second child is of no kind that is known. By then the loop, its
condition and its first child with what is below it have their numbers. -/
theorem build_of_error_nested : ∃ (tree : Tree) (raw : Json) (failure : BuildFailure),
    tree.root = some ⟨.compilationUnit, 1⟩ ∧ (tree.build raw).2 = .error failure ∧
      failure.error = .unknownTag "Loop" ∧ failure.wasted = 4 ∧
      tree.Unchanged (tree.build raw).1 := by
  let reference : Json := .object [("type", .text "VariableReferenceExpr"), ("variable_name", .text "x")]
  let statement : Json := .object [("type", .text "ExpressionStatement"),
    ("children", .array [reference])]
  let raw : Json := .object [("type", .text "WhileStatement"), ("condition", reference),
    ("children", .array [statement, .object [("type", .text "Loop")]])]
  let tree : Tree := {
    label := "t"
    settings := {}
    cells := #[{ kind := .compilationUnit }]
    root := some ⟨.compilationUnit, 1⟩ }
  let failure : BuildFailure := {
    error := .unknownTag "Loop"
    wasted := 4
    abandoned := [.whileLoop] }
  have failed : (tree.build raw).2 = .error failure := by cbv
  refine ⟨tree, raw, failure, rfl, failed, rfl, rfl, ?_⟩
  obtain ⟨-, unchanged⟩ | ⟨-, -, -, -, refused, -⟩ := build_of_error failed
  · exact unchanged
  · contradiction

/-- A loop that asks for a connector as its condition is refused as an edit is, and the connector
stays in the store, at the top, where nothing was before. -/
theorem build_of_error_stranded :
    let raw : Json := .object [("type", .text "WhileStatement"),
      ("condition", .object [("type", .text "connector_init_expr"), ("connector_name", .text "C")])]
    let tree := empty "t" {}
    (∃ failure, (tree.build raw).2 = .error failure ∧ failure.error.report = .invalidMutation) ∧
      tree.contains ⟨.connectorCreation, 2⟩ = false ∧
      (tree.build raw).1.contains ⟨.connectorCreation, 2⟩ = true ∧
      (tree.build raw).1.link ⟨.connectorCreation, 2⟩ = .top := by
  refine ⟨⟨{
    error := .refused ⟨.setCondition, .notExpression .connectorCreation⟩
    wasted := 1
    stranded := some (.mk .connectorCreation [("connector_name", .text "C")] none [] [])
    abandoned := [.whileLoop] }, ?_, rfl⟩, ?_, ?_, ?_⟩ <;> cbv

end Tree

end Verbatim
