import Mathlib
import Verbatim.Proofs.Text.Numeral
import Verbatim.Proofs.Tree.Regions

/-!
# Paths and nodes correspond one to one

The path of a node is found on the way up, along the links, and the node of a path on the way down,
along conditions and children. In a coherent tree the two walks are each other's way back: every node
below the root has one path, every path that leads somewhere is the path of the node it leads to.

Coherence speaks of the nodes in the store only, and that is enough: the way up from a node in the
store ends, so no such node lies below itself, and a path to one has fewer steps than there are
nodes.

## Main definitions

* `Tree.rank`: how many nodes in the store there are above a node
* `PathStep.Short`: whether a step has no more digits than are read at all

## Main results

* `Tree.Coherent.path_of_descend`: a path that leads to a node is its path
* `Path.read_text`: which written paths are read back
* `Tree.Coherent.addresses`: **paths and nodes correspond one to one**
-/

namespace Verbatim

open Relation

/-! ### Ranks -/

namespace Tree

variable {tree : Tree} {root n p x : NodeId} {path rest : Path} {steps : Nat}

/-- How many nodes in the store there are above a node, with the node itself. -/
noncomputable def rank (tree : Tree) (x : NodeId) : Nat :=
  tree.count fun y => tree.contains y ∧ tree.Below y x

/-- One step leads from a node to each that it owns. -/
theorem exists_step_of_owns (owns : tree.Owns p x) :
    ∃ step : PathStep, tree.step? p step.request = some x := by
  obtain slot | child := List.mem_append.1 owns
  · exact ⟨.condition, Option.mem_toList.1 slot⟩
  · obtain ⟨place, found⟩ := List.mem_iff_getElem?.1 child
    exact ⟨.index place, (tree.step?_index p place).trans found⟩

/-- Some steps lead to each node below another. -/
theorem exists_descend_of_below (below : tree.Below p x) :
    ∃ path : Path, tree.descend p (path.map PathStep.request) = .ok x := by
  induction below with
  | refl => exact ⟨[], rfl⟩
  | tail _ owns ih =>
    obtain ⟨path, reached⟩ := ih
    obtain ⟨step, stepped⟩ := exists_step_of_owns owns
    exact ⟨path ++ [step], descend_concat.2 ⟨_, reached, stepped⟩⟩

namespace Coherent

variable (coherent : tree.Coherent)
include coherent

theorem rank_lt (stored : tree.contains p) (owns : tree.Owns p x) : tree.rank p < tree.rank x := by
  have inside := (coherent.owned p stored x owns).1
  refine count_lt (fun y above => ⟨above.1, above.2.tail owns⟩) (made_of_contains inside)
    ⟨inside, .refl⟩ fun above => ?_
  exact coherent.acyclic inside (TransGen.tail' above.2 owns)

/-- **The subtree of a node in the store is all that lies below it.** -/
theorem mem_subtree (stored : tree.contains p) : x ∈ tree.subtree p ↔ tree.Below p x :=
  (coherent.founded stored).mem_subtree

/-! ### Down and up again -/

/-- A path has fewer steps than there are nodes above the one that it leads to. -/
theorem length_le_rank (stored : tree.contains root)
    (reached : tree.descend root (path.map PathStep.request) = .ok n) :
    path.length ≤ tree.rank n := by
  induction path using List.reverseRecOn generalizing n with
  | nil => exact Nat.zero_le _
  | append_singleton path step ih =>
    obtain ⟨p, reached, stepped⟩ := descend_concat.1 reached
    have inside := coherent.contains_below stored (below_of_descend reached)
    have fewer := coherent.rank_lt inside (owns_of_step? stepped)
    have shorter := ih reached
    rw [List.length_append, List.length_singleton]
    omega

/-- The step to a node from its owner is found on the way up. -/
theorem pathWithin_of_step? (stored : tree.contains p) {step : PathStep}
    (stepped : tree.step? p step.request = some x) :
    tree.pathWithin (steps + 1) x rest = tree.pathWithin steps p (step :: rest) := by
  have distinct := List.nodup_append.1 (coherent.distinct p stored)
  rw [pathWithin, coherent.parent?_eq_some stored (owns_of_step? stepped)]
  cases step with
  | condition =>
    have slot : tree.isConditionOf x p := decide_eq_true stepped
    simp only [slot, if_true]
  | index place =>
    rw [step?_index] at stepped
    -- What is a child is not the condition as well.
    have away : ¬ tree.isConditionOf x p := fun slot => distinct.2.2 x
      (Option.mem_toList.2 (of_decide_eq_true slot)) x (List.mem_of_getElem? stepped) rfl
    simp only [away, position?_of_getElem? distinct.2.1 stepped]
    rfl

/-- The way up from a node is the way down to it from the root. -/
theorem pathWithin_of_descend (isRoot : tree.root = some root) (enough : path.length ≤ steps)
    (reached : tree.descend root (path.map PathStep.request) = .ok n) :
    tree.pathWithin steps n rest = .ok (path ++ rest) := by
  have storedRoot := (coherent.root root isRoot).1
  induction path using List.reverseRecOn generalizing n steps rest with
  | nil =>
    obtain rfl := Except.ok.inj reached
    cases steps with
    | zero => rfl
    | succ steps =>
      have top : tree.parent? root = none := by rw [parent?, (coherent.root root isRoot).2]
      rw [pathWithin, top]
      rfl
  | append_singleton path step ih =>
    obtain ⟨p, reached, stepped⟩ := descend_concat.1 reached
    have inside := coherent.contains_below storedRoot (below_of_descend reached)
    rw [List.length_append, List.length_singleton] at enough
    obtain ⟨fewer, rfl⟩ := Nat.exists_eq_add_one_of_ne_zero (n := steps) (by omega)
    rw [coherent.pathWithin_of_step? inside stepped, ih (by omega) reached, List.append_assoc,
      List.singleton_append]

/-- **A path that leads to a node is its path.** -/
theorem path_of_descend (isRoot : tree.root = some root)
    (reached : tree.descend root (path.map PathStep.request) = .ok n) : tree.path n = .ok path := by
  have bound := coherent.length_le_rank (coherent.root root isRoot).1 reached
  have walked : tree.pathWithin tree.cells.size n [] = .ok (path ++ []) :=
    coherent.pathWithin_of_descend isRoot (bound.trans (count_le tree _)) reached
  rwa [List.append_nil] at walked

theorem resolve_eq (isRoot : tree.root = some root) (path : Path) :
    tree.resolve path = tree.descend root (path.map PathStep.request) := by
  rw [resolve, resolveSteps, root?, isRoot, Option.filter_some_pos (coherent.root root isRoot).1]

end Coherent

end Tree

/-! ### Written paths -/

section Written

variable {step : PathStep} {path : Path} {c : Char}

namespace PathStep

/-- A step that is written as it is read: its place has no more digits than are read at all. -/
def Short : PathStep → Prop
  | index place => place < 10 ^ Text.digitLimit
  | condition => True

theorem ne_slash_of_mem_text (member : c ∈ step.text.toList) : c ≠ '/' ∧ Text.isBlank c = false := by
  cases step with
  | index place =>
    have digit := Text.isDigit_of_mem_toString member
    refine ⟨?_, Text.isBlank_of_isDigit digit⟩
    rintro rfl
    exact absurd digit (by decide)
  | condition =>
    have letters : ∀ c ∈ "condition".toList, c ≠ '/' ∧ 32 < c.toNat ∧ c.toNat < 127 := by simp
    obtain ⟨other, above, below⟩ := letters c member
    exact ⟨other, Text.isBlank_eq_false above below⟩

theorem text_ne_empty (step : PathStep) : step.text ≠ "" := by
  cases step with
  | index place =>
    rw [text, Nat.toString_eq_ofList_toDigits, Ne, String.ofList_eq_empty_iff]
    exact Nat.toDigits_ne_nil
  | condition => decide

/-- A written step is read back if it is short. -/
theorem read_text : PathStep.read step.text = .ok step ↔ step.Short := by
  cases step with
  | condition => exact iff_of_true rfl trivial
  | index place =>
    have digits (c : Char) (member : c ∈ (toString place).toList) : c.isDigit :=
      Text.isDigit_of_mem_toString member
    have number : toString place ≠ "condition" := fun same =>
      absurd (digits 'c' (same ▸ by decide)) (by decide)
    have figures : (toString place).toList.all Text.isDigitLike := by
      refine List.all_eq_true.2 fun c member => ?_
      rw [Text.isDigitLike, Text.digitValue?_of_isDigit (digits c member)]
      rfl
    rw [PathStep.read, text, if_neg number, if_pos figures, Short]
    cases read : Text.readInteger (toString place) with
    | ok value =>
      obtain ⟨short, rfl⟩ := Text.readInteger_toString_eq_ok.1 read
      exact iff_of_true rfl short
    | error e =>
      refine iff_of_false (fun same => ?_) fun short => ?_
      · contradiction
      · rw [Text.readInteger_toString_eq_ok.2 ⟨short, rfl⟩] at read
        contradiction

end PathStep

namespace Path

theorem text_cons (step : PathStep) (rest : Path) :
    ∃ behind, Path.text (step :: rest) = step.text ++ behind := by
  cases rest with
  | nil => exact ⟨"", by simp [text, String.intercalate_singleton]⟩
  | cons next rest =>
    refine ⟨"/" ++ Path.text (next :: rest), ?_⟩
    rw [text, List.map_cons, String.intercalate_cons_of_ne_nil (by simp), String.append_assoc]
    rfl

theorem text_concat (front : Path) (step : PathStep) :
    ∃ before, Path.text (front ++ [step]) = before ++ step.text := by
  cases front with
  | nil => exact ⟨"", by simp [text, String.intercalate_singleton]⟩
  | cons first rest =>
    refine ⟨Path.text (first :: rest) ++ "/", ?_⟩
    rw [text, List.map_append, String.intercalate_append_of_ne_nil (by simp) (by simp)]
    simp [text, String.intercalate_singleton]

/-- A written path has no blanks. -/
theorem isBlank_of_mem_text (member : c ∈ path.text.toList) : Text.isBlank c = false := by
  induction path with
  | nil => simp [text] at member
  | cons step rest ih =>
    cases rest with
    | nil =>
      rw [text, List.map_singleton, String.intercalate_singleton] at member
      exact (PathStep.ne_slash_of_mem_text member).2
    | cons next rest =>
      rw [text, List.map_cons, String.intercalate_cons_of_ne_nil (by simp), String.toList_append,
        String.toList_append, List.mem_append, List.mem_append] at member
      obtain (here | slash) | later := member
      · exact (PathStep.ne_slash_of_mem_text here).2
      · obtain rfl := List.mem_singleton.1 slash
        decide
      · exact ih later

/-- A written path has no slash at its ends. -/
theorem stripBy_text (path : Path) : Text.stripBy (· = '/') (Text.strip path.text) = path.text := by
  rw [Text.strip, Text.stripBy_eq_self fun c => isBlank_of_mem_text]
  refine Text.stripBy_eq_self_of_ends (fun c first => ?_) fun c last => ?_
  · cases path with
    | nil => simp [text] at first
    | cons step rest =>
      obtain ⟨behind, same⟩ := text_cons step rest
      rw [same, String.toList_append, List.head?_append_of_ne_nil _ (by simp [step.text_ne_empty])]
        at first
      exact decide_eq_false (PathStep.ne_slash_of_mem_text (List.mem_of_head? first)).1
  · obtain rfl | ⟨front, step, rfl⟩ := List.eq_nil_or_concat path
    · simp [text] at last
    · obtain ⟨before, same⟩ := text_concat front step
      rw [List.concat_eq_append, same, String.toList_append,
        List.getLast?_append_of_ne_nil _ (by simp [step.text_ne_empty])] at last
      exact decide_eq_false (PathStep.ne_slash_of_mem_text (List.mem_of_getLast? last)).1

/-- **A written path is read back**, exactly if all its steps are short. -/
theorem read_text : Path.read path.text = .ok path ↔ ∀ step ∈ path, step.Short := by
  have parts : ((path.text.split '/').toList.map String.Slice.copy).filter (· ≠ "") =
      path.map PathStep.text := by
    have split := @String.toList_split_intercalate '/' (path.map PathStep.text) fun part member => by
      obtain ⟨step, -, rfl⟩ := List.mem_map.1 member
      exact fun slash => (PathStep.ne_slash_of_mem_text slash).1 rfl
    rw [text]
    refine (congrArg (List.filter (· ≠ "")) split).trans ?_
    split
    · next none => rw [none]; rfl
    · refine List.filter_eq_self.2 fun part member => ?_
      obtain ⟨step, -, rfl⟩ := List.mem_map.1 member
      exact decide_eq_true step.text_ne_empty
  rw [read, stripBy_text]
  simp only [parts]
  rw [mapM_eq_ok, List.map_map, List.map_inj_left]
  exact forall₂_congr fun step _ => PathStep.read_text

end Path

end Written

/-! ### Addresses -/

namespace Tree

variable {tree : Tree} {root p n : NodeId} {path : Path}

namespace Coherent

variable (coherent : tree.Coherent)
include coherent

/-- A node in the store has no more children than there are nodes. -/
theorem length_children_le (stored : tree.contains p) :
    (tree.children p).length ≤ tree.cells.size := by
  have distinct := (List.nodup_append.1 (coherent.distinct p stored)).2.1
  have named : tree.children p ⊆ tree.names := fun x member =>
    (made_of_contains (coherent.owned p stored x (owns_child member)).1).mem_names
  calc (tree.children p).length ≤ tree.names.length := (distinct.subperm named).length_le
    _ = tree.cells.size := by simp [names]

/-- The steps to a node are short, as long as the nodes can be counted with numbers that are read. -/
theorem short_of_descend (few : tree.cells.size ≤ 10 ^ Text.digitLimit)
    (stored : tree.contains root)
    (reached : tree.descend root (path.map PathStep.request) = .ok n) :
    ∀ step ∈ path, step.Short := by
  induction path using List.reverseRecOn generalizing n with
  | nil => simp
  | append_singleton path step ih =>
    obtain ⟨p, above, stepped⟩ := descend_concat.1 reached
    intro other member
    obtain earlier | last := List.mem_append.1 member
    · exact ih above other earlier
    · obtain rfl := List.mem_singleton.1 last
      cases other with
      | condition => trivial
      | index place =>
        have most := coherent.length_children_le
          (coherent.contains_below stored (below_of_descend above))
        rw [step?_index] at stepped
        have inside := (List.getElem?_eq_some_iff.1 stepped).1
        exact Nat.lt_of_lt_of_le inside (most.trans few)

/-- **Paths and nodes correspond one to one.** Every node below the root has a path, which leads to
it. A path that leads to a node leads to one below the root, and is its path. A written path is read
back, as long as no place in it has more digits than are read at all, and no path to a node has, as
long as the nodes can be counted with fewer digits. -/
theorem addresses (isRoot : tree.root = some root) :
    (∀ n ∈ tree.subtree root, ∃ path, tree.path n = .ok path ∧ tree.resolve path = .ok n) ∧
      (∀ path n, tree.resolve path = .ok n → n ∈ tree.subtree root ∧ tree.path n = .ok path ∧
        (tree.cells.size ≤ 10 ^ Text.digitLimit → Path.read path.text = .ok path)) ∧
      ∀ path : Path, Path.read path.text = .ok path ↔ ∀ step ∈ path, step.Short := by
  have stored := (coherent.root root isRoot).1
  refine ⟨fun n member => ?_, fun path n reached => ?_, fun path => Path.read_text⟩
  · obtain ⟨path, reached⟩ := exists_descend_of_below (below_of_mem_subtreeWithin member)
    exact ⟨path, coherent.path_of_descend isRoot reached,
      (coherent.resolve_eq isRoot path).trans reached⟩
  · rw [coherent.resolve_eq isRoot] at reached
    exact ⟨(coherent.mem_subtree stored).2 (below_of_descend reached),
      coherent.path_of_descend isRoot reached,
      fun few => Path.read_text.2 (coherent.short_of_descend few stored reached)⟩

end Coherent

/-- In a loop, the argument of the call that is its condition. -/
theorem addresses_argument : ∃ tree : Tree, tree.Coherent ∧
    tree.path ⟨.reference, 4⟩ = .ok [.index 0, .condition, .index 0] ∧
      tree.resolve [.index 0, .condition, .index 0] = .ok ⟨.reference, 4⟩ ∧
      Path.read (Path.text [.index 0, .condition, .index 0]) =
        .ok [.index 0, .condition, .index 0] := by
  let argument : Node := .mk .reference [("variable_name", .text "x")] none [] []
  let call : Node := .mk .call [("function_name", .text "f")] none [argument] []
  let node : Node := .mk .compilationUnit [] none [.mk .whileLoop [] (some call) [] []] []
  obtain ⟨first, built⟩ : ∃ tree, tree = (empty "t" {}).perform (.build node.toJson) := ⟨_, rfl⟩
  have reachable : first.Reachable := built ▸ .call (.build node.toJson) (.empty _ _) trivial
  have inside : first.contains ⟨.compilationUnit, 1⟩ := by
    rw [built]
    cbv
  obtain ⟨second, rooted⟩ : ∃ tree, tree = first.perform (.setRoot ⟨.compilationUnit, 1⟩) :=
    ⟨_, rfl⟩
  have reachable : second.Reachable := rooted ▸ reachable.call (.setRoot _) inside
  have isRoot : second.root = some ⟨.compilationUnit, 1⟩ := by
    rw [rooted, built]
    cbv
  have found : second.resolve [.index 0, .condition, .index 0] = .ok ⟨.reference, 4⟩ := by
    rw [rooted, built]
    cbv
  have size : second.cells.size = 4 := by
    rw [rooted, built]
    cbv
  have coherent := coherent_of_reachable reachable
  obtain ⟨-, addressed, -⟩ := coherent.addresses isRoot
  obtain ⟨-, path, read⟩ := addressed _ _ found
  refine ⟨second, coherent, path, found, read ?_⟩
  calc second.cells.size = 4 := size
    _ ≤ 10 ^ 1 := by decide
    _ ≤ 10 ^ Text.digitLimit := Nat.pow_le_pow_right (by decide) (by decide)

end Tree

end Verbatim
