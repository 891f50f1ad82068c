import Verbatim.Proofs.Tree.Growth

/-!
# Values of nodes

What a node looks like with everything below it. Where nothing below a node lies below itself, the
walk down takes fewer steps than there are nodes, so that the value of a node is put together from
the values of what it owns. It depends on contents only: moving subtrees in and out of the store leaves all values, and so does
growing for the nodes that were there.

## Main definitions

* `Tree.attributes`: the attributes of a node by name
* `Tree.Matches`: the same nodes hold the same

## Main results

* `Tree.Founded.view_eq`: **the value of a node from the values right below it**
* `Tree.Matches.view`, `Tree.Grown.view`: what leaves values as they are
* `Tree.Founded.all_view`, `Tree.Founded.of_all_view`: a property of a value and everything below it
-/

namespace Verbatim

namespace Tree

open Relation

variable {tree other : Tree} {id x p : NodeId} {steps more : Nat}

/-- The attributes of a node that were ever set. -/
def attributes (tree : Tree) (id : NodeId) : List (String × Json) :=
  match tree.cell? id with
  | some cell => cell.attributes
  | none => []

theorem lookup_attributes (tree : Tree) (id : NodeId) (name : String) :
    (tree.attributes id).lookup name = tree.attribute? id name := by
  unfold attributes attribute?
  cases tree.cell? id <;> rfl

section Congruence

variable (same : other.contents? id = tree.contents? id)
include same

theorem attributes_congr : other.attributes id = tree.attributes id := by
  have equal := match_congr same Cell.attributes fun _ => rfl
  unfold attributes
  cases first : other.cell? id <;> cases second : tree.cell? id <;> simp_all

theorem gaps_congr : other.gaps id = tree.gaps id := by
  have equal := match_congr same Cell.gaps fun _ => rfl
  unfold gaps
  cases first : other.cell? id <;> cases second : tree.cell? id <;> simp_all

theorem outline_congr : other.outline id = tree.outline id := by
  rw [outline, outline, operator?_congr same]

end Congruence

/-! ### Walking down -/

/-- A walk that may go on, in terms of what the node holds. -/
theorem viewWithin_succ (tree : Tree) (steps : Nat) (id : NodeId) :
    tree.viewWithin (steps + 1) id = .mk id.kind (tree.attributes id)
      ((tree.condition? id).map (tree.viewWithin steps))
      ((tree.children id).map (tree.viewWithin steps)) (tree.gaps id) := by
  rw [viewWithin, attributes, condition?, children, gaps]
  cases found : tree.cell? id with
  | none => rfl
  | some cell =>
    rw [← kind_of_cell? found]
    rfl

theorem viewWithin_of_not_made (missing : ¬ tree.Made id) (steps : Nat) :
    tree.viewWithin steps id = .mk id.kind [] none [] [] := by
  cases steps with
  | zero => rfl
  | succ steps =>
    have nothing : tree.cell? id = none :=
      Option.eq_none_iff_forall_ne_some.2 fun cell found => missing ⟨cell, found⟩
    rw [viewWithin, nothing]

theorem Made.height_pos (made : tree.Made id) : 0 < tree.height id :=
  Nat.zero_lt_of_lt
    (@count_lt tree id (fun _ => False) (tree.Below id) (fun _ => False.elim) made .refl not_false)

theorem kind_view (tree : Tree) (id : NodeId) : (tree.view id).kind = id.kind := by
  rw [view, viewWithin_succ, Node.kind]

namespace Founded

variable (founded : tree.Founded id)
include founded

/-- More steps than there are nodes below change nothing. -/
theorem viewWithin_eq (enough : tree.height id ≤ steps) (enoughToo : tree.height id ≤ more) :
    tree.viewWithin steps id = tree.viewWithin more id := by
  by_cases made : tree.Made id
  · have positive := made.height_pos
    induction steps generalizing id more with
    | zero => omega
    | succ steps ih =>
      obtain ⟨more, rfl⟩ := Nat.exists_eq_succ_of_ne_zero (show more ≠ 0 by omega)
      have below (x : NodeId) (owns : tree.Owns id x) :
          tree.viewWithin steps x = tree.viewWithin more x := by
        have lower := founded.height_lt owns
        by_cases madeToo : tree.Made x
        · exact ih (founded.of_owns owns) (by omega) (by omega) madeToo madeToo.height_pos
        · rw [viewWithin_of_not_made madeToo, viewWithin_of_not_made madeToo]
      rw [viewWithin_succ, viewWithin_succ,
        Option.map_congr fun x member => below x (owns_condition member),
        List.map_congr_left fun x member => below x (owns_child member)]
  · rw [viewWithin_of_not_made made, viewWithin_of_not_made made]

/-- **The value of a node from the values right below it.** -/
theorem view_eq : tree.view id = .mk id.kind (tree.attributes id)
    ((tree.condition? id).map tree.view) ((tree.children id).map tree.view) (tree.gaps id) := by
  have below (x : NodeId) (owns : tree.Owns id x) :
      tree.viewWithin tree.cells.size x = tree.view x :=
    (founded.of_owns owns).viewWithin_eq (tree.height_le x) (Nat.le_succ_of_le (tree.height_le x))
  rw [view, viewWithin_succ, Option.map_congr fun x member => below x (owns_condition member),
    List.map_congr_left fun x member => below x (owns_child member)]

theorem all_view {property : Node → Prop} (each : ∀ x, tree.Below id x → property (tree.view x)) :
    (tree.view id).All property := by
  induction height : tree.height id using Nat.strong_induction_on generalizing id with
  | _ height ih =>
    have inner (x : NodeId) (owns : tree.Owns id x) : (tree.view x).All property := by
      have lower := founded.height_lt owns
      exact ih _ (by omega) (founded.of_owns owns) (fun y below => each y (.head owns below)) rfl
    have here := each id .refl
    rw [founded.view_eq] at here ⊢
    refine .mk here (fun below member => ?_) (fun below member => ?_)
    · obtain ⟨x, found, rfl⟩ := Option.map_eq_some_iff.1 member
      exact inner x (owns_condition found)
    · obtain ⟨x, found, rfl⟩ := List.mem_map.1 member
      exact inner x (owns_child found)

/-- A property of a value and everything below it is one of every node below. -/
theorem of_all_view {property : Node → Prop} (all : (tree.view id).All property)
    (below : tree.Below id x) : property (tree.view x) := by
  induction below using ReflTransGen.head_induction_on with
  | refl => exact all.here
  | head owns _ ih =>
    refine ih (founded.of_owns owns) ?_
    rw [founded.view_eq] at all
    obtain ⟨-, condition, children⟩ := all
    rcases List.mem_append.1 owns with slot | child
    · exact condition _ (Option.mem_map_of_mem _ (Option.mem_toList.1 slot))
    · exact children _ (List.mem_map_of_mem child)

end Founded

namespace Forest

variable (forest : tree.Forest)
include forest

theorem view_eq (id : NodeId) : tree.view id = .mk id.kind (tree.attributes id)
    ((tree.condition? id).map tree.view) ((tree.children id).map tree.view) (tree.gaps id) :=
  (forest.founded id).view_eq

theorem outline_view (id : NodeId) : (tree.view id).outline = tree.outline id := by
  have same : (tree.view id).operator? = tree.operator? id := by
    rw [Node.operator?, Node.attribute?, forest.view_eq, Node.attributes, lookup_attributes,
      operator?]
    cases found : tree.attribute? id "operator" with
    | none => rfl
    | some value => cases value <;> rfl
  rw [Node.outline, outline, same, kind_view]

end Forest

/-! ### What leaves values -/

theorem viewWithin_congr (same : ∀ x, tree.Below id x → other.contents? x = tree.contents? x)
    (steps : Nat) : other.viewWithin steps id = tree.viewWithin steps id := by
  induction steps generalizing id with
  | zero => rfl
  | succ steps ih =>
    have here := same id .refl
    have below (x : NodeId) (owns : tree.Owns id x) :
        other.viewWithin steps x = tree.viewWithin steps x :=
      ih fun y below => same y (.head owns below)
    rw [viewWithin_succ, viewWithin_succ, attributes_congr here, condition?_congr here,
      children_congr here, gaps_congr here,
      Option.map_congr fun x member => below x (owns_condition member),
      List.map_congr_left fun x member => below x (owns_child member)]

/-- The same nodes hold the same. Nothing is said of the store, the links, and all that is beside the
cells. -/
structure Matches (tree other : Tree) : Prop where
  size : other.cells.size = tree.cells.size
  contents : ∀ id, other.contents? id = tree.contents? id

theorem Alike.matches (alike : tree.Alike other) : tree.Matches other :=
  ⟨alike.size, alike.contents⟩

namespace Matches

theorem refl (tree : Tree) : tree.Matches tree :=
  ⟨rfl, fun _ => rfl⟩

section

variable (same : tree.Matches other)
include same

theorem symm : other.Matches tree :=
  ⟨same.size.symm, fun id => (same.contents id).symm⟩

theorem trans {third : Tree} (further : other.Matches third) : tree.Matches third :=
  ⟨further.size.trans same.size, fun id => (further.contents id).trans (same.contents id)⟩

theorem made : other.Made id ↔ tree.Made id :=
  made_congr (same.contents id)

theorem children : other.children id = tree.children id :=
  children_congr (same.contents id)

theorem condition? : other.condition? id = tree.condition? id :=
  condition?_congr (same.contents id)

theorem directNodes : other.directNodes id = tree.directNodes id :=
  directNodes_congr (same.contents id)

theorem owns : other.Owns = tree.Owns := by
  funext p x
  rw [Owns, Owns, same.directNodes]

theorem below : other.Below = tree.Below := by
  rw [Below, Below, same.owns]

/-- Trees with the same contents show the same values. -/
theorem view (id : NodeId) : other.view id = tree.view id := by
  rw [Tree.view, Tree.view, same.size]
  exact viewWithin_congr (fun x _ => same.contents x) _

end

end Matches

/-- A node that was there before a tree grew looks as it did. -/
theorem Grown.view (grown : tree.Grown other) (forest : tree.Forest)
    (old : id.number ≤ tree.cells.size) (larger : tree.cells.size ≤ other.cells.size) :
    other.view id = tree.view id := by
  have oldBelow (x : NodeId) (below : tree.Below id x) : x.number ≤ tree.cells.size := by
    obtain rfl | ⟨p, -, owns⟩ := below.cases_owner
    · exact old
    · exact (forest.made owns).number_le
  have bound := tree.height_le id
  rw [Tree.view, Tree.view, viewWithin_congr fun x below => grown.contents (oldBelow x below)]
  exact (forest.founded id).viewWithin_eq (by omega) (by omega)

end Tree

end Verbatim
