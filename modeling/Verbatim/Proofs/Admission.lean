import Verbatim.Proofs.Rebuilding
import Verbatim.Proofs.Refusals
import Verbatim.Proofs.Tree.Places

/-!
# Edits ask no more than builds

The checks of an edit look at one slot, those of a build at whole raw trees. Both draw the same line:
where the links allow an edit and it is refused all the same, the raw value that the edit would have
led to is refused by a build as well, at whatever node.

An operator is what makes this more than a matter of one node. A new one is checked against the
operands of the node and against the place of the node under its parent, so the raw value has to be
that of the topmost node: the node's own raw value would be built.

## Main definitions

* `Tree.Linkable`, `Edit.Linked`: the links allow the edit
* `Edit.revise`: the edit, made in the value of its receiver

## Main results

* `Edit.settable_of_fit`, `Edit.checkAddChild_of_fit`, `Edit.checkRemoveChild_of_fit`,
  `Edit.checkReplaceChild_of_fit`, `Edit.checkCondition_of_fit`: what would be fit passes the check
* `Edit.build_error_of_error`: **what an edit refuses, a build refuses**
-/

namespace Verbatim

open Relation

namespace Tree

variable {tree : Tree} {p x : NodeId}

/-- The node was made in the tree, has no parent, is not the root, and is not among the nodes above
the receiver. -/
structure Linkable (tree : Tree) (p x : NodeId) : Prop where
  made : tree.Made x
  free : tree.parent? x = none
  notRoot : tree.root ≠ some x
  apart : x ∉ tree.lineage p

theorem Linkable.known (linkable : tree.Linkable p x) : (Candidate.own x).Known tree :=
  linkable.made

theorem Linkable.linkRefusal? (linkable : tree.Linkable p x) :
    tree.linkRefusal? p (.own x) = .ok x :=
  linkRefusal?_eq_ok.2 ⟨rfl, linkable.free, linkable.notRoot, linkable.apart⟩

end Tree

namespace Edit

/-- The links allow the edit: the child to remove or to replace is one, the node to put somewhere can
be linked there, and the place is in range. -/
def Linked (tree : Tree) : Edit → Prop
  | setAttribute p name _ => name ∈ p.kind.attributes
  | addChild p child index => ∃ x, child = .own x ∧ tree.Linkable p x ∧
    ∀ place ∈ index, 0 ≤ place ∧ place ≤ (tree.children p).length
  | removeChild p child => ∃ x, child = .own x ∧ x ∈ tree.children p
  | replaceChild p old new => ∃ x y, old = .own x ∧ new = .own y ∧ x ∈ tree.children p ∧
    tree.Linkable p y
  | setCondition p condition => p.kind.hasCondition ∧ ∃ x, condition = .own x ∧ tree.Linkable p x
  | setConditionText .. => False

/-- The edit, made in the value of its receiver. -/
def revise (tree : Tree) : Edit → Node → Node
  | setAttribute _ name value, .mk kind attributes condition children gaps =>
    .mk kind (Json.insertField name value attributes) condition children gaps
  | addChild _ (.own x) index, .mk kind attributes condition children gaps =>
    let place := (index.map Int.toNat).getD children.length
    .mk kind attributes condition (children.insertIdx place (tree.view x)) gaps
  | removeChild p (.own x), .mk kind attributes condition children gaps =>
    let place := (tree.position? p x).getD children.length
    .mk kind attributes condition (children.eraseIdx place) gaps
  | replaceChild p (.own x) (.own y), .mk kind attributes condition children gaps =>
    let place := (tree.position? p x).getD children.length
    .mk kind attributes condition (children.set place (tree.view y)) gaps
  | setCondition _ (.own x), .mk kind attributes _ children gaps =>
    .mk kind attributes (some (tree.view x)) children gaps
  | _, node => node

variable {tree : Tree} {p x y : NodeId} {strict : Bool}

/-! ### What would be fit passes the check -/

/-- What is asked of the children that a node would have. -/
theorem takesChildren_of_fit (forest : tree.Forest) {condition : Option Node} {gaps : Gaps}
    {children : List NodeId}
    (fit : (Node.mk p.kind (tree.attributes p) condition (children.map tree.view) gaps).Fit strict) :
    p.kind.TakesChildren strict (tree.operator? p) (children.map tree.outline) := by
  have operator : (tree.view p).operator? = tree.operator? p :=
    (Prod.mk.inj (forest.outline_view p)).2
  rw [forest.view_eq] at operator
  have outlines : (children.map tree.view).map Node.outline = children.map tree.outline := by
    rw [List.map_map]
    exact List.map_congr_left fun x _ => forest.outline_view x
  have takes := fit.children
  rw [Node.children, outlines] at takes
  exact operator ▸ takes

section Attribute

variable {name : String} {value : Json}

theorem mem_insertField_self (fields : List (String × Json)) :
    (name, value) ∈ Json.insertField name value fields := by
  refine Node.mem_of_lookup ?_
  rw [Tree.lookup_insertField, if_pos rfl]

/-- How the receiver would look under its parent. -/
theorem outline_revise (forest : tree.Forest) (good : ∃ text, value = .text text)
    (operator : name = "operator") :
    ((setAttribute p name value).revise tree (tree.view p)).outline =
      (p.kind, some value.plainText) := by
  obtain ⟨text, rfl⟩ := good
  rw [forest.view_eq, revise, Node.outline, Node.operator?, Node.attribute?, Node.attributes,
    Tree.lookup_insertField, if_pos operator.symm]
  rfl

/-- What is asked of the receiver under its parent. -/
theorem operandProblem?_of_fit (forest : tree.Forest) {q : NodeId} {place : Nat}
    {change : Node → Node} (spot : tree.position? q p = some place)
    (fit : ((tree.view q).update change [.index place]).Fit strict) :
    operandProblem? q.kind (tree.operator? q) place (change (tree.view p)).outline.1
      (change (tree.view p)).outline.2 = none := by
  by_cases chain : q.kind = .ifElse
  · rw [chain]
    rfl
  · have operator : (tree.view q).operator? = tree.operator? q :=
      (Prod.mk.inj (forest.outline_view q)).2
    have arranged := fit.children.arranged
    rw [forest.view_eq] at operator arranged
    refine (Tree.arrangement_eq_none chain).1 (operator ▸ arranged) place _ ?_
    rw [List.getElem?_map, Node.update, Node.children, List.getElem?_modify_eq, List.getElem?_map,
      Tree.getElem?_of_position? spot]
    rfl

/-- An attribute can be set if the receiver and its parent would be fit. -/
theorem settable_of_fit (forest : tree.Forest) (linked : (setAttribute p name value).Linked tree)
    (fit : ((setAttribute p name value).revise tree (tree.view p)).Fit tree.settings.strictStructure)
    (above : ∀ q place, tree.parent? p = some q → tree.position? q p = some place →
      ((tree.view q).update ((setAttribute p name value).revise tree) [.index place]).Fit
        tree.settings.strictStructure) :
    tree.Settable p name value := by
  have good : attributeProblem? p.kind name value = none := by
    rw [forest.view_eq, revise] at fit
    exact fit.own.good _ (mem_insertField_self _)
  have outline (operator : name = "operator") :=
    outline_revise (p := p) forest (Node.exists_text_of_good good) operator
  refine ⟨linked, good, fun operator => ?_, fun operator q place parent spot => ?_⟩
  · obtain ⟨kind, operator⟩ := Prod.mk.inj (outline operator)
    have arranged := fit.children.arranged
    have outlines : ((setAttribute p name value).revise tree (tree.view p)).children.map
        Node.outline = (tree.children p).map tree.outline := by
      rw [forest.view_eq, revise, Node.children, List.map_map]
      exact List.map_congr_left fun x _ => forest.outline_view x
    rwa [kind, operator, outlines] at arranged
  · have binds := operandProblem?_of_fit forest spot (above q place parent spot)
    rwa [outline operator] at binds

end Attribute

section Checks

variable (ready : tree.Ready)
include ready

theorem checkAddChild_of_fit {index : Option Int} (linked : (addChild p (.own x) index).Linked tree)
    (fit : ((addChild p (.own x) index).revise tree (tree.view p)).Fit
      tree.settings.strictStructure) :
    ∃ found, tree.checkAddChild p (.own x) index = .ok found := by
  obtain ⟨_, ⟨rfl⟩, linkable, inside⟩ := linked
  have forest := ready.sound.toForest
  obtain ⟨place, spot, same⟩ : ∃ place, tree.newPlace p index = .ok place ∧
      (index.map Int.toNat).getD (tree.children p).length = place := by
    cases index with
    | none => exact ⟨_, rfl, rfl⟩
    | some index => exact ⟨index.toNat, if_pos (inside index rfl), rfl⟩
  have bound := Tree.newPlace_le spot
  rw [forest.view_eq, revise, List.length_map, same, ← List.map_insertIdx] at fit
  have takes := takesChildren_of_fit forest fit
  have member : x ∈ (tree.children p).insertIdx place x := (List.mem_insertIdx bound).2 (.inl rfl)
  refine ⟨(x, place), Tree.checkAddChild_eq_ok.2 ⟨Tree.attachRefusal?_eq_ok.2
    ⟨linkable.linkRefusal?, fun hstrict => ?_⟩, fun limit most => ?_, spot, ?_⟩⟩
  · exact takes.accepted hstrict (tree.outline x) (List.mem_map_of_mem member)
  · have few := takes.count.2 limit most
    rw [List.length_map, List.length_insertIdx_of_le_length bound] at few
    exact few
  · exact (Tree.checkArrangement_eq_ok ready.calm).2 takes.arranged

theorem checkRemoveChild_of_fit (linked : (removeChild p (.own x)).Linked tree)
    (fit : ((removeChild p (.own x)).revise tree (tree.view p)).Fit tree.settings.strictStructure) :
    ∃ found, tree.checkRemoveChild p (.own x) = .ok found := by
  obtain ⟨_, ⟨rfl⟩, member⟩ := linked
  have forest := ready.sound.toForest
  obtain ⟨place, spot⟩ := Tree.exists_position? member
  have inside := (List.getElem?_eq_some_iff.1 (Tree.getElem?_of_position? spot)).1
  rw [forest.view_eq, revise, spot, Option.getD_some, List.eraseIdx_map] at fit
  have takes := takesChildren_of_fit forest fit
  refine ⟨(x, place), Tree.checkRemoveChild_eq_ok.2 ⟨rfl, spot, fun _ => ?_, ?_⟩⟩
  · have many := takes.count.1
    rw [List.length_map, List.length_eraseIdx_of_lt inside] at many
    omega
  · exact (Tree.checkArrangement_eq_ok ready.calm).2 takes.arranged

theorem checkReplaceChild_of_fit (linked : (replaceChild p (.own x) (.own y)).Linked tree)
    (fit : ((replaceChild p (.own x) (.own y)).revise tree (tree.view p)).Fit
      tree.settings.strictStructure) :
    ∃ found, tree.checkReplaceChild p (.own x) (.own y) = .ok found := by
  obtain ⟨_, _, ⟨rfl⟩, ⟨rfl⟩, member, linkable⟩ := linked
  have forest := ready.sound.toForest
  obtain ⟨place, spot⟩ := Tree.exists_position? member
  have inside := (List.getElem?_eq_some_iff.1 (Tree.getElem?_of_position? spot)).1
  rw [forest.view_eq, revise, spot, Option.getD_some, ← List.map_set] at fit
  have takes := takesChildren_of_fit forest fit
  have new : y ∈ (tree.children p).set place y := List.mem_set inside y
  refine ⟨(x, y, place), Tree.checkReplaceChild_eq_ok.2 ⟨rfl, spot, Tree.attachRefusal?_eq_ok.2
    ⟨linkable.linkRefusal?, fun hstrict => ?_⟩, ?_⟩⟩
  · exact takes.accepted hstrict (tree.outline y) (List.mem_map_of_mem new)
  · exact (Tree.checkArrangement_eq_ok ready.calm).2 takes.arranged

theorem checkCondition_of_fit (linked : (setCondition p (.own x)).Linked tree)
    (fit : ((setCondition p (.own x)).revise tree (tree.view p)).Fit
      tree.settings.strictStructure) :
    ∃ found, tree.checkCondition p (.own x) = .ok found := by
  obtain ⟨-, _, ⟨rfl⟩, linkable⟩ := linked
  have forest := ready.sound.toForest
  rw [forest.view_eq, revise] at fit
  obtain ⟨expression, noConnector⟩ := fit.condition.expression (tree.view x).kind rfl
  rw [tree.kind_view] at expression noConnector
  exact ⟨x, Tree.checkCondition_eq_ok.2 ⟨linkable.linkRefusal?, expression,
    Tree.strength?_ne_zero expression noConnector⟩⟩

/-- What the edit makes of its receiver shows all that raw values rely on. -/
theorem written_revise {edit : Edit} (made : tree.Made edit.receiver) (linked : edit.Linked tree) :
    (edit.revise tree (tree.view edit.receiver)).All Node.Written := by
  have forest := ready.sound.toForest
  have written {x : NodeId} (made : tree.Made x) : (tree.view x).All Node.Written :=
    (ready.fitting.view forest made).imp fun _ fit => fit.written
  have whole := written made
  rw [forest.view_eq] at whole ⊢
  obtain ⟨here, condition, children⟩ := whole
  cases edit with
  | setAttribute p name value =>
    have own : name ∈ p.kind.attributes := linked
    rw [← show (tree.attributes p).map Prod.fst = p.kind.attributes from here.names] at own
    exact .mk ⟨(Tree.map_fst_insertField own).trans here.names, here.slot, here.gaps⟩ condition
      children
  | addChild p candidate index =>
    obtain ⟨x, rfl, linkable, -⟩ := linked
    refine .mk ⟨here.names, here.slot, here.gaps⟩ condition fun below member => ?_
    rcases List.eq_or_mem_of_mem_insertIdx member with rfl | before
    · exact written linkable.made
    · exact children below before
  | removeChild p candidate =>
    obtain ⟨x, rfl, -⟩ := linked
    exact .mk ⟨here.names, here.slot, here.gaps⟩ condition fun below member =>
      children below (List.mem_of_mem_eraseIdx member)
  | replaceChild p old candidate =>
    obtain ⟨x, y, rfl, rfl, -, linkable⟩ := linked
    refine .mk ⟨here.names, here.slot, here.gaps⟩ condition fun below member => ?_
    rcases List.mem_or_eq_of_mem_set member with before | rfl
    · exact children below before
    · exact written linkable.made
  | setCondition p candidate =>
    obtain ⟨has, x, rfl, linkable⟩ := linked
    refine .mk ⟨here.names, fun absent => ?_, here.gaps⟩ (fun below member => ?_) children
    · exact absurd (has.symm.trans absent) Bool.noConfusion
    · exact Option.some.inj member ▸ written linkable.made
  | setConditionText p text => exact linked.elim

/-- **An edit does not fail where its result would be fit**, at the receiver and right above it. -/
theorem ne_error_of_fit {edit : Edit} (made : tree.Made edit.receiver) (linked : edit.Linked tree)
    (fit : (edit.revise tree (tree.view edit.receiver)).Fit tree.settings.strictStructure)
    (above : ∀ q place, tree.parent? edit.receiver = some q →
      tree.position? q edit.receiver = some place →
        ((tree.view q).update (edit.revise tree) [.index place]).Fit tree.settings.strictStructure)
    (error : Tree.ConditionTextError) : (edit.apply tree).2 ≠ .error error := by
  intro refused
  have traced := ready.sound.traced
  cases edit with
  | setAttribute p name value =>
    obtain ⟨refusal, failed⟩ := refusal_of_error refused
    obtain ⟨-, cause, wrong⟩ := traced.linked.setAttribute_error failed
    have settable := settable_of_fit ready.sound.toForest linked fit above
    rw [settable.attributeRefusal?] at wrong
    contradiction
  | addChild p candidate index =>
    obtain ⟨x, rfl, linkable, -⟩ := id linked
    obtain ⟨refusal, failed⟩ := refusal_of_error refused
    obtain ⟨-, cause, wrong⟩ := traced.linked.addChild_error (p := p) made failed
    obtain ⟨found, passed⟩ := checkAddChild_of_fit ready linked fit
    rw [passed] at wrong
    contradiction
  | removeChild p candidate =>
    obtain ⟨x, rfl, -⟩ := id linked
    obtain ⟨refusal, failed⟩ := refusal_of_error refused
    obtain ⟨-, cause, wrong⟩ := traced.linked.removeChild_error (p := p) made failed
    obtain ⟨found, passed⟩ := checkRemoveChild_of_fit ready linked fit
    rw [passed] at wrong
    contradiction
  | replaceChild p old candidate =>
    obtain ⟨x, y, rfl, rfl, -, linkable⟩ := id linked
    obtain ⟨refusal, failed⟩ := refusal_of_error refused
    obtain ⟨-, cause, wrong⟩ := traced.linked.replaceChild_error (p := p) made failed
    obtain ⟨found, passed⟩ := checkReplaceChild_of_fit ready linked fit
    rw [passed] at wrong
    contradiction
  | setCondition p candidate =>
    obtain ⟨-, x, rfl, linkable⟩ := id linked
    obtain ⟨refusal, failed, -⟩ := mapError_eq_error.1 refused
    replace failed : (tree.setCondition p (.own x)).2 = .error refusal := failed
    obtain ⟨-, cause, wrong⟩ := traced.linked.setCondition_error (p := p) made failed
    obtain ⟨found, passed⟩ := checkCondition_of_fit ready linked fit
    rw [passed] at wrong
    contradiction
  | setConditionText p text => exact linked.elim

end Checks

/-! ### What is refused -/

/-- **What an edit refuses, a build refuses**: the raw value of the topmost node above the receiver,
with the edit made in it. -/
theorem build_error_of_error {label : String} {settings : Settings} {raw : Json} {first : Tree}
    {edit : Edit} {error : Tree.ConditionTextError}
    (built : Tree.ofRaw label settings raw = .ok first) (works : ReflTransGen Tree.Works first tree)
    (made : tree.Made edit.receiver) (linked : edit.Linked tree)
    (refused : (edit.apply tree).2 = .error error) :
    ∃ top path, (tree.lineage edit.receiver).getLast? = some top ∧
      tree.path edit.receiver = .ok path ∧
      (tree.view top).at? path = some (tree.view edit.receiver) ∧
      ∀ other : Tree, other.settings = settings → ∃ failure,
        (other.build ((tree.view top).update (edit.revise tree) path).toJson).2 = .error failure := by
  obtain ⟨ready, same, -⟩ := Tree.ready_of_ofRaw built
  obtain ⟨ready, frame⟩ := ready.works works
  have forest := ready.sound.toForest
  obtain ⟨path, found⟩ := ready.sound.path_ok edit.receiver
  obtain ⟨top, last, below, reached⟩ := forest.at?_path found
  refine ⟨top, path, last, found, reached, fun other settings => ?_⟩
  have strict : other.settings = tree.settings := settings.trans (frame.settings.trans same).symm
  cases read : Node.ofRaw other.settings.strictStructure false
      ((tree.view top).update (edit.revise tree) path).toJson with
  | error failure => exact ⟨failure, by rw [Tree.build, read]⟩
  | ok node =>
    -- The raw value is built only if all its nodes are fit, and then the edit is not refused.
    have madeTop : tree.Made top := by
      obtain rfl | ⟨x, owns, -⟩ := ReflTransGen.cases_head below
      · exact made
      · exact owns.made
    have written := (ready.fitting.view forest madeTop).imp fun _ fit => fit.written
    rw [strict] at read
    have written := written.update (fun _ step rest here => here.update step rest) reached
      (written_revise ready made linked)
    have fit := Node.fit_of_ofRaw_toJson written read
    refine absurd refused (ne_error_of_fit ready made linked (fit.at? (Node.at?_update reached)).here
      (fun q place above spot => ?_) error)
    obtain ⟨front, topToo, rfl, lastToo, reached⟩ := forest.at?_path_parent found above spot
    obtain rfl : top = topToo := Option.some.inj (last.symm.trans lastToo)
    rw [Node.update_append] at fit
    exact (fit.at? (Node.at?_update reached)).here

/-- A sum cannot become the first operand of a product, although it is built and nothing is wrong with
its links. -/
theorem build_error_of_error_sum : ∃ (raw : Json) (first tree : Tree) (edit : Edit) (error : _),
    Tree.ofRaw "t" {} raw = .ok first ∧ ReflTransGen Tree.Works first tree ∧
      tree.Made edit.receiver ∧ edit.Linked tree ∧ (edit.apply tree).2 = .error error ∧
      ∃ top path, (tree.lineage edit.receiver).getLast? = some top ∧
        tree.path edit.receiver = .ok path ∧
        (tree.view top).at? path = some (tree.view edit.receiver) ∧
        ∀ other : Tree, other.settings = {} → ∃ failure,
          (other.build ((tree.view top).update (edit.revise tree) path).toJson).2 =
            .error failure := by
  let name (text : String) : Node := .mk .reference [("variable_name", .text text)] none [] []
  let binary (operator : String) (operands : List Node) : Node :=
    .mk .binary [("operator", .text operator)] none operands []
  let node : Node := binary "*" [name "a", name "b"]
  let sum : Node := binary "+" [name "c", name "d"]
  let edit : Edit := .replaceChild ⟨.binary, 1⟩ (.own ⟨.reference, 2⟩) (.own ⟨.binary, 4⟩)
  obtain ⟨first, made⟩ : ∃ tree, tree = { ((Tree.empty "t" {}).plant node).1 with
    root := some ((Tree.empty "t" {}).plant node).2 } := ⟨_, rfl⟩
  have built : Tree.ofRaw "t" {} node.toJson = .ok first :=
    Tree.ofRaw_eq_ok.2 ⟨by cbv, node, by cbv, made⟩
  obtain ⟨tree, grown⟩ : ∃ tree, tree = (first.build sum.toJson).1 := ⟨_, rfl⟩
  have works : ReflTransGen Tree.Works first tree := by
    have numbered : (first.build sum.toJson).2 = .ok ⟨.binary, 4⟩ := by
      rw [made]
      cbv
    exact grown ▸ .single (.build numbered)
  have receiver : tree.Made edit.receiver := by
    refine Tree.made_of_contains ?_
    rw [grown, made]
    cbv
  have linked : edit.Linked tree := by
    refine ⟨_, _, rfl, rfl, ?_, Tree.made_of_contains ?_, ?_, ?_, ?_⟩ <;>
      · rw [grown, made]
        decide
  have refused : (edit.apply tree).2 = .error (.refused ⟨.replaceChild, .arrangement
      (.looseOperand .binary (some "+") (some "*") .left)⟩) := by
    rw [grown, made]
    cbv
  exact ⟨node.toJson, first, tree, edit, _, built, works, receiver, linked, refused,
    build_error_of_error built works receiver linked refused⟩

end Edit

end Verbatim
