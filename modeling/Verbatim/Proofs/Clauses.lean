import Verbatim.Proofs.Build.LaidOut
import Verbatim.Proofs.Locality
import Verbatim.Proofs.Tree.Runs

/-!
# Chains take their clauses one by one

A chain is filled clause by clause, and each clause is checked together with those in front of it.
Whether the last clause is in place is another question with every clause that follows, so a chain
that will be in order might be refused on the way. It is not: clauses in front of others in order
are in order themselves, so the checks on the way ask no more than the last one does.

## Main definitions

* `Node.IsRawClause`, `Node.IsRawChain`: raw clauses, and a raw chain that lists them
* `Tree.Filling`: a chain that has the first of its clauses

## Main results

* `clauseOrder_iff_shape`: what a chain in order looks like
* `Node.IsRawChain.exists_ofRaw`, `Tree.Filling.takeOver`: when a chain is built, and when it is
  filled in its tree
* `Tree.clauses_taken`: **chains take their clauses exactly where all of them are in order**
-/

namespace Verbatim

open Relation

/-! ### Shapes of chains -/

/-- What may go on after a clause: further conditions, and at most one clause without. -/
theorem Node.tailInOrder_iff {kinds : List Kind} : tailInOrder kinds ↔
    ∃ count last, (last = [] ∨ last = [.elseClause]) ∧
      kinds = List.replicate count Kind.elseIfClause ++ last := by
  constructor
  · intro order
    fun_induction tailInOrder kinds with
    | case1 => exact ⟨0, [], .inl rfl, rfl⟩
    | case2 rest ih =>
      obtain ⟨count, last, ends, rfl⟩ := ih order
      exact ⟨count + 1, last, ends, rfl⟩
    | case3 => exact ⟨0, [.elseClause], .inr rfl, rfl⟩
    | case4 => exact order.elim
  · rintro ⟨count, last, ends, rfl⟩
    induction count with
    | zero => obtain rfl | rfl := ends <;> trivial
    | succ count ih => exact ih

/-- Clauses are in order if there are none, or if one opens the chain, any number go on with other
conditions, and at most one without a condition ends it. -/
theorem clauseOrder_iff_shape {kinds : List Kind} : clauseOrderProblem? kinds = none ↔
    kinds = [] ∨ ∃ count last, (last = [] ∨ last = [.elseClause]) ∧
      kinds = .ifClause :: (List.replicate count Kind.elseIfClause ++ last) := by
  constructor
  · intro order
    cases kinds with
    | nil => exact .inl rfl
    | cons kind rest =>
      obtain ⟨tail, same, inOrder⟩ := Node.exists_of_clauseOrder (List.cons_ne_nil kind rest) order
      obtain ⟨count, last, ends, rfl⟩ := Node.tailInOrder_iff.1 inOrder
      exact .inr ⟨count, last, ends, same⟩
  · rintro (rfl | ⟨count, last, ends, rfl⟩)
    · rfl
    · exact Node.clauseOrder_of_tailInOrder (Node.tailInOrder_iff.2 ⟨count, last, ends, rfl⟩)

namespace Node

/-- A raw clause of the given kind: it can be built by itself. -/
def IsRawClause (raw : Json) (kind : Kind) : Prop :=
  kind.category = .clause ∧ ∃ node, ofRaw true false raw = .ok node ∧ node.kind = kind

/-- The fields of a raw chain that lists the given items. It has no gaps. -/
structure IsRawChain (fields : List (String × Json)) (items : List Json) : Prop where
  tag : (Json.object fields).get? "type" = some (.text Kind.ifElse.tag)
  children : (Json.object fields).get? "children" = some (.array items)
  gaps : ∀ raw, (Json.object fields).present? "ws" = some raw → raw = .object []

variable {raw : Json} {kind : Kind} {fields : List (String × Json)} {items : List Json}
  {kinds : List Kind} {strict asChild : Bool} {node : Node}

/-- Definitions apart, a child is built as it would be by itself. -/
theorem ofRaw_child_eq_ok (plain : isConnectorDefinition raw = false) :
    ofRaw strict true raw = .ok node ↔ ofRaw strict false raw = .ok node := by
  have told : rawChildKind raw = rawKind raw := by rw [rawChildKind, plain]; rfl
  cases raw <;> simp only [ofRaw, complete_eq_ok, told] <;> rfl

/-- Nothing but a definition is a definition of a connector. -/
theorem isConnectorDefinition_of_rawKind (told : rawKind raw = .ok kind)
    (other : kind ≠ .definition) : isConnectorDefinition raw = false := by
  unfold isConnectorDefinition
  split
  · next tag _ _ _ type _ =>
    unfold rawKind at told
    grind [Kind.ofTag?_tag]
  · rfl

theorem IsRawClause.exists_child (clause : IsRawClause raw kind) :
    ∃ node, ofRaw true true raw = .ok node ∧ node.kind = kind := by
  obtain ⟨category, node, built, rfl⟩ := clause
  obtain ⟨fields, rfl, parts⟩ := ofRaw_eq_ok.1 built
  have told : rawKind (.object fields) = .ok node.kind := parts.kind
  have plain := isConnectorDefinition_of_rawKind told fun same => by
    rw [same] at category
    contradiction
  exact ⟨node, (ofRaw_child_eq_ok plain).2 built, rfl⟩

/-- Raw clauses are built one by one. -/
theorem exists_clauses (each : List.Forall₂ IsRawClause items kinds) :
    ∃ nodes : List Node, items.map (ofRaw true true) = nodes.map .ok ∧
      nodes.map Node.kind = kinds := by
  induction each with
  | nil => exact ⟨[], rfl, rfl⟩
  | cons clause _ ih =>
    obtain ⟨node, built, rfl⟩ := clause.exists_child
    obtain ⟨nodes, each, rfl⟩ := ih
    exact ⟨node :: nodes, by rw [List.map_cons, built, each]; rfl, rfl⟩

theorem category_of_clauses (each : List.Forall₂ IsRawClause items kinds) :
    ∀ kind ∈ kinds, kind.category = .clause := by
  induction each with
  | nil => exact fun _ member => absurd member List.not_mem_nil
  | cons clause _ ih => exact List.forall_mem_cons.2 ⟨clause.1, ih⟩

theorem takesCount_chain {count : Nat} : Kind.ifElse.takesCount count ↔ 1 ≤ count :=
  ⟨fun takes => takes.1, fun some => ⟨some, fun _ none => absurd none (Option.not_mem_none _)⟩⟩

namespace IsRawChain

variable (chain : IsRawChain fields items)
include chain

theorem told (asChild : Bool) :
    (if asChild then rawChildKind (.object fields) else rawKind (.object fields)) =
      .ok .ifElse := by
  have told : rawKind (.object fields) = .ok .ifElse := by
    rw [rawKind, chain.tag]
    rfl
  have plain := isConnectorDefinition_of_rawKind told Kind.noConfusion
  cases asChild with
  | false => exact told
  | true => rwa [if_pos rfl, rawChildKind, plain]

theorem listed : Node.listed fields = items := by
  have given : fields.lookup "children" = some (.array items) := chain.children
  rw [Node.listed, given]

theorem present : (Json.object fields).present? "children" = some (.array items) := by
  rw [Json.present?, chain.children]

theorem readGaps (gaps : Gaps) (tag : String) :
    Node.readGaps .ifElse tag (.object fields) gaps = .ok gaps := by
  rw [Node.readGaps]
  cases given : (Json.object fields).present? "ws" with
  | none => rfl
  | some raw =>
    rw [chain.gaps raw given]
    rfl

theorem childrenFault?_eq_none (tag : String) (each : List.Forall₂ IsRawClause items kinds) :
    childrenFault? .ifElse tag (.object fields) = none ↔ kinds ≠ [] := by
  rw [Node.childrenFault?_eq_none, chain.listed, takesCount_chain, each.length_eq,
    ← List.length_pos_iff]
  exact and_iff_right fun value given => ⟨items, Option.some.inj (given.symm.trans chain.present)⟩

/-- A chain that was built has its clauses, and they are in order. -/
theorem of_ofRaw (each : List.Forall₂ IsRawClause items kinds)
    (made : ofRaw true asChild (.object fields) = .ok node) :
    node.children.map Node.kind = kinds ∧ kinds ≠ [] ∧ clauseOrderProblem? kinds = none := by
  obtain ⟨nodes, built, rfl⟩ := exists_clauses each
  obtain ⟨_, same, parts⟩ := ofRaw_eq_ok.1 made
  obtain rfl := Json.object.inj same
  have kind : node.kind = .ifElse := Except.ok.inj (parts.kind.symm.trans (chain.told asChild))
  have children := parts.children
  rw [chain.listed, built] at children
  obtain rfl : nodes = node.children :=
    List.map_injective_iff.2 (fun _ _ => Except.ok.inj) children
  have arranged := parts.arranged
  rw [kind, arrangement_chain, List.map_map] at arranged
  have some := parts.count
  rw [chain.listed, kind, takesCount_chain, each.length_eq] at some
  exact ⟨rfl, List.length_pos_iff.1 some, arranged⟩

/-- A chain is built where it has clauses, and they are in order. -/
theorem exists_ofRaw (asChild : Bool) (each : List.Forall₂ IsRawClause items kinds)
    (some : kinds ≠ []) (order : clauseOrderProblem? kinds = none) :
    ∃ node, ofRaw true asChild (.object fields) = .ok node := by
  obtain ⟨nodes, built, rfl⟩ := exists_clauses each
  refine ⟨.mk .ifElse [] none nodes [], ofRaw_eq_ok.2 ⟨fields, rfl, ?_⟩⟩
  exact {
    kind := chain.told asChild
    names := rfl
    attributes := fun _ member => absurd member List.not_mem_nil
    gaps := chain.readGaps [] _
    condition := rfl
    fitting := fun _ member => absurd member (Option.not_mem_none _)
    array := fun value given => ⟨items, Option.some.inj (given.symm.trans chain.present)⟩
    count := by
      rw [chain.listed, each.length_eq]
      exact takesCount_chain.2 (List.length_pos_iff.2 some)
    children := by rw [chain.listed]; exact built
    accepted := fun _ child member => by
      have category := category_of_clauses each child.kind (List.mem_map_of_mem member)
      rw [category]
      rfl
    arranged := (arrangement_chain _ _).trans (by rwa [List.map_map]) }

end IsRawChain

end Node

namespace Tree

variable {tree : Tree} {p chain child : NodeId} {kinds before : List Kind} {items : List Json}
  {fields : List (String × Json)}

/-- A planted node is not above an old one, so it can be put below it. -/
theorem Sound.attachable_plant (sound : tree.Sound) (stored : tree.contains p) (node : Node) :
    (tree.plant node).1.Attachable p (tree.plant node).2 ∧
      (tree.plant node).1.root ≠ some (tree.plant node).2 := by
  have new : tree.cells.size < (tree.plant node).2.number := Nat.lt_succ_self _
  have old := (made_of_contains stored).number_le
  refine ⟨⟨(top_plant tree node).1, (sound.planted node).2, fun below => ?_⟩, fun isRoot => ?_⟩
  · obtain same | path := reflTransGen_iff_eq_or_transGen.1 below
    · rw [same] at old
      omega
    · have := (grown_plant tree node).number_lt new path
      omega
  · have := (made_of_contains (sound.root_stored isRoot).1).number_le
    omega

/-- A chain that is being filled has the clauses of the given kinds so far. -/
structure Filling (tree : Tree) (chain : NodeId) (kinds : List Kind) : Prop where
  sound : tree.Sound
  strict : tree.settings.strictStructure
  stored : tree.contains chain
  kind : chain.kind = .ifElse
  held : (tree.children chain).map NodeId.kind = kinds

namespace Filling

section

variable (filling : tree.Filling chain kinds)
include filling

theorem plant (node : Node) : (tree.plant node).1.Filling chain kinds where
  sound := filling.sound.plant node
  strict := filling.strict
  stored := (grown_plant tree node).contains filling.stored
  kind := filling.kind
  held := by
    have old := (made_of_contains filling.stored).number_le
    rw [children_congr ((grown_plant tree node).contents old)]
    exact filling.held

theorem arrangement (operator : Option String) (children : List NodeId) :
    tree.arrangementProblem? chain operator children =
      clauseOrderProblem? (children.map NodeId.kind) := by
  rw [arrangementProblem?, filling.strict, filling.kind, Node.arrangement_chain, List.map_map]
  rfl

/-- A clause is refused as a child where it is out of order behind those that are there. -/
theorem childFault?_eq_none (tag : String) {node : Node} (clause : node.kind.category = .clause) :
    Node.childFault? tree.settings.strictStructure chain.kind tag (tree.operator? chain)
        ((tree.children chain).map tree.outline) node.outline = none ↔
      clauseOrderProblem? (kinds ++ [node.kind]) = none := by
  have same : ((tree.children chain).map tree.outline ++ [node.outline]).map Prod.fst =
      kinds ++ [node.kind] := by
    rw [List.map_append, List.map_map, ← filling.held]
    rfl
  rw [Node.childFault?_eq_none, filling.strict, filling.kind, Node.arrangement_chain, same]
  refine and_iff_right fun _ => ?_
  rw [Node.outline, clause]
  rfl

/-- Clauses in order are added. -/
theorem addChild (attachable : tree.Attachable chain child) (notRoot : tree.root ≠ some child)
    (clause : child.kind.category = .clause)
    (order : clauseOrderProblem? (kinds ++ [child.kind]) = none) :
    ∃ change, (tree.addChild chain (.own child) none).2 = .ok change ∧
      (tree.addChild chain (.own child) none).1.Filling chain (kinds ++ [child.kind]) := by
  have made := made_of_contains filling.stored
  have behind : (tree.children chain).insertIdx (tree.children chain).length child =
      tree.children chain ++ [child] := List.insertIdx_length_self
  have checked : tree.checkAddChild chain (.own child) none =
      .ok (child, (tree.children chain).length) := by
    refine checkAddChild_eq_ok.2 ⟨attachRefusal?_eq_ok.2
      ⟨filling.sound.linkRefusal?_own filling.stored attachable notRoot, fun _ => ?_⟩, ?_, rfl, ?_⟩
    · rw [filling.kind, clause]
      rfl
    · intro limit most
      rw [filling.kind] at most
      exact absurd most (Option.not_mem_none _)
    · rw [checkArrangement, filling.arrangement, behind, List.map_append, filling.held,
        List.map_singleton, order, ite_self]
  have usable : (Candidate.own child).Usable tree := .inr ⟨attachable.made, attachable.loose⟩
  have sound := filling.sound.addChild filling.stored usable none
  rw [Tree.addChild, checked] at sound ⊢
  obtain ⟨path, found⟩ := sound.path_ok chain
  refine ⟨_, congrArg (Except.map _) found, sound, ?_, ?_, filling.kind, ?_⟩
  · exact (SameFrame.insertChild tree chain child _).settings ▸ filling.strict
  · refine contains_adopt ?_
    rw [storeChildren, (tables_modify (Cell.inner_children _)).1]
    exact filling.stored
  · show ((tree.insertChild chain child _).children chain).map NodeId.kind = _
    rw [insertChild, (Alike.adopt _ child chain).children, children_storeChildren made, behind,
      List.map_append, filling.held, List.map_singleton]

end

/-- **Clause by clause, those in order are taken over.** -/
theorem takeChildren (filling : tree.Filling chain before) (tag : String)
    (each : List.Forall₂ Node.IsRawClause items kinds)
    (inOrder : clauseOrderProblem? before = none) :
    ((tree.takeChildren chain tag items).2 = .ok () ↔
        clauseOrderProblem? (before ++ kinds) = none) ∧
      ((tree.takeChildren chain tag items).2 = .ok () →
        (tree.takeChildren chain tag items).1.Filling chain (before ++ kinds)) := by
  induction each generalizing tree before with
  | nil =>
    rw [List.append_nil]
    exact ⟨iff_of_true rfl inOrder, fun _ => filling⟩
  | @cons raw kind rest others clause _ ih =>
    obtain ⟨node, built, rfl⟩ := clause.exists_child
    have whole : before ++ node.kind :: others = before ++ [node.kind] ++ others := by simp
    rw [whole, Tree.takeChildren, filling.strict, built]
    dsimp only
    by_cases order : clauseOrderProblem? (before ++ [node.kind]) = none
    · have fits := (filling.childFault?_eq_none tag clause.1).2 order
      obtain ⟨attachable, notRoot⟩ := filling.sound.attachable_plant filling.stored node
      obtain ⟨change, worked, filled⟩ := (filling.plant node).addChild attachable notRoot clause.1
        order
      have same : (tree.plant node).1.addChild chain (.own (tree.plant node).2) none =
        (_, .ok change) := Prod.ext rfl worked
      rw [filling.strict] at fits
      rw [fits]
      dsimp only
      rw [same]
      exact ih filled order
    · have wrong := mt (filling.childFault?_eq_none tag clause.1).1 order
      obtain ⟨error, fault⟩ := Option.ne_none_iff_exists'.1 wrong
      rw [filling.strict] at fault
      rw [fault]
      -- The clauses up to here are out of order, and so are all clauses.
      exact ⟨iff_of_false nofun fun all => order (Node.clauseOrder_of_append all), nofun⟩

/-- The gaps of a chain are none of its clauses. -/
theorem storeGaps (filling : tree.Filling chain kinds) (gaps : Gaps) :
    (tree.storeGaps chain gaps).Filling chain kinds where
  sound := filling.sound.storeGaps gaps
  strict := (SameFrame.modify tree chain _).settings ▸ filling.strict
  stored := by
    rw [Tree.storeGaps, (tables_modify (Cell.inner_gaps _)).1]
    exact filling.stored
  kind := filling.kind
  held := by
    rw [children_storeGaps]
    exact filling.held

/-- **A chain is filled where it has clauses, and all of them are in order.** -/
theorem takeOver (filling : tree.Filling chain []) (raw : Node.IsRawChain fields items)
    (each : List.Forall₂ Node.IsRawClause items kinds) :
    ((tree.takeOver chain (.object fields)).2 = .ok () ↔
        kinds ≠ [] ∧ clauseOrderProblem? kinds = none) ∧
      ((tree.takeOver chain (.object fields)).2 = .ok () →
        (tree.takeOver chain (.object fields)).1.Filling chain kinds) := by
  have kind := filling.kind
  have attributes (tag : String) : tree.takeAttributes chain tag (.object fields) =
      (tree, .ok ()) := by
    rw [takeAttributes, kind]
    rfl
  have gaps (tag : String) : tree.takeGaps chain tag (.object fields) =
      (tree.storeGaps chain (tree.gaps chain), .ok ()) := by
    rw [takeGaps, kind, raw.readGaps]
  have condition (tree : Tree) : tree.takeCondition chain (.object fields) = (tree, .ok ()) := by
    rw [takeCondition, kind]
    rfl
  rw [Tree.takeOver, raw.tag, kind]
  dsimp only [Option.getD_some]
  rw [if_pos (by rfl), attributes]
  dsimp only
  rw [gaps]
  dsimp only
  rw [condition]
  dsimp only
  -- What is left of the chain's own fields is the loop over its clauses, if there are any.
  obtain ⟨taken, filled⟩ := (filling.storeGaps (tree.gaps chain)).takeChildren
    Kind.ifElse.tag each rfl
  by_cases some : kinds = []
  · have wrong := mt (raw.childrenFault?_eq_none Kind.ifElse.tag each).1 (not_not.2 some)
    obtain ⟨error, fault⟩ := Option.ne_none_iff_exists'.1 wrong
    rw [fault]
    exact ⟨iff_of_false nofun fun all => all.1 some, nofun⟩
  · rw [(raw.childrenFault?_eq_none Kind.ifElse.tag each).2 some, raw.present]
    exact ⟨taken.trans (and_iff_right some).symm, filled⟩

/-- The value of a chain has the clauses that the chain has. -/
theorem kinds_view (filling : tree.Filling chain kinds) :
    (tree.view chain).children.map Node.kind = kinds := by
  have forest := filling.sound.toForest
  rw [forest.view_eq, Node.children, List.map_map, ← filling.held]
  exact List.map_congr_left fun x _ => tree.kind_view x

end Filling

/-- **A chain takes its clauses one by one exactly where all of them are in order.** Where structure
is strict, that holds of chains that are built and of chains that are filled in their tree. -/
theorem clauses_taken :
    (∀ kinds, clauseOrderProblem? kinds = none ↔ kinds = [] ∨
      ∃ count last, (last = [] ∨ last = [.elseClause]) ∧
        kinds = .ifClause :: (List.replicate count .elseIfClause ++ last)) ∧
    ∀ (tree : Tree) (fields : List (String × Json)) (items : List Json) (kinds : List Kind),
      tree.settings.strictStructure → Node.IsRawChain fields items →
      List.Forall₂ Node.IsRawClause items kinds →
        ((∃ id, (tree.build (.object fields)).2 = .ok id) ↔
          kinds ≠ [] ∧ clauseOrderProblem? kinds = none) ∧
        (∀ id, (tree.build (.object fields)).2 = .ok id →
          ((tree.build (.object fields)).1.view id).children.map Node.kind = kinds) ∧
        ∀ chain : NodeId, tree.Sound → tree.contains chain → chain.kind = .ifElse →
          tree.children chain = [] →
            ((tree.takeOver chain (.object fields)).2 = .ok () ↔
              kinds ≠ [] ∧ clauseOrderProblem? kinds = none) ∧
            ((tree.takeOver chain (.object fields)).2 = .ok () →
              ((tree.takeOver chain (.object fields)).1.view chain).children.map Node.kind =
                kinds) := by
  refine ⟨fun kinds => clauseOrder_iff_shape, fun tree fields items kinds strict raw each =>
    ⟨⟨?_, ?_⟩, ?_, fun chain sound stored kind empty => ?_⟩⟩
  · rintro ⟨id, made⟩
    obtain ⟨node, built, -⟩ := build_eq_ok made
    rw [strict] at built
    exact (raw.of_ofRaw each built).2
  · rintro ⟨some, order⟩
    obtain ⟨node, built⟩ := raw.exists_ofRaw false each some order
    refine ⟨(tree.plant node).2, ?_⟩
    rw [build, strict, built]
  · intro id made
    obtain ⟨node, built, grown, rfl⟩ := build_eq_ok made
    rw [strict] at built
    rw [grown, view_plant]
    exact (raw.of_ofRaw each built).1
  · have filling : tree.Filling chain [] := ⟨sound, strict, stored, kind, by rw [empty]; rfl⟩
    obtain ⟨taken, filled⟩ := filling.takeOver raw each
    exact ⟨taken, fun worked => (filled worked).kinds_view⟩

/-- A clause for all other cases is taken behind the others, and not between them. -/
theorem clauses_taken_three :
    let raw (kind : Kind) : Json := .object [("type", .text kind.tag)]
    let fields (kinds : List Kind) : List (String × Json) :=
      [("type", .text Kind.ifElse.tag), ("children", .array (kinds.map raw))]
    let tree := ((empty "t" {}).create .ifElse).1
    let chain : NodeId := ⟨.ifElse, 1⟩
    let right := [Kind.ifClause, .elseIfClause, .elseClause]
    let wrong := [Kind.ifClause, .elseClause, .elseIfClause]
    ((∃ id, (tree.build (.object (fields right))).2 = .ok id) ∧
      (tree.takeOver chain (.object (fields right))).2 = .ok () ∧
      ((tree.takeOver chain (.object (fields right))).1.view chain).children.map Node.kind =
        right) ∧
    (¬ ∃ id, (tree.build (.object (fields wrong))).2 = .ok id) ∧
      (tree.takeOver chain (.object (fields wrong))).2 ≠ .ok () := by
  intro raw fields tree chain right wrong
  have sound : tree.Sound := (sound_empty "t" {}).create .ifElse
  have rawChain (kinds : List Kind) : Node.IsRawChain (fields kinds) (kinds.map raw) :=
    ⟨rfl, rfl, nofun⟩
  have clause {kind : Kind} (category : kind.category = .clause) :
      Node.IsRawClause (raw kind) kind := by
    refine ⟨category, .mk kind [] none [] [], ?_, rfl⟩
    revert category
    cases kind <;> first | exact fun _ => rfl | exact nofun
  have clauses {kinds : List Kind} (all : ∀ kind ∈ kinds, kind.category = .clause) :
      List.Forall₂ Node.IsRawClause (kinds.map raw) kinds :=
    List.forall₂_map_left_iff.2 (List.forall₂_same.2 fun kind member => clause (all kind member))
  obtain ⟨built, -, taken⟩ := clauses_taken.2 tree (fields right) (right.map raw) right rfl
    (rawChain right) (clauses (by decide))
  obtain ⟨notBuilt, -, notTaken⟩ := clauses_taken.2 tree (fields wrong) (wrong.map raw) wrong rfl
    (rawChain wrong) (clauses (by decide))
  obtain ⟨takes, holds⟩ := taken chain sound rfl rfl rfl
  have worked := takes.2 (by decide)
  obtain ⟨refused, -⟩ := notTaken chain sound rfl rfl rfl
  exact ⟨⟨built.2 (by decide), worked, holds worked⟩, mt notBuilt.1 (by decide),
    mt refused.1 (by decide)⟩

end Tree

end Verbatim
