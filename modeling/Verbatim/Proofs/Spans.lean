import Verbatim.Proofs.Locality

/-!
# Where nodes stand in the text

The text of a tree is written by layouts: the pieces of a node come in the order of its layout, and
the nodes right below it give some of these pieces. Walking over a tree goes by another rule: a node,
then its condition, then its children. Both orders agree, whatever edits a tree went through, since
no layout has a child in front of the condition, or two children in another order.

So the nodes of a walk stand in the text one behind the other, each inside the one above it. The nodes
in the store have to agree with their links, so that no node is passed twice; what became of the nodes
that left the tree does not matter.

## Main definitions

* `Row.placed`: where the pieces of a text stand
* `Tree.spans`: where the nodes of a tree stand in its text, in the order in which they are written
* `Tree.Traversal`: what the walk over a tree and the text of the tree have in common

## Main results

* `Node.labels_row`: **the nodes below a node are written in the order of the walk**
* `Tree.traversal_of_emit`: **the walk over a tree goes through its text from the front to the back**
-/

namespace Verbatim

/-! ### Where pieces stand -/

/-- The pieces that are the texts of nodes below, each with the places where it starts and stops. -/
def Row.placed : Nat → Row → List (PathStep × Nat × Nat)
  | _, [] => []
  | start, (label, piece) :: rest =>
    let stop := start + (piece.toOption.getD "").length
    (label.map fun step => (step, start, stop)).toList ++ placed stop rest

namespace Row

variable {start : Nat} {row : Row} {text : String} {entry : PathStep × Nat × Nat}

theorem labels_placed (start : Nat) (row : Row) :
    (placed start row).map Prod.fst = row.filterMap Prod.fst := by
  induction row generalizing start with
  | nil => rfl
  | cons piece rest ih =>
    obtain ⟨_ | step, text⟩ := piece
    · exact ih _
    · exact congrArg (step :: ·) (ih _)

theorem le_of_mem_placed (member : entry ∈ placed start row) :
    start ≤ entry.2.1 ∧ entry.2.1 ≤ entry.2.2 := by
  induction row generalizing start with
  | nil => exact absurd member List.not_mem_nil
  | cons piece rest ih =>
    obtain ⟨label, text⟩ := piece
    rcases List.mem_append.1 member with here | later
    · obtain ⟨step, -, rfl⟩ := Option.mem_map.1 (Option.mem_toList.1 here)
      exact ⟨Nat.le_refl _, Nat.le_add_right _ _⟩
    · exact ⟨Nat.le_trans (Nat.le_add_right _ _) (ih later).1, (ih later).2⟩

/-- One piece ends before the next one starts. -/
theorem pairwise_placed (start : Nat) (row : Row) :
    (placed start row).Pairwise fun first second => first.2.2 ≤ second.2.1 := by
  induction row generalizing start with
  | nil => exact .nil
  | cons piece rest ih =>
    obtain ⟨label, text⟩ := piece
    refine List.pairwise_append.2 ⟨?_, ih _, fun first here second later => ?_⟩
    · cases label with
      | none => exact .nil
      | some step => exact List.pairwise_singleton _ _
    · obtain ⟨step, -, rfl⟩ := Option.mem_map.1 (Option.mem_toList.1 here)
      exact (le_of_mem_placed later).1

/-- A piece of a text stands where it is placed. -/
theorem text_of_mem_placed (written : joinPieces (row.map Prod.snd) = .ok text)
    (member : entry ∈ placed start row) : ∃ front own back, (some entry.1, .ok own) ∈ row ∧
      text = front ++ own ++ back ∧ entry.2.1 = start + front.length ∧
        entry.2.2 = entry.2.1 + own.length := by
  induction row generalizing start text with
  | nil => exact absurd member List.not_mem_nil
  | cons piece rest ih =>
    obtain ⟨label, piece⟩ := piece
    obtain ⟨here, back, rfl, later, rfl⟩ := joinPieces_cons_eq_ok.1 written
    rcases List.mem_append.1 member with head | behind
    · obtain ⟨step, same, rfl⟩ := Option.mem_map.1 (Option.mem_toList.1 head)
      obtain rfl : label = some step := same
      exact ⟨"", here, back, List.mem_cons_self, by rw [String.empty_append], rfl, rfl⟩
    · obtain ⟨front, own, rest, found, rfl, starts, stops⟩ := ih later behind
      refine ⟨here ++ front, own, rest, List.mem_cons_of_mem _ found, by simp only [String.append_assoc],
        ?_, stops⟩
      rw [starts, String.length_append, Nat.add_assoc]
      rfl

end Row

/-! ### The order of layouts -/

/-- The steps to the nodes that a part stands for, if there are so many children. -/
def Part.steps (count : Nat) : Part → List PathStep
  | .condition => [.condition]
  | .child index => [.index index]
  | .children _ => (List.range count).map .index
  | _ => []

theorem Part.labels_row (kind : Kind) (attributes : List (String × Json)) (gapText : Nat → String)
    (condition : Option (Except RenderError String)) (children : List (Except RenderError String))
    (part : Part) :
    (part.row kind attributes gapText condition children).filterMap Prod.fst =
      part.steps children.length := by
  cases part with
  | children separator =>
    have each (entry : Except RenderError String × Nat) :
        ((separatorPieces separator gapText entry.2).map (none, ·) ++
          [(some (PathStep.index entry.2), entry.1)]).filterMap Prod.fst = [.index entry.2] := by
      rw [List.filterMap_append, List.filterMap_map]
      simp
    rw [row, List.filterMap_flatten, List.map_map]
    simp only [Function.comp_def, each]
    rw [← List.flatMap_def, steps, List.range_eq_range', ← List.zipIdx_map_snd 0 children, List.map_map,
      List.map_eq_flatMap]
    rfl
  | _ => simp [row, pieces, steps]

/-- Every layout has the condition in front and the children in order. -/
theorem Kind.flatMap_steps {kind : Kind} {count : Nat}
    (room : ∀ limit, kind.maxChildren = some limit → count ≤ limit)
    (reached : ∀ index, .child index ∈ kind.layout.parts → index < count) :
    kind.layout.parts.flatMap (Part.steps count) =
      (if kind.hasCondition then [.condition] else []) ++ (List.range count).map .index := by
  cases kind with
  | assignment | definition | connectorDefinition | binary =>
    obtain rfl : count = 2 :=
      Nat.le_antisymm (room 2 rfl) (reached 1 (by simp [layout, pairLayout]))
    rfl
  | expressionStatement | unary | bracketed =>
    obtain rfl : count = 1 := Nat.le_antisymm (room 1 rfl) (reached 0 (by simp [layout]))
    rfl
  | declaration | literal | reference =>
    obtain rfl : count = 0 := Nat.le_zero.1 (room 0 rfl)
    rfl
  | _ => simp [layout, Part.steps, hasCondition]

namespace Node

variable {node : Node} {text : String}

/-- The steps to the nodes right below a node, in the order of the walk. -/
def steps (node : Node) : List PathStep :=
  (node.condition.map fun _ => .condition).toList ++ (List.range node.children.length).map .index

/-- A part of the layout that a text was written by gave its pieces. -/
theorem exists_of_mem_row (written : node.render = .ok text) {part : Part}
    (inside : part ∈ node.kind.layout.parts) {piece : Option PathStep × Except RenderError String}
    (member : piece ∈ part.row node.kind node.attributes (gapText node.kind node.gaps)
      (node.condition.map render) (node.children.map render)) : ∃ own, piece.2 = .ok own := by
  rw [render_eq_join, joinPieces_eq_ok] at written
  obtain ⟨texts, pieces, -⟩ := written
  have listed : piece.2 ∈ texts.map Except.ok :=
    pieces ▸ List.mem_map_of_mem (List.mem_flatMap.2 ⟨part, inside, member⟩)
  obtain ⟨own, -, same⟩ := List.mem_map.1 listed
  exact ⟨own, same.symm⟩

/-- A node that was written has a condition if there is a slot for one. -/
theorem condition_of_render (written : node.render = .ok text) (slot : node.kind.hasCondition) :
    node.condition.isSome := by
  have inside : Part.condition ∈ node.kind.layout.parts := by
    revert slot
    cases node.kind <;> simp [Kind.hasCondition, Kind.layout]
  obtain ⟨own, ok⟩ := exists_of_mem_row written inside List.mem_cons_self
  cases given : node.condition with
  | none => rw [given] at ok; contradiction
  | some below => rfl

/-- A node that was written has the children that its layout asks for. -/
theorem child_of_render (written : node.render = .ok text) {index : Nat}
    (inside : .child index ∈ node.kind.layout.parts) : index < node.children.length := by
  obtain ⟨own, ok⟩ := exists_of_mem_row written inside List.mem_cons_self
  by_contra outside
  rw [List.getElem?_eq_none (by rwa [List.length_map, ← Nat.not_lt])] at ok
  contradiction

/-- **The nodes below a node are written in the order of the walk**, each of them once. -/
theorem labels_row (shaped : node.Shaped) (written : node.render = .ok text) :
    node.row.filterMap Prod.fst = node.steps := by
  have condition : node.condition.isSome = node.kind.hasCondition :=
    Bool.eq_iff_iff.2 ⟨shaped.slot, condition_of_render written⟩
  rw [row, Kind.row, List.filterMap_flatMap]
  simp only [Part.labels_row, List.length_map]
  rw [Kind.flatMap_steps shaped.room fun index inside => child_of_render written inside, steps,
    ← condition]
  cases node.condition <;> rfl

/-- A piece that a step leads to is the text of the node there. -/
theorem step?_of_mem_row {step : PathStep} {own : String}
    (member : (some step, .ok own) ∈ node.row) :
    ∃ below, node.step? step = some below ∧ below.render = .ok own := by
  obtain ⟨part, inside, member⟩ := List.mem_flatMap.1 member
  cases part with
  | condition =>
    obtain ⟨rfl, found⟩ : step = .condition ∧ Except.ok own = (node.condition.map render).getD _ := by
      simpa [Part.row] using member
    cases given : node.condition with
    | none => rw [given] at found; contradiction
    | some below => exact ⟨below, given, by rw [found, given]; rfl⟩
  | child index =>
    obtain ⟨rfl, found⟩ : step = .index index ∧
        Except.ok own = ((node.children.map render)[index]?).getD _ := by
      simpa [Part.row] using member
    rw [List.getElem?_map] at found
    cases given : node.children[index]? with
    | none => rw [given] at found; contradiction
    | some below => exact ⟨below, given, by rw [found, given]; rfl⟩
  | children separator =>
    simp only [Part.row, List.mem_flatten, List.mem_map] at member
    obtain ⟨-, ⟨⟨piece, place⟩, listed, rfl⟩, member⟩ := member
    obtain ⟨rfl, rfl⟩ : step = .index place ∧ Except.ok own = piece := by simpa using member
    obtain ⟨below, found, same⟩ := Option.map_eq_some_iff.1
      ((List.getElem?_map ..).symm.trans (List.mk_mem_zipIdx_iff_getElem?.1 listed))
    exact ⟨below, found, same⟩
  | _ => simp [Part.row] at member

end Node

/-! ### Where nodes stand -/

/-- Where a node stands in a text: its first place, and the first one behind it. -/
structure Span where
  node : NodeId
  start : Nat
  stop : Nat
  deriving DecidableEq, Repr

namespace Tree

/-- Where the nodes right below a node stand, in the order in which they are written. -/
def directSpans (tree : Tree) (span : Span) : List Span :=
  (Row.placed span.start (tree.view span.node).row).filterMap fun (step, start, stop) =>
    (tree.step? span.node step.request).map fun below => ⟨below, start, stop⟩

/-- Where a node and everything below it stand, in the order in which they are written. -/
def spansWithin (tree : Tree) : Nat → Span → List Span
  | 0, span => [span]
  | steps + 1, span => span :: (tree.directSpans span).flatMap (tree.spansWithin steps)

/-- Where a node and everything below it stand in the text of the node. -/
def spans (tree : Tree) (id : NodeId) (text : String) : List Span :=
  tree.spansWithin tree.cells.size ⟨id, 0, text.length⟩

/-- The text of the node is at its place in the whole text. -/
def Stands (tree : Tree) (text : String) (span : Span) : Prop :=
  ∃ front own back, tree.source span.node = .ok own ∧ text = front ++ own ++ back ∧
    span.start = front.length ∧ span.stop = span.start + own.length

variable {tree : Tree} {text : String} {span sub : Span} {root id : NodeId} {steps : Nat}

/-- What the walk over a tree and its text have in common: the nodes are written in the order of the
walk, each of them once, and the nodes right below a node stand inside it, one behind the other. -/
structure Traversal (tree : Tree) (root : NodeId) (text : String) (spans : List Span) : Prop where
  walk : spans.map Span.node = tree.subtree root
  once : (spans.map Span.node).Nodup
  stands : ∀ span ∈ spans, tree.Stands text span
  sorted : spans.Pairwise fun first second => first.start ≤ second.start
  direct : ∀ span ∈ spans, (tree.directSpans span).Sublist spans ∧
    (tree.directSpans span).map Span.node = tree.directNodes span.node
  inside : ∀ span ∈ spans, ∀ sub ∈ tree.directSpans span,
    span.start ≤ sub.start ∧ sub.stop ≤ span.stop
  disjoint : ∀ span ∈ spans, (tree.directSpans span).Pairwise fun first second =>
    first.stop ≤ second.start

/-! ### The nodes right below a node -/

theorem Stands.le (stands : tree.Stands text span) : span.start ≤ span.stop := by
  obtain ⟨front, own, back, -, -, -, stops⟩ := stands
  rw [stops]
  exact Nat.le_add_right _ _

/-- The steps to the nodes right below a node lead to them. -/
theorem Founded.filterMap_steps (founded : tree.Founded id) :
    (tree.view id).steps.filterMap (fun step => tree.step? id step.request) =
      tree.directNodes id := by
  have each : (List.range (tree.children id).length).map (fun index => (tree.children id)[index]?) =
      (tree.children id).map some :=
    List.ext_getElem (by simp) fun place inside _ => by simp
  have children : (List.range (tree.children id).length).filterMap
      (fun index => (tree.children id)[index]?) = tree.children id := by
    simpa [List.filterMap_map, Function.comp_def] using
      congrArg (List.filterMap fun found => found) each
  rw [founded.view_eq, Node.steps, directNodes, List.filterMap_append, Node.children,
    List.length_map, List.filterMap_map]
  simp only [Function.comp_def, step?_index, children]
  congr 1
  rw [Node.condition]
  cases slot : tree.condition? id with
  | none => rfl
  | some below => simp [PathStep.request, step?, slot]

/-- The nodes right below a node are written in the order of the walk. -/
theorem Regular.map_node_directSpans (regular : tree.Regular) (founded : tree.Founded span.node)
    (stands : tree.Stands text span) :
    (tree.directSpans span).map Span.node = tree.directNodes span.node := by
  obtain ⟨front, own, back, written, -⟩ := stands
  have labels := Node.labels_row (regular.shaped founded).here written
  rw [← Row.labels_placed span.start] at labels
  rw [← founded.filterMap_steps, ← labels, List.filterMap_map, directSpans, List.map_filterMap]
  congr 1
  funext ⟨step, start, stop⟩
  rw [Option.map_map]
  exact Option.map_id'

theorem owns_of_mem_directSpans (member : sub ∈ tree.directSpans span) :
    tree.Owns span.node sub.node := by
  obtain ⟨⟨step, start, stop⟩, -, found⟩ := List.mem_filterMap.1 member
  obtain ⟨below, stepped, rfl⟩ := Option.map_eq_some_iff.1 found
  exact owns_of_step? stepped

/-- Each of them stands where it is written, inside the node. -/
theorem Founded.stands_of_mem_directSpans (founded : tree.Founded span.node)
    (stands : tree.Stands text span) (member : sub ∈ tree.directSpans span) :
    tree.Stands text sub ∧ span.start ≤ sub.start ∧ sub.stop ≤ span.stop := by
  obtain ⟨front, own, back, written, rfl, starts, stops⟩ := stands
  obtain ⟨⟨step, start, stop⟩, placed, found⟩ := List.mem_filterMap.1 member
  obtain ⟨below, stepped, rfl⟩ := Option.map_eq_some_iff.1 found
  rw [source, Node.render_eq_join] at written
  obtain ⟨before, piece, after, inRow, rfl, startsAt, stopsAt⟩ := Row.text_of_mem_placed written placed
  obtain ⟨inner, view, rendered⟩ := Node.step?_of_mem_row inRow
  rw [founded.step?_view, stepped] at view
  obtain rfl := Option.some.inj view
  simp only at startsAt stopsAt
  refine ⟨⟨front ++ before, piece, after ++ back, rendered, by simp only [String.append_assoc], ?_,
    stopsAt⟩, ?_, ?_⟩
  · rw [startsAt, starts, String.length_append]
  · show span.start ≤ start
    omega
  · show stop ≤ span.stop
    rw [stops, stopsAt, startsAt, String.length_append, String.length_append]
    omega

/-- They stand one behind the other. -/
theorem pairwise_directSpans (tree : Tree) (span : Span) :
    (tree.directSpans span).Pairwise fun first second => first.stop ≤ second.start := by
  refine (Row.pairwise_placed _ _).filterMap _ fun first second le sub found subToo foundToo => ?_
  obtain ⟨below, -, rfl⟩ := Option.map_eq_some_iff.1 found
  obtain ⟨belowToo, -, rfl⟩ := Option.map_eq_some_iff.1 foundToo
  exact le

/-! ### The nodes of a walk -/

/-- A node comes in front of all that is below it. -/
theorem spansWithin_eq (tree : Tree) (steps : Nat) (span : Span) :
    ∃ later, tree.spansWithin steps span = span :: later := by
  cases steps with
  | zero => exact ⟨[], rfl⟩
  | succ steps => exact ⟨_, rfl⟩

theorem below_of_mem_spansWithin (member : sub ∈ tree.spansWithin steps span) :
    tree.Below span.node sub.node := by
  induction steps generalizing span with
  | zero =>
    obtain rfl := List.mem_singleton.1 member
    exact .refl
  | succ steps ih =>
    obtain rfl | deeper := List.mem_cons.1 member
    · exact .refl
    · obtain ⟨below, right, inner⟩ := List.mem_flatMap.1 deeper
      exact .head (owns_of_mem_directSpans right) (ih inner)

/-- What is written below a node stands inside it. -/
theorem Founded.stands_of_mem_spansWithin (founded : tree.Founded span.node)
    (stands : tree.Stands text span) (member : sub ∈ tree.spansWithin steps span) :
    tree.Stands text sub ∧ span.start ≤ sub.start ∧ sub.stop ≤ span.stop := by
  induction steps generalizing span with
  | zero =>
    obtain rfl := List.mem_singleton.1 member
    exact ⟨stands, Nat.le_refl _, Nat.le_refl _⟩
  | succ steps ih =>
    obtain rfl | deeper := List.mem_cons.1 member
    · exact ⟨stands, Nat.le_refl _, Nat.le_refl _⟩
    · obtain ⟨below, right, inner⟩ := List.mem_flatMap.1 deeper
      obtain ⟨standsToo, starts, stops⟩ := founded.stands_of_mem_directSpans stands right
      obtain ⟨there, startsToo, stopsToo⟩ :=
        ih (founded.of_owns (owns_of_mem_directSpans right)) standsToo inner
      exact ⟨there, Nat.le_trans starts startsToo, Nat.le_trans stopsToo stops⟩

/-- The nodes are written in the order of the walk. -/
theorem Regular.map_node_spansWithin (regular : tree.Regular) (founded : tree.Founded span.node)
    (stands : tree.Stands text span) :
    (tree.spansWithin steps span).map Span.node = tree.subtreeWithin steps span.node := by
  induction steps generalizing span with
  | zero => rfl
  | succ steps ih =>
    rw [spansWithin, subtreeWithin, List.map_cons, List.map_flatMap,
      ← regular.map_node_directSpans founded stands, List.flatMap_map]
    congr 1
    exact List.flatMap_congr fun below right =>
      ih (founded.of_owns (owns_of_mem_directSpans right))
        (founded.stands_of_mem_directSpans stands right).1

/-- The places where the nodes of a walk start never go back. -/
theorem Founded.sorted_spansWithin (founded : tree.Founded span.node)
    (stands : tree.Stands text span) :
    (tree.spansWithin steps span).Pairwise fun first second => first.start ≤ second.start := by
  induction steps generalizing span with
  | zero => exact List.pairwise_singleton _ _
  | succ steps ih =>
    have inner {below : Span} (right : below ∈ tree.directSpans span) : tree.Founded below.node :=
      founded.of_owns (owns_of_mem_directSpans right)
    have direct {below : Span} (right : below ∈ tree.directSpans span) : tree.Stands text below :=
      (founded.stands_of_mem_directSpans stands right).1
    refine List.pairwise_cons.2 ⟨fun sub deeper => ?_, ?_⟩
    · have member : sub ∈ tree.spansWithin (steps + 1) span := List.mem_cons_of_mem _ deeper
      exact (founded.stands_of_mem_spansWithin stands member).2.1
    · refine List.pairwise_flatMap.2 ⟨fun below right => ih (inner right) (direct right), ?_⟩
      refine (pairwise_directSpans tree span).imp_of_mem
        fun {first second} here there apart sub within subToo withinToo => ?_
      -- What is below the first one ends before the second one starts.
      obtain ⟨standing, -, stops⟩ := (inner here).stands_of_mem_spansWithin (direct here) within
      obtain ⟨-, starts, -⟩ := (inner there).stands_of_mem_spansWithin (direct there) withinToo
      have := standing.le
      omega

/-- Where the nodes right below a node stand is among where the nodes of a walk stand. -/
theorem Founded.directSpans_sublist (founded : tree.Founded span.node)
    (enough : tree.height span.node ≤ steps) (member : sub ∈ tree.spansWithin steps span) :
    (tree.directSpans sub).Sublist (tree.spansWithin steps span) := by
  induction steps generalizing span with
  | zero =>
    obtain rfl := List.mem_singleton.1 member
    have nothing : tree.directSpans sub = [] := List.eq_nil_iff_forall_not_mem.2 fun below right => by
      have := founded.height_lt (owns_of_mem_directSpans right)
      omega
    rw [nothing]
    exact List.nil_sublist _
  | succ steps ih =>
    refine List.Sublist.cons _ ?_
    obtain rfl | deeper := List.mem_cons.1 member
    · have front (below : Span) : [below].Sublist (tree.spansWithin steps below) := by
        obtain ⟨later, same⟩ := spansWithin_eq tree steps below
        exact List.singleton_sublist.2 (same ▸ List.mem_cons_self)
      calc (tree.directSpans sub)
          = (tree.directSpans sub).flatMap fun below => [below] := (List.flatMap_singleton' _).symm
        List.Sublist _ ((tree.directSpans sub).flatMap (tree.spansWithin steps)) :=
          List.Sublist.flatMap_right _ fun below _ => front below
    · obtain ⟨below, right, inner⟩ := List.mem_flatMap.1 deeper
      have owns := owns_of_mem_directSpans right
      have lower := founded.height_lt owns
      have here := ih (founded.of_owns owns) (by omega) inner
      have whole := (List.singleton_sublist.2 right).flatMap (tree.spansWithin steps)
      rw [List.flatMap_singleton] at whole
      exact here.trans whole

/-- A walk comes by every node once. -/
theorem Coherent.nodup_subtreeWithin (coherent : tree.Coherent) (stored : tree.contains id) :
    (tree.subtreeWithin steps id).Nodup := by
  induction steps generalizing id with
  | zero => exact List.nodup_singleton _
  | succ steps ih =>
    refine List.nodup_cons.2 ⟨fun again => ?_, List.nodup_flatMap.2 ⟨fun sub owns => ?_, ?_⟩⟩
    · obtain ⟨sub, owns, inside⟩ := List.mem_flatMap.1 again
      exact coherent.not_below_owner stored owns (below_of_mem_subtreeWithin inside)
    · exact ih (coherent.owned id stored sub owns).1
    · refine List.Pairwise.imp_of_mem (fun {sub subToo} owns ownsToo different x here there => ?_)
        (coherent.distinct id stored)
      exact coherent.apart_of_owns stored owns ownsToo different (below_of_mem_subtreeWithin here)
        (below_of_mem_subtreeWithin there)

/-- The walk over a regular tree and its text. Only the nodes in the store count, so it does not
matter what became of those that left. -/
theorem Regular.traversal (regular : tree.Regular) (isRoot : tree.root? = some root)
    (emitted : tree.emit = .ok text) : tree.Traversal root text (tree.spans root text) := by
  have coherent := regular.coherent
  have written : tree.source root = .ok text := by
    rwa [emit_of_root isRoot, mapError_eq_ok] at emitted
  have stands : tree.Stands text ⟨root, 0, text.length⟩ :=
    ⟨"", text, "", written, by simp, rfl, (Nat.zero_add _).symm⟩
  have stored := (root?_eq_some.1 isRoot).2
  have founded : tree.Founded (Span.mk root 0 text.length).node := coherent.founded stored
  have walk : (tree.spans root text).map Span.node = tree.subtree root :=
    regular.map_node_spansWithin founded stands
  have each {span : Span} (member : span ∈ tree.spans root text) :
      tree.Founded span.node ∧ tree.Stands text span :=
    ⟨coherent.founded (coherent.contains_below stored (below_of_mem_spansWithin member)),
      (founded.stands_of_mem_spansWithin stands member).1⟩
  exact {
    walk := walk
    once := by
      rw [walk]
      exact coherent.nodup_subtreeWithin stored
    stands := fun span member => (each member).2
    sorted := founded.sorted_spansWithin stands
    direct := fun span member => ⟨founded.directSpans_sublist (tree.height_le root) member,
      regular.map_node_directSpans (each member).1 (each member).2⟩
    inside := fun span member sub right =>
      ((each member).1.stands_of_mem_directSpans (each member).2 right).2
    disjoint := fun span _ => pairwise_directSpans tree span }

/-- **The walk over a coherent tree goes through its text from the front to the back**, whatever calls
led to the tree. -/
theorem traversal_of_emit (handled : tree.Handled) (coherent : tree.Coherent)
    (isRoot : tree.root? = some root) (emitted : tree.emit = .ok text) :
    tree.Traversal root text (tree.spans root text) :=
  (handled.regular coherent).traversal isRoot emitted

/-- A loop behind another statement, with another condition. -/
theorem traversal_of_emit_loop :
    let text := "return ;\nwhile (y) \x7b\n\x7d\n"
    let unit : NodeId := ⟨.compilationUnit, 1⟩
    let loop : NodeId := ⟨.whileLoop, 3⟩
    let new : NodeId := ⟨.reference, 5⟩
    ∃ tree : Tree, tree.Handled ∧ tree.Coherent ∧ tree.root? = some unit ∧
      tree.emit = .ok text ∧ tree.Traversal unit text (tree.spans unit text) ∧
        tree.spans unit text = [⟨unit, 0, 23⟩, ⟨⟨.returnStatement, 2⟩, 0, 9⟩, ⟨loop, 9, 23⟩,
          ⟨new, 16, 17⟩] := by
  intro text unit loop new
  let reference (name : String) : Node :=
    .mk .reference [("variable_name", .text name)] none [] []
  let node : Node := .mk .compilationUnit [] none
    [.mk .returnStatement [] none [] [], .mk .whileLoop [] (some (reference "x")) [] []] []
  obtain ⟨first, built⟩ : ∃ tree, tree = (empty "t" {}).perform (.build node.toJson) := ⟨_, rfl⟩
  obtain ⟨second, rooted⟩ : ∃ tree, tree = first.perform (.setRoot unit) := ⟨_, rfl⟩
  obtain ⟨third, more⟩ : ∃ tree, tree = second.perform (.build (reference "y").toJson) := ⟨_, rfl⟩
  obtain ⟨tree, edited⟩ : ∃ tree, tree =
    third.perform (.setCondition loop (.own new)) := ⟨_, rfl⟩
  have whole : tree = ((((empty "t" {}).perform (.build node.toJson)).perform
      (.setRoot unit)).perform (.build (reference "y").toJson)).perform
        (.setCondition loop (.own new)) := by rw [edited, more, rooted, built]
  have facts : first.contains unit ∧ third.contains loop ∧ third.contains new := by
    rw [more, rooted, built]
    exact ⟨by cbv, by cbv, by cbv⟩
  have isRoot : tree.root? = some unit := by
    rw [whole]
    cbv
  have emitted : tree.emit = .ok text := by
    rw [whole]
    cbv
  have places : tree.spans unit text = [⟨unit, 0, 23⟩, ⟨⟨.returnStatement, 2⟩, 0, 9⟩,
      ⟨loop, 9, 23⟩, ⟨new, 16, 17⟩] := by
    rw [whole]
    cbv
  have assembled : first.Assembled :=
    built ▸ .call (.build node.toJson) (.empty "t" {}) trivial trivial
  have assembled : second.Assembled := rooted ▸ assembled.call (.setRoot unit) facts.1 trivial
  have assembled : third.Assembled :=
    more ▸ assembled.call (.build (reference "y").toJson) trivial trivial
  have assembled : tree.Assembled :=
    edited ▸ assembled.call (.setCondition loop (.own new)) ⟨facts.2.1, .inl facts.2.2⟩ rfl
  have handled := assembled.handled
  have coherent := assembled.neat.sound.coherent
  exact ⟨tree, handled, coherent, isRoot, emitted,
    traversal_of_emit handled coherent isRoot emitted, places⟩

end Tree

end Verbatim
