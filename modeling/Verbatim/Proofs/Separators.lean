import Verbatim.Proofs.Addresses
import Verbatim.Proofs.Locality
import Verbatim.Proofs.Rereading

/-!
# What stands between neighbours

The children of a return statement, of a call and of the creation of a connector are written with
commas, and behind each comma comes a gap. The gaps belong to the node that has the list, and they
are told apart by their numbers alone: the first comma has the first gap, whatever children stand
beside it. So two neighbours are separated by the comma and the gap of the place at which they
stand.

Where a child comes in or goes out, the children behind it get other places, and other gaps with
them. Neighbours in front of the place keep what is between them. Neighbours behind it get what was
between the pair before or after them, so blanks and comments there move away from where they were
written, or are no longer written at all.

## Main definitions

* `Tree.Separates`: what is written between two nodes
* `Tree.separator`: the comma at a place of a list, with its gap
* `Tree.Relisted`: a list with other children, and the separators where they were

## Main results

* `Node.around?_neighbours`: the texts around two neighbours of a list
* `Node.render_withChildren`: a list of other children is written as well
* `Tree.Regular.separates`: neighbours are separated by the comma and the gap of their place
* `Tree.separators_of_worked`: **what separates neighbours after a child came in or went out**
-/

namespace Verbatim

/-! ### Neighbours in a row -/

/-- The pieces around two that belong to steps, with only pieces of the row itself between them. -/
theorem Row.before_behind_pair {front between back : Row} {step next : PathStep}
    {x y : Except RenderError String} (different : step ≠ next)
    (apart : ∀ piece ∈ front ++ back, piece.1 ≠ some step ∧ piece.1 ≠ some next)
    (plain : ∀ piece ∈ between, piece.1 = none) :
    let row : Row := front ++ (some step, x) :: (between ++ (some next, y) :: back)
    (row.before step = front.map Prod.snd ∧
        row.behind step = (between ++ (some next, y) :: back).map Prod.snd) ∧
      row.before next = (front ++ (some step, x) :: between).map Prod.snd ∧
        row.behind next = back.map Prod.snd := by
  have inside {piece} (member : piece ∈ between) (other : PathStep) : piece.1 ≠ some other := by
    rw [plain piece member]
    exact nofun
  refine ⟨Row.before_behind fun piece member => ?_, ?_⟩
  · simp only [List.mem_append, List.mem_cons] at member
    rcases member with ahead | within | rfl | behind
    · exact (apart piece (List.mem_append_left _ ahead)).1
    · exact inside within step
    · exact fun same => different (Option.some.inj same).symm
    · exact (apart piece (List.mem_append_right _ behind)).1
  · rw [← List.cons_append, ← List.append_assoc]
    refine Row.before_behind fun piece member => ?_
    simp only [List.mem_append, List.mem_cons] at member
    rcases member with (ahead | rfl | within) | behind
    · exact (apart piece (List.mem_append_left _ ahead)).2
    · exact fun same => different (Option.some.inj same)
    · exact inside within next
    · exact (apart piece (List.mem_append_right _ behind)).2

section Rows

variable {kind : Kind} {attributes : List (String × Json)} {gaps : Gaps}
  {condition : Option (Except RenderError String)} {children : List (Except RenderError String)}
  {comma : String} {base place : Nat} {x y : Except RenderError String}

/-- Between the pieces of two neighbours come the comma and its gap, and no other piece belongs to
one of them. -/
theorem Part.row_neighbours {gapText : Nat → String} (first : children[place]? = some x)
    (second : children[place + 1]? = some y) : ∃ front back : Row,
    (∀ piece ∈ front ++ back, piece.1 ≠ some (.index place) ∧ piece.1 ≠ some (.index (place + 1))) ∧
      (Part.children (some (comma, base))).row kind attributes gapText condition children =
        front ++ (some (.index place), x) :: (none, .ok comma) ::
          (none, .ok (gapText (base + place))) :: (some (.index (place + 1)), y) :: back := by
  let pieces (entry : Except RenderError String × Nat) : Row :=
    (separatorPieces (some (comma, base)) gapText entry.2).map (none, ·) ++
      [(some (PathStep.index entry.2), entry.1)]
  obtain ⟨inside, here⟩ := List.getElem?_eq_some_iff.1 first
  obtain ⟨insideToo, hereToo⟩ := List.getElem?_eq_some_iff.1 second
  have length : (children.take place).length = place := by
    rw [List.length_take, Nat.min_eq_left inside.le]
  have split : children = children.take place ++ x :: y :: children.drop (place + 2) := by
    rw [← here, ← hereToo, ← List.drop_eq_getElem_cons insideToo,
      ← List.drop_eq_getElem_cons inside, List.take_append_drop]
  refine ⟨((children.take place).zipIdx.map pieces).flatten ++
      (separatorPieces (some (comma, base)) gapText place).map (none, ·),
    ((children.drop (place + 2)).zipIdx (place + 2) |>.map pieces).flatten, ?_, ?_⟩
  · rintro ⟨label, text⟩ member
    -- Pieces in front belong to smaller places, and pieces behind to greater ones.
    have apart (other : Nat) (same : label = some (.index other)) :
        other < place ∨ place + 2 ≤ other := by
      subst same
      rcases List.mem_append.1 member with before | behind
      · rcases List.mem_append.1 before with before | before
        · have bound := (Part.le_of_mem_children before).2
          omega
        · simp at before
      · exact .inr (Part.le_of_mem_children behind).1
    refine ⟨fun same => ?_, fun same => ?_⟩
    · have := apart place same
      omega
    · have := apart (place + 1) same
      omega
  · show (children.zipIdx.map pieces).flatten = _
    conv_lhs => rw [split]
    rw [List.zipIdx_append, List.zipIdx_cons, List.zipIdx_cons, length, Nat.zero_add]
    simp [pieces, separatorPieces]

/-- So it is in the row of the node that has the list. -/
theorem Kind.row_neighbours (lists : .children (some (comma, base)) ∈ kind.layout.parts)
    (first : children[place]? = some x) (second : children[place + 1]? = some y) :
    ∃ front back : Row,
    (∀ piece ∈ front ++ back, piece.1 ≠ some (.index place) ∧ piece.1 ≠ some (.index (place + 1))) ∧
      kind.row attributes gaps condition children =
        front ++ (some (.index place), x) :: (none, .ok comma) ::
          (none, .ok (Node.gapText kind gaps (base + place))) ::
          (some (.index (place + 1)), y) :: back := by
  have once := countP_ofChildren lists
  obtain ⟨before, after, split⟩ := List.append_of_mem lists
  rw [split, List.countP_append, List.countP_cons_of_pos rfl] at once
  obtain ⟨front, back, apart, row⟩ := @Part.row_neighbours kind attributes condition children comma
    base place x y (Node.gapText kind gaps) first second
  have beside {part : Part} (member : part ∈ before ++ after) (place : Nat) :
      part.leads (.index place) = false := by
    have none : (before ++ after).countP Part.ofChildren = 0 := by
      rw [List.countP_append]
      omega
    have other := List.countP_eq_zero.1 none part member
    cases part with
    | child | children => exact absurd rfl other
    | condition => rfl
    | _ => rfl
  have apartBeside {parts : List Part} (within : ∀ part ∈ parts, part ∈ before ++ after)
      (spot : Nat) : ∀ piece ∈ parts.flatMap
        (Part.row kind attributes (Node.gapText kind gaps) condition children),
          piece.1 ≠ some (.index spot) := by
    intro piece member
    obtain ⟨part, inside, member⟩ := List.mem_flatMap.1 member
    exact Part.ne_of_mem_row_of_not_leads (beside (within part inside) spot) piece member
  refine ⟨before.flatMap (Part.row kind attributes (Node.gapText kind gaps) condition children) ++
      front, back ++ after.flatMap (Part.row kind attributes (Node.gapText kind gaps) condition
        children), fun piece member => ?_, ?_⟩
  · simp only [List.mem_append] at member
    rcases member with (outer | inner) | (inner | outer)
    · exact ⟨apartBeside (fun _ => List.mem_append_left _) _ piece outer,
        apartBeside (fun _ => List.mem_append_left _) _ piece outer⟩
    · exact apart piece (List.mem_append_left _ inner)
    · exact apart piece (List.mem_append_right _ inner)
    · exact ⟨apartBeside (fun _ => List.mem_append_right _) _ piece outer,
        apartBeside (fun _ => List.mem_append_right _) _ piece outer⟩
  · rw [Kind.row, split, List.flatMap_append, List.flatMap_cons, row]
    simp

end Rows

namespace Node

variable {node inner x y : Node} {path rest : Path} {front back own comma : String}
  {base place : Nat}

/-- Around a place below another place is what is around both. -/
theorem around?_append (found : node.at? path = some inner)
    (outer : node.around? path = some (front, back)) :
    node.around? (path ++ rest) =
      (inner.around? rest).map fun texts => (front ++ texts.1, texts.2 ++ back) := by
  induction path generalizing node front back with
  | nil =>
    obtain rfl := Option.some.inj found
    obtain ⟨rfl, rfl⟩ := Prod.mk.inj (Option.some.inj outer)
    simp
  | cons step path ih =>
    obtain ⟨below, stepped, found⟩ := Option.bind_eq_some_iff.1 found
    rw [around?, stepped, Option.bind_eq_bind, Option.bind_some] at outer
    obtain ⟨⟨front, back⟩, within, joined⟩ := Option.bind_eq_some_iff.1 outer
    obtain ⟨before, first, joined⟩ := Option.bind_eq_some_iff.1 joined
    obtain ⟨behind, last, joined⟩ := Option.bind_eq_some_iff.1 joined
    obtain ⟨rfl, rfl⟩ := Prod.mk.inj (Option.some.inj joined)
    rw [List.cons_append, around?, stepped, Option.bind_eq_bind, Option.bind_some, ih found within,
      first, last]
    cases inner.around? rest <;> simp [String.append_assoc]

theorem around?_step {step : PathStep} (stepped : node.step? step = some inner)
    (before : joinPieces (node.row.before step) = .ok front)
    (behind : joinPieces (node.row.behind step) = .ok back) :
    node.around? [step] = some (front, back) := by
  simp [around?, stepped, before, behind, Except.toOption]

/-- **The texts around two neighbours of a list.** Between them is the comma with the gap of their
place. -/
theorem around?_neighbours (lists : .children (some (comma, base)) ∈ node.kind.layout.parts)
    (rendered : node.render = .ok own) (first : node.children[place]? = some x)
    (second : node.children[place + 1]? = some y) : ∃ front back sx sy,
    x.render = .ok sx ∧ y.render = .ok sy ∧
      let between := comma ++ gapText node.kind node.gaps (base + place)
      node.around? [.index place] = some (front, between ++ sy ++ back) ∧
        node.around? [.index (place + 1)] = some (front ++ sx ++ between, back) ∧
        own = front ++ sx ++ between ++ sy ++ back := by
  obtain ⟨front, back, apart, row⟩ := @Kind.row_neighbours node.kind node.attributes node.gaps
    (node.condition.map render) (node.children.map render) comma base place x.render y.render lists
    (by rw [List.getElem?_map, first, Option.map_some])
    (by rw [List.getElem?_map, second, Option.map_some])
  have row : node.row = _ := row
  have around := @Row.before_behind_pair front
    [(none, .ok comma), (none, .ok (gapText node.kind node.gaps (base + place)))] back
    (.index place) (.index (place + 1)) x.render y.render (by simp) apart (by simp)
  simp only [List.cons_append, List.nil_append, ← row] at around
  obtain ⟨around, aroundToo⟩ := around
  rw [render_eq_join, row, List.map_append] at rendered
  obtain ⟨ahead, _, before, further, rfl⟩ := joinPieces_append_eq_ok.1 rendered
  obtain ⟨sx, _, (written : x.render = .ok sx), afterX, rfl⟩ := joinPieces_cons_eq_ok.1 further
  obtain ⟨_, _, ⟨⟩, afterComma, rfl⟩ := joinPieces_cons_eq_ok.1 afterX
  obtain ⟨_, _, ⟨⟩, afterGap, rfl⟩ := joinPieces_cons_eq_ok.1 afterComma
  obtain ⟨sy, rest, writtenToo, behind, rfl⟩ := joinPieces_cons_eq_ok.1 afterGap
  refine ⟨ahead, rest, sx, sy, written, writtenToo, ?_, ?_, ?_⟩
  · refine around?_step first (around.1 ▸ before) ?_
    rw [around.2, afterX, String.append_assoc, String.append_assoc]
  · refine around?_step second ?_ (aroundToo.2 ▸ behind)
    rw [aroundToo.1, List.map_append, joinPieces_append before]
    simp [joinPieces, written, Except.map, String.append_assoc]
  · simp [String.append_assoc]

end Node

/-! ### Lists that are written again -/

/-- A gap behind commas is that of a list with commas. -/
theorem Kind.children_mem_of_separatorBase? {kind : Kind} {base : Nat}
    (listed : kind.layout.separatorBase? = some base) :
    .children (some (",", base)) ∈ kind.layout.parts := by
  revert listed
  cases kind <;> simp [layout, pairLayout, Layout.separatorBase?] <;> rintro rfl <;> simp

/-- A kind that lists its children singles none of them out. -/
theorem Kind.child_notMem_parts {kind : Kind} {separator : Option (String × Nat)}
    (lists : .children separator ∈ kind.layout.parts) (place : Nat) :
    .child place ∉ kind.layout.parts := by
  revert lists
  cases kind <;> simp [layout, pairLayout]

namespace Node

variable {node : Node} {own : String} {separator : Option (String × Nat)}

/-- All that is written of a node is written if the node is. -/
theorem ok_of_mem_pieces (rendered : node.render = .ok own) {part : Part}
    {piece : Except RenderError String} (inside : part ∈ node.kind.layout.parts)
    (member : piece ∈ part.pieces node.kind node.attributes (gapText node.kind node.gaps)
      (node.condition.map render) (node.children.map render)) : ∃ text, piece = .ok text := by
  rw [render_eq] at rendered
  obtain ⟨texts, each, -⟩ := joinPieces_eq_ok.1 rendered
  have member : piece ∈ texts.map .ok := each ▸ List.mem_flatMap.2 ⟨part, inside, member⟩
  obtain ⟨text, -, rfl⟩ := List.mem_map.1 member
  exact ⟨text, rfl⟩

/-- So are the children in a list. -/
theorem render_child (lists : .children separator ∈ node.kind.layout.parts)
    (rendered : node.render = .ok own) {child : Node} (member : child ∈ node.children) :
    ∃ text, child.render = .ok text := by
  obtain ⟨place, found⟩ := List.mem_iff_getElem?.1 member
  refine ok_of_mem_pieces rendered lists (List.mem_flatten.2 ⟨_, List.mem_map.2
    ⟨(child.render, place), List.mk_mem_zipIdx_iff_getElem?.2 ?_, rfl⟩,
    List.mem_append_right _ List.mem_cons_self⟩)
  rw [List.getElem?_map, found, Option.map_some]

/-- Where other children are listed that are written themselves, the node is still written. -/
theorem render_withChildren (lists : .children separator ∈ node.kind.layout.parts)
    (rendered : node.render = .ok own) {others : List Node}
    (each : ∀ child ∈ others, ∃ text, child.render = .ok text) :
    ∃ text, (node.withChildren others).render = .ok text := by
  obtain ⟨kind, attributes, condition, children, gaps⟩ := node
  cases result : ((mk kind attributes condition children gaps).withChildren others).render with
  | ok text => exact ⟨text, rfl⟩
  | error error =>
    rw [withChildren, render_eq] at result
    obtain ⟨part, inside, member⟩ := List.mem_flatMap.1 (mem_of_joinPieces result)
    have inside : part ∈ kind.layout.parts := inside
    have written : ∃ text, (.error error : Except RenderError String) = .ok text := by
      cases part with
      | child place => exact absurd inside (Kind.child_notMem_parts lists place)
      | children separator =>
        obtain ⟨_, entry, member⟩ := List.mem_flatten.1 member
        obtain ⟨⟨text, place⟩, found, rfl⟩ := List.mem_map.1 entry
        rcases List.mem_append.1 member with comma | own
        · exact ok_of_mem_separatorPieces comma
        · obtain rfl := List.mem_singleton.1 own
          obtain ⟨child, here, same⟩ := List.mem_map.1 (List.fst_mem_of_mem_zipIdx found)
          obtain ⟨text, written⟩ := each child here
          exact ⟨text, same.symm.trans written⟩
      | _ => exact ok_of_mem_pieces rendered inside member
    obtain ⟨text, same⟩ := written
    contradiction

end Node

/-! ### Neighbours in a tree -/

namespace Tree

variable {tree later : Tree} {root n x y m : NodeId} {base place : Nat}
  {between other text : String} {change : Change}

/-- What is written between two nodes: the text in front of the second one is what is in front of
the first one, the first one itself, and what is between them. -/
def Separates (tree : Tree) (x y : NodeId) (between : String) : Prop :=
  ∃ root px py front sx sy back, tree.root = some root ∧ tree.path x = .ok px ∧
    tree.path y = .ok py ∧ tree.source x = .ok sx ∧ tree.source y = .ok sy ∧
    (tree.view root).around? px = some (front, between ++ sy ++ back) ∧
    (tree.view root).around? py = some (front ++ sx ++ between, back) ∧
    tree.emit = .ok (front ++ sx ++ between ++ sy ++ back)

/-- Only one text is between two nodes. -/
theorem Separates.unique (first : tree.Separates x y between) (second : tree.Separates x y other) :
    between = other := by
  obtain ⟨root, px, py, front, sx, sy, back, isRoot, pathX, pathY, sourceX, sourceY, aroundX,
    aroundY, -⟩ := first
  obtain ⟨_, _, _, _, _, _, _, isRootToo, pathXToo, pathYToo, sourceXToo, sourceYToo, aroundXToo,
    aroundYToo, -⟩ := second
  obtain rfl := Option.some.inj (isRoot.symm.trans isRootToo)
  obtain rfl := Except.ok.inj (pathX.symm.trans pathXToo)
  obtain rfl := Except.ok.inj (pathY.symm.trans pathYToo)
  obtain rfl := Except.ok.inj (sourceX.symm.trans sourceXToo)
  obtain rfl := Except.ok.inj (sourceY.symm.trans sourceYToo)
  obtain ⟨rfl, -⟩ := Prod.mk.inj (Option.some.inj (aroundX.symm.trans aroundXToo))
  obtain ⟨same, -⟩ := Prod.mk.inj (Option.some.inj (aroundY.symm.trans aroundYToo))
  exact (String.append_right_inj _).1 same

/-- The children at a place of a node and at the next one. -/
def Adjacent (tree : Tree) (n : NodeId) (place : Nat) (x y : NodeId) : Prop :=
  (tree.children n)[place]? = some x ∧ (tree.children n)[place + 1]? = some y

/-- The comma behind the child at a place of a node, with the gap that follows the comma. -/
def separator (tree : Tree) (n : NodeId) (base place : Nat) : String :=
  "," ++ Node.gapText n.kind (tree.gaps n) (base + place)

namespace Regular

variable (regular : tree.Regular) (isRoot : tree.root = some root) (below : tree.Below root n)
  (emitted : tree.emit = .ok text)
include regular isRoot below emitted

/-- **Neighbours are separated by the comma and the gap of their place.** -/
theorem separates (listed : n.kind.layout.separatorBase? = some base)
    (adjacent : tree.Adjacent n place x y) : tree.Separates x y (tree.separator n base place) := by
  obtain ⟨first, second⟩ := adjacent
  obtain ⟨path, front, own, back, -, around, rfl, spot⟩ := regular.spot isRoot below emitted
  have view := (regular.coherent.founded spot.stored).view_eq
  have child {place : Nat} {z : NodeId} (found : (tree.children n)[place]? = some z) :
      (tree.view n).children[place]? = some (tree.view z) := by
    rw [view, Node.children, List.getElem?_map, found, Option.map_some]
  have here {place : Nat} {z : NodeId} (found : (tree.children n)[place]? = some z) :
      tree.path z = .ok (path ++ [.index place]) :=
    regular.coherent.path_of_descend isRoot
      (descend_concat.2 ⟨n, spot.reached, (tree.step?_index n place).trans found⟩)
  have kind := tree.kind_view n
  have between : "," ++ Node.gapText (tree.view n).kind (tree.view n).gaps (base + place) =
      tree.separator n base place := by
    rw [kind, view, Node.gaps, separator]
  obtain ⟨ahead, behind, sx, sy, writtenX, writtenY, aroundX, aroundY, rfl⟩ :=
    Node.around?_neighbours (kind.symm ▸ Kind.children_mem_of_separatorBase? listed) spot.written
      (child first) (child second)
  have found := (regular.coherent.founded (regular.coherent.root root isRoot).1).at?_of_descend
    spot.reached
  refine ⟨root, _, _, front ++ ahead, sx, sy, behind ++ back, isRoot, here first, here second,
    writtenX, writtenY, ?_, ?_, ?_⟩
  · rw [Node.around?_append found around, aroundX, between, Option.map_some]
    simp only [String.append_assoc]
  · rw [Node.around?_append found around, aroundY, between, Option.map_some]
    simp only [String.append_assoc]
  · rw [emitted, between]
    simp only [String.append_assoc]

end Regular

/-! ### Edits of a list -/

/-- A node has other children, the tree is written again, and what separates neighbours among them
is what separated the children that stood in these places before. -/
structure Relisted (tree later : Tree) (n : NodeId) (base : Nat) (children : List NodeId) :
    Prop where
  children : later.children n = children
  emitted : ∃ text, later.emit = .ok text
  separates : ∀ {place x y}, later.Adjacent n place x y →
    later.Separates x y (tree.separator n base place)

/-- Neighbours and their separators, where a child came in. -/
theorem Relisted.of_insertIdx {spot : Nat}
    (relisted : tree.Relisted later n base ((tree.children n).insertIdx spot m))
    (adjacent : tree.Adjacent n place x y) :
    (place + 1 < spot → later.Separates x y (tree.separator n base place)) ∧
      (spot ≤ place → later.Separates x y (tree.separator n base (place + 1))) := by
  obtain ⟨first, second⟩ := adjacent
  refine ⟨fun ahead => relisted.separates ?_, fun behind => relisted.separates ?_⟩ <;>
    rw [Adjacent, relisted.children]
  · exact ⟨(List.getElem?_insertIdx_of_lt (by omega)).trans first,
      (List.getElem?_insertIdx_of_lt ahead).trans second⟩
  · exact ⟨(List.getElem?_insertIdx_of_gt (by omega)).trans first,
      (List.getElem?_insertIdx_of_gt (by omega)).trans second⟩

/-- Neighbours and their separators, where a child went out. -/
theorem Relisted.of_eraseIdx {spot : Nat}
    (relisted : tree.Relisted later n base ((tree.children n).eraseIdx spot))
    (adjacent : tree.Adjacent n place x y) :
    (place + 1 < spot → later.Separates x y (tree.separator n base place)) ∧
      (spot < place → later.Separates x y (tree.separator n base (place - 1))) := by
  obtain ⟨first, second⟩ := adjacent
  refine ⟨fun ahead => relisted.separates ?_, fun behind => relisted.separates ?_⟩ <;>
    rw [Adjacent, relisted.children]
  · exact ⟨(List.getElem?_eraseIdx_of_lt (by omega)).trans first,
      (List.getElem?_eraseIdx_of_lt ahead).trans second⟩
  · obtain ⟨place, rfl⟩ := Nat.exists_eq_add_one_of_ne_zero (Nat.ne_zero_of_lt behind)
    exact ⟨(List.getElem?_eraseIdx_of_ge (by omega)).trans first,
      (List.getElem?_eraseIdx_of_ge (by omega)).trans second⟩

section Edits

variable (neat : tree.Neat) (isRoot : tree.root = some root) (below : tree.Below root n)
  (listed : n.kind.layout.separatorBase? = some base) (emitted : tree.emit = .ok text)
include neat isRoot below listed emitted

/-- Where the list gets other children, the texts behind the commas keep their places. -/
theorem relisted_of_storeChildren (neatToo : later.Neat) (leads : tree.Leads later change)
    (here : change.node = n)
    (apart : ∀ new ∈ change.after.node?, ¬ tree.Below new n)
    (top : later.root? = some root) {children : List NodeId}
    (becomes : (tree.storeChildren n children).Matches later)
    (each : ∀ child ∈ children, child ∈ tree.children n ∨ ∃ text, tree.source child = .ok text) :
    tree.Relisted later n base children := by
  subst here
  have regular := neat.regular
  have forest := neat.sound.toForest
  have founded := forest.founded change.node
  have foundedToo := neatToo.sound.founded change.node
  have changed := leads.changedAt
  obtain ⟨path, front, own, back, -, -, rfl, spot⟩ := regular.spot isRoot below emitted
  have made := made_of_contains spot.stored
  have view : later.view change.node =
      (tree.view change.node).withChildren (children.map tree.view) :=
    becomes.view_storeChildren founded foundedToo
      (fun x => changed.view_of_owns regular.coherent spot.stored apart) made
  -- The list is written again, so the tree is, and neighbours in it are separated as in any other.
  have lists : .children (some (",", base)) ∈ (tree.view change.node).kind.layout.parts :=
    (tree.kind_view change.node).symm ▸ Kind.children_mem_of_separatorBase? listed
  obtain ⟨own, written⟩ := Node.render_withChildren lists spot.written
    fun child (member : child ∈ children.map tree.view) => by
      obtain ⟨x, inside, rfl⟩ := List.mem_map.1 member
      refine (each x inside).elim (fun before => ?_) id
      refine Node.render_child lists spot.written ?_
      rw [founded.view_eq]
      exact List.mem_map_of_mem before
  rw [← view] at written
  have emittedToo := spot.emit_of_changedAt regular changed
    (fun new member => ⟨forest.founded new, apart new member⟩) top written
  have gaps : later.gaps change.node = tree.gaps change.node := by
    have same := congrArg Node.gaps view
    rwa [foundedToo.view_eq, founded.view_eq] at same
  refine ⟨?_, ⟨_, emittedToo⟩, fun adjacent => ?_⟩
  · rw [becomes.children, children_storeChildren made]
  · have separates := neatToo.regular.separates (root?_eq_some.1 top).1
      (leads.below forest below) emittedToo listed adjacent
    rwa [separator, gaps] at separates

/-- Adding a child lists it at its place. -/
theorem relisted_of_addChild {index : Option Int} {own : String}
    (usable : (Candidate.own m).Usable tree) (written : tree.source m = .ok own)
    (worked : (tree.addChild n (.own m) index).2 = .ok change) :
    ∃ spot, change.index = some spot ∧ tree.Relisted (tree.addChild n (.own m) index).1 n base
      ((tree.children n).insertIdx spot m) := by
  have coherent := neat.sound.coherent
  have storedRoot := (coherent.root root isRoot).1
  have stored := coherent.contains_below storedRoot below
  have neatToo : (tree.addChild n (.own m) index).1.Neat :=
    @Neat.perform tree neat (.addChild n (.own m) index) ⟨stored, usable⟩ trivial
  have leads := led_addChild stored worked
  obtain ⟨cause, -, same⟩ | ⟨child, spot, checked, same⟩ := addChild_cases tree n (.own m) index <;>
    rw [same] at worked leads neatToo ⊢
  · contradiction
  · obtain ⟨attached, -, inside, -⟩ := checkAddChild_eq_ok.1 checked
    have linked := (attachRefusal?_eq_ok.1 attached).1
    obtain ⟨⟨rfl⟩, -⟩ := linkRefusal?_eq_ok.1 linked
    obtain ⟨path, rfl⟩ := described_eq_ok worked
    have apart := neat.sound.apart_of_linked stored linked
    refine ⟨spot, rfl, relisted_of_storeChildren neat isRoot below listed emitted neatToo leads.1
      rfl (fun _ member => Option.some.inj member ▸ apart)
      (root?_adopt (root?_modify (Cell.inner_children _) (root?_eq_some.2 ⟨isRoot, storedRoot⟩)))
      (Alike.adopt _ m n).matches fun x member => ?_⟩
    obtain rfl | before := List.eq_or_mem_of_mem_insertIdx member
    · exact .inr ⟨own, written⟩
    · exact .inl before

/-- Removing a child takes it out of its place. -/
theorem relisted_of_removeChild {z : NodeId}
    (worked : (tree.removeChild n (.own z)).2 = .ok change) :
    ∃ spot, change.index = some spot ∧ (tree.children n)[spot]? = some z ∧
      tree.Relisted (tree.removeChild n (.own z)).1 n base ((tree.children n).eraseIdx spot) := by
  have coherent := neat.sound.coherent
  have stored := coherent.contains_below (coherent.root root isRoot).1 below
  have neatToo : (tree.removeChild n (.own z)).1.Neat :=
    @Neat.perform tree neat (.removeChild n (.own z)) stored trivial
  have leads := led_removeChild stored worked
  obtain ⟨refusal, -, same⟩ | ⟨child, spot, checked, same⟩ := removeChild_cases tree n (.own z) <;>
    rw [same] at worked leads neatToo ⊢
  · contradiction
  · obtain ⟨⟨rfl⟩, spotted, -⟩ := checkRemoveChild_eq_ok.1 checked
    have found := getElem?_of_position? spotted
    obtain ⟨path, rfl⟩ := described_eq_ok worked
    exact ⟨spot, rfl, found, relisted_of_storeChildren neat isRoot below listed emitted neatToo
      leads.1 rfl nofun (root?_eraseChild coherent isRoot stored
        (owns_child (List.mem_of_getElem? found)))
      (Alike.release _ z).matches fun x member => .inl (List.mem_of_mem_eraseIdx member)⟩

/-- **What separates neighbours in a list.** The separators keep their places when a child comes in
or goes out, so neighbours in front of the place keep theirs, and neighbours behind it get those of
the pair that stood where they stand now. -/
theorem separators_of_worked :
    (∀ {place x y}, tree.Adjacent n place x y →
      tree.Separates x y (tree.separator n base place)) ∧
    (∀ {m own index change}, (Candidate.own m).Usable tree → tree.source m = .ok own →
      (tree.addChild n (.own m) index).2 = .ok change →
      ∃ spot, change.index = some spot ∧ tree.Relisted (tree.addChild n (.own m) index).1 n base
        ((tree.children n).insertIdx spot m) ∧
        ∀ {place x y}, tree.Adjacent n place x y →
          (place + 1 < spot → (tree.addChild n (.own m) index).1.Separates x y
            (tree.separator n base place)) ∧
          (spot ≤ place → (tree.addChild n (.own m) index).1.Separates x y
            (tree.separator n base (place + 1)))) ∧
    ∀ {z change}, (tree.removeChild n (.own z)).2 = .ok change →
      ∃ spot, change.index = some spot ∧ (tree.children n)[spot]? = some z ∧
        tree.Relisted (tree.removeChild n (.own z)).1 n base ((tree.children n).eraseIdx spot) ∧
        ∀ {place x y}, tree.Adjacent n place x y →
          (place + 1 < spot → (tree.removeChild n (.own z)).1.Separates x y
            (tree.separator n base place)) ∧
          (spot < place → (tree.removeChild n (.own z)).1.Separates x y
            (tree.separator n base (place - 1))) := by
  refine ⟨neat.regular.separates isRoot below emitted listed, fun usable written worked => ?_,
    fun worked => ?_⟩
  · obtain ⟨spot, told, relisted⟩ :=
      relisted_of_addChild neat isRoot below listed emitted usable written worked
    exact ⟨spot, told, relisted, relisted.of_insertIdx⟩
  · obtain ⟨spot, told, found, relisted⟩ :=
      relisted_of_removeChild neat isRoot below listed emitted worked
    exact ⟨spot, told, found, relisted, relisted.of_eraseIdx⟩

end Edits

/-- A statement that returns three values, with another gap behind each comma. -/
theorem exists_return_of_ofSource : ∃ tree root statement a b c,
    ofSource "t" {} "return a,b, c;" = .ok tree ∧ tree.root = some root ∧
      tree.Below root statement ∧ statement.kind.layout.separatorBase? = some 2 ∧
      tree.emit = .ok "return a,b, c;" ∧ tree.children statement = [a, b, c] ∧
      tree.separator statement 2 0 = "," ∧ tree.separator statement 2 1 = ", " ∧
      (∃ change, (tree.removeChild statement (.own a)).2 = .ok change ∧ change.index = some 0) ∧
      ∃ change, (tree.removeChild statement (.own c)).2 = .ok change ∧ change.index = some 2 := by
  let value (name : String) : Node :=
    .mk .reference [("variable_name", .text name)] none [] [(0, "")]
  let node : Node := .mk .compilationUnit [] none [.mk .returnStatement [] none
    [value "a", value "b", value "c"] [(0, " "), (1, ""), (2, ""), (3, " ")]] [(0, "")]
  let unit : NodeId := ⟨.compilationUnit, 1⟩
  let statement : NodeId := ⟨.returnStatement, 2⟩
  obtain ⟨tree, made⟩ : ∃ tree, tree = { ((empty "t" {}).plant node).1 with
    root := some ((empty "t" {}).plant node).2 } := ⟨_, rfl⟩
  have small {number : Nat} (few : number < 10) : number < 10 ^ Text.digitLimit :=
    few.trans_le (Nat.le_self_pow (by decide) 10)
  have leaf {name : String}
      (good : attributeProblem? .reference "variable_name" (.text name) = none) :
      (value name).All Node.Loadable :=
    .mk ⟨List.forall_mem_singleton.2 good, List.forall_mem_singleton.2 (small (by decide))⟩
      nofun nofun
  have loadable : node.All Node.Loadable := by
    refine .mk ⟨nofun, List.forall_mem_singleton.2 (small (by decide))⟩ nofun ?_
    refine List.forall_mem_singleton.2 (.mk ⟨nofun, fun entry member => small ?_⟩ nofun ?_)
    · revert entry
      decide
    · simp only [Node.children, List.forall_mem_cons]
      exact ⟨leaf (by cbv), leaf (by cbv), leaf (by cbv), List.forall_mem_nil _⟩
  have parsed : parseUnit "return a,b, c;" = .ok node := by cbv
  have built : Tree.ofRaw "t" {} node.toRaw = .ok tree := ofRaw_eq_ok.2 ⟨by cbv, node,
    (Node.ofRaw_of_grammatical (parse_grammatical parsed)).2 ⟨by rfl, loadable⟩, made⟩
  have read : ofSource "t" {} "return a,b, c;" = .ok tree := by
    rw [ofSource, parsed]
    show (Tree.ofRaw "t" {} node.toRaw).mapError SourceError.build = _
    rw [built]
    rfl
  have owns : (tree.directNodes unit).contains statement := by
    rw [made]
    cbv
  refine ⟨tree, unit, statement, ⟨.reference, 3⟩, ⟨.reference, 4⟩, ⟨.reference, 5⟩, read, ?_,
    .single (List.contains_iff_mem.1 owns), rfl, ?_, ?_, ?_, ?_, ?_, ?_⟩ <;> rw [made]
  · cbv
  · cbv
  · cbv
  · cbv
  · cbv
  · exact ⟨_, by cbv, by cbv⟩
  · exact ⟨_, by cbv, by cbv⟩

/-- The last value goes out, and the first two are separated as they were. -/
theorem separators_of_worked_last : ∃ tree root statement a b c change,
    ofSource "t" {} "return a,b, c;" = .ok tree ∧ tree.Neat ∧ tree.root = some root ∧
      tree.Below root statement ∧ statement.kind.layout.separatorBase? = some 2 ∧
      tree.emit = .ok "return a,b, c;" ∧ tree.children statement = [a, b, c] ∧
      (tree.removeChild statement (.own c)).2 = .ok change ∧ tree.Separates a b "," ∧
      (tree.removeChild statement (.own c)).1.children statement = [a, b] ∧
      (tree.removeChild statement (.own c)).1.Separates a b "," := by
  obtain ⟨tree, root, statement, a, b, c, read, isRoot, below, listed, emitted, children, comma, -,
    -, change, worked, here⟩ := exists_return_of_ofSource
  have neat := (ready_of_ofSource read).1.neat
  obtain ⟨before, -, removed⟩ := separators_of_worked neat isRoot below listed emitted
  obtain ⟨spot, told, -, relisted, after⟩ := removed worked
  obtain rfl := Option.some.inj (here.symm.trans told)
  have left := relisted.children
  have adjacent : tree.Adjacent statement 0 a b := by
    rw [Adjacent, children]
    exact ⟨rfl, rfl⟩
  rw [children] at left
  exact ⟨tree, root, statement, a, b, c, change, read, neat, isRoot, below, listed, emitted,
    children, worked, comma ▸ before adjacent, left, comma ▸ (after adjacent).1 (by decide)⟩

/-- The first value goes out, and the last two get the separator that stood in front of them. -/
theorem separators_of_worked_moved : ∃ tree root statement a b c change,
    ofSource "t" {} "return a,b, c;" = .ok tree ∧ tree.root = some root ∧
      tree.Below root statement ∧ tree.children statement = [a, b, c] ∧
      (tree.removeChild statement (.own a)).2 = .ok change ∧
      (tree.removeChild statement (.own a)).1.children statement = [b, c] ∧
      tree.Separates b c ", " ∧ (tree.removeChild statement (.own a)).1.Separates b c "," ∧
      ¬ (tree.removeChild statement (.own a)).1.Separates b c ", " := by
  obtain ⟨tree, root, statement, a, b, c, read, isRoot, below, listed, emitted, children, comma,
    blank, ⟨change, worked, here⟩, -⟩ := exists_return_of_ofSource
  have neat := (ready_of_ofSource read).1.neat
  obtain ⟨spot, told, -, relisted⟩ :=
    relisted_of_removeChild neat isRoot below listed emitted worked
  obtain rfl := Option.some.inj (here.symm.trans told)
  have left := relisted.children
  have adjacent : tree.Adjacent statement 1 b c := by
    rw [Adjacent, children]
    exact ⟨rfl, rfl⟩
  have moved := (relisted.of_eraseIdx adjacent).2 (by decide)
  rw [children] at left
  rw [show 1 - 1 = 0 from rfl, comma] at moved
  exact ⟨tree, root, statement, a, b, c, change, read, isRoot, below, children, worked, left,
    blank ▸ neat.regular.separates isRoot below emitted listed adjacent, moved,
    fun same => absurd (moved.unique same) (by decide)⟩

end Tree

end Verbatim
