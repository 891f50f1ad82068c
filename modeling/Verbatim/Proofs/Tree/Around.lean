import Verbatim.Proofs.Tree.Fitting
import Verbatim.Proofs.Tree.Places

/-!
# What is written around a node

The text of a node is a row of pieces, and each node right below it gives one of them. So the text
has a part in front of what a path leads to, and a part behind it, and neither depends on what stands
there. Change the node at the end of the path, and the text changes there and nowhere else.

A child that the layout has no place for is not written at all, and neither is a condition where the
kind has no slot for one. That is why both are ruled out first.

## Main definitions

* `Node.Shaped`: the node has no more children than there is room for, and a condition only in a slot
* `Node.row`: the pieces of the text of a node, each with the step that leads to it
* `Node.around?`: the texts in front of and behind what a path leads to

## Main results

* `Node.render_around`: a text is what is in front, what the path leads to, and what is behind, and
  **a change at a place changes the text at that place only**
* `Node.render_block`: the children of a block are written one behind the other
* `Node.render_attribute`: an attribute is written once
-/

namespace Verbatim

/-! ### The pieces of one part -/

/-- The pieces of a text in a row. A piece that is the text of a node below comes with the step to
it. -/
abbrev Row := List (Option PathStep × Except RenderError String)

/-- The texts in front of the one that the step leads to. -/
def Row.before (row : Row) (step : PathStep) : List (Except RenderError String) :=
  (row.takeWhile fun piece => piece.1 ≠ some step).map Prod.snd

/-- The texts behind the one that the step leads to. -/
def Row.behind (row : Row) (step : PathStep) : List (Except RenderError String) :=
  ((row.dropWhile fun piece => piece.1 ≠ some step).drop 1).map Prod.snd

/-- Where only one piece belongs to the step, it stands between the others. -/
theorem Row.before_behind {front back : Row} {step : PathStep} {text : Except RenderError String}
    (apart : ∀ piece ∈ front ++ back, piece.1 ≠ some step) :
    Row.before (front ++ (some step, text) :: back) step = front.map Prod.snd ∧
      Row.behind (front ++ (some step, text) :: back) step = back.map Prod.snd := by
  have passes (piece) (member : piece ∈ front) :
      decide ((piece : Option PathStep × Except RenderError String).1 ≠ some step) = true :=
    decide_eq_true (apart piece (List.mem_append_left _ member))
  rw [before, behind, List.takeWhile_append_of_pos passes, List.dropWhile_append_of_pos passes]
  simp

/-- The text in the slot, where the step leads there. -/
def PathStep.putCondition {α : Type} (text : α) (condition : Option α) : PathStep → Option α
  | .condition => some text
  | .index _ => condition

/-- The text among those of the children, where the step leads there. -/
def PathStep.putChild {α : Type} (text : α) (children : List α) : PathStep → List α
  | .condition => children
  | .index place => children.set place text

namespace Part

/-- Whether the part stands for what the step leads to. -/
def leads (step : PathStep) : Part → Bool
  | .condition => step = .condition
  | .child index => step = .index index
  | .children _ => step ≠ .condition
  | _ => false

section Rows

variable (kind : Kind) (attributes : List (String × Json)) (gapText : Nat → String)
  (condition : Option (Except RenderError String)) (children : List (Except RenderError String))

/-- The texts that one part of a layout stands for, with the steps to those of nodes. -/
def row : Part → Row
  | .condition => [(some .condition, condition.getD (.error (.missingCondition kind)))]
  | .child index =>
    [(some (.index index), (children[index]?).getD (.error (.missingChild kind index)))]
  | .children separator =>
    (children.zipIdx.map fun (text, place) =>
      (separatorPieces separator gapText place).map (none, ·) ++ [(some (.index place), text)]).flatten
  | part => (part.pieces kind attributes gapText condition children).map (none, ·)

theorem map_row (part : Part) : (part.row kind attributes gapText condition children).map Prod.snd =
    part.pieces kind attributes gapText condition children := by
  cases part <;> simp [row, pieces, List.map_flatten, Function.comp_def]

variable {kind attributes gapText condition children}

theorem row_put_of_not_leads {step : PathStep} {part : Part} (away : part.leads step = false)
    (text : Except RenderError String) :
    part.row kind attributes gapText (step.putCondition text condition)
      (step.putChild text children) = part.row kind attributes gapText condition children := by
  cases part with
  | condition =>
    cases step with
    | condition => exact absurd away Bool.noConfusion
    | index place => rfl
  | child index =>
    cases step with
    | condition => rfl
    | index place =>
      have other : place ≠ index := fun same => by simp [leads, same] at away
      simp [row, PathStep.putChild, other]
  | children separator =>
    cases step with
    | condition => rfl
    | index place => exact absurd away Bool.noConfusion
  | _ => rfl

theorem ne_of_mem_row_of_not_leads {step : PathStep} {part : Part} (away : part.leads step = false) :
    ∀ piece ∈ part.row kind attributes gapText condition children, piece.1 ≠ some step := by
  rintro ⟨label, text⟩ member rfl
  cases part with
  | condition => simp_all [row, leads]
  | child index => simp_all [row, leads]
  | children separator =>
    simp only [row, List.mem_flatten, List.mem_map] at member
    obtain ⟨-, ⟨⟨inner, place⟩, -, rfl⟩, member⟩ := member
    simp_all [leads]
  | _ => simp [row] at member

/-- The pieces of children from some place on belong to these places. -/
theorem le_of_mem_children {separator : Option (String × Nat)} {start place : Nat}
    {text : Except RenderError String}
    (member : (some (PathStep.index place), text) ∈ (children.zipIdx start |>.map fun (text, place) =>
      (separatorPieces separator gapText place).map (none, ·) ++
        [(some (PathStep.index place), text)]).flatten) :
    start ≤ place ∧ place < start + children.length := by
  simp only [List.mem_flatten, List.mem_map] at member
  obtain ⟨-, ⟨⟨inner, spot⟩, found, rfl⟩, member⟩ := member
  obtain ⟨rfl, -⟩ : spot = place ∧ inner = text := by simpa [eq_comm] using member
  exact ⟨List.le_snd_of_mem_zipIdx found, List.snd_lt_add_of_mem_zipIdx found⟩

/-- In the part that a step leads to, one piece belongs to it. -/
theorem exists_row_put {step : PathStep} {part : Part} (leads : part.leads step)
    (inside : ∀ place, step = .index place → place < children.length) :
    ∃ front back, (∀ piece ∈ front ++ back, piece.1 ≠ some step) ∧
      ∀ text, part.row kind attributes gapText (step.putCondition text condition)
        (step.putChild text children) = front ++ (some step, text) :: back := by
  cases part with
  | condition =>
    obtain rfl := of_decide_eq_true leads
    exact ⟨[], [], nofun, fun text => rfl⟩
  | child index =>
    obtain rfl := of_decide_eq_true leads
    exact ⟨[], [], nofun, fun text => by simp [row, PathStep.putChild, inside index rfl]⟩
  | children separator =>
    cases step with
    | condition => exact absurd leads Bool.noConfusion
    | index place =>
      have inside := inside place rfl
      let pieces (entry : Except RenderError String × Nat) : Row :=
        (separatorPieces separator gapText entry.2).map (none, ·) ++
          [(some (PathStep.index entry.2), entry.1)]
      refine ⟨((children.take place).zipIdx.map pieces).flatten ++
          (separatorPieces separator gapText place).map (none, ·),
        ((children.drop (place + 1)).zipIdx (place + 1) |>.map pieces).flatten, ?_, fun text => ?_⟩
      · rintro ⟨label, text⟩ member rfl
        rcases List.mem_append.1 member with member | member
        · rcases List.mem_append.1 member with member | member
          · have bound := (le_of_mem_children member).2
            rw [List.length_take, Nat.min_eq_left inside.le] at bound
            omega
          · simp at member
        · have bound := (le_of_mem_children member).1
          omega
      · have split : children.set place text =
            children.take place ++ text :: children.drop (place + 1) := by
          rw [List.set_eq_take_append_cons_drop, if_pos inside]
        have length : (children.take place).length = place := by
          rw [List.length_take, Nat.min_eq_left inside.le]
        show ((children.set place text).zipIdx.map pieces).flatten = _
        rw [split, List.zipIdx_append, List.zipIdx_cons, length, Nat.zero_add]
        simp [pieces]
  | _ => exact absurd leads Bool.false_ne_true

end Rows

end Part

/-! ### The pieces of a node -/

namespace Kind

/-- The pieces of a node of the kind, from the texts of what is below it. -/
def row (kind : Kind) (attributes : List (String × Json)) (gaps : Gaps)
    (condition : Option (Except RenderError String))
    (children : List (Except RenderError String)) : Row :=
  kind.layout.parts.flatMap (Part.row kind attributes (Node.gapText kind gaps) condition children)

/-- Whether there is a place for what the step leads to. -/
def HasPlace (kind : Kind) : PathStep → Prop
  | .condition => kind.hasCondition
  | .index place => ∀ limit, kind.maxChildren = some limit → place < limit

/-- One part of the layout leads there. -/
theorem countP_leads {kind : Kind} {step : PathStep} (spot : kind.HasPlace step) :
    kind.layout.parts.countP (Part.leads step) = 1 := by
  cases step with
  | condition =>
    revert spot
    cases kind <;> simp [HasPlace, hasCondition] <;> decide
  | index place =>
    cases kind with
    | assignment | definition | connectorDefinition | binary =>
      have small : place < 2 := spot 2 rfl
      interval_cases place <;> rfl
    | expressionStatement | unary | bracketed =>
      obtain rfl : place = 0 := Nat.lt_one_iff.1 (spot 1 rfl)
      rfl
    | declaration | literal | reference => exact absurd (spot 0 rfl) (Nat.not_lt_zero place)
    | _ => rfl

variable {kind : Kind} {attributes : List (String × Json)} {gaps : Gaps}
  {condition : Option (Except RenderError String)} {children : List (Except RenderError String)}

theorem assemble_eq : kind.assemble attributes gaps condition children =
    joinPieces ((kind.row attributes gaps condition children).map Prod.snd) := by
  rw [row, List.map_flatMap]
  simp only [Part.map_row]
  rfl

/-- One piece belongs to a step, and the others do not depend on it. -/
theorem exists_row_put {step : PathStep} (spot : kind.HasPlace step)
    (inside : ∀ place, step = .index place → place < children.length) :
    ∃ front back, (∀ piece ∈ front ++ back, piece.1 ≠ some step) ∧
      ∀ text, kind.row attributes gaps (step.putCondition text condition)
        (step.putChild text children) = front ++ (some step, text) :: back := by
  have once := countP_leads spot
  obtain ⟨part, member, leads⟩ := List.countP_pos_iff.1 (once ▸ Nat.one_pos)
  obtain ⟨first, last, split⟩ := List.append_of_mem member
  rw [split, List.countP_append, List.countP_cons_of_pos leads] at once
  have away {parts : List Part} (none : parts.countP (Part.leads step) = 0) {part : Part}
      (member : part ∈ parts) : part.leads step = false :=
    Bool.eq_false_iff.2 (List.countP_eq_zero.1 none part member)
  -- The parts beside the one that leads there give what they gave.
  have beside {parts : List Part} (none : parts.countP (Part.leads step) = 0)
      (text : Except RenderError String) :
      parts.flatMap (Part.row kind attributes (Node.gapText kind gaps)
        (step.putCondition text condition) (step.putChild text children)) =
      parts.flatMap (Part.row kind attributes (Node.gapText kind gaps) condition children) :=
    List.flatMap_congr fun part member => Part.row_put_of_not_leads (away none member) text
  have apartBeside {parts : List Part} (none : parts.countP (Part.leads step) = 0) :
      ∀ piece ∈ parts.flatMap (Part.row kind attributes (Node.gapText kind gaps) condition children),
        piece.1 ≠ some step := fun piece member => by
    obtain ⟨part, inside, member⟩ := List.mem_flatMap.1 member
    exact Part.ne_of_mem_row_of_not_leads (away none inside) piece member
  obtain ⟨front, back, apart, here⟩ := @Part.exists_row_put kind attributes
    (Node.gapText kind gaps) condition children step part leads inside
  have noneFirst : first.countP (Part.leads step) = 0 := by omega
  have noneLast : last.countP (Part.leads step) = 0 := by omega
  refine ⟨first.flatMap (Part.row kind attributes (Node.gapText kind gaps) condition children) ++
      front, back ++ last.flatMap (Part.row kind attributes (Node.gapText kind gaps) condition
        children), fun piece member => ?_, fun text => ?_⟩
  · simp only [List.mem_append] at member
    rcases member with (before | before) | (after | after)
    · exact apartBeside noneFirst piece before
    · exact apart piece (List.mem_append_left _ before)
    · exact apart piece (List.mem_append_right _ after)
    · exact apartBeside noneLast piece after
  · rw [row, split, List.flatMap_append, List.flatMap_cons, beside noneFirst, beside noneLast, here]
    simp

end Kind

/-! ### Joining around a piece -/

theorem joinPieces_append_eq_ok {first second : List (Except RenderError String)} {text : String} :
    joinPieces (first ++ second) = .ok text ↔ ∃ front back, joinPieces first = .ok front ∧
      joinPieces second = .ok back ∧ front ++ back = text := by
  constructor
  · induction first generalizing text with
    | nil => exact fun joined => ⟨"", text, rfl, joined, String.empty_append⟩
    | cons piece rest ih =>
      cases piece with
      | error e => exact nofun
      | ok head =>
        intro joined
        obtain ⟨tail, rest, rfl⟩ := map_eq_ok.1 joined
        obtain ⟨front, back, first, second, rfl⟩ := ih rest
        refine ⟨head ++ front, back, ?_, second, String.append_assoc⟩
        rw [joinPieces, first]
        rfl
  · rintro ⟨front, back, first, second, rfl⟩
    exact joinPieces_append_ok first second

theorem joinPieces_cons_eq_ok {piece : Except RenderError String}
    {rest : List (Except RenderError String)} {text : String} :
    joinPieces (piece :: rest) = .ok text ↔ ∃ own back, piece = .ok own ∧
      joinPieces rest = .ok back ∧ own ++ back = text := by
  cases piece with
  | error e => simp [joinPieces]
  | ok own => simp [joinPieces, map_eq_ok]

theorem joinPieces_eq_ok {pieces : List (Except RenderError String)} {text : String} :
    joinPieces pieces = .ok text ↔ ∃ texts, pieces = texts.map .ok ∧ String.join texts = text := by
  induction pieces generalizing text with
  | nil => simp [joinPieces]
  | cons piece rest ih =>
    simp only [joinPieces_cons_eq_ok, ih]
    constructor
    · rintro ⟨own, back, rfl, ⟨texts, rfl, rfl⟩, rfl⟩
      exact ⟨own :: texts, rfl, String.join_cons⟩
    · rintro ⟨_ | ⟨own, texts⟩, each, rfl⟩
      · exact absurd each (List.cons_ne_nil _ _)
      · obtain ⟨rfl, rfl⟩ := List.cons.inj each
        exact ⟨own, _, rfl, ⟨texts, rfl, rfl⟩, String.join_cons.symm⟩

theorem joinPieces_append_error {first : List (Except RenderError String)} {error : RenderError}
    (failed : joinPieces first = .error error) (second : List (Except RenderError String)) :
    joinPieces (first ++ second) = .error error := by
  induction first with
  | nil => exact nomatch failed
  | cons piece rest ih =>
    cases piece with
    | error e => exact failed
    | ok head => rw [List.cons_append, joinPieces, ih (map_eq_error.1 failed), Except.map]

/-- One text between others. -/
theorem joinPieces_between {first second : List (Except RenderError String)} {front back : String}
    (before : joinPieces first = .ok front) (after : joinPieces second = .ok back)
    (piece : Except RenderError String) :
    joinPieces (first ++ piece :: second) = piece.map fun own => front ++ own ++ back := by
  rw [joinPieces_append before]
  cases piece with
  | error e => rfl
  | ok own =>
    rw [joinPieces, after]
    simp [Except.map, String.append_assoc]

namespace Node

variable {node inner : Node} {change : Node → Node}

/-- The node has no more children than there is room for, and a condition only in a slot. -/
structure Shaped (node : Node) : Prop where
  room : ∀ limit, node.kind.maxChildren = some limit → node.children.length ≤ limit
  slot : node.condition.isSome → node.kind.hasCondition

/-- The pieces of the text of the node. -/
def row (node : Node) : Row :=
  node.kind.row node.attributes node.gaps (node.condition.map render) (node.children.map render)

/-- The texts in front of and behind what a path leads to. -/
def around? : Path → Node → Option (String × String)
  | [], _ => some ("", "")
  | step :: rest, node => do
    let below ← node.step? step
    let (front, back) ← below.around? rest
    let before ← (joinPieces (node.row.before step)).toOption
    let behind ← (joinPieces (node.row.behind step)).toOption
    return (before ++ front, back ++ behind)

theorem render_eq_join (node : Node) : node.render = joinPieces (node.row.map Prod.snd) := by
  rw [render_eq, Kind.assemble_eq, row]

/-- A change one step below a node changes one piece of the text. -/
theorem row_update (shaped : node.Shaped) {step : PathStep} {below : Node}
    (stepped : node.step? step = some below) (change : Node → Node) (rest : Path) :
    node.row.map Prod.snd = node.row.before step ++ below.render :: node.row.behind step ∧
      (node.update change (step :: rest)).row.map Prod.snd =
        node.row.before step ++ (below.update change rest).render :: node.row.behind step := by
  obtain ⟨kind, attributes, condition, children, gaps⟩ := node
  have spot : kind.HasPlace step := by
    cases step with
    | condition => exact shaped.slot (Option.isSome_of_eq_some stepped)
    | index place =>
      obtain ⟨inside, -⟩ := List.getElem?_eq_some_iff.1 stepped
      exact fun limit most => Nat.lt_of_lt_of_le inside (shaped.room limit most)
  obtain ⟨front, back, apart, put⟩ := @Kind.exists_row_put kind attributes gaps
    (condition.map render) (children.map render) step spot (by
      rintro place rfl
      obtain ⟨inside, -⟩ := List.getElem?_eq_some_iff.1 stepped
      rwa [List.length_map])
  have before : (mk kind attributes condition children gaps).row =
      front ++ (some step, below.render) :: back := by
    rw [row, ← put below.render]
    cases step with
    | condition =>
      obtain rfl : condition = some below := stepped
      rfl
    | index place =>
      have stepped : children[place]? = some below := stepped
      obtain ⟨inside, rfl⟩ := List.getElem?_eq_some_iff.1 stepped
      rw [PathStep.putChild, ← List.map_set, List.set_getElem_self]
      rfl
  have after : ((mk kind attributes condition children gaps).update change (step :: rest)).row =
      front ++ (some step, (below.update change rest).render) :: back := by
    rw [row, ← put (below.update change rest).render]
    cases step with
    | condition =>
      obtain rfl : condition = some below := stepped
      rfl
    | index place =>
      rw [PathStep.putChild, ← List.map_set, update, List.modify_eq_set_getElem?,
        show children[place]? = some below from stepped]
      rfl
  rw [after, before, (Row.before_behind apart).1, (Row.before_behind apart).2]
  simp

/-- A text is what is in front of a place, what is there, and what is behind it. **A change at the
place changes the text at that place only.** -/
theorem render_around (shaped : node.All Shaped) {path : Path} {text : String}
    (found : node.at? path = some inner) (rendered : node.render = .ok text) :
    ∃ front own back, node.around? path = some (front, back) ∧ inner.render = .ok own ∧
      text = front ++ own ++ back ∧ ∀ change, (node.update change path).render =
        (change inner).render.map fun own => front ++ own ++ back := by
  induction path generalizing node text with
  | nil =>
    obtain rfl := Option.some.inj found
    refine ⟨"", text, "", rfl, rendered, by simp, fun change => ?_⟩
    rw [update]
    cases (change node).render <;> simp [Except.map]
  | cons step rest ih =>
    obtain ⟨below, stepped, found⟩ := Option.bind_eq_some_iff.1 found
    rw [render_eq_join, (row_update shaped.here stepped id rest).1] at rendered
    obtain ⟨before, _, first, further, rfl⟩ := joinPieces_append_eq_ok.1 rendered
    obtain ⟨middle, behind, whole, last, rfl⟩ := joinPieces_cons_eq_ok.1 further
    obtain ⟨front, own, back, around, here, rfl, changed⟩ := ih (shaped.step stepped) found whole
    refine ⟨before ++ front, own, back ++ behind, ?_, here, ?_, fun change => ?_⟩
    · simp [around?, stepped, around, first, last, Except.toOption]
    · simp [String.append_assoc]
    · rw [render_eq_join, (row_update shaped.here stepped change rest).2,
        joinPieces_between first last, changed]
      cases (change inner).render <;> simp [Except.map, String.append_assoc]

end Node

/-! ### Blocks and attributes -/

/-- What one part of a layout stands for is between what the others stand for. -/
theorem joinPieces_flatMap_between {first last : List Part} {part : Part} {own : String}
    {pieces : Part → List (Except RenderError String)}
    (joined : joinPieces ((first ++ part :: last).flatMap pieces) = .ok own) :
    ∃ front middle back, joinPieces (pieces part) = .ok middle ∧ own = front ++ middle ++ back ∧
      ∀ other : Part → List (Except RenderError String),
        (∀ beside ∈ first ++ last, other beside = pieces beside) →
        joinPieces ((first ++ part :: last).flatMap other) =
          (joinPieces (other part)).map fun middle => front ++ middle ++ back := by
  rw [List.flatMap_append, List.flatMap_cons] at joined
  obtain ⟨front, _, before, further, rfl⟩ := joinPieces_append_eq_ok.1 joined
  obtain ⟨middle, back, here, after, rfl⟩ := joinPieces_append_eq_ok.1 further
  refine ⟨front, middle, back, here, String.append_assoc.symm, fun other same => ?_⟩
  rw [List.flatMap_append, List.flatMap_cons,
    List.flatMap_congr fun beside member => same beside (List.mem_append_left _ member),
    List.flatMap_congr fun beside member =>
      same beside (List.mem_append_right _ member),
    joinPieces_append before]
  cases found : joinPieces (other part) with
  | error e => rw [joinPieces_append_error found, Except.map, Except.map]
  | ok text =>
    rw [joinPieces_append_ok found after]
    simp [Except.map, String.append_assoc]

namespace Part

/-- Whether the part stands for children. -/
def ofChildren : Part → Bool
  | .child _ | .children _ => true
  | _ => false

variable {kind : Kind} {attributes other : List (String × Json)} {gapText : Nat → String}
  {condition : Option (Except RenderError String)} {children more : List (Except RenderError String)}

theorem pieces_children {part : Part} (away : part.ofChildren = false) :
    part.pieces kind attributes gapText condition children =
      part.pieces kind attributes gapText condition more := by
  cases part <;> first | rfl | contradiction

theorem pieces_attributes {name : String}
    (same : ∀ beside ≠ name, other.lookup beside = attributes.lookup beside) :
    ∀ {part : Part}, part ≠ .attribute name →
      part.pieces kind other gapText condition children =
        part.pieces kind attributes gapText condition children
  | .attribute own, away => by rw [pieces, pieces, same own fun here => away (congrArg _ here)]
  | .word _, _ | .gap _, _ | .condition, _ | .child _, _ | .children _, _ => rfl

theorem pieces_attribute_eq_ok {name text : String} :
    joinPieces ((Part.attribute name).pieces kind attributes gapText condition children) = .ok text ↔
      ∃ value, (attributes.lookup name = some value ∧ value ≠ .null) ∧ value.plainText = text := by
  rw [pieces]
  cases attributes.lookup name with
  | none => simp [joinPieces]
  | some value => cases value <;> simp [joinPieces, Except.map]

theorem pieces_unseparated (texts : List (Except RenderError String)) :
    (Part.children none).pieces kind attributes gapText condition texts = texts := by
  have nothing (place : Nat) : separatorPieces none gapText place = [] := by cases place <;> rfl
  simp only [pieces, nothing, List.nil_append]
  calc (texts.zipIdx.map fun entry => [entry.1]).flatten
      = (texts.zipIdx.map Prod.fst).flatMap fun text => [text] := by
        rw [List.flatMap_def, List.map_map]
        rfl
    _ = texts := by rw [List.flatMap_singleton', List.zipIdx_map_fst]

end Part

namespace Kind

/-- The children of nodes of the kind are written one behind the other, with nothing between them. -/
def Block (kind : Kind) : Prop :=
  .children none ∈ kind.layout.parts

instance (kind : Kind) : Decidable kind.Block :=
  inferInstanceAs (Decidable (_ ∈ _))

/-- A kind that lists its children has no other part for children. -/
theorem countP_ofChildren {kind : Kind} {separator : Option (String × Nat)}
    (lists : .children separator ∈ kind.layout.parts) :
    kind.layout.parts.countP Part.ofChildren = 1 := by
  cases kind <;> first | rfl | simp [layout, pairLayout] at lists

theorem nodup_parts (kind : Kind) : kind.layout.parts.Nodup := by
  cases kind <;> decide

end Kind

namespace Node

variable {node : Node} {own : String}

/-- The node with other children. -/
def withChildren (others : List Node) : Node → Node
  | mk kind attributes condition _ gaps => mk kind attributes condition others gaps

/-- The node with another condition. -/
def withCondition : Node → Node → Node
  | mk kind attributes _ children gaps, other => mk kind attributes (some other) children gaps

/-- The node with an attribute set. -/
def withAttribute (name : String) (value : Json) : Node → Node
  | mk kind attributes condition children gaps =>
    mk kind (Json.insertField name value attributes) condition children gaps

theorem withChildren_set (other : Node) (place : Nat) (node : Node) :
    node.withChildren (node.children.set place other) = node.update (fun _ => other) [.index place] := by
  obtain ⟨kind, attributes, condition, children, gaps⟩ := node
  rw [withChildren, update, Node.children, List.set_eq_modify]
  rfl

theorem withCondition_eq {before : Node} (found : node.condition = some before) (other : Node) :
    node.withCondition other = node.update (fun _ => other) [.condition] := by
  obtain ⟨kind, attributes, condition, children, gaps⟩ := node
  obtain rfl : condition = some before := found
  simp [withCondition, update]

/-- The children of a block are written one behind the other, and what is around them does not
depend on them. -/
theorem render_block (block : node.kind.Block) (rendered : node.render = .ok own) :
    ∃ head texts tail, node.children.map render = texts.map .ok ∧
      own = head ++ String.join texts ++ tail ∧
      ∀ (others : List Node) (texts : List String), others.map render = texts.map .ok →
        (node.withChildren others).render = .ok (head ++ String.join texts ++ tail) := by
  obtain ⟨kind, attributes, condition, children, gaps⟩ := node
  have once := Kind.countP_ofChildren block
  obtain ⟨first, last, split⟩ := List.append_of_mem block
  rw [split, List.countP_append, List.countP_cons_of_pos rfl] at once
  have none : (first ++ last).countP Part.ofChildren = 0 := by
    rw [List.countP_append]
    omega
  rw [render_eq, Kind.assemble, split] at rendered
  obtain ⟨head, middle, tail, here, rfl, others⟩ := joinPieces_flatMap_between rendered
  rw [Part.pieces_unseparated, joinPieces_eq_ok] at here
  obtain ⟨texts, each, rfl⟩ := here
  refine ⟨head, texts, tail, each, rfl, fun nodes texts each => ?_⟩
  have beside : ∀ part ∈ first ++ last, part.ofChildren = false := fun part member =>
    Bool.eq_false_iff.2 (List.countP_eq_zero.1 none part member)
  have split : kind.layout.parts = first ++ .children Option.none :: last := split
  rw [render_eq, Kind.assemble, withChildren, Node.kind, split]
  refine (others _ fun part member => Part.pieces_children (beside part member)).trans ?_
  rw [Part.pieces_unseparated]
  exact congrArg (Except.map _) (joinPieces_eq_ok.2 ⟨texts, each, rfl⟩)

theorem lookup_insertField_of_ne {name other : String} (different : other ≠ name) (value : Json)
    (fields : List (String × Json)) :
    (Json.insertField name value fields).lookup other = fields.lookup other :=
  (Tree.lookup_insertField other).trans (if_neg different)

/-- An attribute is written once, and what is around it does not depend on it. -/
theorem render_attribute {name : String} (written : .attribute name ∈ node.kind.layout.parts)
    (rendered : node.render = .ok own) :
    ∃ front value back, node.attributes.lookup name = some value ∧
      own = front ++ value.plainText ++ back ∧
      ∀ value ≠ .null, (node.withAttribute name value).render =
        .ok (front ++ value.plainText ++ back) := by
  obtain ⟨kind, attributes, condition, children, gaps⟩ := node
  obtain ⟨first, last, split⟩ := List.append_of_mem written
  have once := kind.nodup_parts
  rw [show kind.layout.parts = _ from split, List.nodup_middle, List.nodup_cons] at once
  rw [render_eq, Kind.assemble, split] at rendered
  obtain ⟨front, middle, back, here, rfl, changed⟩ := joinPieces_flatMap_between rendered
  obtain ⟨value, ⟨found, -⟩, rfl⟩ := Part.pieces_attribute_eq_ok.1 here
  refine ⟨front, value, back, found, rfl, fun value there => ?_⟩
  have split : kind.layout.parts = first ++ .attribute name :: last := split
  rw [render_eq, Kind.assemble, withAttribute, Node.kind, split]
  refine (changed _ fun part member => Part.pieces_attributes
    (fun _ different => lookup_insertField_of_ne different value attributes) fun here => once.1 (here ▸ member)).trans ?_
  have set : (Json.insertField name value attributes).lookup name = some value :=
    (Tree.lookup_insertField name).trans (if_pos rfl)
  exact congrArg (Except.map _) (Part.pieces_attribute_eq_ok.2 ⟨value, ⟨set, there⟩, rfl⟩)

/-- What is not written does not matter. -/
theorem render_unwritten {name : String} (unwritten : .attribute name ∉ node.kind.layout.parts)
    (value : Json) : (node.withAttribute name value).render = node.render := by
  obtain ⟨kind, attributes, condition, children, gaps⟩ := node
  rw [render_eq, render_eq, Kind.assemble, Kind.assemble]
  exact congrArg joinPieces (List.flatMap_congr fun part member => Part.pieces_attributes
    (fun _ different => lookup_insertField_of_ne different value attributes) fun here => unwritten (here ▸ member))

end Node

end Verbatim
