import Verbatim.Proofs.Tree.Runs

/-!
# What the grammar asks for at all times

A tree that is put together node by node has states that no build would accept. A node that was just
made has no attributes, and it has fewer children than its kind needs. But some of what a build asks
for is asked for by the very checks that let a node in: there is room for it, its category is
accepted where structure is strict, and a condition is an expression. No edit takes that away again,
so it holds in all states, and these checks can stay on while a state is put back.

## Main definitions

* `Kind.Allows`: the room for children, their categories and the kind of a condition
* `Tree.Lawful`: all nodes of a tree have only what their kinds allow
* `Tree.Steady`: a tree that can be put together further

## Main results

* `Tree.Fitting.lawful`: what a build accepts is lawful
* `Tree.Lawful.plant`: so is what is planted, if its own nodes are
* `Tree.Lawful.apply`: **edits keep trees lawful**, whether they work or not
-/

namespace Verbatim

/-- What the kind of a node allows it to have, by the kinds of its condition and its children. -/
structure Kind.Allows (strict : Bool) (kind : Kind) (condition : Option Kind) (children : List Kind) :
    Prop where
  room : ∀ limit, kind.maxChildren = some limit → children.length ≤ limit
  accepted : strict → ∀ child ∈ children, kind.accepts.contains child.category
  expression : ∀ found ∈ condition, found.category = .expression ∧ found ≠ .connectorCreation

/-- A node has only what its kind allows. -/
def Node.Lawful (strict : Bool) (node : Node) : Prop :=
  node.kind.Allows strict (node.condition.map Node.kind) (node.children.map Node.kind)

/-- A cell has only what its kind allows. -/
def Cell.Lawful (strict : Bool) (cell : Cell) : Prop :=
  cell.kind.Allows strict (cell.condition.node?.map NodeId.kind) (cell.children.map NodeId.kind)

theorem Node.Fit.lawful {strict : Bool} {node : Node} (fit : node.Fit strict) :
    node.Lawful strict where
  room limit most := by
    have count := fit.children.count.2 limit most
    rwa [List.length_map] at count ⊢
  accepted hstrict child member := by
    obtain ⟨inner, inside, rfl⟩ := List.mem_map.1 member
    exact fit.children.accepted hstrict inner.outline (List.mem_map_of_mem inside)
  expression := fit.condition.expression

/-- A node that has nothing has nothing that is not allowed. -/
theorem Node.lawful_bare (strict : Bool) (kind : Kind) :
    (Node.mk kind [] none [] []).All (Node.Lawful strict) :=
  .mk ⟨fun _ _ => Nat.zero_le _, fun _ _ member => absurd member List.not_mem_nil,
    fun _ member => absurd member (Option.not_mem_none _)⟩
    (fun _ member => absurd member (Option.not_mem_none _))
    fun _ member => absurd member List.not_mem_nil

namespace Tree

variable {tree other : Tree} {id x p : NodeId} {cell : Cell} {change : Cell → Cell}

/-- All nodes of the tree have only what their kinds allow. -/
def Lawful (tree : Tree) : Prop :=
  ∀ id cell, tree.cell? id = some cell → cell.Lawful tree.settings.strictStructure

theorem Lawful.allows (lawful : tree.Lawful) (made : tree.Made p) :
    p.kind.Allows tree.settings.strictStructure ((tree.condition? p).map NodeId.kind)
      ((tree.children p).map NodeId.kind) := by
  obtain ⟨cell, found⟩ := made
  have here := lawful p cell found
  rw [Cell.Lawful, kind_of_cell? found] at here
  rw [condition?, Tree.children, found]
  exact here

theorem lawful_of_allows (each : ∀ p, tree.Made p → p.kind.Allows tree.settings.strictStructure
    ((tree.condition? p).map NodeId.kind) ((tree.children p).map NodeId.kind)) : tree.Lawful := by
  intro p cell found
  have here := each p ⟨cell, found⟩
  rw [condition?, Tree.children, found] at here
  rw [Cell.Lawful, kind_of_cell? found]
  exact here

theorem Fitting.lawful (fitting : tree.Fitting) : tree.Lawful := by
  refine lawful_of_allows fun p made => ?_
  have takes := fitting.takesChildren made
  refine ⟨fun limit most => ?_, fun hstrict child member => ?_,
    (fitting.takesCondition made).expression⟩
  · have count := takes.count.2 limit most
    rwa [List.length_map] at count ⊢
  · obtain ⟨x, inside, rfl⟩ := List.mem_map.1 member
    exact takes.accepted hstrict (tree.outline x) (List.mem_map_of_mem inside)

/-! ### Trees that look alike, and trees that grow -/

theorem Matches.lawful (same : tree.Matches other) (settings : other.settings = tree.settings)
    (lawful : tree.Lawful) : other.Lawful := by
  refine lawful_of_allows fun p made => ?_
  rw [settings, same.condition?, same.children]
  exact lawful.allows (same.made.1 made)

theorem Alike.lawful (alike : tree.Alike other) (lawful : tree.Lawful) : other.Lawful :=
  alike.matches.lawful alike.settings lawful

theorem lawful_empty (label : String) (settings : Settings) : (empty label settings).Lawful := by
  intro id cell found
  obtain ⟨-, here, -⟩ := cell?_eq_some.1 found
  exact absurd here (by simp [empty])

theorem Lawful.plant (lawful : tree.Lawful) {node : Node}
    (all : node.All (Node.Lawful tree.settings.strictStructure)) : (tree.plant node).1.Lawful := by
  refine lawful_of_allows fun p made => ?_
  have grown := grown_plant tree node
  rcases Nat.lt_or_ge tree.cells.size p.number with new | old
  · rw [← view_plant tree node] at all
    have here := (founded_plant tree node).of_all_view all (below_planted made new)
    have kinds : Node.kind ∘ (tree.plant node).1.view = NodeId.kind :=
      funext (tree.plant node).1.kind_view
    rw [Node.Lawful, (grown.founded new).view_eq, Node.kind, Node.condition, Node.children, Option.map_map,
      List.map_map, kinds] at here
    exact here
  · have same := grown.contents old
    rw [condition?_congr same, children_congr same]
    exact lawful.allows ((made_congr same).1 made)

/-! ### Effects -/

theorem Lawful.modify (lawful : tree.Lawful) (keeps : ∀ cell, (change cell).kind = cell.kind)
    (here : ∀ cell, tree.cell? p = some cell → cell.Lawful tree.settings.strictStructure →
      (change cell).Lawful tree.settings.strictStructure) : (tree.modify p change).Lawful := by
  intro id cell found
  rw [settings_modify]
  rw [cell?_modify keeps] at found
  by_cases receiver : id = p
  · rw [if_pos receiver] at found
    obtain ⟨before, was, rfl⟩ := Option.map_eq_some_iff.1 found
    exact here before was (lawful p before was)
  · rw [if_neg receiver] at found
    exact lawful id cell found

theorem Lawful.storeAttribute (lawful : tree.Lawful) (name : String) (value : Json) :
    (tree.storeAttribute p name value).Lawful :=
  lawful.modify (fun _ => rfl) fun _ _ before => before

/-- Other children, for which there is room, and each of which was there before or is accepted. -/
theorem Lawful.storeChildren (lawful : tree.Lawful) {children : List NodeId}
    (room : ∀ limit, p.kind.maxChildren = some limit → children.length ≤ limit)
    (each : ∀ x ∈ children, x ∈ tree.children p ∨
      (tree.settings.strictStructure → p.kind.accepts.contains x.kind.category)) :
    (tree.storeChildren p children).Lawful := by
  refine lawful.modify (fun _ => rfl) fun cell found before => ?_
  rw [Tree.children, found] at each
  rw [← kind_of_cell? found] at room each
  refine ⟨fun limit most => ?_, fun hstrict child member => ?_, before.expression⟩
  · rw [List.length_map]
    exact room limit most
  · obtain ⟨x, inside, rfl⟩ := List.mem_map.1 member
    rcases each x inside with was | accepted
    · exact before.accepted hstrict _ (List.mem_map_of_mem was)
    · exact accepted hstrict

theorem Lawful.storeCondition (lawful : tree.Lawful) {slot : ConditionSlot}
    (expression : ∀ found ∈ slot.node?,
      found.kind.category = .expression ∧ found.kind ≠ .connectorCreation) :
    (tree.storeCondition p slot).Lawful := by
  refine lawful.modify (fun _ => rfl) fun cell _ before => ⟨before.room, before.accepted, ?_⟩
  intro kind member
  obtain ⟨found, inside, rfl⟩ := Option.map_eq_some_iff.1 member
  exact expression found inside

/-! ### Edits -/

namespace Lawful

variable (lawful : tree.Lawful)
include lawful

theorem setAttribute (name : String) (value : Json) :
    (tree.setAttribute p name value).1.Lawful := by
  obtain ⟨cause, -, same⟩ | ⟨-, same⟩ := setAttribute_cases tree p name value <;> rw [same]
  · exact lawful
  · exact lawful.storeAttribute name value

theorem setCondition (candidate : Candidate) : (tree.setCondition p candidate).1.Lawful := by
  obtain same | ⟨cause, -, same⟩ | ⟨new, checked, same⟩ := setCondition_cases tree p candidate <;>
    rw [same]
  · exact lawful
  · exact lawful
  · obtain ⟨-, expression, binding⟩ := checkCondition_eq_ok.1 checked
    refine ((Alike.exchangeCondition tree _ p new).lawful lawful).storeCondition ?_
    rintro _ ⟨⟩
    refine ⟨expression, fun connector => binding ?_⟩
    rw [connector]
    rfl

theorem addChild (candidate : Candidate) (index : Option Int) :
    (tree.addChild p candidate index).1.Lawful := by
  obtain ⟨cause, -, same⟩ | ⟨child, place, checked, same⟩ := addChild_cases tree p candidate index <;>
    rw [same]
  · exact lawful
  · obtain ⟨room, each⟩ := children_of_checkAddChild checked
    exact (Alike.adopt _ child p).lawful (lawful.storeChildren room each)

section

variable (made : tree.Made p)
include made

theorem removeChild (candidate : Candidate) : (tree.removeChild p candidate).1.Lawful := by
  obtain ⟨refusal, -, same⟩ | ⟨child, place, -, same⟩ := removeChild_cases tree p candidate <;>
    rw [same]
  · exact lawful
  · refine (Alike.release _ child).lawful (lawful.storeChildren (fun limit most => ?_) ?_)
    · have room := (lawful.allows made).room limit most
      have fewer := List.length_eraseIdx_le (tree.children p) place
      rw [List.length_map] at room
      omega
    · exact fun x member => .inl (List.mem_of_mem_eraseIdx member)

theorem replaceChild (oldCandidate candidate : Candidate) :
    (tree.replaceChild p oldCandidate candidate).1.Lawful := by
  obtain ⟨refusal, -, same⟩ | ⟨old, new, place, checked, same⟩ :=
    replaceChild_cases tree p oldCandidate candidate <;> rw [same]
  · exact lawful
  · refine (Alike.adopt _ new p).lawful ((Alike.release _ old).lawful
      (lawful.storeChildren (fun limit most => ?_) (children_of_checkReplaceChild checked)))
    have room := (lawful.allows made).room limit most
    rwa [List.length_map, ← List.length_set] at room

end

/-- **Edits keep trees lawful**, whether they work or not. -/
theorem apply {edit : Edit} (made : tree.Made edit.receiver) (plain : edit.readsText = false) :
    (edit.apply tree).1.Lawful := by
  cases edit with
  | setAttribute p name value => exact lawful.setAttribute name value
  | addChild p child index => exact lawful.addChild child index
  | removeChild p child => exact lawful.removeChild made child
  | replaceChild p old new => exact lawful.replaceChild made old new
  | setCondition p condition => exact lawful.setCondition condition
  | setConditionText p text => exact absurd plain Bool.noConfusion

end Lawful

/-! ### Steady trees -/

/-- A tree that can be put together further, whether it is finished or not: its tables agree with its
owners, its nodes have only what their kinds allow, and the checks of the grammar are on. -/
structure Steady (tree : Tree) : Prop where
  sound : tree.Sound
  lawful : tree.Lawful
  calm : tree.replaying = false

namespace Steady

variable (steady : tree.Steady)
include steady

theorem plant {node : Node} (all : node.All (Node.Lawful tree.settings.strictStructure)) :
    (tree.plant node).1.Steady :=
  ⟨steady.sound.plant node, steady.lawful.plant all, steady.calm⟩

theorem setRoot? (stored : tree.contains x) (passed : tree.setRoot? x = some other) :
    other.Steady := by
  have sound := steady.sound.setRoot? stored passed
  obtain ⟨-, rfl⟩ := setRoot?_eq_some.1 passed
  exact ⟨sound, steady.lawful, steady.calm⟩

/-- Edits keep trees steady. -/
theorem apply {edit : Edit} (stored : tree.contains edit.receiver)
    (usable : edit.inserted.Usable tree) (plain : edit.readsText = false) :
    (edit.apply tree).1.Steady :=
  ⟨steady.sound.touched stored (steady.sound.touched_apply stored usable plain),
    steady.lawful.apply (made_of_contains stored) plain,
    (edit.frame steady.sound).replaying.trans steady.calm⟩

end Steady

end Tree

end Verbatim
