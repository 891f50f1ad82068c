import Verbatim.Proofs.Build.LaidOut
import Verbatim.Proofs.Source.Soundness

/-!
# Operands that need no brackets

Whether an operand may stand where it does is told by two numbers: how tightly it binds, and how
tightly its place asks it to. The grammar knows no numbers. It is a ladder of operators, all of which
associate to the left. The two agree: the text of an expression is read as that expression exactly
where no operand is a problem for its place. So the check neither lets an expression in whose text
means another one, nor does it refuse one whose text is right.

Nothing is asked of the operands beforehand. They are expressions of any kind and depth, below any
operator, and brackets stand only where the expression has a node for them.

## Main definitions

* `Node.Formed`: a node as expressions have it, but for how tightly its operands bind
* `Node.Bound`: no operand of the node is a problem for its place
* `Node.SameShape`: two nodes are the same but for their gaps

## Main results

* `Node.Grammatical.bound`: in what is read, all operands are bound
* `Node.parse_render_iff`: **the text of an expression is read as that expression exactly where all
  operands are bound**
-/

namespace Verbatim

/-- The kinds of nodes of which expressions are made. Connectors are expressions of their own, which
are no operands. -/
def Kind.isTerm : Kind → Bool
  | .binary | .unary | .literal | .reference | .call | .bracketed => true
  | _ => false

/-- What an expression is made of stands where expressions can, and takes nothing else. -/
theorem Kind.of_isTerm {kind : Kind} (term : kind.isTerm) :
    kind.category = .expression ∧ kind.plain = kind ∧ kind.hasCondition = false ∧
      kind ≠ .connectorCreation ∧ kind ≠ .ifElse ∧
        (kind.accepts = [.expression] ∨ kind.maxChildren = some 0) := by
  revert term
  cases kind <;> decide

namespace Node

variable {node other : Node}

/-! ### Shapes -/

mutual

/-- The node without gaps. -/
def bare : Node → Node
  | mk kind attributes none children _ => mk kind attributes none (bareAll children) []
  | mk kind attributes (some condition) children _ =>
    mk kind attributes (some (bare condition)) (bareAll children) []

/-- Each of the nodes without gaps. -/
def bareAll : List Node → List Node
  | [] => []
  | node :: rest => bare node :: bareAll rest

end

theorem bareAll_eq_map (nodes : List Node) : bareAll nodes = nodes.map bare := by
  induction nodes with
  | nil => rfl
  | cons node rest ih => rw [bareAll, ih, List.map_cons]

theorem bare_eq (node : Node) : node.bare = mk node.kind node.attributes
    (node.condition.map bare) (node.children.map bare) [] := by
  rcases node with ⟨kind, attributes, _ | condition, children, gaps⟩ <;>
    rw [bare, bareAll_eq_map] <;> rfl

theorem kind_bare (node : Node) : node.bare.kind = node.kind := by
  rw [bare_eq, kind]

theorem operator?_bare (node : Node) : node.bare.operator? = node.operator? := by
  rw [bare_eq]
  rfl

theorem children_bare (node : Node) : node.bare.children = node.children.map bare := by
  rw [bare_eq, children]

/-- The two nodes have the same kinds, attributes, conditions and children all the way down. Their
gaps do not count. -/
def SameShape (node other : Node) : Prop :=
  node.bare = other.bare

/-! ### Bound operands -/

/-- No operand of the node is a problem for its place. Only operators have operands. -/
def Bound (node : Node) : Prop :=
  node.kind = .binary ∨ node.kind = .unary →
    ∀ (place : Nat) (child : Node), node.children[place]? = some child →
      operandProblem? node.kind node.operator? place child.kind child.operator? = none

/-- Children go together where no operand is a problem, unless they are clauses. -/
theorem arranged_iff_bound (chain : node.kind ≠ .ifElse) :
    arrangementProblem? true node.kind node.operator? (node.children.map outline) = none ↔
      node.Bound := by
  constructor
  · intro arranged _ place child found
    rw [arrangementProblem?, if_neg chain] at arranged
    refine List.findSome?_eq_none_iff.1 arranged (child.outline, place) ?_
    rw [List.mk_mem_zipIdx_iff_getElem?, List.getElem?_map, found, Option.map_some]
  · intro bound
    by_cases operator : node.kind = .binary ∨ node.kind = .unary
    · rw [arrangementProblem?, if_neg chain, List.findSome?_eq_none_iff]
      rintro ⟨⟨kind, operator'⟩, place⟩ member
      rw [List.mk_mem_zipIdx_iff_getElem?, List.getElem?_map] at member
      obtain ⟨child, found, same⟩ := Option.map_eq_some_iff.1 member
      obtain ⟨rfl, rfl⟩ := Prod.mk.inj same
      exact bound operator place child found
    · exact arranged_of_free chain (not_or.1 operator)

/-- In what the grammar derives, all operands are bound. -/
theorem Grammatical.bound (h : node.Grammatical) : node.All Bound := by
  refine h.parsed.imp fun below shape => ?_
  by_cases chain : below.kind = .ifElse
  · intro operator
    rw [chain] at operator
    rcases operator with same | same <;> exact absurd same Kind.noConfusion
  · exact (arranged_iff_bound chain).1 shape.arranged

/-- Whether operands are bound does not depend on gaps. -/
theorem bound_bare : node.bare.Bound ↔ node.Bound := by
  unfold Bound
  rw [kind_bare, operator?_bare, children_bare]
  refine imp_congr_right fun _ => forall_congr' fun place => ?_
  rw [List.getElem?_map]
  constructor
  · intro each child found
    have here := each child.bare (by rw [found, Option.map_some])
    rwa [kind_bare, operator?_bare] at here
  · intro each child found
    obtain ⟨inner, there, rfl⟩ := Option.map_eq_some_iff.1 found
    rw [kind_bare, operator?_bare]
    exact each inner there

theorem all_bound_bare : node.bare.All Bound ↔ node.All Bound := by
  induction node using inductionOn with
  | step node condition children =>
    constructor
    · rintro ⟨here, inner, each⟩
      rw [bare_eq] at inner each
      exact .mk (bound_bare.1 here)
        (fun below member => (condition below member).1 (inner _ (Option.mem_map_of_mem _ member)))
        (fun below member => (children below member).1 (each _ (List.mem_map_of_mem member)))
    · rintro ⟨here, inner, each⟩
      refine .mk (bound_bare.2 here) (fun below member => ?_) (fun below member => ?_)
      · rw [bare_eq] at member
        obtain ⟨found, there, rfl⟩ := Option.map_eq_some_iff.1 member
        exact (condition found there).2 (inner found there)
      · rw [children_bare] at member
        obtain ⟨found, there, rfl⟩ := List.mem_map.1 member
        exact (children found there).2 (each found there)

/-- Of two nodes of one shape, the operands of the one are bound where those of the other are. -/
theorem SameShape.bound (same : node.SameShape other) (bound : node.All Bound) : other.All Bound := by
  rw [← all_bound_bare] at bound ⊢
  exact same ▸ bound

/-! ### Expressions -/

/-- A node as expressions have it, but for how tightly its operands bind: its attributes are good
ones, a literal has the type that reading its value gives it, and it has as many children as its
kind asks for. No gap has a text of its own. -/
structure Formed (node : Node) : Prop where
  term : node.kind.isTerm
  names : node.attributes.map Prod.fst = node.kind.attributes
  good : ∀ entry ∈ node.attributes, attributeProblem? node.kind entry.1 entry.2 = none
  typed : node.kind = .literal → ∀ text literal,
    node.attributes.lookup "value" = some (.text text) → parse .expression text = .ok literal →
      node.attributes.lookup "literal_type" = literal.attributes.lookup "literal_type"
  count : node.kind.takesCount node.children.length
  alone : node.condition = none
  gapless : node.gaps = []

namespace Formed

/-- An expression has all that its layout asks for, however its operands bind. -/
theorem complete (formed : node.All Formed) : node.All Complete := by
  induction formed with
  | @mk node here inner each condition children =>
    have slot := (Kind.of_isTerm here.term).2.2.1
    refine .mk ⟨fun name => lookup_of_good here.names here.good,
      fun takes => absurd (slot.symm.trans takes) Bool.false_ne_true, here.count.1, ?_⟩
      condition children
    rintro below (member | member) unit
    · rw [here.alone] at member
      exact absurd member (Option.not_mem_none below)
    · have term := (each below member).here.term
      rw [unit] at term
      exact absurd term Bool.false_ne_true

/-- With bound operands, a build takes the expression. -/
theorem accepted (formed : node.All Formed) (bound : node.All Bound) : node.All Accepted := by
  induction formed with
  | @mk node here inner each condition children =>
    obtain ⟨own, within, all⟩ := bound
    obtain ⟨-, -, noSlot, -, chain, takes⟩ := Kind.of_isTerm here.term
    refine .mk ⟨here.names, here.good, fun _ => here.alone, fun below member => ?_, here.count,
      fun child member => ?_, (arranged_iff_bound chain).2 own⟩
      (fun below member => condition below member (within below member))
      (fun below member => children below member (all below member))
    · rw [here.alone] at member
      exact absurd member (Option.not_mem_none below)
    · rcases takes with takes | leaf
      · rw [takes, (Kind.of_isTerm (each child member).here.term).1]
        rfl
      · have none := List.eq_nil_of_length_eq_zero (Nat.le_zero.1 (here.count.2 0 leaf))
        rw [none] at member
        exact absurd member List.not_mem_nil

theorem regular (formed : node.All Formed) : node.All Regular := by
  induction formed with
  | @mk node here inner each condition children =>
    obtain ⟨-, -, noSlot, -⟩ := Kind.of_isTerm here.term
    refine .mk ⟨fun same => ?_, fun same => ?_, fun child place found connector => ?_,
      fun slot => ?_, here.typed⟩ condition children
    · have term := here.term
      rw [same] at term
      exact absurd term Bool.false_ne_true
    · have term := here.term
      rcases same with same | same <;> rw [same] at term <;> exact absurd term Bool.false_ne_true
    · have term := (each child (List.mem_of_getElem? found)).here.term
      exact absurd connector (Kind.of_isTerm term).2.2.2.1
    · exact absurd (noSlot.symm.trans slot) Bool.false_ne_true

/-- Laid out, an expression has the same shape. -/
theorem sameShape_laidOut (formed : node.All Formed) : node.laidOut.SameShape node := by
  induction formed with
  | @mk node here inner each condition children =>
    obtain ⟨-, plain, -⟩ := Kind.of_isTerm here.term
    have below : (node.children.map laidOut).map bare = node.children.map bare := by
      rw [List.map_map]
      exact List.map_congr_left fun child member => children child member
    rw [SameShape, bare_eq node.laidOut, bare_eq node, laidOut_eq, here.alone]
    show Node.mk node.kind.plain node.attributes none ((node.children.map laidOut).map bare) [] =
      Node.mk node.kind node.attributes none (node.children.map bare) []
    rw [below, plain]

end Formed

/-- **The text of an expression is read as that expression exactly where all operands are bound.** -/
theorem parse_render_iff (formed : node.All Formed) : ∃ text, node.render = .ok text ∧
    ((∃ parsed, parse .expression text = .ok parsed ∧ parsed.SameShape node) ↔ node.All Bound) := by
  have printed := render_eq_written (Formed.complete formed)
  refine ⟨_, printed, fun ⟨parsed, read, same⟩ => same.bound (parse_grammatical read).bound,
    fun bound => ?_⟩
  have accepted := Formed.accepted formed bound
  have regular := Formed.regular formed
  obtain ⟨expression, -, -, notConnector, -⟩ := Kind.of_isTerm formed.here.term
  have takes : Start.expression.Takes node.laidOut :=
    isOperand_laidOut (accepted.here.isOperand expression notConnector)
  obtain ⟨text, same, read⟩ := parse_of_accepted accepted regular
    (formed.imp fun _ here => here.gapless) takes
  obtain rfl := Except.ok.inj (same.symm.trans printed)
  exact ⟨node.laidOut, read, Formed.sameShape_laidOut formed⟩

/-- A product of a sum, for which there are no brackets. Its text is read as a sum. -/
theorem parse_render_iff_product :
    let a : Node := .mk .reference [("variable_name", .text "a")] none [] []
    let one : Node := .mk .literal [("literal_type", .text "int"), ("value", .text "1")] none [] []
    let sum : Node := .mk .binary [("operator", .text "+")] none [a, one] []
    let product : Node := .mk .binary [("operator", .text "*")] none [sum, a] []
    product.All Formed ∧ product.render = .ok "a+ 1* a" ∧
      ¬ ∃ parsed, parse .expression "a+ 1* a" = .ok parsed ∧ parsed.SameShape product := by
  intro a one sum product
  have noCondition (below : Node) (member : below ∈ (none : Option Node)) : below.All Formed :=
    absurd member (Option.not_mem_none below)
  have noChild (below : Node) (member : below ∈ ([] : List Node)) : below.All Formed :=
    absurd member List.not_mem_nil
  have formedA : a.All Formed :=
    .mk ⟨rfl, rfl, List.forall_mem_singleton.2 (by cbv), Kind.noConfusion, takesCount_fixed rfl rfl,
      rfl, rfl⟩ noCondition noChild
  have formedOne : one.All Formed := by
    refine .mk ⟨rfl, rfl, List.forall_mem_cons.2 ⟨by cbv, List.forall_mem_singleton.2 (by cbv)⟩,
      fun _ text literal value read => ?_, takesCount_fixed rfl rfl, rfl, rfl⟩ noCondition noChild
    obtain rfl : "1" = text := Json.text.inj (Option.some.inj value)
    have whole : parse .expression "1" =
        .ok (.mk .literal [("literal_type", .text "int"), ("value", .text "1")] none [] [(0, "")]) := by
      cbv
    obtain rfl := Except.ok.inj (read.symm.trans whole)
    rfl
  have formedSum : sum.All Formed :=
    .mk ⟨rfl, rfl, List.forall_mem_singleton.2 (by cbv), Kind.noConfusion, takesCount_fixed rfl rfl,
      rfl, rfl⟩ noCondition (List.forall_mem_cons.2 ⟨formedA, List.forall_mem_singleton.2 formedOne⟩)
  have formed : product.All Formed :=
    .mk ⟨rfl, rfl, List.forall_mem_singleton.2 (by cbv), Kind.noConfusion, takesCount_fixed rfl rfl,
      rfl, rfl⟩ noCondition (List.forall_mem_cons.2 ⟨formedSum, List.forall_mem_singleton.2 formedA⟩)
  obtain ⟨text, printed, reads⟩ := parse_render_iff formed
  have same : product.render = .ok "a+ 1* a" := by cbv
  obtain rfl := Except.ok.inj (printed.symm.trans same)
  refine ⟨formed, printed, fun read => ?_⟩
  have loose := (reads.1 read).here (.inl rfl) 0 sum rfl
  exact absurd loose (by decide)

end Node

end Verbatim
