import Verbatim.Proofs.Build.RawForm

/-!
# What the grammar gives can be built

Every node that the grammar derives has what a build asks for: names and numbers of gaps that its
kind knows, children of the right number and category, operands that bind tightly enough, and
clauses in order.

## Main results

* `Node.Grammatical.parsed`: a grammatical node has the shape that a build asks for
* `Node.ofRaw_of_grammatical`: when a grammatical node is built, and with what result
-/

namespace Verbatim

/-- Loops and the clauses with a condition have one shape. -/
theorem Kind.shape_of_guardWords {kind : Kind} (guard : kind.guardWords ≠ []) :
    kind.layout.defaults.length = kind.guardWords.length + 4 ∧ kind.hasCondition ∧
      kind.accepts.contains .statement ∧ kind.maxChildren = none ∧ kind ≠ .ifElse ∧
      (kind ≠ .binary ∧ kind ≠ .unary) ∧ kind ≠ .connectorDefinition := by
  cases kind <;> first | exact absurd rfl guard | decide

namespace Node

/-! ### Numbered gaps -/

theorem ascending_numberGaps (first : Nat) (texts : List String) :
    Gaps.Ascending (numberGaps first texts) := by
  induction texts generalizing first with
  | nil => exact .nil
  | cons text rest ih =>
    refine List.Pairwise.cons (fun entry member => ?_) (ih (first + 1))
    obtain ⟨⟨other, index⟩, found, rfl⟩ := List.mem_map.1 member
    exact List.le_snd_of_mem_zipIdx found

theorem bounds_of_mem_numberGaps {first : Nat} {texts : List String} {entry : Nat × String}
    (member : entry ∈ numberGaps first texts) : first ≤ entry.1 ∧ entry.1 < first + texts.length := by
  obtain ⟨⟨other, index⟩, found, rfl⟩ := List.mem_map.1 member
  exact ⟨List.le_snd_of_mem_zipIdx found, List.snd_lt_add_of_mem_zipIdx found⟩

theorem acceptsGap_of_base {layout : Layout} {base index : Nat} (h : layout.separatorBase? = some base)
    (le : base ≤ index) : layout.acceptsGap index := by
  unfold Layout.acceptsGap Layout.defaultGap?
  split
  · rfl
  · rw [h]
    simp [le]

/-- Whether the gaps come in order and the kind knows them. -/
def NumberedFor (kind : Kind) (gaps : Gaps) : Prop :=
  Gaps.Ascending gaps ∧ ∀ entry ∈ gaps, kind.layout.acceptsGap entry.1

/-- Gaps with a default text are numbered from zero. -/
theorem acceptsGap_of_lt_defaults {kind : Kind} :
    ∀ index < kind.layout.defaults.length, kind.layout.acceptsGap index := by
  cases kind <;> decide

theorem numberedFor_fixed {kind : Kind} (texts : List String)
    (length : texts.length = kind.layout.defaults.length) :
    NumberedFor kind (numberGaps 0 texts) := by
  refine ⟨ascending_numberGaps 0 texts, fun entry member => acceptsGap_of_lt_defaults entry.1 ?_⟩
  have bounds := bounds_of_mem_numberGaps member
  omega

/-- Gaps that are numbered from zero, with the ones behind commas last. -/
theorem numberedFor_commas {kind : Kind} (fixed commas : List String) {base : Nat}
    (length : fixed.length = base) (defaults : kind.layout.defaults.length = base)
    (comma : kind.layout.separatorBase? = some base) :
    NumberedFor kind (numberGaps 0 fixed ++ numberGaps base commas) := by
  subst length
  constructor
  · rw [show numberGaps fixed.length commas = numberGaps (0 + fixed.length) commas by
      rw [Nat.zero_add], numberGaps_append]
    exact ascending_numberGaps 0 (fixed ++ commas)
  · intro entry member
    rcases List.mem_append.1 member with member | member
    · exact (numberedFor_fixed fixed defaults.symm).2 entry member
    · exact acceptsGap_of_base comma (bounds_of_mem_numberGaps member).1

/-! ### Children in order -/

/-- Where operands need no strength, children go together. -/
theorem arranged_of_free {kind : Kind} {operator : Option String}
    {children : List (Kind × Option String)} (chain : kind ≠ .ifElse)
    (free : kind ≠ .binary ∧ kind ≠ .unary) :
    arrangementProblem? true kind operator children = none := by
  unfold arrangementProblem?
  rw [if_neg chain, List.findSome?_eq_none_iff]
  intro entry _
  unfold operandProblem? neededStrength?
  cases kind <;> simp_all

/-- The left operand of a binary operator may bind as loosely as the operator. -/
theorem neededStrength_left {operator : String} {own : Nat}
    (found : binaryStrengths.lookup operator = some own) :
    neededStrength? .binary (some operator) 0 = some (.left, own) := by
  have strength : Kind.strength? .binary (some operator) = some own := found
  simp only [neededStrength?, strength, Option.map_some, if_true]

/-- The right operand of a binary operator binds tighter. -/
theorem neededStrength_right {operator : String} {own : Nat}
    (found : binaryStrengths.lookup operator = some own) :
    neededStrength? .binary (some operator) 1 = some (.right, own + 1) := by
  have strength : Kind.strength? .binary (some operator) = some own := found
  simp only [neededStrength?, strength, Option.map_some]
  rfl

theorem operandProblem_of_isOperand {parent : Kind} {operator : Option String} {position : Int}
    {side : OperandSide} {needed : Nat} {child : Node} (fits : child.IsOperand needed)
    (place : neededStrength? parent operator position = some (side, needed)) :
    operandProblem? parent operator position child.outline.1 child.outline.2 = none := by
  obtain ⟨-, -, own, strength, le⟩ := fits
  unfold operandProblem?
  rw [place]
  simp only [outline, strength, le, if_true]

theorem clauseFits_of_tailInOrder {kinds : List Kind} (h : tailInOrder kinds) {start : Nat}
    (behind : 0 < start) :
    ∀ entry ∈ kinds.zipIdx start, clauseFits (start + kinds.length) entry.2 entry.1 := by
  have later {position : Nat} (le : start ≤ position) : position ≠ 0 := by omega
  fun_induction tailInOrder kinds generalizing start with
  | case1 => simp
  | case2 rest ih =>
    rw [List.zipIdx_cons, List.forall_mem_cons]
    refine ⟨by simp [clauseFits, later (Nat.le_refl start)], fun entry member => ?_⟩
    rw [List.length_cons, ← Nat.succ_add_eq_add_succ]
    exact ih h (Nat.succ_pos start) (fun le => later (Nat.le_of_succ_le le)) entry member
  | case3 => simp [clauseFits, later (Nat.le_refl start)]
  | case4 => exact h.elim

theorem clauseOrder_of_tailInOrder {kinds : List Kind} (h : tailInOrder kinds) :
    clauseOrderProblem? (.ifClause :: kinds) = none := by
  rw [clauseOrderProblem?_eq_none, List.zipIdx_cons, List.forall_mem_cons, List.length_cons,
    Nat.add_comm]
  exact ⟨rfl, clauseFits_of_tailInOrder h Nat.zero_lt_one⟩

/-! ### Grammatical nodes -/

/-- A node without a condition has the right shape if its parts have. -/
theorem parsed_of_children {kind : Kind} {attributes : List (String × Json)} {children : List Node}
    {gaps : Gaps} (notConnector : kind ≠ .connectorDefinition)
    (names : attributes.map Prod.fst = kind.attributes) (noSlot : kind.hasCondition = false)
    (numbered : NumberedFor kind gaps) (count : kind.takesCount children.length)
    (accepted : ∀ child ∈ children, kind.accepts.contains child.kind.category)
    (arranged : arrangementProblem? true kind (mk kind attributes none [] []).operator?
      (children.map outline) = none)
    (below : ∀ child ∈ children, child.All Parsed) :
    (mk kind attributes none children gaps).All Parsed := by
  refine .mk ⟨notConnector, names, noSlot.symm, fun below member => ?_, numbered.1, numbered.2,
    count, accepted, arranged⟩ (fun below member => ?_) below
  · exact absurd member (Option.not_mem_none below)
  · exact absurd member (Option.not_mem_none below)

theorem accepts_of_operands {kind : Kind} {needed : Nat} {nodes : List Node}
    (takes : kind.accepts.contains .expression) (h : ∀ node ∈ nodes, node.IsOperand needed) :
    ∀ node ∈ nodes, kind.accepts.contains node.kind.category :=
  fun node member => (h node member).1 ▸ takes

theorem accepts_of_statements {kind : Kind} {nodes : List Node}
    (takes : kind.accepts.contains .statement) (h : ∀ node ∈ nodes, node.IsStatement) :
    ∀ node ∈ nodes, kind.accepts.contains node.kind.category :=
  fun node member => (h node member).1 ▸ takes

theorem takesCount_any {kind : Kind} (count : Nat) (few : kind.minChildren = 0)
    (many : kind.maxChildren = none) : kind.takesCount count := by
  refine ⟨few ▸ Nat.zero_le count, fun limit member => ?_⟩
  rw [many] at member
  exact absurd member (Option.not_mem_none limit)

theorem takesCount_fixed {kind : Kind} {count : Nat} (few : kind.minChildren = count)
    (many : kind.maxChildren = some count) : kind.takesCount count := by
  refine ⟨Nat.le_of_eq few, fun limit member => ?_⟩
  rw [many] at member
  exact Nat.le_of_eq (Option.some.inj member)

theorem parsed_ofName (word : Token) : (ofName word).All Parsed :=
  parsed_of_children Kind.noConfusion rfl rfl
    (numberedFor_fixed [word.gap] rfl) (takesCount_fixed rfl rfl) (by simp)
    rfl (by simp)

theorem parsed_ofDeclaration (typeName variableName : Token) :
    (ofDeclaration typeName variableName).All Parsed :=
  parsed_of_children Kind.noConfusion rfl rfl (numberedFor_fixed _ rfl)
    (takesCount_fixed rfl rfl) (by simp) rfl (by simp)

/-- **A grammatical node has the shape that a build asks for.** -/
theorem Grammatical.parsed {node : Node} (h : Grammatical node) : node.All Parsed := by
  induction h with
  | @literal word kind spelled =>
    exact parsed_of_children Kind.noConfusion rfl rfl
      (numberedFor_fixed [word.gap] rfl) (takesCount_fixed rfl rfl)
      (by simp) rfl (by simp)
  | reference name => exact parsed_ofName _
  | call isName count below operands ih =>
    exact parsed_of_children Kind.noConfusion rfl rfl (numberedFor_commas _ _ rfl rfl rfl)
      (takesCount_any _ rfl rfl) (accepts_of_operands rfl operands)
      (arranged_of_free Kind.noConfusion ⟨Kind.noConfusion, Kind.noConfusion⟩) ih
  | bracketed below operand ih =>
    exact parsed_of_children Kind.noConfusion rfl rfl (numberedFor_fixed _ rfl)
      (takesCount_fixed rfl rfl) (accepts_of_operands rfl (List.forall_mem_singleton.2 operand))
      (arranged_of_free Kind.noConfusion ⟨Kind.noConfusion, Kind.noConfusion⟩)
      (List.forall_mem_singleton.2 ih)
  | @unary sign inner kind spelled below operand ih =>
    refine parsed_of_children Kind.noConfusion rfl rfl
      (numberedFor_fixed [sign.gap] rfl) (takesCount_fixed rfl rfl)
      (accepts_of_operands rfl (List.forall_mem_singleton.2 operand)) ?_
      (List.forall_mem_singleton.2 ih)
    have place : neededStrength? .unary (some sign.text) 0 = some (.only, unaryStrength) := rfl
    exact List.findSome?_eq_none_iff.2
      (List.forall_mem_singleton.2 (operandProblem_of_isOperand operand place))
  | @binary left right word own kind spelled belowLeft belowRight operandLeft operandRight ihLeft
      ihRight =>
    have found := lookup_binaryStrengths kind spelled
    have operands : ∀ node ∈ [left, right], IsOperand own node :=
      List.forall_mem_cons.2 ⟨operandLeft,
        List.forall_mem_singleton.2 (operandRight.mono (Nat.le_succ own))⟩
    refine parsed_of_children Kind.noConfusion rfl rfl (numberedFor_fixed [word.gap] rfl)
      (takesCount_fixed rfl rfl) (accepts_of_operands rfl operands) ?_ ?_
    · exact List.findSome?_eq_none_iff.2 (List.forall_mem_cons.2
        ⟨operandProblem_of_isOperand operandLeft (neededStrength_left found),
          List.forall_mem_singleton.2
            (operandProblem_of_isOperand operandRight (neededStrength_right found))⟩)
    · simpa using ⟨ihLeft, ihRight⟩
  | creation isName count below operands ih =>
    exact parsed_of_children Kind.noConfusion rfl rfl (numberedFor_commas _ _ rfl rfl rfl)
      (takesCount_any _ rfl rfl) (accepts_of_operands rfl operands)
      (arranged_of_free Kind.noConfusion ⟨Kind.noConfusion, Kind.noConfusion⟩) ih
  | declaration isType isVariable => exact parsed_ofDeclaration _ _
  | assignment isName below operand ih =>
    refine parsed_of_children Kind.noConfusion rfl rfl (numberedFor_fixed _ rfl)
      (takesCount_fixed rfl rfl) ?_
      (arranged_of_free Kind.noConfusion ⟨Kind.noConfusion, Kind.noConfusion⟩)
      (List.forall_mem_cons.2 ⟨parsed_ofName _, List.forall_mem_singleton.2 ih⟩)
    refine List.forall_mem_cons.2 ⟨rfl, List.forall_mem_singleton.2 ?_⟩
    rw [operand.1]
    rfl
  | definition isType isVariable below initializer ih =>
    refine parsed_of_children Kind.noConfusion rfl rfl (numberedFor_fixed _ rfl)
      (takesCount_fixed rfl rfl) ?_
      (arranged_of_free Kind.noConfusion ⟨Kind.noConfusion, Kind.noConfusion⟩)
      (List.forall_mem_cons.2 ⟨parsed_ofDeclaration _ _, List.forall_mem_singleton.2 ih⟩)
    refine List.forall_mem_cons.2 ⟨rfl, List.forall_mem_singleton.2 ?_⟩
    rcases initializer with operand | connector
    · rw [operand.1]
      rfl
    · rw [connector]
      rfl
  | returns count below operands ih =>
    exact parsed_of_children Kind.noConfusion rfl rfl (numberedFor_commas _ _ rfl rfl rfl)
      (takesCount_any _ rfl rfl) (accepts_of_operands rfl operands)
      (arranged_of_free Kind.noConfusion ⟨Kind.noConfusion, Kind.noConfusion⟩) ih
  | @expression inner semicolon below operand ih =>
    exact parsed_of_children Kind.noConfusion rfl rfl
      (numberedFor_fixed [semicolon.gap] rfl) (takesCount_fixed rfl rfl)
      (accepts_of_operands rfl (List.forall_mem_singleton.2 operand))
      (arranged_of_free Kind.noConfusion ⟨Kind.noConfusion, Kind.noConfusion⟩)
      (List.forall_mem_singleton.2 ih)
  | @guarded kind words left right opening closing condition body guard count belowCondition operand
      below statements ihCondition ih =>
    obtain ⟨gaps, slot, takes, many, chain, free, notConnector⟩ := Kind.shape_of_guardWords guard
    obtain ⟨noAttributes, few⟩ := Kind.of_guardWords guard
    have length : ((words ++ [left, right, opening, closing]).map Token.gap).length =
        kind.layout.defaults.length := by
      rw [List.length_map, List.length_append, count, gaps]
      rfl
    obtain ⟨ascending, known⟩ := numberedFor_fixed _ length
    refine .mk ⟨notConnector, noAttributes.symm, slot.symm, fun inner member => ?_, ascending,
      known, takesCount_any _ few many, accepts_of_statements takes statements,
      arranged_of_free chain free⟩ (fun inner member => ?_) ih
    · obtain rfl := Option.some.inj member
      exact conditionFault?_eq_none.2 ⟨operand.1, operand.2.1⟩
    · obtain rfl := Option.some.inj member
      exact ihCondition
  | otherwise below statements ih =>
    exact parsed_of_children Kind.noConfusion rfl rfl (numberedFor_fixed _ rfl)
      (takesCount_any _ rfl rfl) (accepts_of_statements rfl statements)
      (arranged_of_free Kind.noConfusion ⟨Kind.noConfusion, Kind.noConfusion⟩) ih
  | @chain first others belowFirst kind below order ihFirst ih =>
    have ordered : clauseOrderProblem? (((first :: others).map outline).map Prod.fst) = none := by
      rw [List.map_map, List.map_cons]
      show clauseOrderProblem? (first.kind :: others.map Node.kind) = none
      rw [kind]
      exact clauseOrder_of_tailInOrder order
    refine parsed_of_children Kind.noConfusion rfl rfl (numberedFor_fixed [] rfl)
      ⟨Nat.succ_le_of_lt (Nat.succ_pos _), by simp [Kind.maxChildren]⟩ ?_ ordered
      (List.forall_mem_cons.2 ⟨ihFirst, ih⟩)
    refine List.forall_mem_cons.2 ⟨by rw [kind]; rfl, fun clause member => ?_⟩
    rcases mem_of_tailInOrder order (List.mem_map_of_mem member) with same | same <;>
      · rw [same]
        rfl
  | @unit leading statements below all ih =>
    exact parsed_of_children Kind.noConfusion rfl rfl
      (numberedFor_fixed [leading] rfl) (takesCount_any _ rfl rfl)
      (accepts_of_statements rfl all)
      (arranged_of_free Kind.noConfusion ⟨Kind.noConfusion, Kind.noConfusion⟩) ih

/-- **When a grammatical node is built, and with what result.** -/
theorem ofRaw_of_grammatical {strict asChild : Bool} {node built : Node} (h : node.Grammatical) :
    ofRaw strict asChild node.toRaw = .ok built ↔
      built = node.settle asChild ∧ node.All Loadable :=
  ofRaw_toRaw h.parsed

end Node

end Verbatim
