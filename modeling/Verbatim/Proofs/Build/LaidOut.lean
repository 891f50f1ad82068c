import Verbatim.Proofs.Build.Accepted
import Verbatim.Proofs.Source.Printed

/-!
# Nodes laid out

A node without gaps of its own is written with the default text in every gap. Laid out, it carries
these texts itself, as if it had been read from its own text. A strict build does not check all that
the grammar asks for; what is left is stated here as a property of the node, and with it the
laid-out node is grammatical.

## Main definitions

* `Node.laidOut`: the node with every gap written out
* `Node.Regular`: what the grammar asks for and a strict build does not check
* `Node.Countable`: the gaps behind commas have numbers that can be read

## Main results

* `Node.lexemes_laidOut`: laying a node out changes no word
* `Node.grammatical_laidOut`: an accepted and regular node is grammatical when laid out
-/

namespace Verbatim

theorem TokenKind.spells_of_mem {kind : TokenKind} {text : String}
    (h : text ∈ kind.spellings) : kind.Spells text.toList := by
  cases kind <;> simp_all [TokenKind.Spells, TokenKind.spellings]

namespace Node

/-! ### Default gaps -/

/-- The gaps of a node with so many children, with their default texts. -/
def defaultGaps (kind : Kind) (count : Nat) : Gaps :=
  kind.layout.defaults ++
    match kind.layout.separatorBase? with
    | some base => numberGaps base (List.replicate (count - 1) Layout.separatorDefault)
    | none => []

mutual

/-- The node with every gap written out, and connector definitions as definitions. -/
def laidOut : Node → Node
  | mk kind attributes none children _ =>
    mk kind.plain attributes none (laidOutAll children) (defaultGaps kind children.length)
  | mk kind attributes (some condition) children _ =>
    mk kind.plain attributes (some (laidOut condition)) (laidOutAll children)
      (defaultGaps kind children.length)

/-- Each of the nodes laid out. -/
def laidOutAll : List Node → List Node
  | [] => []
  | node :: rest => laidOut node :: laidOutAll rest

end

theorem laidOutAll_eq_map (nodes : List Node) : laidOutAll nodes = nodes.map laidOut := by
  induction nodes with
  | nil => rfl
  | cons node rest ih => rw [laidOutAll, ih, List.map_cons]

theorem laidOut_eq (node : Node) : node.laidOut = mk node.kind.plain node.attributes
    (node.condition.map laidOut) (node.children.map laidOut)
    (defaultGaps node.kind node.children.length) := by
  rcases node with ⟨kind, attributes, _ | condition, children, gaps⟩ <;>
    rw [laidOut, laidOutAll_eq_map] <;> rfl

theorem kind_laidOut (node : Node) : node.laidOut.kind = node.kind.plain := by
  rw [laidOut_eq]
  rfl

theorem operator?_laidOut (node : Node) : node.laidOut.operator? = node.operator? := by
  rw [laidOut_eq]
  rfl

theorem get?_append (gaps more : Gaps) (index : Nat) :
    (gaps ++ more : Gaps).get? index = (gaps.get? index).or (more.get? index) := by
  induction gaps with
  | nil => rfl
  | cons entry rest ih =>
    rw [List.cons_append, Gaps.get?, Gaps.get?, ih]
    split <;> rfl

theorem mem_of_get? {gaps : Gaps} {index : Nat} {text : String}
    (found : gaps.get? index = some text) : (index, text) ∈ gaps := by
  induction gaps with
  | nil => exact absurd found.symm (Option.some_ne_none text)
  | cons entry rest ih =>
    obtain ⟨number, own⟩ := entry
    rw [Gaps.get?] at found
    split at found
    · next same =>
      obtain rfl := Option.some.inj found
      exact same ▸ List.mem_cons_self
    · exact List.mem_cons_of_mem _ (ih found)

theorem get?_eq_find? (gaps : Gaps) (index : Nat) : gaps.get? index =
    (gaps.find? fun entry => (entry.1 : Int) == ((index : Nat) : Int)).map Prod.snd := by
  induction gaps with
  | nil => rfl
  | cons entry rest ih =>
    rw [Gaps.get?, List.find?_cons]
    by_cases same : entry.1 = index
    · simp [same]
    · rw [if_neg same, ih, beq_false_of_ne (by omega)]

/-- A default gap has its default text. -/
theorem defaultGap?_of_get? {kind : Kind} {count index : Nat} {text : String}
    (found : (defaultGaps kind count).get? index = some text) :
    kind.layout.defaultGap? index = some text := by
  rw [defaultGaps, get?_append, Option.or_eq_some_iff] at found
  rcases found with fixed | ⟨other, comma⟩
  · rw [get?_eq_find?] at fixed
    obtain ⟨entry, here, rfl⟩ := Option.map_eq_some_iff.1 fixed
    rw [Layout.defaultGap?, here]
  · split at comma
    · next base separator =>
      have member := mem_of_get? comma
      obtain ⟨index', rfl⟩ := Nat.exists_eq_add_of_le (bounds_of_mem_numberGaps member).1
      rw [get?_numberGaps] at comma
      obtain rfl := List.eq_of_mem_replicate (List.mem_of_getElem? comma)
      exact defaultGap?_comma separator index'
    · exact absurd comma.symm (Option.some_ne_none text)

theorem gapText_defaultGaps (kind : Kind) (count index : Nat) :
    gapText kind (defaultGaps kind count) index = (kind.layout.defaultGap? index).getD "" := by
  cases found : Gaps.get? (defaultGaps kind count) index with
  | none => exact gapText_of_get?_none found
  | some text => rw [gapText_of_get? found, defaultGap?_of_get? found, Option.getD_some]

theorem gapText_plain (kind : Kind) (gaps : Gaps) (index : Nat) :
    gapText kind.plain gaps index = gapText kind gaps index := by
  rw [gapText, gapText, Kind.layout_plain]

/-- Laying a node out changes no word. -/
theorem lexemes_laidOut {node : Node} (bare : node.All fun below => below.gaps = []) :
    node.laidOut.lexemes = node.lexemes := by
  induction bare with
  | @mk node here _ _ condition children =>
    have hcondition : (node.condition.map laidOut).map lexemes = node.condition.map lexemes := by
      rw [Option.map_map]
      exact Option.map_congr condition
    have hchildren : (node.children.map laidOut).map lexemes = node.children.map lexemes := by
      rw [List.map_map]
      exact List.map_congr_left children
    have hgaps : gapText node.kind.plain (defaultGaps node.kind node.children.length) =
        gapText node.kind node.gaps := by
      funext index
      rw [gapText_plain, gapText_defaultGaps, here, gapText_of_get?_none rfl]
    rw [laidOut_eq, lexemes_eq, lexemes_eq node]
    show Part.lexemes node.attributes
      (gapText node.kind.plain (defaultGaps node.kind node.children.length))
      (((node.condition.map laidOut).map lexemes).getD [])
      ((node.children.map laidOut).map lexemes) node.kind.plain.layout.parts = _
    rw [hcondition, hchildren, hgaps, Kind.layout_plain]

/-! ### What is left to ask for -/

/-- What the grammar asks for and a strict build does not check: what is assigned to is a variable,
a definition is made of a declaration and an expression, a connector is created only in the second
place of a definition, no condition is missing, and literals have the type that reading gives
them. -/
structure Regular (node : Node) : Prop where
  assigned : node.kind = .assignment →
    ∃ first others, node.children = first :: others ∧ first.kind = .reference
  defined : node.kind = .definition ∨ node.kind = .connectorDefinition →
    ∃ declaration value, node.children = [declaration, value] ∧
      declaration.kind = .declaration ∧ value.kind.category = .expression
  connectors : ∀ child place, node.children[place]? = some child →
    child.kind = .connectorCreation →
      (node.kind = .definition ∨ node.kind = .connectorDefinition) ∧ place = 1
  guarded : node.kind.hasCondition → node.condition.isSome
  typed : node.kind = .literal → ∀ text literal,
    node.attributes.lookup "value" = some (.text text) → parse .expression text = .ok literal →
      node.attributes.lookup "literal_type" = literal.attributes.lookup "literal_type"

/-- Whether the gaps behind commas have numbers of so few digits that they can be read. -/
def Countable (node : Node) : Prop :=
  ∀ base ∈ node.kind.layout.separatorBase?, base + node.children.length ≤ 10 ^ Text.digitLimit

/-- Of most kinds nothing is asked but that no connector is created right below. -/
theorem regular_of_free {node : Node}
    (free : node.kind ∉ [.assignment, .definition, .connectorDefinition, .literal])
    (noCondition : node.kind.hasCondition = false)
    (noConnector : ∀ child ∈ node.children, child.kind ≠ .connectorCreation) : node.Regular where
  assigned same := absurd (by simp [same]) free
  defined same := absurd (by rcases same with same | same <;> simp [same]) free
  connectors child place found connector :=
    absurd connector (noConnector child (List.mem_of_getElem? found))
  guarded condition := absurd condition (Bool.eq_false_iff.1 noCondition)
  typed same := absurd (by simp [same]) free

theorem countable_of_noCommas {node : Node} (noCommas : node.kind.layout.separatorBase? = none) :
    node.Countable := by
  intro base member
  rw [noCommas] at member
  exact absurd member (Option.not_mem_none base)

/-! ### Attributes -/

theorem isName_of_good {kind : Kind} {name text : String} (isName : nameAttributes.contains name)
    (good : attributeProblem? kind name (.text text) = none) : Verbatim.isName text := by
  have other : name ≠ "operator" := by
    rintro rfl
    exact absurd isName (by decide)
  rw [attributeProblem?, if_neg other, if_pos isName] at good
  by_cases proper : Verbatim.isName text
  · exact proper
  · rw [if_neg proper] at good
    exact absurd good (Option.some_ne_none _)

theorem spells_of_isName {text : String} (h : isName text) :
    TokenKind.Spells .name text.toList := by
  unfold isName at h
  split at h
  · exact absurd h Bool.false_ne_true
  · next c rest same =>
    simp only [Bool.and_eq_true] at h
    exact ⟨c, rest, same, h.1.1, h.1.2⟩

theorem isLiteral_of_good {kind : Kind} {text : String}
    (good : attributeProblem? kind "value" (.text text) = none) : Verbatim.isLiteral text := by
  rw [attributeProblem?, if_neg (by decide), if_neg (by decide), if_pos rfl] at good
  by_cases literal : Verbatim.isLiteral text
  · exact literal
  · rw [if_neg literal] at good
    exact absurd good (Option.some_ne_none _)

/-- A text that reads as one literal is a word of its own. -/
theorem exists_word_of_isLiteral {text : String} (h : Verbatim.isLiteral text) :
    ∃ word : Token, word.kind.isLiteral ∧ word.Spelled ∧ word.text = text ∧ word.gap = "" ∧
      parse .expression text = .ok (ofLiteral word) := by
  unfold Verbatim.isLiteral at h
  split at h
  · next attributes condition children gaps read =>
    simp only [Bool.and_eq_true, beq_iff_eq] at h
    obtain ⟨value, gap⟩ := h
    have grammatical := parse_grammatical read
    generalize same : mk .literal attributes condition children gaps = node at grammatical
    cases grammatical with
    | @literal word kind spelled =>
      obtain ⟨-, rfl, rfl, rfl, rfl⟩ := mk.inj same
      have text : word.text = text := Json.text.inj (Json.eq_of_beq value)
      exact ⟨word, kind, spelled, text, by simpa [Gaps.get?] using gap, read⟩
    | @guarded kind words left right opening closing condition body guard =>
      obtain rfl : Kind.literal = kind := (mk.inj same).1
      exact absurd rfl guard
    | _ => exact Kind.noConfusion (mk.inj same).1
  · exact absurd h Bool.false_ne_true

section Words

variable {node : Node} (h : node.Accepted)
include h

/-- The only attribute of a node. -/
theorem Accepted.one {name : String} (names : node.kind.attributes = [name]) :
    ∃ text, node.attributes = [(name, .text text)] ∧
      attributeProblem? node.kind name (.text text) = none := by
  obtain ⟨entry, same, rfl⟩ := List.map_eq_singleton_iff.1 (h.names.trans names)
  have good := h.attributes entry (same ▸ List.mem_singleton_self entry)
  obtain ⟨text, value⟩ := exists_text_of_good good
  exact ⟨text, by rw [same, ← value], value ▸ good⟩

/-- The two attributes of a node. -/
theorem Accepted.two {first second : String} (names : node.kind.attributes = [first, second]) :
    ∃ text other, node.attributes = [(first, .text text), (second, .text other)] ∧
      attributeProblem? node.kind first (.text text) = none ∧
        attributeProblem? node.kind second (.text other) = none := by
  obtain ⟨entry, rest, same, rfl, later⟩ := List.map_eq_cons_iff.1 (h.names.trans names)
  obtain ⟨last, rfl, rfl⟩ := List.map_eq_singleton_iff.1 later
  have good := h.attributes entry (same ▸ List.mem_cons_self)
  have fine := h.attributes last (same ▸ List.mem_cons_of_mem _ List.mem_cons_self)
  obtain ⟨text, value⟩ := exists_text_of_good good
  obtain ⟨other, found⟩ := exists_text_of_good fine
  exact ⟨text, other, by rw [same, ← value, ← found], value ▸ good, found ▸ fine⟩

/-- Nodes without attributes. -/
theorem Accepted.zero (names : node.kind.attributes = []) : node.attributes = [] :=
  List.map_eq_nil_iff.1 (h.names.trans names)

/-- Nodes without children. -/
theorem Accepted.leaf (most : node.kind.maxChildren = some 0) : node.children = [] :=
  List.eq_nil_of_length_eq_zero (Nat.le_zero.1 (h.count.2 0 most))

/-- Nodes with one child. -/
theorem Accepted.single (least : node.kind.minChildren = 1)
    (most : node.kind.maxChildren = some 1) : ∃ child, node.children = [child] := by
  have bound := h.count.2 1 most
  have some := h.count.1
  rw [least] at some
  exact List.length_eq_one_iff.1 (Nat.le_antisymm bound some)

/-- Nodes with two children. -/
theorem Accepted.pair (least : node.kind.minChildren = 2)
    (most : node.kind.maxChildren = some 2) : ∃ first second, node.children = [first, second] := by
  have bound := h.count.2 2 most
  have some := h.count.1
  rw [least] at some
  obtain ⟨first, rest, same⟩ := List.exists_cons_of_length_eq_add_one (Nat.le_antisymm bound some)
  rw [same, List.length_cons] at bound some
  obtain ⟨second, rfl⟩ := List.length_eq_one_iff.1 (show rest.length = 1 by omega)
  exact ⟨first, second, same⟩

theorem Accepted.spaced_laidOut : node.laidOut.Spaced := by
  rw [laidOut_eq]
  constructor
  · intro index
    show gapText node.kind.plain (defaultGaps node.kind node.children.length) index =
      (node.kind.plain.layout.defaultGap? index).getD ""
    rw [gapText_plain, gapText_defaultGaps, Kind.layout_plain]
  · intro name text isName found
    exact isName_of_good isName (h.attributes _ (mem_of_lookup found))

theorem Accepted.loadable_laidOut (countable : node.Countable) : node.laidOut.Loadable := by
  rw [laidOut_eq]
  constructor
  · intro entry member
    exact attributeProblem_plain.2 (h.attributes entry member)
  · intro entry member
    rcases List.mem_append.1 member with fixed | comma
    · have small : ∀ entry ∈ node.kind.layout.defaults, entry.1 < 10 := by
        cases node.kind <;> decide
      have some : Text.digitLimit ≠ 0 := by decide
      exact Nat.lt_of_lt_of_le (small entry fixed) (Nat.le_self_pow some 10)
    · split at comma
      · next base separator =>
        have bound := (bounds_of_mem_numberGaps comma).2
        rw [List.length_replicate] at bound
        have last : base + (node.children.length - 1) ≤ base + node.children.length := by omega
        exact Nat.lt_of_lt_of_le bound (Nat.le_trans last (countable base separator))
      · exact absurd comma List.not_mem_nil

/-! ### Leaves -/

/-- A variable laid out. -/
theorem Accepted.laidOut_reference (kind : node.kind = .reference) :
    ∃ word : Token, word.Is .name ∧ node.laidOut = ofName word := by
  obtain ⟨text, attributes, good⟩ := h.one (by rw [kind]; rfl)
  have name := spells_of_isName (isName_of_good rfl good)
  refine ⟨⟨.name, text, "", .start⟩, ⟨rfl, name⟩, ?_⟩
  rw [laidOut_eq, h.slot (by rw [kind]; rfl), h.leaf (by rw [kind]; rfl), attributes, kind]
  rfl

/-- A declaration laid out. -/
theorem Accepted.laidOut_declaration (kind : node.kind = .declaration) :
    ∃ typeName variableName : Token, typeName.Is .name ∧ variableName.Is .name ∧
      node.laidOut = ofDeclaration typeName variableName := by
  obtain ⟨first, second, attributes, good, fine⟩ := h.two (by rw [kind]; rfl)
  refine ⟨⟨.name, first, " ", .start⟩, ⟨.name, second, " ", .start⟩,
    ⟨rfl, spells_of_isName (isName_of_good rfl good)⟩,
    ⟨rfl, spells_of_isName (isName_of_good rfl fine)⟩, ?_⟩
  rw [laidOut_eq, h.slot (by rw [kind]; rfl), h.leaf (by rw [kind]; rfl), attributes, kind]
  rfl

/-- A literal laid out. -/
theorem Accepted.laidOut_literal (kind : node.kind = .literal) (regular : node.Regular) :
    ∃ word : Token, word.kind.isLiteral ∧ word.Spelled ∧ node.laidOut = ofLiteral word := by
  obtain ⟨type, value, attributes, -, good⟩ := h.two (by rw [kind]; rfl)
  obtain ⟨word, isLiteral, spelled, rfl, gap, read⟩ :=
    exists_word_of_isLiteral (isLiteral_of_good good)
  have typed := regular.typed kind word.text (ofLiteral word) (by rw [attributes]; rfl) read
  have same : type = literalType word := by
    rw [attributes] at typed
    simpa [ofLiteral, Node.attributes, List.lookup] using typed
  refine ⟨word, isLiteral, spelled, ?_⟩
  rw [laidOut_eq, h.slot (by rw [kind]; rfl), h.leaf (by rw [kind]; rfl), attributes, kind, same,
    ofLiteral, gap]
  rfl

end Words

/-! ### What stands where -/

theorem isOperand_laidOut {needed : Nat} {node : Node} (h : node.IsOperand needed) :
    node.laidOut.IsOperand needed := by
  obtain ⟨category, notConnector, own, strength, le⟩ := h
  refine ⟨?_, ?_, own, ?_, le⟩
  · rw [kind_laidOut, Kind.category_plain, category]
  · rw [kind_laidOut]
    cases same : node.kind <;> simp_all [Kind.plain]
  · rw [kind_laidOut, operator?_laidOut, Kind.strength?_plain, strength]

theorem isStatement_laidOut {node : Node} (category : node.kind.category = .statement) :
    node.laidOut.IsStatement := by
  refine ⟨by rw [kind_laidOut, Kind.category_plain, category], ?_⟩
  rw [kind_laidOut]
  cases node.kind <;> exact Kind.noConfusion

/-- A binary operator is a word of its strength. -/
theorem exists_word_of_binary {text : String} {own : Nat}
    (found : binaryStrengths.lookup text = some own) :
    ∃ kind : TokenKind, kind.strength? = some own ∧ kind.Spells text.toList := by
  have all : ∀ entry ∈ binaryStrengths,
      (TokenKind.ofText entry.1).strength? = some entry.2 ∧
        entry.1 ∈ (TokenKind.ofText entry.1).spellings := by
    decide
  obtain ⟨strength, spelled⟩ := all (text, own) (mem_of_lookup found)
  exact ⟨TokenKind.ofText text, strength, TokenKind.spells_of_mem spelled⟩

/-- A unary operator is a sign. -/
theorem exists_word_of_unary {text : String} (h : isOperator .unary text) :
    ∃ kind : TokenKind, kind.isSign ∧ kind.Spells text.toList := by
  have all : ∀ entry ∈ unaryOperators, (TokenKind.ofText entry).isSign ∧
      entry ∈ (TokenKind.ofText entry).spellings := by
    decide
  obtain ⟨sign, spelled⟩ := all text (List.contains_iff_mem.1 h)
  exact ⟨TokenKind.ofText text, sign, TokenKind.spells_of_mem spelled⟩

theorem isOperator_of_good {kind : Kind} {text : String}
    (good : attributeProblem? kind "operator" (.text text) = none) : isOperator kind text := by
  rw [attributeProblem?, if_pos rfl] at good
  by_cases operator : isOperator kind text
  · exact operator
  · rw [if_neg operator] at good
    exact absurd good (Option.some_ne_none _)

/-- The operator of a binary expression. -/
theorem Accepted.operator_binary {node : Node} (h : node.Accepted) (binary : node.kind = .binary) :
    ∃ text own, node.attributes = [("operator", .text text)] ∧ node.operator? = some text ∧
      binaryStrengths.lookup text = some own := by
  obtain ⟨text, attributes, good⟩ := h.one (by rw [binary]; rfl)
  rw [binary] at good
  obtain ⟨own, found⟩ := Option.isSome_iff_exists.1 (isOperator_of_good good)
  refine ⟨text, own, attributes, ?_, found⟩
  rw [operator?, attribute?, attributes]
  rfl

/-- An expression other than a connector is an operand. -/
theorem Accepted.isOperand {node : Node} (h : node.Accepted)
    (expression : node.kind.category = .expression)
    (notConnector : node.kind ≠ .connectorCreation) : node.IsOperand 0 := by
  refine ⟨expression, notConnector, ?_⟩
  cases kind : node.kind with
  | binary =>
    obtain ⟨text, own, -, operator, found⟩ := h.operator_binary kind
    exact ⟨own, by rw [operator]; exact found, Nat.zero_le _⟩
  | _ => exact ⟨_, rfl, Nat.zero_le _⟩

/-- An operand that is not too loose for its place. -/
theorem IsOperand.of_operandProblem {parent : Kind} {operator : Option String} {position : Int}
    {side : OperandSide} {needed : Nat} {child : Node} (fits : child.IsOperand 0)
    (place : neededStrength? parent operator position = some (side, needed))
    (good : operandProblem? parent operator position child.outline.1 child.outline.2 = none) :
    child.IsOperand needed := by
  obtain ⟨category, notConnector, own, strength, -⟩ := fits
  refine ⟨category, notConnector, own, strength, ?_⟩
  unfold operandProblem? at good
  rw [place] at good
  simp only [outline, strength] at good
  by_cases tight : needed ≤ own
  · exact tight
  · rw [if_neg tight] at good
    exact absurd good (Option.some_ne_none _)

theorem tailInOrder_of_clauseFits {kinds : List Kind} {start : Nat} (behind : 0 < start)
    (h : ∀ entry ∈ kinds.zipIdx start, clauseFits (start + kinds.length) entry.2 entry.1) :
    tailInOrder kinds := by
  induction kinds generalizing start with
  | nil => trivial
  | cons kind rest ih =>
    rw [List.zipIdx_cons, List.forall_mem_cons] at h
    obtain ⟨here, later⟩ := h
    have first : start ≠ 0 := by omega
    rw [clauseFits, if_neg first] at here
    split at here
    · next last =>
      have length : rest.length = 0 := by
        simp only [List.length_cons, decide_eq_true_eq] at here
        omega
      obtain rfl : kind = .elseClause := last
      rw [List.eq_nil_of_length_eq_zero length]
      trivial
    · have other : kind = .elseIfClause := by simpa using here
      rw [other]
      refine ih (Nat.succ_pos start) fun entry member => ?_
      have fits := later entry member
      rwa [List.length_cons, ← Nat.succ_add_eq_add_succ] at fits

/-- Clauses in order: the first one, and those that can go on behind it. -/
theorem exists_of_clauseOrder {kinds : List Kind} (some : kinds ≠ [])
    (h : clauseOrderProblem? kinds = none) :
    ∃ rest, kinds = .ifClause :: rest ∧ tailInOrder rest := by
  cases kinds with
  | nil => exact absurd rfl some
  | cons kind rest =>
    rw [clauseOrderProblem?_eq_none, List.zipIdx_cons, List.forall_mem_cons, List.length_cons,
      Nat.add_comm] at h
    obtain ⟨here, later⟩ := h
    have first : kind = .ifClause := by simpa [clauseFits] using here
    exact ⟨rest, by rw [first], tailInOrder_of_clauseFits Nat.zero_lt_one later⟩

/-! ### Grammatical nodes -/

/-- What is below the node, laid out, is grammatical. -/
structure BelowGrammatical (node : Node) : Prop where
  condition : ∀ below ∈ node.condition, below.laidOut.Grammatical
  children : ∀ below ∈ node.children, below.laidOut.Grammatical

section Productions

variable {node : Node} (h : node.Accepted)
include h

/-- Expressions in a place that takes nothing else are operands. -/
theorem Accepted.operands (each : ∀ child ∈ node.children, child.Accepted)
    (regular : node.Regular) (takes : node.kind.accepts = [.expression]) :
    ∀ child ∈ node.children, child.IsOperand 0 := by
  intro child member
  have category : child.kind.category = .expression := by
    simpa [takes] using h.accepted child member
  refine (each child member).isOperand category fun connector => ?_
  obtain ⟨place, found⟩ := List.mem_iff_getElem?.1 member
  obtain ⟨definition, -⟩ := regular.connectors child place found connector
  rcases definition with kind | kind <;> rw [kind] at takes <;> exact absurd takes (by decide)

/-- Statements in a place that takes nothing else. -/
theorem Accepted.statements_laidOut (takes : node.kind.accepts = [.statement]) :
    ∀ child ∈ node.children.map laidOut, child.IsStatement := by
  refine List.forall_mem_map.2 fun child member => isStatement_laidOut ?_
  simpa [takes] using h.accepted child member

variable (below : node.BelowGrammatical)
include below

theorem grammatical_call (kind : node.kind = .call)
    (operands : ∀ child ∈ node.children, child.IsOperand 0) : node.laidOut.Grammatical := by
  obtain ⟨text, attributes, good⟩ := h.one (by rw [kind]; rfl)
  have name := spells_of_isName (isName_of_good rfl good)
  rw [laidOut_eq, h.slot (by rw [kind]; rfl), attributes, kind]
  exact @Grammatical.call ⟨.name, text, "", .start⟩ ⟨.leftParen, "(", "", .start⟩
    ⟨.rightParen, ")", "", .start⟩ (node.children.map laidOut)
    (List.replicate (node.children.length - 1) " ") ⟨rfl, name⟩
    (by rw [List.length_replicate, List.length_map]) (List.forall_mem_map.2 below.children)
    (List.forall_mem_map.2 fun child member => isOperand_laidOut (operands child member))

theorem grammatical_creation (kind : node.kind = .connectorCreation)
    (operands : ∀ child ∈ node.children, child.IsOperand 0) : node.laidOut.Grammatical := by
  obtain ⟨text, attributes, good⟩ := h.one (by rw [kind]; rfl)
  have name := spells_of_isName (isName_of_good rfl good)
  rw [laidOut_eq, h.slot (by rw [kind]; rfl), attributes, kind]
  exact @Grammatical.creation ⟨.createWord, "create", " ", .start⟩ ⟨.name, text, "", .start⟩
    ⟨.leftParen, "(", "", .start⟩ ⟨.rightParen, ")", "", .start⟩ (node.children.map laidOut)
    (List.replicate (node.children.length - 1) " ") ⟨rfl, name⟩
    (by rw [List.length_replicate, List.length_map]) (List.forall_mem_map.2 below.children)
    (List.forall_mem_map.2 fun child member => isOperand_laidOut (operands child member))

theorem grammatical_return (kind : node.kind = .returnStatement)
    (operands : ∀ child ∈ node.children, child.IsOperand 0) : node.laidOut.Grammatical := by
  rw [laidOut_eq, h.slot (by rw [kind]; rfl), h.zero (by rw [kind]; rfl), kind]
  exact @Grammatical.returns ⟨.returnWord, "return", " ", .start⟩ ⟨.semicolon, ";", "\n", .start⟩
    (node.children.map laidOut) (List.replicate (node.children.length - 1) " ")
    (by rw [List.length_replicate, List.length_map]) (List.forall_mem_map.2 below.children)
    (List.forall_mem_map.2 fun child member => isOperand_laidOut (operands child member))

theorem grammatical_bracketed (kind : node.kind = .bracketed)
    (operands : ∀ child ∈ node.children, child.IsOperand 0) : node.laidOut.Grammatical := by
  obtain ⟨inner, same⟩ := h.single (by rw [kind]; rfl) (by rw [kind]; rfl)
  have member : inner ∈ node.children := same ▸ List.mem_singleton_self inner
  rw [laidOut_eq, h.slot (by rw [kind]; rfl), h.zero (by rw [kind]; rfl), kind, same]
  exact @Grammatical.bracketed ⟨.leftParen, "(", "", .start⟩ ⟨.rightParen, ")", "", .start⟩ _
    (below.children inner member) (isOperand_laidOut (operands inner member))

theorem grammatical_expression (kind : node.kind = .expressionStatement)
    (operands : ∀ child ∈ node.children, child.IsOperand 0) : node.laidOut.Grammatical := by
  obtain ⟨inner, same⟩ := h.single (by rw [kind]; rfl) (by rw [kind]; rfl)
  have member : inner ∈ node.children := same ▸ List.mem_singleton_self inner
  rw [laidOut_eq, h.slot (by rw [kind]; rfl), h.zero (by rw [kind]; rfl), kind, same]
  exact @Grammatical.expression _ ⟨.semicolon, ";", "\n", .start⟩
    (below.children inner member) (isOperand_laidOut (operands inner member))

theorem grammatical_unary (kind : node.kind = .unary)
    (operands : ∀ child ∈ node.children, child.IsOperand 0) : node.laidOut.Grammatical := by
  obtain ⟨inner, same⟩ := h.single (by rw [kind]; rfl) (by rw [kind]; rfl)
  have member : inner ∈ node.children := same ▸ List.mem_singleton_self inner
  obtain ⟨text, attributes, good⟩ := h.one (by rw [kind]; rfl)
  rw [kind] at good
  obtain ⟨sign, isSign, spelled⟩ := exists_word_of_unary (isOperator_of_good good)
  have arranged := h.arranged
  rw [kind, same] at arranged
  have tight := (operands inner member).of_operandProblem
    (show neededStrength? .unary node.operator? 0 = some (.only, unaryStrength) from rfl)
    (List.findSome?_eq_none_iff.1 arranged (inner.outline, 0) List.mem_cons_self)
  rw [laidOut_eq, h.slot (by rw [kind]; rfl), attributes, kind, same]
  exact @Grammatical.unary ⟨sign, text, "", .start⟩ _ isSign spelled (below.children inner member)
    (isOperand_laidOut tight)

theorem grammatical_binary (kind : node.kind = .binary)
    (operands : ∀ child ∈ node.children, child.IsOperand 0) : node.laidOut.Grammatical := by
  obtain ⟨left, right, same⟩ := h.pair (by rw [kind]; rfl) (by rw [kind]; rfl)
  obtain ⟨text, own, attributes, operator, found⟩ := h.operator_binary kind
  obtain ⟨word, strength, spelled⟩ := exists_word_of_binary found
  have arranged := h.arranged
  rw [kind, same, operator] at arranged
  have leftMember : left ∈ node.children := same ▸ List.mem_cons_self
  have rightMember : right ∈ node.children :=
    same ▸ List.mem_cons_of_mem left (List.mem_singleton_self right)
  have each := List.findSome?_eq_none_iff.1 arranged
  have loose := (operands left leftMember).of_operandProblem (neededStrength_left found)
    (each (left.outline, 0) List.mem_cons_self)
  have tight := (operands right rightMember).of_operandProblem
    (neededStrength_right found)
    (each (right.outline, 1) (List.mem_cons_of_mem _ List.mem_cons_self))
  rw [laidOut_eq, h.slot (by rw [kind]; rfl), attributes, kind, same]
  exact @Grammatical.binary _ _ ⟨word, text, " ", .start⟩ own strength spelled
    (below.children left leftMember) (below.children right rightMember) (isOperand_laidOut loose)
    (isOperand_laidOut tight)

theorem grammatical_assignment (kind : node.kind = .assignment) (regular : node.Regular)
    (each : ∀ child ∈ node.children, child.Accepted)
    (operands : ∀ child ∈ node.children, child.IsOperand 0) : node.laidOut.Grammatical := by
  obtain ⟨first, value, same⟩ := h.pair (by rw [kind]; rfl) (by rw [kind]; rfl)
  obtain ⟨other, others, again, reference⟩ := regular.assigned kind
  obtain ⟨rfl, -⟩ := List.cons.inj (same.symm.trans again)
  have member : value ∈ node.children :=
    same ▸ List.mem_cons_of_mem first (List.mem_singleton_self value)
  obtain ⟨word, name, refers⟩ :=
    (each first (same ▸ List.mem_cons_self)).laidOut_reference reference
  rw [laidOut_eq, h.slot (by rw [kind]; rfl), h.zero (by rw [kind]; rfl), kind, same,
    List.map_cons, refers]
  exact @Grammatical.assignment word ⟨.equals, "=", " ", .start⟩ ⟨.semicolon, ";", "\n", .start⟩ _
    name (below.children value member) (isOperand_laidOut (operands value member))

/-- Definitions of both kinds are definitions when laid out. -/
theorem grammatical_definition (kind : node.kind = .definition ∨ node.kind = .connectorDefinition)
    (regular : node.Regular) (each : ∀ child ∈ node.children, child.Accepted) :
    node.laidOut.Grammatical := by
  obtain ⟨declaration, value, same, isDeclaration, expression⟩ := regular.defined kind
  have member : value ∈ node.children :=
    same ▸ List.mem_cons_of_mem declaration (List.mem_singleton_self value)
  obtain ⟨typeName, variableName, isType, isVariable, declares⟩ :=
    (each declaration (same ▸ List.mem_cons_self)).laidOut_declaration isDeclaration
  have initializer : value.laidOut.IsOperand 0 ∨ value.laidOut.kind = .connectorCreation := by
    by_cases connector : value.kind = .connectorCreation
    · exact .inr (by rw [kind_laidOut, connector]; rfl)
    · exact .inl (isOperand_laidOut ((each value member).isOperand expression connector))
  have shape : node.laidOut = .ofPair .definition (.ofDeclaration typeName variableName)
      ⟨.equals, "=", " ", .start⟩ value.laidOut ⟨.semicolon, ";", "\n", .start⟩ := by
    rw [← declares, laidOut_eq, same]
    rcases kind with kind | kind <;>
      rw [h.slot (by rw [kind]; rfl), h.zero (by rw [kind]; rfl), kind] <;> rfl
  rw [shape]
  exact .definition isType isVariable (below.children value member) initializer

theorem grammatical_unit (kind : node.kind = .compilationUnit) : node.laidOut.Grammatical := by
  have statements := h.statements_laidOut (by rw [kind]; rfl)
  rw [laidOut_eq, h.slot (by rw [kind]; rfl), h.zero (by rw [kind]; rfl), kind]
  exact @Grammatical.unit "" _ (List.forall_mem_map.2 below.children) statements

theorem grammatical_else (kind : node.kind = .elseClause) : node.laidOut.Grammatical := by
  have statements := h.statements_laidOut (by rw [kind]; rfl)
  rw [laidOut_eq, h.slot (by rw [kind]; rfl), h.zero (by rw [kind]; rfl), kind]
  exact @Grammatical.otherwise ⟨.elseWord, "else", " ", .start⟩ ⟨.leftBrace, "\x7b", "\n", .start⟩
    ⟨.rightBrace, "\x7d", "\n", .start⟩ _ (List.forall_mem_map.2 below.children) statements

theorem grammatical_guarded (guard : node.kind.guardWords ≠ []) (regular : node.Regular)
    (each : ∀ inner ∈ node.condition, inner.Accepted) : node.laidOut.Grammatical := by
  obtain ⟨slot, takes⟩ : node.kind.hasCondition ∧ node.kind.accepts = [.statement] := by
    cases kind : node.kind <;> rw [kind] at guard <;>
      first | exact ⟨rfl, rfl⟩ | exact absurd rfl guard
  have statements := h.statements_laidOut takes
  obtain ⟨inner, found⟩ := Option.isSome_iff_exists.1 (regular.guarded slot)
  obtain ⟨expression, notConnector⟩ := conditionFault?_eq_none.1 (h.fitting inner found)
  have operand := isOperand_laidOut ((each inner found).isOperand expression notConnector)
  have derived := below.condition inner found
  have body := List.forall_mem_map.2 below.children
  rw [laidOut_eq, h.zero (Kind.of_guardWords guard).1, found]
  cases kind : node.kind with
  | ifClause =>
    exact @Grammatical.guarded .ifClause [⟨.ifWord, "if", " ", .start⟩]
      ⟨.leftParen, "(", "", .start⟩ ⟨.rightParen, ")", " ", .start⟩ ⟨.leftBrace, "\x7b", "\n", .start⟩
      ⟨.rightBrace, "\x7d", " ", .start⟩ _ _ (by decide) rfl derived operand body statements
  | elseIfClause =>
    exact @Grammatical.guarded .elseIfClause
      [⟨.elseWord, "else", " ", .start⟩, ⟨.ifWord, "if", " ", .start⟩] ⟨.leftParen, "(", "", .start⟩
      ⟨.rightParen, ")", " ", .start⟩ ⟨.leftBrace, "\x7b", "\n", .start⟩
      ⟨.rightBrace, "\x7d", " ", .start⟩ _ _ (by decide) rfl derived operand body statements
  | whileLoop =>
    exact @Grammatical.guarded .whileLoop [⟨.whileWord, "while", " ", .start⟩]
      ⟨.leftParen, "(", "", .start⟩ ⟨.rightParen, ")", " ", .start⟩
      ⟨.leftBrace, "\x7b", "\n", .start⟩ ⟨.rightBrace, "\x7d", "\n", .start⟩ _ _ (by decide) rfl
      derived operand body statements
  | _ =>
    rw [kind] at guard
    exact absurd rfl guard

theorem grammatical_chain (kind : node.kind = .ifElse) : node.laidOut.Grammatical := by
  have arranged := h.arranged
  have least := h.count.1
  rw [kind] at arranged least
  have order : clauseOrderProblem? (node.children.map Node.kind) = none := by
    rw [arrangement_chain, List.map_map] at arranged
    exact arranged
  obtain ⟨rest, same, inOrder⟩ := exists_of_clauseOrder
    (List.ne_nil_of_length_pos (by rw [List.length_map]; exact least)) order
  obtain ⟨first, others, children, isFirst, kinds⟩ := List.map_eq_cons_iff.1 same
  obtain ⟨derived, clauses⟩ := List.forall_mem_cons.1 (children ▸ below.children)
  have plain : (others.map laidOut).map Node.kind = rest := by
    rw [List.map_map, ← kinds]
    refine List.map_congr_left fun clause member => ?_
    have clauseKind := mem_of_tailInOrder inOrder (kinds ▸ List.mem_map_of_mem member)
    rw [Function.comp_apply, kind_laidOut]
    rcases clauseKind with found | found <;> rw [found] <;> rfl
  rw [laidOut_eq, h.slot (by rw [kind]; rfl), h.zero (by rw [kind]; rfl), kind, children]
  exact @Grammatical.chain first.laidOut (others.map laidOut) derived
    (by rw [kind_laidOut, isFirst]; rfl) (List.forall_mem_map.2 clauses) (plain ▸ inOrder)

end Productions

/-- **An accepted and regular node is grammatical when laid out.** -/
theorem grammatical_laidOut {node : Node} (accepted : node.All Accepted)
    (regular : node.All Regular) : node.laidOut.Grammatical := by
  induction node using inductionOn with
  | step node condition children =>
    obtain ⟨here, inner, each⟩ := accepted
    obtain ⟨own, within, all⟩ := regular
    have below : node.BelowGrammatical :=
      ⟨fun child member => condition child member (inner child member) (within child member),
        fun child member => children child member (each child member) (all child member)⟩
    have good (child : Node) (member : child ∈ node.children) : child.Accepted :=
      (each child member).here
    have operands := here.operands good own
    cases kind : node.kind with
    | compilationUnit => exact grammatical_unit here below kind
    | ifElse => exact grammatical_chain here below kind
    | elseClause => exact grammatical_else here below kind
    | assignment =>
      exact grammatical_assignment here below kind own good (operands (by rw [kind]; rfl))
    | definition => exact grammatical_definition here below (.inl kind) own good
    | connectorDefinition => exact grammatical_definition here below (.inr kind) own good
    | returnStatement => exact grammatical_return here below kind (operands (by rw [kind]; rfl))
    | expressionStatement =>
      exact grammatical_expression here below kind (operands (by rw [kind]; rfl))
    | declaration =>
      obtain ⟨typeName, variableName, isType, isVariable, same⟩ := here.laidOut_declaration kind
      exact same ▸ .declaration isType isVariable
    | binary => exact grammatical_binary here below kind (operands (by rw [kind]; rfl))
    | unary => exact grammatical_unary here below kind (operands (by rw [kind]; rfl))
    | literal =>
      obtain ⟨word, literal, spelled, same⟩ := here.laidOut_literal kind own
      exact same ▸ .literal literal spelled
    | reference =>
      obtain ⟨word, name, same⟩ := here.laidOut_reference kind
      exact same ▸ .reference name
    | call => exact grammatical_call here below kind (operands (by rw [kind]; rfl))
    | bracketed => exact grammatical_bracketed here below kind (operands (by rw [kind]; rfl))
    | connectorCreation => exact grammatical_creation here below kind (operands (by rw [kind]; rfl))
    | _ =>
      exact grammatical_guarded here below (by rw [kind]; decide) own
        fun child member => (inner child member).here

/-! ### Laid-out nodes as a whole -/

/-- The function gives nodes these gaps, and takes connector definitions as definitions. -/
def Regaps (regap : Node → Node) (gaps : Node → Gaps) : Prop :=
  ∀ node, regap node = mk node.kind.plain node.attributes (node.condition.map regap)
    (node.children.map regap) (gaps node)

theorem Regaps.all {regap : Node → Node} {gaps : Node → Gaps} (same : Regaps regap gaps)
    {first second : Node → Prop} {node : Node} (each : ∀ node, first node → second (regap node))
    (h : node.All first) : (regap node).All second := by
  induction h with
  | @mk node here _ _ condition children =>
    have own := each node here
    rw [same] at own ⊢
    refine .mk own (fun below member => ?_) (List.forall_mem_map.2 children)
    obtain ⟨inner, found, rfl⟩ := Option.map_eq_some_iff.1 member
    exact condition inner found

theorem all_laidOut {first second : Node → Prop} {node : Node}
    (each : ∀ node, first node → second node.laidOut) (h : node.All first) :
    node.laidOut.All second :=
  Regaps.all laidOut_eq each h

/-- Where all attributes are good ones, each has a text. -/
theorem lookup_of_good {node : Node} {name : String}
    (names : node.attributes.map Prod.fst = node.kind.attributes)
    (good : ∀ entry ∈ node.attributes, attributeProblem? node.kind entry.1 entry.2 = none)
    (member : name ∈ node.kind.attributes) : ∃ text, node.attributes.lookup name = some (.text text) := by
  rw [← names] at member
  obtain ⟨entry, found, rfl⟩ := List.mem_map.1 member
  obtain ⟨text, value⟩ := exists_text_of_good (good entry found)
  refine ⟨text, ?_⟩
  rw [lookup_of_mem (names ▸ nodup_attributes node.kind) found, value]

/-- An accepted and regular node has all that its layout asks for. -/
theorem complete_of_accepted {node : Node} (accepted : node.All Accepted)
    (regular : node.All Regular) : node.All Complete := by
  induction accepted with
  | @mk node here inner each condition children =>
    obtain ⟨own, within, all⟩ := regular
    refine .mk ⟨fun name => lookup_of_good here.names here.attributes, own.guarded, here.count.1, ?_⟩
      (fun below member => condition below member (within below member))
      (fun below member => children below member (all below member))
    · rintro below (member | member) unit
      · have expression := (conditionFault?_eq_none.1 (here.fitting below member)).1
        rw [unit] at expression
        exact Category.noConfusion expression
      · have category := here.accepted below member
        rw [unit] at category
        revert category
        cases node.kind <;> decide

theorem leading_laidOut {node : Node} (bare : node.gaps = []) :
    node.laidOut.leading = node.leading := by
  have gaps : node.laidOut.gaps = defaultGaps node.kind node.children.length := by
    rw [laidOut_eq]
    rfl
  rw [leading, leading, kind_laidOut, gaps, gapText_plain, gapText_defaultGaps, bare,
    gapText_of_get?_none rfl]
  by_cases unit : node.kind = .compilationUnit
  · rw [if_pos unit, if_pos (by rw [unit]; rfl)]
  · rw [if_neg unit, if_neg]
    cases same : node.kind <;> simp_all [Kind.plain]

/-- **The text of an accepted and regular node without gaps of its own is read as the node laid
out.** -/
theorem parse_of_accepted {node : Node} (accepted : node.All Accepted)
    (regular : node.All Regular) (bare : node.All fun below => below.gaps = [])
    {start : Start} (takes : start.Takes node.laidOut) :
    ∃ text, node.render = .ok text ∧ parse start text = .ok node.laidOut := by
  have grammatical := grammatical_laidOut accepted regular
  obtain ⟨text, printed, read⟩ := parse_of_render grammatical
    (all_laidOut (fun _ here => Accepted.spaced_laidOut here) accepted) takes
  refine ⟨text, ?_, read⟩
  rw [← printed, render_eq_written grammatical.complete, lexemes_laidOut bare,
    leading_laidOut bare.here, render_eq_written (complete_of_accepted accepted regular)]

/-! ### Built again -/

/-- Without gaps, the raw value of a node with other gaps that was built again is that of the
node. -/
theorem Regaps.withoutGaps_toJson_settle {regap : Node → Node} {gaps : Node → Gaps}
    (same : Regaps regap gaps) (asChild : Bool) (node : Node) :
    ((regap node).settle asChild).toJson.withoutGaps = node.toJson.withoutGaps := by
  induction node using inductionOn generalizing asChild with
  | step node condition children =>
    have plain : (((regap node).settle asChild).kind).plain = node.kind.plain := by
      rw [plain_kind_settle, same]
      cases kind : node.kind <;> rfl
    have tag : ((regap node).settle asChild).kind.wireTag = node.kind.wireTag := by
      rw [← Kind.wireTag_plain, plain, Kind.wireTag_plain]
    have names : ((regap node).settle asChild).kind.attributes = node.kind.attributes := by
      rw [← Kind.attributes_plain, plain, Kind.attributes_plain]
    have own : ownFields ((regap node).settle asChild).kind node.attributes =
        ownFields node.kind node.attributes := by
      rw [ownFields, ownFields, names]
    have attributes : ((regap node).settle asChild).attributes = node.attributes := by
      rw [settle_eq, same]
      rfl
    have below : ((regap node).settle asChild).children =
        node.children.map fun child => (regap child).settle true := by
      rw [settle_eq, same]
      exact List.map_map
    have inner : ((regap node).settle asChild).condition =
        node.condition.map fun condition => (regap condition).settle false := by
      rw [settle_eq, same]
      exact Option.map_map ..
    have each : (node.children.map fun child => (regap child).settle true).map
        (fun child => child.toJson.withoutGaps) =
          node.children.map fun child => child.toJson.withoutGaps := by
      rw [List.map_map]
      exact List.map_congr_left fun child member => children child member true
    have slot : (node.condition.map fun condition => (regap condition).settle false).map
        (fun condition => ("condition", condition.toJson.withoutGaps)) =
          node.condition.map fun condition => ("condition", condition.toJson.withoutGaps) := by
      rw [Option.map_map]
      exact Option.map_congr fun child member =>
        congrArg (Prod.mk "condition") (condition child member false)
    rw [withoutGaps_toJson, withoutGaps_toJson node, tag, attributes, own, below, inner, each, slot,
      List.isEmpty_map]

/-- Without gaps, the raw value of what was laid out and built again is that of the node. -/
theorem withoutGaps_toJson_settle (asChild : Bool) (node : Node) :
    (node.laidOut.settle asChild).toJson.withoutGaps = node.toJson.withoutGaps :=
  Regaps.withoutGaps_toJson_settle laidOut_eq asChild node

end Node

end Verbatim
