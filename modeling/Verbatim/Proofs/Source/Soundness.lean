import Verbatim.Proofs.Source.Grammar
import Verbatim.Proofs.Steps

/-!
# Reading gives what was written

Whatever the grammar's functions read is grammatical, and its words are exactly the words that were
taken. So no word is lost, and none changes its place.

## Main definitions

* `Reads`: the words between two points of a text
* `OperatorsEnd`: no operator goes on with an expression

## Main results

* `parseExpression_reads`, `parseStatement_reads`, `parseStatements_reads`: the words that were
  taken are the words of the node
-/

namespace Verbatim

/-! ### Steps that succeed -/

theorem expect_eq_ok {kind : TokenKind} {tokens rest : List Token} {token : Token} :
    expect kind tokens = .ok (token, rest) ↔ tokens = token :: rest ∧ token.kind = kind := by
  cases tokens with
  | nil => simp [expect]
  | cons first others =>
    rw [expect]
    split
    · simp only [Except.ok.injEq, Prod.mk.injEq, List.cons.injEq]
      grind
    · simp only [reduceCtorEq, List.cons.injEq, false_iff]
      grind

/-! ### Words that were taken -/

/-- Every word is spelled as its kind asks. -/
def AllSpelled (tokens : List Token) : Prop := ∀ token ∈ tokens, token.Spelled

theorem AllSpelled.head {token : Token} {tokens : List Token} (h : AllSpelled (token :: tokens)) :
    token.Spelled :=
  h token List.mem_cons_self

theorem AllSpelled.tail {token : Token} {tokens : List Token} (h : AllSpelled (token :: tokens)) :
    AllSpelled tokens :=
  fun other member => h other (List.mem_cons_of_mem token member)

/-- The given words stand between two points of a text. -/
def Reads (tokens : List Token) (words : List Lexeme) (rest : List Token) : Prop :=
  ∃ taken, tokens = taken ++ rest ∧ taken.map Token.lexeme = words

theorem Reads.nil (tokens : List Token) : Reads tokens [] tokens := ⟨[], rfl, rfl⟩

theorem Reads.cons (token : Token) {tokens rest : List Token} {words : List Lexeme}
    (h : Reads tokens words rest) : Reads (token :: tokens) (token.lexeme :: words) rest := by
  obtain ⟨taken, rfl, rfl⟩ := h
  exact ⟨token :: taken, rfl, rfl⟩

theorem Reads.one (token : Token) (rest : List Token) :
    Reads (token :: rest) [token.lexeme] rest :=
  .cons token (.nil rest)

theorem Reads.append {tokens middle rest : List Token} {first second : List Lexeme}
    (h : Reads tokens first middle) (h' : Reads middle second rest) :
    Reads tokens (first ++ second) rest := by
  obtain ⟨taken, rfl, rfl⟩ := h
  obtain ⟨more, rfl, rfl⟩ := h'
  exact ⟨taken ++ more, by rw [List.append_assoc], by rw [List.map_append]⟩

theorem Reads.spelled {tokens rest : List Token} {words : List Lexeme}
    (h : Reads tokens words rest) (spelled : AllSpelled tokens) : AllSpelled rest := by
  obtain ⟨taken, rfl, rfl⟩ := h
  exact fun token member => spelled token (List.mem_append_right taken member)

/-- A word with a fixed text in front of words that were taken. -/
theorem Reads.fixed {token : Token} {kind : TokenKind} {tokens rest : List Token}
    {words : List Lexeme} (h : Reads tokens words rest) (same : token.kind = kind)
    (spelled : token.Spelled) (only : kind.spellings.length = 1) :
    Reads (token :: tokens) (kind.lexeme token.gap :: words) rest := by
  rw [← Token.Is.lexeme_eq ⟨same, spelled⟩ only]
  exact h.cons token

/-! ### Operators and operands -/

/-- No operator that binds as tightly as given goes on with the expression. -/
def OperatorsEnd (strength : Nat) (tokens : List Token) : Prop :=
  ∀ token ∈ tokens.head?, ∀ own, token.kind.strength? = some own → own < strength

theorem lookup_binaryStrengths {kind : TokenKind} {text : String} {own : Nat}
    (strength : kind.strength? = some own) (spelled : kind.Spells text.toList) :
    binaryStrengths.lookup text = some own := by
  cases kind <;> simp only [TokenKind.strength?, Option.some.injEq, reduceCtorEq] at strength <;>
    subst strength <;>
    simp only [TokenKind.Spells, TokenKind.spellings, String.ofList_toList, List.mem_cons,
      List.not_mem_nil, or_false] at spelled
  all_goals rcases spelled with rfl | rfl | rfl | rfl <;> rfl

theorem strength_lt_unaryStrength {kind : TokenKind} {own : Nat}
    (strength : kind.strength? = some own) : own < unaryStrength := by
  cases kind <;> simp only [TokenKind.strength?, Option.some.injEq, reduceCtorEq] at strength <;>
    subst strength <;> decide

namespace Node

theorem IsOperand.mono {needed less : Nat} {node : Node} (h : IsOperand needed node)
    (le : less ≤ needed) : IsOperand less node := by
  obtain ⟨category, notConnector, own, strength, fits⟩ := h
  exact ⟨category, notConnector, own, strength, Nat.le_trans le fits⟩

theorem isOperand_ofBinary (left : Node) {word : Token} (right : Node) {own : Nat}
    (strength : word.kind.strength? = some own) (spelled : word.Spelled) :
    IsOperand own (ofBinary left word right) :=
  ⟨rfl, Kind.noConfusion, own, lookup_binaryStrengths strength spelled, Nat.le_refl _⟩

theorem isOperand_ofUnary (sign : Token) (inner : Node) :
    IsOperand unaryStrength (ofUnary sign inner) :=
  ⟨rfl, Kind.noConfusion, unaryStrength, rfl, Nat.le_refl _⟩

/-- What no operator can take apart fits everywhere. -/
theorem isOperand_primary {node : Node} (category : node.kind.category = .expression)
    (notConnector : node.kind ≠ .connectorCreation)
    (primary : node.kind.strength? node.operator? = some primaryStrength) :
    IsOperand unaryStrength node :=
  ⟨category, notConnector, primaryStrength, primary, by decide⟩

end Node

/-! ### Expressions -/

/-- An expression was read up to the given point. -/
structure ReadsExpression (strength : Nat) (tokens : List Token) (node : Node)
    (rest : List Token) : Prop where
  words : Reads tokens node.lexemes rest
  grammatical : node.Grammatical
  operand : node.IsOperand strength
  ends : OperatorsEnd strength rest

/-- An operand was read up to the given point. -/
structure ReadsUnary (tokens : List Token) (node : Node) (rest : List Token) : Prop where
  words : Reads tokens node.lexemes rest
  grammatical : node.Grammatical
  operand : node.IsOperand unaryStrength

/-- A list of expressions was read up to the given point. -/
structure ReadsArguments (tokens : List Token) (nodes : List Node) (commas : List String)
    (rest : List Token) : Prop where
  words : Reads tokens (Node.listLexemes nodes commas) rest
  count : commas.length = nodes.length - 1
  grammatical : ∀ node ∈ nodes, node.Grammatical
  operands : ∀ node ∈ nodes, node.IsOperand 0

/-- Expressions behind commas were read up to the given point. -/
structure ReadsMore (tokens : List Token) (nodes : List Node) (commas : List String)
    (rest : List Token) : Prop where
  words : Reads tokens (Node.moreLexemes nodes commas) rest
  count : commas.length = nodes.length
  grammatical : ∀ node ∈ nodes, node.Grammatical
  operands : ∀ node ∈ nodes, node.IsOperand 0

theorem readsUnary_ofLiteral {token : Token} (rest : List Token) (kind : token.kind.isLiteral)
    (spelled : token.Spelled) : ReadsUnary (token :: rest) (.ofLiteral token) rest := by
  refine ⟨?_, .literal kind spelled, Node.isOperand_primary rfl Kind.noConfusion rfl⟩
  rw [Node.lexemes_ofLiteral kind spelled]
  exact .one token rest

theorem readsUnary_ofName {token : Token} (rest : List Token) (name : token.Is .name) :
    ReadsUnary (token :: rest) (.ofName token) rest := by
  refine ⟨?_, .reference name, Node.isOperand_primary rfl Kind.noConfusion rfl⟩
  rw [Node.lexemes_ofName name.kind_eq]
  exact .one token rest

mutual

theorem parseExpression_reads {steps strength : Nat} {tokens rest : List Token} {node : Node}
    (spelled : AllSpelled tokens) (bound : strength ≤ unaryStrength)
    (h : parseExpression steps strength tokens = .ok (node, rest)) :
    ReadsExpression strength tokens node rest := by
  cases steps with
  | zero => simp [parseExpression] at h
  | succ steps =>
    simp only [parseExpression, bind_eq_ok, Prod.exists] at h
    obtain ⟨left, middle, first, h⟩ := h
    have operand := parseUnary_reads spelled first
    have fits (own : Nat) (le : own ≤ unaryStrength) := operand.operand.mono le
    obtain ⟨behind, grammatical, whole, ends⟩ := parseOperators_reads (operand.words.spelled spelled)
      bound operand.grammatical (fits strength bound) (fun token _ own strong =>
        fits own (Nat.le_of_lt (strength_lt_unaryStrength strong))) h
    obtain ⟨words, same, behind⟩ := behind
    exact ⟨same ▸ operand.words.append behind, grammatical, whole, ends⟩

/-- Operators go on with an expression that fits in front of the next one. -/
theorem parseOperators_reads {steps strength : Nat} {tokens rest : List Token} {left node : Node}
    (spelled : AllSpelled tokens) (bound : strength ≤ unaryStrength)
    (grammatical : left.Grammatical) (operand : left.IsOperand strength)
    (fits : ∀ token ∈ tokens.head?, ∀ own, token.kind.strength? = some own → left.IsOperand own)
    (h : parseOperators steps strength left tokens = .ok (node, rest)) :
    (∃ words, node.lexemes = left.lexemes ++ words ∧ Reads tokens words rest) ∧
      node.Grammatical ∧ node.IsOperand strength ∧ OperatorsEnd strength rest := by
  cases steps with
  | zero => simp [parseOperators] at h
  | succ steps =>
    cases tokens with
    | nil =>
      simp only [parseOperators, Except.ok.injEq, Prod.mk.injEq] at h
      obtain ⟨rfl, rfl⟩ := h
      exact ⟨⟨[], by simp, .nil _⟩, grammatical, operand, by simp [OperatorsEnd]⟩
    | cons token others =>
      simp only [parseOperators] at h
      split at h
      · next none =>
        obtain ⟨rfl, rfl⟩ := by simpa using h
        exact ⟨⟨[], by simp, .nil _⟩, grammatical, operand, by simp [OperatorsEnd, none]⟩
      · next own strong =>
        split at h
        · next loose =>
          obtain ⟨rfl, rfl⟩ := by simpa using h
          exact ⟨⟨[], by simp, .nil _⟩, grammatical, operand, by simp [OperatorsEnd, strong, loose]⟩
        · next tight =>
          simp only [bind_eq_ok, Prod.exists] at h
          obtain ⟨right, later, second, h⟩ := h
          have word := spelled.head
          have tighter := parseExpression_reads spelled.tail (strength_lt_unaryStrength strong) second
          have whole := Node.isOperand_ofBinary left right strong word
          obtain ⟨⟨words, same, behind⟩, rest⟩ := parseOperators_reads
            (tighter.words.spelled spelled.tail) bound
            (.binary strong word grammatical tighter.grammatical (fits token (by simp) own strong)
              tighter.operand)
            (whole.mono (Nat.le_of_not_lt tight))
            (fun next member other strong => whole.mono
              (Nat.le_of_lt_succ (tighter.ends next member other strong))) h
          refine ⟨⟨token.lexeme :: right.lexemes ++ words, ?_, ?_⟩, rest⟩
          · rw [same, Node.lexemes_ofBinary left right strong word, List.append_assoc]
          · exact (tighter.words.cons token).append behind

theorem parseUnary_reads {steps : Nat} {tokens rest : List Token} {node : Node}
    (spelled : AllSpelled tokens) (h : parseUnary steps tokens = .ok (node, rest)) :
    ReadsUnary tokens node rest := by
  cases steps with
  | zero => simp [parseUnary] at h
  | succ steps =>
    cases tokens with
    | nil => simp [parseUnary] at h
    | cons token others =>
      have word := spelled.head
      have sign (isSign : token.kind.isSign)
          (h : (parseUnary steps others >>= fun read => .ok (.ofUnary token read.1, read.2)) =
            .ok (node, rest)) : ReadsUnary (token :: others) node rest := by
        simp only [bind_eq_ok, Prod.exists] at h
        obtain ⟨inner, middle, below, h⟩ := h
        obtain ⟨rfl, rfl⟩ := by simpa using h
        have below := parseUnary_reads spelled.tail below
        refine ⟨?_, .unary isSign word below.grammatical below.operand,
          Node.isOperand_ofUnary token inner⟩
        rw [Node.lexemes_ofUnary inner isSign word]
        exact below.words.cons token
      have literal (isLiteral : token.kind.isLiteral)
          (h : Except.ok (Node.ofLiteral token, others) = Except.ok (ε := List Token) (node, rest)) :
          ReadsUnary (token :: others) node rest := by
        obtain ⟨rfl, rfl⟩ := by simpa using h
        exact readsUnary_ofLiteral others isLiteral word
      simp only [parseUnary] at h
      split at h
      · next kind => exact sign (by rw [kind]; rfl) h
      · next kind => exact sign (by rw [kind]; rfl) h
      · next kind => exact literal (by rw [kind]; rfl) h
      · next kind => exact literal (by rw [kind]; rfl) h
      · next kind => exact literal (by rw [kind]; rfl) h
      · next kind => exact literal (by rw [kind]; rfl) h
      · next kind =>
        simp only [bind_eq_ok, Prod.exists, expect_eq_ok] at h
        obtain ⟨inner, middle, below, right, later, ⟨rfl, closing⟩, h⟩ := h
        obtain ⟨rfl, rfl⟩ := by simpa using h
        have below := parseExpression_reads spelled.tail (Nat.zero_le _) below
        have closed := (Reads.nil rest).fixed closing
          (below.words.spelled spelled.tail).head rfl
        refine ⟨?_, .bracketed below.grammatical below.operand,
          Node.isOperand_primary rfl Kind.noConfusion rfl⟩
        rw [Node.lexemes_ofBracketed]
        exact (below.words.append closed).fixed kind word rfl
      · next kind =>
        cases others with
        | nil =>
          obtain ⟨rfl, rfl⟩ := by simpa using h
          exact readsUnary_ofName [] ⟨kind, word⟩
        | cons next later =>
          simp only at h
          split at h
          · next opening =>
            simp only [bind_eq_ok, Prod.exists, expect_eq_ok] at h
            obtain ⟨arguments, commas, middle, below, right, later, ⟨rfl, closing⟩, h⟩ := h
            obtain ⟨rfl, rfl⟩ := by simpa using h
            have below := parseArguments_reads spelled.tail.tail below
            have closed := (Reads.nil rest).fixed closing
              (below.words.spelled spelled.tail.tail).head rfl
            refine ⟨?_, .call ⟨kind, word⟩ below.count below.grammatical below.operands,
              Node.isOperand_primary rfl Kind.noConfusion rfl⟩
            rw [Node.lexemes_ofCall kind below.count]
            exact ((below.words.append closed).fixed opening spelled.tail.head rfl).cons token
          · obtain ⟨rfl, rfl⟩ := by simpa using h
            exact readsUnary_ofName (next :: later) ⟨kind, word⟩
      · simp at h

theorem parseArguments_reads {steps : Nat} {closing : TokenKind} {tokens rest : List Token}
    {nodes : List Node} {commas : List String} (spelled : AllSpelled tokens)
    (h : parseArguments steps closing tokens = .ok (nodes, commas, rest)) :
    ReadsArguments tokens nodes commas rest := by
  cases steps with
  | zero => simp [parseArguments] at h
  | succ steps =>
    cases tokens with
    | nil => simp [parseArguments] at h
    | cons token others =>
      simp only [parseArguments] at h
      split at h
      · obtain ⟨rfl, rfl, rfl⟩ := by simpa using h
        exact ⟨.nil _, rfl, by simp, by simp⟩
      · simp only [bind_eq_ok, Prod.exists] at h
        obtain ⟨first, middle, one, more, gaps, later, others, h⟩ := h
        obtain ⟨rfl, rfl, rfl⟩ := by simpa using h
        have one := parseExpression_reads spelled (Nat.zero_le _) one
        have others := parseMore_reads (one.words.spelled spelled) others
        exact ⟨one.words.append others.words, others.count,
          List.forall_mem_cons.2 ⟨one.grammatical, others.grammatical⟩,
          List.forall_mem_cons.2 ⟨one.operand, others.operands⟩⟩

theorem parseMore_reads {steps : Nat} {tokens rest : List Token}
    {nodes : List Node} {commas : List String} (spelled : AllSpelled tokens)
    (h : parseMore steps tokens = .ok (nodes, commas, rest)) :
    ReadsMore tokens nodes commas rest := by
  cases steps with
  | zero => simp [parseMore] at h
  | succ steps =>
    cases tokens with
    | nil =>
      obtain ⟨rfl, rfl, rfl⟩ := by simpa [parseMore] using h
      exact ⟨.nil _, rfl, by simp, by simp⟩
    | cons token others =>
      simp only [parseMore] at h
      split at h
      · next comma =>
        simp only [bind_eq_ok, Prod.exists] at h
        obtain ⟨first, middle, one, more, gaps, later, others, h⟩ := h
        obtain ⟨rfl, rfl, rfl⟩ := by simpa using h
        have one := parseExpression_reads spelled.tail (Nat.zero_le _) one
        have others := parseMore_reads (one.words.spelled spelled.tail) others
        exact ⟨(one.words.append others.words).fixed comma spelled.head rfl, by simp [others.count],
          List.forall_mem_cons.2 ⟨one.grammatical, others.grammatical⟩,
          List.forall_mem_cons.2 ⟨one.operand, others.operands⟩⟩
      · obtain ⟨rfl, rfl, rfl⟩ := by simpa using h
        exact ⟨.nil _, rfl, by simp, by simp⟩

end

/-! ### Simple statements -/

/-- A statement was read up to the given point. -/
structure ReadsStatement (tokens : List Token) (node : Node) (rest : List Token) : Prop where
  words : Reads tokens node.lexemes rest
  grammatical : node.Grammatical
  statement : node.IsStatement

/-- The value of a definition was read up to the given point. -/
structure ReadsInitializer (tokens : List Token) (node : Node) (rest : List Token) : Prop where
  words : Reads tokens node.lexemes rest
  grammatical : node.Grammatical
  initializer : node.IsOperand 0 ∨ node.kind = .connectorCreation

theorem parseInitializer_reads {steps : Nat} {tokens rest : List Token} {node : Node}
    (spelled : AllSpelled tokens) (h : parseInitializer steps tokens = .ok (node, rest)) :
    ReadsInitializer tokens node rest := by
  cases tokens with
  | nil => simp [parseInitializer] at h
  | cons token others =>
    simp only [parseInitializer] at h
    split at h
    · next create =>
      simp only [bind_eq_ok, Prod.exists, expect_eq_ok] at h
      obtain ⟨name, _, ⟨rfl, isName⟩, left, _, ⟨rfl, opening⟩, arguments, commas, _, below, right, _,
        ⟨rfl, closing⟩, h⟩ := h
      obtain ⟨rfl, rfl⟩ := by simpa using h
      have nameSpelled := spelled.tail.head
      have below := parseArguments_reads spelled.tail.tail.tail below
      have closed := (Reads.nil rest).fixed closing
        (below.words.spelled spelled.tail.tail.tail).head rfl
      refine ⟨?_, .creation ⟨isName, nameSpelled⟩ below.count below.grammatical below.operands,
        .inr rfl⟩
      rw [Node.lexemes_ofCreation isName below.count]
      exact (((below.words.append closed).fixed opening spelled.tail.tail.head rfl).cons name).fixed
        create spelled.head rfl
    · have read := parseExpression_reads spelled (Nat.zero_le _) h
      exact ⟨read.words, read.grammatical, .inl read.operand⟩

theorem parseDefinition_reads {steps : Nat} {typeName variableName : Token}
    {tokens rest : List Token} {node : Node}
    (spelled : AllSpelled (typeName :: variableName :: tokens)) (isType : typeName.kind = .name)
    (isVariable : variableName.kind = .name)
    (h : parseDefinition steps typeName variableName tokens = .ok (node, rest)) :
    ReadsStatement (typeName :: variableName :: tokens) node rest := by
  simp only [parseDefinition, bind_eq_ok, Prod.exists, expect_eq_ok] at h
  obtain ⟨equals, _, ⟨rfl, isEquals⟩, value, _, below, semicolon, _, ⟨rfl, ending⟩, h⟩ := h
  obtain ⟨rfl, rfl⟩ := by simpa using h
  have below := parseInitializer_reads spelled.tail.tail.tail below
  have closed := (Reads.nil rest).fixed ending (below.words.spelled spelled.tail.tail.tail).head rfl
  refine ⟨?_, .definition ⟨isType, spelled.head⟩ ⟨isVariable, spelled.tail.head⟩ below.grammatical
    below.initializer, rfl, Kind.noConfusion⟩
  rw [Node.lexemes_ofPair rfl, Node.lexemes_ofDeclaration isType isVariable]
  exact (((below.words.append closed).fixed isEquals spelled.tail.tail.head rfl).cons
    variableName).cons typeName

theorem parseAssignment_reads {steps : Nat} {name equals : Token} {tokens rest : List Token}
    {node : Node} (spelled : AllSpelled (name :: equals :: tokens)) (isName : name.kind = .name)
    (isEquals : equals.kind = .equals)
    (h : parseAssignment steps name equals tokens = .ok (node, rest)) :
    ReadsStatement (name :: equals :: tokens) node rest := by
  simp only [parseAssignment, bind_eq_ok, Prod.exists, expect_eq_ok] at h
  obtain ⟨value, _, below, semicolon, _, ⟨rfl, ending⟩, h⟩ := h
  obtain ⟨rfl, rfl⟩ := by simpa using h
  have below := parseExpression_reads spelled.tail.tail (Nat.zero_le _) below
  have closed := (Reads.nil rest).fixed ending (below.words.spelled spelled.tail.tail).head rfl
  refine ⟨?_, .assignment ⟨isName, spelled.head⟩ below.grammatical below.operand, rfl,
    Kind.noConfusion⟩
  rw [Node.lexemes_ofPair rfl, Node.lexemes_ofName isName]
  exact ((below.words.append closed).fixed isEquals spelled.tail.head rfl).cons name

theorem parseReturn_reads {steps : Nat} {word : Token} {tokens rest : List Token} {node : Node}
    (spelled : AllSpelled (word :: tokens)) (isReturn : word.kind = .returnWord)
    (h : parseReturn steps word tokens = .ok (node, rest)) :
    ReadsStatement (word :: tokens) node rest := by
  simp only [parseReturn, bind_eq_ok, Prod.exists, expect_eq_ok] at h
  obtain ⟨values, commas, _, below, semicolon, _, ⟨rfl, ending⟩, h⟩ := h
  obtain ⟨rfl, rfl⟩ := by simpa using h
  have below := parseArguments_reads spelled.tail below
  have closed := (Reads.nil rest).fixed ending (below.words.spelled spelled.tail).head rfl
  refine ⟨?_, .returns below.count below.grammatical below.operands, rfl, Kind.noConfusion⟩
  rw [Node.lexemes_ofReturn below.count]
  exact (below.words.append closed).fixed isReturn spelled.head rfl

theorem parseExpressionStatement_reads {steps : Nat} {tokens rest : List Token} {node : Node}
    (spelled : AllSpelled tokens) (h : parseExpressionStatement steps tokens = .ok (node, rest)) :
    ReadsStatement tokens node rest := by
  simp only [parseExpressionStatement, bind_eq_ok, Prod.exists, expect_eq_ok] at h
  obtain ⟨inner, _, below, semicolon, _, ⟨rfl, ending⟩, h⟩ := h
  obtain ⟨rfl, rfl⟩ := by simpa using h
  have below := parseExpression_reads spelled (Nat.zero_le _) below
  have closed := (Reads.nil rest).fixed ending (below.words.spelled spelled).head rfl
  refine ⟨?_, .expression below.grammatical below.operand, rfl, Kind.noConfusion⟩
  rw [Node.lexemes_ofExpressionStatement]
  exact below.words.append closed

theorem parseSimple_reads {steps : Nat} {tokens rest : List Token} {node : Node}
    (spelled : AllSpelled tokens) (h : parseSimple steps tokens = .ok (node, rest)) :
    ReadsStatement tokens node rest := by
  unfold parseSimple at h
  split at h
  · simp at h
  · split at h
    · next kind => exact parseReturn_reads spelled kind h
    · next kind =>
      split at h
      · next again => exact parseDefinition_reads spelled kind again h
      · next equals => exact parseAssignment_reads spelled kind equals h
      · exact parseExpressionStatement_reads spelled h
    · exact parseExpressionStatement_reads spelled h

/-! ### Statements with blocks -/

/-- Statements were read up to the given point. -/
structure ReadsStatements (tokens : List Token) (nodes : List Node) (rest : List Token) :
    Prop where
  words : Reads tokens (nodes.flatMap Node.lexemes) rest
  grammatical : ∀ node ∈ nodes, node.Grammatical
  statements : ∀ node ∈ nodes, node.IsStatement

/-- Further clauses of a chain were read up to the given point. -/
structure ReadsClauses (tokens : List Token) (nodes : List Node) (rest : List Token) : Prop where
  words : Reads tokens (nodes.flatMap Node.lexemes) rest
  grammatical : ∀ node ∈ nodes, node.Grammatical
  order : Node.tailInOrder (nodes.map Node.kind)

/-- A block was read up to the given point. -/
structure ReadsBlock (tokens : List Token) (opening : Token) (body : List Node) (closing : Token)
    (rest : List Token) : Prop where
  words : Reads tokens (Node.blockLexemes opening body closing) rest
  grammatical : ∀ node ∈ body, node.Grammatical
  statements : ∀ node ∈ body, node.IsStatement

/-- A condition in parentheses was read up to the given point. -/
structure ReadsCondition (tokens : List Token) (left : Token) (node : Node) (right : Token)
    (rest : List Token) : Prop where
  words : Reads tokens (TokenKind.lexeme .leftParen left.gap :: (node.lexemes ++
    [TokenKind.lexeme .rightParen right.gap])) rest
  grammatical : node.Grammatical
  operand : node.IsOperand 0

theorem parseCondition_reads {steps : Nat} {tokens rest : List Token} {left right : Token}
    {node : Node} (spelled : AllSpelled tokens)
    (h : parseCondition steps tokens = .ok ((left, node, right), rest)) :
    ReadsCondition tokens left node right rest := by
  simp only [parseCondition, bind_eq_ok, Prod.exists, expect_eq_ok] at h
  obtain ⟨_, _, ⟨rfl, opening⟩, _, _, below, _, _, ⟨rfl, closing⟩, h⟩ := h
  obtain ⟨⟨rfl, rfl, rfl⟩, rfl⟩ := by simpa using h
  have below := parseExpression_reads spelled.tail (Nat.zero_le _) below
  have closed := (Reads.nil rest).fixed closing (below.words.spelled spelled.tail).head rfl
  exact ⟨(below.words.append closed).fixed opening spelled.head rfl, below.grammatical,
    below.operand⟩

/-- A condition and a block were read behind the words in front of them. -/
structure ReadsGuarded (kind : Kind) (words : List Token) (tokens : List Token) (node : Node)
    (rest : List Token) : Prop where
  words : ∃ behind, Reads tokens behind rest ∧ node.lexemes =
    kind.guardWords.zipWith TokenKind.lexeme (words.map Token.gap) ++ behind
  grammatical : node.Grammatical
  kind_eq : node.kind = kind

mutual

theorem parseStatement_reads {steps : Nat} {tokens rest : List Token} {node : Node}
    (spelled : AllSpelled tokens) (h : parseStatement steps tokens = .ok (node, rest)) :
    ReadsStatement tokens node rest := by
  cases steps with
  | zero => simp [parseStatement] at h
  | succ steps =>
    cases tokens with
    | nil => simp [parseStatement] at h
    | cons token others =>
      simp only [parseStatement] at h
      split at h
      · next kind =>
        simp only [bind_eq_ok, Prod.exists] at h
        obtain ⟨first, _, below, clauses, _, more, h⟩ := h
        obtain ⟨rfl, rfl⟩ := by simpa using h
        have below := parseGuarded_reads spelled.tail (by decide) rfl below
        obtain ⟨behind, reads, same⟩ := below.words
        have more := parseClauses_reads (reads.spelled spelled.tail) more
        refine ⟨?_, .chain below.grammatical below.kind_eq more.grammatical more.order, rfl,
          Kind.noConfusion⟩
        rw [Node.lexemes_ofClauses, List.flatMap_cons, same]
        exact (reads.append more.words).fixed kind spelled.head rfl
      · next kind =>
        have below := parseGuarded_reads spelled.tail (by decide) rfl h
        obtain ⟨behind, reads, same⟩ := below.words
        refine ⟨?_, below.grammatical, ?_⟩
        · rw [same]
          exact reads.fixed kind spelled.head rfl
        · rw [Node.IsStatement, below.kind_eq]
          exact ⟨rfl, Kind.noConfusion⟩
      · exact parseSimple_reads spelled h

theorem parseClauses_reads {steps : Nat} {tokens rest : List Token} {nodes : List Node}
    (spelled : AllSpelled tokens) (h : parseClauses steps tokens = .ok (nodes, rest)) :
    ReadsClauses tokens nodes rest := by
  cases steps with
  | zero => simp [parseClauses] at h
  | succ steps =>
    cases tokens with
    | nil =>
      obtain ⟨rfl, rfl⟩ := by simpa [parseClauses] using h
      exact ⟨.nil _, by simp, trivial⟩
    | cons token others =>
      simp only [parseClauses] at h
      split at h
      · next kind =>
        split at h
        · simp at h
        · next next later =>
          split at h
          · next again =>
            simp only [bind_eq_ok, Prod.exists] at h
            obtain ⟨clause, _, below, clauses, _, more, h⟩ := h
            obtain ⟨rfl, rfl⟩ := by simpa using h
            have below := parseGuarded_reads spelled.tail.tail (by decide) rfl below
            obtain ⟨behind, reads, same⟩ := below.words
            have more := parseClauses_reads (reads.spelled spelled.tail.tail) more
            refine ⟨?_, List.forall_mem_cons.2 ⟨below.grammatical, more.grammatical⟩, ?_⟩
            · rw [List.flatMap_cons, same]
              exact ((reads.append more.words).fixed again spelled.tail.head rfl).fixed kind
                spelled.head rfl
            · rw [List.map_cons, below.kind_eq]
              exact more.order
          · simp only [bind_eq_ok, Prod.exists] at h
            obtain ⟨left, body, right, _, below, h⟩ := h
            obtain ⟨rfl, rfl⟩ := by simpa using h
            have below := parseBlock_reads spelled.tail below
            refine ⟨?_, List.forall_mem_singleton.2 (.otherwise below.grammatical below.statements),
              trivial⟩
            rw [List.flatMap_singleton, Node.lexemes_ofElse]
            exact below.words.fixed kind spelled.head rfl
      · obtain ⟨rfl, rfl⟩ := by simpa using h
        exact ⟨.nil _, by simp, trivial⟩

theorem parseGuarded_reads {steps : Nat} {kind : Kind} {words tokens rest : List Token}
    {node : Node} (spelled : AllSpelled tokens) (guard : kind.guardWords ≠ [])
    (count : words.length = kind.guardWords.length)
    (h : parseGuarded steps kind words tokens = .ok (node, rest)) :
    ReadsGuarded kind words tokens node rest := by
  cases steps with
  | zero => simp [parseGuarded] at h
  | succ steps =>
    simp only [parseGuarded, bind_eq_ok, Prod.exists] at h
    obtain ⟨left, condition, right, _, inner, opening, body, closing, _, block, h⟩ := h
    obtain ⟨rfl, rfl⟩ := by simpa using h
    have inner := parseCondition_reads spelled inner
    have block := parseBlock_reads (inner.words.spelled spelled) block
    refine ⟨⟨_, inner.words.append block.words, ?_⟩, .guarded guard count inner.grammatical
      inner.operand block.grammatical block.statements, rfl⟩
    rw [Node.lexemes_ofGuarded left right opening closing condition body guard count]
    simp

theorem parseBlock_reads {steps : Nat} {tokens rest : List Token} {opening closing : Token}
    {body : List Node} (spelled : AllSpelled tokens)
    (h : parseBlock steps tokens = .ok ((opening, body, closing), rest)) :
    ReadsBlock tokens opening body closing rest := by
  cases steps with
  | zero => simp [parseBlock] at h
  | succ steps =>
    simp only [parseBlock, bind_eq_ok, Prod.exists, expect_eq_ok] at h
    obtain ⟨_, _, ⟨rfl, isOpening⟩, _, _, below, _, _, ⟨rfl, isClosing⟩, h⟩ := h
    obtain ⟨⟨rfl, rfl, rfl⟩, rfl⟩ := by simpa using h
    have below := parseStatements_reads spelled.tail below
    have closed := (Reads.nil rest).fixed isClosing (below.words.spelled spelled.tail).head rfl
    exact ⟨(below.words.append closed).fixed isOpening spelled.head rfl, below.grammatical,
      below.statements⟩

theorem parseStatements_reads {steps : Nat} {tokens rest : List Token} {nodes : List Node}
    (spelled : AllSpelled tokens) (h : parseStatements steps tokens = .ok (nodes, rest)) :
    ReadsStatements tokens nodes rest := by
  cases steps with
  | zero => simp [parseStatements] at h
  | succ steps =>
    cases tokens with
    | nil =>
      obtain ⟨rfl, rfl⟩ := by simpa [parseStatements] using h
      exact ⟨.nil _, by simp, by simp⟩
    | cons token others =>
      simp only [parseStatements] at h
      split at h
      · obtain ⟨rfl, rfl⟩ := by simpa using h
        exact ⟨.nil _, by simp, by simp⟩
      · simp only [bind_eq_ok, Prod.exists] at h
        obtain ⟨first, _, one, others, _, more, h⟩ := h
        obtain ⟨rfl, rfl⟩ := by simpa using h
        have one := parseStatement_reads spelled one
        have more := parseStatements_reads (one.words.spelled spelled) more
        exact ⟨one.words.append more.words,
          List.forall_mem_cons.2 ⟨one.grammatical, more.grammatical⟩,
          List.forall_mem_cons.2 ⟨one.statement, more.statements⟩⟩

end

/-! ### Whole texts -/

/-- What is kept of a text: all of it in a unit, and otherwise what is not blank text in front. -/
def Start.kept (start : Start) (text : String) : String :=
  match start with
  | .unit => text
  | .statement | .expression => String.ofList (takeGap false text.toList).2

/-- What a successful reading says about the words of the text. -/
structure ReadsText (start : Start) (lexed : Lexed) (node : Node) : Prop where
  words : node.lexemes = lexed.tokens.map Token.lexeme
  grammatical : node.Grammatical
  leading : node.leading = if start = .unit then lexed.leading else ""

theorem Reads.whole {tokens : List Token} {words : List Lexeme} (h : Reads tokens words []) :
    words = tokens.map Token.lexeme := by
  obtain ⟨taken, rfl, rfl⟩ := h
  rw [List.append_nil]

theorem Start.parseTokens_reads {start : Start} {lexed : Lexed} {node : Node}
    (spelled : AllSpelled lexed.tokens) (h : start.parseTokens lexed = .ok (node, [])) :
    ReadsText start lexed node := by
  cases start with
  | unit =>
    simp only [parseTokens, bind_eq_ok, Prod.exists] at h
    obtain ⟨statements, rest, below, h⟩ := h
    obtain ⟨rfl, rfl⟩ := by simpa using h
    have below := parseStatements_reads spelled below
    refine ⟨?_, .unit below.grammatical below.statements, ?_⟩
    · rw [Node.lexemes_unit]
      exact below.words.whole
    · show Node.gapText .compilationUnit [(0, lexed.leading)] 0 = lexed.leading
      exact Node.gapText_of_get? rfl
  | statement =>
    have below := parseStatement_reads spelled h
    exact ⟨below.words.whole, below.grammatical, if_neg below.statement.ne_unit⟩
  | expression =>
    have below := parseExpression_reads spelled (Nat.zero_le _) h
    exact ⟨below.words.whole, below.grammatical, if_neg below.operand.ne_unit⟩

theorem parse_reads {start : Start} {text : String} {node : Node}
    (h : parse start text = .ok node) :
    ReadsText start (lex start.expectation text) node ∧
      (lex start.expectation text).stuck = none := by
  simp only [parse] at h
  split at h
  · next read =>
    split at h
    · next done =>
      obtain rfl := Except.ok.inj h
      exact ⟨Start.parseTokens_reads (lex_spelled _ _) read, Option.isNone_iff_eq_none.1 done⟩
    · simp at h
  · simp at h
  · simp at h

theorem parse_grammatical {start : Start} {text : String} {node : Node}
    (h : parse start text = .ok node) : node.Grammatical :=
  (parse_reads h).1.grammatical

/-- **The text of what was read is the text that was read.** -/
theorem render_of_parse {start : Start} {text : String} {node : Node}
    (h : parse start text = .ok node) : node.render = .ok (start.kept text) := by
  obtain ⟨reads, done⟩ := parse_reads h
  rw [Node.render_eq_written reads.grammatical.complete, reads.words, lex_written done,
    reads.leading]
  cases start with
  | unit =>
    have whole := takeGap_append false text.toList
    rw [if_pos rfl, Start.kept, lex, ← String.ofList_append, whole, String.ofList_toList]
  | statement => rw [if_neg Start.noConfusion, String.empty_append, Start.kept]
  | expression => rw [if_neg Start.noConfusion, String.empty_append, Start.kept]

end Verbatim
