import Verbatim.Proofs.Source.Lexemes
import Verbatim.Tree.Build

/-!
# The grammar, as a property of nodes

A node is *grammatical* if the grammar derives it: there is one case for each production. Operands
must bind tightly enough to need no brackets, and the clauses of a chain must be in order. The words
of each such node are those of its production.

## Main definitions

* `Node.Grammatical`: the nodes that the grammar derives
* `Node.IsOperand`, `Node.IsStatement`, `tailInOrder`: what can stand where
* `Node.listLexemes`, `Node.blockLexemes`: the words of lists and blocks

## Main results

* `Node.lexemes_ofBinary`, `Node.lexemes_ofCall` and so on: the words of each production
* `Node.Grammatical.complete`: a grammatical node has all that its layout asks for
-/

namespace Verbatim

/-! ### Words of one kind -/

/-- Whether the word is a good one of the given kind. -/
structure Token.Is (token : Token) (kind : TokenKind) : Prop where
  kind_eq : token.kind = kind
  spelled : token.Spelled

namespace TokenKind

/-- The word of a kind with one text. -/
def lexeme (kind : TokenKind) (gap : String) : Lexeme :=
  ⟨kind, kind.spellings.headD "", gap⟩

/-- The kinds of words that are literals. -/
def isLiteral : TokenKind → Bool
  | .number | .string | .trueWord | .falseWord => true
  | _ => false

/-- The kinds of words that are unary operators. -/
def isSign : TokenKind → Bool
  | .bang | .minus => true
  | _ => false

end TokenKind

theorem Token.Is.lexeme_eq {token : Token} {kind : TokenKind} (h : token.Is kind)
    (only : kind.spellings.length = 1) : token.lexeme = kind.lexeme token.gap := by
  obtain ⟨text, same⟩ := List.length_eq_one_iff.1 only
  rw [token.lexeme_of_spellings h.spelled (h.kind_eq ▸ same), TokenKind.lexeme, same, h.kind_eq]
  rfl

namespace Node

/-! ### What stands where -/

/-- Whether the node is an expression that binds at least as tightly as needed. -/
def IsOperand (needed : Nat) (node : Node) : Prop :=
  node.kind.category = .expression ∧ node.kind ≠ .connectorCreation ∧
    ∃ own, node.kind.strength? node.operator? = some own ∧ needed ≤ own

/-- Whether the node is a statement as the grammar has them. -/
def IsStatement (node : Node) : Prop :=
  node.kind.category = .statement ∧ node.kind ≠ .connectorDefinition

/-- Whether the clauses of these kinds can go on after another clause. -/
def tailInOrder : List Kind → Prop
  | [] => True
  | .elseIfClause :: rest => tailInOrder rest
  | [.elseClause] => True
  | _ => False

end Node

/-- The words in front of a condition. -/
def Kind.guardWords : Kind → List TokenKind
  | .ifClause => [.ifWord]
  | .elseIfClause => [.elseWord, .ifWord]
  | .whileLoop => [.whileWord]
  | _ => []

/-- What stands in front of a condition has no attributes and needs no statements. -/
theorem Kind.of_guardWords {kind : Kind} (guard : kind.guardWords ≠ []) :
    kind.attributes = [] ∧ kind.minChildren = 0 := by
  cases kind <;> first | exact ⟨rfl, rfl⟩ | exact absurd rfl guard

namespace Node

/-! ### Productions -/

/-- The nodes that the grammar derives. Words of which a node keeps only the gap are free, since
their texts are fixed. -/
inductive Grammatical : Node → Prop
  | literal {word : Token} (kind : word.kind.isLiteral) (spelled : word.Spelled) :
      Grammatical (.ofLiteral word)
  | reference {word : Token} (name : word.Is .name) : Grammatical (.ofName word)
  | call {name left right : Token} {arguments : List Node} {commas : List String}
      (isName : name.Is .name) (count : commas.length = arguments.length - 1)
      (below : ∀ argument ∈ arguments, Grammatical argument)
      (operands : ∀ argument ∈ arguments, IsOperand 0 argument) :
      Grammatical (.ofCall name left arguments commas right)
  | bracketed {left right : Token} {inner : Node} (below : Grammatical inner)
      (operand : IsOperand 0 inner) : Grammatical (.ofBracketed left inner right)
  | unary {sign : Token} {inner : Node} (kind : sign.kind.isSign) (spelled : sign.Spelled)
      (below : Grammatical inner) (operand : IsOperand unaryStrength inner) :
      Grammatical (.ofUnary sign inner)
  | binary {left right : Node} {word : Token} {own : Nat} (kind : word.kind.strength? = some own)
      (spelled : word.Spelled) (belowLeft : Grammatical left) (belowRight : Grammatical right)
      (operandLeft : IsOperand own left) (operandRight : IsOperand (own + 1) right) :
      Grammatical (.ofBinary left word right)
  | creation {create name left right : Token} {arguments : List Node} {commas : List String}
      (isName : name.Is .name) (count : commas.length = arguments.length - 1)
      (below : ∀ argument ∈ arguments, Grammatical argument)
      (operands : ∀ argument ∈ arguments, IsOperand 0 argument) :
      Grammatical (.ofCreation create name left arguments commas right)
  | declaration {typeName variableName : Token} (isType : typeName.Is .name)
      (isVariable : variableName.Is .name) : Grammatical (.ofDeclaration typeName variableName)
  | assignment {name equals semicolon : Token} {value : Node} (isName : name.Is .name)
      (below : Grammatical value) (operand : IsOperand 0 value) :
      Grammatical (.ofPair .assignment (.ofName name) equals value semicolon)
  | definition {typeName variableName equals semicolon : Token} {value : Node}
      (isType : typeName.Is .name) (isVariable : variableName.Is .name) (below : Grammatical value)
      (initializer : IsOperand 0 value ∨ value.kind = .connectorCreation) :
      Grammatical
        (.ofPair .definition (.ofDeclaration typeName variableName) equals value semicolon)
  | returns {word semicolon : Token} {values : List Node} {commas : List String}
      (count : commas.length = values.length - 1) (below : ∀ value ∈ values, Grammatical value)
      (operands : ∀ value ∈ values, IsOperand 0 value) :
      Grammatical (.ofReturn word values commas semicolon)
  | expression {inner : Node} {semicolon : Token} (below : Grammatical inner)
      (operand : IsOperand 0 inner) : Grammatical (.ofExpressionStatement inner semicolon)
  | guarded {kind : Kind} {words : List Token} {left right opening closing : Token}
      {condition : Node} {body : List Node} (guard : kind.guardWords ≠ [])
      (count : words.length = kind.guardWords.length) (belowCondition : Grammatical condition)
      (operand : IsOperand 0 condition) (below : ∀ statement ∈ body, Grammatical statement)
      (statements : ∀ statement ∈ body, statement.IsStatement) :
      Grammatical (.ofBlock kind (words ++ [left, right, opening, closing]) (some condition) body)
  | otherwise {word opening closing : Token} {body : List Node}
      (below : ∀ statement ∈ body, Grammatical statement)
      (statements : ∀ statement ∈ body, statement.IsStatement) :
      Grammatical (.ofBlock .elseClause [word, opening, closing] none body)
  | chain {first : Node} {others : List Node} (belowFirst : Grammatical first)
      (kind : first.kind = .ifClause) (below : ∀ clause ∈ others, Grammatical clause)
      (order : tailInOrder (others.map Node.kind)) : Grammatical (.ofClauses (first :: others))
  | unit {leading : String} {statements : List Node}
      (below : ∀ statement ∈ statements, Grammatical statement)
      (all : ∀ statement ∈ statements, statement.IsStatement) :
      Grammatical (.mk .compilationUnit [] none statements [(0, leading)])

/-! ### Words of productions -/

/-- The words of nodes behind commas. -/
def moreLexemes : List Node → List String → List Lexeme
  | node :: rest, gap :: commas =>
    TokenKind.lexeme .comma gap :: node.lexemes ++ moreLexemes rest commas
  | _, _ => []

/-- The words of a list of nodes with commas between them. -/
def listLexemes : List Node → List String → List Lexeme
  | [], _ => []
  | node :: rest, commas => node.lexemes ++ moreLexemes rest commas

theorem get?_numberGaps (first index : Nat) (texts : List String) :
    (numberGaps first texts : Gaps).get? (first + index) = texts[index]? := by
  induction texts generalizing first index with
  | nil => rfl
  | cons text rest ih =>
    rw [numberGaps, List.zipIdx_cons, List.map_cons, Gaps.get?]
    rcases index with _ | index
    · simp
    · rw [if_neg (by omega), show first + (index + 1) = first + 1 + index by omega]
      exact ih (first + 1) index

theorem numberGaps_append (first : Nat) (texts more : List String) :
    numberGaps first texts ++ numberGaps (first + texts.length) more =
      numberGaps first (texts ++ more) := by
  simp [numberGaps, List.zipIdx_append]

/-- The text of a gap of a node whose gaps are numbered from zero. -/
theorem gapText_numberGaps {kind : Kind} {texts : List String} {index : Nat} {text : String}
    (h : texts[index]? = some text) : gapText kind (numberGaps 0 texts) index = text :=
  gapText_of_get? (by rw [← h, ← get?_numberGaps 0 index texts, Nat.zero_add])

/-! ### Words of each production -/

theorem sequenceLexemes_none (gapText : Nat → String) (place : Nat) (children : List (List Lexeme)) :
    Part.sequenceLexemes none gapText place children = children.flatten := by
  induction children generalizing place with
  | nil => rfl
  | cons words rest ih =>
    rw [Part.sequenceLexemes, ih, List.flatten_cons]
    rcases place with _ | place <;> rfl

theorem sequenceLexemes_more {base place : Nat} {gapText : Nat → String} {nodes : List Node}
    {commas : List String} (count : commas.length = nodes.length)
    (texts : ∀ index text, commas[index]? = some text → gapText (base + place + index) = text) :
    Part.sequenceLexemes (some (",", base)) gapText (place + 1) (nodes.map lexemes) =
      moreLexemes nodes commas := by
  induction nodes generalizing place commas with
  | nil => rfl
  | cons node rest ih =>
    obtain ⟨gap, commas, rfl⟩ := List.exists_cons_of_length_eq_add_one count
    have first : gapText (base + place) = gap := texts 0 gap rfl
    rw [List.map_cons, Part.sequenceLexemes, Part.separatorLexemes, moreLexemes, first,
      ih (by simpa using count)]
    · rfl
    · intro index text found
      rw [← texts (index + 1) text (by simpa using found)]
      congr 1
      omega

/-- The words of a list whose commas are numbered from a base on. -/
theorem sequenceLexemes_list {base : Nat} {gapText : Nat → String} {nodes : List Node}
    {commas : List String} (count : commas.length = nodes.length - 1)
    (texts : ∀ index text, commas[index]? = some text → gapText (base + index) = text) :
    Part.sequenceLexemes (some (",", base)) gapText 0 (nodes.map lexemes) =
      listLexemes nodes commas := by
  cases nodes with
  | nil => rfl
  | cons node rest =>
    rw [List.map_cons, Part.sequenceLexemes, sequenceLexemes_more (by simpa using count) texts]
    rfl

/-- The gaps behind commas, where the other gaps come before them. -/
theorem gapText_commas (kind : Kind) (fixed : List String) {commas : List String} {base : Nat}
    (length : fixed.length = base) (index : Nat) (text : String)
    (found : commas[index]? = some text) :
    gapText kind (numberGaps 0 fixed ++ numberGaps base commas) (base + index) = text := by
  subst length
  rw [show numberGaps fixed.length commas = numberGaps (0 + fixed.length) commas by rw [Nat.zero_add],
    numberGaps_append]
  refine gapText_numberGaps ?_
  rw [List.getElem?_append_right (by omega), ← found]
  congr 1
  omega

theorem get?_append_left {gaps : Gaps} {index : Nat} {text : String}
    (found : gaps.get? index = some text) (more : Gaps) :
    (gaps ++ more : Gaps).get? index = some text := by
  induction gaps with
  | nil => simp [Gaps.get?] at found
  | cons entry rest ih =>
    rw [Gaps.get?] at found
    rw [List.cons_append, Gaps.get?]
    split
    · next own => rwa [if_pos own] at found
    · next own => exact ih (by rwa [if_neg own] at found)

/-- The gaps that come before those behind commas. -/
theorem gapText_fixed {kind : Kind} {fixed : List String} (more : Gaps) {index : Nat}
    {text : String} (found : fixed[index]? = some text) :
    gapText kind (numberGaps 0 fixed ++ more) index = text := by
  refine gapText_of_get? (get?_append_left ?_ more)
  rw [← found, ← get?_numberGaps 0 index fixed, Nat.zero_add]

/-- The word that an attribute is written as, where it is no name. -/
theorem attributeLexeme_eq {attributes : List (String × Json)} {name : String} {word : Token}
    (found : attributes.lookup name = some (.text word.text))
    (other : nameAttributes.contains name = false) (notName : word.kind ≠ .name)
    (spelled : word.Spelled) : attributeLexeme attributes name word.gap = word.lexeme := by
  have kind : attributeWordKind name word.text = word.kind := by
    rw [attributeWordKind, other]
    exact TokenKind.ofText_of_spells notName spelled
  simp only [attributeLexeme, found, Option.map_some, Option.getD_some, Json.plainText, kind,
    Token.lexeme]

theorem lexemes_ofLiteral {word : Token} (kind : word.kind.isLiteral) (spelled : word.Spelled) :
    (ofLiteral word).lexemes = [word.lexeme] := by
  have notName : word.kind ≠ .name := by
    intro h
    simp [h, TokenKind.isLiteral] at kind
  rw [lexemes_eq]
  show [attributeLexeme _ "value" word.gap] = _
  rw [attributeLexeme_eq rfl rfl notName spelled]

theorem lexemes_ofName {word : Token} (name : word.kind = .name) :
    (ofName word).lexemes = [word.lexeme] := by
  rw [Token.lexeme, name, lexemes_eq]
  rfl

theorem lexemes_ofCall {name left right : Token} {arguments : List Node} {commas : List String}
    (isName : name.kind = .name) (count : commas.length = arguments.length - 1) :
    (ofCall name left arguments commas right).lexemes =
      name.lexeme :: TokenKind.lexeme .leftParen left.gap ::
        (listLexemes arguments commas ++ [TokenKind.lexeme .rightParen right.gap]) := by
  rw [← sequenceLexemes_list count (gapText_commas .call
    [name.gap, left.gap, right.gap] rfl), Token.lexeme, isName, lexemes_eq]
  rfl

theorem lexemes_ofBracketed (left : Token) (inner : Node) (right : Token) :
    (ofBracketed left inner right).lexemes =
      TokenKind.lexeme .leftParen left.gap :: (inner.lexemes ++
        [TokenKind.lexeme .rightParen right.gap]) := by
  rw [lexemes_eq]
  rfl

theorem lexemes_ofUnary {sign : Token} (inner : Node) (kind : sign.kind.isSign)
    (spelled : sign.Spelled) : (ofUnary sign inner).lexemes = sign.lexeme :: inner.lexemes := by
  have notName : sign.kind ≠ .name := by
    intro h
    simp [h, TokenKind.isSign] at kind
  rw [lexemes_eq]
  show attributeLexeme _ "operator" sign.gap :: (inner.lexemes ++ []) = _
  rw [attributeLexeme_eq rfl rfl notName spelled, List.append_nil]

theorem lexemes_ofBinary (left : Node) {word : Token} (right : Node) {own : Nat}
    (kind : word.kind.strength? = some own) (spelled : word.Spelled) :
    (ofBinary left word right).lexemes = left.lexemes ++ word.lexeme :: right.lexemes := by
  have notName : word.kind ≠ .name := by
    intro h
    simp [h, TokenKind.strength?] at kind
  rw [lexemes_eq]
  show left.lexemes ++ attributeLexeme _ "operator" word.gap :: (right.lexemes ++ []) = _
  rw [attributeLexeme_eq rfl rfl notName spelled, List.append_nil]

theorem lexemes_ofCreation {create name left right : Token} {arguments : List Node}
    {commas : List String} (isName : name.kind = .name)
    (count : commas.length = arguments.length - 1) :
    (ofCreation create name left arguments commas right).lexemes =
      TokenKind.lexeme .createWord create.gap :: name.lexeme ::
        TokenKind.lexeme .leftParen left.gap :: (listLexemes arguments commas ++
          [TokenKind.lexeme .rightParen right.gap]) := by
  rw [← sequenceLexemes_list count (gapText_commas .connectorCreation
    [create.gap, name.gap, left.gap, right.gap] rfl), Token.lexeme, isName, lexemes_eq]
  rfl

theorem lexemes_ofPair {kind : Kind} (pair : kind.layout = Kind.pairLayout) (left : Node)
    (equals : Token) (right : Node) (semicolon : Token) :
    (ofPair kind left equals right semicolon).lexemes =
      left.lexemes ++ TokenKind.lexeme .equals equals.gap :: (right.lexemes ++
        [TokenKind.lexeme .semicolon semicolon.gap]) := by
  rw [lexemes_eq]
  show Part.lexemes _ (gapText kind _) _ _ kind.layout.parts = _
  rw [pair]
  rfl

theorem lexemes_ofDeclaration {typeName variableName : Token} (isType : typeName.kind = .name)
    (isVariable : variableName.kind = .name) :
    (ofDeclaration typeName variableName).lexemes = [typeName.lexeme, variableName.lexeme] := by
  rw [Token.lexeme, Token.lexeme, isType, isVariable, lexemes_eq]
  rfl

theorem lexemes_ofReturn {word semicolon : Token} {values : List Node} {commas : List String}
    (count : commas.length = values.length - 1) :
    (ofReturn word values commas semicolon).lexemes =
      TokenKind.lexeme .returnWord word.gap :: (listLexemes values commas ++
        [TokenKind.lexeme .semicolon semicolon.gap]) := by
  rw [← sequenceLexemes_list count (gapText_commas .returnStatement
    [word.gap, semicolon.gap] rfl), lexemes_eq]
  rfl

theorem lexemes_ofExpressionStatement (inner : Node) (semicolon : Token) :
    (ofExpressionStatement inner semicolon).lexemes =
      inner.lexemes ++ [TokenKind.lexeme .semicolon semicolon.gap] := by
  rw [lexemes_eq]
  rfl

/-- The words of a block. -/
def blockLexemes (opening : Token) (body : List Node) (closing : Token) : List Lexeme :=
  TokenKind.lexeme .leftBrace opening.gap :: (body.flatMap lexemes ++
    [TokenKind.lexeme .rightBrace closing.gap])

theorem lexemes_ofGuarded {kind : Kind} {words : List Token} (left right opening closing : Token)
    (condition : Node) (body : List Node) (guard : kind.guardWords ≠ [])
    (count : words.length = kind.guardWords.length) :
    (ofBlock kind (words ++ [left, right, opening, closing]) (some condition) body).lexemes =
      kind.guardWords.zipWith TokenKind.lexeme (words.map Token.gap) ++
        TokenKind.lexeme .leftParen left.gap :: (condition.lexemes ++
          TokenKind.lexeme .rightParen right.gap :: blockLexemes opening body closing) := by
  have block (gapText : Nat → String) : Part.sequenceLexemes none gapText 0 (body.map lexemes) =
      body.flatMap lexemes := by
    rw [sequenceLexemes_none, List.flatMap_def]
  rw [lexemes_eq]
  cases kind with
  | ifClause =>
    obtain ⟨word, rfl⟩ := List.length_eq_one_iff.1 count
    show _ :: _ :: (condition.lexemes ++ _ :: _ :: (Part.sequenceLexemes none _ 0 (body.map lexemes) ++ _)) = _
    rw [block]
    rfl
  | whileLoop =>
    obtain ⟨word, rfl⟩ := List.length_eq_one_iff.1 count
    show _ :: _ :: (condition.lexemes ++ _ :: _ :: (Part.sequenceLexemes none _ 0 (body.map lexemes) ++ _)) = _
    rw [block]
    rfl
  | elseIfClause =>
    obtain ⟨word, rest, rfl⟩ := List.exists_cons_of_length_eq_add_one count
    obtain ⟨next, rfl⟩ := List.length_eq_one_iff.1 (Nat.succ.inj count)
    show _ :: _ :: _ :: (condition.lexemes ++ _ :: _ :: (Part.sequenceLexemes none _ 0 (body.map lexemes) ++ _)) = _
    rw [block]
    rfl
  | _ => exact absurd rfl guard

theorem lexemes_ofElse (word opening closing : Token) (body : List Node) :
    (ofBlock .elseClause [word, opening, closing] none body).lexemes =
      TokenKind.lexeme .elseWord word.gap :: blockLexemes opening body closing := by
  rw [lexemes_eq]
  show _ :: _ :: (Part.sequenceLexemes none _ 0 (body.map lexemes) ++ _) = _
  rw [sequenceLexemes_none, ← List.flatMap_def]
  rfl

theorem lexemes_ofClauses (clauses : List Node) :
    (ofClauses clauses).lexemes = clauses.flatMap lexemes := by
  rw [lexemes_eq]
  show Part.sequenceLexemes none _ 0 (clauses.map lexemes) ++ [] = _
  rw [sequenceLexemes_none, ← List.flatMap_def, List.append_nil]

theorem lexemes_unit (leading : String) (statements : List Node) :
    (mk .compilationUnit [] none statements [(0, leading)]).lexemes =
      statements.flatMap lexemes := by
  rw [lexemes_eq]
  show Part.sequenceLexemes none _ 0 (statements.map lexemes) ++ [] = _
  rw [sequenceLexemes_none, ← List.flatMap_def, List.append_nil]

/-! ### Grammatical nodes are complete -/

/-- What stands where an expression or a statement belongs is no unit. -/
theorem IsOperand.ne_unit {needed : Nat} {node : Node} (h : IsOperand needed node) :
    node.kind ≠ .compilationUnit := by
  intro unit
  simp [IsOperand, unit, Kind.category] at h

theorem IsStatement.ne_unit {node : Node} (h : node.IsStatement) :
    node.kind ≠ .compilationUnit := by
  intro unit
  simp [IsStatement, unit, Kind.category] at h

theorem mem_of_tailInOrder {kinds : List Kind} (h : tailInOrder kinds) {kind : Kind}
    (member : kind ∈ kinds) : kind = .elseIfClause ∨ kind = .elseClause := by
  fun_induction tailInOrder kinds with
  | case1 => simp at member
  | case2 rest ih =>
    rcases List.mem_cons.1 member with rfl | member
    · exact .inl rfl
    · exact ih h member
  | case3 => exact .inr (by simpa using member)
  | case4 => exact h.elim

/-- A node without a condition is complete if it has its attributes and enough children. -/
theorem complete_of_children {kind : Kind} {attributes : List (String × Json)}
    {children : List Node} {gaps : Gaps}
    (own : ∀ name ∈ kind.attributes, ∃ text, attributes.lookup name = some (.text text))
    (plain : kind.hasCondition = false) (arity : kind.minChildren ≤ children.length)
    (units : ∀ child ∈ children, child.kind ≠ .compilationUnit)
    (below : ∀ child ∈ children, child.All Complete) :
    (mk kind attributes none children gaps).All Complete := by
  refine .mk ⟨own, fun has => ?_, arity, ?_⟩ (fun below member => ?_) below
  · change kind.hasCondition = true at has
    exact absurd (plain.symm.trans has) Bool.false_ne_true
  · rintro below (member | member)
    · exact absurd member (Option.not_mem_none below)
    · exact units below member
  · exact absurd member (Option.not_mem_none below)

theorem complete_ofName (word : Token) : (ofName word).All Complete :=
  complete_of_children (by simp [Kind.attributes]) rfl (Nat.zero_le _) (by simp) (by simp)

theorem complete_ofDeclaration (typeName variableName : Token) :
    (ofDeclaration typeName variableName).All Complete :=
  complete_of_children (by simp [Kind.attributes, List.lookup]) rfl (Nat.zero_le _) (by simp)
    (by simp)

/-- **A grammatical node has all that its layout asks for.** -/
theorem Grammatical.complete {node : Node} (h : Grammatical node) : node.All Complete := by
  induction h with
  | literal kind spelled =>
    exact complete_of_children (by simp [Kind.attributes, List.lookup]) rfl (Nat.zero_le _)
      (by simp) (by simp)
  | reference name => exact complete_ofName _
  | call isName count below operands ih =>
    exact complete_of_children (by simp [Kind.attributes]) rfl (Nat.zero_le _)
      (fun argument member => (operands argument member).ne_unit) ih
  | bracketed below operand ih =>
    exact complete_of_children (by simp [Kind.attributes]) rfl (Nat.le_refl _)
      (by simpa using operand.ne_unit) (by simpa using ih)
  | unary kind spelled below operand ih =>
    exact complete_of_children (by simp [Kind.attributes]) rfl (Nat.le_refl _)
      (by simpa using operand.ne_unit) (by simpa using ih)
  | binary kind spelled belowLeft belowRight operandLeft operandRight ihLeft ihRight =>
    exact complete_of_children (by simp [Kind.attributes]) rfl (Nat.le_refl _)
      (by simpa using ⟨operandLeft.ne_unit, operandRight.ne_unit⟩)
      (by simpa using ⟨ihLeft, ihRight⟩)
  | creation isName count below operands ih =>
    exact complete_of_children (by simp [Kind.attributes]) rfl (Nat.zero_le _)
      (fun argument member => (operands argument member).ne_unit) ih
  | declaration isType isVariable => exact complete_ofDeclaration _ _
  | assignment isName below operand ih =>
    exact complete_of_children (by simp [Kind.attributes]) rfl (Nat.le_refl _)
      (by simpa [ofName, Node.kind] using operand.ne_unit) (by simpa using ⟨complete_ofName _, ih⟩)
  | definition isType isVariable below initializer ih =>
    refine complete_of_children (by simp [Kind.attributes]) rfl (Nat.le_refl _) ?_
      (by simpa using ⟨complete_ofDeclaration _ _, ih⟩)
    have value : _ ≠ Kind.compilationUnit := initializer.elim IsOperand.ne_unit fun connector => by
      rw [connector]
      exact Kind.noConfusion
    simpa [ofDeclaration, Node.kind] using value
  | returns count below operands ih =>
    exact complete_of_children (by simp [Kind.attributes]) rfl (Nat.zero_le _)
      (fun value member => (operands value member).ne_unit) ih
  | expression below operand ih =>
    exact complete_of_children (by simp [Kind.attributes]) rfl (Nat.le_refl _)
      (by simpa using operand.ne_unit) (by simpa using ih)
  | guarded guard count belowCondition operand below statements ihCondition ih =>
    obtain ⟨noAttributes, noMinimum⟩ := Kind.of_guardWords guard
    refine .mk ⟨?_, fun _ => rfl, ?_, ?_⟩ (fun below member => ?_) ih
    · intro name member
      exact absurd (noAttributes ▸ member : name ∈ []) List.not_mem_nil
    · exact noMinimum ▸ Nat.zero_le _
    · rintro below (member | member)
      · obtain rfl := Option.some.inj member
        exact operand.ne_unit
      · exact (statements below member).ne_unit
    · obtain rfl := Option.some.inj member
      exact ihCondition
  | otherwise below statements ih =>
    exact complete_of_children (by simp [Kind.attributes]) rfl (Nat.zero_le _)
      (fun statement member => (statements statement member).ne_unit) ih
  | chain belowFirst kind below order ihFirst ih =>
    refine complete_of_children (by simp [Kind.attributes]) rfl (by simp [Kind.minChildren])
      (fun clause member => ?_) (by simpa using ⟨ihFirst, ih⟩)
    rcases List.mem_cons.1 member with rfl | member
    · rw [kind]
      exact Kind.noConfusion
    · rcases mem_of_tailInOrder order (List.mem_map_of_mem member) with same | same <;>
        · rw [same]
          exact Kind.noConfusion
  | unit below all ih =>
    exact complete_of_children (by simp [Kind.attributes]) rfl (Nat.zero_le _)
      (fun statement member => (all statement member).ne_unit) ih

end Node

end Verbatim
