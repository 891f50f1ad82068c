import Verbatim.Proofs.Source.Soundness

/-!
# What is grammatical can be read

From the words of a grammatical node the grammar's functions read that node, whatever follows, as
long as it does not go on with the node: no operator that binds tightly enough behind an
expression, no parenthesis behind a name, and no further clause behind a chain. The number of steps
is bounded by the number of words.

## Main definitions

* `Node.ReadsBack`: an expression is read from its words
* `Node.StatementReadsBack`: a statement is, and a clause behind the words in front of it
* `Start.Takes`: what a text can be read as

## Main results

* `Node.Grammatical.readsBack`, `Node.Grammatical.statementReadsBack`: grammatical expressions and
  statements are read from their words
* `parse_complete`: a text whose words are those of a grammatical node is read as that node
-/

namespace Verbatim

/-! ### Words again -/

theorem Token.lexeme_eq_iff {first second : Token} : first.lexeme = second.lexeme ↔
    first.kind = second.kind ∧ first.text = second.text ∧ first.gap = second.gap := by
  rw [lexeme, lexeme, Lexeme.mk.injEq]

theorem Token.lexeme_eq_fixed {token : Token} {kind : TokenKind} {gap : String}
    (h : token.lexeme = kind.lexeme gap) : token.kind = kind ∧ token.gap = gap := by
  rw [lexeme, TokenKind.lexeme, Lexeme.mk.injEq] at h
  exact ⟨h.1, h.2.2⟩

theorem expect_cons {token : Token} {kind : TokenKind} (h : token.kind = kind)
    (rest : List Token) : expect kind (token :: rest) = .ok (token, rest) :=
  expect_eq_ok.2 ⟨rfl, h⟩

/-- No word of the kind stands in front. -/
def NotNext (kind : TokenKind) (tokens : List Token) : Prop :=
  ∀ token ∈ tokens.head?, token.kind ≠ kind

namespace Node

/-- Every operator in front can have the node as its left operand. -/
def LeftOfAll (node : Node) (tokens : List Token) : Prop :=
  ∀ token ∈ tokens.head?, ∀ own, token.kind.strength? = some own → node.IsOperand own

/-- An expression is read from its words. At most as many steps are used up as there are words. -/
structure ReadsBack (node : Node) : Prop where
  unary : node.kind ≠ .binary → ∀ {taken rest : List Token} {steps : Nat},
    taken.map Token.lexeme = node.lexemes → NotNext .leftParen rest →
    4 * taken.length ≤ steps → parseUnary steps (taken ++ rest) = .ok (node, rest)
  expression : ∀ {strength : Nat} {taken rest : List Token} {steps : Nat},
    strength ≤ unaryStrength → node.IsOperand strength → taken.map Token.lexeme = node.lexemes →
    NotNext .leftParen rest → node.LeftOfAll rest → 4 * taken.length + 1 ≤ steps →
    ∃ left, steps ≤ left + taken.length ∧
      parseExpression steps strength (taken ++ rest) = parseOperators left strength node rest

end Node

theorem parseOperators_done {steps strength : Nat} {node : Node} {rest : List Token}
    (ends : OperatorsEnd strength rest) (positive : 0 < steps) :
    parseOperators steps strength node rest = .ok (node, rest) := by
  obtain ⟨steps, rfl⟩ := Nat.exists_eq_add_one_of_ne_zero (Nat.ne_of_gt positive)
  cases rest with
  | nil => rfl
  | cons token rest =>
    rw [parseOperators]
    split
    · rfl
    · next own strong => rw [if_pos (ends token rfl own strong)]

/-- An expression is read up to where it ends. -/
theorem Node.ReadsBack.whole {node : Node} (h : node.ReadsBack) {strength steps : Nat}
    {taken rest : List Token} (bound : strength ≤ unaryStrength) (operand : node.IsOperand strength)
    (words : taken.map Token.lexeme = node.lexemes) (noCall : NotNext .leftParen rest)
    (ends : OperatorsEnd strength rest) (enough : 4 * taken.length + 1 ≤ steps) :
    parseExpression steps strength (taken ++ rest) = .ok (node, rest) := by
  have leftOf : node.LeftOfAll rest := fun token member own strong =>
    operand.mono (Nat.le_of_lt (ends token member own strong))
  obtain ⟨left, few, same⟩ := h.expression bound operand words noCall leftOf enough
  rw [same, parseOperators_done ends (by omega)]

/-- An operand without operators of its own is an expression. -/
theorem Node.ReadsBack.of_unary {node : Node} (words_ne_nil : node.lexemes ≠ [])
    (unary : ∀ {taken rest : List Token} {steps : Nat},
      taken.map Token.lexeme = node.lexemes → NotNext .leftParen rest →
      4 * taken.length ≤ steps → parseUnary steps (taken ++ rest) = .ok (node, rest)) :
    node.ReadsBack where
  unary _ := unary
  expression {strength taken rest steps} bound operand words noCall leftOf enough := by
    obtain ⟨steps, rfl⟩ := Nat.exists_eq_add_one_of_ne_zero (show steps ≠ 0 by omega)
    have long : 0 < taken.length := by
      rw [List.length_pos_iff]
      rintro rfl
      exact words_ne_nil words.symm
    refine ⟨steps, by omega, ?_⟩
    rw [parseExpression, unary words noCall (by omega)]
    rfl

/-! ### How expressions start -/

/-- The kinds of words that an expression can start with. -/
def TokenKind.startsOperand : TokenKind → Bool
  | .bang | .minus | .number | .string | .trueWord | .falseWord | .leftParen | .name => true
  | _ => false

/-- The words start as an expression does: behind a name in front there is neither a name nor an
equals sign. -/
def StartsOperand (words : List Lexeme) : Prop :=
  ∃ word more, words = word :: more ∧ word.kind.startsOperand ∧
    (word.kind = .name → ∀ second ∈ more.head?, second.kind ≠ .name ∧ second.kind ≠ .equals)

theorem StartsOperand.append {words behind : List Lexeme} (h : StartsOperand words)
    (next : ∀ second ∈ behind.head?, second.kind ≠ .name ∧ second.kind ≠ .equals) :
    StartsOperand (words ++ behind) := by
  obtain ⟨word, more, rfl, starts, follows⟩ := h
  refine ⟨word, more ++ behind, rfl, starts, fun name second member => ?_⟩
  cases more with
  | nil => exact next second member
  | cons other more => exact follows name second member

theorem startsOperand_of_ne_name {word : Lexeme} (more : List Lexeme)
    (starts : word.kind.startsOperand) (notName : word.kind ≠ .name) :
    StartsOperand (word :: more) :=
  ⟨word, more, rfl, starts, fun name => absurd name notName⟩

theorem TokenKind.startsOperand_of_isLiteral {kind : TokenKind} (h : kind.isLiteral) :
    kind.startsOperand ∧ kind ≠ .name := by
  cases kind <;> simp_all [isLiteral, startsOperand]

theorem TokenKind.startsOperand_of_isSign {kind : TokenKind} (h : kind.isSign) :
    kind.startsOperand ∧ kind ≠ .name := by
  cases kind <;> simp_all [isSign, startsOperand]

theorem TokenKind.ne_of_strength? {kind : TokenKind} {own : Nat} (h : kind.strength? = some own) :
    kind ≠ .name ∧ kind ≠ .equals ∧ kind ≠ .leftParen := by
  cases kind <;> simp_all [strength?]

theorem Kind.category_of_guardWords {kind : Kind} (guard : kind.guardWords ≠ []) :
    kind.category ≠ .expression := by
  cases kind <;> first | exact Category.noConfusion | exact absurd rfl guard

theorem Node.Grammatical.startsOperand {node : Node} (h : node.Grammatical)
    (operand : node.IsOperand 0) : StartsOperand node.lexemes := by
  induction h with
  | literal kind spelled =>
    obtain ⟨starts, notName⟩ := TokenKind.startsOperand_of_isLiteral kind
    rw [lexemes_ofLiteral kind spelled]
    exact startsOperand_of_ne_name [] starts notName
  | reference name =>
    rw [lexemes_ofName name.kind_eq]
    refine ⟨_, [], rfl, by rw [Token.lexeme, name.kind_eq]; rfl, fun _ second member => ?_⟩
    exact absurd member (Option.not_mem_none second)
  | call isName count below operands ih =>
    rw [lexemes_ofCall isName.kind_eq count]
    refine ⟨_, _, rfl, by rw [Token.lexeme, isName.kind_eq]; rfl, fun _ second member => ?_⟩
    obtain rfl := Option.some.inj member
    exact ⟨TokenKind.noConfusion, TokenKind.noConfusion⟩
  | bracketed below inner ih =>
    rw [lexemes_ofBracketed]
    exact startsOperand_of_ne_name _ rfl TokenKind.noConfusion
  | unary kind spelled below inner ih =>
    obtain ⟨starts, notName⟩ := TokenKind.startsOperand_of_isSign kind
    rw [lexemes_ofUnary _ kind spelled]
    exact startsOperand_of_ne_name _ starts notName
  | binary kind spelled belowLeft belowRight operandLeft operandRight ihLeft ihRight =>
    rw [lexemes_ofBinary _ _ kind spelled]
    refine (ihLeft (operandLeft.mono (Nat.zero_le _))).append fun second member => ?_
    obtain rfl := Option.some.inj member
    obtain ⟨notName, notEquals, -⟩ := TokenKind.ne_of_strength? kind
    exact ⟨notName, notEquals⟩
  | creation => exact absurd rfl operand.2.1
  | guarded guard count belowCondition inner below statements ihCondition ih =>
    exact absurd operand.1 (Kind.category_of_guardWords guard)
  | _ => exact absurd operand.1 Category.noConfusion

/-! ### Lists of expressions -/

/-- What can end a list of expressions. -/
def EndsList (rest : List Token) : Prop :=
  NotNext .leftParen rest ∧ NotNext .comma rest ∧ OperatorsEnd 0 rest

theorem parseMore_stop {steps : Nat} {rest : List Token} (noComma : NotNext .comma rest)
    (positive : 0 < steps) : parseMore steps rest = .ok ([], [], rest) := by
  obtain ⟨steps, rfl⟩ := Nat.exists_eq_add_one_of_ne_zero (Nat.ne_of_gt positive)
  cases rest with
  | nil => rfl
  | cons token rest => rw [parseMore, if_neg (noComma token rfl)]

/-- What follows an expression in a list ends it: a comma, or what ends the list. -/
theorem ends_of_more {nodes : List Node} {commas : List String} {taken rest : List Token}
    (words : taken.map Token.lexeme = Node.moreLexemes nodes commas) (ends : EndsList rest) :
    NotNext .leftParen (taken ++ rest) ∧ OperatorsEnd 0 (taken ++ rest) := by
  cases taken with
  | nil => exact ⟨ends.1, ends.2.2⟩
  | cons token others =>
    have comma : token.kind = .comma := by
      unfold Node.moreLexemes at words
      split at words
      · exact (Token.lexeme_eq_fixed (List.cons.inj words).1).1
      · exact absurd words (List.cons_ne_nil _ _)
    constructor
    · intro other member
      obtain rfl := Option.some.inj member
      rw [comma]
      exact TokenKind.noConfusion
    · intro other member own strong
      obtain rfl := Option.some.inj member
      rw [comma] at strong
      exact absurd strong (by simp [TokenKind.strength?])

theorem parseMore_complete {nodes : List Node} {commas : List String} {taken rest : List Token}
    {steps : Nat} (each : ∀ node ∈ nodes, node.ReadsBack)
    (operands : ∀ node ∈ nodes, node.IsOperand 0) (count : commas.length = nodes.length)
    (words : taken.map Token.lexeme = Node.moreLexemes nodes commas) (ends : EndsList rest)
    (enough : 4 * taken.length + 1 ≤ steps) :
    parseMore steps (taken ++ rest) = .ok (nodes, commas, rest) := by
  induction nodes generalizing commas taken steps with
  | nil =>
    obtain rfl := List.eq_nil_of_length_eq_zero count
    obtain rfl := List.map_eq_nil_iff.1 words
    exact parseMore_stop ends.2.1 (by omega)
  | cons node others ih =>
    obtain ⟨gap, commas, rfl⟩ := List.exists_cons_of_length_eq_add_one count
    obtain ⟨comma, behind, rfl, first, later⟩ := List.map_eq_cons_iff.1 words
    obtain ⟨front, more, rfl, own, later⟩ := List.map_eq_append_iff.1 later
    obtain ⟨isComma, rfl⟩ := Token.lexeme_eq_fixed first
    obtain ⟨steps, rfl⟩ := Nat.exists_eq_add_one_of_ne_zero (show steps ≠ 0 by omega)
    obtain ⟨here, each⟩ := List.forall_mem_cons.1 each
    obtain ⟨operand, operands⟩ := List.forall_mem_cons.1 operands
    obtain ⟨noCall, operatorsEnd⟩ := ends_of_more later ends
    simp only [List.length_cons, List.length_append] at enough
    have read := here.whole (Nat.zero_le _) operand own noCall operatorsEnd
      (show 4 * front.length + 1 ≤ steps by omega)
    have others := ih each operands (by simpa using count) later
      (show 4 * more.length + 1 ≤ steps by omega)
    rw [List.cons_append, parseMore, if_pos isComma, List.append_assoc, read]
    show (parseMore steps (more ++ rest) >>= _) = _
    rw [others]
    rfl

theorem parseArguments_complete {nodes : List Node} {commas : List String}
    {taken rest : List Token} {closing : TokenKind} {steps : Nat}
    (each : ∀ node ∈ nodes, node.ReadsBack) (operands : ∀ node ∈ nodes, node.IsOperand 0)
    (starts : ∀ node ∈ nodes, StartsOperand node.lexemes) (other : closing.startsOperand = false)
    (count : commas.length = nodes.length - 1)
    (words : taken.map Token.lexeme = Node.listLexemes nodes commas) (ends : EndsList rest)
    (closed : ∃ token ∈ rest.head?, token.kind = closing)
    (enough : 4 * taken.length + 2 ≤ steps) :
    parseArguments steps closing (taken ++ rest) = .ok (nodes, commas, rest) := by
  obtain ⟨steps, rfl⟩ := Nat.exists_eq_add_one_of_ne_zero (show steps ≠ 0 by omega)
  cases nodes with
  | nil =>
    obtain rfl := List.eq_nil_of_length_eq_zero count
    obtain rfl := List.map_eq_nil_iff.1 words
    obtain ⟨token, member, same⟩ := closed
    obtain ⟨behind, rfl⟩ := List.head?_eq_some_iff.1 member
    rw [List.nil_append, parseArguments, if_pos same]
  | cons node others =>
    obtain ⟨front, more, rfl, own, later⟩ := List.map_eq_append_iff.1 words
    obtain ⟨here, each⟩ := List.forall_mem_cons.1 each
    obtain ⟨operand, operands⟩ := List.forall_mem_cons.1 operands
    obtain ⟨⟨word, tail, start, starts, _⟩, _⟩ := List.forall_mem_cons.1 starts
    obtain ⟨noCall, operatorsEnd⟩ := ends_of_more later ends
    simp only [List.length_append] at enough
    have read := here.whole (Nat.zero_le _) operand own noCall operatorsEnd
      (show 4 * front.length + 1 ≤ steps by omega)
    have others := parseMore_complete each operands (by simpa using count) later ends
      (show 4 * more.length + 1 ≤ steps by omega)
    obtain ⟨token, front, rfl, rfl, _⟩ := List.map_eq_cons_iff.1 (own.trans start)
    have notClosing : token.kind ≠ closing := by
      rintro same
      rw [Token.lexeme, same, other] at starts
      exact Bool.false_ne_true starts
    rw [List.append_assoc, List.cons_append, parseArguments, if_neg notClosing, ← List.cons_append,
      read]
    show (parseMore steps (more ++ rest) >>= _) = _
    rw [others]
    rfl

/-! ### Expressions -/

theorem Node.ofLiteral_congr {first second : Token} (h : first.lexeme = second.lexeme) :
    ofLiteral first = ofLiteral second := by
  obtain ⟨kind, text, gap⟩ := Token.lexeme_eq_iff.1 h
  rw [ofLiteral, ofLiteral, literalType, literalType, kind, text, gap]

theorem Node.ofName_congr {first second : Token} (h : first.lexeme = second.lexeme) :
    ofName first = ofName second := by
  obtain ⟨-, text, gap⟩ := Token.lexeme_eq_iff.1 h
  rw [ofName, ofName, text, gap]

section Steps

variable {steps : Nat} {token : Token} {rest : List Token}

theorem parseUnary_literal (kind : token.kind.isLiteral) :
    parseUnary (steps + 1) (token :: rest) = .ok (.ofLiteral token, rest) := by
  cases same : token.kind <;> simp_all [TokenKind.isLiteral, parseUnary]

theorem parseUnary_sign (kind : token.kind.isSign) {inner : Node} {later : List Token}
    (read : parseUnary steps rest = .ok (inner, later)) :
    parseUnary (steps + 1) (token :: rest) = .ok (.ofUnary token inner, later) := by
  cases same : token.kind <;> simp_all [TokenKind.isSign, parseUnary, bind, Except.bind, pure, Except.pure]

theorem parseUnary_bracketed (kind : token.kind = .leftParen) {inner : Node} {right : Token}
    {later : List Token} (read : parseExpression steps 0 rest = .ok (inner, right :: later))
    (closing : right.kind = .rightParen) :
    parseUnary (steps + 1) (token :: rest) = .ok (.ofBracketed token inner right, later) := by
  simp only [parseUnary, kind, read]
  show (expect .rightParen (right :: later) >>= _) = _
  rw [expect_cons closing]
  rfl

theorem parseUnary_name (kind : token.kind = .name) (noCall : NotNext .leftParen rest) :
    parseUnary (steps + 1) (token :: rest) = .ok (.ofName token, rest) := by
  cases rest with
  | nil => simp only [parseUnary, kind]
  | cons next later => simp only [parseUnary, kind, if_neg (noCall next rfl)]

theorem parseUnary_call (kind : token.kind = .name) {left right : Token} {arguments : List Node}
    {commas : List String} {later : List Token} (opening : left.kind = .leftParen)
    (read : parseArguments steps .rightParen rest = .ok (arguments, commas, right :: later))
    (closing : right.kind = .rightParen) :
    parseUnary (steps + 1) (token :: left :: rest) =
      .ok (.ofCall token left arguments commas right, later) := by
  simp only [parseUnary, kind, opening, if_true, read]
  show (expect .rightParen (right :: later) >>= _) = _
  rw [expect_cons closing]
  rfl

end Steps

/-- A closing word ends a list of expressions. -/
theorem endsList_cons {token : Token} (rest : List Token) (kind : token.kind = .rightParen ∨
    token.kind = .semicolon) : EndsList (token :: rest) := by
  refine ⟨fun other member => ?_, fun other member => ?_, fun other member own strong => ?_⟩ <;>
    obtain rfl := Option.some.inj member <;> rcases kind with kind | kind <;>
    simp_all [TokenKind.strength?]

theorem lookup_binaryStrengths_lt {operator : String} {own : Nat}
    (found : binaryStrengths.lookup operator = some own) : own < unaryStrength := by
  have all : ∀ entry ∈ binaryStrengths, entry.2 < unaryStrength := by decide
  obtain ⟨front, back, same, -⟩ := List.lookup_eq_some_iff.1 found
  exact all (operator, own) (by rw [same]; simp)

/-- What can stand behind a unary operator is no binary one. -/
theorem Node.IsOperand.ne_binary {node : Node} (h : node.IsOperand unaryStrength) :
    node.kind ≠ .binary := by
  intro binary
  obtain ⟨-, -, own, strength, le⟩ := h
  rw [binary] at strength
  obtain ⟨operator, -, found⟩ := Option.bind_eq_some_iff.1 strength
  have small := lookup_binaryStrengths_lt found
  omega

theorem Node.IsOperand.le_of_ofBinary {needed own : Nat} {left right : Node} {word : Token}
    (h : IsOperand needed (ofBinary left word right)) (kind : word.kind.strength? = some own)
    (spelled : word.Spelled) : needed ≤ own := by
  obtain ⟨-, -, other, strength, le⟩ := h
  have same : some own = some other := (lookup_binaryStrengths kind spelled).symm.trans strength
  obtain rfl := Option.some.inj same
  exact le

/-- **An expression is read from its words.** -/
theorem Node.Grammatical.readsBack {node : Node} (h : node.Grammatical)
    (operand : node.IsOperand 0) : node.ReadsBack := by
  induction h with
  | @literal word kind spelled =>
    have same := lexemes_ofLiteral kind spelled
    refine .of_unary (by simp [same]) fun {taken rest steps} words _ enough => ?_
    obtain ⟨token, rfl, own⟩ := List.map_eq_singleton_iff.1 (words.trans same)
    obtain ⟨steps, rfl⟩ := Nat.exists_eq_add_one_of_ne_zero
      (show steps ≠ 0 by simp only [List.length_singleton] at enough; omega)
    rw [List.singleton_append, parseUnary_literal ((Token.lexeme_eq_iff.1 own).1 ▸ kind),
      ofLiteral_congr own]
  | @reference word name =>
    have same := lexemes_ofName name.kind_eq
    refine .of_unary (by simp [same]) fun {taken rest steps} words noCall enough => ?_
    obtain ⟨token, rfl, own⟩ := List.map_eq_singleton_iff.1 (words.trans same)
    obtain ⟨steps, rfl⟩ := Nat.exists_eq_add_one_of_ne_zero
      (show steps ≠ 0 by simp only [List.length_singleton] at enough; omega)
    rw [List.singleton_append, parseUnary_name ((Token.lexeme_eq_iff.1 own).1.trans name.kind_eq)
      noCall, ofName_congr own]
  | @call name left right arguments commas isName count below operands ih =>
    have same := @lexemes_ofCall name left right arguments commas isName.kind_eq count
    refine .of_unary (by simp [same]) fun {taken rest steps} words noCall enough => ?_
    obtain ⟨token, taken, rfl, own, behind⟩ := List.map_eq_cons_iff.1 (words.trans same)
    obtain ⟨opening, taken, rfl, isOpening, between⟩ := List.map_eq_cons_iff.1 behind
    obtain ⟨inside, final, rfl, listed, last⟩ := List.map_eq_append_iff.1 between
    obtain ⟨closing, rfl, isClosing⟩ := List.map_eq_singleton_iff.1 last
    obtain ⟨openingKind, openingGap⟩ := Token.lexeme_eq_fixed isOpening
    obtain ⟨closingKind, closingGap⟩ := Token.lexeme_eq_fixed isClosing
    obtain ⟨kind, text, gap⟩ := Token.lexeme_eq_iff.1 own
    simp only [List.length_cons, List.length_append, List.length_nil] at enough
    obtain ⟨steps, rfl⟩ := Nat.exists_eq_add_one_of_ne_zero (show steps ≠ 0 by omega)
    have read := parseArguments_complete (fun node member => ih node member (operands node member))
      operands (fun node member => (below node member).startsOperand (operands node member)) rfl
      count listed (endsList_cons rest (.inl closingKind)) ⟨closing, rfl, closingKind⟩
      (show 4 * inside.length + 2 ≤ steps by omega)
    rw [List.cons_append, List.cons_append, List.append_assoc, List.singleton_append,
      parseUnary_call (kind.trans isName.kind_eq) openingKind read closingKind]
    simp only [ofCall, text, gap, openingGap, closingGap]
  | @bracketed left right inner below inside ih =>
    have same := lexemes_ofBracketed left inner right
    refine .of_unary (by simp [same]) fun {taken rest steps} words noCall enough => ?_
    obtain ⟨opening, taken, rfl, isOpening, between⟩ := List.map_eq_cons_iff.1 (words.trans same)
    obtain ⟨front, final, rfl, own, last⟩ := List.map_eq_append_iff.1 between
    obtain ⟨closing, rfl, isClosing⟩ := List.map_eq_singleton_iff.1 last
    obtain ⟨openingKind, openingGap⟩ := Token.lexeme_eq_fixed isOpening
    obtain ⟨closingKind, closingGap⟩ := Token.lexeme_eq_fixed isClosing
    simp only [List.length_cons, List.length_append, List.length_nil] at enough
    obtain ⟨steps, rfl⟩ := Nat.exists_eq_add_one_of_ne_zero (show steps ≠ 0 by omega)
    obtain ⟨noCall, noComma, operatorsEnd⟩ := endsList_cons rest (.inl closingKind)
    have read := (ih inside).whole (Nat.zero_le _) inside own noCall operatorsEnd
      (show 4 * front.length + 1 ≤ steps by omega)
    rw [List.cons_append, List.append_assoc, List.singleton_append,
      parseUnary_bracketed openingKind read closingKind]
    simp only [ofBracketed, openingGap, closingGap]
  | @unary sign inner kind spelled below inside ih =>
    have same := lexemes_ofUnary inner kind spelled
    refine .of_unary (by simp [same]) fun {taken rest steps} words noCall enough => ?_
    obtain ⟨token, front, rfl, own, behind⟩ := List.map_eq_cons_iff.1 (words.trans same)
    obtain ⟨tokenKind, text, gap⟩ := Token.lexeme_eq_iff.1 own
    simp only [List.length_cons] at enough
    obtain ⟨steps, rfl⟩ := Nat.exists_eq_add_one_of_ne_zero (show steps ≠ 0 by omega)
    have read := (ih (inside.mono (Nat.zero_le _))).unary inside.ne_binary behind noCall
      (show 4 * front.length ≤ steps by omega)
    rw [List.cons_append, parseUnary_sign (tokenKind ▸ kind) read]
    simp only [ofUnary, text, gap]
  | @binary left right word own kind spelled belowLeft belowRight operandLeft operandRight ihLeft
      ihRight =>
    have same := lexemes_ofBinary left right kind spelled
    refine ⟨fun notBinary => absurd rfl notBinary, ?_⟩
    intro strength taken rest steps bound operand words noCall leftOf enough
    obtain ⟨front, final, rfl, first, last⟩ := List.map_eq_append_iff.1 (words.trans same)
    obtain ⟨token, back, rfl, isWord, second⟩ := List.map_eq_cons_iff.1 last
    obtain ⟨tokenKind, text, gap⟩ := Token.lexeme_eq_iff.1 isWord
    have strong : token.kind.strength? = some own := tokenKind ▸ kind
    have atMost {needed : Nat} (h : IsOperand needed (ofBinary left word right)) : needed ≤ own :=
      h.le_of_ofBinary kind spelled
    simp only [List.length_append, List.length_cons] at enough ⊢
    have operator : NotNext .leftParen (token :: (back ++ rest)) := by
      rintro other member
      obtain rfl := Option.some.inj member
      exact (TokenKind.ne_of_strength? strong).2.2
    have leftOperand : left.LeftOfAll (token :: (back ++ rest)) := by
      rintro other member needed isStrong
      obtain rfl := Option.some.inj member
      obtain rfl := Option.some.inj (strong.symm.trans isStrong)
      exact operandLeft
    obtain ⟨used, few, split⟩ := (ihLeft (operandLeft.mono (Nat.zero_le _))).expression bound
      (operandLeft.mono (atMost operand)) first operator leftOperand
      (show 4 * front.length + 1 ≤ steps by omega)
    obtain ⟨used, rfl⟩ := Nat.exists_eq_add_one_of_ne_zero (show used ≠ 0 by omega)
    have behind := (ihRight (operandRight.mono (Nat.zero_le _))).whole
      (strength_lt_unaryStrength kind) operandRight second noCall
      (fun other member needed isStrong =>
        Nat.lt_succ_of_le (atMost (leftOf other member needed isStrong)))
      (show 4 * back.length + 1 ≤ used by omega)
    refine ⟨used, by omega, ?_⟩
    rw [List.append_assoc, List.cons_append, split, parseOperators]
    simp only [strong, if_neg (Nat.not_lt.2 (atMost operand)), behind]
    show parseOperators used strength (ofBinary left token right) rest = _
    rw [ofBinary, ofBinary, text, gap]
  | creation => exact absurd rfl operand.2.1
  | guarded guard count belowCondition inner below statements ihCondition ih =>
    exact absurd operand.1 (Kind.category_of_guardWords guard)
  | _ => exact absurd operand.1 Category.noConfusion

/-! ### How statements start -/

/-- The kinds of words that a statement can start with. -/
def TokenKind.startsStatement (kind : TokenKind) : Prop :=
  kind.startsOperand ∨ kind = .ifWord ∨ kind = .whileWord ∨ kind = .returnWord

theorem TokenKind.startsStatement.ne {kind : TokenKind} (h : kind.startsStatement) :
    kind ≠ .elseWord ∧ kind ≠ .rightBrace := by
  constructor <;> rintro rfl <;> simp [startsStatement, startsOperand] at h

/-- The words start as a statement does. -/
def StartsStatement (words : List Lexeme) : Prop :=
  ∃ word more, words = word :: more ∧ word.kind.startsStatement

theorem StartsOperand.statement {words : List Lexeme} (h : StartsOperand words)
    (more : List Lexeme) : StartsStatement (words ++ more) := by
  obtain ⟨word, tail, rfl, starts, -⟩ := h
  exact ⟨word, tail ++ more, rfl, .inl starts⟩

theorem startsStatement_name {word : Lexeme} (more : List Lexeme) (name : word.kind = .name) :
    StartsStatement (word :: more) :=
  ⟨word, more, rfl, .inl (by rw [name]; rfl)⟩

namespace Node

/-- The words of a clause or loop start with what stands in front of its condition. -/
theorem Grammatical.exists_guardWords {node : Node} (h : node.Grammatical)
    (guard : node.kind.guardWords ≠ []) : ∃ gaps more, gaps.length = node.kind.guardWords.length ∧
      node.lexemes = node.kind.guardWords.zipWith TokenKind.lexeme gaps ++ more := by
  cases h with
  | @guarded kind words left right opening closing condition body _ count =>
    exact ⟨words.map Token.gap, _, by rw [List.length_map, count]; rfl,
      lexemes_ofGuarded left right opening closing condition body guard count⟩
  | _ => exact absurd rfl guard

theorem Grammatical.startsStatement {node : Node} (h : node.Grammatical)
    (isStatement : node.IsStatement) : StartsStatement node.lexemes := by
  cases h with
  | assignment isName below operand =>
    rw [lexemes_ofPair rfl, lexemes_ofName isName.kind_eq]
    exact startsStatement_name _ isName.kind_eq
  | definition isType isVariable below initializer =>
    rw [lexemes_ofPair rfl, lexemes_ofDeclaration isType.kind_eq isVariable.kind_eq]
    exact startsStatement_name _ isType.kind_eq
  | returns count below operands =>
    rw [lexemes_ofReturn count]
    exact ⟨_, _, rfl, .inr (.inr (.inr rfl))⟩
  | expression below operand =>
    rw [lexemes_ofExpressionStatement]
    exact (below.startsOperand operand).statement _
  | @guarded kind words left right opening closing condition body guard count =>
    rw [lexemes_ofGuarded left right opening closing condition body guard count]
    cases kind with
    | whileLoop =>
      obtain ⟨word, rfl⟩ := List.length_eq_one_iff.1 count
      exact ⟨_, _, rfl, .inr (.inr (.inl rfl))⟩
    | ifClause => exact absurd isStatement.1 Category.noConfusion
    | elseIfClause => exact absurd isStatement.1 Category.noConfusion
    | _ => exact absurd rfl guard
  | chain belowFirst kind below order =>
    obtain ⟨gaps, more, length, words⟩ := belowFirst.exists_guardWords (by rw [kind]; decide)
    rw [kind] at length words
    obtain ⟨gap, rfl⟩ := List.length_eq_one_iff.1 length
    rw [lexemes_ofClauses, List.flatMap_cons, words]
    exact ⟨_, _, rfl, .inr (.inl rfl)⟩
  | _ => exact absurd isStatement.1 Category.noConfusion

end Node

/-! ### Statements without blocks -/

section Simple

variable {steps : Nat} {token : Token} {taken rest : List Token} {value : Node}

/-- A semicolon ends every expression in front of it. -/
theorem parseExpression_semicolon {semicolon : Token} (rest : List Token) (h : value.Grammatical)
    (operand : value.IsOperand 0) (words : taken.map Token.lexeme = value.lexemes)
    (ending : semicolon.kind = .semicolon) (enough : 4 * taken.length + 1 ≤ steps) :
    parseExpression steps 0 (taken ++ semicolon :: rest) = .ok (value, semicolon :: rest) := by
  obtain ⟨noCall, -, ends⟩ := endsList_cons rest (.inr ending)
  exact (h.readsBack operand).whole (Nat.zero_le _) operand words noCall ends enough

theorem parseSimple_expression (starts : token.kind.startsOperand)
    (second : token.kind = .name → ∀ next ∈ rest.head?, next.kind ≠ .name ∧ next.kind ≠ .equals) :
    parseSimple steps (token :: rest) = parseExpressionStatement steps (token :: rest) := by
  unfold parseSimple
  dsimp only
  split
  · next kind => simp [kind, TokenKind.startsOperand] at starts
  · next next later kind =>
    obtain ⟨notName, notEquals⟩ := second kind next rfl
    split
    · next same => exact absurd same notName
    · next same => exact absurd same notEquals
    · rfl
  · rfl

theorem parseExpressionStatement_complete {semicolon : Token} (rest : List Token)
    (h : value.Grammatical)
    (operand : value.IsOperand 0) (words : taken.map Token.lexeme = value.lexemes)
    (ending : semicolon.kind = .semicolon) (enough : 4 * taken.length + 1 ≤ steps) :
    parseSimple steps (taken ++ semicolon :: rest) =
      .ok (.ofExpressionStatement value semicolon, rest) := by
  obtain ⟨word, more, same, starts, follows⟩ := h.startsOperand operand
  obtain ⟨first, others, rfl, rfl, behind⟩ := List.map_eq_cons_iff.1 (words.trans same)
  have second (name : first.kind = .name) :
      ∀ next ∈ (others ++ semicolon :: rest).head?, next.kind ≠ .name ∧ next.kind ≠ .equals := by
    intro next member
    cases others with
    | nil =>
      obtain rfl := Option.some.inj member
      exact ⟨ending ▸ TokenKind.noConfusion, ending ▸ TokenKind.noConfusion⟩
    | cons other others =>
      obtain rfl := Option.some.inj member
      exact follows name other.lexeme (by rw [← behind]; rfl)
  have read := parseExpression_semicolon rest h operand words ending enough
  rw [List.cons_append] at read ⊢
  rw [parseSimple_expression starts second, parseExpressionStatement, read]
  show (expect .semicolon (semicolon :: rest) >>= _) = _
  rw [expect_cons ending]
  rfl

theorem parseReturn_complete {values : List Node} {commas : List String} {semicolon : Token}
    (below : ∀ value ∈ values, value.Grammatical) (operands : ∀ value ∈ values, value.IsOperand 0)
    (count : commas.length = values.length - 1)
    (words : taken.map Token.lexeme = Node.listLexemes values commas)
    (ending : semicolon.kind = .semicolon) (enough : 4 * taken.length + 2 ≤ steps) :
    parseReturn steps token (taken ++ semicolon :: rest) =
      .ok (.ofReturn token values commas semicolon, rest) := by
  have read := parseArguments_complete
    (fun value member => (below value member).readsBack (operands value member)) operands
    (fun value member => (below value member).startsOperand (operands value member)) rfl count words
    (endsList_cons rest (.inr ending)) ⟨semicolon, rfl, ending⟩ enough
  rw [parseReturn, read]
  show (expect .semicolon (semicolon :: rest) >>= _) = _
  rw [expect_cons ending]
  rfl

theorem parseAssignment_complete {name equals semicolon : Token} (h : value.Grammatical)
    (operand : value.IsOperand 0) (words : taken.map Token.lexeme = value.lexemes)
    (ending : semicolon.kind = .semicolon) (enough : 4 * taken.length + 1 ≤ steps) :
    parseAssignment steps name equals (taken ++ semicolon :: rest) =
      .ok (.ofPair .assignment (.ofName name) equals value semicolon, rest) := by
  rw [parseAssignment, parseExpression_semicolon rest h operand words ending enough]
  show (expect .semicolon (semicolon :: rest) >>= _) = _
  rw [expect_cons ending]
  rfl

theorem parseInitializer_expression (starts : token.kind.startsOperand) :
    parseInitializer steps (token :: rest) = parseExpression steps 0 (token :: rest) := by
  rw [parseInitializer, if_neg]
  rintro kind
  simp [kind, TokenKind.startsOperand] at starts

theorem parseInitializer_complete {semicolon : Token} (h : value.Grammatical)
    (initializer : value.IsOperand 0 ∨ value.kind = .connectorCreation)
    (words : taken.map Token.lexeme = value.lexemes) (ending : semicolon.kind = .semicolon)
    (enough : 4 * taken.length + 1 ≤ steps) :
    parseInitializer steps (taken ++ semicolon :: rest) = .ok (value, semicolon :: rest) := by
  rcases initializer with operand | connector
  · obtain ⟨word, more, same, starts, -⟩ := h.startsOperand operand
    obtain ⟨first, others, rfl, rfl, -⟩ := List.map_eq_cons_iff.1 (words.trans same)
    have read := parseExpression_semicolon rest h operand words ending enough
    rw [List.cons_append] at read ⊢
    rw [parseInitializer_expression starts, read]
  · cases h with
    | @creation create name left right arguments commas isName count below operands =>
      rw [Node.lexemes_ofCreation isName.kind_eq count] at words
      obtain ⟨first, taken, rfl, isCreate, words⟩ := List.map_eq_cons_iff.1 words
      obtain ⟨second, taken, rfl, own, words⟩ := List.map_eq_cons_iff.1 words
      obtain ⟨opening, taken, rfl, isOpening, words⟩ := List.map_eq_cons_iff.1 words
      obtain ⟨inside, final, rfl, listed, words⟩ := List.map_eq_append_iff.1 words
      obtain ⟨closing, rfl, isClosing⟩ := List.map_eq_singleton_iff.1 words
      obtain ⟨createKind, createGap⟩ := Token.lexeme_eq_fixed isCreate
      obtain ⟨nameKind, text, gap⟩ := Token.lexeme_eq_iff.1 own
      obtain ⟨openingKind, openingGap⟩ := Token.lexeme_eq_fixed isOpening
      obtain ⟨closingKind, closingGap⟩ := Token.lexeme_eq_fixed isClosing
      simp only [List.length_cons, List.length_append, List.length_nil] at enough
      have read := parseArguments_complete
        (fun node member => (below node member).readsBack (operands node member)) operands
        (fun node member => (below node member).startsOperand (operands node member)) rfl count
        listed (endsList_cons (semicolon :: rest) (.inl closingKind)) ⟨closing, rfl, closingKind⟩
        (show 4 * inside.length + 2 ≤ steps by omega)
      rw [List.cons_append, List.cons_append, List.cons_append, List.append_assoc,
        List.singleton_append, parseInitializer, if_pos createKind,
        expect_cons (nameKind.trans isName.kind_eq)]
      show (expect .leftParen (opening :: _) >>= _) = _
      rw [expect_cons openingKind]
      show (parseArguments steps .rightParen _ >>= _) = _
      rw [read]
      show (expect .rightParen (closing :: _) >>= _) = _
      rw [expect_cons closingKind]
      show Except.ok (Node.ofCreation first second opening arguments commas closing, _) = _
      rw [Node.ofCreation, Node.ofCreation, text, gap, createGap, openingGap, closingGap]
    | @guarded kind words left right opening closing condition body guard =>
      obtain rfl : kind = .connectorCreation := connector
      exact absurd rfl guard
    | _ => exact absurd connector Kind.noConfusion

theorem parseDefinition_complete {typeName variableName equals semicolon : Token}
    (h : value.Grammatical) (initializer : value.IsOperand 0 ∨ value.kind = .connectorCreation)
    (words : taken.map Token.lexeme = value.lexemes) (isEquals : equals.kind = .equals)
    (ending : semicolon.kind = .semicolon) (enough : 4 * taken.length + 1 ≤ steps) :
    parseDefinition steps typeName variableName (equals :: (taken ++ semicolon :: rest)) =
      .ok (.ofPair .definition (.ofDeclaration typeName variableName) equals value semicolon,
        rest) := by
  rw [parseDefinition, expect_cons isEquals]
  show (parseInitializer steps (taken ++ semicolon :: rest) >>= _) = _
  rw [parseInitializer_complete h initializer words ending enough]
  show (expect .semicolon (semicolon :: rest) >>= _) = _
  rw [expect_cons ending]
  rfl

end Simple

/-! ### Statements with blocks -/

namespace Node

/-- A statement is read from its words, and so is a clause behind the words in front of it. -/
structure StatementReadsBack (node : Node) : Prop where
  statement : node.IsStatement → ∀ {taken rest : List Token} {steps : Nat},
    taken.map Token.lexeme = node.lexemes → NotNext .elseWord rest →
    4 * taken.length + 1 ≤ steps → parseStatement steps (taken ++ rest) = .ok (node, rest)
  guarded : node.kind.guardWords ≠ [] → ∀ (words rest : List Token) {taken : List Token}
    {steps : Nat},
      words.length = node.kind.guardWords.length →
    (words ++ taken).map Token.lexeme = node.lexemes → 4 * taken.length ≤ steps →
    words.map Token.kind = node.kind.guardWords ∧
      parseGuarded steps node.kind words (taken ++ rest) = .ok (node, rest)
  otherwise : node.kind = .elseClause → ∀ (rest : List Token) {word : Token} {taken : List Token}
    {steps : Nat},
    (word :: taken).map Token.lexeme = node.lexemes → 4 * taken.length ≤ steps →
    word.kind = .elseWord ∧ (∃ opening more, taken = opening :: more ∧ opening.kind = .leftBrace) ∧
      ∃ opening body closing, parseBlock steps (taken ++ rest) =
        .ok ((opening, body, closing), rest) ∧
        ofBlock .elseClause [word, opening, closing] none body = node

end Node

section Blocks

variable {steps : Nat} {taken rest : List Token}

/-- What the first word of a text of statements is not. -/
theorem notNext_of_statements {nodes : List Node} (grammatical : ∀ node ∈ nodes, node.Grammatical)
    (statements : ∀ node ∈ nodes, node.IsStatement)
    (words : taken.map Token.lexeme = nodes.flatMap Node.lexemes)
    (ends : NotNext .elseWord rest) : NotNext .elseWord (taken ++ rest) := by
  cases nodes with
  | nil =>
    obtain rfl := List.map_eq_nil_iff.1 words
    exact ends
  | cons node others =>
    obtain ⟨word, more, same, starts⟩ :=
      (grammatical node List.mem_cons_self).startsStatement (statements node List.mem_cons_self)
    rw [List.flatMap_cons, same] at words
    obtain ⟨token, behind, rfl, rfl, -⟩ := List.map_eq_cons_iff.1 words
    intro other member
    obtain rfl := Option.some.inj member
    exact starts.ne.1

/-- What can end a row of statements: the end of the text, or a closing brace. -/
def EndsStatements (rest : List Token) : Prop :=
  ∀ token ∈ rest.head?, token.kind = .rightBrace

theorem EndsStatements.notNext {rest : List Token} (h : EndsStatements rest) :
    NotNext .elseWord rest := by
  intro token member
  rw [h token member]
  exact TokenKind.noConfusion

theorem parseStatements_complete {nodes : List Node}
    (each : ∀ node ∈ nodes, node.StatementReadsBack)
    (grammatical : ∀ node ∈ nodes, node.Grammatical)
    (statements : ∀ node ∈ nodes, node.IsStatement)
    (words : taken.map Token.lexeme = nodes.flatMap Node.lexemes) (ends : EndsStatements rest)
    (enough : 4 * taken.length + 2 ≤ steps) :
    parseStatements steps (taken ++ rest) = .ok (nodes, rest) := by
  induction nodes generalizing taken steps with
  | nil =>
    obtain rfl := List.map_eq_nil_iff.1 words
    obtain ⟨steps, rfl⟩ := Nat.exists_eq_add_one_of_ne_zero (show steps ≠ 0 by omega)
    cases rest with
    | nil => rfl
    | cons token rest => rw [List.nil_append, parseStatements, if_pos (ends token rfl)]
  | cons node others ih =>
    obtain ⟨front, more, rfl, own, later⟩ := List.map_eq_append_iff.1 words
    obtain ⟨steps, rfl⟩ := Nat.exists_eq_add_one_of_ne_zero (show steps ≠ 0 by omega)
    obtain ⟨here, each⟩ := List.forall_mem_cons.1 each
    obtain ⟨derived, grammatical⟩ := List.forall_mem_cons.1 grammatical
    obtain ⟨isStatement, statements⟩ := List.forall_mem_cons.1 statements
    obtain ⟨word, tail, same, starts⟩ := derived.startsStatement isStatement
    simp only [List.length_append] at enough
    have read := here.statement isStatement own
      (notNext_of_statements grammatical statements later ends.notNext)
      (show 4 * front.length + 1 ≤ steps by omega)
    obtain ⟨token, front, rfl, rfl, -⟩ := List.map_eq_cons_iff.1 (own.trans same)
    simp only [List.length_cons] at enough
    have others := ih each grammatical statements later
      (show 4 * more.length + 2 ≤ steps by omega)
    rw [List.cons_append] at read
    have notBrace : token.kind ≠ .rightBrace := starts.ne.2
    rw [List.append_assoc, List.cons_append, parseStatements, if_neg notBrace, read]
    show (parseStatements steps (more ++ rest) >>= _) = _
    rw [others]
    rfl

theorem parseBlock_complete {opening closing : Token} {body : List Node} (rest : List Token)
    (each : ∀ node ∈ body, node.StatementReadsBack)
    (grammatical : ∀ node ∈ body, node.Grammatical)
    (statements : ∀ node ∈ body, node.IsStatement)
    (words : taken.map Token.lexeme = Node.blockLexemes opening body closing)
    (enough : 4 * taken.length ≤ steps) :
    ∃ first last more, parseBlock steps (taken ++ rest) = .ok ((first, body, last), rest) ∧
      taken = first :: more ∧ first.kind = .leftBrace ∧ first.gap = opening.gap ∧
        last.gap = closing.gap := by
  obtain ⟨first, taken, rfl, isOpening, words⟩ := List.map_eq_cons_iff.1 words
  obtain ⟨inside, final, rfl, own, words⟩ := List.map_eq_append_iff.1 words
  obtain ⟨last, rfl, isClosing⟩ := List.map_eq_singleton_iff.1 words
  obtain ⟨openingKind, openingGap⟩ := Token.lexeme_eq_fixed isOpening
  obtain ⟨closingKind, closingGap⟩ := Token.lexeme_eq_fixed isClosing
  simp only [List.length_cons, List.length_append, List.length_nil] at enough
  obtain ⟨steps, rfl⟩ := Nat.exists_eq_add_one_of_ne_zero (show steps ≠ 0 by omega)
  have ends : EndsStatements (last :: rest) := by
    rintro token member
    obtain rfl := Option.some.inj member
    exact closingKind
  have read := parseStatements_complete each grammatical statements own ends
    (show 4 * inside.length + 2 ≤ steps by omega)
  refine ⟨first, last, inside ++ [last], ?_, rfl, openingKind, openingGap, closingGap⟩
  rw [List.cons_append, List.append_assoc, List.singleton_append, parseBlock,
    expect_cons openingKind]
  show (parseStatements steps (inside ++ last :: rest) >>= _) = _
  rw [read]
  show (expect .rightBrace (last :: rest) >>= _) = _
  rw [expect_cons closingKind]
  rfl

/-- A condition is read from its words, behind which a closing parenthesis stands. -/
theorem parseCondition_complete {left right : Token} {condition : Node} (rest : List Token)
    (h : condition.Grammatical) (operand : condition.IsOperand 0)
    (words : taken.map Token.lexeme = condition.lexemes) (opening : left.kind = .leftParen)
    (closing : right.kind = .rightParen) (enough : 4 * taken.length + 1 ≤ steps) :
    parseCondition steps (left :: (taken ++ right :: rest)) =
      .ok ((left, condition, right), rest) := by
  obtain ⟨noCall, -, ends⟩ := endsList_cons rest (.inl closing)
  have read := (h.readsBack operand).whole (Nat.zero_le _) operand words noCall ends enough
  rw [parseCondition, expect_cons opening]
  show (parseExpression steps 0 (taken ++ right :: rest) >>= _) = _
  rw [read]
  show (expect .rightParen (right :: rest) >>= _) = _
  rw [expect_cons closing]
  rfl

end Blocks

/-! ### Clauses and loops -/

/-- Words in front of a condition are known by their number. -/
theorem guardWords_of_lexemes {kinds : List TokenKind} {words taken own : List Token}
    {more : List Lexeme} (length : words.length = kinds.length)
    (count : own.length = kinds.length)
    (same : (words ++ taken).map Token.lexeme =
      kinds.zipWith TokenKind.lexeme (own.map Token.gap) ++ more) :
    words.map Token.kind = kinds ∧ words.map Token.gap = own.map Token.gap ∧
      taken.map Token.lexeme = more := by
  rw [List.map_append] at same
  obtain ⟨front, back⟩ := List.append_inj same (by simp [length, count])
  rw [← List.map_uncurry_zip_eq_zipWith] at front
  have kinds := congrArg (List.map Lexeme.kind) front
  have gaps := congrArg (List.map Lexeme.gap) front
  rw [List.map_map, List.map_map] at kinds gaps
  have even := (@List.length_map _ _ own Token.gap).trans count
  exact ⟨kinds.trans (List.map_fst_zip (Nat.le_of_eq even.symm)),
    gaps.trans (List.map_snd_zip (Nat.le_of_eq even)), back⟩

section Clauses

variable {steps : Nat} {taken rest : List Token}

theorem parseGuarded_complete {kind : Kind} {own : List Token}
    {left right opening closing : Token} {condition : Node} {body : List Node}
    (words rest : List Token) (length : words.length = kind.guardWords.length)
    (guard : kind.guardWords ≠ []) (count : own.length = kind.guardWords.length)
    (belowCondition : condition.Grammatical) (operand : condition.IsOperand 0)
    (each : ∀ statement ∈ body, statement.StatementReadsBack)
    (below : ∀ statement ∈ body, statement.Grammatical)
    (statements : ∀ statement ∈ body, statement.IsStatement)
    (same : (words ++ taken).map Token.lexeme = (Node.ofBlock kind
      (own ++ [left, right, opening, closing]) (some condition) body).lexemes)
    (enough : 4 * taken.length ≤ steps) : words.map Token.kind = kind.guardWords ∧
      parseGuarded steps kind words (taken ++ rest) = .ok (.ofBlock kind
        (own ++ [left, right, opening, closing]) (some condition) body, rest) := by
  rw [Node.lexemes_ofGuarded left right opening closing condition body guard count] at same
  obtain ⟨kinds, gaps, same⟩ := guardWords_of_lexemes length count same
  refine ⟨kinds, ?_⟩
  obtain ⟨first, taken, rfl, isLeft, same⟩ := List.map_eq_cons_iff.1 same
  obtain ⟨inner, behind, rfl, here, same⟩ := List.map_eq_append_iff.1 same
  obtain ⟨second, block, rfl, isRight, same⟩ := List.map_eq_cons_iff.1 same
  obtain ⟨leftKind, leftGap⟩ := Token.lexeme_eq_fixed isLeft
  obtain ⟨rightKind, rightGap⟩ := Token.lexeme_eq_fixed isRight
  simp only [List.length_cons, List.length_append] at enough
  obtain ⟨steps, rfl⟩ := Nat.exists_eq_add_one_of_ne_zero (show steps ≠ 0 by omega)
  have condition := parseCondition_complete (block ++ rest) belowCondition operand here
    leftKind rightKind (show 4 * inner.length + 1 ≤ steps by omega)
  obtain ⟨start, final, more, read, -, -, startGap, finalGap⟩ := parseBlock_complete rest
    each below statements same (show 4 * block.length ≤ steps by omega)
  rw [List.cons_append, List.append_assoc, List.cons_append, parseGuarded, condition]
  show (parseBlock steps (block ++ rest) >>= _) = _
  rw [read]
  show Except.ok (Node.ofBlock kind (words ++ [first, second, start, final]) _ body, rest) = _
  simp only [Node.ofBlock, List.map_append, List.map_cons, List.map_nil, gaps, leftGap, rightGap,
    startGap, finalGap]

theorem parseClauses_stop (ends : NotNext .elseWord rest) (positive : 0 < steps) :
    parseClauses steps rest = .ok ([], rest) := by
  obtain ⟨steps, rfl⟩ := Nat.exists_eq_add_one_of_ne_zero (Nat.ne_of_gt positive)
  cases rest with
  | nil => rfl
  | cons token rest =>
    unfold parseClauses
    dsimp only
    rw [if_neg (ends token rfl)]

theorem parseClauses_elseIf {word next : Token} {clause : Node} {others : List Node}
    {middle : List Token} (isElse : word.kind = .elseWord) (isIf : next.kind = .ifWord)
    (read : parseGuarded steps .elseIfClause [word, next] taken = .ok (clause, middle))
    (more : parseClauses steps middle = .ok (others, rest)) :
    parseClauses (steps + 1) (word :: next :: taken) = .ok (clause :: others, rest) := by
  rw [parseClauses, if_pos isElse, if_pos isIf, read]
  show (parseClauses steps middle >>= _) = _
  rw [more]
  rfl

theorem parseClauses_else {word next opening closing : Token} {body : List Node}
    (isElse : word.kind = .elseWord) (isBrace : next.kind = .leftBrace)
    (read : parseBlock steps (next :: taken) = .ok ((opening, body, closing), rest)) :
    parseClauses (steps + 1) (word :: next :: taken) =
      .ok ([.ofBlock .elseClause [word, opening, closing] none body], rest) := by
  rw [parseClauses, if_pos isElse, if_neg (isBrace ▸ TokenKind.noConfusion), read]
  rfl

/-- A last clause has words. -/
theorem Node.Grammatical.lexemes_ne_nil_of_else {node : Node} (h : node.Grammatical)
    (isElse : node.kind = .elseClause) : node.lexemes ≠ [] := by
  cases h with
  | otherwise =>
    rw [lexemes_ofElse]
    exact List.cons_ne_nil _ _
  | @guarded kind words left right opening closing condition body guard =>
    obtain rfl : kind = .elseClause := isElse
    exact absurd rfl guard
  | _ => exact absurd isElse Kind.noConfusion

/-- The clauses of a chain behind its first one are read from their words. -/
theorem parseClauses_complete {clauses : List Node}
    (each : ∀ clause ∈ clauses, clause.StatementReadsBack)
    (grammatical : ∀ clause ∈ clauses, clause.Grammatical)
    (order : Node.tailInOrder (clauses.map Node.kind))
    (words : taken.map Token.lexeme = clauses.flatMap Node.lexemes) (ends : NotNext .elseWord rest)
    (enough : 4 * taken.length + 1 ≤ steps) :
    parseClauses steps (taken ++ rest) = .ok (clauses, rest) := by
  induction clauses generalizing taken steps with
  | nil =>
    obtain rfl := List.map_eq_nil_iff.1 words
    exact parseClauses_stop ends (by omega)
  | cons clause others ih =>
    obtain ⟨front, more, rfl, own, later⟩ := List.map_eq_append_iff.1 words
    obtain ⟨steps, rfl⟩ := Nat.exists_eq_add_one_of_ne_zero (show steps ≠ 0 by omega)
    obtain ⟨here, each⟩ := List.forall_mem_cons.1 each
    obtain ⟨derived, grammatical⟩ := List.forall_mem_cons.1 grammatical
    simp only [List.length_append] at enough
    rw [List.map_cons] at order
    rcases Node.mem_of_tailInOrder order List.mem_cons_self with isElseIf | isElse
    · rw [isElseIf] at order
      have guard : clause.kind.guardWords = [.elseWord, .ifWord] := by rw [isElseIf]; rfl
      obtain ⟨gaps, tail, length, same⟩ := derived.exists_guardWords (by simp [guard])
      rw [guard] at length same
      obtain ⟨elseGap, gaps, rfl⟩ := List.exists_cons_of_length_eq_add_one length
      obtain ⟨ifGap, rfl⟩ := List.length_eq_one_iff.1 (Nat.succ.inj length)
      obtain ⟨word, front, rfl, -, behind⟩ := List.map_eq_cons_iff.1 (own.trans same)
      obtain ⟨next, front, rfl, -, -⟩ := List.map_eq_cons_iff.1 behind
      simp only [List.length_cons] at enough
      obtain ⟨kinds, read⟩ := here.guarded (by simp [guard]) [word, next]
        (more ++ rest) (by simp [guard]) own (show 4 * front.length ≤ steps by omega)
      rw [guard] at kinds
      rw [isElseIf] at read
      obtain ⟨isElse, isIf⟩ : word.kind = .elseWord ∧ next.kind = .ifWord := by simpa using kinds
      have others := ih each grammatical order later (show 4 * more.length + 1 ≤ steps by omega)
      rw [List.append_assoc]
      exact parseClauses_elseIf isElse isIf read others
    · obtain rfl : others = [] := by
        rw [isElse] at order
        cases others with
        | nil => rfl
        | cons => exact order.elim
      obtain rfl := List.map_eq_nil_iff.1 later
      obtain ⟨word, front, rfl⟩ : ∃ word tail, front = word :: tail := by
        cases front with
        | nil => exact absurd own.symm (derived.lexemes_ne_nil_of_else isElse)
        | cons word tail => exact ⟨word, tail, rfl⟩
      simp only [List.length_cons] at enough
      obtain ⟨wordKind, ⟨next, tail, rfl, isBrace⟩, opening, body, closing, read, same⟩ :=
        here.otherwise isElse rest own (show 4 * front.length ≤ steps by omega)
      rw [List.append_nil, ← same]
      exact parseClauses_else wordKind isBrace read

theorem parseStatement_simple {token : Token} (notIf : token.kind ≠ .ifWord)
    (notWhile : token.kind ≠ .whileWord) :
    parseStatement (steps + 1) (token :: rest) = parseSimple steps (token :: rest) := by
  rw [parseStatement]
  split
  · next same => exact absurd same notIf
  · next same => exact absurd same notWhile
  · rfl

theorem parseStatement_while {token : Token} (isWhile : token.kind = .whileWord) :
    parseStatement (steps + 1) (token :: rest) = parseGuarded steps .whileLoop [token] rest := by
  simp only [parseStatement, isWhile]

theorem parseStatement_if {token : Token} {first : Node} {others : List Node} {middle : List Token}
    (isIf : token.kind = .ifWord)
    (read : parseGuarded steps .ifClause [token] taken = .ok (first, middle))
    (more : parseClauses steps middle = .ok (others, rest)) :
    parseStatement (steps + 1) (token :: taken) = .ok (.ofClauses (first :: others), rest) := by
  simp only [parseStatement, isIf, read]
  show (parseClauses steps middle >>= _) = _
  rw [more]
  rfl

/-- A node that is neither a clause nor a loop. -/
theorem Node.StatementReadsBack.of_simple {node : Node}
    (guard : node.kind.guardWords = []) (notElse : node.kind ≠ .elseClause)
    (simple : node.IsStatement → ∀ {taken rest : List Token} {steps : Nat},
      taken.map Token.lexeme = node.lexemes → NotNext .elseWord rest →
      4 * taken.length ≤ steps → parseStatement (steps + 1) (taken ++ rest) = .ok (node, rest)) :
    node.StatementReadsBack where
  statement isStatement {taken rest steps} words ends enough := by
    obtain ⟨steps, rfl⟩ := Nat.exists_eq_add_one_of_ne_zero (show steps ≠ 0 by omega)
    exact simple isStatement words ends (by omega)
  guarded isGuard := absurd guard isGuard
  otherwise isElse := absurd isElse notElse

/-- **A statement is read from its words.** -/
theorem Node.Grammatical.statementReadsBack {node : Node} (h : node.Grammatical) :
    node.StatementReadsBack := by
  induction h with
  | @assignment name equals semicolon value isName below operand ih =>
    have same : (ofPair .assignment (ofName name) equals value semicolon).lexemes =
        name.lexeme :: TokenKind.lexeme .equals equals.gap ::
          (value.lexemes ++ [TokenKind.lexeme .semicolon semicolon.gap]) := by
      rw [lexemes_ofPair rfl, lexemes_ofName isName.kind_eq]
      rfl
    refine .of_simple rfl Kind.noConfusion ?_
    intro _ taken rest steps words _ enough
    obtain ⟨token, taken, rfl, own, words⟩ := List.map_eq_cons_iff.1 (words.trans same)
    obtain ⟨second, taken, rfl, isEquals, words⟩ := List.map_eq_cons_iff.1 words
    obtain ⟨inside, final, rfl, listed, words⟩ := List.map_eq_append_iff.1 words
    obtain ⟨last, rfl, isLast⟩ := List.map_eq_singleton_iff.1 words
    obtain ⟨kind, text, gap⟩ := Token.lexeme_eq_iff.1 own
    obtain ⟨equalsKind, equalsGap⟩ := Token.lexeme_eq_fixed isEquals
    obtain ⟨lastKind, lastGap⟩ := Token.lexeme_eq_fixed isLast
    rw [isName.kind_eq] at kind
    simp only [List.length_cons, List.length_append, List.length_nil] at enough
    rw [List.cons_append, List.cons_append, List.append_assoc, List.singleton_append,
      parseStatement_simple (kind ▸ TokenKind.noConfusion) (kind ▸ TokenKind.noConfusion)]
    simp only [parseSimple, kind, equalsKind]
    rw [parseAssignment_complete below operand listed lastKind (by omega), ofPair, ofPair, ofName,
      ofName, text, gap, equalsGap, lastGap]
  | @definition typeName variableName equals semicolon value isType isVariable below initializer =>
    have same : (ofPair .definition (ofDeclaration typeName variableName) equals value
        semicolon).lexemes = typeName.lexeme :: variableName.lexeme ::
          TokenKind.lexeme .equals equals.gap ::
            (value.lexemes ++ [TokenKind.lexeme .semicolon semicolon.gap]) := by
      rw [lexemes_ofPair rfl, lexemes_ofDeclaration isType.kind_eq isVariable.kind_eq]
      rfl
    refine .of_simple rfl Kind.noConfusion ?_
    intro _ taken rest steps words _ enough
    obtain ⟨token, taken, rfl, own, words⟩ := List.map_eq_cons_iff.1 (words.trans same)
    obtain ⟨second, taken, rfl, named, words⟩ := List.map_eq_cons_iff.1 words
    obtain ⟨third, taken, rfl, isEquals, words⟩ := List.map_eq_cons_iff.1 words
    obtain ⟨inside, final, rfl, listed, words⟩ := List.map_eq_append_iff.1 words
    obtain ⟨last, rfl, isLast⟩ := List.map_eq_singleton_iff.1 words
    obtain ⟨kind, text, gap⟩ := Token.lexeme_eq_iff.1 own
    obtain ⟨secondKind, secondText, secondGap⟩ := Token.lexeme_eq_iff.1 named
    obtain ⟨equalsKind, equalsGap⟩ := Token.lexeme_eq_fixed isEquals
    obtain ⟨lastKind, lastGap⟩ := Token.lexeme_eq_fixed isLast
    rw [isType.kind_eq] at kind
    rw [isVariable.kind_eq] at secondKind
    simp only [List.length_cons, List.length_append, List.length_nil] at enough
    rw [List.cons_append, List.cons_append, List.cons_append, List.append_assoc,
      List.singleton_append,
      parseStatement_simple (kind ▸ TokenKind.noConfusion) (kind ▸ TokenKind.noConfusion)]
    simp only [parseSimple, kind, secondKind]
    rw [parseDefinition_complete below initializer listed equalsKind lastKind (by omega), ofPair,
      ofPair, ofDeclaration, ofDeclaration, text, gap, secondText, secondGap, equalsGap, lastGap]
  | @returns word semicolon values commas count below operands =>
    have same := @lexemes_ofReturn word semicolon values commas count
    refine .of_simple rfl Kind.noConfusion ?_
    intro _ taken rest steps words _ enough
    obtain ⟨token, taken, rfl, own, words⟩ := List.map_eq_cons_iff.1 (words.trans same)
    obtain ⟨inside, final, rfl, listed, words⟩ := List.map_eq_append_iff.1 words
    obtain ⟨last, rfl, isLast⟩ := List.map_eq_singleton_iff.1 words
    obtain ⟨kind, gap⟩ := Token.lexeme_eq_fixed own
    obtain ⟨lastKind, lastGap⟩ := Token.lexeme_eq_fixed isLast
    simp only [List.length_cons, List.length_append, List.length_nil] at enough
    rw [List.cons_append, List.append_assoc, List.singleton_append,
      parseStatement_simple (kind ▸ TokenKind.noConfusion) (kind ▸ TokenKind.noConfusion)]
    simp only [parseSimple, kind]
    rw [parseReturn_complete below operands count listed lastKind (by omega), ofReturn, ofReturn,
      gap, lastGap]
  | @expression inner semicolon below operand =>
    have same := lexemes_ofExpressionStatement inner semicolon
    refine .of_simple rfl Kind.noConfusion ?_
    intro _ taken rest steps words _ enough
    obtain ⟨inside, final, rfl, listed, words⟩ := List.map_eq_append_iff.1 (words.trans same)
    obtain ⟨last, rfl, isLast⟩ := List.map_eq_singleton_iff.1 words
    obtain ⟨lastKind, lastGap⟩ := Token.lexeme_eq_fixed isLast
    obtain ⟨word, more, start, starts, -⟩ := below.startsOperand operand
    simp only [List.length_append, List.length_singleton] at enough
    have read := parseExpressionStatement_complete rest below operand listed lastKind
      (show 4 * inside.length + 1 ≤ steps by omega)
    obtain ⟨first, others, rfl, rfl, -⟩ := List.map_eq_cons_iff.1 (listed.trans start)
    have other : first.kind ≠ .ifWord ∧ first.kind ≠ .whileWord := by
      constructor <;> intro kind <;> simp [Token.lexeme, kind, TokenKind.startsOperand] at starts
    rw [List.append_assoc, List.singleton_append, List.cons_append,
      parseStatement_simple other.1 other.2, ← List.cons_append, read, ofExpressionStatement,
      ofExpressionStatement, lastGap]
  | @guarded kind own left right opening closing condition body guard count belowCondition operand
      below statements ihCondition ih =>
    refine ⟨fun isStatement {taken rest steps} words ends enough => ?_,
      fun _ words rest {taken steps} length same enough => parseGuarded_complete words rest length guard count
        belowCondition operand ih below statements same enough, fun isElse => ?_⟩
    · cases kind with
      | whileLoop =>
        obtain ⟨ownWord, rfl⟩ := List.length_eq_one_iff.1 count
        obtain ⟨token, taken, rfl, -, -⟩ := List.map_eq_cons_iff.1 (words.trans
          (lexemes_ofGuarded left right opening closing condition body guard count))
        simp only [List.length_cons] at enough
        obtain ⟨steps, rfl⟩ := Nat.exists_eq_add_one_of_ne_zero (show steps ≠ 0 by omega)
        obtain ⟨kinds, read⟩ := parseGuarded_complete [token] rest rfl guard count
          belowCondition operand ih below statements words
          (show 4 * taken.length ≤ steps by omega)
        rw [List.cons_append, parseStatement_while (List.singleton_inj.1 kinds), read]
      | ifClause => exact absurd isStatement.1 Category.noConfusion
      | elseIfClause => exact absurd isStatement.1 Category.noConfusion
      | _ => exact absurd rfl guard
    · obtain rfl : kind = .elseClause := isElse
      exact absurd rfl guard
  | @otherwise word opening closing body below statements ih =>
    refine ⟨fun isStatement => absurd isStatement.1 Category.noConfusion, fun guard => absurd rfl guard, ?_⟩
    intro _ rest token taken steps words enough
    rw [lexemes_ofElse] at words
    obtain ⟨isElse, words⟩ := List.cons.inj words
    obtain ⟨kind, gap⟩ := Token.lexeme_eq_fixed isElse
    obtain ⟨first, last, more, read, rfl, isBrace, firstGap, lastGap⟩ :=
      parseBlock_complete rest ih below statements words enough
    refine ⟨kind, ⟨first, more, rfl, isBrace⟩, first, body, last, read, ?_⟩
    simp only [ofBlock, List.map_cons, List.map_nil, gap, firstGap, lastGap]
  | @chain first others belowFirst kind below order ihFirst ih =>
    have same := lexemes_ofClauses (first :: others)
    refine .of_simple rfl Kind.noConfusion ?_
    intro _ taken rest steps words ends enough
    obtain ⟨front, more, rfl, own, later⟩ := List.map_eq_append_iff.1 (words.trans same)
    have guard : first.kind.guardWords = [.ifWord] := by rw [kind]; rfl
    obtain ⟨gaps, tail, length, start⟩ := belowFirst.exists_guardWords (by simp [guard])
    rw [guard] at length start
    obtain ⟨gap, rfl⟩ := List.length_eq_one_iff.1 length
    obtain ⟨token, front, rfl, -, -⟩ := List.map_eq_cons_iff.1 (own.trans start)
    simp only [List.length_append, List.length_cons] at enough
    obtain ⟨kinds, read⟩ := ihFirst.guarded (by simp [guard]) [token] (more ++ rest)
      (by simp [guard]) own (show 4 * front.length ≤ steps by omega)
    rw [guard] at kinds
    rw [kind] at read
    rw [List.append_assoc, List.cons_append]
    exact parseStatement_if (List.singleton_inj.1 kinds) read
      (parseClauses_complete ih below order later ends (by omega))
  | _ =>
    exact .of_simple rfl Kind.noConfusion fun isStatement =>
      absurd isStatement.1 Category.noConfusion

end Clauses

/-! ### Whole texts -/

/-- Whether the node is one that texts are read as. -/
def Start.Takes (start : Start) (node : Node) : Prop :=
  match start with
  | .unit => node.kind = .compilationUnit
  | .statement => node.IsStatement
  | .expression => node.IsOperand 0

theorem Start.parseTokens_complete {start : Start} {lexed : Lexed} {node : Node}
    (h : node.Grammatical) (takes : start.Takes node)
    (words : lexed.tokens.map Token.lexeme = node.lexemes)
    (leading : start = .unit → node.leading = lexed.leading) :
    start.parseTokens lexed = .ok (node, []) := by
  have few : 4 * lexed.tokens.length + 2 ≤ stepsFor lexed.tokens := by
    rw [stepsFor]
    omega
  have nothing (token : Token) (member : token ∈ ([] : List Token).head?) {p : Prop} : p :=
    absurd member (Option.not_mem_none token)
  cases start with
  | unit =>
    cases h with
    | @unit own statements below all =>
      rw [Node.lexemes_unit] at words
      have read := parseStatements_complete
        (fun node member => (below node member).statementReadsBack) below all words
        (fun token member => nothing token member) few
      rw [List.append_nil] at read
      have same : own = lexed.leading := leading rfl
      rw [parseTokens, read, same]
      rfl
    | @guarded kind words left right opening closing condition body guard =>
      obtain rfl : kind = .compilationUnit := takes
      exact absurd rfl guard
    | _ => exact absurd takes Kind.noConfusion
  | statement =>
    have read := h.statementReadsBack.statement takes words
      (fun token member => nothing token member) (Nat.le_of_succ_le few)
    rwa [List.append_nil] at read
  | expression =>
    have read := (h.readsBack takes).whole (Nat.zero_le _) takes words
      (fun token member => nothing token member) (fun token member => nothing token member)
      (Nat.le_of_succ_le few)
    rwa [List.append_nil] at read

/-- **What is grammatical can be read**: a text whose words are those of a grammatical node is read
as that node. -/
theorem parse_complete {start : Start} {text : String} {node : Node} (h : node.Grammatical)
    (takes : start.Takes node)
    (words : (lex start.expectation text).tokens.map Token.lexeme = node.lexemes)
    (leading : start = .unit → node.leading = (lex start.expectation text).leading)
    (finished : (lex start.expectation text).stuck = none) : parse start text = .ok node := by
  simp only [parse, Start.parseTokens_complete h takes words leading, finished]
  rfl

end Verbatim
