import Verbatim.Proofs.Source.Completeness
import Verbatim.Proofs.Source.Relexing

/-!
# What is printed reads back

A node is printed with the default text in every gap. Its words then stand on their own: wherever
two of them could run together, there is a space or a line end between them, and every keyword and
name stands where it is meant. So the text of a grammatical node is read as that node.

## Main definitions

* `Node.Spaced`: all gaps have their default texts, and all names are proper ones
* `Seam.WantsOperand`, `Seam.WantsOperator`, `Seam.WantsStatement`: what can stand at a seam

## Main results

* `Node.Grammatical.flowsAsOperand`, `Node.Grammatical.flowsAsStatement`: the words of printed
  expressions and statements can be read where these can start
* `parse_of_render`: the text of a printed node is read as that node
-/

namespace Verbatim

/-! ### Words at a seam -/

theorem TokenKind.ofKeyword?_of_isName {text : String} (h : isName text) :
    TokenKind.ofKeyword? text.toList = none := by
  have other : reservedWords.contains text = false := by
    unfold isName at h
    split at h
    · exact absurd h Bool.false_ne_true
    · simp only [Bool.and_eq_true, Bool.not_eq_true'] at h
      exact h.2
  unfold ofKeyword?
  rw [String.ofList_toList]
  split <;> first | rfl | exact absurd other (by decide)

namespace Seam

/-- An expression can start, or a place behind a sign that wants one. -/
structure WantsOperand (seam : Seam) : Prop where
  starts : seam.expectation = .statement ∨ seam.expectation = .blockEnd ∨
    seam.expectation = .operand ∨ seam.expectation = .initializer
  apart : seam.edge ≠ .letters

/-- An expression has ended. -/
structure WantsOperator (seam : Seam) : Prop where
  ended : seam.expectation = .plain ∨ seam.expectation = .statementName
  apart : seam.edge ≠ .sign

/-- A statement can start. -/
structure WantsStatement (seam : Seam) : Prop where
  ended : seam.expectation = .statement ∨ seam.expectation = .blockEnd
  apart : seam.edge = .free

theorem WantsStatement.operand {seam : Seam} (h : seam.WantsStatement) : seam.WantsOperand := by
  refine ⟨h.ended.elim .inl fun ended => .inr (.inl ended), ?_⟩
  rw [h.apart]
  exact Edge.noConfusion

end Seam

theorem Seam.WantsStatement.after_name {seam : Seam} (wants : seam.WantsStatement) {word : Lexeme}
    (name : word.kind = .name) : (seam.after word).expectation = .statementName := by
  show seam.expectation.after word.kind = .statementName
  rw [name]
  rcases wants.ended with h | h <;> rw [h] <;> rfl

/-- The signs that can stand at every seam. -/
def TokenKind.isFree : TokenKind → Bool
  | .orOp | .andOp | .relationOp | .plus | .minus | .productOp | .bang | .leftParen | .rightParen
  | .leftBrace | .rightBrace | .semicolon | .comma | .string => true
  | _ => false

theorem Seam.takes_free {seam : Seam} {word : Lexeme} (free : word.kind.isFree) (tidy : word.Tidy) :
    seam.Takes word := by
  refine ⟨tidy, ?_, ?_⟩
  · cases kind : word.kind <;> simp_all [TokenKind.isFree, Expectation.Means]
  · cases kind : word.kind <;> simp_all [TokenKind.isFree, Edge.admits, TokenKind.isWordy] <;>
      cases seam.edge <;> rfl

/-- A word with a fixed text and the given blank text is tidy. -/
theorem tidy_fixed {kind : TokenKind} {gap : String} (only : kind.spellings.length = 1)
    (few : gap = "" ∨ gap = " " ∨ gap = "\n") : (kind.lexeme gap).Tidy := by
  refine ⟨?_, few, ?_⟩
  · cases kind <;> simp [TokenKind.spellings] at only <;>
      simp [TokenKind.lexeme, TokenKind.Spells, TokenKind.spellings]
  · rintro (rfl : kind = _)
    simp [TokenKind.spellings] at only

/-- Punctuation can be read everywhere. -/
theorem flows_free {seam final : Seam} {kind : TokenKind} {gap : String} {rest : List Lexeme}
    (free : kind.isFree) (only : kind.spellings.length = 1)
    (few : gap = "" ∨ gap = " " ∨ gap = "\n")
    (later : Flows (seam.after (kind.lexeme gap)) rest final) :
    Flows seam (kind.lexeme gap :: rest) final :=
  .cons (Seam.takes_free free (tidy_fixed only few)) later

theorem Token.Is.tidy {word : Token} (name : word.Is .name)
    (few : word.gap = "" ∨ word.gap = " " ∨ word.gap = "\n") : word.lexeme.Tidy := by
  refine ⟨name.spelled, few, fun product => ?_⟩
  exact TokenKind.noConfusion (product.symm.trans name.kind_eq)

/-- A name can be read where no letter stands directly in front, except behind `else`. -/
theorem Seam.takes_name {seam : Seam} {word : Token} (name : word.Is .name)
    (proper : isName word.text) (few : word.gap = "" ∨ word.gap = " " ∨ word.gap = "\n")
    (whole : seam.expectation.cutsIf = false) (apart : seam.edge ≠ .letters) :
    seam.Takes word.lexeme := by
  refine ⟨name.tidy few, ?_, ?_⟩
  · rw [Token.lexeme, name.kind_eq]
    exact ⟨TokenKind.ofKeyword?_of_isName proper, whole⟩
  · rw [Token.lexeme, name.kind_eq]
    cases edge : seam.edge with
    | letters => exact absurd edge apart
    | _ => rfl

/-- A keyword can be read where it is meant and no letter stands directly in front. -/
theorem Seam.takes_keyword {seam : Seam} {kind : TokenKind} {gap : String}
    (keyword : kind.isKeyword) (only : kind.spellings.length = 1)
    (meant : seam.expectation.Means kind (kind.spellings.headD "")) (apart : seam.edge ≠ .letters)
    (few : gap = "" ∨ gap = " " ∨ gap = "\n") : seam.Takes (kind.lexeme gap) := by
  refine ⟨tidy_fixed only few, meant, ?_⟩
  show seam.edge.admits kind
  cases edge : seam.edge with
  | letters => exact absurd edge apart
  | free => rfl
  | sign => cases kind <;> first | rfl | exact absurd keyword Bool.false_ne_true

/-- An equals sign can be read where none stands directly in front. -/
theorem Seam.takes_equals {seam : Seam} {gap : String} (apart : seam.edge ≠ .sign)
    (few : gap = "" ∨ gap = " " ∨ gap = "\n") : seam.Takes (TokenKind.lexeme .equals gap) := by
  refine ⟨tidy_fixed rfl few, trivial, ?_⟩
  show seam.edge.admits .equals
  cases edge : seam.edge with
  | sign => exact absurd edge apart
  | _ => rfl

/-- The keywords with which statements start. -/
def TokenKind.isLeader : TokenKind → Bool
  | .ifWord | .whileWord | .returnWord => true
  | _ => false

/-- A keyword with which statements start can be read where one can. -/
theorem Seam.WantsStatement.takes_leader {seam : Seam} (wants : seam.WantsStatement)
    {kind : TokenKind} (leader : kind.isLeader) : seam.Takes (kind.lexeme " ") := by
  refine takes_keyword ?_ ?_ ?_ wants.operand.apart (.inr (.inl rfl))
  · cases kind <;> first | rfl | exact absurd leader Bool.false_ne_true
  · cases kind <;> first | rfl | exact absurd leader Bool.false_ne_true
  · cases kind <;> simp only [TokenKind.isLeader, Bool.false_eq_true] at leader <;>
      rcases wants.ended with h | h <;> rw [h] <;> exact ⟨rfl, Bool.noConfusion⟩

/-- Behind an equals sign an expression can start. -/
theorem Seam.wantsOperand_equals (seam : Seam) :
    (seam.after (TokenKind.lexeme .equals " ")).WantsOperand := by
  refine ⟨?_, Edge.noConfusion⟩
  by_cases defined : seam.expectation = .definedName
  · exact .inr (.inr (.inr (if_pos defined)))
  · exact .inr (.inr (.inl (if_neg defined)))

/-- A literal can be read where an expression can start. -/
theorem Seam.takes_literal {seam : Seam} (wants : seam.WantsOperand) {word : Token}
    (kind : word.kind.isLiteral) (spelled : word.Spelled) (gap : word.gap = "") :
    seam.Takes word.lexeme := by
  obtain ⟨starts, apart⟩ := wants
  refine ⟨⟨spelled, .inl gap, ?_⟩, ?_, ?_⟩
  · intro product
    rw [show word.kind = .productOp from product] at kind
    exact absurd kind Bool.false_ne_true
  · have same := spelled
    show seam.expectation.Means word.kind word.text
    cases literal : word.kind <;> simp [literal, TokenKind.isLiteral] at kind
    · simp only [Token.Spelled, literal, TokenKind.Spells, TokenKind.spellings, List.mem_singleton,
        String.ofList_toList] at same
      rw [same]
      rcases starts with h | h | h | h <;> rw [h] <;> exact ⟨by decide, by decide⟩
    · simp only [Token.Spelled, literal, TokenKind.Spells, TokenKind.spellings, List.mem_singleton,
        String.ofList_toList] at same
      rw [same]
      rcases starts with h | h | h | h <;> rw [h] <;> exact ⟨by decide, by decide⟩
    · trivial
    · trivial
  · show seam.edge.admits word.kind
    cases literal : word.kind <;> simp [literal, TokenKind.isLiteral] at kind <;>
      cases edge : seam.edge <;> first | rfl | exact absurd edge apart

theorem Lexeme.edge_ne_sign {word : Lexeme} (h : word.kind.takesEquals = false) :
    word.edge ≠ .sign := by
  unfold Lexeme.edge
  split
  · split
    · exact Edge.noConfusion
    · rw [h]
      exact Edge.noConfusion
  · exact Edge.noConfusion

theorem Lexeme.edge_ne_letters {word : Lexeme} (h : word.kind.isWordy = false) :
    word.edge ≠ .letters := by
  unfold Lexeme.edge
  rw [h]
  split
  · split
    · next wordy => exact absurd wordy Bool.false_ne_true
    · split <;> exact Edge.noConfusion
  · exact Edge.noConfusion

theorem Lexeme.edge_of_space {word : Lexeme} (gap : word.gap = " ") : word.edge = .free := by
  rw [Lexeme.edge, gap]
  rfl

/-- A literal ends an expression. -/
theorem Seam.wantsOperator_literal (seam : Seam) {word : Token} (kind : word.kind.isLiteral) :
    (seam.after word.lexeme).WantsOperator := by
  refine ⟨.inl ?_, Lexeme.edge_ne_sign ?_⟩
  · show seam.expectation.after word.kind = .plain
    cases literal : word.kind <;> simp [literal, TokenKind.isLiteral] at kind <;> rfl
  · show word.kind.takesEquals = false
    cases literal : word.kind <;> simp [literal, TokenKind.isLiteral] at kind <;> rfl

/-- A name ends an expression, where one can start. -/
theorem Seam.WantsOperand.wantsOperator_name {seam : Seam} (wants : seam.WantsOperand)
    {word : Token} (name : word.kind = .name) : (seam.after word.lexeme).WantsOperator := by
  refine ⟨?_, Lexeme.edge_ne_sign ?_⟩
  · show seam.expectation.after word.kind = .plain ∨
      seam.expectation.after word.kind = .statementName
    rw [name]
    rcases wants.starts with h | h | h | h <;> rw [h]
    · exact .inr rfl
    · exact .inr rfl
    · exact .inl rfl
    · exact .inl rfl
  · show word.kind.takesEquals = false
    rw [name]
    rfl

theorem Seam.WantsOperand.cutsIf {seam : Seam} (wants : seam.WantsOperand) :
    seam.expectation.cutsIf = false := by
  rcases wants.starts with h | h | h | h <;> rw [h] <;> rfl

/-- A binary operator can be read behind an expression. -/
theorem Seam.WantsOperator.takes {seam : Seam} (wants : seam.WantsOperator) {word : Token}
    {own : Nat} (kind : word.kind.strength? = some own) (spelled : word.Spelled)
    (gap : word.gap = " ") : seam.Takes word.lexeme := by
  have apart : word.gap ≠ "" := by
    rw [gap]
    decide
  have tidy : word.lexeme.Tidy := ⟨spelled, .inr (.inl gap), fun _ => apart⟩
  by_cases equality : word.kind = .equalityOp
  · refine ⟨tidy, ?_, ?_⟩
    · show seam.expectation.Means word.kind word.text
      rw [equality]
      rcases wants.ended with h | h <;> rw [h] <;> exact ⟨rfl, rfl⟩
    · show seam.edge.admits word.kind
      rw [equality]
      cases edge : seam.edge with
      | sign => exact absurd edge wants.apart
      | _ => rfl
  · refine takes_free ?_ tidy
    show word.kind.isFree
    cases same : word.kind <;> simp_all [TokenKind.strength?, TokenKind.isFree]

/-- Behind a binary operator an expression can start. -/
theorem Seam.wantsOperand_operator (seam : Seam) {word : Token} {own : Nat}
    (kind : word.kind.strength? = some own) (gap : word.gap = " ") :
    (seam.after word.lexeme).WantsOperand := by
  refine ⟨.inr (.inr (.inl ?_)), ?_⟩
  · show seam.expectation.after word.kind = .operand
    cases same : word.kind <;> simp_all [TokenKind.strength?] <;> rfl
  · show word.lexeme.edge ≠ .letters
    rw [Lexeme.edge_of_space gap]
    exact Edge.noConfusion

/-- A unary operator can be read everywhere. -/
theorem Seam.takes_sign (seam : Seam) {word : Token} (kind : word.kind.isSign)
    (spelled : word.Spelled) (gap : word.gap = "") : seam.Takes word.lexeme := by
  refine takes_free ?_ ⟨spelled, .inl gap, fun product => ?_⟩
  · show word.kind.isFree
    cases same : word.kind <;> simp_all [TokenKind.isSign, TokenKind.isFree]
  · rw [show word.kind = .productOp from product] at kind
    exact absurd kind Bool.false_ne_true

/-- Behind a unary operator an expression can start. -/
theorem Seam.wantsOperand_sign (seam : Seam) {word : Token} (kind : word.kind.isSign) :
    (seam.after word.lexeme).WantsOperand := by
  refine ⟨.inr (.inr (.inl ?_)), ?_⟩
  · show seam.expectation.after word.kind = .operand
    cases same : word.kind <;> simp_all [TokenKind.isSign] <;> rfl
  · show word.lexeme.edge ≠ .letters
    refine Lexeme.edge_ne_letters ?_
    show word.kind.isWordy = false
    cases same : word.kind <;> simp_all [TokenKind.isSign, TokenKind.isWordy]

/-! ### Gaps of productions -/

namespace Node

/-- Whether all gaps have their default texts, and all names are proper ones. -/
structure Spaced (node : Node) : Prop where
  gap : ∀ index, gapText node.kind node.gaps index =
    (node.kind.layout.defaultGap? index).getD ""
  name : ∀ name text, nameAttributes.contains name →
    node.attributes.lookup name = some (.text text) → isName text

/-- A gap of a node whose gaps are numbered from zero has its default text. -/
theorem Spaced.gap_eq {kind : Kind} {attributes : List (String × Json)} {condition : Option Node}
    {children : List Node} {texts : List String} {more : Gaps} {text : String} (index : Nat)
    (h : Spaced (.mk kind attributes condition children (numberGaps 0 texts ++ more)))
    (found : texts[index]? = some text) : text = (kind.layout.defaultGap? index).getD "" :=
  (gapText_fixed more found).symm.trans (h.gap index)

theorem Spaced.gap_eq_of_fixed {kind : Kind} {attributes : List (String × Json)}
    {condition : Option Node} {children : List Node} {texts : List String} {text : String}
    (index : Nat) (h : Spaced (.mk kind attributes condition children (numberGaps 0 texts)))
    (found : texts[index]? = some text) : text = (kind.layout.defaultGap? index).getD "" :=
  (gapText_numberGaps found).symm.trans (h.gap index)

/-- The only gap of a node. -/
theorem Spaced.gap_eq_of_single {kind : Kind} {attributes : List (String × Json)}
    {condition : Option Node} {children : List Node} {text : String}
    (h : Spaced (.mk kind attributes condition children [(0, text)])) :
    text = (kind.layout.defaultGap? (0 : Nat)).getD "" :=
  (gapText_of_get? rfl).symm.trans (h.gap 0)

/-- The default text behind a comma. -/
theorem defaultGap?_comma {kind : Kind} {base : Nat}
    (comma : kind.layout.separatorBase? = some base) (index : Nat) :
    kind.layout.defaultGap? (base + index : Nat) = some " " := by
  have fixed : ∀ entry ∈ kind.layout.defaults, entry.1 < base := by
    revert base
    cases kind <;> simp [Kind.layout, Kind.pairLayout, Layout.separatorBase?]
  have none : kind.layout.defaults.find?
      (fun entry => (entry.1 : Int) == ((base + index : Nat) : Int)) = none := by
    refine List.find?_eq_none.2 fun entry member same => ?_
    have small := fixed entry member
    have equal : (entry.1 : Int) = ((base + index : Nat) : Int) := by simpa using same
    omega
  rw [Layout.defaultGap?, none, comma]
  exact if_pos (by omega)

/-- All commas have the same blank text behind them. -/
theorem Spaced.commas_eq {kind : Kind} {attributes : List (String × Json)}
    {condition : Option Node} {children : List Node} {fixed commas : List String} {base : Nat}
    (h : Spaced (.mk kind attributes condition children
      (numberGaps 0 fixed ++ numberGaps base commas)))
    (length : fixed.length = base) (comma : kind.layout.separatorBase? = some base) :
    ∀ gap ∈ commas, gap = " " := by
  intro gap member
  obtain ⟨index, found⟩ := List.mem_iff_getElem?.1 member
  have default := congrArg (Option.getD · "") (defaultGap?_comma comma index)
  exact (gapText_commas kind fixed length index gap found).symm.trans
    ((h.gap (base + index)).trans default)

/-! ### Expressions -/

/-- The words of an expression can be read wherever an expression can start. -/
def FlowsAsOperand (node : Node) : Prop :=
  ∀ seam : Seam, seam.WantsOperand → ∃ final : Seam, final.WantsOperator ∧
    Flows seam node.lexemes final

theorem flows_moreLexemes {nodes : List Node} {commas : List String}
    (each : ∀ node ∈ nodes, node.FlowsAsOperand) (spaces : ∀ gap ∈ commas, gap = " ")
    (seam : Seam) : ∃ final, Flows seam (moreLexemes nodes commas) final := by
  induction nodes generalizing commas seam with
  | nil => exact ⟨seam, by cases commas <;> exact .nil seam⟩
  | cons node others ih =>
    cases commas with
    | nil => exact ⟨seam, .nil seam⟩
    | cons gap commas =>
      obtain ⟨here, each⟩ := List.forall_mem_cons.1 each
      obtain ⟨space, behind⟩ := List.forall_mem_cons.1 spaces
      subst space
      obtain ⟨middle, -, first⟩ := here (seam.after (TokenKind.lexeme .comma " "))
        ⟨.inr (.inr (.inl rfl)), Edge.noConfusion⟩
      obtain ⟨final, others⟩ := ih each behind middle
      exact ⟨final, flows_free rfl rfl (.inr (.inl rfl)) (first.append others)⟩

/-- A list of expressions can be read where one can start. -/
theorem flows_listLexemes {nodes : List Node} {commas : List String}
    (each : ∀ node ∈ nodes, node.FlowsAsOperand) (spaces : ∀ gap ∈ commas, gap = " ")
    (seam : Seam) (wants : seam.WantsOperand) :
    ∃ final, Flows seam (listLexemes nodes commas) final := by
  cases nodes with
  | nil => exact ⟨seam, .nil seam⟩
  | cons node others =>
    obtain ⟨here, each⟩ := List.forall_mem_cons.1 each
    obtain ⟨middle, -, first⟩ := here seam wants
    obtain ⟨final, others⟩ := flows_moreLexemes each spaces middle
    exact ⟨final, first.append others⟩

/-- A list in parentheses can be read everywhere. -/
theorem flows_parentheses {nodes : List Node} {commas : List String} {first last : String}
    (each : ∀ node ∈ nodes, node.FlowsAsOperand) (spaces : ∀ gap ∈ commas, gap = " ")
    (left : first = "") (right : last = "") (seam : Seam) :
    Flows seam (TokenKind.lexeme .leftParen first :: (listLexemes nodes commas ++
      [TokenKind.lexeme .rightParen last])) ⟨.plain, .free⟩ := by
  subst left right
  obtain ⟨middle, inner⟩ := flows_listLexemes each spaces
    (seam.after (TokenKind.lexeme .leftParen "")) ⟨.inr (.inr (.inl rfl)), Edge.noConfusion⟩
  exact flows_free rfl rfl (.inl rfl)
    (inner.append (flows_free rfl rfl (.inl rfl) (.nil _)))

/-- **The words of a printed expression can be read.** -/
theorem Grammatical.flowsAsOperand {node : Node} (h : node.Grammatical)
    (operand : node.IsOperand 0) (spaced : node.All Spaced) : node.FlowsAsOperand := by
  induction h with
  | @literal word kind spelled =>
    obtain ⟨own, -, -⟩ := spaced
    have gap : word.gap = "" := Spaced.gap_eq_of_single own
    intro seam wants
    rw [lexemes_ofLiteral kind spelled]
    exact ⟨_, seam.wantsOperator_literal kind, .one (Seam.takes_literal wants kind spelled gap)⟩
  | @reference word name =>
    obtain ⟨own, -, -⟩ := spaced
    have gap : word.gap = "" := Spaced.gap_eq_of_single own
    have proper := own.name "variable_name" word.text rfl rfl
    intro seam wants
    rw [lexemes_ofName name.kind_eq]
    exact ⟨_, wants.wantsOperator_name name.kind_eq,
      .one (Seam.takes_name name proper (.inl gap) wants.cutsIf wants.apart)⟩
  | @call name left right arguments commas isName count below operands ih =>
    obtain ⟨own, -, inner⟩ := spaced
    have nameGap : name.gap = "" := own.gap_eq 0 rfl
    have leftGap : left.gap = "" := own.gap_eq 1 rfl
    have rightGap : right.gap = "" := own.gap_eq 2 rfl
    have spaces := own.commas_eq rfl rfl
    have proper := own.name "function_name" name.text rfl rfl
    intro seam wants
    rw [lexemes_ofCall isName.kind_eq count]
    refine ⟨⟨.plain, .free⟩, ⟨.inl rfl, Edge.noConfusion⟩,
      .cons (Seam.takes_name isName proper (.inl nameGap) wants.cutsIf wants.apart) ?_⟩
    exact flows_parentheses (fun node member => ih node member (operands node member)
      (inner node member)) spaces leftGap rightGap _
  | @bracketed left right inner below inside ih =>
    obtain ⟨own, -, each⟩ := spaced
    have leftGap : left.gap = "" := own.gap_eq_of_fixed 0 rfl
    have rightGap : right.gap = "" := own.gap_eq_of_fixed 1 rfl
    intro seam wants
    rw [lexemes_ofBracketed, leftGap, rightGap]
    obtain ⟨middle, -, read⟩ := ih inside (each inner List.mem_cons_self)
      (seam.after (TokenKind.lexeme .leftParen "")) ⟨.inr (.inr (.inl rfl)), Edge.noConfusion⟩
    refine ⟨⟨.plain, .free⟩, ⟨.inl rfl, Edge.noConfusion⟩, flows_free rfl rfl (.inl rfl) ?_⟩
    exact read.append (flows_free rfl rfl (.inl rfl) (.nil _))
  | @unary sign inner kind spelled below inside ih =>
    obtain ⟨own, -, each⟩ := spaced
    have gap : sign.gap = "" := Spaced.gap_eq_of_single own
    intro seam wants
    rw [lexemes_ofUnary inner kind spelled]
    obtain ⟨final, ended, read⟩ := ih (inside.mono (Nat.zero_le _)) (each inner List.mem_cons_self)
      (seam.after sign.lexeme) (seam.wantsOperand_sign kind)
    exact ⟨final, ended, .cons (seam.takes_sign kind spelled gap) read⟩
  | @binary left right word own kind spelled belowLeft belowRight operandLeft operandRight ihLeft
      ihRight =>
    obtain ⟨here, -, each⟩ := spaced
    have gap : word.gap = " " := Spaced.gap_eq_of_single here
    intro seam wants
    rw [lexemes_ofBinary left right kind spelled]
    obtain ⟨middle, ended, first⟩ := ihLeft (operandLeft.mono (Nat.zero_le _))
      (each left List.mem_cons_self) seam wants
    obtain ⟨final, finished, second⟩ := ihRight (operandRight.mono (Nat.zero_le _))
      (each right (List.mem_cons_of_mem left List.mem_cons_self)) (middle.after word.lexeme)
      (middle.wantsOperand_operator kind gap)
    exact ⟨final, finished, first.append (.cons (ended.takes kind spelled gap) second)⟩
  | creation => exact absurd rfl operand.2.1
  | guarded guard count belowCondition inner below statements ihCondition ih =>
    exact absurd operand.1 (Kind.category_of_guardWords guard)
  | _ => exact absurd operand.1 Category.noConfusion

/-- A printed connector can be read as the value of a definition. -/
theorem Grammatical.flows_connector {node : Node} (h : node.Grammatical)
    (connector : node.kind = .connectorCreation) (spaced : node.All Spaced) :
    Flows ⟨.initializer, .free⟩ node.lexemes ⟨.plain, .free⟩ := by
  cases h with
  | @creation create name left right arguments commas isName count below operands =>
    obtain ⟨own, -, inner⟩ := spaced
    have createGap : create.gap = " " := own.gap_eq 0 rfl
    have nameGap : name.gap = "" := own.gap_eq 1 rfl
    have leftGap : left.gap = "" := own.gap_eq 2 rfl
    have rightGap : right.gap = "" := own.gap_eq 3 rfl
    have spaces := own.commas_eq rfl rfl
    have proper := own.name "connector_name" name.text rfl rfl
    have each (argument : Node) (member : argument ∈ arguments) :=
      (below argument member).flowsAsOperand (operands argument member) (inner argument member)
    rw [lexemes_ofCreation isName.kind_eq count, createGap]
    refine .cons (Seam.takes_keyword rfl rfl ⟨rfl, Bool.noConfusion⟩ Edge.noConfusion
      (.inr (.inl rfl))) ?_
    refine .cons (Seam.takes_name isName proper (.inl nameGap) rfl Edge.noConfusion) ?_
    exact flows_parentheses each spaces leftGap rightGap _
  | @guarded kind words left right opening closing condition body guard =>
    obtain rfl : kind = .connectorCreation := connector
    exact absurd rfl guard
  | _ => exact absurd connector Kind.noConfusion

/-! ### Statements -/

/-- The words of a statement can be read wherever a statement can start, and those of a clause where
the chain has got to it. -/
structure FlowsAsStatement (node : Node) : Prop where
  statement : node.IsStatement → ∀ seam : Seam, seam.WantsStatement →
    ∃ final : Seam, final.WantsStatement ∧ Flows seam node.lexemes final
  first : node.kind = .ifClause → ∀ seam : Seam, seam.WantsStatement →
    Flows seam node.lexemes ⟨.blockEnd, .free⟩
  later : node.kind = .elseIfClause ∨ node.kind = .elseClause →
    Flows ⟨.blockEnd, .free⟩ node.lexemes ⟨.blockEnd, .free⟩

theorem flows_statements {nodes : List Node} (each : ∀ node ∈ nodes, node.FlowsAsStatement)
    (statements : ∀ node ∈ nodes, node.IsStatement) (seam : Seam) (wants : seam.WantsStatement) :
    ∃ final : Seam, final.WantsStatement ∧ Flows seam (nodes.flatMap lexemes) final := by
  induction nodes generalizing seam with
  | nil => exact ⟨seam, wants, .nil seam⟩
  | cons node others ih =>
    obtain ⟨here, each⟩ := List.forall_mem_cons.1 each
    obtain ⟨isStatement, statements⟩ := List.forall_mem_cons.1 statements
    obtain ⟨middle, ended, first⟩ := here.statement isStatement seam wants
    obtain ⟨final, finished, others⟩ := ih each statements middle ended
    exact ⟨final, finished, first.append others⟩

theorem flows_clauses {nodes : List Node} (each : ∀ node ∈ nodes, node.FlowsAsStatement)
    (order : tailInOrder (nodes.map Node.kind)) :
    Flows ⟨.blockEnd, .free⟩ (nodes.flatMap lexemes) ⟨.blockEnd, .free⟩ := by
  have kinds (node : Node) (member : node ∈ nodes) :=
    mem_of_tailInOrder order (List.mem_map_of_mem member)
  clear order
  induction nodes with
  | nil => exact .nil _
  | cons node others ih =>
    obtain ⟨here, each⟩ := List.forall_mem_cons.1 each
    obtain ⟨kind, kinds⟩ := List.forall_mem_cons.1 kinds
    exact (here.later kind).append (ih each kinds)

/-- A block can be read everywhere, and a chain can go on behind it. -/
theorem flows_block {body : List Node} {opening closing : Token}
    (each : ∀ node ∈ body, node.FlowsAsStatement) (statements : ∀ node ∈ body, node.IsStatement)
    (line : opening.gap = "\n") (few : closing.gap = " " ∨ closing.gap = "\n") (seam : Seam) :
    Flows seam (blockLexemes opening body closing) ⟨.blockEnd, .free⟩ := by
  have edge (gap : String) : (TokenKind.lexeme .rightBrace gap).edge = .free := ite_self _
  obtain ⟨middle, -, inner⟩ := flows_statements each statements
    (seam.after (TokenKind.lexeme .leftBrace "\n")) ⟨.inl rfl, rfl⟩
  rw [blockLexemes, line]
  refine flows_free rfl rfl (.inr (.inr rfl)) (inner.append (flows_free rfl rfl (.inr few) ?_))
  rw [Seam.after, edge]
  exact .nil _

/-- A condition and a block can be read everywhere. -/
theorem flows_guarded {condition : Node} {body : List Node} {left right opening closing : Token}
    (inner : condition.FlowsAsOperand) (each : ∀ node ∈ body, node.FlowsAsStatement)
    (statements : ∀ node ∈ body, node.IsStatement) (leftGap : left.gap = "")
    (rightGap : right.gap = " ") (line : opening.gap = "\n")
    (few : closing.gap = " " ∨ closing.gap = "\n") (seam : Seam) :
    Flows seam (TokenKind.lexeme .leftParen left.gap :: (condition.lexemes ++
      TokenKind.lexeme .rightParen right.gap :: blockLexemes opening body closing))
      ⟨.blockEnd, .free⟩ := by
  obtain ⟨middle, -, read⟩ := inner (seam.after (TokenKind.lexeme .leftParen ""))
    ⟨.inr (.inr (.inl rfl)), Edge.noConfusion⟩
  rw [leftGap, rightGap]
  refine flows_free rfl rfl (.inl rfl) (read.append (flows_free rfl rfl (.inr (.inl rfl)) ?_))
  exact flows_block each statements line few _

/-- A statement that is no clause. -/
theorem FlowsAsStatement.of_statement {node : Node} (category : node.kind.category ≠ .clause)
    (statement : node.IsStatement → ∀ seam : Seam, seam.WantsStatement →
      ∃ final : Seam, final.WantsStatement ∧ Flows seam node.lexemes final) :
    node.FlowsAsStatement where
  statement := statement
  first isFirst := absurd (isFirst ▸ rfl) category
  later isLater := by
    rcases isLater with kind | kind <;> exact absurd (kind ▸ rfl) category

/-- **The words of a printed statement can be read.** -/
theorem Grammatical.flowsAsStatement {node : Node} (h : node.Grammatical)
    (spaced : node.All Spaced) : node.FlowsAsStatement := by
  induction h with
  | @assignment name equals semicolon value isName below operand ih =>
    obtain ⟨own, -, each⟩ := spaced
    have equalsGap : equals.gap = " " := own.gap_eq_of_fixed 0 rfl
    have semicolonGap : semicolon.gap = "\n" := own.gap_eq_of_fixed 1 rfl
    obtain ⟨named, -, -⟩ := each (ofName name) List.mem_cons_self
    have nameGap : name.gap = "" := Spaced.gap_eq_of_single named
    have proper := named.name "variable_name" name.text rfl rfl
    refine .of_statement Category.noConfusion fun _ seam wants => ?_
    have takesName := Seam.takes_name isName proper (.inl nameGap) wants.operand.cutsIf
      wants.operand.apart
    have takesEquals : (seam.after name.lexeme).Takes (TokenKind.lexeme .equals " ") :=
      Seam.takes_equals (Lexeme.edge_ne_sign (by rw [Token.lexeme, isName.kind_eq]; rfl))
        (.inr (.inl rfl))
    obtain ⟨middle, -, read⟩ := below.flowsAsOperand operand
      (each value (List.mem_cons_of_mem _ List.mem_cons_self)) _ (Seam.wantsOperand_equals _)
    rw [lexemes_ofPair rfl, lexemes_ofName isName.kind_eq, equalsGap, semicolonGap]
    exact ⟨⟨.statement, .free⟩, ⟨.inl rfl, rfl⟩, .cons takesName (.cons takesEquals
      (read.append (flows_free rfl rfl (.inr (.inr rfl)) (.nil _))))⟩
  | @definition typeName variableName equals semicolon value isType isVariable below initializer =>
    obtain ⟨own, -, each⟩ := spaced
    have equalsGap : equals.gap = " " := own.gap_eq_of_fixed 0 rfl
    have semicolonGap : semicolon.gap = "\n" := own.gap_eq_of_fixed 1 rfl
    obtain ⟨named, -, -⟩ := each (ofDeclaration typeName variableName) List.mem_cons_self
    have typeGap : typeName.gap = " " := named.gap_eq_of_fixed 0 rfl
    have variableGap : variableName.gap = " " := named.gap_eq_of_fixed 1 rfl
    have properType := named.name "type_name" typeName.text rfl rfl
    have properVariable := named.name "variable_name" variableName.text rfl rfl
    refine .of_statement Category.noConfusion fun _ seam wants => ?_
    have takesType := Seam.takes_name isType properType (.inr (.inl typeGap)) wants.operand.cutsIf
      wants.operand.apart
    have start : seam.after typeName.lexeme = ⟨.statementName, .free⟩ := by
      rw [Seam.after, Lexeme.edge_of_space typeGap]
      exact congrArg (Seam.mk · .free) (wants.after_name isType.kind_eq)
    have second : (⟨.statementName, .free⟩ : Seam).after variableName.lexeme =
        ⟨.definedName, .free⟩ := by
      rw [Seam.after, Lexeme.edge_of_space variableGap, Token.lexeme, isVariable.kind_eq]
      rfl
    have read : ∃ middle, Flows ⟨.initializer, .free⟩ value.lexemes middle := by
      have inner := each value (List.mem_cons_of_mem _ List.mem_cons_self)
      rcases initializer with operand | connector
      · obtain ⟨middle, -, read⟩ := below.flowsAsOperand operand inner ⟨.initializer, .free⟩
          ⟨.inr (.inr (.inr rfl)), Edge.noConfusion⟩
        exact ⟨middle, read⟩
      · exact ⟨_, below.flows_connector connector inner⟩
    obtain ⟨middle, read⟩ := read
    rw [lexemes_ofPair rfl, lexemes_ofDeclaration isType.kind_eq isVariable.kind_eq, equalsGap,
      semicolonGap]
    refine ⟨⟨.statement, .free⟩, ⟨.inl rfl, rfl⟩, .cons takesType ?_⟩
    rw [start]
    refine .cons (Seam.takes_name isVariable properVariable (.inr (.inl variableGap)) rfl
      Edge.noConfusion) ?_
    rw [second]
    exact .cons (Seam.takes_equals Edge.noConfusion (.inr (.inl rfl)))
      (read.append (flows_free rfl rfl (.inr (.inr rfl)) (.nil _)))
  | @returns word semicolon values commas count below operands =>
    obtain ⟨own, -, inner⟩ := spaced
    have wordGap : word.gap = " " := own.gap_eq 0 rfl
    have semicolonGap : semicolon.gap = "\n" := own.gap_eq 1 rfl
    have spaces := own.commas_eq rfl rfl
    have each (value : Node) (member : value ∈ values) :=
      (below value member).flowsAsOperand (operands value member) (inner value member)
    refine .of_statement Category.noConfusion fun _ seam wants => ?_
    rw [lexemes_ofReturn count, wordGap, semicolonGap]
    obtain ⟨middle, read⟩ := flows_listLexemes each spaces
      (seam.after (TokenKind.lexeme .returnWord " ")) ⟨.inr (.inr (.inl rfl)), Edge.noConfusion⟩
    exact ⟨⟨.statement, .free⟩, ⟨.inl rfl, rfl⟩,
      .cons (wants.takes_leader rfl)
        (read.append (flows_free rfl rfl (.inr (.inr rfl)) (.nil _)))⟩
  | @expression inner semicolon below operand =>
    obtain ⟨own, -, each⟩ := spaced
    have gap : semicolon.gap = "\n" := Spaced.gap_eq_of_single own
    refine .of_statement Category.noConfusion fun _ seam wants => ?_
    rw [lexemes_ofExpressionStatement, gap]
    obtain ⟨middle, -, read⟩ := below.flowsAsOperand operand (each inner List.mem_cons_self) seam
      wants.operand
    exact ⟨⟨.statement, .free⟩, ⟨.inl rfl, rfl⟩,
      read.append (flows_free rfl rfl (.inr (.inr rfl)) (.nil _))⟩
  | @guarded kind words left right opening closing condition body guard count belowCondition operand
      below statements ihCondition ih =>
    obtain ⟨own, inner, each⟩ := spaced
    have read (leftGap : left.gap = "") (rightGap : right.gap = " ") (line : opening.gap = "\n")
        (few : closing.gap = " " ∨ closing.gap = "\n") := flows_guarded
      (belowCondition.flowsAsOperand operand (inner condition rfl))
      (fun node member => ih node member (each node member)) statements leftGap rightGap line few
    have words := lexemes_ofGuarded left right opening closing condition body guard count
    cases kind with
    | whileLoop =>
      obtain ⟨word, rfl⟩ := List.length_eq_one_iff.1 count
      have wordGap : word.gap = " " := own.gap_eq_of_fixed 0 rfl
      have block := read (own.gap_eq_of_fixed 1 rfl) (own.gap_eq_of_fixed 2 rfl)
        (own.gap_eq_of_fixed 3 rfl) (.inr (own.gap_eq_of_fixed 4 rfl))
      refine .of_statement Category.noConfusion fun _ seam wants => ?_
      rw [words, List.map_singleton, wordGap]
      exact ⟨⟨.blockEnd, .free⟩, ⟨.inr rfl, rfl⟩, .cons (wants.takes_leader rfl) (block _)⟩
    | ifClause =>
      obtain ⟨word, rfl⟩ := List.length_eq_one_iff.1 count
      have wordGap : word.gap = " " := own.gap_eq_of_fixed 0 rfl
      have block := read (own.gap_eq_of_fixed 1 rfl) (own.gap_eq_of_fixed 2 rfl)
        (own.gap_eq_of_fixed 3 rfl) (.inl (own.gap_eq_of_fixed 4 rfl))
      refine ⟨fun isStatement => absurd isStatement.1 Category.noConfusion, fun _ seam wants => ?_,
        fun isLater => ?_⟩
      · rw [words, List.map_singleton, wordGap]
        exact .cons (wants.takes_leader rfl) (block _)
      · rcases isLater with same | same <;> exact absurd same Kind.noConfusion
    | elseIfClause =>
      obtain ⟨word, rest, rfl⟩ := List.exists_cons_of_length_eq_add_one count
      obtain ⟨next, rfl⟩ := List.length_eq_one_iff.1 (Nat.succ.inj count)
      have wordGap : word.gap = " " := own.gap_eq_of_fixed 0 rfl
      have nextGap : next.gap = " " := own.gap_eq_of_fixed 1 rfl
      have block := read (own.gap_eq_of_fixed 2 rfl) (own.gap_eq_of_fixed 3 rfl)
        (own.gap_eq_of_fixed 4 rfl) (.inl (own.gap_eq_of_fixed 5 rfl))
      refine ⟨fun isStatement => absurd isStatement.1 Category.noConfusion,
        fun isFirst => absurd isFirst Kind.noConfusion, fun _ => ?_⟩
      rw [words, List.map_cons, List.map_singleton, wordGap, nextGap]
      refine .cons (Seam.takes_keyword rfl rfl ⟨rfl, Bool.noConfusion⟩ Edge.noConfusion
        (.inr (.inl rfl))) ?_
      exact .cons (Seam.takes_keyword rfl rfl ⟨rfl, fun _ => rfl⟩ Edge.noConfusion
        (.inr (.inl rfl))) (block _)
    | _ => exact absurd rfl guard
  | @otherwise word opening closing body below statements ih =>
    obtain ⟨own, -, inner⟩ := spaced
    have wordGap : word.gap = " " := own.gap_eq_of_fixed 0 rfl
    have openingGap : opening.gap = "\n" := own.gap_eq_of_fixed 1 rfl
    have closingGap : closing.gap = "\n" := own.gap_eq_of_fixed 2 rfl
    refine ⟨fun isStatement => absurd isStatement.1 Category.noConfusion,
      fun isFirst => absurd isFirst Kind.noConfusion, fun _ => ?_⟩
    rw [lexemes_ofElse, wordGap]
    refine .cons (Seam.takes_keyword rfl rfl ⟨rfl, Bool.noConfusion⟩ Edge.noConfusion
      (.inr (.inl rfl))) ?_
    exact flows_block (fun node member => ih node member (inner node member)) statements openingGap
      (.inr closingGap) _
  | @chain first others belowFirst kind below order ihFirst ih =>
    obtain ⟨own, -, each⟩ := spaced
    refine .of_statement Category.noConfusion fun _ seam wants => ?_
    rw [lexemes_ofClauses, List.flatMap_cons]
    have start := (ihFirst (each first List.mem_cons_self)).first kind seam wants
    have clauses := flows_clauses (fun clause member => ih clause member
      (each clause (List.mem_cons_of_mem first member))) order
    exact ⟨⟨.blockEnd, .free⟩, ⟨.inr rfl, rfl⟩, start.append clauses⟩
  | _ =>
    exact .of_statement Category.noConfusion fun isStatement =>
      absurd isStatement.1 Category.noConfusion

/-! ### Whole texts -/

/-- The words of a printed node can be read from the start of a text. -/
theorem Grammatical.flows {node : Node} (h : node.Grammatical) (spaced : node.All Spaced)
    {start : Start} (takes : start.Takes node) :
    ∃ final, Flows ⟨start.expectation, .free⟩ node.lexemes final := by
  cases start with
  | unit =>
    cases h with
    | @unit leading statements below all =>
      obtain ⟨-, -, each⟩ := spaced
      obtain ⟨final, -, read⟩ := flows_statements (fun node member =>
        (below node member).flowsAsStatement (each node member)) all
        ⟨.statement, .free⟩ ⟨.inl rfl, rfl⟩
      rw [lexemes_unit]
      exact ⟨final, read⟩
    | @guarded kind words left right opening closing condition body guard =>
      obtain rfl : kind = .compilationUnit := takes
      exact absurd rfl guard
    | _ => exact absurd takes Kind.noConfusion
  | statement =>
    obtain ⟨final, -, read⟩ := (h.flowsAsStatement spaced).statement takes
      ⟨.statement, .free⟩ ⟨.inl rfl, rfl⟩
    exact ⟨final, read⟩
  | expression =>
    obtain ⟨final, -, read⟩ := h.flowsAsOperand takes spaced ⟨.operand, .free⟩
      ⟨.inr (.inr (.inl rfl)), Edge.noConfusion⟩
    exact ⟨final, read⟩

end Node

/-- **What is printed reads back**: the text of a grammatical node whose gaps all have their default
texts is read as that node. -/
theorem parse_of_render {node : Node} (h : node.Grammatical) (spaced : node.All Node.Spaced)
    {start : Start} (takes : start.Takes node) :
    ∃ text, node.render = .ok text ∧ parse start text = .ok node := by
  have leading : node.leading = "" := by
    obtain ⟨own, -, -⟩ := spaced
    rw [Node.leading]
    split
    · next unit =>
      rw [own.gap 0, unit]
      rfl
    · rfl
  obtain ⟨final, read⟩ := h.flows spaced takes
  obtain ⟨front, words, finished⟩ := lex_of_flows read
  refine ⟨written node.lexemes, ?_, parse_complete h takes words (fun _ => ?_) finished⟩
  · rw [Node.render_eq_written h.complete, leading, String.empty_append]
  · rw [leading, front]

end Verbatim
