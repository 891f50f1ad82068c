/-!
# Tokens

The words of the language, and the *expectations* under which words are read: the same letters can
be a keyword in one place and a name in another, and `==` can be one sign or two.

## Main definitions

* `TokenKind`, `Token`: what a word is; its text, the blank text behind it and where it starts
* `Place`: lines and columns, counted from one
* `Expectation`: what the words so far leave open about the next one
* `Expectation.after`: how a word changes the expectation

## Implementation notes

`if = 1` is an assignment and `int if = 1` a definition: a word is a keyword only where the grammar
could use the keyword, and elsewhere it is a name if the grammar could use a name. Which of the two
holds is settled by the one or two words before, so reading words needs no parser: nine
expectations, and a table that goes from one to the next.
-/

namespace Verbatim

/-- A position in a text: line and column, both counted from one. -/
structure Place where
  line : Nat
  column : Nat
  deriving DecidableEq, Repr

/-- Where a text starts. -/
def Place.start : Place := ⟨1, 1⟩

/-- The place behind a character. Only line feeds end lines. -/
def Place.next (place : Place) (c : Char) : Place :=
  if c = '\n' then ⟨place.line + 1, 1⟩ else ⟨place.line, place.column + 1⟩

/-- The place behind a row of characters. -/
def Place.after (place : Place) (chars : List Char) : Place :=
  chars.foldl Place.next place

/-- What a word is. -/
inductive TokenKind where
  | orOp
  | andOp
  | equalityOp
  | relationOp
  | plus
  | minus
  | productOp
  | bang
  | trueWord
  | falseWord
  | name
  | number
  | string
  | ifWord
  | elseWord
  | whileWord
  | returnWord
  | createWord
  | leftParen
  | rightParen
  | leftBrace
  | rightBrace
  | equals
  | semicolon
  | comma
  deriving DecidableEq, Repr

/-- The name of the kind in error messages. -/
def TokenKind.title : TokenKind → String
  | .orOp => "OR"
  | .andOp => "AND"
  | .equalityOp => "EQ_OP"
  | .relationOp => "REL_OP"
  | .plus => "PLUS"
  | .minus => "MINUS"
  | .productOp => "MUL_OP"
  | .bang => "BANG"
  | .trueWord => "TRUE"
  | .falseWord => "FALSE"
  | .name => "NAME"
  | .number => "NUMBER"
  | .string => "STRING"
  | .ifWord => "IF"
  | .elseWord => "ELSE"
  | .whileWord => "WHILE"
  | .returnWord => "RETURN"
  | .createWord => "CREATE"
  | .leftParen => "LPAR"
  | .rightParen => "RPAR"
  | .leftBrace => "LBRACE"
  | .rightBrace => "RBRACE"
  | .equals => "EQUAL"
  | .semicolon => "SEMICOLON"
  | .comma => "COMMA"

/-- The keyword that a word spells, if it spells one. -/
def TokenKind.ofKeyword? (word : List Char) : Option TokenKind :=
  match String.ofList word with
  | "true" => some .trueWord
  | "false" => some .falseWord
  | "if" => some .ifWord
  | "else" => some .elseWord
  | "while" => some .whileWord
  | "return" => some .returnWord
  | "create" => some .createWord
  | _ => none

/-- A word with the blank text that follows it. -/
structure Token where
  kind : TokenKind
  text : String
  gap : String
  place : Place
  deriving DecidableEq, Repr

/-- What the words so far leave open about the next one. -/
inductive Expectation where
  /-- A statement starts, and no chain of clauses can go on. -/
  | statement
  /-- A block has ended: a statement starts, or the chain goes on with `else`. -/
  | blockEnd
  /-- An expression starts, or the place behind a sign that wants one. -/
  | operand
  /-- The value of a definition: an expression or a connector. -/
  | initializer
  /-- A statement has started with a name. -/
  | statementName
  /-- Two names have started a definition; only the equals sign can follow. -/
  | definedName
  /-- The name of a connector. -/
  | connectorName
  /-- Behind `else`: a block, or a further condition. -/
  | elseTail
  /-- Everywhere else no name can follow, and all keywords are keywords. -/
  | plain
  deriving DecidableEq, Repr

namespace Expectation

/-- What a word is where the expectation holds: the keyword that it spells, if the keyword can be
meant, and a name otherwise. -/
def wordKind (expectation : Expectation) (word : List Char) : TokenKind :=
  match TokenKind.ofKeyword? word with
  | none => .name
  | some keyword =>
    let meant := match expectation, keyword with
      | .statement, .elseWord | .statement, .createWord => false
      | .statement, _ => true
      | .blockEnd, .createWord => false
      | .blockEnd, _ => true
      | .operand, .trueWord | .operand, .falseWord => true
      | .operand, _ => false
      | .initializer, .trueWord | .initializer, .falseWord | .initializer, .createWord => true
      | .initializer, _ => false
      | .statementName, _ | .connectorName, _ => false
      | .definedName, _ | .elseTail, _ | .plain, _ => true
    if meant then keyword else .name

/-- Whether an exclamation mark stands alone even before an equals sign, because an operand can
start here. -/
def splitsBang : Expectation → Bool
  | .statement | .blockEnd | .operand | .initializer => true
  | _ => false

/-- Whether an equals sign stands alone even before another one. -/
def splitsEquals : Expectation → Bool
  | .definedName => true
  | _ => false

/-- Whether `if` is read off the front of a longer word, because no name can follow. -/
def cutsIf : Expectation → Bool
  | .elseTail => true
  | _ => false

/-- What can follow a word of the given kind. -/
def after (expectation : Expectation) : TokenKind → Expectation
  | .semicolon | .leftBrace => .statement
  | .rightBrace => .blockEnd
  | .equals => if expectation = .definedName then .initializer else .operand
  | .orOp | .andOp | .equalityOp | .relationOp | .plus | .minus | .productOp | .bang
  | .leftParen | .comma | .returnWord => .operand
  | .name =>
    match expectation with
    | .statement | .blockEnd => .statementName
    | .statementName => .definedName
    | _ => .plain
  | .createWord => .connectorName
  | .elseWord => .elseTail
  | .trueWord | .falseWord | .number | .string | .ifWord | .whileWord | .rightParen => .plain

end Expectation

end Verbatim
