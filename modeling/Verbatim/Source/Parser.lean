import Verbatim.Source.Lexer
import Verbatim.Syntax.Node

/-!
# The grammar

Words become nodes. A statement is told by its first one or two words, and an expression is read by
the strength of its operators, so every word is looked at once and the first word that cannot go on
is the one reported.

```
unit        = statement*
statement   = if-chain | "while" "(" expr ")" block | NAME "=" expr ";"
            | NAME NAME "=" (expr | "create" NAME "(" list? ")") ";"
            | "return" list? ";" | expr ";"
if-chain    = "if" "(" expr ")" block ("else" "if" "(" expr ")" block)* ("else" block)?
block       = "{" statement* "}"
list        = expr ("," expr)*
expr        = operators of six strengths, all associating to the left, over unary
unary       = ("!" | "-") unary | primary
primary     = literal | NAME | NAME "(" list? ")" | "(" expr ")"
```

Every word keeps the blank text behind it, and it becomes a gap of the node that the word belongs
to. No blank text is lost: what stands in front of the first word is the gap of the unit.

## Main definitions

* `parseExpression`, `parseStatement`, `parseStatements`: nodes from words
* `TokenKind.strength?`: how tightly a binary operator binds

## Implementation notes

All functions take the words and give the node with the words behind it, or the words from the first
unexpected one on. The number of steps is bounded by the first argument; `stepsFor` says how many
the given words need at most.
-/

namespace Verbatim

/-- How tightly a binary operator binds; the greater number binds tighter. -/
def TokenKind.strength? : TokenKind → Option Nat
  | .orOp => some 1
  | .andOp => some 2
  | .equalityOp => some 3
  | .relationOp => some 4
  | .plus | .minus => some 5
  | .productOp => some 6
  | _ => none

/-- The word of the given kind in front. -/
def expect (kind : TokenKind) : List Token → Except (List Token) (Token × List Token)
  | [] => .error []
  | token :: rest => if token.kind = kind then .ok (token, rest) else .error (token :: rest)

/-! ### Nodes from words -/

namespace Node

/-- Gap texts numbered from the given number on. -/
def numberGaps (first : Nat) (texts : List String) : Gaps :=
  texts.zipIdx first |>.map fun (text, index) => (index, text)

/-- The type of a literal, by its word. -/
def literalType (token : Token) : String :=
  match token.kind with
  | .string => "string"
  | .trueWord | .falseWord => "boolean"
  | _ => if token.text.contains '.' then "float" else "int"

/-- A literal. -/
def ofLiteral (token : Token) : Node :=
  mk .literal [("literal_type", .text (literalType token)), ("value", .text token.text)] none []
    [(0, token.gap)]

/-- A reference to a variable. -/
def ofName (token : Token) : Node :=
  mk .reference [("variable_name", .text token.text)] none [] [(0, token.gap)]

/-- A call. The gaps behind commas come after those of the name and the parentheses. -/
def ofCall (name left : Token) (arguments : List Node) (commas : List String) (right : Token) :
    Node :=
  mk .call [("function_name", .text name.text)] none arguments
    (numberGaps 0 [name.gap, left.gap, right.gap] ++ numberGaps 3 commas)

/-- An expression in parentheses. -/
def ofBracketed (left : Token) (inner : Node) (right : Token) : Node :=
  mk .bracketed [] none [inner] (numberGaps 0 [left.gap, right.gap])

/-- An operator with one operand. -/
def ofUnary (operator : Token) (operand : Node) : Node :=
  mk .unary [("operator", .text operator.text)] none [operand] [(0, operator.gap)]

/-- An operator with two operands. -/
def ofBinary (left : Node) (operator : Token) (right : Node) : Node :=
  mk .binary [("operator", .text operator.text)] none [left, right] [(0, operator.gap)]

/-- The creation of a connector. -/
def ofCreation (create name left : Token) (arguments : List Node) (commas : List String)
    (right : Token) : Node :=
  mk .connectorCreation [("connector_name", .text name.text)] none arguments
    (numberGaps 0 [create.gap, name.gap, left.gap, right.gap] ++ numberGaps 4 commas)

/-- Two parts around an equals sign. -/
def ofPair (kind : Kind) (left : Node) (equals : Token) (right : Node) (semicolon : Token) : Node :=
  mk kind [] none [left, right] (numberGaps 0 [equals.gap, semicolon.gap])

/-- The declaring half of a definition. -/
def ofDeclaration (typeName variableName : Token) : Node :=
  mk .declaration
    [("type_name", .text typeName.text), ("variable_name", .text variableName.text)] none []
    (numberGaps 0 [typeName.gap, variableName.gap])

/-- A statement that returns values. -/
def ofReturn (word : Token) (values : List Node) (commas : List String) (semicolon : Token) :
    Node :=
  mk .returnStatement [] none values
    (numberGaps 0 [word.gap, semicolon.gap] ++ numberGaps 2 commas)

/-- An expression as a statement. -/
def ofExpressionStatement (expression : Node) (semicolon : Token) : Node :=
  mk .expressionStatement [] none [expression] [(0, semicolon.gap)]

/-- A block with what stands in front of it: a loop or a clause. -/
def ofBlock (kind : Kind) (words : List Token) (condition : Option Node) (body : List Node) :
    Node :=
  mk kind [] condition body (numberGaps 0 (words.map Token.gap))

/-- A chain of clauses. -/
def ofClauses (clauses : List Node) : Node :=
  mk .ifElse [] none clauses []

end Node

/-! ### Expressions -/

mutual

/-- An expression whose operators bind at least as tightly as given. -/
def parseExpression : Nat → Nat → List Token → Except (List Token) (Node × List Token)
  | 0, _, tokens => .error tokens
  | steps + 1, strength, tokens => do
    let (left, rest) ← parseUnary steps tokens
    parseOperators steps strength left rest

/-- The operators behind an operand, as long as they bind tightly enough. What stands right of an
operator binds tighter than it, so operators of one strength associate to the left. -/
def parseOperators : Nat → Nat → Node → List Token → Except (List Token) (Node × List Token)
  | 0, _, _, tokens => .error tokens
  | _ + 1, _, left, [] => .ok (left, [])
  | steps + 1, strength, left, token :: rest =>
    match token.kind.strength? with
    | none => .ok (left, token :: rest)
    | some own =>
      if own < strength then .ok (left, token :: rest)
      else do
        let (right, rest) ← parseExpression steps (own + 1) rest
        parseOperators steps strength (.ofBinary left token right) rest

/-- Unary operators and what they stand in front of. -/
def parseUnary : Nat → List Token → Except (List Token) (Node × List Token)
  | 0, tokens => .error tokens
  | _ + 1, [] => .error []
  | steps + 1, token :: rest =>
    match token.kind with
    | .bang | .minus => do
      let (operand, rest) ← parseUnary steps rest
      return (.ofUnary token operand, rest)
    | .number | .string | .trueWord | .falseWord => .ok (.ofLiteral token, rest)
    | .leftParen => do
      let (inner, rest) ← parseExpression steps 0 rest
      let (right, rest) ← expect .rightParen rest
      return (.ofBracketed token inner right, rest)
    | .name =>
      match rest with
      | [] => .ok (.ofName token, [])
      | next :: later =>
        if next.kind = .leftParen then do
          let (arguments, commas, later) ← parseArguments steps .rightParen later
          let (right, later) ← expect .rightParen later
          return (.ofCall token next arguments commas right, later)
        else .ok (.ofName token, next :: later)
    | _ => .error (token :: rest)

/-- A possibly empty list of expressions in front of a closing word: the expressions and the blank
texts behind the commas. -/
def parseArguments : Nat → TokenKind → List Token →
    Except (List Token) (List Node × List String × List Token)
  | 0, _, tokens => .error tokens
  | _ + 1, _, [] => .error []
  | steps + 1, closing, token :: rest =>
    if token.kind = closing then .ok ([], [], token :: rest)
    else do
      let (first, rest) ← parseExpression steps 0 (token :: rest)
      let (others, commas, rest) ← parseMore steps rest
      return (first :: others, commas, rest)

/-- The expressions behind commas. -/
def parseMore : Nat → List Token → Except (List Token) (List Node × List String × List Token)
  | 0, tokens => .error tokens
  | _ + 1, [] => .ok ([], [], [])
  | steps + 1, token :: rest =>
    if token.kind = .comma then do
      let (next, rest) ← parseExpression steps 0 rest
      let (others, commas, rest) ← parseMore steps rest
      return (next :: others, token.gap :: commas, rest)
    else .ok ([], [], token :: rest)

end

/-! ### Statements -/

/-- A condition in parentheses, with the parentheses. -/
def parseCondition (steps : Nat) (tokens : List Token) :
    Except (List Token) ((Token × Node × Token) × List Token) := do
  let (left, rest) ← expect .leftParen tokens
  let (condition, rest) ← parseExpression steps 0 rest
  let (right, rest) ← expect .rightParen rest
  return ((left, condition, right), rest)

/-- The value of a definition: an expression or a connector. -/
def parseInitializer (steps : Nat) : List Token → Except (List Token) (Node × List Token)
  | [] => .error []
  | token :: rest =>
    if token.kind = .createWord then do
      let (name, rest) ← expect .name rest
      let (left, rest) ← expect .leftParen rest
      let (arguments, commas, rest) ← parseArguments steps .rightParen rest
      let (right, rest) ← expect .rightParen rest
      return (.ofCreation token name left arguments commas right, rest)
    else parseExpression steps 0 (token :: rest)

/-- A definition behind its two names. -/
def parseDefinition (steps : Nat) (typeName variableName : Token) (tokens : List Token) :
    Except (List Token) (Node × List Token) := do
  let (equals, rest) ← expect .equals tokens
  let (value, rest) ← parseInitializer steps rest
  let (semicolon, rest) ← expect .semicolon rest
  return (.ofPair .definition (.ofDeclaration typeName variableName) equals value semicolon, rest)

/-- An assignment behind its name and equals sign. -/
def parseAssignment (steps : Nat) (name equals : Token) (tokens : List Token) :
    Except (List Token) (Node × List Token) := do
  let (value, rest) ← parseExpression steps 0 tokens
  let (semicolon, rest) ← expect .semicolon rest
  return (.ofPair .assignment (.ofName name) equals value semicolon, rest)

/-- The values of a `return`, behind that word. -/
def parseReturn (steps : Nat) (word : Token) (tokens : List Token) :
    Except (List Token) (Node × List Token) := do
  let (values, commas, rest) ← parseArguments steps .semicolon tokens
  let (semicolon, rest) ← expect .semicolon rest
  return (.ofReturn word values commas semicolon, rest)

/-- An expression as a statement. -/
def parseExpressionStatement (steps : Nat) (tokens : List Token) :
    Except (List Token) (Node × List Token) := do
  let (expression, rest) ← parseExpression steps 0 tokens
  let (semicolon, rest) ← expect .semicolon rest
  return (.ofExpressionStatement expression semicolon, rest)

/-- A statement without a block. A name in front starts a definition before another name, an
assignment before an equals sign, and an expression elsewhere. -/
def parseSimple (steps : Nat) : List Token → Except (List Token) (Node × List Token)
  | [] => .error []
  | token :: rest =>
    match token.kind, rest with
    | .returnWord, _ => parseReturn steps token rest
    | .name, next :: later =>
      match next.kind with
      | .name => parseDefinition steps token next later
      | .equals => parseAssignment steps token next later
      | _ => parseExpressionStatement steps (token :: rest)
    | _, _ => parseExpressionStatement steps (token :: rest)

mutual

/-- A statement. -/
def parseStatement : Nat → List Token → Except (List Token) (Node × List Token)
  | 0, tokens => .error tokens
  | _ + 1, [] => .error []
  | steps + 1, token :: rest =>
    match token.kind with
    | .ifWord => do
      let (first, rest) ← parseGuarded steps .ifClause [token] rest
      let (others, rest) ← parseClauses steps rest
      return (.ofClauses (first :: others), rest)
    | .whileWord => parseGuarded steps .whileLoop [token] rest
    | _ => parseSimple steps (token :: rest)

/-- The further clauses of a chain. The one without a condition ends it. -/
def parseClauses : Nat → List Token → Except (List Token) ((List Node) × List Token)
  | 0, tokens => .error tokens
  | _ + 1, [] => .ok ([], [])
  | steps + 1, token :: rest =>
    if token.kind = .elseWord then
      match rest with
      | [] => .error []
      | next :: later =>
        if next.kind = .ifWord then do
          let (clause, later) ← parseGuarded steps .elseIfClause [token, next] later
          let (others, later) ← parseClauses steps later
          return (clause :: others, later)
        else do
          let ((left, body, right), later) ← parseBlock steps (next :: later)
          return ([.ofBlock .elseClause [token, left, right] none body], later)
    else .ok ([], token :: rest)

/-- A condition and a block behind the given words. -/
def parseGuarded : Nat → Kind → List Token → List Token → Except (List Token) (Node × List Token)
  | 0, _, _, tokens => .error tokens
  | steps + 1, kind, words, tokens => do
    let ((left, condition, right), rest) ← parseCondition steps tokens
    let ((opening, body, closing), rest) ← parseBlock steps rest
    return (.ofBlock kind (words ++ [left, right, opening, closing]) (some condition) body, rest)

/-- Statements in braces, with the braces. -/
def parseBlock : Nat → List Token → Except (List Token) ((Token × List Node × Token) × List Token)
  | 0, tokens => .error tokens
  | steps + 1, tokens => do
    let (opening, rest) ← expect .leftBrace tokens
    let (body, rest) ← parseStatements steps rest
    let (closing, rest) ← expect .rightBrace rest
    return ((opening, body, closing), rest)

/-- Statements up to a closing brace or the end. -/
def parseStatements : Nat → List Token → Except (List Token) ((List Node) × List Token)
  | 0, tokens => .error tokens
  | _ + 1, [] => .ok ([], [])
  | steps + 1, token :: rest =>
    if token.kind = .rightBrace then .ok ([], token :: rest)
    else do
      let (first, rest) ← parseStatement steps (token :: rest)
      let (others, rest) ← parseStatements steps rest
      return (first :: others, rest)

end

/-- The steps that suffice for the given words. Between two words that are taken there are at most
seven steps. -/
def stepsFor (tokens : List Token) : Nat :=
  8 * (tokens.length + 1)

end Verbatim
