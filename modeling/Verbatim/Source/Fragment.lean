import Verbatim.Source.Parser
import Verbatim.Text.Blank
import Verbatim.Text.Quoted

/-!
# Fragments

A text can be read as a whole unit, as one statement or as one expression.

## Main definitions

* `Start`, `parse`: what a text is read as, and its node
* `ParseError`: the first word or character that cannot go on
* `Fragment`: a text to be read, with the blanks around expressions and statements dropped
-/

namespace Verbatim

/-- What a text is read as. -/
inductive Start where
  | unit
  | statement
  | expression
  deriving DecidableEq, Repr

/-- The name in error messages. -/
def Start.title : Start → String
  | .unit => "compilation unit"
  | .statement => "statement fragment"
  | .expression => "expression fragment"

/-- What can stand first. -/
def Start.expectation : Start → Expectation
  | .unit | .statement => .statement
  | .expression => .operand

/-- What cannot go on. The end of the text is reported at its last word. -/
inductive Unexpected where
  | token (word : Token)
  | ending (place : Place)
  | character (c : Char) (place : Place)
  deriving DecidableEq, Repr

/-- Where that is. -/
def Unexpected.place : Unexpected → Place
  | .token word => word.place
  | .ending place | .character _ place => place

/-- A text that is not what it was read as. -/
structure ParseError where
  start : Start
  text : String
  cause : Unexpected
  deriving DecidableEq, Repr

/-- The text of the error. -/
def ParseError.message (e : ParseError) : String :=
  let place := e.cause.place
  let unexpected (title text : String) : String :=
    s!"Unexpected token Token({Text.quoted title}, {Text.quoted text}) " ++
      s!"at line {place.line}, column {place.column}."
  s!"Invalid {e.start.title}: " ++
    match e.cause with
    | .token word => unexpected word.kind.title word.text
    | .ending _ => unexpected "$END" ""
    | .character c _ =>
      s!"No terminal matches '{c}' in the current parser context, " ++
        s!"at line {place.line} col {place.column}"

/-- The node that the words make up, and the words behind it. -/
def Start.parseTokens (start : Start) (lexed : Lexed) :
    Except (List Token) (Node × List Token) :=
  let steps := stepsFor lexed.tokens
  match start with
  | .unit => do
    let (statements, rest) ← parseStatements steps lexed.tokens
    return (.mk .compilationUnit [] none statements [(0, lexed.leading)], rest)
  | .statement => parseStatement steps lexed.tokens
  | .expression => parseExpression steps 0 lexed.tokens

/-- What is unexpected when the words from some point on cannot go on. -/
def Lexed.unexpected (lexed : Lexed) : List Token → Unexpected
  | token :: _ => .token token
  | [] =>
    match lexed.stuck with
    | some (c, place) => .character c place
    | none => .ending ((lexed.tokens.getLast?.map Token.place).getD .start)

/-- Read a text. -/
def parse (start : Start) (text : String) : Except ParseError Node :=
  let lexed := lex start.expectation text
  match start.parseTokens lexed with
  | .ok (node, []) =>
    if lexed.stuck.isNone then .ok node else .error ⟨start, text, lexed.unexpected []⟩
  | .ok (_, rest) | .error rest => .error ⟨start, text, lexed.unexpected rest⟩

/-- A text with what it is to be read as. -/
structure Fragment where
  source : String
  start : Start
  deriving DecidableEq, Repr

namespace Fragment

/-- An expression without the blanks around it. -/
def expression (text : String) : Fragment :=
  ⟨Text.strip text, .expression⟩

/-- A statement without the blanks around it. -/
def statement (text : String) : Fragment :=
  ⟨Text.strip text, .statement⟩

/-- A whole unit, kept as it is. -/
def unit (text : String) : Fragment :=
  ⟨text, .unit⟩

/-- Read the fragment. -/
def parse (fragment : Fragment) : Except ParseError Node :=
  Verbatim.parse fragment.start fragment.source

end Fragment

/-- Read a whole unit. -/
def parseUnit (text : String) : Except ParseError Node :=
  (Fragment.unit text).parse

end Verbatim
