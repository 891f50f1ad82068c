import Verbatim.Source.Fragment

/-!
# What a tree must keep

A tree's text reads back as the tree only if attributes are words of the grammar, operands need no
brackets that are not there, and the clauses of a chain come in order. These are the checks that
keep it so; each gives the problem it finds, or nothing.

## Main definitions

* `attributeProblem?`: an attribute that is no word of its kind
* `Kind.strength?`, `operandProblem?`: an operand that binds too loosely for its place
* `clauseOrderProblem?`: a chain that does not start with its first clause, or goes on after its
  last
* `isConnectorDefinition`: the raw definitions that create a connector

## Implementation notes

Operators associate to the left. So the left operand may bind as loosely as its operator, and the
right one must bind tighter.
-/

namespace Verbatim

/-! ### Attributes -/

/-- The binary operators with their strengths. -/
def binaryStrengths : List (String × Nat) :=
  [("||", 1), ("&&", 2), ("==", 3), ("!=", 3), ("<", 4), ("<=", 4), (">", 4), (">=", 4), ("+", 5),
    ("-", 5), ("*", 6), ("/", 6), ("%", 6)]

/-- The strength of unary operators. -/
def unaryStrength : Nat := 7

/-- The strength of expressions that no operator can take apart. -/
def primaryStrength : Nat := 8

/-- The unary operators. -/
def unaryOperators : List String := ["!", "-"]

/-- The words that are no names. -/
def reservedWords : List String := ["if", "else", "while", "return", "create", "true", "false"]

/-- The attributes that hold names. -/
def nameAttributes : List String :=
  ["variable_name", "type_name", "function_name", "connector_name"]

/-- Whether the text is a name: a letter or underscore, then letters, digits and underscores, and no
reserved word. -/
def isName (text : String) : Bool :=
  match text.toList with
  | [] => false
  | c :: rest => isNameStart c && rest.all isNameChar && !reservedWords.contains text

/-- Whether the text reads as one literal and nothing else, with no blank text around. -/
def isLiteral (text : String) : Bool :=
  match parse .expression text with
  | .ok (.mk .literal attributes _ _ gaps) =>
    attributes.lookup "value" == some (.text text) && gaps.get? 0 == some ""
  | _ => false

/-- An attribute that is no word of its kind. -/
inductive AttributeProblem where
  | notText (kind : Kind) (name : String) (value : Json)
  | notOperator (kind : Kind) (value : String)
  | notName (kind : Kind) (name : String) (value : String)
  | notLiteral (value : String)
  | emptyType (kind : Kind)

/-- The text of the problem. -/
def AttributeProblem.message : AttributeProblem → String
  | .notText kind name value => s!"{kind.tag}.{name} must be a string, got {value.typeName}"
  | .notOperator kind value => s!"{Text.quoted value} is not a {kind.tag} operator"
  | .notName kind name value => s!"{Text.quoted value} is not a valid name for {kind.tag}.{name}"
  | .notLiteral value => s!"{Text.quoted value} is not a literal"
  | .emptyType kind => s!"{kind.tag}.literal_type must not be empty"

/-- Whether the text is an operator of the kind. -/
def isOperator (kind : Kind) (text : String) : Bool :=
  if kind = .unary then unaryOperators.contains text else (binaryStrengths.lookup text).isSome

/-- The problem with a value for an attribute, if there is one. -/
def attributeProblem? (kind : Kind) (name : String) : Json → Option AttributeProblem
  | .text value =>
    if name = "operator" then
      if isOperator kind value then none else some (.notOperator kind value)
    else if nameAttributes.contains name then
      if isName value then none else some (.notName kind name value)
    else if name = "value" then
      if isLiteral value then none else some (.notLiteral value)
    else if name = "literal_type" then
      if value = "" then some (.emptyType kind) else none
    else none
  | value => some (.notText kind name value)

/-! ### Arrangement -/

/-- How tightly an expression binds. A binary one without an operator of the grammar has no strength
yet, and the creation of a connector is never an operand. -/
def Kind.strength? (kind : Kind) (operator : Option String) : Option Nat :=
  match kind with
  | .binary => operator.bind fun text => binaryStrengths.lookup text
  | .unary => some unaryStrength
  | .connectorCreation => some 0
  | _ => some primaryStrength

/-- Where an operand stands. -/
inductive OperandSide where
  | left
  | right
  | only
  deriving DecidableEq, Repr

/-- The name of the side in messages. -/
def OperandSide.name : OperandSide → String
  | .left => "left"
  | .right => "right"
  | .only => "operand"

/-- Children that do not go together. -/
inductive ArrangementProblem where
  /-- The child of this kind and operator binds too loosely for its side of the operator. -/
  | looseOperand (child : Kind) (childOperator parentOperator : Option String) (side : OperandSide)
  /-- The clauses of a chain are out of order. -/
  | clauseOrder (kinds : List Kind)
  deriving DecidableEq, Repr

/-- The text of the problem. -/
def ArrangementProblem.message : ArrangementProblem → String
  | .looseOperand child childOperator parentOperator side =>
    let shown := match childOperator with
      | none | some "" => ""
      | some operator => s!"'{operator}' "
    let operator := parentOperator.getD "None"
    s!"{child.tag} {shown}binds looser than '{operator}' in {side.name} position; " ++
      "wrap it in a BracketedExpr"
  | .clauseOrder kinds =>
    "IfElseStatement clauses out of order: " ++ ", ".intercalate (kinds.map Kind.tag)

/-- The side of the operand at a place, and the strength it needs there. -/
def neededStrength? (parent : Kind) (operator : Option String) (position : Int) :
    Option (OperandSide × Nat) :=
  match parent with
  | .binary =>
    (Kind.strength? .binary operator).map fun own =>
      if position = 0 then (.left, own) else (.right, own + 1)
  | .unary => some (.only, unaryStrength)
  | _ => none

/-- The problem with an operand at a place, if there is one. -/
def operandProblem? (parent : Kind) (parentOperator : Option String) (position : Int)
    (child : Kind) (childOperator : Option String) : Option ArrangementProblem :=
  match neededStrength? parent parentOperator position, child.strength? childOperator with
  | some (side, needed), some own =>
    if needed ≤ own then none else some (.looseOperand child childOperator parentOperator side)
  | _, _ => none

/-- Whether a clause of the kind can stand at the position in a chain of the given length. -/
def clauseFits (length position : Nat) (kind : Kind) : Bool :=
  if position = 0 then kind = .ifClause
  else if kind = .elseClause then position + 1 = length
  else kind = .elseIfClause

/-- The problem with the order of clauses, if there is one. No clauses are in order. -/
def clauseOrderProblem? (kinds : List Kind) : Option ArrangementProblem :=
  if kinds.zipIdx.all fun (kind, position) => clauseFits kinds.length position kind then none
  else some (.clauseOrder kinds)

/-! ### Connectors -/

/-- Whether a raw node is a definition that creates a connector. Its tag is that of all definitions;
the second child tells. -/
def isConnectorDefinition (raw : Json) : Bool :=
  match raw.get? "type", raw.get? "children" with
  | some (.text tag), some (.array (_ :: second :: _)) =>
    tag == Kind.definition.tag &&
      match second.get? "type" with
      | some (.text tag) => tag == Kind.connectorCreation.tag
      | _ => false
  | _, _ => false

end Verbatim
