/-!
# Kinds of nodes

Every node of a syntax tree has one of nineteen kinds. A kind fixes the *tag* under which the node
appears in raw trees and in node names, and the *category* by which a parent decides whether it
takes the node as a child.

## Main definitions

* `Kind`, `Kind.tag`, `Kind.ofTag?`: the kinds and their tags
* `Category`, `Kind.category`: what a node is for its parent

## Main results

* `Kind.ofTag?_tag`, `Kind.eq_tag_of_ofTag?`: reading a tag and writing it are inverse, so two
  kinds never share a tag
-/

namespace Verbatim

/-- What a node is made for: the whole text, a statement, a clause of an if/else chain, the
declaring half of a definition, or an expression. -/
inductive Category where
  | unit
  | statement
  | clause
  | declaration
  | expression
  deriving DecidableEq, Repr

/-- The category's name in messages. -/
def Category.name : Category → String
  | .unit => "unit"
  | .statement => "statement"
  | .clause => "clause"
  | .declaration => "declaration"
  | .expression => "expression"

/-- The kinds of nodes, in the order of the grammar. -/
inductive Kind where
  | compilationUnit
  | ifElse
  | ifClause
  | elseIfClause
  | elseClause
  | whileLoop
  | assignment
  | definition
  | connectorDefinition
  | returnStatement
  | expressionStatement
  | declaration
  | binary
  | unary
  | literal
  | reference
  | call
  | bracketed
  | connectorCreation
  deriving DecidableEq, Repr

namespace Kind

/-- Every kind, once. -/
def all : List Kind :=
  [.compilationUnit, .ifElse, .ifClause, .elseIfClause, .elseClause, .whileLoop, .assignment,
    .definition, .connectorDefinition, .returnStatement, .expressionStatement, .declaration,
    .binary, .unary, .literal, .reference, .call, .bracketed, .connectorCreation]

/-- The kind's tag. It also names the node: the third node made in a tree, if it is a clause, is
`IfStatement:3`. -/
def tag : Kind → String
  | .compilationUnit => "CompilationUnit"
  | .ifElse => "IfElseStatement"
  | .ifClause => "IfStatement"
  | .elseIfClause => "ElseIfStatement"
  | .elseClause => "ElseStatement"
  | .whileLoop => "WhileStatement"
  | .assignment => "AssignmentStatement"
  | .definition => "variable_definition_statement"
  | .connectorDefinition => "ConnectorDeclaration"
  | .returnStatement => "ReturnStatement"
  | .expressionStatement => "ExpressionStatement"
  | .declaration => "VariableDeclaration"
  | .binary => "BinaryExpr"
  | .unary => "UnaryExpr"
  | .literal => "BasicLiteralExpr"
  | .reference => "VariableReferenceExpr"
  | .call => "FunctionInvocationExpr"
  | .bracketed => "BracketedExpr"
  | .connectorCreation => "connector_init_expr"

/-- The kind with the given tag. -/
def ofTag? (text : String) : Option Kind :=
  all.find? (fun kind => kind.tag == text)

theorem mem_all (kind : Kind) : kind ∈ all := by
  cases kind <;> decide

/-- **Reading a written tag.** -/
theorem ofTag?_tag (kind : Kind) : ofTag? kind.tag = some kind := by
  cases kind <;> decide

/-- Only its own tag is read as a kind. -/
theorem eq_tag_of_ofTag? {text : String} {kind : Kind} (h : ofTag? text = some kind) :
    kind.tag = text := by
  simpa using List.find?_some h

/-- What nodes of this kind are for their parents. -/
def category : Kind → Category
  | .compilationUnit => .unit
  | .ifElse | .whileLoop | .assignment | .definition | .connectorDefinition | .returnStatement
  | .expressionStatement => .statement
  | .ifClause | .elseIfClause | .elseClause => .clause
  | .declaration => .declaration
  | .binary | .unary | .literal | .reference | .call | .bracketed | .connectorCreation =>
    .expression

/-- Whether nodes of this kind have a slot for a condition. -/
def hasCondition : Kind → Bool
  | .ifClause | .elseIfClause | .whileLoop => true
  | _ => false

end Kind

end Verbatim
