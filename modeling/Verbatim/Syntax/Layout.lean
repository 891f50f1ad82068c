import Verbatim.Syntax.Kind

/-!
# Layouts

How a node of each kind is written. A *layout* is a row of parts: fixed words, attribute values,
the condition, children, and *gaps*. A gap is the blank text (spaces, line ends, comments) that
follows one of the node's own words; it has a number in the node, and a default text that is used
when the node carries none of its own.

Lists of children can be separated by commas. The gap after the first comma has a base number, the
next comma's gap the number after it, and so on, so such a layout has no last gap.

## Main definitions

* `Part`, `Layout`, `Kind.layout`: how each kind is written
* `Layout.acceptsGap`, `Layout.defaultGap?`: which gap numbers a layout knows, and their defaults
* `Kind.attributes`, `Kind.accepts`, `Kind.minChildren`, `Kind.maxChildren`: what a node of the
  kind carries
-/

namespace Verbatim

/-- One part of a layout. -/
inductive Part where
  /-- A keyword or punctuation. -/
  | word (text : String)
  /-- The value of an attribute. -/
  | attribute (name : String)
  /-- The blank text with this number. -/
  | gap (index : Nat)
  /-- The condition. -/
  | condition
  /-- The child at this place. -/
  | child (index : Nat)
  /-- All children; with `some (comma, base)` the `i`-th comma is followed by gap `base + i`. -/
  | children (separator : Option (String × Nat))
  deriving DecidableEq, Repr

/-- How nodes of one kind are written: the parts in order, and the default texts of the gaps that
are not behind commas. -/
structure Layout where
  parts : List Part
  defaults : List (Nat × String)
  deriving DecidableEq, Repr

namespace Layout

/-- The default text of a gap behind a comma. -/
def separatorDefault : String := " "

/-- The number of the gap behind the first comma, if the layout has commas. -/
def separatorBase? (layout : Layout) : Option Nat :=
  layout.parts.findSome? fun
    | .children (some (_, base)) => some base
    | _ => none

/-- The default text of a gap, `none` for a number that is no gap of the layout. -/
def defaultGap? (layout : Layout) (index : Int) : Option String :=
  match layout.defaults.find? (fun entry => (entry.1 : Int) == index) with
  | some entry => some entry.2
  | none =>
    match layout.separatorBase? with
    | some base => if (base : Int) ≤ index then some separatorDefault else none
    | none => none

/-- Whether the number is a gap of the layout. -/
def acceptsGap (layout : Layout) (index : Int) : Bool :=
  (layout.defaultGap? index).isSome

/-- Only natural numbers are gaps. -/
theorem nonneg_of_acceptsGap {layout : Layout} {index : Int} (h : layout.acceptsGap index) :
    0 ≤ index := by
  unfold acceptsGap defaultGap? at h
  split at h
  · next entry found =>
    have := List.find?_some found
    simp only [beq_iff_eq] at this
    omega
  · split at h
    · split at h
      · omega
      · simp at h
    · simp at h

end Layout

namespace Kind

/-- Assignments and definitions are written alike: two children around an equals sign. -/
def pairLayout : Layout where
  parts := [.child 0, .word "=", .gap 0, .child 1, .word ";", .gap 1]
  defaults := [(0, " "), (1, "\n")]

/-- How nodes of this kind are written. -/
def layout : Kind → Layout
  | .compilationUnit => ⟨[.gap 0, .children none], [(0, "")]⟩
  | .ifElse => ⟨[.children none], []⟩
  | .ifClause =>
    ⟨[.word "if", .gap 0, .word "(", .gap 1, .condition, .word ")", .gap 2, .word "\x7b", .gap 3,
        .children none, .word "\x7d", .gap 4],
      [(0, " "), (1, ""), (2, " "), (3, "\n"), (4, " ")]⟩
  | .elseIfClause =>
    ⟨[.word "else", .gap 0, .word "if", .gap 1, .word "(", .gap 2, .condition, .word ")", .gap 3,
        .word "\x7b", .gap 4, .children none, .word "\x7d", .gap 5],
      [(0, " "), (1, " "), (2, ""), (3, " "), (4, "\n"), (5, " ")]⟩
  | .elseClause =>
    ⟨[.word "else", .gap 0, .word "\x7b", .gap 1, .children none, .word "\x7d", .gap 2],
      [(0, " "), (1, "\n"), (2, "\n")]⟩
  | .whileLoop =>
    ⟨[.word "while", .gap 0, .word "(", .gap 1, .condition, .word ")", .gap 2, .word "\x7b", .gap 3,
        .children none, .word "\x7d", .gap 4],
      [(0, " "), (1, ""), (2, " "), (3, "\n"), (4, "\n")]⟩
  | .assignment | .definition | .connectorDefinition => pairLayout
  | .returnStatement =>
    ⟨[.word "return", .gap 0, .children (some (",", 2)), .word ";", .gap 1], [(0, " "), (1, "\n")]⟩
  | .expressionStatement => ⟨[.child 0, .word ";", .gap 0], [(0, "\n")]⟩
  | .declaration =>
    ⟨[.attribute "type_name", .gap 0, .attribute "variable_name", .gap 1], [(0, " "), (1, " ")]⟩
  | .binary => ⟨[.child 0, .attribute "operator", .gap 0, .child 1], [(0, " ")]⟩
  | .unary => ⟨[.attribute "operator", .gap 0, .child 0], [(0, "")]⟩
  | .literal => ⟨[.attribute "value", .gap 0], [(0, "")]⟩
  | .reference => ⟨[.attribute "variable_name", .gap 0], [(0, "")]⟩
  | .call =>
    ⟨[.attribute "function_name", .gap 0, .word "(", .gap 1, .children (some (",", 3)), .word ")",
        .gap 2],
      [(0, ""), (1, ""), (2, "")]⟩
  | .bracketed => ⟨[.word "(", .gap 0, .child 0, .word ")", .gap 1], [(0, ""), (1, "")]⟩
  | .connectorCreation =>
    ⟨[.word "create", .gap 0, .attribute "connector_name", .gap 1, .word "(", .gap 2,
        .children (some (",", 4)), .word ")", .gap 3],
      [(0, " "), (1, ""), (2, ""), (3, "")]⟩

/-- The attributes a node of this kind must carry, in the order in which they are written. -/
def attributes : Kind → List String
  | .declaration => ["type_name", "variable_name"]
  | .binary | .unary => ["operator"]
  | .literal => ["literal_type", "value"]
  | .reference => ["variable_name"]
  | .call => ["function_name"]
  | .connectorCreation => ["connector_name"]
  | _ => []

/-- The categories of children a node of this kind takes. -/
def accepts : Kind → List Category
  | .compilationUnit | .ifClause | .elseIfClause | .elseClause | .whileLoop => [.statement]
  | .ifElse => [.clause]
  | .definition | .connectorDefinition => [.declaration, .expression]
  | .assignment | .returnStatement | .expressionStatement | .binary | .unary | .call | .bracketed
  | .connectorCreation => [.expression]
  | .declaration | .literal | .reference => []

/-- The least number of children. -/
def minChildren : Kind → Nat
  | .assignment | .definition | .connectorDefinition | .binary => 2
  | .ifElse | .expressionStatement | .unary | .bracketed => 1
  | _ => 0

/-- The greatest number of children, if there is one. -/
def maxChildren : Kind → Option Nat
  | .assignment | .definition | .connectorDefinition | .binary => some 2
  | .expressionStatement | .unary | .bracketed => some 1
  | .declaration | .literal | .reference => some 0
  | _ => none

/-- The tag written into raw trees. A connector definition shares it with plain definitions: its
second child alone tells the two apart. -/
def wireTag : Kind → String
  | .connectorDefinition => Kind.definition.tag
  | kind => kind.tag

end Kind

end Verbatim
