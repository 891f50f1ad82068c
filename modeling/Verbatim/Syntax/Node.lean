import Verbatim.Syntax.Gaps

/-!
# Nodes as values

A node with everything below it, as one value. Trees that are edited keep their nodes in a store;
what is written, drawn as raw value or compared is such a value.

## Main definitions

* `Node`: a kind, attributes, an optional condition, children and gaps
* `Node.render`: the node's text, by its layout
* `Node.toJson`: the raw value of a node in a tree
* `Node.toRaw`: the raw value of a freshly parsed node, with its fields in reading order

## Implementation notes

The text of a node is put together from the texts of its condition and its children, each of which
may have failed. `Part.pieces` lays them out in order, so the first failure in reading order is the
one reported.
-/

namespace Verbatim

/-- A node and everything below it. -/
inductive Node where
  | mk (kind : Kind) (attributes : List (String × Json)) (condition : Option Node)
    (children : List Node) (gaps : Gaps)

/-- Why a node has no text. -/
inductive RenderError where
  | missingAttribute (kind : Kind) (name : String)
  | missingCondition (kind : Kind)
  | missingChild (kind : Kind) (index : Nat)
  deriving DecidableEq, Repr

/-- The text of the error. -/
def RenderError.message : RenderError → String
  | .missingAttribute kind name => s!"{kind.tag} has no '{name}' to render"
  | .missingCondition kind => s!"{kind.tag} has no condition to render"
  | .missingChild kind index => s!"{kind.tag} is missing child {index}"

/-- The kind of the node without a text. -/
def RenderError.kind : RenderError → Kind
  | .missingAttribute kind _ | .missingCondition kind | .missingChild kind _ => kind

/-- The field that is missing. -/
def RenderError.field : RenderError → String
  | .missingAttribute _ name => name
  | .missingCondition _ => "condition"
  | .missingChild _ _ => "children"

/-! ### Laying out one node -/

namespace Part

/-- The comma before a child, and the gap behind it. The first child has none. -/
def separatorPieces (separator : Option (String × Nat)) (gapText : Nat → String) :
    Nat → List (Except RenderError String)
  | 0 => []
  | place + 1 =>
    match separator with
    | some (comma, base) => [.ok comma, .ok (gapText (base + place))]
    | none => []

/-- The texts that one part of a layout stands for. -/
def pieces (kind : Kind) (attributes : List (String × Json)) (gapText : Nat → String)
    (condition : Option (Except RenderError String))
    (children : List (Except RenderError String)) : Part → List (Except RenderError String)
  | .word text => [.ok text]
  | .gap index => [.ok (gapText index)]
  | .attribute name =>
    match attributes.lookup name with
    | none | some .null => [.error (.missingAttribute kind name)]
    | some value => [.ok value.plainText]
  | .condition => [condition.getD (.error (.missingCondition kind))]
  | .child index => [(children[index]?).getD (.error (.missingChild kind index))]
  | .children separator =>
    (children.zipIdx.map fun (text, place) =>
      separatorPieces separator gapText place ++ [text]).flatten

end Part

/-- All texts in a row, or the first failure. -/
def joinPieces : List (Except RenderError String) → Except RenderError String
  | [] => .ok ""
  | .error e :: _ => .error e
  | .ok text :: rest => (joinPieces rest).map (text ++ ·)

/-- The text of a node of the given kind, from the texts of what is below it. -/
def Kind.assemble (kind : Kind) (attributes : List (String × Json)) (gaps : Gaps)
    (condition : Option (Except RenderError String))
    (children : List (Except RenderError String)) : Except RenderError String :=
  let gapText (index : Nat) : String := (gaps.text? kind.layout index).getD ""
  joinPieces <|
    kind.layout.parts.flatMap (Part.pieces kind attributes gapText condition children)

/-! ### Whole nodes -/

namespace Node

/-- The node's kind. -/
def kind : Node → Kind
  | mk kind .. => kind

/-- The node's attributes by name. -/
def attributes : Node → List (String × Json)
  | mk _ attributes .. => attributes

/-- The node's condition. -/
def condition : Node → Option Node
  | mk _ _ condition .. => condition

/-- The node's children in order. -/
def children : Node → List Node
  | mk _ _ _ children _ => children

/-- The node's own gap texts. -/
def gaps : Node → Gaps
  | mk _ _ _ _ gaps => gaps

/-- The value of an attribute that is there and not null. -/
def attribute? (node : Node) (name : String) : Option Json :=
  match node.attributes.lookup name with
  | some .null => none
  | found => found

mutual

/-- The text of the node. -/
def render : Node → Except RenderError String
  | mk kind attributes none children gaps =>
    kind.assemble attributes gaps none (renderAll children)
  | mk kind attributes (some condition) children gaps =>
    kind.assemble attributes gaps (some (render condition)) (renderAll children)

/-- The text of each node. -/
def renderAll : List Node → List (Except RenderError String)
  | [] => []
  | node :: rest => render node :: renderAll rest

end

/-- The attributes of the kind among the given ones, in the kind's order. -/
def ownFields (kind : Kind) (attributes : List (String × Json)) : List (String × Json) :=
  kind.attributes.filterMap fun name => (attributes.lookup name).map (name, ·)

/-- The fields of children and gaps, each left out when empty. -/
def bodyFields (children : List Json) (gaps : Gaps) : List (String × Json) :=
  (if children.isEmpty then [] else [("children", .array children)])
    ++ (if gaps.isEmpty then [] else [("ws", gaps.toJson)])

mutual

/-- The raw value of the node. Children and gaps are left out where there are none. -/
def toJson : Node → Json
  | mk kind attributes none children gaps =>
    .object (("type", .text kind.wireTag) :: ownFields kind attributes
      ++ bodyFields (toJsonAll children) gaps)
  | mk kind attributes (some condition) children gaps =>
    .object (("type", .text kind.wireTag) :: ownFields kind attributes
      ++ bodyFields (toJsonAll children) gaps ++ [("condition", toJson condition)])

/-- The raw value of each node. -/
def toJsonAll : List Node → List Json
  | [] => []
  | node :: rest => toJson node :: toJsonAll rest

end

/-- The fields of children and gaps of a parsed node: children unless the kind has none ever, gaps
unless its layout has none. -/
def rawBodyFields (kind : Kind) (children : List Json) (gaps : Gaps) : List (String × Json) :=
  (if kind.maxChildren = some 0 then [] else [("children", .array children)])
    ++ (if kind.layout.defaults.isEmpty then [] else [("ws", gaps.toJson)])

mutual

/-- The raw value of a parsed node. Its fields come in reading order, and a node that can have
children or gaps has the field even when it is empty. -/
def toRaw : Node → Json
  | mk kind attributes none children gaps =>
    .object (("type", .text kind.wireTag) :: attributes
      ++ rawBodyFields kind (toRawAll children) gaps)
  | mk kind attributes (some condition) children gaps =>
    .object (("type", .text kind.wireTag) :: ("condition", toRaw condition) :: attributes
      ++ rawBodyFields kind (toRawAll children) gaps)

/-- The raw value of each parsed node. -/
def toRawAll : List Node → List Json
  | [] => []
  | node :: rest => toRaw node :: toRawAll rest

end

end Node

end Verbatim
