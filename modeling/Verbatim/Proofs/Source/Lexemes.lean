import Verbatim.Proofs.Source.Spelling
import Verbatim.Syntax.Rules

/-!
# The words of a node

A node stands for a row of words, and the blank text behind each word is one of the node's gaps.
The text of a node is the text of its words, wherever the node has all that its layout asks for.

## Main definitions

* `Node.lexemes`: the words of a node and everything below it
* `Node.All`: a property of a node and everything below it
* `Node.Complete`: the node has what its layout asks for

## Main results

* `Node.render_eq_written`: the text of a complete node is the text of its words
-/

namespace Verbatim

/-! ### Gaps of a node -/

namespace Node

/-- The text of a gap, the node's own or the default one. -/
def gapText (kind : Kind) (gaps : Gaps) (index : Nat) : String :=
  (gaps.text? kind.layout index).getD ""

theorem gapText_of_get? {kind : Kind} {gaps : Gaps} {index : Nat} {text : String}
    (h : gaps.get? index = some text) : gapText kind gaps index = text := by
  change ((gaps.get? index).or (kind.layout.defaultGap? index)).getD "" = text
  rw [h]
  rfl

theorem gapText_of_get?_none {kind : Kind} {gaps : Gaps} {index : Nat}
    (h : gaps.get? index = none) :
    gapText kind gaps index = (kind.layout.defaultGap? index).getD "" := by
  change ((gaps.get? index).or (kind.layout.defaultGap? index)).getD "" = _
  rw [h]
  rfl

end Node

/-! ### Words from parts -/

/-- The kind of word that an attribute is written as. -/
def attributeWordKind (name value : String) : TokenKind :=
  if nameAttributes.contains name then .name else .ofText value

/-- The word that an attribute is written as. -/
def attributeLexeme (attributes : List (String × Json)) (name gap : String) : Lexeme :=
  let value := ((attributes.lookup name).map Json.plainText).getD ""
  ⟨attributeWordKind name value, value, gap⟩

namespace Part

/-- The comma before a child. The first child has none. -/
def separatorLexemes (separator : Option (String × Nat)) (gapText : Nat → String) :
    Nat → List Lexeme
  | 0 => []
  | place + 1 =>
    match separator with
    | some (comma, base) => [⟨.ofText comma, comma, gapText (base + place)⟩]
    | none => []

/-- The words of children from a place on, with the commas between them. -/
def sequenceLexemes (separator : Option (String × Nat)) (gapText : Nat → String) :
    Nat → List (List Lexeme) → List Lexeme
  | _, [] => []
  | place, words :: rest =>
    separatorLexemes separator gapText place ++ words
      ++ sequenceLexemes separator gapText (place + 1) rest

/-- The words of a row of parts. A gap belongs to the word in front of it. -/
def lexemes (attributes : List (String × Json)) (gapText : Nat → String)
    (condition : List Lexeme) (children : List (List Lexeme)) : List Part → List Lexeme
  | .word text :: .gap index :: rest =>
    ⟨.ofText text, text, gapText index⟩ :: lexemes attributes gapText condition children rest
  | .attribute name :: .gap index :: rest =>
    attributeLexeme attributes name (gapText index)
      :: lexemes attributes gapText condition children rest
  | .condition :: rest => condition ++ lexemes attributes gapText condition children rest
  | .child index :: rest =>
    children.getD index [] ++ lexemes attributes gapText condition children rest
  | .children separator :: rest =>
    sequenceLexemes separator gapText 0 children
      ++ lexemes attributes gapText condition children rest
  | _ :: rest => lexemes attributes gapText condition children rest
  | [] => []

/-- Whether a row of parts can be written: every word has a gap behind it, and attributes, condition
and children are there. -/
def Writable (attributes : List (String × Json)) (condition : Bool) (children : Nat) :
    List Part → Prop
  | .word _ :: .gap _ :: rest => Writable attributes condition children rest
  | .attribute name :: .gap _ :: rest =>
    (∃ text, attributes.lookup name = some (.text text)) ∧
      Writable attributes condition children rest
  | .condition :: rest => condition ∧ Writable attributes condition children rest
  | .child index :: rest => index < children ∧ Writable attributes condition children rest
  | .children _ :: rest => Writable attributes condition children rest
  | [] => True
  | _ => False

end Part

/-! ### Words of nodes -/

namespace Node

mutual

/-- The words of a node and everything below it. -/
def lexemes : Node → List Lexeme
  | mk kind attributes none children gaps =>
    Part.lexemes attributes (gapText kind gaps) [] (lexemesAll children) kind.layout.parts
  | mk kind attributes (some condition) children gaps =>
    Part.lexemes attributes (gapText kind gaps) (lexemes condition) (lexemesAll children)
      kind.layout.parts

/-- The words of each node. -/
def lexemesAll : List Node → List (List Lexeme)
  | [] => []
  | node :: rest => lexemes node :: lexemesAll rest

end

theorem lexemesAll_eq_map (nodes : List Node) : lexemesAll nodes = nodes.map lexemes := by
  induction nodes with
  | nil => rfl
  | cons node rest ih => rw [lexemesAll, ih, List.map_cons]

theorem renderAll_eq_map (nodes : List Node) : renderAll nodes = nodes.map render := by
  induction nodes with
  | nil => rfl
  | cons node rest ih => rw [renderAll, ih, List.map_cons]

theorem lexemes_eq (node : Node) :
    node.lexemes = Part.lexemes node.attributes (gapText node.kind node.gaps)
      ((node.condition.map lexemes).getD []) (node.children.map lexemes)
      node.kind.layout.parts := by
  rcases node with ⟨kind, attributes, _ | condition, children, gaps⟩ <;>
    rw [lexemes, lexemesAll_eq_map] <;> rfl

theorem gapText_congr {kind other : Kind} {gaps : Gaps} (layout : other.layout = kind.layout) :
    gapText other gaps = gapText kind gaps := by
  funext index
  rw [gapText, gapText, layout]

/-- Nodes with the same layout, attributes and gaps have the same words if those below them do. -/
theorem lexemes_congr {node other : Node} (layout : other.kind.layout = node.kind.layout)
    (attributes : other.attributes = node.attributes) (gaps : other.gaps = node.gaps)
    (condition : other.condition.map lexemes = node.condition.map lexemes)
    (children : other.children.map lexemes = node.children.map lexemes) :
    other.lexemes = node.lexemes := by
  rw [lexemes_eq, lexemes_eq node, attributes, gaps, condition, children, gapText_congr layout, layout]

theorem render_eq (node : Node) :
    node.render = node.kind.assemble node.attributes node.gaps (node.condition.map render)
      (node.children.map render) := by
  rcases node with ⟨kind, attributes, _ | condition, children, gaps⟩ <;>
    rw [render, renderAll_eq_map] <;> rfl

/-- A node and everything below it have a property. -/
inductive All (property : Node → Prop) : Node → Prop
  | mk {node : Node} (here : property node)
    (condition : ∀ below ∈ node.condition, All property below)
    (children : ∀ below ∈ node.children, All property below) : All property node

theorem All.here {property : Node → Prop} {node : Node} (h : node.All property) :
    property node := by
  obtain ⟨own, -, -⟩ := h
  exact own

theorem All.and {first second : Node → Prop} {node : Node} (h : node.All first)
    (h' : node.All second) : node.All fun below => first below ∧ second below := by
  induction h with
  | mk here _ _ condition children =>
    obtain ⟨own, inner, each⟩ := h'
    exact .mk ⟨here, own⟩ (fun below member => condition below member (inner below member))
      (fun below member => children below member (each below member))

theorem All.imp {first second : Node → Prop} (imp : ∀ node, first node → second node) {node : Node}
    (h : node.All first) : node.All second := by
  induction h with
  | mk here _ _ condition children => exact .mk (imp _ here) condition children

mutual

theorem all_true : ∀ node : Node, node.All fun _ => True
  | mk _ _ none children _ =>
    .mk trivial (fun _ member => absurd member (Option.not_mem_none _)) (allItems_true children)
  | mk _ _ (some condition) children _ =>
    .mk trivial (fun _ member => Option.some.inj member ▸ all_true condition)
      (allItems_true children)

theorem allItems_true : ∀ nodes : List Node, ∀ node ∈ nodes, node.All fun _ => True
  | [], _, member => absurd member List.not_mem_nil
  | first :: rest, node, member =>
    (List.mem_cons.1 member).elim (fun same => same ▸ all_true first) (allItems_true rest node)

end

/-- Induction from what stands below a node to the node. -/
@[elab_as_elim]
theorem inductionOn {motive : Node → Prop} (node : Node)
    (step : ∀ node : Node, (∀ below ∈ node.condition, motive below) →
      (∀ below ∈ node.children, motive below) → motive node) : motive node := by
  have all := node.all_true
  induction all with
  | mk _ _ _ condition children => exact step _ condition children

/-- The node has what its layout asks for. No unit stands below it. -/
structure Complete (node : Node) : Prop where
  attributes : ∀ name ∈ node.kind.attributes, ∃ text,
    node.attributes.lookup name = some (.text text)
  condition : node.kind.hasCondition → node.condition.isSome
  arity : node.kind.minChildren ≤ node.children.length
  noUnit : ∀ below, below ∈ node.condition ∨ below ∈ node.children →
    below.kind ≠ .compilationUnit

end Node

/-! ### Joining texts -/

theorem joinPieces_append {first : List (Except RenderError String)} {text : String}
    (h : joinPieces first = .ok text) (second : List (Except RenderError String)) :
    joinPieces (first ++ second) = (joinPieces second).map (text ++ ·) := by
  induction first generalizing text with
  | nil =>
    obtain rfl : text = "" := (Except.ok.inj h).symm
    cases e : joinPieces second <;> simp [e, Except.map]
  | cons piece rest ih =>
    cases piece with
    | error e => simp [joinPieces] at h
    | ok front =>
      rw [joinPieces] at h
      cases found : joinPieces rest with
      | error e => simp [found, Except.map] at h
      | ok back =>
        obtain rfl : front ++ back = text := by simpa [found, Except.map] using h
        rw [List.cons_append, joinPieces, ih found]
        cases joinPieces second <;> simp [Except.map, String.append_assoc]

theorem joinPieces_append_ok {first second : List (Except RenderError String)}
    {front back : String} (hfirst : joinPieces first = .ok front)
    (hsecond : joinPieces second = .ok back) :
    joinPieces (first ++ second) = .ok (front ++ back) := by
  rw [joinPieces_append hfirst, hsecond]
  rfl

theorem joinPieces_singleton (text : String) : joinPieces [.ok text] = .ok text := by
  simp [joinPieces, Except.map]

namespace Part

theorem joinPieces_separator (separator : Option (String × Nat)) (gapText : Nat → String)
    (place : Nat) :
    joinPieces (separatorPieces separator gapText place) =
      .ok (written (separatorLexemes separator gapText place)) := by
  rcases place with _ | place
  · rfl
  · rcases separator with _ | ⟨comma, base⟩
    · rfl
    · simp [separatorPieces, separatorLexemes, joinPieces, Except.map]

theorem joinPieces_sequence (separator : Option (String × Nat)) (gapText : Nat → String)
    (children : List (List Lexeme)) (place : Nat) :
    joinPieces
        (((children.map fun words => Except.ok (written words)).zipIdx place).map
          fun (text, place) => separatorPieces separator gapText place ++ [text]).flatten =
      .ok (written (sequenceLexemes separator gapText place children)) := by
  induction children generalizing place with
  | nil => rfl
  | cons words rest ih =>
    simp only [List.map_cons, List.zipIdx_cons, List.flatten_cons, sequenceLexemes, written_append]
    exact joinPieces_append_ok (joinPieces_append_ok (joinPieces_separator separator gapText place)
      (joinPieces_singleton _)) (ih (place + 1))

/-- The pieces of a row of parts join to the text of its words. -/
theorem joinPieces_pieces (kind : Kind) (attributes : List (String × Json)) (gapText : Nat → String)
    (condition : Option (List Lexeme)) (children : List (List Lexeme)) (parts : List Part)
    (h : Writable attributes condition.isSome children.length parts) :
    joinPieces (parts.flatMap (pieces kind attributes gapText
        (condition.map fun words => .ok (written words))
        (children.map fun words => .ok (written words)))) =
      .ok (written (lexemes attributes gapText (condition.getD []) children parts)) := by
  fun_induction lexemes attributes gapText (condition.getD []) children parts with
  | case1 text index rest ih =>
    simp only [List.flatMap_cons, ← List.append_assoc]
    refine joinPieces_append_ok ?_ (ih h)
    simp [pieces, joinPieces, Except.map]
  | case2 name index rest ih =>
    obtain ⟨⟨text, found⟩, h⟩ := h
    simp only [List.flatMap_cons, ← List.append_assoc]
    refine joinPieces_append_ok ?_ (ih h)
    simp [pieces, attributeLexeme, found, joinPieces, Except.map, Json.plainText]
  | case3 rest ih =>
    obtain ⟨present, h⟩ := h
    obtain ⟨words, rfl⟩ := Option.isSome_iff_exists.1 present
    rw [List.flatMap_cons, written_append]
    exact joinPieces_append_ok (joinPieces_singleton _) (ih h)
  | case4 index rest ih =>
    obtain ⟨small, h⟩ := h
    rw [List.flatMap_cons, written_append]
    refine joinPieces_append_ok ?_ (ih h)
    simp [pieces, small, joinPieces_singleton]
  | case5 separator rest ih =>
    rw [List.flatMap_cons, written_append]
    exact joinPieces_append_ok (joinPieces_sequence separator gapText children 0) (ih h)
  | case6 part rest hword hattribute hcondition hchild hchildren ih =>
    unfold Writable at h
    grind
  | case7 => rfl

end Part

namespace Kind

/-- The parts of a layout can be written where a node has what the layout asks for. A unit starts
with a gap of its own, in front of all words. -/
theorem writable_parts {kind : Kind} {attributes : List (String × Json)} {condition : Bool}
    {children : Nat}
    (hattributes : ∀ name ∈ kind.attributes, ∃ text, attributes.lookup name = some (.text text))
    (hcondition : kind.hasCondition → condition) (harity : kind.minChildren ≤ children)
    (unit : kind ≠ .compilationUnit) :
    Part.Writable attributes condition children kind.layout.parts := by
  cases kind <;>
    simp_all [layout, pairLayout, Part.Writable, Kind.attributes, hasCondition, minChildren] <;>
    omega

end Kind

namespace Node

/-- The blank text in front of the first word: only a unit has one. -/
def leading (node : Node) : String :=
  if node.kind = .compilationUnit then gapText node.kind node.gaps 0 else ""

theorem render_of_complete {node : Node} (h : node.Complete)
    (condition : ∀ below ∈ node.condition, below.render = .ok (written below.lexemes))
    (children : ∀ below ∈ node.children, below.render = .ok (written below.lexemes)) :
    node.render = .ok (node.leading ++ written node.lexemes) := by
  have hcondition : node.condition.map render =
      (node.condition.map lexemes).map fun words => .ok (written words) := by
    rw [Option.map_map]
    exact Option.map_congr condition
  have hchildren : node.children.map render =
      (node.children.map lexemes).map fun words => .ok (written words) := by
    rw [List.map_map]
    exact List.map_congr_left children
  rw [render_eq, lexemes_eq, Kind.assemble, hcondition, hchildren]
  by_cases unit : node.kind = .compilationUnit
  · have parts : node.kind.layout.parts = [.gap 0, .children none] := by
      rw [unit]
      rfl
    rw [leading, if_pos unit, parts, List.flatMap_cons]
    exact joinPieces_append_ok (joinPieces_singleton _)
      (Part.joinPieces_pieces _ _ _ _ _ [.children none] trivial)
  · have writable := @Kind.writable_parts _ _ (node.condition.map lexemes).isSome
      (node.children.map lexemes).length h.attributes
      (by simpa using h.condition) (by simpa using h.arity) unit
    rw [leading, if_neg unit, String.empty_append]
    exact Part.joinPieces_pieces _ _ _ _ _ _ writable

/-- **The text of a complete node is the text of its words.** -/
theorem render_eq_written {node : Node} (h : node.All Complete) :
    node.render = .ok (node.leading ++ written node.lexemes) := by
  induction h with
  | mk here _ _ condition children =>
    refine render_of_complete here (fun below member => ?_) fun below member => ?_
    · rw [condition below member, leading, if_neg (here.noUnit below (.inl member)),
        String.empty_append]
    · rw [children below member, leading, if_neg (here.noUnit below (.inr member)),
        String.empty_append]

end Node

end Verbatim
