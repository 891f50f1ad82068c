import Verbatim.Proofs.Build.Trail
import Verbatim.Proofs.ConditionText

/-!
# Programs behind one another

Two programs make up one program whose statements are those of the first one and then those of the
second. Nothing else changes, except that the blank text in front of the second program now stands
behind the last word of the first. This needs that no comment is open there. The second program cannot
begin with `else` and go on with a chain, since it is a program on its own: an `else` at the start is
a name there, and reserved words are refused as names.

## Main definitions

* `Node.append`: a node with the children of another one behind its own

## Main results

* `parse_append`: **what is read of two texts behind one another**
* `Tree.ofSource_append`: **the tree of two programs behind one another**
-/

namespace Verbatim

/-! ### Names are no `else` -/

namespace Part

variable {property : Lexeme → Prop} {attributes : List (String × Json)} {gapText : Nat → String}
  {condition : List Lexeme} {children : List (List Lexeme)}

theorem forall_sequenceLexemes (fixed : ∀ text gap, property ⟨.ofText text, text, gap⟩)
    (below : ∀ words ∈ children, ∀ word ∈ words, property word) (separator : Option (String × Nat))
    (place : Nat) : ∀ word ∈ sequenceLexemes separator gapText place children, property word := by
  induction children generalizing place with
  | nil => exact fun word member => absurd member List.not_mem_nil
  | cons words rest ih =>
    intro word member
    rw [sequenceLexemes, List.append_assoc, List.mem_append, List.mem_append] at member
    rcases member with comma | own | later
    · unfold separatorLexemes at comma
      split at comma
      · exact absurd comma List.not_mem_nil
      · split at comma
        · rw [List.mem_singleton.1 comma]
          exact fixed _ _
        · exact absurd comma List.not_mem_nil
    · exact below words List.mem_cons_self word own
    · exact ih (fun words member => below words (List.mem_cons_of_mem _ member)) _ word later

/-- Words are fixed ones, attributes, or below. -/
theorem forall_lexemes (fixed : ∀ text gap, property ⟨.ofText text, text, gap⟩)
    (own : ∀ name gap, property (attributeLexeme attributes name gap))
    (inner : ∀ word ∈ condition, property word)
    (below : ∀ words ∈ children, ∀ word ∈ words, property word) (parts : List Part) :
    ∀ word ∈ lexemes attributes gapText condition children parts, property word := by
  fun_induction lexemes attributes gapText condition children parts with
  | case1 text index rest ih => exact List.forall_mem_cons.2 ⟨fixed _ _, ih⟩
  | case2 name index rest ih => exact List.forall_mem_cons.2 ⟨own _ _, ih⟩
  | case3 rest ih => exact List.forall_mem_append.2 ⟨inner, ih⟩
  | case4 index rest ih =>
    refine List.forall_mem_append.2 ⟨fun word member => ?_, ih⟩
    cases found : children[index]? with
    | none => simp [List.getD_eq_getElem?_getD, found] at member
    | some words =>
      rw [List.getD_eq_getElem?_getD, found] at member
      exact below words (List.mem_of_getElem? found) word member
  | case5 separator rest ih =>
    exact List.forall_mem_append.2 ⟨forall_sequenceLexemes fixed below separator 0, ih⟩
  | case6 part rest hword hattribute hcondition hchild hchildren ih => exact ih
  | case7 => exact fun word member => absurd member List.not_mem_nil

end Part

namespace Node

/-- No name of a node that can be built is `else`. -/
theorem ne_else_of_loadable {node : Node} (h : node.All Loadable) :
    ∀ word ∈ node.lexemes, word.kind = .name → word.text ≠ "else" := by
  induction h with
  | @mk node here _ _ condition children =>
    rw [lexemes_eq]
    refine Part.forall_lexemes (fun text gap isName same => ?_) (fun name gap isName same => ?_)
      (fun word member => ?_) (fun words member => ?_) _
    · obtain rfl : text = "else" := same
      exact absurd (show TokenKind.ofText "else" = .name from isName) (by decide)
    · rw [attributeLexeme] at isName same
      cases found : node.attributes.lookup name with
      | none => simp [found] at same
      | some value =>
        simp only [found, Option.map_some, Option.getD_some] at isName same
        by_cases named : nameAttributes.contains name
        · have good := here.attributes _ (mem_of_lookup found)
          cases value with
          | text text =>
            obtain rfl : text = "else" := same
            exact absurd (isName_of_good named good) (by decide)
          | _ => exact absurd good (Option.some_ne_none _)
        · rw [same, attributeWordKind, if_neg named] at isName
          exact absurd isName (by decide)
    · cases inner : node.condition with
      | none => simp [inner] at member
      | some below =>
        rw [inner] at member
        exact condition below inner word member
    · obtain ⟨child, inside, rfl⟩ := List.mem_map.1 member
      exact children child inside

/-! ### Two units -/

/-- The node with the children of another one behind its own. -/
def append (first second : Node) : Node :=
  first.withChildren (first.children ++ second.children)

theorem loadable_append {first second : Node} (h : first.All Loadable) (h' : second.All Loadable) :
    (first.append second).All Loadable := by
  obtain ⟨here, condition, children⟩ := h
  obtain ⟨-, -, others⟩ := h'
  rw [append, withChildren_eq]
  exact .mk ⟨here.attributes, here.gaps⟩ condition
    fun child member => (List.mem_append.1 member).elim (children child) (others child)

theorem settle_append (first second : Node) :
    (first.append second).settle false = (first.settle false).append (second.settle false) := by
  rw [append, append, withChildren_eq, withChildren_eq, settle_eq, settle_eq false first,
    settle_eq false second]
  show mk (settledKind false first.kind _) _ _ ((first.children ++ second.children).map _) _ =
    mk (settledKind false first.kind _) _ _ _ _
  rw [settledKind_false, settledKind_false, List.map_append]
  rfl

theorem append_ofStatements (leading : String) (statements : List Node) (second : Node) :
    (ofStatements leading statements).append second =
      ofStatements leading (statements ++ second.children) :=
  rfl

theorem trail_ofStatements_nil (leading more : String) :
    (ofStatements leading []).trail more = ofStatements (leading ++ more) [] := by
  rw [trail_nil rfl rfl]
  rfl

theorem trail_ofStatements_concat (leading more : String) (front : List Node) (last : Node) :
    (ofStatements leading (front ++ [last])).trail more =
      ofStatements leading (front ++ [last.trail more]) :=
  trail_concat rfl rfl

end Node

/-- **What is read of two texts behind one another**, where no comment is open between them. -/
theorem parse_append {text more : String} {first second : Node}
    (read : parse .unit text = .ok first) (readMore : parse .unit more = .ok second)
    (loadable : second.All Node.Loadable) (closed : endsInComment text = false) :
    parse .unit (text ++ more) = .ok ((first.trail (blankFront more)).append second) := by
  obtain ⟨statements, rfl, holds⟩ := parse_unit_iff.1 read
  obtain ⟨others, rfl, holdsMore⟩ := parse_unit_iff.1 readMore
  have noElse := Node.ne_else_of_loadable loadable
  rw [Node.lexemes_ofStatements, ← holdsMore.words] at noElse
  rcases statements.eq_nil_or_concat with rfl | ⟨front, last, rfl⟩
  · have joined := lex_append_blank (List.map_eq_nil_iff.1 holds.words) holds.finished closed
      holdsMore.finished
    rw [Node.trail_ofStatements_nil, Node.append_ofStatements]
    exact parse_unit_iff.2 ⟨others, by rw [joined.leading]; rfl,
      joined.words.trans holdsMore.words, joined.finished, holdsMore.statements⟩
  · rw [List.concat_eq_append] at holds ⊢
    obtain ⟨grammatical, isStatement⟩ := holds.statements last (by simp)
    have trails := grammatical.trails (.inl isStatement.1) (blankFront more)
    obtain ⟨before, closing, gap, closes, words, extended⟩ := trails.words
    have row : (lex .statement text).tokens.map Token.lexeme =
        (front.flatMap Node.lexemes ++ before) ++ [closing.lexeme gap] := by
      rw [holds.words, List.flatMap_append, List.flatMap_singleton, words, List.append_assoc]
    have joined := lex_append holds.finished row closes closed holdsMore.finished
      fun word member => noElse word (List.mem_of_mem_head? member)
    rw [Node.trail_ofStatements_concat, Node.append_ofStatements]
    refine parse_unit_iff.2 ⟨front ++ [last.trail (blankFront more)] ++ others,
      by rw [joined.leading]; rfl, ?_, joined.finished, fun statement member => ?_⟩
    · rw [joined.words, holdsMore.words]
      simp [extended]
    · rcases List.mem_append.1 member with own | behind
      · rcases List.mem_append.1 own with before | same
        · exact holds.statements statement (List.mem_append_left _ before)
        · rw [List.mem_singleton.1 same]
          exact ⟨trails.grammatical, trails.isStatement isStatement⟩
      · exact holdsMore.statements statement behind

namespace Node

/-- Two units behind one another are nested no deeper than each of them. -/
theorem nesting_append {first second : Node} {text more blank : String}
    (read : parse .unit text = .ok first) (readMore : parse .unit more = .ok second)
    (joined : parse .unit (text ++ more) = .ok ((first.trail blank).append second)) :
    ((first.trail blank).append second).toRaw.nesting =
      max first.toRaw.nesting second.toRaw.nesting := by
  obtain ⟨statements, rfl, holds⟩ := parse_unit_iff.1 read
  obtain ⟨others, rfl, -⟩ := parse_unit_iff.1 readMore
  have nesting (leading : String) (all : List Node)
      (h : (ofStatements leading all).Grammatical) :
      (ofStatements leading all).toRaw.nesting = 1 + Json.itemsNesting (all.map toRaw) := by
    rw [nesting_toRaw h.parsed.here]
    exact congrArg (1 + ·) (Nat.zero_max _)
  have grammatical := parse_grammatical joined
  rw [nesting _ _ (parse_grammatical read), nesting _ _ (parse_grammatical readMore),
    Nat.add_max_add_left, ← Json.itemsNesting_append]
  rcases statements.eq_nil_or_concat with rfl | ⟨front, last, rfl⟩
  · rw [trail_ofStatements_nil, append_ofStatements] at grammatical ⊢
    exact nesting _ _ grammatical
  · rw [List.concat_eq_append] at holds ⊢
    rw [List.concat_eq_append, trail_ofStatements_concat, append_ofStatements] at grammatical
    obtain ⟨own, isStatement⟩ := holds.statements last (by simp)
    have same := (own.trails (.inl isStatement.1) blank).nesting
    rw [trail_ofStatements_concat, append_ofStatements, nesting _ _ grammatical]
    simp [Json.itemsNesting_append, Json.itemsNesting, same, ofStatements, Node.children]

end Node

namespace Tree

variable {label : String} {settings : Settings} {text more : String}

/-- Which texts have a tree, and what it is. -/
theorem ofSource_eq_ok {tree : Tree} : ofSource label settings text = .ok tree ↔
    ∃ node, parse .unit text = .ok node ∧ node.All Node.Loadable ∧
      node.toRaw.nesting ≤ settings.maxDepth ∧
        tree = { ((empty label settings).plant (node.settle false)).1 with
          root := some ((empty label settings).plant (node.settle false)).2 } := by
  constructor
  · intro read
    obtain ⟨node, parsed, built⟩ := bind_eq_ok.1 read
    have parsed := mapError_eq_ok.1 parsed
    obtain ⟨deep, planted, made, rfl⟩ := ofRaw_eq_ok.1 (mapError_eq_ok.1 built)
    obtain ⟨rfl, loadable⟩ := (Node.ofRaw_of_grammatical (parse_grammatical parsed)).1 made
    exact ⟨node, parsed, loadable, deep, rfl⟩
  · rintro ⟨node, parsed, loadable, deep, rfl⟩
    have made : Node.ofRaw settings.strictStructure false node.toRaw = .ok (node.settle false) :=
      (Node.ofRaw_of_grammatical (parse_grammatical parsed)).2 ⟨rfl, loadable⟩
    exact bind_eq_ok.2 ⟨node, mapError_eq_ok.2 parsed, mapError_eq_ok.2
      (ofRaw_eq_ok.2 ⟨deep, _, made, rfl⟩)⟩

/-- A tree's root looks like what was read, with connector definitions told apart. -/
theorem view_of_plant (node : Node) {tree : Tree} (same : tree =
    { ((empty label settings).plant node).1 with
      root := some ((empty label settings).plant node).2 }) :
    ∃ root, tree.root = some root ∧ tree.view root = node := by
  subst same
  refine ⟨_, rfl, Eq.trans (Matches.view ?_ _) (view_plant (empty label settings) node)⟩
  exact matches_of_cells rfl

/-- **The tree of two programs behind one another** has the statements of the first one and then those
of the second. The blank text in front of the second program goes behind the last word of the first
one, and the trees are equal otherwise. No comment may be open behind the first program. -/
theorem ofSource_append {first second : String} {one two : Tree}
    (read : ofSource first settings text = .ok one)
    (readMore : ofSource second settings more = .ok two) (closed : endsInComment text = false)
    (label : String) : ∃ tree root top other, ofSource label settings (text ++ more) = .ok tree ∧
      tree.root = some root ∧ one.root = some top ∧ two.root = some other ∧
        tree.view root = ((one.view top).trail (blankFront more)).append (two.view other) := by
  obtain ⟨node, parsed, loadable, deep, made⟩ := ofSource_eq_ok.1 read
  obtain ⟨next, parsedMore, loadableMore, deepMore, madeMore⟩ := ofSource_eq_ok.1 readMore
  obtain ⟨top, isTop, view⟩ := view_of_plant _ made
  obtain ⟨other, isOther, viewMore⟩ := view_of_plant _ madeMore
  have joined := parse_append parsed parsedMore loadableMore closed
  have nesting := Node.nesting_append parsed parsedMore joined
  obtain ⟨tree, build⟩ : ∃ tree, tree = { ((empty label settings).plant
      (((node.trail (blankFront more)).append next).settle false)).1 with
    root := some ((empty label settings).plant
      (((node.trail (blankFront more)).append next).settle false)).2 } := ⟨_, rfl⟩
  have loads : ofSource label settings (text ++ more) = .ok tree :=
    ofSource_eq_ok.2 ⟨_, joined, Node.loadable_append (Node.loadable_trail loadable _) loadableMore,
      nesting ▸ Nat.max_le.2 ⟨deep, deepMore⟩, build⟩
  obtain ⟨root, isRoot, looks⟩ := view_of_plant _ build
  refine ⟨tree, root, top, other, loads, isRoot, isTop, isOther, looks.trans ?_⟩
  rw [view, viewMore, Node.settle_append, Node.settle_trail]

/-- The comment in front of the second program goes behind the clause that ends the first one. -/
theorem ofSource_append_chain : ∃ one two, ofSource "s" {} "if(x){}" = .ok one ∧
    ofSource "t" {} "// c\nx;" = .ok two ∧ endsInComment "if(x){}" = false ∧
      ∃ tree root top other, ofSource "u" {} ("if(x){}" ++ "// c\nx;") = .ok tree ∧
        tree.root = some root ∧ one.root = some top ∧ two.root = some other ∧
          tree.view root =
            ((one.view top).trail (blankFront "// c\nx;")).append (two.view other) := by
  let name : Node := .mk .reference [("variable_name", .text "x")] none [] [(0, "")]
  let chain : Node := .mk .compilationUnit [] none
    [.mk .ifElse [] none [.mk .ifClause [] (some name) []
      [(0, ""), (1, ""), (2, ""), (3, ""), (4, "")]] []] [(0, "")]
  let statement : Node := .mk .compilationUnit [] none
    [.mk .expressionStatement [] none [name] [(0, "")]] [(0, "// c\n")]
  obtain ⟨one, made⟩ : ∃ one, one = { ((empty "s" {}).plant chain).1 with
    root := some ((empty "s" {}).plant chain).2 } := ⟨_, rfl⟩
  obtain ⟨two, madeToo⟩ : ∃ two, two = { ((empty "t" {}).plant statement).1 with
    root := some ((empty "t" {}).plant statement).2 } := ⟨_, rfl⟩
  have read : ofSource "s" {} "if(x){}" = .ok one := by
    rw [made]
    cbv
  have readMore : ofSource "t" {} "// c\nx;" = .ok two := by
    rw [madeToo]
    cbv
  have closed : endsInComment "if(x){}" = false := by cbv
  exact ⟨one, two, read, readMore, closed, ofSource_append read readMore closed "u"⟩

end Tree

end Verbatim
