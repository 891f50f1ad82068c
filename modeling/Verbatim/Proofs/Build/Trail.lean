import Verbatim.Proofs.Build.Depth
import Verbatim.Proofs.Build.JsonForm
import Verbatim.Proofs.Source.Joining
import Verbatim.Proofs.Tree.Around

/-!
# Text behind a node

Text behind a node goes to the gap behind its last word. Most nodes end with a word of their own; a
chain of clauses ends with its last clause, and an operation with its last operand. A unit has no word
of its own: without statements the gap in front is all that it has.

## Main definitions

* `Kind.closingGap?`: the gap at the end of a node, unless a child stands there
* `Node.trail`: a node with text appended to the gap behind its last word
* `Node.Trails`: what this changes at a statement

## Main results

* `Node.Grammatical.trails`: **the last word of a statement takes the text behind it**
* `Node.settle_trail`, `Node.loadable_trail`: the statement is built as before
-/

namespace Verbatim

/-! ### The gap behind the last word -/

/-- The gap at the end of a node of this kind, `none` if a child stands there. -/
def Kind.closingGap? (kind : Kind) : Option Nat :=
  match kind.layout.parts.getLast? with
  | some (.gap index) => some index
  | _ => none

theorem Kind.closingGap?_lt {kind : Kind} {index : Nat} (h : kind.closingGap? = some index) :
    index < 10 ^ Text.digitLimit := by
  have small : index < 10 := by
    cases kind <;> simp_all [closingGap?, layout, pairLayout] <;> omega
  exact Nat.lt_of_lt_of_le small (Nat.le_self_pow (by decide) 10)

namespace Node

/-- The node with text appended to one of its gaps. -/
def extendGap (more : String) (index : Nat) (node : Node) : Node :=
  .mk node.kind node.attributes node.condition node.children
    (node.gaps.set index (gapText node.kind node.gaps index ++ more))

mutual

/-- The node with text appended to the gap behind its last word. A node that ends with a child passes
the text on, and a unit without statements has the gap in front alone. -/
def trail (more : String) : Node → Node
  | mk kind attributes condition children gaps =>
    match kind.closingGap?, children with
    | some index, children => extendGap more index (mk kind attributes condition children gaps)
    | none, [] => extendGap more 0 (mk kind attributes condition [] gaps)
    | none, first :: rest => mk kind attributes condition (trailLast more (first :: rest)) gaps

/-- The nodes with text appended behind the last word. -/
def trailLast (more : String) : List Node → List Node
  | [] => []
  | [node] => [trail more node]
  | node :: next :: rest => node :: trailLast more (next :: rest)

end

variable {node : Node} {more : String} {index : Nat}

theorem withChildren_eq (others : List Node) (node : Node) :
    node.withChildren others = mk node.kind node.attributes node.condition others node.gaps := by
  cases node
  rfl

theorem trailLast_concat (more : String) (front : List Node) (last : Node) :
    trailLast more (front ++ [last]) = front ++ [last.trail more] := by
  induction front with
  | nil => rw [List.nil_append, trailLast, List.nil_append]
  | cons node front ih =>
    obtain ⟨next, rest, same⟩ := List.exists_cons_of_ne_nil (l := front ++ [last]) (by simp)
    rw [List.cons_append, same, trailLast, ← same, ih, List.cons_append]

theorem trail_closing (closing : node.kind.closingGap? = some index) :
    node.trail more = node.extendGap more index := by
  obtain ⟨kind, attributes, condition, children, gaps⟩ := node
  change kind.closingGap? = some index at closing
  unfold trail
  rw [closing]

theorem trail_nil (passes : node.kind.closingGap? = none) (alone : node.children = []) :
    node.trail more = node.extendGap more 0 := by
  obtain ⟨kind, attributes, condition, children, gaps⟩ := node
  obtain rfl : children = [] := alone
  change kind.closingGap? = none at passes
  unfold trail
  rw [passes]

theorem trail_concat {front : List Node} {last : Node} (passes : node.kind.closingGap? = none)
    (ends : node.children = front ++ [last]) :
    node.trail more = node.withChildren (front ++ [last.trail more]) := by
  obtain ⟨kind, attributes, condition, children, gaps⟩ := node
  obtain rfl : children = front ++ [last] := ends
  change kind.closingGap? = none at passes
  obtain ⟨next, rest, same⟩ := List.exists_cons_of_ne_nil (l := front ++ [last]) (by simp)
  rw [← trailLast_concat, same, withChildren]
  unfold trail
  rw [passes]

/-- Text behind a node goes to a gap of its own, or to its last child. -/
theorem trail_cases (more : String) (node : Node) :
    (∃ index, index < 10 ^ Text.digitLimit ∧ node.trail more = node.extendGap more index ∧
        ∀ other : Node, other.kind.closingGap? = node.kind.closingGap? →
          other.children.length = node.children.length →
            other.trail more = other.extendGap more index) ∨
      ∃ front last, node.kind.closingGap? = none ∧ node.children = front ++ [last] ∧
        node.trail more = node.withChildren (front ++ [last.trail more]) := by
  cases closing : node.kind.closingGap? with
  | some index =>
    exact .inl ⟨index, Kind.closingGap?_lt closing, trail_closing closing,
      fun other same _ => trail_closing same⟩
  | none =>
    rcases node.children.eq_nil_or_concat with alone | ⟨front, last, ends⟩
    · refine .inl ⟨0, Nat.pow_pos (by decide), trail_nil closing alone, fun other same length => ?_⟩
      rw [alone] at length
      exact trail_nil same (List.eq_nil_of_length_eq_zero length)
    · rw [List.concat_eq_append] at ends
      exact .inr ⟨front, last, rfl, ends, trail_concat closing ends⟩

/-- A node stays good for a build. -/
theorem loadable_trail (h : node.All Loadable) (more : String) : (node.trail more).All Loadable := by
  induction h with
  | @mk node here condition children _ ihChildren =>
    rcases trail_cases more node with ⟨index, small, same, -⟩ | ⟨front, last, -, ends, same⟩
    · rw [same]
      refine .mk ⟨here.attributes, fun entry member => ?_⟩ condition children
      rcases Gaps.mem_set member with rfl | before
      · exact small
      · exact here.gaps entry before
    · obtain ⟨kind, attributes, inner, nodes, gaps⟩ := node
      obtain rfl : nodes = front ++ [last] := ends
      rw [same]
      refine .mk ⟨here.attributes, here.gaps⟩ condition fun child member => ?_
      rcases List.mem_append.1 member with before | behind
      · exact children child (List.mem_append_left _ before)
      · obtain rfl := List.mem_singleton.1 behind
        exact ihChildren last (List.mem_append_right _ List.mem_cons_self)

theorem closingGap?_settledKind (asChild : Bool) (kind : Kind) (children : List Node) :
    (settledKind asChild kind children).closingGap? = kind.closingGap? := by
  rw [Kind.closingGap?, layout_settledKind, Kind.closingGap?]

theorem settledKind_of_passes {asChild : Bool} {kind : Kind} {children : List Node}
    (passes : kind.closingGap? = none) : settledKind asChild kind children = kind := by
  have other : kind ≠ .definition := by
    rintro rfl
    exact absurd passes (by decide)
  rw [settledKind, if_neg fun same => other same.2.1]

/-- Telling connector definitions apart changes nothing behind the last word. -/
theorem settle_trail (more : String) (asChild : Bool) (node : Node) :
    (node.trail more).settle asChild = (node.settle asChild).trail more := by
  induction node using inductionOn generalizing asChild with
  | step node _ children =>
    have settled := kind_settle asChild node
    rcases trail_cases more node with ⟨index, -, same, others⟩ | ⟨front, last, passes, ends, same⟩
    · rw [same, others (node.settle asChild)]
      · rw [settle_eq, settle_eq asChild node, extendGap, extendGap]
        simp only [Node.kind, Node.attributes, Node.condition, Node.children, Node.gaps]
        rw [gapText_congr (layout_settledKind asChild _ _)]
      · rw [settled, closingGap?_settledKind]
      · rw [settle_eq]
        exact List.length_map _
    · have passesToo : (node.settle asChild).kind.closingGap? = none := by
        rw [settled, closingGap?_settledKind, passes]
      have endsToo : (node.settle asChild).children =
          front.map (settle true) ++ [last.settle true] := by
        rw [settle_eq]
        show node.children.map _ = _
        rw [ends, List.map_append, List.map_singleton]
      have below := children last (by rw [ends]; simp) true
      rw [same, trail_concat passesToo endsToo, ← below, withChildren_eq, withChildren_eq, settle_eq,
        settle_eq asChild node]
      show mk (settledKind asChild node.kind (front ++ [last.trail more])) _ _ _ _ =
        mk (settledKind asChild node.kind node.children) _ _ _ _
      rw [settledKind_of_passes passes, settledKind_of_passes passes]
      exact congrArg (mk node.kind node.attributes _ · node.gaps) List.map_append

/-! ### How deep raw nodes are nested -/

variable {node : Node} {more : String} {index : Nat}

/-- What is nested in a raw node is what stands below it. -/
theorem inner_toRaw (h : node.Parsed) :
    node.toRaw.inner = node.condition.toList.map toRaw ++ node.children.map toRaw := by
  have condition : node.toRaw.present? "condition" = node.condition.map toRaw := by
    rw [toRaw_eq, Json.present?, Json.get?, lookup_condition h]
    cases node.condition with
    | none => rfl
    | some below => rw [Option.map_some, toRaw_eq]
  have children : node.toRaw.get? "children" = none ∧ node.children = [] ∨
      node.toRaw.get? "children" = some (.array (node.children.map toRaw)) := by
    have listed := lookup_children h
    rw [toRaw_eq, Json.get?]
    split at listed
    · next leaf =>
      exact .inl ⟨listed, List.eq_nil_of_length_eq_zero (Nat.le_zero.1 (h.count.2 0 leaf))⟩
    · exact .inr listed
  rw [Json.inner, condition]
  obtain ⟨none, empty⟩ | some := children
  · rw [none, empty]
    cases node.condition <;> rfl
  · rw [some]
    cases node.condition <;> rfl

/-- A raw node is nested as deep as what stands below it. -/
theorem nesting_toRaw (h : node.Parsed) : node.toRaw.nesting =
    1 + max (Json.itemsNesting (node.condition.toList.map toRaw))
      (Json.itemsNesting (node.children.map toRaw)) := by
  rw [Json.nesting_eq, inner_toRaw h, Json.itemsNesting_append]

/-! ### Statements with text behind them -/

/-- What text behind a statement or clause changes: the last word has it in its gap. -/
structure Trails (more : String) (node : Node) : Prop where
  kind : (node.trail more).kind = node.kind
  grammatical : (node.trail more).Grammatical
  words : ∃ before closing gap, TokenKind.closes closing ∧
    node.lexemes = before ++ [closing.lexeme gap] ∧
      (node.trail more).lexemes = before ++ [closing.lexeme (gap ++ more)]
  nesting : (node.trail more).toRaw.nesting = node.toRaw.nesting

theorem Trails.isStatement {node : Node} {more : String} (h : node.Trails more)
    (isStatement : node.IsStatement) : (node.trail more).IsStatement := by
  rwa [IsStatement, h.kind]

end Node

/-- The word with text appended to its gap. -/
def Token.trail (more : String) (token : Token) : Token :=
  { token with gap := token.gap ++ more }

namespace Node

variable {node other : Node} {more : String} {index : Nat}

theorem Trails.of_closing (before : List Lexeme) (kind : TokenKind) (gap : String)
    (h : node.Grammatical) (closing : node.kind.closingGap? = some index)
    (same : node.trail more = other) (grammatical : other.Grammatical) (closes : kind.closes)
    (words : node.lexemes = before ++ [kind.lexeme gap])
    (others : other.lexemes = before ++ [kind.lexeme (gap ++ more)]) : node.Trails more := by
  have extended : other = node.extendGap more index := same.symm.trans (trail_closing closing)
  subst same
  refine ⟨by rw [extended]; rfl, grammatical, ⟨before, kind, gap, closes, words, others⟩, ?_⟩
  rw [nesting_toRaw grammatical.parsed.here, nesting_toRaw h.parsed.here, extended]
  rfl

theorem set_numberGaps_last (first : Nat) (texts : List String) (last text : String) :
    Gaps.set (numberGaps first (texts ++ [last])) (first + texts.length) text =
      numberGaps first (texts ++ [text]) := by
  induction texts generalizing first with
  | nil => exact if_pos rfl
  | cons front rest ih =>
    have step (texts : List String) :
        numberGaps first (front :: texts) = (first, front) :: numberGaps (first + 1) texts := rfl
    have next : first + (front :: rest).length = first + 1 + rest.length := by
      rw [List.length_cons]
      omega
    rw [List.cons_append, step, next, Gaps.set, if_neg (by omega), if_neg (by omega), ih,
      List.cons_append, step]

/-- A node whose gaps are numbered, and the last of them is behind its last word. -/
theorem trail_numbered {kind : Kind} {attributes : List (String × Json)} {condition : Option Node}
    {children : List Node} (texts : List String) {last : String}
    (closing : kind.closingGap? = some texts.length) :
    (mk kind attributes condition children (numberGaps 0 (texts ++ [last]))).trail more =
      mk kind attributes condition children (numberGaps 0 (texts ++ [last ++ more])) := by
  have old : gapText kind (numberGaps 0 (texts ++ [last])) texts.length = last :=
    gapText_numberGaps List.getElem?_concat_length
  have set := set_numberGaps_last 0 texts last (last ++ more)
  rw [Nat.zero_add] at set
  have here : (mk kind attributes condition children
      (numberGaps 0 (texts ++ [last]))).kind.closingGap? = some texts.length := closing
  rw [trail_closing here]
  show mk kind _ _ _ (Gaps.set (numberGaps 0 (texts ++ [last])) texts.length
    (gapText kind (numberGaps 0 (texts ++ [last])) texts.length ++ more)) = _
  rw [old, set]
  rfl

theorem trails_ofPair {kind : Kind} {left right : Node} {equals semicolon : Token}
    (pair : kind.layout = Kind.pairLayout)
    (h : (ofPair kind left equals right semicolon).Grammatical)
    (grammatical : (ofPair kind left equals right (semicolon.trail more)).Grammatical) :
    (ofPair kind left equals right semicolon).Trails more := by
  have closing : (ofPair kind left equals right semicolon).kind.closingGap? = some 1 := by
    show kind.closingGap? = some 1
    rw [Kind.closingGap?, pair]
    rfl
  refine .of_closing (left.lexemes ++ TokenKind.lexeme .equals equals.gap :: right.lexemes)
    .semicolon semicolon.gap h closing ?_ grammatical rfl
    ((lexemes_ofPair pair left equals right semicolon).trans (by simp))
    ((lexemes_ofPair pair left equals right _).trans (by simp [Token.trail]))
  exact trail_numbered [equals.gap] closing

theorem trails_ofReturn {word semicolon : Token} {values : List Node} {commas : List String}
    (count : commas.length = values.length - 1)
    (h : (ofReturn word values commas semicolon).Grammatical)
    (grammatical : (ofReturn word values commas (semicolon.trail more)).Grammatical) :
    (ofReturn word values commas semicolon).Trails more := by
  have closing : (ofReturn word values commas semicolon).kind.closingGap? = some 1 := rfl
  have same : (ofReturn word values commas semicolon).trail more =
      ofReturn word values commas (semicolon.trail more) := by
    rw [trail_closing closing]
    rfl
  refine .of_closing (TokenKind.lexeme .returnWord word.gap :: listLexemes values commas)
    .semicolon semicolon.gap h closing same grammatical rfl ?_ ?_
  · rw [lexemes_ofReturn count, List.cons_append]
  · rw [lexemes_ofReturn count, List.cons_append]
    rfl

theorem trails_ofExpressionStatement {inner : Node} {semicolon : Token}
    (h : (ofExpressionStatement inner semicolon).Grammatical)
    (grammatical : (ofExpressionStatement inner (semicolon.trail more)).Grammatical) :
    (ofExpressionStatement inner semicolon).Trails more := by
  have closing : (ofExpressionStatement inner semicolon).kind.closingGap? = some 0 := rfl
  have same : (ofExpressionStatement inner semicolon).trail more =
      ofExpressionStatement inner (semicolon.trail more) :=
    trail_numbered [] closing
  exact .of_closing _ .semicolon _ h closing same grammatical rfl
    (lexemes_ofExpressionStatement inner semicolon) (lexemes_ofExpressionStatement inner _)

/-- Blocks end with their closing brace, whatever stands in front of them. -/
theorem trails_ofBlock (words : List Token) (start : List Lexeme) {kind : Kind}
    {opening closing : Token} {condition : Option Node} {body : List Node}
    (last : kind.closingGap? = some (words.length + 1))
    (h : (ofBlock kind (words ++ [opening, closing]) condition body).Grammatical)
    (grammatical : (ofBlock kind (words ++ [opening, closing.trail more]) condition body).Grammatical)
    (lexemes : ∀ last, (ofBlock kind (words ++ [opening, last]) condition body).lexemes =
      start ++ blockLexemes opening body last) :
    (ofBlock kind (words ++ [opening, closing]) condition body).Trails more := by
  have same : (ofBlock kind (words ++ [opening, closing]) condition body).trail more =
      ofBlock kind (words ++ [opening, closing.trail more]) condition body := by
    have numbered (last : Token) : (words ++ [opening, last]).map Token.gap =
        (words.map Token.gap ++ [opening.gap]) ++ [last.gap] := by
      simp
    rw [ofBlock, ofBlock, numbered, numbered]
    exact trail_numbered _ (last.trans (by simp))
  refine .of_closing
    (start ++ TokenKind.lexeme .leftBrace opening.gap :: body.flatMap Node.lexemes)
    .rightBrace closing.gap h last same grammatical rfl ?_ ?_
  · rw [lexemes, blockLexemes, List.append_assoc, List.cons_append]
  · rw [lexemes, blockLexemes, List.append_assoc, List.cons_append]
    rfl

theorem trails_ofClauses (front : List Node) {last : Node}
    (h : (ofClauses (front ++ [last])).Grammatical) (below : last.Trails more)
    (grammatical : (ofClauses (front ++ [last.trail more])).Grammatical) :
    (ofClauses (front ++ [last])).Trails more := by
  have same : (ofClauses (front ++ [last])).trail more = ofClauses (front ++ [last.trail more]) :=
    trail_concat rfl rfl
  obtain ⟨before, closing, gap, closes, words, others⟩ := below.words
  refine ⟨by rw [same]; rfl, same ▸ grammatical, ⟨front.flatMap lexemes ++ before, closing, gap, closes,
    ?_, ?_⟩, ?_⟩
  · rw [lexemes_ofClauses, List.flatMap_append, List.flatMap_singleton, words, List.append_assoc]
  · rw [same, lexemes_ofClauses, List.flatMap_append, List.flatMap_singleton, others,
      List.append_assoc]
  · rw [same, nesting_toRaw grammatical.parsed.here, nesting_toRaw h.parsed.here]
    show 1 + max 0 (Json.itemsNesting ((front ++ [last.trail more]).map toRaw)) =
      1 + max 0 (Json.itemsNesting ((front ++ [last]).map toRaw))
    simp only [List.map_append, List.map_singleton, Json.itemsNesting_append, Json.itemsNesting,
      below.nesting]

/-- **The words of a statement with text behind it.** -/
theorem Grammatical.trails (h : node.Grammatical)
    (ends : node.kind.category = .statement ∨ node.kind.category = .clause) (more : String) :
    node.Trails more := by
  induction h with
  | @assignment name equals semicolon value isName below operand =>
    exact trails_ofPair rfl (.assignment isName below operand) (.assignment isName below operand)
  | @definition typeName variableName equals semicolon value isType isVariable below initializer =>
    exact trails_ofPair rfl (.definition isType isVariable below initializer)
      (.definition isType isVariable below initializer)
  | @returns word semicolon values commas count below operands =>
    exact trails_ofReturn count (.returns count below operands) (.returns count below operands)
  | @expression inner semicolon below operand =>
    exact trails_ofExpressionStatement (.expression below operand) (.expression below operand)
  | @guarded kind words left right opening closing condition body guard count belowCondition operand
      below statements =>
    have block (last : Token) :
        (ofBlock kind ((words ++ [left, right]) ++ [opening, last]) (some condition)
          body).Grammatical := by
      rw [List.append_assoc]
      exact .guarded guard count belowCondition operand below statements
    have lexemes (last : Token) :
        (ofBlock kind ((words ++ [left, right]) ++ [opening, last]) (some condition) body).lexemes =
          (kind.guardWords.zipWith TokenKind.lexeme (words.map Token.gap) ++
            TokenKind.lexeme .leftParen left.gap :: (condition.lexemes ++
              [TokenKind.lexeme .rightParen right.gap])) ++ blockLexemes opening body last := by
      rw [List.append_assoc, List.cons_append, List.cons_append, List.nil_append,
        lexemes_ofGuarded left right opening last condition body guard count]
      simp
    have last : kind.closingGap? = some ((words ++ [left, right]).length + 1) := by
      rw [List.length_append, count]
      cases kind <;> first | rfl | exact absurd rfl guard
    have trails : Trails more _ := trails_ofBlock _ _ last (block closing) (block _) lexemes
    rwa [List.append_assoc] at trails
  | @otherwise word opening closing body below statements =>
    exact trails_ofBlock [word] [TokenKind.lexeme .elseWord word.gap] rfl
      (.otherwise below statements) (.otherwise below statements)
      fun last => lexemes_ofElse word opening last body
  | @chain first others belowFirst kind below order ihFirst ih =>
    have clause {last : Node} (same : last.kind = .ifClause ∨ last.kind = .elseIfClause ∨
        last.kind = .elseClause) : last.kind.category = .statement ∨ last.kind.category = .clause := by
      rcases same with same | same | same <;> rw [same] <;> exact .inr rfl
    rcases others.eq_nil_or_concat with rfl | ⟨front, last, rfl⟩
    · have trails := ihFirst (clause (.inl kind))
      exact trails_ofClauses [] (.chain belowFirst kind below order) trails
        (.chain trails.grammatical (trails.kind.trans kind) below order)
    · rw [List.concat_eq_append] at below order ih ⊢
      have member : last ∈ front ++ [last] := by simp
      have trails := ih last member
        (clause (.inr (mem_of_tailInOrder order (List.mem_map_of_mem member))))
      refine trails_ofClauses (first :: front) (.chain belowFirst kind below order) trails
        (.chain belowFirst kind (fun clause inside => ?_) ?_)
      · rcases List.mem_append.1 inside with before | behind
        · exact below clause (List.mem_append_left _ before)
        · rw [List.mem_singleton.1 behind]
          exact trails.grammatical
      · show tailInOrder ((front ++ [last.trail more]).map Node.kind)
        rwa [List.map_append, List.map_singleton, trails.kind, ← List.map_singleton, ← List.map_append]
  | _ => rcases ends with wrong | wrong <;> exact absurd wrong Category.noConfusion

end Node

end Verbatim
