import Verbatim.Proofs.Build.Parsed
import Verbatim.Proofs.Source.Scanning
import Verbatim.Proofs.Tree.Around

/-!
# Another condition in a program

A condition can be anywhere in a program, and another expression in its place gives a program again:
the grammar asks nothing of a condition but that it is an expression. The words of the new program are
those of the old one, with other words between one pair of parentheses.

## Main definitions

* `Kind.isInner`: nodes of the kind take neither statements nor clauses, and have no condition
  anywhere below them
* `Node.SplicedTo`: a program with other words in a pair of parentheses

## Main results

* `Node.Grammatical.spliced`: **a condition of a program can be exchanged**
* `Node.settle_update`, `Node.all_loadable_update`: and the new program is built as the old one is
-/

namespace Verbatim

/-! ### Expressions have no conditions -/

namespace Kind

/-- Whether nodes of the kind take neither statements nor clauses. -/
def isInner (kind : Kind) : Bool := !kind.accepts.contains .statement && !kind.accepts.contains .clause

theorem hasCondition_of_isInner {kind : Kind} (inner : kind.isInner) : kind.hasCondition = false := by
  revert inner
  cases kind <;> decide

theorem isInner_of_accepts {kind other : Kind} (inner : kind.isInner)
    (accepted : kind.accepts.contains other.category) : other.isInner := by
  revert inner accepted
  cases kind <;> cases other <;> decide

theorem isInner_of_expression {kind : Kind} (expression : kind.category = .expression) :
    kind.isInner := by
  revert expression
  cases kind <;> decide

end Kind

theorem exists_split_modify {α : Type} {items : List α} {place : Nat} {item : α}
    (found : items[place]? = some item) : ∃ front back, items = front ++ item :: back ∧
      ∀ change, items.modify place change = front ++ change item :: back := by
  obtain ⟨inside, rfl⟩ := List.getElem?_eq_some_iff.1 found
  refine ⟨items.take place, items.drop (place + 1), ?_, fun change =>
    List.modify_eq_take_cons_drop inside⟩
  rw [← List.drop_eq_getElem_cons inside, List.take_append_drop]

theorem map_modify {α β : Type} {change : α → α} {image : α → β} {other : β → β}
    (same : ∀ item, image (change item) = other (image item)) (items : List α) (place : Nat) :
    (items.modify place change).map image = (items.map image).modify place other := by
  induction items generalizing place with
  | nil => simp
  | cons item rest ih => cases place <;> simp [same, ih]

namespace Node

variable {node below inner value : Node} {change : Node → Node} {path : Path}

/-- Below an expression, or a statement without a block, there is no condition. -/
theorem Parsed.hasCondition_eq_false (parsed : node.All Parsed) (inner : node.kind.isInner)
    (found : node.at? path = some below) : below.kind.hasCondition = false := by
  induction path generalizing node with
  | nil => exact Option.some.inj found ▸ Kind.hasCondition_of_isInner inner
  | cons step rest ih =>
    obtain ⟨next, stepped, deeper⟩ := Option.bind_eq_some_iff.1 found
    refine ih (parsed.step stepped) ?_ deeper
    cases step with
    | condition => exact Kind.isInner_of_expression (conditionFault?_eq_none.1 (parsed.here.fitting next stepped)).1
    | index place => exact Kind.isInner_of_accepts inner (parsed.here.accepted next (List.mem_of_getElem? stepped))

theorem kind_update (keeps : ∀ node, (change node).kind = node.kind) (node : Node) :
    (node.update change path).kind = node.kind := by
  obtain ⟨kind, attributes, condition, children, gaps⟩ := node
  rcases path with _ | ⟨_ | place, rest⟩
  · exact keeps _
  · rfl
  · rfl

theorem kind_withCondition (node other : Node) : (node.withCondition other).kind = node.kind := by
  cases node
  rfl

theorem gaps_update (keeps : ∀ node, (change node).gaps = node.gaps) (node : Node) :
    (node.update change path).gaps = node.gaps := by
  obtain ⟨kind, attributes, condition, children, gaps⟩ := node
  rcases path with _ | ⟨_ | place, rest⟩
  · exact keeps _
  · rfl
  · rfl

/-- Another grammatical node of the same kind, with `new` for `old` in a pair of parentheses. -/
structure SplicedTo (old new : List Lexeme) (node other : Node) : Prop where
  grammatical : other.Grammatical
  kind : other.kind = node.kind
  words : Spliced old new node.lexemes other.lexemes

/-- Other grammatical nodes of the same kinds, with `new` for `old` in a pair of parentheses. -/
structure SplicedToAll (old new : List Lexeme) (nodes others : List Node) : Prop where
  grammatical : ∀ other ∈ others, other.Grammatical
  kinds : others.map kind = nodes.map kind
  words : Spliced old new (nodes.flatMap lexemes) (others.flatMap lexemes)

section

variable {old new : List Lexeme} {nodes others : List Node} {place : Nat} {rest : Path}

theorem SplicedToAll.isStatement (spliced : SplicedToAll old new nodes others)
    (statements : ∀ node ∈ nodes, node.IsStatement) : ∀ other ∈ others, other.IsStatement := by
  have each : ∀ own ∈ nodes.map kind, own.category = .statement ∧ own ≠ .connectorDefinition :=
    List.forall_mem_map.2 statements
  rw [← spliced.kinds] at each
  exact fun other member => each other.kind (List.mem_map_of_mem member)

/-- One of some nodes is changed. -/
theorem splicedToAll_modify (grammatical : ∀ node ∈ nodes, node.Grammatical)
    (found : (nodes[place]?).bind (fun node => node.at? rest) = some below)
    (one : ∀ node ∈ nodes, node.at? rest = some below →
      SplicedTo old new node (node.update change rest)) :
    SplicedToAll old new nodes (nodes.modify place (update change rest)) := by
  obtain ⟨child, stepped, deeper⟩ := Option.bind_eq_some_iff.1 found
  have spliced := one child (List.mem_of_getElem? stepped) deeper
  obtain ⟨front, back, rfl, modified⟩ := exists_split_modify stepped
  rw [modified]
  simp only [List.forall_mem_append, List.forall_mem_cons] at grammatical
  refine ⟨?_, by simp [spliced.kind], ?_⟩
  · simp only [List.forall_mem_append, List.forall_mem_cons]
    exact ⟨grammatical.1, spliced.grammatical, grammatical.2.2⟩
  · simpa using spliced.words.between (front.flatMap lexemes) (back.flatMap lexemes)

end

/-- **A condition of a program can be exchanged**, and then other words stand in its parentheses. -/
theorem Grammatical.spliced (h : node.Grammatical) (found : node.at? path = some below)
    (has : below.condition = some inner) (grammatical : value.Grammatical)
    (operand : value.IsOperand 0) : SplicedTo inner.lexemes value.lexemes node
      (node.update (·.withCondition value) path) := by
  have slot : below.kind.hasCondition := by
    rw [← (h.parsed.at? found).here.condition_iff, has]
    rfl
  -- No expression and no statement without a block has a condition in it.
  have outer {node : Node} (h : node.Grammatical) (inner : node.kind.isInner) {path : Path}
      (found : node.at? path = some below) : False :=
    Bool.false_ne_true ((Parsed.hasCondition_eq_false h.parsed inner found).symm.trans slot)
  have here {node : Node} (same : node = below) (noSlot : node.kind.hasCondition = false) : False :=
    Bool.false_ne_true (noSlot.symm.trans (same ▸ slot))
  induction h generalizing path with
  | @guarded kind words left right opening closing condition body guard count grammaticalCondition
      own each statements ihCondition ih =>
    rcases path with _ | ⟨place | _, rest⟩
    · obtain rfl := Option.some.inj found
      obtain rfl : condition = inner := Option.some.inj has
      refine ⟨.guarded guard count grammatical operand each statements, rfl, ?_⟩
      show Spliced _ _ _
        (ofBlock kind (words ++ [left, right, opening, closing]) (some value) body).lexemes
      rw [lexemes_ofGuarded _ _ _ _ _ _ guard count, lexemes_ofGuarded _ _ _ _ _ _ guard count]
      exact ⟨_, left.gap, right.gap, _, rfl, rfl⟩
    · have spliced := splicedToAll_modify each found fun node member found => ih node member found
      refine ⟨.guarded guard count grammaticalCondition own spliced.grammatical
        (spliced.isStatement statements), rfl, ?_⟩
      show Spliced _ _ _ (ofBlock kind (words ++ [left, right, opening, closing]) (some condition)
        (body.modify place (update (·.withCondition value) rest))).lexemes
      rw [lexemes_ofGuarded _ _ _ _ _ _ guard count, lexemes_ofGuarded _ _ _ _ _ _ guard count,
        blockLexemes, blockLexemes]
      simpa using spliced.words.between
        (kind.guardWords.zipWith TokenKind.lexeme (words.map Token.gap) ++
          TokenKind.lexeme .leftParen left.gap :: (condition.lexemes ++
            [TokenKind.lexeme .rightParen right.gap, TokenKind.lexeme .leftBrace opening.gap]))
        [TokenKind.lexeme .rightBrace closing.gap]
    · exact (outer grammaticalCondition (Kind.isInner_of_expression own.1) found).elim
  | @otherwise word opening closing body each statements ih =>
    rcases path with _ | ⟨place | _, rest⟩
    · exact (here (Option.some.inj found) rfl).elim
    · have spliced := splicedToAll_modify each found fun node member found => ih node member found
      refine ⟨.otherwise spliced.grammatical (spliced.isStatement statements), rfl, ?_⟩
      show Spliced _ _ _ (ofBlock .elseClause [word, opening, closing] none
        (body.modify place (update (·.withCondition value) rest))).lexemes
      rw [lexemes_ofElse, lexemes_ofElse, blockLexemes, blockLexemes]
      simpa using spliced.words.between
        [TokenKind.lexeme .elseWord word.gap, TokenKind.lexeme .leftBrace opening.gap]
        [TokenKind.lexeme .rightBrace closing.gap]
    · contradiction
  | @chain first others grammaticalFirst isFirst each order ihFirst ih =>
    rcases path with _ | ⟨place | _, rest⟩
    · exact (here (Option.some.inj found) rfl).elim
    · have spliced := splicedToAll_modify (List.forall_mem_cons.2 ⟨grammaticalFirst, each⟩) found
        (List.forall_mem_cons.2 ⟨fun found => ihFirst found, fun node member found => ih node member found⟩)
      show SplicedTo _ _ _ (ofClauses ((first :: others).modify place
        (update (·.withCondition value) rest)))
      revert spliced
      generalize (first :: others).modify place (update (·.withCondition value) rest) = clauses
      rintro ⟨grammatical, kinds, words⟩
      cases clauses with
      | nil => contradiction
      | cons clause clauses =>
        obtain ⟨same, kinds⟩ := List.cons.inj kinds
        obtain ⟨one, more⟩ := List.forall_mem_cons.1 grammatical
        refine ⟨.chain one (same.trans isFirst) more (kinds ▸ order), rfl, ?_⟩
        rwa [lexemes_ofClauses, lexemes_ofClauses]
    · contradiction
  | @unit leading statements each all ih =>
    rcases path with _ | ⟨place | _, rest⟩
    · exact (here (Option.some.inj found) rfl).elim
    · have spliced := splicedToAll_modify each found fun node member found => ih node member found
      refine ⟨.unit spliced.grammatical (spliced.isStatement all), rfl, ?_⟩
      show Spliced _ _ _ (mk .compilationUnit [] none
        (statements.modify place (update (·.withCondition value) rest)) [(0, leading)]).lexemes
      rw [lexemes_unit, lexemes_unit]
      exact spliced.words
    · contradiction
  | _ => exact (outer (by constructor <;> assumption) rfl found).elim

/-! ### Connector definitions told apart -/

/-- What stands at a place once connector definitions are told apart. -/
theorem exists_at?_of_settle {asChild : Bool} (found : (node.settle asChild).at? path = some below) :
    ∃ own inside, node.at? path = some own ∧ below = own.settle inside := by
  induction path generalizing node asChild with
  | nil => exact ⟨node, asChild, rfl, (Option.some.inj found).symm⟩
  | cons step rest ih =>
    obtain ⟨next, stepped, deeper⟩ := Option.bind_eq_some_iff.1 found
    rw [settle_eq] at stepped
    obtain ⟨before, inside, was, rfl⟩ : ∃ before inside, node.step? step = some before ∧
        next = before.settle inside := by
      cases step with
      | condition =>
        obtain ⟨before, was, rfl⟩ := Option.map_eq_some_iff.1 stepped
        exact ⟨before, false, was, rfl⟩
      | index place =>
        rw [step?, Node.children, List.getElem?_map] at stepped
        obtain ⟨before, was, rfl⟩ := Option.map_eq_some_iff.1 stepped
        exact ⟨before, true, was, rfl⟩
    obtain ⟨own, insideToo, reached, same⟩ := ih deeper
    exact ⟨own, insideToo, by rw [at?, was]; exact reached, same⟩

theorem settle_withCondition (node value : Node) (asChild : Bool) :
    (node.withCondition value).settle asChild =
      (node.settle asChild).withCondition (value.settle false) := by
  rw [settle_eq, settle_eq asChild node]
  cases node
  rfl

theorem settledKind_congr {asChild : Bool} {kind : Kind} {children others : List Node}
    (same : others.map Node.kind = children.map Node.kind) :
    settledKind asChild kind others = settledKind asChild kind children := by
  have second : (others[1]?).map Node.kind = (children[1]?).map Node.kind := by
    rw [← List.getElem?_map, ← List.getElem?_map, same]
  have creates : (others[1]?).any (fun value => value.kind = .connectorCreation) =
      (children[1]?).any fun value => value.kind = .connectorCreation := by
    cases h : others[1]? <;> cases h' : children[1]? <;> simp_all
  rw [settledKind, settledKind, creates]

/-- Telling connector definitions apart and setting a condition go together. -/
theorem settle_update (node value : Node) (path : Path) (asChild : Bool) :
    (node.update (·.withCondition value) path).settle asChild =
      (node.settle asChild).update (·.withCondition (value.settle false)) path := by
  have keeps (node : Node) := kind_withCondition node value
  induction path generalizing node asChild with
  | nil => exact settle_withCondition node value asChild
  | cons step rest ih =>
    obtain ⟨kind, attributes, condition, children, gaps⟩ := node
    cases step with
    | condition =>
      rw [update, settle_eq, settle_eq asChild (mk ..), update]
      simp only [Node.kind, Node.attributes, Node.condition, Node.children, Node.gaps, Option.map_map]
      congr 2
      exact funext fun below => ih below false
    | index place =>
      have kinds : (children.modify place (update (·.withCondition value) rest)).map Node.kind =
          children.map Node.kind := by
        have same (child : Node) :
            (child.update (·.withCondition value) rest).kind = id child.kind := kind_update keeps child
        rw [map_modify same, List.modify_id]
      rw [update, settle_eq, settle_eq asChild (mk ..), update]
      simp only [Node.kind, Node.attributes, Node.condition, Node.children, Node.gaps]
      rw [settledKind_congr kinds, map_modify fun child => ih child true]

/-! ### What a build checks -/

theorem all_loadable_update (loadable : node.All Loadable) (found : node.at? path = some below)
    (all : value.All Loadable) : (node.update (·.withCondition value) path).All Loadable := by
  refine loadable.update (fun node step rest here => ?_) found ?_
  · obtain ⟨kind, attributes, condition, children, gaps⟩ := node
    cases step <;> exact ⟨here.attributes, here.gaps⟩
  · obtain ⟨kind, attributes, condition, children, gaps⟩ := below
    obtain ⟨here, -, each⟩ := loadable.at? found
    exact .mk ⟨here.attributes, here.gaps⟩ (fun _ member => Option.some.inj member ▸ all) each

end Node

end Verbatim
