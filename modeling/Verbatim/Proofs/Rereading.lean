import Verbatim.Proofs.Build.OwnGaps
import Verbatim.Proofs.Rebuilding
import Verbatim.Proofs.Tree.Regular

/-!
# Edited trees are read again

The tree of a text is worked on, and printed. The text of a tree is put together from the texts of
its gaps, which were right for the words that stood there first. A replacement can need a space where
there was none, and then the printed text has other words than the tree. Where it has the words of
the tree, and the tree has what the grammar asks for beside what is checked, the text is read and
built as the tree that was printed, except for the gaps.

## Main definitions

* `Node.WordsOf`: a text has the words of a node, and the same gaps between them

## Main results

* `Tree.reread_of_works`: **an edited tree is read again where its words stay apart**
* `Tree.reread_of_works_joined`: an edit after which two words are read as one
-/

namespace Verbatim

/-- The words of the text are those of the node, with the same gaps behind them. -/
structure Node.WordsOf (node : Node) (text : String) : Prop where
  words : (lex Start.unit.expectation text).tokens.map Token.lexeme = node.lexemes
  leading : (lex Start.unit.expectation text).leading = node.leading
  finished : (lex Start.unit.expectation text).stuck = none

theorem Node.Fit.accepted {node : Node} (fit : node.Fit true) : node.Accepted where
  names := fit.own.names
  attributes := fit.own.good
  slot noSlot := Option.map_eq_none_iff.1 (fit.condition.slot noSlot)
  fitting below member :=
    conditionFault?_eq_none.2 (fit.condition.expression _ (Option.mem_map_of_mem kind member))
  count := by
    have count := fit.children.count
    rwa [List.length_map] at count
  accepted child member := fit.children.accepted rfl _ (List.mem_map_of_mem member)
  arranged := fit.children.arranged

theorem Start.kind_of_parseTokens {start : Start} {lexed : Lexed} {node : Node}
    {rest : List Token} (taken : start.parseTokens lexed = .ok (node, rest)) (unit : start = .unit) :
    node.kind = .compilationUnit := by
  subst unit
  simp only [Start.parseTokens, bind_eq_ok, Prod.exists] at taken
  obtain ⟨statements, later, -, taken⟩ := taken
  obtain ⟨rfl, -⟩ := by simpa using taken
  rfl

theorem kind_of_parse {start : Start} {text : String} {node : Node}
    (read : parse start text = .ok node) (unit : start = .unit) : node.kind = .compilationUnit := by
  simp only [parse] at read
  split at read
  · next taken =>
    split at read
    · obtain rfl := Except.ok.inj read
      exact Start.kind_of_parseTokens taken unit
    · contradiction
  · contradiction
  · contradiction

namespace Tree

open Relation

/-- The tree of a text is ready, and its root is a unit. -/
theorem ready_of_ofSource {label text : String} {settings : Settings} {tree : Tree}
    (read : ofSource label settings text = .ok tree) :
    tree.Ready ∧ tree.settings = settings ∧
      ∃ root, tree.root = some root ∧ root.kind = .compilationUnit := by
  unfold ofSource at read
  obtain ⟨node, parsed, built⟩ := bind_eq_ok.1 read
  have parsed := mapError_eq_ok.1 parsed
  have built := mapError_eq_ok.1 built
  obtain ⟨ready, same, -⟩ := ready_of_ofRaw built
  obtain ⟨-, result, made, rfl⟩ := ofRaw_eq_ok.1 built
  obtain rfl := ((Node.ofRaw_of_grammatical (parse_grammatical parsed)).1 made).1
  exact ⟨ready, same, _, rfl, Node.kind_settle_eq_unit.2 (kind_of_parse parsed rfl)⟩

/-- A tree that is made by reading is neat. -/
theorem Ready.neat {tree : Tree} (ready : tree.Ready) : tree.Neat where
  sound := ready.sound
  lawful := ready.fitting.lawful
  calm := ready.calm
  slotted {p x} slot := by
    obtain ⟨cell, found, here⟩ := Option.bind_eq_some_iff.1 slot
    by_contra noSlot
    have absent := (ready.fitting p cell found).condition.slot
      ((kind_of_cell? found).symm ▸ Bool.eq_false_iff.2 noSlot)
    rw [here] at absent
    exact nomatch absent

/-- **An edited tree is read again where its words stay apart.** -/
theorem reread_of_works {label text : String} {settings : Settings} {first tree : Tree}
    (strict : settings.strictStructure) (read : ofSource label settings text = .ok first)
    (works : ReflTransGen Works first tree) {root : NodeId} (isRoot : tree.root = some root)
    (regular : (tree.view root).All Node.Regular)
    (countable : (tree.view root).All Node.Countable) (fresh : String) :
    ∃ printed, tree.emit = .ok printed ∧ ((tree.view root).WordsOf printed →
      ∃ parsed again, parseUnit printed = .ok parsed ∧
        ((empty fresh settings).build parsed.toRaw).2 = .ok again ∧
        (((empty fresh settings).build parsed.toRaw).1.view again).toJson.withoutGaps =
          (tree.view root).toJson.withoutGaps) := by
  obtain ⟨start, same, top, wasRoot, unit⟩ := ready_of_ofSource read
  obtain ⟨ready, frame⟩ := start.works works
  obtain rfl : top = root := Option.some.inj (wasRoot.symm.trans (frame.root.symm.trans isRoot))
  have stored := (ready.sound.root_stored isRoot).1
  have fit := ready.fitting.view ready.sound.toForest (made_of_contains stored)
  rw [frame.settings, same, strict] at fit
  have accepted := fit.imp fun node here => here.accepted
  have isUnit : (tree.view top).kind = .compilationUnit :=
    (tree.kind_view top).trans unit
  have emitted : tree.emit =
      .ok ((tree.view top).leading ++ written (tree.view top).lexemes) := by
    rw [emit, root?, isRoot, Option.filter_some, if_pos stored]
    show (tree.source top).mapError EmitError.render = _
    rw [source, Node.render_eq_written (Node.complete_of_accepted accepted regular)]
    rfl
  refine ⟨_, emitted, fun words => ?_⟩
  have takes : Start.unit.Takes (tree.view top).writtenOut := by
    show (tree.view top).writtenOut.kind = .compilationUnit
    rw [Node.writtenOut_eq, Node.kind, isUnit]
    rfl
  -- The text has the words of the tree, and the tree written out has them too.
  have reread := Node.parse_of_words accepted regular takes words.words
    (fun _ => words.leading.symm) words.finished
  have again : Node.ofRaw settings.strictStructure false (tree.view top).writtenOut.toRaw =
      .ok ((tree.view top).writtenOut.settle false) :=
    (Node.ofRaw_of_grammatical (Node.grammatical_writtenOut accepted regular)).2
      ⟨rfl, Node.loadable_writtenOut accepted countable⟩
  have whole : (empty fresh settings).build (tree.view top).writtenOut.toRaw =
      (((empty fresh settings).plant ((tree.view top).writtenOut.settle false)).1,
        .ok ((empty fresh settings).plant ((tree.view top).writtenOut.settle false)).2) := by
    rw [Tree.build, show (empty fresh settings).settings = settings from rfl, again]
  refine ⟨_, _, reread, congrArg Prod.snd whole, ?_⟩
  rw [whole, view_plant]
  exact Node.Regaps.withoutGaps_toJson_settle Node.writtenOut_eq false _

/-- The expression of a statement is replaced by one that was read. -/
theorem reread_of_works_reference : ∃ first tree root, ofSource "t" {} "x;" = .ok first ∧
    ReflTransGen Works first tree ∧ tree.root = some root ∧ tree.emit = .ok "y;" ∧
      ∃ parsed again, parseUnit "y;" = .ok parsed ∧
        ((empty "u" {}).build parsed.toRaw).2 = .ok again ∧
        (((empty "u" {}).build parsed.toRaw).1.view again).toJson.withoutGaps =
          (tree.view root).toJson.withoutGaps := by
  let node : Node := .mk .compilationUnit [] none
    [.mk .expressionStatement [] none
      [.mk .reference [("variable_name", .text "x")] none [] [(0, "")]] [(0, "")]] [(0, "")]
  let value : Node := .mk .reference [("variable_name", .text "y")] none [] [(0, "")]
  let evaluation : Node := .mk .expressionStatement [] none [value] [(0, "")]
  let unit : NodeId := ⟨.compilationUnit, 1⟩
  let statement : NodeId := ⟨.expressionStatement, 2⟩
  let exchange : Edit := .replaceChild statement (.own ⟨.reference, 3⟩) (.own ⟨.reference, 4⟩)
  let change : Change :=
    { action := .replaceChild, node := statement, path := [.index 0], index := some 0,
      before := .node ⟨.reference, 3⟩, after := .node ⟨.reference, 4⟩ }
  obtain ⟨first, made⟩ : ∃ tree, tree = { ((empty "t" {}).plant node).1 with
    root := some ((empty "t" {}).plant node).2 } := ⟨_, rfl⟩
  have read : ofSource "t" {} "x;" = .ok first := by
    rw [made]
    cbv
  have isRoot : first.root = some unit := by
    rw [made]
    cbv
  have works : ReflTransGen Works first (exchange.apply (first.build value.toRaw).1).1 := by
    have owns : ((first.build value.toRaw).1.directNodes unit).contains statement := by
      rw [made]
      cbv
    refine @works_exchange first value.toRaw unit statement _ _ change ?_ isRoot ?_
      (.single (List.contains_iff_mem.1 owns)) ?_
    all_goals
      rw [made]
      cbv
  obtain ⟨tree, edited⟩ : ∃ tree, tree = (exchange.apply (first.build value.toRaw).1).1 := ⟨_, rfl⟩
  rw [← edited] at works
  have top : tree.root = some unit := by
    rw [edited, made]
    cbv
  have view : tree.view unit = .mk .compilationUnit [] none [evaluation] [(0, "")] := by
    rw [edited, made]
    cbv
  have each {property : Node → Prop} (first : property value) (second : property evaluation)
      (third : property (.mk .compilationUnit [] none [evaluation] [(0, "")])) :
      (tree.view unit).All property := by
    have none (below : Node) (member : below ∈ (none : Option Node)) : below.All property :=
      absurd member (Option.not_mem_none below)
    have noChild (below : Node) (member : below ∈ ([] : List Node)) : below.All property :=
      absurd member List.not_mem_nil
    rw [view]
    exact .mk third none (List.forall_mem_singleton.2
      (.mk second none (List.forall_mem_singleton.2 (.mk first none noChild))))
  have regular := each
    (Node.regular_of_free (by decide) rfl fun child member => absurd member List.not_mem_nil)
    (Node.regular_of_free (by decide) rfl (List.forall_mem_singleton.2 Kind.noConfusion))
    (Node.regular_of_free (by decide) rfl (List.forall_mem_singleton.2 Kind.noConfusion))
  have countable := each (Node.countable_of_noCommas rfl) (Node.countable_of_noCommas rfl)
    (Node.countable_of_noCommas rfl)
  have apart : (tree.view unit).WordsOf "y;" := by
    rw [view]
    constructor <;> cbv
  have same : tree.emit = .ok "y;" := by
    rw [edited, made]
    cbv
  obtain ⟨printed, emitted, reread⟩ := reread_of_works rfl read works top regular countable "u"
  obtain rfl : printed = "y;" := Except.ok.inj (emitted.symm.trans same)
  exact ⟨first, tree, unit, read, works, top, emitted, reread apart⟩

/-- Parentheses behind a keyword are replaced by a variable. No space comes between the two, and what
is read is a variable with another name, which nothing returns. -/
theorem reread_of_works_joined : ∃ first tree root value, ofSource "t" {} "return(x);" = .ok first ∧
    (Fragment.expression "y").parse = .ok value ∧
    tree = ((Edit.replaceChild ⟨.returnStatement, 2⟩ (.own ⟨.bracketed, 3⟩)
      (.own ⟨.reference, 5⟩)).apply (first.build value.toRaw).1).1 ∧
    ReflTransGen Works first tree ∧ tree.root = some root ∧ tree.emit = .ok "returny;" ∧
    ∃ parsed again, parseUnit "returny;" = .ok parsed ∧
      ((empty "u" {}).build parsed.toRaw).2 = .ok again ∧
      (((empty "u" {}).build parsed.toRaw).1.view again).toJson.withoutGaps ≠
        (tree.view root).toJson.withoutGaps := by
  let node : Node := .mk .compilationUnit [] none
    [.mk .returnStatement [] none
      [.mk .bracketed [] none [.mk .reference [("variable_name", .text "x")] none [] [(0, "")]]
        [(0, ""), (1, "")]] [(0, ""), (1, "")]] [(0, "")]
  let value : Node := .mk .reference [("variable_name", .text "y")] none [] [(0, "")]
  let joined : Node := .mk .compilationUnit [] none
    [.mk .expressionStatement [] none
      [.mk .reference [("variable_name", .text "returny")] none [] [(0, "")]] [(0, "")]] [(0, "")]
  let unit : NodeId := ⟨.compilationUnit, 1⟩
  let statement : NodeId := ⟨.returnStatement, 2⟩
  let exchange : Edit := .replaceChild statement (.own ⟨.bracketed, 3⟩) (.own ⟨.reference, 5⟩)
  let change : Change :=
    { action := .replaceChild, node := statement, path := [.index 0], index := some 0,
      before := .node ⟨.bracketed, 3⟩, after := .node ⟨.reference, 5⟩ }
  obtain ⟨first, made⟩ : ∃ tree, tree = { ((empty "t" {}).plant node).1 with
    root := some ((empty "t" {}).plant node).2 } := ⟨_, rfl⟩
  have read : ofSource "t" {} "return(x);" = .ok first := by
    rw [made]
    cbv
  have isRoot : first.root = some unit := by
    rw [made]
    cbv
  have works : ReflTransGen Works first (exchange.apply (first.build value.toRaw).1).1 := by
    have owns : ((first.build value.toRaw).1.directNodes unit).contains statement := by
      rw [made]
      cbv
    refine @works_exchange first value.toRaw unit statement _ _ change ?_ isRoot ?_
      (.single (List.contains_iff_mem.1 owns)) ?_
    all_goals
      rw [made]
      cbv
  obtain ⟨tree, edited⟩ : ∃ tree, tree = (exchange.apply (first.build value.toRaw).1).1 := ⟨_, rfl⟩
  rw [← edited] at works
  have top : tree.root = some unit := by
    rw [edited, made]
    cbv
  have emitted : tree.emit = .ok "returny;" := by
    rw [edited, made]
    cbv
  have other : (((empty "u" {}).build joined.toRaw).1.view unit).toJson.withoutGaps ≠
      (tree.view unit).toJson.withoutGaps := by
    have reread : ((empty "u" {}).build joined.toRaw).1.view unit = joined := by cbv
    have edit : tree.view unit = .mk .compilationUnit [] none
        [.mk .returnStatement [] none [value] [(0, ""), (1, "")]] [(0, "")] := by
      rw [edited, made]
      cbv
    rw [reread, edit]
    -- the two raw values name different kinds of statements
    cbv
    simp
  exact ⟨first, tree, unit, value, read, by cbv, edited, works, top, emitted, joined, unit, by cbv,
    by cbv, other⟩

end Tree

end Verbatim
