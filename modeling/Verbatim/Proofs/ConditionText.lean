import Verbatim.Proofs.Addresses
import Verbatim.Proofs.Locality
import Verbatim.Proofs.Rereading
import Verbatim.Proofs.Splicing

/-!
# Conditions from texts

A condition can be given as a text. The text is read on its own, without the blanks around it, and
what was read is written between the parentheses of the statement. A comment inside the text ends
where its line ends. One at the end of the text was ended by the end of the text, and now it goes on:
it swallows the closing parenthesis and what stands behind it up to the end of the line.

That is all that can go wrong. The words of the program are those from before with the new ones
between the parentheses, and a row of words that stands between parentheses is read as it is on its
own if no comment is open behind it.

## Main definitions

* `Fragment.endsInComment`: a comment is open at the end of the text

## Main results

* `Tree.Sound.view_setConditionText`: what the tree looks like afterwards
* `Tree.rebuilt_iff_wordsOf`: which texts a unit is read from
* `Tree.reread_of_setConditionText`: **the program is read again exactly when the text does not end in
  a comment**
* `Tree.reread_of_setConditionText_behind`: a condition after which nothing can be read
-/

namespace Verbatim

/-- Whether a comment is open at the end of the fragment. -/
def Fragment.endsInComment (fragment : Fragment) : Bool :=
  (lex fragment.start.expectation fragment.source).tokens.getLast?.any fun last =>
    commentAfter false last.gap.toList

namespace Tree

open Relation

variable {label text part : String} {settings : Settings} {tree : Tree} {root p m : NodeId}
  {path : Path} {change : Change} {result : Option Change}

/-! ### The value of the tree -/

/-- The tree of a text is the unit that was read. -/
theorem view_of_ofSource (read : ofSource label settings text = .ok tree) :
    ∃ node root, parseUnit text = .ok node ∧ node.All Node.Loadable ∧ tree.root = some root ∧
      tree.view root = node.settle false := by
  unfold ofSource at read
  obtain ⟨node, parsed, built⟩ := bind_eq_ok.1 read
  have parsed := mapError_eq_ok.1 parsed
  obtain ⟨-, planted, made, rfl⟩ := ofRaw_eq_ok.1 (mapError_eq_ok.1 built)
  obtain ⟨rfl, loadable⟩ := (Node.ofRaw_of_grammatical (parse_grammatical parsed)).1 made
  refine ⟨node, _, parsed, loadable, rfl, ?_⟩
  refine Eq.trans (Matches.view ?_ _) (view_plant (empty label settings) (node.settle false))
  exact matches_of_cells rfl

/-- A condition that is set shows at its place in the value of the root, and nothing else does. -/
theorem Sound.view_setCondition (sound : tree.Sound) (isRoot : tree.root = some root)
    (reached : tree.descend root (path.map PathStep.request) = .ok p)
    (worked : (tree.setCondition p (.own m)).2 = .ok (some change)) :
    (tree.setCondition p (.own m)).1.root? = some root ∧
      (tree.setCondition p (.own m)).1.view root =
        (tree.view root).update (·.withCondition (tree.view m)) path := by
  obtain ⟨linked, same⟩ := setCondition_eq worked
  rw [same]
  have coherent := sound.coherent
  have storedRoot := (sound.root_stored isRoot).1
  have storedP := (sound.contains_below (below_of_descend reached)).2 storedRoot
  have becomes := matches_exchangeCondition tree p m
  have changed := (changedAt_storeCondition (made_of_contains storedP) _).matches becomes
  have fits : ∀ x ∈ some m, tree.Founded x ∧ ¬ tree.Below x p := fun _ member =>
    Option.some.inj member ▸ ⟨sound.founded m, sound.apart_of_linked storedP linked⟩
  refine ⟨root?_modify (Cell.inner_condition _)
    (root?_exchangeCondition coherent isRoot storedP), ?_⟩
  rw [changed.view_update coherent fits storedRoot reached]
  refine Node.update_congr ((sound.founded root).at?_of_descend reached) ?_
  have founded := sound.founded p
  exact Matches.view_storeCondition founded (changed.founded founded fits)
    (fun x => changed.view_of_owns coherent storedP fun new member => (fits new member).2)
    (made_of_contains storedP) becomes

/-- Steps lead to where they led before the tree grew. -/
theorem Grown.descend {other : Tree} (grown : tree.Grown other) (forest : tree.Forest)
    (known : tree.Made m) (reached : tree.descend m (path.map PathStep.request) = .ok p) :
    other.descend m (path.map PathStep.request) = .ok p := by
  induction path generalizing m with
  | nil => exact reached
  | cons step rest ih =>
    have same := grown.contents known.number_le
    have stays : other.step? m step.request = tree.step? m step.request := by
      unfold step?
      rw [condition?_congr same, children_congr same]
    rw [List.map_cons, Tree.descend, stays]
    rw [List.map_cons, Tree.descend] at reached
    split at reached
    · next below stepped => exact ih (forest.made (owns_of_step? stepped)) reached
    · contradiction

/-- A condition that is set from a text is what was read, and the tree looks as it did elsewhere. -/
theorem Sound.view_setConditionText_of_descend (sound : tree.Sound) (isRoot : tree.root = some root)
    (reached : tree.descend root (path.map PathStep.request) = .ok p)
    (worked : (tree.setConditionText p part).2 = .ok result) :
    ∃ value, (Fragment.expression part).parse = .ok value ∧ value.All Node.Loadable ∧
      (tree.setConditionText p part).1.root? = some root ∧
      (tree.setConditionText p part).1.view root =
        (tree.view root).update (·.withCondition (value.settle false)) path := by
  obtain ⟨e, -, same⟩ | ⟨node, failure, -, -, same⟩ | ⟨value, condition, parsed, built, same⟩ :=
    setConditionText_cases tree p part <;> rw [same] at worked ⊢
  · contradiction
  · contradiction
  · obtain ⟨planted, read, grown, rfl⟩ := build_eq_ok built
    obtain ⟨rfl, loadable⟩ := (Node.ofRaw_of_grammatical (parse_grammatical parsed)).1 read
    rw [grown] at worked ⊢
    have knownRoot := made_of_contains (sound.root_stored isRoot).1
    have loose := (sound.planted (value.settle false)).2
    have later := sound.plant (value.settle false)
    have reachedToo := (grown_plant tree (value.settle false)).descend sound.toForest knownRoot reached
    have worked := mapError_eq_ok.1 worked
    cases result with
    | none =>
      -- The new node has no owner yet, so it is not the condition that is there.
      exact absurd (owns_condition (eq_of_setCondition_none worked)) (loose p)
    | some change =>
      obtain ⟨top, view⟩ := later.view_setCondition isRoot reachedToo worked
      have stays : (tree.plant (value.settle false)).1.view root = tree.view root := by
        refine (grown_plant tree _).view sound.toForest knownRoot.number_le ?_
        rw [size_plant]
        omega
      refine ⟨value, parsed, loadable, top, ?_⟩
      rw [view, stays, view_plant]

/-- The same at some steps that lead to the receiver. -/
theorem Sound.view_setConditionText (sound : tree.Sound) (isRoot : tree.root = some root)
    (below : tree.Below root p) (worked : (tree.setConditionText p part).2 = .ok result) :
    ∃ value path, (Fragment.expression part).parse = .ok value ∧ value.All Node.Loadable ∧
      (tree.view root).at? path = some (tree.view p) ∧
      (tree.setConditionText p part).1.root? = some root ∧
      (tree.setConditionText p part).1.view root =
        (tree.view root).update (·.withCondition (value.settle false)) path := by
  obtain ⟨path, reached⟩ := exists_descend_of_below below
  obtain ⟨value, parsed, loadable, top, view⟩ :=
    sound.view_setConditionText_of_descend isRoot reached worked
  exact ⟨value, path, parsed, loadable, (sound.founded root).at?_of_descend reached, top, view⟩

/-! ### The text of the tree -/

/-- A unit comes back from a text, in any tree, exactly when the text has its words. -/
theorem rebuilt_iff_wordsOf {node : Node} (h : node.Grammatical) (loadable : node.All Node.Loadable)
    (unit : node.kind = .compilationUnit) (other : Tree) :
    (∃ parsed again, parseUnit text = .ok parsed ∧ (other.build parsed.toRaw).2 = .ok again ∧
      ((other.build parsed.toRaw).1.view again).toJson = (node.settle false).toJson) ↔
      node.WordsOf text := by
  have built {node : Node} (h : node.Grammatical) (loadable : node.All Node.Loadable) :
      Node.ofRaw other.settings.strictStructure false node.toRaw = .ok (node.settle false) :=
    (Node.ofRaw_of_grammatical h).2 ⟨rfl, loadable⟩
  constructor
  · rintro ⟨parsed, again, read, made, same⟩
    obtain ⟨planted, was, grown, rfl⟩ := build_eq_ok made
    obtain ⟨rfl, -⟩ := (Node.ofRaw_of_grammatical (parse_grammatical read)).1 was
    rw [grown, view_plant] at same
    obtain ⟨leading, words⟩ :=
      Node.words_of_toJson (Node.fit_of_ofRaw was) (Node.fit_of_ofRaw (built h loadable)) same
    rw [Node.leading_settle, Node.leading_settle] at leading
    rw [Node.lexemes_settle, Node.lexemes_settle] at words
    obtain ⟨reads, done⟩ := parse_reads read
    exact ⟨reads.words.symm.trans words, reads.leading.symm.trans leading, done⟩
  · intro words
    have read : parseUnit text = .ok node :=
      parse_complete h unit words.words (fun _ => words.leading.symm) words.finished
    have whole : other.build node.toRaw =
        ((other.plant (node.settle false)).1, .ok (other.plant (node.settle false)).2) := by
      rw [build, built h loadable]
    refine ⟨node, (other.plant (node.settle false)).2, read, congrArg Prod.snd whole, ?_⟩
    rw [whole, view_plant]

/-- A unit with another condition has its words in its text exactly when no comment is open at the
end of the fragment. -/
theorem wordsOf_spliced_iff {node other value inner : Node} (read : parseUnit text = .ok node)
    (readPart : (Fragment.expression part).parse = .ok value)
    (spliced : Node.SplicedTo inner.lexemes value.lexemes node other)
    (gaps : other.gaps = node.gaps) :
    other.WordsOf (other.leading ++ written other.lexemes) ↔
      (Fragment.expression part).endsInComment = false := by
  have read : parse .unit text = .ok node := read
  have readPart : parse .expression (Text.strip part) = .ok value := readPart
  obtain ⟨reads, done⟩ := parse_reads read
  obtain ⟨readsPart, donePart⟩ := parse_reads readPart
  have leading : other.leading = (lex Start.unit.expectation text).leading :=
    (Node.leading_congr (congrArg Kind.plain spliced.kind) gaps).trans reads.leading
  have words := spliced.words
  rw [reads.words, readsPart.words] at words
  have joined := lex_spliced_iff done leading.symm donePart words
  have ends : (∀ word ∈ ((lex .operand (Text.strip part)).tokens.map Token.lexeme).getLast?,
      commentAfter false word.gap.toList = false) ↔ (Fragment.expression part).endsInComment = false := by
    rw [List.getLast?_map, Fragment.endsInComment, Option.any_eq_false]
    exact Option.forall_mem_map
  rw [← ends]
  exact ⟨fun words => joined.1 ⟨words.leading, words.words, words.finished⟩,
    fun closed => ⟨(joined.2 closed).2.1, (joined.2 closed).1, (joined.2 closed).2.2⟩⟩

/-- **A program whose condition was set from a text is read and built again as the tree that was
printed exactly when no comment is open at the end of the text.** -/
theorem reread_of_setConditionText (read : ofSource label settings text = .ok tree)
    (isRoot : tree.root = some root) (below : tree.Below root p) (slot : p.kind.hasCondition)
    (worked : (tree.setConditionText p part).2 = .ok result) (other : Tree) :
    ∃ printed, (tree.setConditionText p part).1.emit = .ok printed ∧
      ((∃ parsed again, parseUnit printed = .ok parsed ∧
        (other.build parsed.toRaw).2 = .ok again ∧
        ((other.build parsed.toRaw).1.view again).toJson =
          ((tree.setConditionText p part).1.view root).toJson) ↔
        (Fragment.expression part).endsInComment = false) := by
  obtain ⟨ready, -, -⟩ := ready_of_ofSource read
  obtain ⟨node, top, parsed, loadable, isTop, shown⟩ := view_of_ofSource read
  obtain rfl : top = root := Option.some.inj (isTop.symm.trans isRoot)
  obtain ⟨value, path, readPart, loadableToo, found, topToo, view⟩ :=
    ready.sound.view_setConditionText isRoot below worked
  have grammatical := parse_grammatical parsed
  rw [shown] at found view
  obtain ⟨own, inside, reached, looks⟩ := Node.exists_at?_of_settle found
  -- The statement has a condition, since it was read.
  have hasCondition : own.kind.hasCondition := by
    have kind : (tree.view p).kind = p.kind := tree.kind_view p
    rwa [← kind, looks, ← Kind.hasCondition_plain, Node.plain_kind_settle,
      Kind.hasCondition_plain] at slot
  obtain ⟨inner, has⟩ : ∃ inner, own.condition = some inner :=
    Option.isSome_iff_exists.1 ((grammatical.parsed.at? reached).here.condition_iff.trans hasCondition)
  have spliced := grammatical.spliced reached has (parse_grammatical readPart)
    (operand_of_parse readPart)
  have gaps : (node.update (·.withCondition value) path).gaps = node.gaps :=
    Node.gaps_update (fun node => by cases node; rfl) node
  have complete := spliced.grammatical.complete
  rw [← Node.settle_update] at view
  have emitted : (tree.setConditionText p part).1.emit = .ok
      ((node.update (·.withCondition value) path).leading ++
        written (node.update (·.withCondition value) path).lexemes) := by
    rw [emit_of_root topToo, source, view, Node.render_settle complete,
      Node.render_eq_written complete]
    rfl
  refine ⟨_, emitted, ?_⟩
  rw [view, rebuilt_iff_wordsOf spliced.grammatical
    (Node.all_loadable_update loadable reached loadableToo)
    (spliced.kind.trans (kind_of_parse parsed rfl))]
  exact wordsOf_spliced_iff parsed readPart spliced gaps

/-- A comment inside the new condition does no harm. -/
theorem reread_of_setConditionText_inside : ∃ tree root loop result,
    ofSource "t" {} "while(a){}" = .ok tree ∧ tree.root = some root ∧ tree.Below root loop ∧
      loop.kind.hasCondition ∧ (tree.setConditionText loop "f(b // c\n)").2 = .ok result ∧
      ∃ printed, (tree.setConditionText loop "f(b // c\n)").1.emit = .ok printed ∧
        ∃ parsed again, parseUnit printed = .ok parsed ∧
          ((empty "u" {}).build parsed.toRaw).2 = .ok again ∧
          (((empty "u" {}).build parsed.toRaw).1.view again).toJson =
            ((tree.setConditionText loop "f(b // c\n)").1.view root).toJson := by
  let node : Node := .mk .compilationUnit [] none
    [.mk .whileLoop [] (some (.mk .reference [("variable_name", .text "a")] none [] [(0, "")])) []
      [(0, ""), (1, ""), (2, ""), (3, ""), (4, "")]] [(0, "")]
  let unit : NodeId := ⟨.compilationUnit, 1⟩
  let loop : NodeId := ⟨.whileLoop, 2⟩
  obtain ⟨tree, made⟩ : ∃ tree, tree = { ((empty "t" {}).plant node).1 with
    root := some ((empty "t" {}).plant node).2 } := ⟨_, rfl⟩
  have read : ofSource "t" {} "while(a){}" = .ok tree := by
    rw [made]
    cbv
  have isRoot : tree.root = some unit := by
    rw [made]
    cbv
  have owns : (tree.directNodes unit).contains loop := by
    rw [made]
    cbv
  have below : tree.Below unit loop := .single (List.contains_iff_mem.1 owns)
  have worked : ∃ result, (tree.setConditionText loop "f(b // c\n)").2 = .ok result := by
    rw [made]
    exact ⟨_, by cbv⟩
  obtain ⟨result, worked⟩ := worked
  have closed : (Fragment.expression "f(b // c\n)").endsInComment = false := by cbv
  obtain ⟨printed, emitted, reread⟩ :=
    reread_of_setConditionText read isRoot below rfl worked (empty "u" {})
  exact ⟨tree, unit, loop, result, read, isRoot, below, rfl, worked, printed, emitted,
    reread.2 closed⟩

/-- A comment at the end of the new condition swallows the parenthesis behind it. -/
theorem reread_of_setConditionText_behind : ∃ tree root loop result,
    ofSource "t" {} "while(a){}" = .ok tree ∧ tree.root = some root ∧ tree.Below root loop ∧
      loop.kind.hasCondition ∧ (tree.setConditionText loop "x // c").2 = .ok result ∧
      (tree.setConditionText loop "x // c").1.emit = .ok "while(x // c){}" ∧
      ∀ parsed, parseUnit "while(x // c){}" ≠ .ok parsed := by
  let node : Node := .mk .compilationUnit [] none
    [.mk .whileLoop [] (some (.mk .reference [("variable_name", .text "a")] none [] [(0, "")])) []
      [(0, ""), (1, ""), (2, ""), (3, ""), (4, "")]] [(0, "")]
  let unit : NodeId := ⟨.compilationUnit, 1⟩
  let loop : NodeId := ⟨.whileLoop, 2⟩
  obtain ⟨tree, made⟩ : ∃ tree, tree = { ((empty "t" {}).plant node).1 with
    root := some ((empty "t" {}).plant node).2 } := ⟨_, rfl⟩
  have read : ofSource "t" {} "while(a){}" = .ok tree := by
    rw [made]
    cbv
  have isRoot : tree.root = some unit := by
    rw [made]
    cbv
  have owns : (tree.directNodes unit).contains loop := by
    rw [made]
    cbv
  have worked : ∃ result, (tree.setConditionText loop "x // c").2 = .ok result := by
    rw [made]
    exact ⟨_, by cbv⟩
  obtain ⟨result, worked⟩ := worked
  have emitted : (tree.setConditionText loop "x // c").1.emit = .ok "while(x // c){}" := by
    rw [made]
    cbv
  refine ⟨tree, unit, loop, result, read, isRoot, .single (List.contains_iff_mem.1 owns), rfl, worked,
    emitted, fun parsed wrong => ?_⟩
  have failed : ∃ error, parseUnit "while(x // c){}" = .error error := ⟨_, by cbv⟩
  obtain ⟨error, failed⟩ := failed
  rw [failed] at wrong
  contradiction

end Tree

end Verbatim
