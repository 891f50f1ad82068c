import Verbatim.Proofs.Build.LaidOut
import Verbatim.Proofs.Source.Captured

/-!
# What parses can be built, but for its names

The grammar reads a keyword as a name where it cannot mean the keyword, and a build refuses such
names. Everything else that the grammar reads is built, so the two descriptions of the language, the
grammar and the checks of a build, agree up to these names.

## Main definitions

* `Node.Worded`: attributes are good, or words that can be names
* `Json.Unreserved`: a raw node whose names are no reserved words
* `BuildError.IsReservedName`: the refusal of a reserved word

## Main results

* `Node.Grammatical.worded`: the attributes of grammatical nodes
* `Node.isReservedName_of_error`: the only refusal of a grammatical node
* `Tree.ofRaw_of_parseUnit`: which parsed texts are built, and why others are not

## Implementation notes

A literal is checked by reading it again, on its own and with other expectations than where it stood
in the text. So the proof for literals goes through the printer's theorem `parse_of_render`.

Numbers of gaps are written as numerals, and a numeral of more than `Text.digitLimit` digits is
neither written nor read. A text would need more than `10 ^ Text.digitLimit` words for that.
-/

namespace Verbatim

/-! ### Words as attributes -/

theorem attributeProblem?_name {kind : Kind} {name text : String}
    (isName : nameAttributes.contains name) (spelled : TokenKind.Spells .name text.toList) :
    attributeProblem? kind name (.text text) =
      if reservedWords.contains text then some (.notName kind name text) else none := by
  have other : name ≠ "operator" := by
    rintro rfl
    exact absurd isName (by decide)
  have proper : Verbatim.isName text = !reservedWords.contains text := by
    obtain ⟨c, rest, same, start, all⟩ := spelled
    simp only [Verbatim.isName, same, start, all, Bool.true_and]
  rw [attributeProblem?, if_neg other, if_pos isName, proper]
  cases reservedWords.contains text <;> rfl

/-- A literal of the grammar reads as itself when it stands alone. -/
theorem isLiteral_of_spelled {word : Token} (kind : word.kind.isLiteral) (spelled : word.Spelled) :
    isLiteral word.text := by
  -- the blank text behind the word plays no part
  let alone : Token := { word with gap := "" }
  have grammatical : (Node.ofLiteral alone).Grammatical := .literal kind spelled
  have spaced : (Node.ofLiteral alone).All Node.Spaced := by
    refine .mk ⟨fun index => ?_, fun name text isName found => ?_⟩
      (fun below member => absurd member (Option.not_mem_none below))
      (fun below member => absurd member List.not_mem_nil)
    · rcases index with _ | index
      · rfl
      · exact Node.gapText_of_get?_none (by simp [Node.ofLiteral, Node.gaps, Gaps.get?])
    · have own : name = "literal_type" ∨ name = "value" := by
        simpa [Node.ofLiteral, Node.attributes] using
          List.mem_map_of_mem (f := Prod.fst) (Node.mem_of_lookup found)
      rcases own with rfl | rfl <;> exact absurd isName (by decide)
  have takes : Start.expression.Takes (Node.ofLiteral alone) :=
    ⟨rfl, Kind.noConfusion, primaryStrength, rfl, Nat.zero_le _⟩
  obtain ⟨text, printed, read⟩ := parse_of_render grammatical spaced takes
  have same : text = word.text := by
    have words := @Node.lexemes_ofLiteral alone kind spelled
    rw [Node.render_eq_written grammatical.complete, words] at printed
    simpa [Node.leading, Node.ofLiteral, Node.kind, Token.lexeme, alone] using printed.symm
  have value : (some (Json.text word.text) == some (Json.text text)) = true := by
    rw [same]
    exact beq_self_eq_true word.text
  rw [← same, isLiteral, read]
  exact Bool.and_eq_true_iff.2 ⟨value, rfl⟩

namespace Node

/-- The value is good for the attribute, or the attribute is a name and the value a word that can be
one. -/
def WordedEntry (kind : Kind) (entry : String × Json) : Prop :=
  attributeProblem? kind entry.1 entry.2 = none ∨
    entry.1 ∈ nameAttributes ∧ ∃ text, entry.2 = .text text ∧ TokenKind.Spells .name text.toList

/-- The attributes of the node are words of the grammar. -/
def Worded (node : Node) : Prop := ∀ entry ∈ node.attributes, WordedEntry node.kind entry

theorem Token.Is.wordedEntry {kind : Kind} {name : String} {word : Token} (h : word.Is .name)
    (isName : name ∈ nameAttributes) : WordedEntry kind (name, .text word.text) := by
  have spelled := h.spelled
  rw [Token.Spelled, h.kind_eq] at spelled
  exact .inr ⟨isName, word.text, rfl, spelled⟩

theorem worded_of_children {kind : Kind} {attributes : List (String × Json)} {children : List Node}
    {gaps : Gaps} (own : ∀ entry ∈ attributes, WordedEntry kind entry)
    (below : ∀ child ∈ children, child.All Worded) :
    (mk kind attributes none children gaps).All Worded :=
  .mk own (fun inner member => absurd member (Option.not_mem_none inner)) below

theorem worded_ofName {word : Token} (h : word.Is .name) : (ofName word).All Worded :=
  worded_of_children (List.forall_mem_singleton.2 (Token.Is.wordedEntry h (by decide))) (by simp)

theorem worded_ofDeclaration {typeName variableName : Token} (isType : typeName.Is .name)
    (isVariable : variableName.Is .name) : (ofDeclaration typeName variableName).All Worded :=
  worded_of_children (List.forall_mem_cons.2 ⟨Token.Is.wordedEntry isType (by decide),
    List.forall_mem_singleton.2 (Token.Is.wordedEntry isVariable (by decide))⟩) (by simp)

theorem literalType_ne_empty (word : Token) : literalType word ≠ "" := by
  unfold literalType
  split
  · decide
  · decide
  · decide
  · split <;> decide

theorem isOperator_of_isSign {word : Token} (kind : word.kind.isSign) (spelled : word.Spelled) :
    isOperator .unary word.text := by
  rw [isOperator, if_pos rfl]
  rw [Token.Spelled] at spelled
  cases same : word.kind <;> rw [same] at kind spelled <;> try exact absurd kind Bool.false_ne_true
  all_goals
    simp only [TokenKind.Spells, TokenKind.spellings, String.ofList_toList, List.mem_singleton]
      at spelled
    rw [spelled]
    decide

/-- **The attributes of a grammatical node are words of the grammar.** -/
theorem Grammatical.worded {node : Node} (h : Grammatical node) : node.All Worded := by
  induction h with
  | @literal word kind spelled =>
    refine worded_of_children (List.forall_mem_cons.2 ⟨.inl ?_, List.forall_mem_singleton.2
      (.inl ?_)⟩) (by simp)
    · show (if literalType word = "" then _ else none) = none
      rw [if_neg (literalType_ne_empty word)]
    · show (if Verbatim.isLiteral word.text then none else _) = none
      rw [if_pos (isLiteral_of_spelled kind spelled)]
  | reference name => exact worded_ofName name
  | call isName count below operands ih | creation isName count below operands ih =>
    exact worded_of_children
      (List.forall_mem_singleton.2 (Token.Is.wordedEntry isName (by decide))) ih
  | bracketed below operand ih | expression below operand ih =>
    exact worded_of_children (by simp) (List.forall_mem_singleton.2 ih)
  | @unary sign inner kind spelled below operand ih =>
    refine worded_of_children (List.forall_mem_singleton.2 (.inl ?_))
      (List.forall_mem_singleton.2 ih)
    show (if isOperator .unary sign.text then none else _) = none
    rw [if_pos (isOperator_of_isSign kind spelled)]
  | @binary left right word own kind spelled belowLeft belowRight operandLeft operandRight ihLeft
      ihRight =>
    refine worded_of_children (List.forall_mem_singleton.2 (.inl ?_))
      (List.forall_mem_cons.2 ⟨ihLeft, List.forall_mem_singleton.2 ihRight⟩)
    have known : isOperator .binary word.text := by
      rw [isOperator, if_neg Kind.noConfusion, lookup_binaryStrengths kind spelled]
      rfl
    show (if isOperator .binary word.text then none else _) = none
    rw [if_pos known]
  | declaration isType isVariable => exact worded_ofDeclaration isType isVariable
  | assignment isName below operand ih =>
    exact worded_of_children (by simp)
      (List.forall_mem_cons.2 ⟨worded_ofName isName, List.forall_mem_singleton.2 ih⟩)
  | definition isType isVariable below initializer ih =>
    exact worded_of_children (by simp) (List.forall_mem_cons.2
      ⟨worded_ofDeclaration isType isVariable, List.forall_mem_singleton.2 ih⟩)
  | returns count below operands ih | otherwise below statements ih | unit below all ih =>
    exact worded_of_children (by simp) ih
  | guarded guard count belowCondition operand below statements ihCondition ih =>
    refine .mk (by simp [ofBlock, Worded, Node.attributes]) (fun inner member => ?_) ih
    obtain rfl := Option.some.inj member
    exact ihCondition
  | chain belowFirst kind below order ihFirst ih =>
    exact worded_of_children (by simp) (List.forall_mem_cons.2 ⟨ihFirst, ih⟩)

/-! ### Numbers of gaps -/

theorem all_words_le {node : Node} {most : Nat} (parsed : node.All Parsed)
    (few : node.lexemes.length ≤ most) : node.All fun below => below.lexemes.length ≤ most := by
  induction parsed with
  | @mk node here _ _ condition children =>
    have inner {below : Node} (member : below ∈ node.condition ∨ below ∈ node.children) :
        below.lexemes.length ≤ most :=
      Nat.le_trans (here.sublist_lexemes member).length_le few
    exact .mk few (fun below member => condition below member (inner (.inl member)))
      fun below member => children below member (inner (.inr member))

/-- The numbers of gaps are less than the number of words. -/
theorem Numbered.lt {node : Node} (h : node.Numbered) (complete : node.Complete) :
    ∀ entry ∈ node.gaps, entry.1 < max 1 node.lexemes.length := by
  intro entry member
  have written : entry.1 ∈ node.gaps.map Prod.fst := List.mem_map_of_mem member
  rw [h, List.mem_range] at written
  exact Nat.lt_of_lt_of_le written complete.gapCount_le

end Node

/-- There are no more words than characters. -/
theorem length_lexTokens_le (expectation : Expectation) (place : Place) (chars : List Char) :
    (lexTokens expectation place chars).1.length ≤ chars.length := by
  fun_induction lexTokens expectation place chars with
  | case1 => exact Nat.zero_le _
  | case2 expectation place chars kind word rest found split token later ih =>
    have shorter := congrArg List.length (takeToken_append found)
    have gap := congrArg List.length (takeGap_append false rest)
    have long := List.length_pos_iff.2 (takeToken_ne_nil found)
    have behind : later.1.length ≤ (takeGap false rest).2.length := ih
    rw [List.length_append] at shorter gap
    rw [List.length_cons]
    omega

namespace Node

/-! ### Where a build fails -/

theorem readAttributes_fault {kind : Kind} {tag : String} {raw : Json} {names : List String}
    {error : BuildError} (fault : (readAttributes kind tag raw names).2 = some error) :
    ∃ name ∈ names, raw.present? name = none ∨ ∃ value problem, raw.present? name = some value ∧
      attributeProblem? kind name value = some problem ∧ error = .attribute tag name problem := by
  induction names with
  | nil => exact absurd fault.symm (Option.some_ne_none error)
  | cons name rest ih =>
    rw [readAttributes] at fault
    cases present : raw.present? name with
    | none => exact ⟨name, List.mem_cons_self, .inl present⟩
    | some value =>
      cases problem : attributeProblem? kind name value with
      | some problem' =>
        simp only [present, problem, Option.some.injEq] at fault
        exact ⟨name, List.mem_cons_self, .inr ⟨value, problem', present, problem, fault.symm⟩⟩
      | none =>
        simp only [present, problem] at fault
        obtain ⟨other, member, found⟩ := ih fault
        exact ⟨other, List.mem_cons_of_mem name member, found⟩

/-- Where children that are built are accepted and in order, only the build of a child fails. -/
theorem takeChildren_error {strict : Bool} {kind : Kind} {tag : String} {operator : Option String}
    {children : List Node} {result : Node → Except BuildFailure Node} {settled : Node → Node}
    {before : List (Kind × Option String)} {failure : BuildFailure}
    (agree : ∀ child ∈ children, ∀ built, result child = .ok built → built = settled child)
    (accepted : ∀ child ∈ children, kind.accepts.contains (settled child).kind.category)
    (arranged : arrangementProblem? strict kind operator
      (before ++ (children.map settled).map outline) = none)
    (failed : takeChildren strict kind tag operator before (children.map result) = .error failure) :
    ∃ child ∈ children, ∃ inner, result child = .error inner ∧ inner.error = failure.error := by
  induction children generalizing before failure with
  | nil => exact absurd failed (by simp [takeChildren])
  | cons child rest ih =>
    rw [List.map_cons] at failed
    cases own : result child with
    | error inner =>
      rw [own, takeChildren] at failed
      exact ⟨child, List.mem_cons_self, inner, own, by rw [Except.error.inj failed]⟩
    | ok built =>
      obtain rfl := agree child List.mem_cons_self built own
      rw [List.map_cons, List.map_cons, List.append_cons] at arranged
      have fits : childFault? strict kind tag operator before (settled child).outline = none :=
        childFault?_eq_none.2 ⟨fun _ => accepted child List.mem_cons_self,
          arrangement_of_append _ arranged⟩
      simp only [own, takeChildren, fits] at failed
      split at failed
      · exact absurd failed (by simp)
      · next inner deeper =>
        obtain ⟨other, member, found⟩ := ih
          (fun child member => agree child (List.mem_cons_of_mem _ member))
          (fun child member => accepted child (List.mem_cons_of_mem _ member)) arranged deeper
        refine ⟨other, List.mem_cons_of_mem _ member, ?_⟩
        rw [← Except.error.inj failed]
        exact found

/-- Where a condition that is built can be one, only the build of the condition fails. -/
theorem takeCondition_error {kind : Kind} {raw : Json} {condition : Option Node}
    {result : Node → Except BuildFailure Node} {failure : BuildFailure}
    (fitting : ∀ below ∈ condition, ∀ built, result below = .ok built →
      conditionFault? kind built = none)
    (failed : takeCondition kind raw (condition.map result) = .error failure) :
    ∃ below ∈ condition, result below = .error failure := by
  unfold takeCondition at failed
  split at failed
  · next built _ _ given =>
    obtain ⟨below, member, rfl⟩ := Option.map_eq_some_iff.1 given
    refine ⟨below, member, ?_⟩
    cases own : result below with
    | error inner =>
      rw [own] at failed
      exact congrArg Except.error (Except.error.inj failed)
    | ok built =>
      have fits := fitting below member built own
      simp [own, bind, Except.bind, fits, pure, Except.pure] at failed
  · simp [pure, Except.pure] at failed

/-- Where gaps and the number of children are good, a node fails with an attribute, the condition or
a child. -/
theorem fill_error {strict : Bool} {kind : Kind} {raw : Json}
    {condition : Option (Except BuildFailure Node)} {children : List (Except BuildFailure Node)}
    {gaps : Gaps} {failure : BuildFailure} (read : readGaps kind (rawTag kind raw) raw [] = .ok gaps)
    (count : childrenFault? kind (rawTag kind raw) raw = none)
    (failed : fill strict kind raw condition children = .error failure) :
    (readAttributes kind (rawTag kind raw) raw kind.attributes).2 = some failure.error ∨
      takeCondition kind raw condition = .error failure ∨
      ∃ attributes inner,
        readAttributes kind (rawTag kind raw) raw kind.attributes = (attributes, none) ∧
        takeChildren strict kind (rawTag kind raw) (mk kind attributes none [] []).operator? []
          children = .error inner ∧ inner.error = failure.error := by
  rcases own : readAttributes kind (rawTag kind raw) raw kind.attributes with ⟨attributes, _ | fault⟩
  · refine .inr ?_
    simp only [fill, own, read, count, Except.mapError, bind, Except.bind] at failed
    cases taken : takeCondition kind raw condition with
    | error inner =>
      rw [taken] at failed
      exact .inl (congrArg Except.error (Except.error.inj failed))
    | ok given =>
      rw [taken] at failed
      simp only at failed
      cases below : takeChildren strict kind (rawTag kind raw)
          (mk kind attributes none [] []).operator? [] children with
      | ok nodes =>
        rw [below] at failed
        simp [pure, Except.pure] at failed
      | error inner =>
        rw [below] at failed
        refine .inr ⟨attributes, inner, rfl, below, ?_⟩
        rw [← Except.error.inj failed]
        rfl
  · refine .inl ?_
    simp only [fill, own, bind, Except.bind, throw, throwThe, MonadExceptOf.throw] at failed
    rw [← Except.error.inj failed]

theorem complete_error {strict asChild : Bool} {raw : Json} {kind : Kind}
    {condition : Option (Except BuildFailure Node)} {children : List (Except BuildFailure Node)}
    {failure : BuildFailure} (told : (if asChild then rawChildKind raw else rawKind raw) = .ok kind)
    (failed : complete strict asChild raw condition children = .error failure) :
    ∃ inner, fill strict kind raw condition children = .error inner ∧
      inner.error = failure.error := by
  rw [complete, told] at failed
  cases filled : fill strict kind raw condition children with
  | ok node => simp [Except.mapError, bind, Except.bind, filled] at failed
  | error inner =>
    refine ⟨inner, rfl, ?_⟩
    simp only [Except.mapError, bind, Except.bind, filled, Except.error.injEq] at failed
    rw [← failed]
    cases asChild <;> rfl

/-! ### The only refusal -/

end Node

/-- The error is the refusal of a reserved word as a name. -/
def BuildError.IsReservedName (error : BuildError) : Prop :=
  ∃ tag kind, ∃ name ∈ nameAttributes, ∃ word ∈ reservedWords,
    error = .attribute tag name (.notName kind name word)

/-- The raw node has no reserved word for a name. -/
def Json.Unreserved (raw : Json) : Prop :=
  ∀ name ∈ nameAttributes, ∀ word ∈ reservedWords, raw.get? name ≠ some (.text word)

namespace Node

/-- Whether the numbers of the node's gaps have so few digits that they can be read. -/
def ShortNumbers (node : Node) : Prop := ∀ entry ∈ node.gaps, entry.1 < 10 ^ Text.digitLimit

theorem isReservedName_of_problem {kind : Kind} {tag name : String} {value : Json}
    {problem : AttributeProblem} (worded : WordedEntry kind (name, value))
    (found : attributeProblem? kind name value = some problem) :
    (BuildError.attribute tag name problem).IsReservedName := by
  rcases worded with good | ⟨isName, text, rfl, spelled⟩
  · exact absurd (good.symm.trans found) (Option.some_ne_none problem).symm
  · rw [attributeProblem?_name (List.contains_iff_mem.2 isName) spelled] at found
    split at found
    · next reserved =>
      exact ⟨tag, kind, name, isName, text, List.contains_iff_mem.1 reserved,
        by rw [← Option.some.inj found]⟩
    · exact absurd found.symm (Option.some_ne_none problem)

theorem WordedEntry.exists_text {kind : Kind} {entry : String × Json} (h : WordedEntry kind entry) :
    ∃ text, entry.2 = .text text := by
  rcases h with good | ⟨-, text, same, -⟩
  · exact exists_text_of_good good
  · exact ⟨text, same⟩

theorem worded_plain {kind other : Kind} (same : kind.plain = other.plain) {entry : String × Json}
    (h : WordedEntry other entry) : WordedEntry kind entry :=
  h.imp_left fun good => attributeProblem_plain.1 (same ▸ attributeProblem_plain.2 good)

/-- **The only refusal of a node that the grammar gives**: a name that is a reserved word. -/
theorem isReservedName_of_error {strict asChild : Bool} {node : Node} {failure : BuildFailure}
    (parsed : node.All Parsed) (worded : node.All Worded) (short : node.All ShortNumbers)
    (failed : ofRaw strict asChild node.toRaw = .error failure) :
    failure.error.IsReservedName := by
  induction parsed generalizing asChild failure with
  | @mk node here belowCondition belowChildren ihCondition ihChildren =>
    obtain ⟨worded, wordedCondition, wordedChildren⟩ := worded
    obtain ⟨short, shortCondition, shortChildren⟩ := short
    have told := kind_toRaw here asChild
    have plain := plain_settledKind asChild node.kind node.children
    generalize settled : settledKind asChild node.kind node.children = kind at told plain
    rw [toRaw_eq] at told failed
    have condition : rawCondition strict node.rawFields =
        node.condition.map fun below => ofRaw strict false below.toRaw := by
      rw [rawCondition_eq, lookup_condition here, Option.map_map]
      rfl
    have children : rawChildren strict node.rawFields =
        node.children.map fun child => ofRaw strict true child.toRaw := by
      rw [rawChildren_eq, listed_rawFields here, List.map_map]
      rfl
    have count : childrenFault? kind (rawTag kind (.object node.rawFields))
        (.object node.rawFields) = none := by
      refine childrenFault?_eq_none.2 ⟨fun value present => ?_, ?_⟩
      · rw [present?_object, lookup_children here] at present
        grind
      · rw [listed_rawFields here, List.length_map, ← takesCount_plain, plain, takesCount_plain]
        exact here.count
    have read : readGaps kind (rawTag kind (.object node.rawFields)) (.object node.rawFields) [] =
        .ok node.gaps := (readGaps_rawFields here plain).2 ⟨short, rfl⟩
    rw [ofRaw, condition, children] at failed
    obtain ⟨inner, filled, same⟩ := complete_error told failed
    rw [← same]
    -- The gaps and the number of children are right, so an attribute failed, or what is below.
    rcases fill_error read count filled with fault | taken | ⟨attributes, deeper, own, below, same⟩
    · obtain ⟨name, member, found⟩ := readAttributes_fault fault
      have field := present?_attribute plain member
      have there : name ∈ node.attributes.map Prod.fst := by
        rwa [here.names, ← Kind.attributes_plain, ← plain, Kind.attributes_plain]
      obtain ⟨entry, entered, rfl⟩ := List.mem_map.1 there
      have word : WordedEntry kind entry := worded_plain plain (worded entry entered)
      obtain ⟨text, same⟩ := word.exists_text
      rw [lookup_of_mem (nodup_names here) entered, same] at field
      rcases found with absent | ⟨value, problem, present, refused, error⟩
      · exact absurd (absent.symm.trans field).symm (Option.some_ne_none _)
      · rw [error]
        obtain rfl : entry.2 = value := same.trans (Option.some.inj (field.symm.trans present))
        exact isReservedName_of_problem word refused
    · obtain ⟨below, member, result⟩ := takeCondition_error (fun below member built result => by
        rw [((ofRaw_toRaw (belowCondition below member)).1 result).1]
        exact conditionFault_settle (here.fitting below member)) taken
      exact ihCondition below member (wordedCondition below member) (shortCondition below member)
        result
    · have attributes : attributes = node.attributes := by
        obtain ⟨names, found⟩ := readAttributes_eq.1 own
        refine attributes_eq ?_ (nodup_names here) fun entry member => ?_
        · rw [names, here.names, ← Kind.attributes_plain, plain, Kind.attributes_plain]
        · have field := (found entry member).1
          rw [present?_attribute plain (names ▸ List.mem_map_of_mem member)] at field
          grind
      obtain ⟨child, member, inner, result, error⟩ := takeChildren_error
        (fun child member built result => ((ofRaw_toRaw (belowChildren child member)).1 result).1)
        (settled ▸ accepted_settle here) (by
          rw [attributes, ← settled]
          exact arranged_settle here strict) below
      rw [← same, ← error]
      exact ihChildren child member (wordedChildren child member) (shortChildren child member) result

/-! ### Which nodes are built -/

theorem get?_name {node : Node} {name : String} (isName : name ∈ nameAttributes) :
    node.toRaw.get? name = node.attributes.lookup name := by
  have apart : name ≠ "type" ∧ name ≠ "condition" ∧ name ≠ "children" ∧ name ≠ "ws" := by
    refine ⟨?_, ?_, ?_, ?_⟩ <;>
      · rintro rfl
        exact absurd isName (by decide)
  obtain ⟨notType, notCondition, notChildren, notGaps⟩ := apart
  rw [toRaw_eq, Json.get?, lookup_rawFields notType notCondition,
    lookup_rawBodyFields notChildren notGaps, Option.or_none]

/-- A reserved word is no name. -/
theorem isName_of_mem_reserved {word : String} (reserved : word ∈ reservedWords) :
    Verbatim.isName word = false := by
  have all : ∀ word ∈ reservedWords, Verbatim.isName word = false := by decide
  exact all word reserved

theorem loadable_iff {node : Node} (parsed : node.Parsed) (worded : node.Worded)
    (short : node.ShortNumbers) : node.Loadable ↔ node.toRaw.Unreserved := by
  constructor
  · rintro loadable name isName word reserved found
    rw [get?_name isName] at found
    have good := loadable.attributes _ (mem_of_lookup found)
    have proper := isName_of_good (List.contains_iff_mem.2 isName) good
    rw [isName_of_mem_reserved reserved] at proper
    exact Bool.false_ne_true proper
  · intro unreserved
    refine ⟨fun entry member => ?_, short⟩
    rcases worded entry member with good | ⟨isName, text, same, spelled⟩
    · exact good
    · have found : node.toRaw.get? entry.1 = some (.text text) := by
        rw [get?_name isName, lookup_of_mem (nodup_names parsed) member, same]
      rw [same, attributeProblem?_name (List.contains_iff_mem.2 isName) spelled, if_neg]
      exact fun reserved => unreserved entry.1 isName text (List.contains_iff_mem.1 reserved) found

/-- A text with so few characters that the numbers of its gaps can be read. -/
theorem shortNumbers_of_parse {start : Start} {text : String} {node : Node}
    (read : parse start text = .ok node) (short : text.length ≤ 10 ^ Text.digitLimit) :
    node.All ShortNumbers := by
  obtain ⟨⟨words, grammatical, -⟩, -⟩ := parse_reads read
  have few : node.lexemes.length ≤ 10 ^ Text.digitLimit := by
    rw [words, List.length_map]
    refine Nat.le_trans (length_lexTokens_le _ _ _) (Nat.le_trans ?_ short)
    have split := congrArg List.length (takeGap_append false text.toList)
    rw [List.length_append, String.length_toList] at split
    omega
  have all := (grammatical.complete.and grammatical.numbered).and
    (all_words_le grammatical.parsed few)
  refine all.imp fun below ⟨⟨complete, numbered⟩, few⟩ entry member => ?_
  exact Nat.lt_of_lt_of_le (numbered.lt complete entry member)
    (Nat.max_le.2 ⟨Nat.one_le_pow _ _ (by decide), few⟩)

end Node

namespace Tree

/-- **What parses is built unless a name in it is a reserved word, and nothing else is refused.** -/
theorem ofRaw_of_parseUnit {text label : String} {settings : Settings} {node : Node}
    (read : parseUnit text = .ok node) (short : text.length ≤ 10 ^ Text.digitLimit)
    (deep : node.toRaw.nesting ≤ settings.maxDepth) :
    ((∃ tree, ofRaw label settings node.toRaw = .ok tree) ↔
        node.All fun below => below.toRaw.Unreserved) ∧
      ∀ failure, ofRaw label settings node.toRaw = .error failure →
        failure.error.IsReservedName := by
  have grammatical := parse_grammatical read
  have numbers := Node.shortNumbers_of_parse read short
  have all := (grammatical.parsed.and grammatical.worded).and numbers
  have loadable : node.All Node.Loadable ↔ node.All fun below => below.toRaw.Unreserved := by
    constructor
    · intro good
      exact (good.and all).imp fun below ⟨good, ⟨parsed, worded⟩, short⟩ =>
        (Node.loadable_iff parsed worded short).1 good
    · intro unreserved
      exact (unreserved.and all).imp fun below ⟨unreserved, ⟨parsed, worded⟩, short⟩ =>
        (Node.loadable_iff parsed worded short).2 unreserved
  refine ⟨?_, fun failure failed => ?_⟩
  · rw [ofRaw_eq_map deep, ← loadable]
    constructor
    · rintro ⟨tree, made⟩
      cases built : Node.ofRaw settings.strictStructure false node.toRaw with
      | error failure =>
        rw [built] at made
        exact absurd made (by simp [Except.map])
      | ok result => exact ((Node.ofRaw_of_grammatical grammatical).1 built).2
    · intro good
      rw [(Node.ofRaw_of_grammatical grammatical).2 ⟨rfl, good⟩]
      exact ⟨_, rfl⟩
  · rw [ofRaw_eq_map deep] at failed
    cases built : Node.ofRaw settings.strictStructure false node.toRaw with
    | ok result =>
      rw [built] at failed
      exact absurd failed (by simp [Except.map])
    | error inner =>
      rw [built] at failed
      rw [← Except.error.inj failed]
      exact Node.isReservedName_of_error grammatical.parsed grammatical.worded numbers built

/-- The grammar reads a keyword as the name of a variable, and the build refuses it. -/
theorem ofRaw_of_parseUnit_keyword : ∃ node, parseUnit "int if = 1;" = .ok node ∧
    "int if = 1;".length ≤ 10 ^ Text.digitLimit ∧ node.toRaw.nesting ≤ ({} : Settings).maxDepth ∧
      ((∃ tree, ofRaw "t" {} node.toRaw = .ok tree) ↔
          node.All fun below => below.toRaw.Unreserved) ∧
        ∀ failure, ofRaw "t" {} node.toRaw = .error failure → failure.error.IsReservedName := by
  let node : Node := .mk .compilationUnit [] none
    [.mk .definition [] none
      [.mk .declaration [("type_name", .text "int"), ("variable_name", .text "if")] none []
          [(0, " "), (1, " ")],
        .mk .literal [("literal_type", .text "int"), ("value", .text "1")] none [] [(0, "")]]
      [(0, " "), (1, "")]]
    [(0, "")]
  have read : parseUnit "int if = 1;" = .ok node := by cbv
  have short : "int if = 1;".length ≤ 10 ^ Text.digitLimit :=
    Nat.le_trans (show 11 ≤ 10 ^ 2 by decide) (Nat.pow_le_pow_right (by decide) (by decide))
  have deep : node.toRaw.nesting ≤ ({} : Settings).maxDepth := by decide
  exact ⟨node, read, short, deep, ofRaw_of_parseUnit read short deep⟩

end Tree

end Verbatim
