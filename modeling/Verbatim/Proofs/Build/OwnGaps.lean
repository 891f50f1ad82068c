import Verbatim.Proofs.Build.LaidOut

/-!
# Nodes written out

A node can have a text of its own in some of its gaps, lack others, and carry texts for gaps that it
has no longer. Written out, it has its own text in every gap that is written, and no others. That
changes no word. And since the grammar asks nothing of the texts in gaps, what is grammatical when
laid out is grammatical when written out.

## Main definitions

* `Node.ownGaps`: the gaps that are written, with the texts that they are written with
* `Node.writtenOut`: the node with every gap written out

## Main results

* `Node.Grammatical.respaced`: **the grammar asks nothing of the texts in gaps**
* `Node.lexemes_writtenOut`: writing a node out changes no word
* `Node.grammatical_writtenOut`: an accepted and regular node is grammatical when written out
-/

namespace Verbatim

namespace Node

/-! ### Gaps of productions -/

/-- Gaps with the numbers of other gaps. -/
theorem exists_numberGaps {gaps : Gaps} {first : Nat} {texts : List String}
    (keys : gaps.map Prod.fst = (numberGaps first texts).map Prod.fst) :
    ∃ others, others.length = texts.length ∧ gaps = numberGaps first others := by
  induction texts generalizing gaps first with
  | nil =>
    obtain rfl := List.map_eq_nil_iff.1 keys
    exact ⟨[], rfl, rfl⟩
  | cons text rest ih =>
    obtain ⟨entry, later, rfl, same, keys⟩ := List.map_eq_cons_iff.1 keys
    obtain ⟨others, length, rfl⟩ := ih keys
    obtain ⟨number, own⟩ := entry
    obtain rfl : number = first := same
    exact ⟨own :: others, congrArg Nat.succ length, rfl⟩

theorem exists_one_gap {gaps : Gaps} (keys : gaps.map Prod.fst = [0]) :
    ∃ gap, gaps = [(0, gap)] := by
  obtain ⟨entry, rfl, same⟩ := List.map_eq_singleton_iff.1 keys
  exact ⟨entry.2, same ▸ rfl⟩

theorem exists_two_gaps {gaps : Gaps} (keys : gaps.map Prod.fst = [0, 1]) :
    ∃ first second, gaps = [(0, first), (1, second)] := by
  obtain ⟨entry, rest, rfl, same, keys⟩ := List.map_eq_cons_iff.1 keys
  obtain ⟨other, rfl, sameToo⟩ := List.map_eq_singleton_iff.1 keys
  exact ⟨entry.2, other.2, same ▸ sameToo ▸ rfl⟩

theorem exists_numberGaps_append {gaps : Gaps} {first second : Nat} {texts more : List String}
    (keys : gaps.map Prod.fst = (numberGaps first texts ++ numberGaps second more).map Prod.fst) :
    ∃ others othersToo, others.length = texts.length ∧ othersToo.length = more.length ∧
      gaps = numberGaps first others ++ numberGaps second othersToo := by
  rw [List.map_append] at keys
  obtain ⟨front, behind, rfl, keys, keysToo⟩ := List.map_eq_append_iff.1 keys
  obtain ⟨others, length, rfl⟩ := exists_numberGaps keys
  obtain ⟨othersToo, lengthToo, rfl⟩ := exists_numberGaps keysToo
  exact ⟨others, othersToo, length, lengthToo, rfl⟩

variable {node other : Node}

theorem IsOperand.congr {needed : Nat} (same : other.outline = node.outline)
    (h : node.IsOperand needed) : other.IsOperand needed := by
  obtain ⟨kind, operator⟩ := Prod.mk.inj same
  rw [IsOperand, kind, operator]
  exact h

theorem IsStatement.congr (same : other.outline = node.outline) (h : node.IsStatement) :
    other.IsStatement := by
  rw [IsStatement, (Prod.mk.inj same).1]
  exact h

theorem forall_congr_outline {property : Node → Prop}
    (congr : ∀ {node other : Node}, other.outline = node.outline → property node → property other)
    {nodes others : List Node} (same : others.map outline = nodes.map outline)
    (each : ∀ node ∈ nodes, property node) : ∀ other ∈ others, property other := by
  intro other member
  have outlined : other.outline ∈ nodes.map outline := same ▸ List.mem_map_of_mem member
  obtain ⟨node, inside, equal⟩ := List.mem_map.1 outlined
  exact congr equal.symm (each node inside)

theorem Grammatical.exists_name (h : node.Grammatical) (kind : node.kind = .reference) :
    ∃ name : Token, name.Is .name ∧ node = .ofName name := by
  cases h with
  | reference name => exact ⟨_, name, rfl⟩
  | guarded guard =>
    obtain rfl := show _ = Kind.reference from kind
    exact absurd rfl guard
  | _ => exact absurd kind Kind.noConfusion

theorem Grammatical.exists_declaration (h : node.Grammatical) (kind : node.kind = .declaration) :
    ∃ typeName variableName : Token, typeName.Is .name ∧ variableName.Is .name ∧
      node = .ofDeclaration typeName variableName := by
  cases h with
  | declaration isType isVariable => exact ⟨_, _, isType, isVariable, rfl⟩
  | guarded guard =>
    obtain rfl := show _ = Kind.declaration from kind
    exact absurd rfl guard
  | _ => exact absurd kind Kind.noConfusion

theorem exists_last_four {α : Type} {items : List α} {count : Nat}
    (length : items.length = count + 4) : ∃ front first second third fourth,
      items = front ++ [first, second, third, fourth] ∧ front.length = count := by
  have four : (items.drop count).length = 4 := by
    rw [List.length_drop, length, Nat.add_sub_cancel_left]
  obtain ⟨first, rest, same⟩ := List.exists_cons_of_length_eq_add_one four
  rw [same] at four
  obtain ⟨second, third, fourth, rfl⟩ := List.length_eq_three.1 (Nat.succ.inj four)
  refine ⟨items.take count, first, second, third, fourth, ?_, ?_⟩
  · rw [← same, List.take_append_drop]
  · rw [List.length_take, length]
    exact Nat.min_eq_left (Nat.le_add_right count 4)

section Respaced

variable {condition : Option Node} {children : List Node} {gaps : Gaps}

theorem exists_pair {left right : Node}
    (same : children.map outline = [left, right].map outline) :
    ∃ first second, children = [first, second] ∧ first.outline = left.outline ∧
      second.outline = right.outline := by
  obtain ⟨first, rest, rfl, equal, same⟩ := List.map_eq_cons_iff.1 same
  obtain ⟨second, rfl, equalToo⟩ := List.map_eq_singleton_iff.1 same
  exact ⟨first, second, rfl, equal, equalToo⟩

/-- **The grammar asks nothing of the texts in gaps.** The words of a production get other gaps, and
what is below is replaced by what looks the same and is derived. -/
theorem Grammatical.respaced (h : node.Grammatical)
    (keys : gaps.map Prod.fst = node.gaps.map Prod.fst)
    (slot : condition.map outline = node.condition.map outline)
    (same : children.map outline = node.children.map outline)
    (inner : ∀ below ∈ condition, below.Grammatical)
    (each : ∀ child ∈ children, child.Grammatical) :
    (mk node.kind node.attributes condition children gaps).Grammatical := by
  have count : children.length = node.children.length := by
    rw [← List.length_map, same, List.length_map]
  cases h with
  | @literal word isLiteral spelled =>
    obtain rfl := Option.map_eq_none_iff.1 slot
    obtain rfl := List.map_eq_nil_iff.1 same
    obtain ⟨gap, rfl⟩ := exists_one_gap keys
    exact @literal { word with gap } isLiteral spelled
  | @reference word name =>
    obtain rfl := Option.map_eq_none_iff.1 slot
    obtain rfl := List.map_eq_nil_iff.1 same
    obtain ⟨gap, rfl⟩ := exists_one_gap keys
    exact @reference { word with gap } ⟨name.1, name.2⟩
  | @call name left right arguments commas isName commaCount below operands =>
    obtain rfl := Option.map_eq_none_iff.1 slot
    obtain ⟨texts, others, length, lengthToo, rfl⟩ := exists_numberGaps_append keys
    obtain ⟨first, second, third, rfl⟩ := List.length_eq_three.1 length
    have count : children.length = arguments.length := count
    exact @call { name with gap := first } { left with gap := second } { right with gap := third }
      children others ⟨isName.1, isName.2⟩ (by omega) each
      (forall_congr_outline IsOperand.congr same operands)
  | @bracketed left right inside below operand =>
    obtain rfl := Option.map_eq_none_iff.1 slot
    obtain ⟨child, rfl, equal⟩ := List.map_eq_singleton_iff.1 same
    obtain ⟨first, second, rfl⟩ := exists_two_gaps keys
    exact @bracketed { left with gap := first } { right with gap := second } child
      (each child List.mem_cons_self) (operand.congr equal)
  | @unary sign inside isSign spelled below operand =>
    obtain rfl := Option.map_eq_none_iff.1 slot
    obtain ⟨child, rfl, equal⟩ := List.map_eq_singleton_iff.1 same
    obtain ⟨gap, rfl⟩ := exists_one_gap keys
    exact @unary { sign with gap } child isSign spelled (each child List.mem_cons_self)
      (operand.congr equal)
  | @binary left right word own strength spelled belowLeft belowRight operandLeft operandRight =>
    obtain rfl := Option.map_eq_none_iff.1 slot
    obtain ⟨first, second, rfl, equal, equalToo⟩ := exists_pair same
    obtain ⟨derived, derivedToo⟩ := List.forall_mem_cons.1 each
    obtain ⟨gap, rfl⟩ := exists_one_gap keys
    exact @binary first second { word with gap } own strength spelled derived
      (List.forall_mem_singleton.1 derivedToo) (operandLeft.congr equal)
      (operandRight.congr equalToo)
  | @creation create name left right arguments commas isName commaCount below operands =>
    obtain rfl := Option.map_eq_none_iff.1 slot
    obtain ⟨texts, others, length, lengthToo, rfl⟩ := exists_numberGaps_append keys
    obtain ⟨first, texts, rfl⟩ := List.exists_cons_of_length_eq_add_one length
    obtain ⟨second, third, fourth, rfl⟩ := List.length_eq_three.1 (Nat.succ.inj length)
    have count : children.length = arguments.length := count
    exact @creation { create with gap := first } { name with gap := second }
      { left with gap := third } { right with gap := fourth } children others
      ⟨isName.1, isName.2⟩ (by omega) each (forall_congr_outline IsOperand.congr same operands)
  | @declaration typeName variableName isType isVariable =>
    obtain rfl := Option.map_eq_none_iff.1 slot
    obtain rfl := List.map_eq_nil_iff.1 same
    obtain ⟨first, second, rfl⟩ := exists_two_gaps keys
    exact @declaration { typeName with gap := first } { variableName with gap := second }
      ⟨isType.1, isType.2⟩ ⟨isVariable.1, isVariable.2⟩
  | @assignment name equals semicolon value isName below operand =>
    obtain rfl := Option.map_eq_none_iff.1 slot
    obtain ⟨first, second, rfl, equal, equalToo⟩ := exists_pair same
    obtain ⟨derived, derivedToo⟩ := List.forall_mem_cons.1 each
    obtain ⟨other, isNameToo, rfl⟩ := derived.exists_name (Prod.mk.inj equal).1
    obtain ⟨gap, gapToo, rfl⟩ := exists_two_gaps keys
    exact @assignment other { equals with gap } { semicolon with gap := gapToo } second isNameToo
      (List.forall_mem_singleton.1 derivedToo) (operand.congr equalToo)
  | @definition typeName variableName equals semicolon value isType isVariable below initializer =>
    obtain rfl := Option.map_eq_none_iff.1 slot
    obtain ⟨first, second, rfl, equal, equalToo⟩ := exists_pair same
    obtain ⟨derived, derivedToo⟩ := List.forall_mem_cons.1 each
    obtain ⟨otherType, other, isTypeToo, isVariableToo, rfl⟩ :=
      derived.exists_declaration (Prod.mk.inj equal).1
    obtain ⟨gap, gapToo, rfl⟩ := exists_two_gaps keys
    exact @definition otherType other { equals with gap } { semicolon with gap := gapToo } second
      isTypeToo isVariableToo (List.forall_mem_singleton.1 derivedToo)
      (initializer.imp (IsOperand.congr equalToo) (Prod.mk.inj equalToo).1.trans)
  | @returns word semicolon values commas commaCount below operands =>
    obtain rfl := Option.map_eq_none_iff.1 slot
    obtain ⟨texts, others, length, lengthToo, rfl⟩ := exists_numberGaps_append keys
    obtain ⟨first, second, rfl⟩ := List.length_eq_two.1 length
    have count : children.length = values.length := count
    exact @returns { word with gap := first } { semicolon with gap := second } children others
      (by omega) each (forall_congr_outline IsOperand.congr same operands)
  | @expression inside semicolon below operand =>
    obtain rfl := Option.map_eq_none_iff.1 slot
    obtain ⟨child, rfl, equal⟩ := List.map_eq_singleton_iff.1 same
    obtain ⟨gap, rfl⟩ := exists_one_gap keys
    exact @expression child { semicolon with gap } (each child List.mem_cons_self)
      (operand.congr equal)
  | @guarded kind words left right opening closing guard body isGuard wordCount belowCondition
      operand below statements =>
    obtain ⟨found, rfl, equal⟩ := Option.map_eq_some_iff.1 slot
    obtain ⟨texts, length, rfl⟩ := exists_numberGaps keys
    rw [List.length_map, List.length_append] at length
    obtain ⟨front, first, second, third, fourth, rfl, few⟩ := exists_last_four length
    -- Of the words in front only the gaps are kept, so any words will do.
    have derived := @guarded kind (front.map fun gap => { left with gap }) { left with gap := first }
      { right with gap := second } { opening with gap := third } { closing with gap := fourth } found
      children isGuard (by rw [List.length_map, few, wordCount]) (inner found rfl)
      (operand.congr equal) each (forall_congr_outline IsStatement.congr same statements)
    have texts : (front.map fun gap => { left with gap }).map Token.gap = front := by
      rw [List.map_map]
      exact List.map_id front
    rw [ofBlock, List.map_append, texts] at derived
    exact derived
  | @otherwise word opening closing body below statements =>
    obtain rfl := Option.map_eq_none_iff.1 slot
    obtain ⟨texts, length, rfl⟩ := exists_numberGaps keys
    obtain ⟨first, second, third, rfl⟩ := List.length_eq_three.1 length
    exact @otherwise { word with gap := first } { opening with gap := second }
      { closing with gap := third } children each
      (forall_congr_outline IsStatement.congr same statements)
  | @chain first others belowFirst isFirst below order =>
    obtain rfl := Option.map_eq_none_iff.1 slot
    obtain rfl := List.map_eq_nil_iff.1 keys
    obtain ⟨front, rest, rfl, equal, same⟩ := List.map_eq_cons_iff.1 same
    obtain ⟨derived, each⟩ := List.forall_mem_cons.1 each
    have kinds : rest.map kind = others.map kind := by
      have kinds := congrArg (List.map Prod.fst) same
      rwa [List.map_map, List.map_map] at kinds
    exact @chain front rest derived ((Prod.mk.inj equal).1.trans isFirst) each (kinds ▸ order)
  | @unit leading statements below all =>
    obtain rfl := Option.map_eq_none_iff.1 slot
    obtain ⟨gap, rfl⟩ := exists_one_gap keys
    exact @unit gap children each (forall_congr_outline IsStatement.congr same all)

end Respaced

/-! ### Written out -/

/-- The gaps that are written, with the texts that they are written with. -/
def ownGaps (kind : Kind) (gaps : Gaps) (count : Nat) : Gaps :=
  (defaultGaps kind count).map fun entry => (entry.1, gapText kind gaps entry.1)

mutual

/-- The node with every gap written out as it is, and connector definitions as definitions. -/
def writtenOut : Node → Node
  | mk kind attributes none children gaps =>
    mk kind.plain attributes none (writtenOutAll children) (ownGaps kind gaps children.length)
  | mk kind attributes (some condition) children gaps =>
    mk kind.plain attributes (some (writtenOut condition)) (writtenOutAll children)
      (ownGaps kind gaps children.length)

/-- Each of the nodes written out. -/
def writtenOutAll : List Node → List Node
  | [] => []
  | node :: rest => writtenOut node :: writtenOutAll rest

end

theorem writtenOutAll_eq_map (nodes : List Node) : writtenOutAll nodes = nodes.map writtenOut := by
  induction nodes with
  | nil => rfl
  | cons node rest ih => rw [writtenOutAll, ih, List.map_cons]

theorem writtenOut_eq (node : Node) : node.writtenOut = mk node.kind.plain node.attributes
    (node.condition.map writtenOut) (node.children.map writtenOut)
    (ownGaps node.kind node.gaps node.children.length) := by
  rcases node with ⟨kind, attributes, _ | condition, children, gaps⟩ <;>
    rw [writtenOut, writtenOutAll_eq_map] <;> rfl

theorem keys_ownGaps (kind : Kind) (gaps : Gaps) (count : Nat) :
    (ownGaps kind gaps count).map Prod.fst = (defaultGaps kind count).map Prod.fst := by
  rw [ownGaps, List.map_map]
  rfl

theorem outline_writtenOut (node : Node) : node.writtenOut.outline = node.laidOut.outline := by
  rw [writtenOut_eq, laidOut_eq]
  rfl

/-- An accepted and regular node is grammatical when written out. -/
theorem grammatical_writtenOut (accepted : node.All Accepted) (regular : node.All Regular) :
    node.writtenOut.Grammatical := by
  induction node using inductionOn with
  | step node condition children =>
    have derived := grammatical_laidOut accepted regular
    obtain ⟨-, inner, each⟩ := accepted
    obtain ⟨-, within, all⟩ := regular
    rw [laidOut_eq] at derived
    rw [writtenOut_eq]
    have outlines : outline ∘ writtenOut = outline ∘ laidOut := funext outline_writtenOut
    refine derived.respaced (keys_ownGaps ..) ?_ ?_ ?_ (List.forall_mem_map.2 fun child member =>
      children child member (each child member) (all child member))
    · rw [Node.condition, Option.map_map, Option.map_map, outlines]
    · rw [Node.children, List.map_map, List.map_map, outlines]
    · intro below member
      obtain ⟨found, slot, rfl⟩ := Option.map_eq_some_iff.1 member
      exact condition found slot (inner found slot) (within found slot)

/-- The words of a list depend on the gaps behind its commas. -/
theorem sequenceLexemes_congr {base place : Nat} {first second : Nat → String}
    {children : List (List Lexeme)}
    (agree : ∀ index, index + 1 < place + children.length →
      first (base + index) = second (base + index)) :
    Part.sequenceLexemes (some (",", base)) first place children =
      Part.sequenceLexemes (some (",", base)) second place children := by
  induction children generalizing place with
  | nil => rfl
  | cons words rest ih =>
    have later := @ih (place + 1) fun index less => agree index (by
      rw [List.length_cons]
      omega)
    rw [Part.sequenceLexemes, Part.sequenceLexemes, later]
    cases place with
    | zero => rfl
    | succ place =>
      rw [Part.separatorLexemes, Part.separatorLexemes, agree place (by
        rw [List.length_cons]
        omega)]

/-- The words of a node depend on the gaps that are written. -/
theorem lexemes_congr_gaps {kind : Kind} {attributes : List (String × Json)}
    {condition : List Lexeme} {children : List (List Lexeme)} {first second : Nat → String}
    (agree : ∀ entry ∈ defaultGaps kind children.length, first entry.1 = second entry.1) :
    Part.lexemes attributes first condition children kind.layout.parts =
      Part.lexemes attributes second condition children kind.layout.parts := by
  have fixed (entry : Nat × String) (member : entry ∈ kind.layout.defaults) :
      first entry.1 = second entry.1 := agree entry (List.mem_append_left _ member)
  have commas (base : Nat) (separator : kind.layout.separatorBase? = some base) :
      Part.sequenceLexemes (some (",", base)) first 0 children =
        Part.sequenceLexemes (some (",", base)) second 0 children := by
    refine sequenceLexemes_congr fun index less => ?_
    refine agree (base + index, Layout.separatorDefault) (List.mem_append_right _ ?_)
    rw [separator]
    refine mem_of_get? ?_
    rw [get?_numberGaps, List.getElem?_replicate, if_pos (by omega)]
  cases kind <;>
    simp_all [Kind.layout, Kind.pairLayout, Part.lexemes, Layout.separatorBase?,
      sequenceLexemes_none]

theorem get?_map (gaps : Gaps) (texts : Nat → String) {index : Nat}
    (known : index ∈ gaps.map Prod.fst) :
    Gaps.get? (gaps.map fun entry => (entry.1, texts entry.1)) index = some (texts index) := by
  induction gaps with
  | nil => exact absurd known List.not_mem_nil
  | cons entry rest ih =>
    rw [List.map_cons, Gaps.get?]
    by_cases here : entry.1 = index
    · rw [if_pos here, here]
    · rw [if_neg here]
      exact ih ((List.mem_cons.1 known).resolve_left (Ne.symm here))

theorem gapText_ownGaps {kind : Kind} {gaps : Gaps} {count index : Nat}
    (known : index ∈ (defaultGaps kind count).map Prod.fst) :
    gapText kind (ownGaps kind gaps count) index = gapText kind gaps index :=
  gapText_of_get? (get?_map _ _ known)

/-- Writing a node out changes no word. -/
theorem lexemes_writtenOut (node : Node) : node.writtenOut.lexemes = node.lexemes := by
  induction node using inductionOn with
  | step node condition children =>
    have slot : (node.condition.map writtenOut).map lexemes = node.condition.map lexemes := by
      rw [Option.map_map]
      exact Option.map_congr condition
    have below : (node.children.map writtenOut).map lexemes = node.children.map lexemes := by
      rw [List.map_map]
      exact List.map_congr_left children
    rw [writtenOut_eq, lexemes_eq, lexemes_eq node]
    show Part.lexemes node.attributes
      (gapText node.kind.plain (ownGaps node.kind node.gaps node.children.length))
      (((node.condition.map writtenOut).map lexemes).getD [])
      ((node.children.map writtenOut).map lexemes) node.kind.plain.layout.parts = _
    rw [slot, below, Kind.layout_plain]
    refine lexemes_congr_gaps fun entry member => ?_
    rw [List.length_map] at member
    rw [gapText_plain, gapText_ownGaps (List.mem_map_of_mem member)]

theorem leading_writtenOut (node : Node) : node.writtenOut.leading = node.leading := by
  rw [leading, leading, writtenOut_eq]
  show (if node.kind.plain = .compilationUnit then
    gapText node.kind.plain (ownGaps node.kind node.gaps node.children.length) 0 else "") = _
  by_cases unit : node.kind = .compilationUnit
  · rw [unit, gapText_plain, gapText_ownGaps List.mem_cons_self]
    rfl
  · rw [if_neg unit, if_neg]
    cases same : node.kind <;> simp_all [Kind.plain]

/-- **A text whose words are those of an accepted and regular node is read as the node written
out.** -/
theorem parse_of_words {start : Start} {text : String} {node : Node}
    (accepted : node.All Accepted) (regular : node.All Regular)
    (takes : start.Takes node.writtenOut)
    (words : (lex start.expectation text).tokens.map Token.lexeme = node.lexemes)
    (leading : start = .unit → node.leading = (lex start.expectation text).leading)
    (finished : (lex start.expectation text).stuck = none) :
    parse start text = .ok node.writtenOut :=
  parse_complete (grammatical_writtenOut accepted regular) takes
    (words.trans (lexemes_writtenOut node).symm)
    (fun unit => (leading_writtenOut node).trans (leading unit)) finished

theorem loadable_writtenOut {node : Node} (accepted : node.All Accepted)
    (countable : node.All Countable) : node.writtenOut.All Loadable := by
  refine Regaps.all writtenOut_eq (fun node here => ?_) (accepted.and countable)
  obtain ⟨attributes, gaps⟩ := here.1.loadable_laidOut here.2
  rw [laidOut_eq] at attributes gaps
  rw [writtenOut_eq]
  refine ⟨attributes, fun entry member => ?_⟩
  obtain ⟨other, inside, rfl⟩ := List.mem_map.1 member
  exact gaps other inside

end Node

end Verbatim
