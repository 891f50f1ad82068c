import Verbatim.Proofs.RoundTrip

/-!
# The gaps of parsed nodes

A node that was read from a text has a gap of its own for every place at which its layout asks for
one, and no other gap. Each gap is a row of white space and comments.

## Main definitions

* `Layout.gapNumbers`: the gaps that are written, for a number of children
* `Text.IsSpaces`, `Text.IsComment`, `Text.IsBlankRow`: white space, comments, and rows of both
* `Node.Captured`: what reading promises about the gaps of one node

## Main results

* `Layout.pieces_eq_iff`: what a layout writes depends on the written gaps, and on each of them
* `captured_of_parse`: every node of a parsed tree keeps the promise

## Implementation notes

The numbers come from the productions, and the texts from the words: every gap stands behind a word
of the node, and behind each word the text is blank. So nothing here follows the parser; the two
facts about it that are needed are that its nodes are grammatical and that their words are the words
of the text.
-/

namespace Verbatim

/-! ### Gaps that are written -/

/-- The numbers of the gaps in a part, where the node has the given number of children. -/
def Part.gapNumbers (count : Nat) : Part → List Nat
  | .gap index => [index]
  | .children (some (_, base)) => List.range' base (count - 1)
  | _ => []

/-- The numbers of the gaps that are written, where the node has the given number of children. -/
def Layout.gapNumbers (layout : Layout) (count : Nat) : List Nat :=
  layout.parts.flatMap (Part.gapNumbers count)

namespace Part

variable {kind : Kind} {attributes : List (String × Json)} {first second : Nat → String}
  {condition : Option (Except RenderError String)} {children : List (Except RenderError String)}

theorem separatorPieces_eq_iff {comma : String} {base place : Nat} :
    separatorPieces (some (comma, base)) first place =
        separatorPieces (some (comma, base)) second place ↔
      ∀ index, index + 1 = place → first (base + index) = second (base + index) := by
  rcases place with _ | place
  · simp [separatorPieces]
  · simp [separatorPieces]

theorem length_separatorPieces (separator : Option (String × Nat)) (gapText : Nat → String)
    (place : Nat) :
    (separatorPieces separator gapText place).length =
      if place = 0 ∨ separator = none then 0 else 2 := by
  rcases place with _ | place
  · rfl
  · rcases separator with _ | ⟨comma, base⟩ <;> simp [separatorPieces]

/-- Children with commas between them: one gap less than there are children. -/
theorem sequencePieces_eq_iff {comma : String} {base : Nat} (start : Nat) :
    ((children.zipIdx start).map fun (text, place) =>
        separatorPieces (some (comma, base)) first place ++ [text]).flatten =
      ((children.zipIdx start).map fun (text, place) =>
        separatorPieces (some (comma, base)) second place ++ [text]).flatten ↔
      ∀ index, start ≤ index + 1 → index + 1 < start + children.length →
        first (base + index) = second (base + index) := by
  induction children generalizing start with
  | nil =>
    simp only [List.zipIdx_nil, List.map_nil, List.flatten_nil, List.length_nil, true_iff]
    omega
  | cons text rest ih =>
    have long : (separatorPieces (some (comma, base)) first start ++ [text]).length =
        (separatorPieces (some (comma, base)) second start ++ [text]).length := by
      simp only [List.length_append, length_separatorPieces]
    simp only [List.zipIdx_cons, List.map_cons, List.flatten_cons]
    rw [List.append_eq_append_iff_of_size_eq_left long, List.append_left_inj, separatorPieces_eq_iff, ih (start + 1),
      List.length_cons]
    constructor
    · rintro ⟨here, later⟩ index lower upper
      by_cases own : index + 1 = start
      · exact here index own
      · exact later index (by omega) (by omega)
    · intro all
      exact ⟨fun index own => all index (by omega) (by omega),
        fun index lower upper => all index (by omega) (by omega)⟩

/-- What a part writes depends on its gaps, and on each of them. -/
theorem pieces_eq_iff (part : Part) :
    part.pieces kind attributes first condition children =
        part.pieces kind attributes second condition children ↔
      ∀ index ∈ part.gapNumbers children.length, first index = second index := by
  cases part with
  | children separator =>
    rcases separator with _ | ⟨comma, base⟩
    · have none (gapText : Nat → String) (place : Nat) : separatorPieces none gapText place = [] := by
        cases place <;> rfl
      simp [pieces, gapNumbers, none]
    · rw [pieces, pieces, sequencePieces_eq_iff]
      simp only [gapNumbers, List.mem_range'_1]
      constructor
      · intro all index bounds
        have := all (index - base) (by omega) (by omega)
        rwa [show base + (index - base) = index by omega] at this
      · intro all index _ upper
        exact all (base + index) (by omega)
  | _ => simp [pieces, gapNumbers]

theorem length_pieces (part : Part) :
    (part.pieces kind attributes first condition children).length =
      (part.pieces kind attributes second condition children).length := by
  cases part with
  | children separator => simp [pieces, Function.comp_def, length_separatorPieces]
  | _ => rfl

end Part

/-- **What a layout writes depends on the written gaps, and on each of them.** -/
theorem Layout.pieces_eq_iff {kind : Kind} {attributes : List (String × Json)}
    {first second : Nat → String} {condition : Option (Except RenderError String)}
    {children : List (Except RenderError String)} (layout : Layout) :
    layout.parts.flatMap (Part.pieces kind attributes first condition children) =
        layout.parts.flatMap (Part.pieces kind attributes second condition children) ↔
      ∀ index ∈ layout.gapNumbers children.length, first index = second index := by
  rw [gapNumbers]
  induction layout.parts with
  | nil => simp
  | cons part rest ih =>
    rw [List.flatMap_cons, List.flatMap_cons, List.flatMap_cons, List.forall_mem_append, ← ih,
      List.append_eq_append_iff_of_size_eq_left (Part.length_pieces part), Part.pieces_eq_iff]

/-! ### How many gaps there are -/

/-- The number of gaps that a node of the kind is written with, for a number of children. -/
def Kind.gapCount (kind : Kind) (count : Nat) : Nat :=
  kind.layout.defaults.length + if kind.layout.separatorBase?.isSome then count - 1 else 0

/-- **Written gaps are numbered from zero, without a number left out.** -/
theorem Kind.gapNumbers_perm (kind : Kind) (count : Nat) :
    (kind.layout.gapNumbers count).Perm (List.range (kind.gapCount count)) := by
  have commas (base : Nat) : List.range (base + (count - 1)) =
      List.range base ++ List.range' base (count - 1) := by
    rw [List.range_add, List.range'_eq_map_range]
  cases kind with
  | returnStatement =>
    show ([0] ++ (List.range' 2 (count - 1) ++ [1])).Perm (List.range (2 + (count - 1)))
    rw [commas]
    exact .append_left [0] List.perm_append_comm
  | call =>
    show ([0, 1] ++ (List.range' 3 (count - 1) ++ [2])).Perm (List.range (3 + (count - 1)))
    rw [commas]
    exact .append_left [0, 1] List.perm_append_comm
  | connectorCreation =>
    show ([0, 1, 2] ++ (List.range' 4 (count - 1) ++ [3])).Perm (List.range (4 + (count - 1)))
    rw [commas]
    exact .append_left [0, 1, 2] List.perm_append_comm
  | _ => exact .refl _

theorem Kind.mem_gapNumbers {kind : Kind} {count index : Nat} :
    index ∈ kind.layout.gapNumbers count ↔ index < kind.gapCount count := by
  rw [(kind.gapNumbers_perm count).mem_iff, List.mem_range]

/-! ### Blank rows -/

namespace Text

/-- White space as one word: at least one character. -/
def IsSpaces (chars : List Char) : Prop := chars ≠ [] ∧ ∀ c ∈ chars, isSpace c

/-- A comment as one word: two slashes and what stands behind them in the line. -/
def IsComment (chars : List Char) : Prop := ∃ body, chars = '/' :: '/' :: body ∧ '\n' ∉ body

/-- A row of white space and comments. -/
def IsBlankRow (text : String) : Prop :=
  ∃ words : List (List Char), text.toList = words.flatten ∧
    ∀ word ∈ words, IsSpaces word ∨ IsComment word

end Text

open Text

/-- Blank text is a row of white space and comments; where a comment has begun, the rest of its line
comes first. -/
theorem BlankThen.words {kept chars : List Char} {comment : Bool}
    (h : BlankThen kept comment chars) :
    ∃ body, ∃ words : List (List Char), chars = body ++ words.flatten ++ kept ∧ '\n' ∉ body ∧
      (comment = false → body = []) ∧ ∀ word ∈ words, IsSpaces word ∨ IsComment word := by
  have one {c : Char} (space : isSpace c) : IsSpaces [c] :=
    ⟨by simp, List.forall_mem_singleton.2 space⟩
  -- The body is the rest of a comment that has begun; it goes into a word when the comment ends.
  induction h with
  | here => exact ⟨[], [], by simp, by simp, fun _ => rfl, by simp⟩
  | ending nothing => exact ⟨[], [], by simp [nothing], by simp, fun _ => rfl, by simp⟩
  | @space c rest space _ ih =>
    obtain ⟨body, words, rfl, -, nothing, all⟩ := ih
    obtain rfl := nothing rfl
    exact ⟨[], [c] :: words, rfl, by simp, fun _ => rfl,
      List.forall_mem_cons.2 ⟨.inl (one space), all⟩⟩
  | opens _ ih =>
    obtain ⟨body, words, rfl, line, -, all⟩ := ih
    exact ⟨[], ('/' :: '/' :: body) :: words, rfl, by simp, fun _ => rfl,
      List.forall_mem_cons.2 ⟨.inr ⟨body, rfl, line⟩, all⟩⟩
  | @inside c rest inside _ ih =>
    obtain ⟨body, words, rfl, line, -, all⟩ := ih
    exact ⟨c :: body, words, rfl, by simpa [line] using inside.symm, by simp, all⟩
  | closes _ ih =>
    obtain ⟨body, words, rfl, -, nothing, all⟩ := ih
    obtain rfl := nothing rfl
    exact ⟨[], ['\n'] :: words, rfl, by simp, by simp,
      List.forall_mem_cons.2 ⟨.inl (one rfl), all⟩⟩

theorem isBlankRow_takeGap (chars : List Char) :
    IsBlankRow (String.ofList (takeGap false chars).1) := by
  obtain ⟨body, words, same, -, nothing, all⟩ := (blankThen_takeGap false chars).words
  obtain rfl := nothing rfl
  refine ⟨words, ?_, all⟩
  rw [String.toList_ofList]
  exact List.append_cancel_right ((takeGap_append false chars).trans same)

/-- Behind every word of a text stands a blank row. -/
theorem lexTokens_gap (expectation : Expectation) (place : Place) (chars : List Char) :
    ∀ token ∈ (lexTokens expectation place chars).1, IsBlankRow token.gap := by
  fun_induction lexTokens expectation place chars with
  | case1 => simp
  | case2 expectation place chars kind word rest found split token later ih =>
    exact List.forall_mem_cons.2 ⟨isBlankRow_takeGap rest, ih⟩

/-! ### Gaps and words of a node -/

namespace Part

variable {attributes : List (String × Json)} {gapText : Nat → String} {condition : List Lexeme}
  {children : List (List Lexeme)}

theorem sublist_sequenceLexemes {separator : Option (String × Nat)} {words : List Lexeme}
    (member : words ∈ children) (place : Nat) :
    words.Sublist (sequenceLexemes separator gapText place children) := by
  induction children generalizing place with
  | nil => exact absurd member List.not_mem_nil
  | cons first rest ih =>
    rw [sequenceLexemes]
    rcases List.mem_cons.1 member with rfl | member
    · exact (List.sublist_append_right _ _).trans (List.sublist_append_left _ _)
    · exact (ih member (place + 1)).trans (List.sublist_append_right _ _)

/-- A word stands in front of every gap behind a comma. -/
theorem exists_separatorLexeme {comma : String} {base index : Nat} (place : Nat)
    (lower : place ≤ index + 1) (upper : index + 1 < place + children.length) :
    ∃ word ∈ sequenceLexemes (some (comma, base)) gapText place children,
      word.gap = gapText (base + index) := by
  induction children generalizing place with
  | nil =>
    rw [List.length_nil] at upper
    omega
  | cons first rest ih =>
    rw [sequenceLexemes]
    by_cases own : index + 1 = place
    · subst own
      exact ⟨_, List.mem_append_left _ (List.mem_append_left _ List.mem_cons_self), rfl⟩
    · rw [List.length_cons] at upper
      obtain ⟨word, member, gap⟩ := ih (place + 1) (by omega) (by omega)
      exact ⟨word, List.mem_append_right _ member, gap⟩

/-- A word stands in front of every gap that can be written. -/
theorem exists_lexeme_of_gap {present : Bool} {parts : List Part} {index : Nat}
    (writable : Writable attributes present children.length parts)
    (member : index ∈ parts.flatMap (gapNumbers children.length)) :
    ∃ word ∈ lexemes attributes gapText condition children parts, word.gap = gapText index := by
  fun_induction lexemes attributes gapText condition children parts with
  | case1 text own rest ih =>
    rcases List.mem_cons.1 member with rfl | member
    · exact ⟨_, List.mem_cons_self, rfl⟩
    · obtain ⟨word, there, gap⟩ := ih writable member
      exact ⟨word, List.mem_cons_of_mem _ there, gap⟩
  | case2 name own rest ih =>
    rcases List.mem_cons.1 member with rfl | member
    · exact ⟨_, List.mem_cons_self, rfl⟩
    · obtain ⟨word, there, gap⟩ := ih writable.2 member
      exact ⟨word, List.mem_cons_of_mem _ there, gap⟩
  | case3 rest ih | case4 child rest ih =>
    obtain ⟨word, there, gap⟩ := ih writable.2 member
    exact ⟨word, List.mem_append_right _ there, gap⟩
  | case5 separator rest ih =>
    rcases List.mem_append.1 member with member | member
    · rcases separator with _ | ⟨comma, base⟩
      · exact absurd member List.not_mem_nil
      · obtain ⟨lower, upper⟩ := List.mem_range'_1.1 member
        obtain ⟨word, there, gap⟩ := @exists_separatorLexeme gapText children comma base
          (index - base) 0 (by omega) (by omega)
        refine ⟨word, List.mem_append_left _ there, ?_⟩
        rw [gap, show base + (index - base) = index by omega]
    · obtain ⟨word, there, gap⟩ := ih writable member
      exact ⟨word, List.mem_append_right _ there, gap⟩
  | case6 part rest hword hattribute hcondition hchild hchildren ih =>
    rw [Writable] at writable <;> grind
  | case7 => exact absurd member List.not_mem_nil

end Part

namespace Kind

/-- A layout has a place for every child that its kind takes. -/
theorem exists_childPart {kind : Kind} {place count : Nat} (takes : kind.takesCount count)
    (small : place < count) :
    Part.child place ∈ kind.layout.parts ∨ ∃ separator, Part.children separator ∈ kind.layout.parts := by
  obtain ⟨-, most⟩ := takes
  cases kind <;> simp [Kind.maxChildren] at most <;> simp [Kind.layout, Kind.pairLayout] <;> omega

/-- A layout has a place for a condition where its kind has a slot for one. -/
theorem conditionPart_mem {kind : Kind} (has : kind.hasCondition) :
    Part.condition ∈ kind.layout.parts := by
  cases kind <;> first | exact absurd has Bool.false_ne_true | decide

end Kind

namespace Part

variable {attributes : List (String × Json)} {gapText : Nat → String} {condition : List Lexeme}
  {children : List (List Lexeme)} {parts : List Part}

theorem sublist_lexemes_condition (there : Part.condition ∈ parts) :
    condition.Sublist (lexemes attributes gapText condition children parts) := by
  fun_induction lexemes attributes gapText condition children parts with
  | case3 rest ih => exact List.sublist_append_left _ _
  | _ => grind

theorem sublist_lexemes_child {place : Nat} {words : List Lexeme}
    (found : children[place]? = some words)
    (there : Part.child place ∈ parts ∨ ∃ separator, Part.children separator ∈ parts) :
    words.Sublist (lexemes attributes gapText condition children parts) := by
  fun_induction lexemes attributes gapText condition children parts with
  | case4 other rest ih =>
    by_cases same : other = place
    · subst same
      rw [List.getD_eq_getElem?_getD, found]
      exact List.sublist_append_left _ _
    · exact (ih (by grind)).trans (List.sublist_append_right _ _)
  | case5 separator rest ih =>
    exact (sublist_sequenceLexemes (List.mem_of_getElem? found) 0).trans
      (List.sublist_append_left _ _)
  | _ => grind

theorem length_sequenceLexemes {comma : String} {base : Nat} (place : Nat) :
    children.length ≤
      (sequenceLexemes (some (comma, base)) gapText place children).length + (1 - place) := by
  induction children generalizing place with
  | nil => exact Nat.zero_le _
  | cons first rest ih =>
    have later := ih (place + 1)
    rw [sequenceLexemes, List.length_append, List.length_append, List.length_cons]
    rcases place with _ | place
    · simp only [separatorLexemes, List.length_nil]
      omega
    · simp only [separatorLexemes, List.length_singleton]
      omega

/-- There are no more gaps than words. -/
theorem length_gapNumbers_le {present : Bool}
    (writable : Writable attributes present children.length parts) :
    (parts.flatMap (gapNumbers children.length)).length ≤
      (lexemes attributes gapText condition children parts).length := by
  fun_induction lexemes attributes gapText condition children parts with
  | case1 text own rest ih =>
    have later := ih writable
    simp only [List.flatMap_cons, gapNumbers, List.nil_append, List.singleton_append,
      List.length_cons]
    omega
  | case2 name own rest ih =>
    have later := ih writable.2
    simp only [List.flatMap_cons, gapNumbers, List.nil_append, List.singleton_append,
      List.length_cons]
    omega
  | case3 rest ih | case4 child rest ih =>
    have later := ih writable.2
    simp only [List.flatMap_cons, gapNumbers, List.nil_append, List.length_append]
    omega
  | case5 separator rest ih =>
    have later := ih writable
    rw [List.flatMap_cons, List.length_append, List.length_append]
    rcases separator with _ | ⟨comma, base⟩
    · simp only [gapNumbers, List.length_nil]
      omega
    · have commas := @length_sequenceLexemes gapText children comma base 0
      simp only [gapNumbers, List.length_range']
      omega
  | case6 part rest hword hattribute hcondition hchild hchildren ih =>
    rw [Writable] at writable <;> grind
  | case7 => exact Nat.zero_le _

end Part

namespace Node

/-- The words of what stands below a node are words of the node. -/
theorem Parsed.sublist_lexemes {node below : Node} (h : node.Parsed)
    (member : below ∈ node.condition ∨ below ∈ node.children) :
    below.lexemes.Sublist node.lexemes := by
  rw [node.lexemes_eq]
  rcases member with given | member
  · have has : node.kind.hasCondition := by
      rw [← h.condition_iff, given]
      rfl
    rw [given]
    exact Part.sublist_lexemes_condition (Kind.conditionPart_mem has)
  · obtain ⟨place, found⟩ := List.getElem?_of_mem member
    have small : place < node.children.length := (List.getElem?_eq_some_iff.1 found).1
    exact Part.sublist_lexemes_child (by rw [List.getElem?_map, found]; rfl)
      (Kind.exists_childPart h.count small)

theorem Complete.writable {node : Node} (h : node.Complete) (words : node.kind ≠ .compilationUnit) :
    Part.Writable node.attributes node.condition.isSome (node.children.map lexemes).length
      node.kind.layout.parts :=
  Kind.writable_parts h.attributes h.condition (by simpa using h.arity) words

/-- A word of the node stands in front of each of its written gaps, unless the gap is the one in
front of all words. -/
theorem Complete.exists_lexeme {node : Node} (h : node.Complete)
    (words : node.kind ≠ .compilationUnit) {index : Nat}
    (written : index ∈ node.kind.layout.gapNumbers node.children.length) :
    ∃ word ∈ node.lexemes, word.gap = gapText node.kind node.gaps index := by
  rw [node.lexemes_eq]
  exact Part.exists_lexeme_of_gap (h.writable words) (by simpa [Layout.gapNumbers] using written)

/-- A node has no more written gaps than words, and a unit has one. -/
theorem Complete.gapCount_le {node : Node} (h : node.Complete) :
    node.kind.gapCount node.children.length ≤ max 1 node.lexemes.length := by
  by_cases unit : node.kind = .compilationUnit
  · rw [unit]
    exact Nat.le_max_left 1 _
  · have numbers := (node.kind.gapNumbers_perm node.children.length).length_eq
    rw [List.length_range, Layout.gapNumbers, ← List.length_map lexemes] at numbers
    rw [node.lexemes_eq, ← List.length_map lexemes, ← numbers]
    exact Nat.le_trans (Part.length_gapNumbers_le (h.writable unit)) (Nat.le_max_right 1 _)

end Node

namespace Node

/-! ### Numbers of gaps -/

/-- The gaps of the node have the numbers that are written, in ascending order. -/
def Numbered (node : Node) : Prop :=
  node.gaps.map Prod.fst = List.range (node.kind.gapCount node.children.length)

theorem numbers_numberGaps (first : Nat) (texts : List String) :
    (numberGaps first texts).map Prod.fst = List.range' first texts.length := by
  rw [numberGaps, List.map_map]
  exact List.zipIdx_map_snd first texts

theorem numbered_fixed {kind : Kind} {texts : List String} {count : Nat}
    (length : texts.length = kind.gapCount count) :
    (numberGaps 0 texts).map Prod.fst = List.range (kind.gapCount count) := by
  rw [numbers_numberGaps, length, List.range_eq_range']

/-- Gaps behind commas go on with the numbers of the others. -/
theorem numbered_commas {kind : Kind} {fixed commas : List String} {base count : Nat}
    (length : fixed.length = base) (defaults : kind.layout.defaults.length = base)
    (comma : kind.layout.separatorBase?.isSome) (between : commas.length = count - 1) :
    (numberGaps 0 fixed ++ numberGaps base commas).map Prod.fst =
      List.range (kind.gapCount count) := by
  rw [List.map_append, numbers_numberGaps, numbers_numberGaps, Kind.gapCount, if_pos comma, length,
    defaults, between, List.range_add, List.range_eq_range', List.range'_eq_map_range (s := base)]

theorem numbered_of_children {kind : Kind} {attributes : List (String × Json)}
    {children : List Node} {gaps : Gaps}
    (own : gaps.map Prod.fst = List.range (kind.gapCount children.length))
    (below : ∀ child ∈ children, child.All Numbered) :
    (mk kind attributes none children gaps).All Numbered :=
  .mk own (fun inner member => absurd member (Option.not_mem_none inner)) below

theorem numbered_ofName (word : Token) : (ofName word).All Numbered :=
  numbered_of_children rfl (by simp)

theorem numbered_ofDeclaration (typeName variableName : Token) :
    (ofDeclaration typeName variableName).All Numbered :=
  numbered_of_children rfl (by simp)

/-- **The gaps of a grammatical node are the ones that its layout writes.** -/
theorem Grammatical.numbered {node : Node} (h : Grammatical node) : node.All Numbered := by
  induction h with
  | literal kind spelled => exact numbered_of_children rfl (by simp)
  | reference name => exact numbered_ofName _
  | call isName count below operands ih | creation isName count below operands ih
  | returns count below operands ih =>
    exact numbered_of_children (numbered_commas rfl rfl rfl count) ih
  | bracketed below operand ih | unary kind spelled below operand ih
  | expression below operand ih =>
    exact numbered_of_children rfl (List.forall_mem_singleton.2 ih)
  | binary kind spelled belowLeft belowRight operandLeft operandRight ihLeft ihRight =>
    exact numbered_of_children rfl (List.forall_mem_cons.2 ⟨ihLeft, List.forall_mem_singleton.2 ihRight⟩)
  | declaration isType isVariable => exact numbered_ofDeclaration _ _
  | assignment isName below operand ih =>
    exact numbered_of_children rfl
      (List.forall_mem_cons.2 ⟨numbered_ofName _, List.forall_mem_singleton.2 ih⟩)
  | definition isType isVariable below initializer ih =>
    exact numbered_of_children rfl
      (List.forall_mem_cons.2 ⟨numbered_ofDeclaration _ _, List.forall_mem_singleton.2 ih⟩)
  | @guarded kind words left right opening closing condition body guard count _ _ _ _ ihCondition ih =>
    refine .mk (numbered_fixed ?_) (fun inner member => ?_) ih
    · obtain ⟨gaps, -⟩ := Kind.shape_of_guardWords guard
      have noCommas : kind.layout.separatorBase? = none := by
        cases kind <;> first | exact absurd rfl guard | rfl
      show _ = kind.gapCount body.length
      rw [List.length_map, List.length_append, count, Kind.gapCount, gaps, noCommas]
      rfl
    · obtain rfl := Option.some.inj member
      exact ihCondition
  | otherwise below statements ih => exact numbered_of_children rfl ih
  | chain belowFirst kind below order ihFirst ih =>
    exact numbered_of_children rfl (List.forall_mem_cons.2 ⟨ihFirst, ih⟩)
  | unit below all ih => exact numbered_of_children rfl ih

theorem Numbered.mem_iff {node : Node} (h : node.Numbered) {index : Nat} :
    index ∈ node.gaps.map Prod.fst ↔
      index ∈ node.kind.layout.gapNumbers node.children.length := by
  rw [h, List.mem_range, Kind.mem_gapNumbers]

/-! ### Texts of gaps -/

/-- A node has a text of its own for each gap that is written. -/
theorem Numbered.exists_text {node : Node} (h : node.Numbered) (parsed : node.Parsed) {index : Nat}
    (written : index ∈ node.kind.layout.gapNumbers node.children.length) :
    ∃ text, node.gaps.get? index = some text := by
  obtain ⟨entry, member, rfl⟩ := List.mem_map.1 (h.mem_iff.2 written)
  exact ⟨entry.2, parsed.ascending.get?_of_mem member⟩

/-- Every gap of the node is a blank row. -/
def BlankGaps (node : Node) : Prop := ∀ entry ∈ node.gaps, IsBlankRow entry.2

/-- Where the words of a node stand before blank rows and behind one, its gaps are blank rows. -/
theorem blankGaps_of_lexemes {node : Node} (complete : node.Complete) (parsed : node.Parsed)
    (numbered : node.Numbered) (front : IsBlankRow node.leading)
    (blank : ∀ word ∈ node.lexemes, IsBlankRow word.gap) : node.BlankGaps := by
  intro entry member
  have written : entry.1 ∈ node.kind.layout.gapNumbers node.children.length :=
    numbered.mem_iff.1 (List.mem_map_of_mem member)
  have own : gapText node.kind node.gaps entry.1 = entry.2 :=
    gapText_of_get? (parsed.ascending.get?_of_mem member)
  by_cases unit : node.kind = .compilationUnit
  · obtain only : entry.1 = 0 := by
      rw [unit] at written
      exact List.mem_singleton.1 written
    rw [leading, if_pos unit, ← only, own] at front
    exact front
  · obtain ⟨word, there, gap⟩ := complete.exists_lexeme unit written
    rw [own] at gap
    exact gap ▸ blank word there

theorem isBlankRow_empty : IsBlankRow "" := ⟨[], rfl, by simp⟩

theorem all_blankGaps {node : Node} (complete : node.All Complete) (parsed : node.All Parsed)
    (numbered : node.All Numbered) (front : IsBlankRow node.leading)
    (blank : ∀ word ∈ node.lexemes, IsBlankRow word.gap) : node.All BlankGaps := by
  induction complete with
  | @mk node complete _ _ ihCondition ihChildren =>
    obtain ⟨parsed, parsedCondition, parsedChildren⟩ := parsed
    obtain ⟨numbered, numberedCondition, numberedChildren⟩ := numbered
    have inner {below : Node} (member : below ∈ node.condition ∨ below ∈ node.children) :
        IsBlankRow below.leading ∧ ∀ word ∈ below.lexemes, IsBlankRow word.gap := by
      rw [leading, if_neg (complete.noUnit below member)]
      exact ⟨isBlankRow_empty, fun word there => blank word ((parsed.sublist_lexemes member).subset there)⟩
    refine .mk (blankGaps_of_lexemes complete parsed numbered front blank)
      (fun below member => ?_) fun below member => ?_
    · obtain ⟨front, blank⟩ := inner (.inl member)
      exact ihCondition below member (parsedCondition below member)
        (numberedCondition below member) front blank
    · obtain ⟨front, blank⟩ := inner (.inr member)
      exact ihChildren below member (parsedChildren below member) (numberedChildren below member)
        front blank

/-! ### Whole texts -/

/-- What reading promises about the gaps of a node. -/
structure Captured (node : Node) : Prop where
  /-- The gaps are those that the layout writes for the node's children. -/
  numbers : (node.gaps.map Prod.fst).Perm (node.kind.layout.gapNumbers node.children.length)
  /-- Each of them is a row of white space and comments. -/
  blank : ∀ entry ∈ node.gaps, IsBlankRow entry.2
  /-- The raw form of the node has them by number, and no field for them where there are none. -/
  raw : node.toRaw.get? "ws" =
    if node.kind.layout.gapNumbers node.children.length = [] then none
    else some (.object (node.gaps.map fun entry => (toString entry.1, .text entry.2)))
  /-- The text of the node is the same whatever stands in for missing gaps. -/
  written (fallback : Nat → String) : node.render = joinPieces (node.kind.layout.parts.flatMap
    (Part.pieces node.kind node.attributes (fun index => (node.gaps.get? index).getD (fallback index))
      (node.condition.map render) (node.children.map render)))

theorem gapNumbers_eq_nil_iff {kind : Kind} {count : Nat} :
    kind.layout.gapNumbers count = [] ↔ kind.layout.defaults.isEmpty := by
  cases kind <;> simp [Layout.gapNumbers, Kind.layout, Kind.pairLayout, Part.gapNumbers]

theorem captured_of_numbered {node : Node} (parsed : node.Parsed) (numbered : node.Numbered)
    (blank : node.BlankGaps) : node.Captured := by
  refine ⟨?_, blank, ?_, fun fallback => ?_⟩
  · rw [numbered]
    exact (node.kind.gapNumbers_perm _).symm
  · rw [toRaw_eq, Json.get?, lookup_ws parsed]
    simp only [gapNumbers_eq_nil_iff]
    rfl
  · rw [render_eq, Kind.assemble]
    congr 1
    refine (Layout.pieces_eq_iff node.kind.layout).2 fun index written => ?_
    rw [List.length_map] at written
    obtain ⟨text, found⟩ := numbered.exists_text parsed written
    rw [found]
    exact gapText_of_get? found

end Node

/-- **Every node of a parsed tree has its own text for each gap that is written, and for no other,
and each text is a row of white space and comments.** -/
theorem captured_of_parse {start : Start} {text : String} {node : Node}
    (read : parse start text = .ok node) : node.All Node.Captured := by
  obtain ⟨⟨words, grammatical, leading⟩, -⟩ := parse_reads read
  have front : IsBlankRow node.leading := by
    rw [leading]
    split
    · exact isBlankRow_takeGap text.toList
    · exact Node.isBlankRow_empty
  have blank : ∀ word ∈ node.lexemes, IsBlankRow word.gap := by
    intro word member
    rw [words] at member
    obtain ⟨token, there, rfl⟩ := List.mem_map.1 member
    exact lexTokens_gap _ _ _ token there
  have all := (grammatical.parsed.and grammatical.numbered).and
    (Node.all_blankGaps grammatical.complete grammatical.parsed grammatical.numbered front blank)
  exact all.imp fun below ⟨⟨parsed, numbered⟩, blank⟩ =>
    Node.captured_of_numbered parsed numbered blank

/-- Values behind commas: the gap of the first comma has the number behind the fixed ones. -/
theorem captured_of_parse_values : ∃ node,
    parse .statement "return x, -y ; // two\n" = .ok node ∧
      node.gaps = [(0, " "), (1, " // two\n"), (2, " ")] ∧ node.All Node.Captured := by
  let node : Node := .mk .returnStatement [] none
    [.mk .reference [("variable_name", .text "x")] none [] [(0, "")],
      .mk .unary [("operator", .text "-")] none
        [.mk .reference [("variable_name", .text "y")] none [] [(0, " ")]] [(0, "")]]
    [(0, " "), (1, " // two\n"), (2, " ")]
  have read : parse .statement "return x, -y ; // two\n" = .ok node := by cbv
  exact ⟨node, read, rfl, captured_of_parse read⟩

end Verbatim
