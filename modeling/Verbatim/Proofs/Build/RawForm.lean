import Verbatim.Proofs.Build.RawNode
import Verbatim.Proofs.Text.Numeral

/-!
# Parsed nodes are built as they are

The raw form of a parsed node is read back as the node, except that a definition gets a kind of its
own where it creates a connector.

## Main definitions

* `Node.settle`: a node with connector definitions told apart
* `Node.Parsed`, `Node.Loadable`: what the grammar gives and what the build checks, at one node

## Main results

* `Node.ofRaw_toRaw`: which parsed nodes can be built, and with what result
* `Node.lexemes_settle`: telling connector definitions apart changes no word
-/

namespace Verbatim

theorem mapM_eq_ok {ε α β : Type} {f : α → Except ε β} {items : List α} {results : List β} :
    items.mapM f = .ok results ↔ items.map f = results.map .ok := by
  induction items generalizing results with
  | nil => cases results <;> simp [pure, Except.pure]
  | cons item rest ih =>
    simp only [List.mapM_cons, bind_eq_ok, ih, pure, Except.pure, Except.ok.injEq]
    cases results with
    | nil => simp
    | cons result others => grind

/-! ### Gaps in raw form -/

namespace Gaps

/-- Whether the gaps come in ascending order of their numbers. -/
def Ascending (gaps : Gaps) : Prop := gaps.Pairwise fun first second => first.1 < second.1

/-- What the gaps have a text for is among them. -/
theorem mem_of_get? {gaps : Gaps} {index : Nat} {text : String}
    (found : gaps.get? index = some text) : (index, text) ∈ gaps := by
  induction gaps with
  | nil => contradiction
  | cons entry rest ih =>
    rw [get?] at found
    split at found
    · next same =>
      obtain rfl := Option.some.inj found
      exact same ▸ List.mem_cons_self
    · exact List.mem_cons_of_mem entry (ih found)

theorem Ascending.get?_of_mem {gaps : Gaps} (ascending : Ascending gaps) {entry : Nat × String}
    (member : entry ∈ gaps) : gaps.get? entry.1 = some entry.2 := by
  induction ascending with
  | nil => exact absurd member List.not_mem_nil
  | @cons first rest above _ ih =>
    rw [Gaps.get?]
    rcases List.mem_cons.1 member with rfl | member
    · rw [if_pos rfl]
    · rw [if_neg (Nat.ne_of_lt (above entry member)), ih member]

theorem set_append {gaps : Gaps} {index : Nat} (text : String) (h : ∀ entry ∈ gaps, entry.1 < index) :
    gaps.set index text = gaps ++ [(index, text)] := by
  induction gaps with
  | nil => rfl
  | cons entry rest ih =>
    have small := h entry List.mem_cons_self
    rw [set, if_neg (by omega), if_neg (by omega),
      ih fun other member => h other (List.mem_cons_of_mem entry member)]
    rfl

theorem foldl_set {gaps more : Gaps} (h : Ascending (gaps ++ more)) :
    more.foldl (fun gaps entry => gaps.set entry.1 entry.2) gaps = gaps ++ more := by
  induction more generalizing gaps with
  | nil => simp
  | cons entry rest ih =>
    have apart := (List.pairwise_append.1 h).2.2
    rw [List.foldl_cons, set_append entry.2 fun other member => apart other member entry (by simp)]
    rw [ih (by simpa using h)]
    simp

theorem readEntry_eq_ok {layout : Layout} {index : Nat} {text : String} {entry : Nat × String}
    (known : layout.acceptsGap index) :
    readEntry layout (toString index, .text text) = .ok entry ↔
      index < 10 ^ Text.digitLimit ∧ entry = (index, text) := by
  unfold readEntry
  simp only [bind_eq_ok, mapError_eq_ok, Text.readInteger_toString_eq_ok]
  constructor
  · rintro ⟨_, ⟨short, rfl⟩, h⟩
    rw [if_pos known] at h
    exact ⟨short, by simpa [pure, Except.pure, bind, Except.bind, eq_comm] using h⟩
  · rintro ⟨short, rfl⟩
    refine ⟨index, ⟨short, rfl⟩, ?_⟩
    rw [if_pos known]
    rfl

theorem map_readEntry {layout : Layout} {gaps results : Gaps}
    (known : ∀ entry ∈ gaps, layout.acceptsGap entry.1) :
    (gaps.map fun entry => readEntry layout (toString entry.1, .text entry.2)) = results.map .ok ↔
      (∀ entry ∈ gaps, entry.1 < 10 ^ Text.digitLimit) ∧ results = gaps := by
  induction gaps generalizing results with
  | nil => cases results <;> simp
  | cons entry rest ih =>
    obtain ⟨here, later⟩ := List.forall_mem_cons.1 known
    cases results with
    | nil => simp
    | cons result others =>
      rw [List.map_cons, List.map_cons, List.cons.injEq, readEntry_eq_ok here, ih later,
        List.forall_mem_cons, List.cons.injEq]
      grind

/-- Gaps in raw form are read back, if their numbers are not too long. -/
theorem load_toJson {layout : Layout} {gaps loaded : Gaps} (ascending : Ascending gaps)
    (known : ∀ entry ∈ gaps, layout.acceptsGap entry.1) :
    load layout [] (toJson gaps) = .ok loaded ↔
      (∀ entry ∈ gaps, entry.1 < 10 ^ Text.digitLimit) ∧ loaded = gaps := by
  have whole : gaps.foldl (fun gaps entry => set gaps entry.1 entry.2) [] = gaps :=
    @foldl_set [] gaps ascending
  simp only [load, toJson, bind_eq_ok, mapM_eq_ok, List.map_map, pure, Except.pure,
    Except.ok.injEq]
  constructor
  · rintro ⟨results, read, rfl⟩
    obtain ⟨short, rfl⟩ := (map_readEntry known).1 read
    exact ⟨short, whole⟩
  · rintro ⟨short, rfl⟩
    exact ⟨loaded, (map_readEntry known).2 ⟨short, rfl⟩, whole⟩

end Gaps
/-! ### Connector definitions told apart -/

namespace Kind

/-- The kind under which a node is written: connector definitions are definitions. -/
def plain : Kind → Kind
  | .connectorDefinition => .definition
  | kind => kind

theorem plain_eq_self {kind : Kind} (h : kind ≠ .connectorDefinition) : kind.plain = kind := by
  cases kind <;> first | rfl | exact absurd rfl h

@[simp] theorem layout_plain (kind : Kind) : kind.plain.layout = kind.layout := by
  cases kind <;> rfl

@[simp] theorem attributes_plain (kind : Kind) : kind.plain.attributes = kind.attributes := by
  cases kind <;> rfl

@[simp] theorem category_plain (kind : Kind) : kind.plain.category = kind.category := by
  cases kind <;> rfl

@[simp] theorem hasCondition_plain (kind : Kind) : kind.plain.hasCondition = kind.hasCondition := by
  cases kind <;> rfl

@[simp] theorem accepts_plain (kind : Kind) : kind.plain.accepts = kind.accepts := by
  cases kind <;> rfl

@[simp] theorem wireTag_plain (kind : Kind) : kind.plain.wireTag = kind.wireTag := by
  cases kind <;> rfl

@[simp] theorem minChildren_plain (kind : Kind) : kind.plain.minChildren = kind.minChildren := by
  cases kind <;> rfl

@[simp] theorem maxChildren_plain (kind : Kind) : kind.plain.maxChildren = kind.maxChildren := by
  cases kind <;> rfl

@[simp] theorem strength?_plain (kind : Kind) (operator : Option String) :
    kind.plain.strength? operator = kind.strength? operator := by
  cases kind <;> rfl

end Kind

namespace Node

/-- The kind of a node once connector definitions are told apart, which happens to children. -/
def settledKind (asChild : Bool) (kind : Kind) (children : List Node) : Kind :=
  if asChild ∧ kind = .definition ∧
      (children[1]?).any (fun value => value.kind = .connectorCreation) then
    .connectorDefinition
  else kind

mutual

/-- The node with connector definitions told apart. -/
def settle (asChild : Bool) : Node → Node
  | mk kind attributes none children gaps =>
    mk (settledKind asChild kind children) attributes none (settleAll children) gaps
  | mk kind attributes (some condition) children gaps =>
    mk (settledKind asChild kind children) attributes (some (settle false condition))
      (settleAll children) gaps

/-- Each of the children with connector definitions told apart. -/
def settleAll : List Node → List Node
  | [] => []
  | node :: rest => settle true node :: settleAll rest

end

theorem settleAll_eq_map (nodes : List Node) : settleAll nodes = nodes.map (settle true) := by
  induction nodes with
  | nil => rfl
  | cons node rest ih => rw [settleAll, ih, List.map_cons]

theorem settle_eq (asChild : Bool) (node : Node) :
    node.settle asChild = mk (settledKind asChild node.kind node.children) node.attributes
      (node.condition.map (settle false)) (node.children.map (settle true)) node.gaps := by
  rcases node with ⟨kind, attributes, _ | condition, children, gaps⟩ <;>
    rw [settle, settleAll_eq_map] <;> rfl

theorem plain_settledKind (asChild : Bool) (kind : Kind) (children : List Node) :
    (settledKind asChild kind children).plain = kind.plain := by
  unfold settledKind
  split
  · next same => rw [same.2.1]; rfl
  · rfl

theorem settledKind_false (kind : Kind) (children : List Node) :
    settledKind false kind children = kind := by
  simp [settledKind]

theorem kind_settle (asChild : Bool) (node : Node) :
    (node.settle asChild).kind = settledKind asChild node.kind node.children := by
  rw [settle_eq]
  rfl

theorem operator?_settle (asChild : Bool) (node : Node) :
    (node.settle asChild).operator? = node.operator? := by
  rw [settle_eq]
  rfl

theorem layout_settledKind (asChild : Bool) (kind : Kind) (children : List Node) :
    (settledKind asChild kind children).layout = kind.layout := by
  rw [← Kind.layout_plain, plain_settledKind, Kind.layout_plain]

/-- Telling connector definitions apart changes no word. -/
theorem lexemes_settle (asChild : Bool) (node : Node) :
    (node.settle asChild).lexemes = node.lexemes := by
  induction node using inductionOn generalizing asChild with
  | step node condition children =>
    rw [settle_eq]
    refine lexemes_congr (layout_settledKind asChild node.kind node.children) rfl rfl
      ((Option.map_map ..).trans ?_) ((List.map_map ..).trans ?_)
    · exact Option.map_congr fun below member => condition below member false
    · exact List.map_congr_left fun below member => children below member true

theorem plain_kind_settle (asChild : Bool) (node : Node) :
    (node.settle asChild).kind.plain = node.kind.plain := by
  rw [kind_settle, plain_settledKind]

theorem kind_settle_eq_unit {asChild : Bool} {node : Node} :
    (node.settle asChild).kind = .compilationUnit ↔ node.kind = .compilationUnit := by
  rw [kind_settle, settledKind]
  split
  · next same => simp [same.2.1]
  · rfl

theorem complete_settle {node : Node} (h : node.All Complete) (asChild : Bool) :
    (node.settle asChild).All Complete := by
  induction h generalizing asChild with
  | @mk node here _ _ condition children =>
    rw [settle_eq]
    refine .mk ⟨?_, ?_, ?_, ?_⟩ ?_ ?_
    · intro name member
      exact here.attributes name (by
        rwa [Node.kind, ← Kind.attributes_plain, plain_settledKind, Kind.attributes_plain] at member)
    · intro has
      rw [Node.kind, ← Kind.hasCondition_plain, plain_settledKind, Kind.hasCondition_plain] at has
      simpa [Node.condition] using here.condition has
    · rw [Node.kind, ← Kind.minChildren_plain, plain_settledKind, Kind.minChildren_plain]
      simpa [Node.children] using here.arity
    · rintro below (member | member)
      · obtain ⟨inner, found, rfl⟩ := Option.map_eq_some_iff.1 member
        rw [Ne, kind_settle_eq_unit]
        exact here.noUnit inner (.inl found)
      · obtain ⟨inner, found, rfl⟩ := List.mem_map.1 member
        rw [Ne, kind_settle_eq_unit]
        exact here.noUnit inner (.inr found)
    · intro below member
      obtain ⟨inner, found, rfl⟩ := Option.map_eq_some_iff.1 member
      exact condition inner found false
    · intro below member
      obtain ⟨inner, found, rfl⟩ := List.mem_map.1 member
      exact children inner found true

/-- Definitions of connectors or not, nodes with the same gaps have the same blank text in front. -/
theorem leading_congr {node other : Node} (plain : other.kind.plain = node.kind.plain)
    (gaps : other.gaps = node.gaps) : other.leading = node.leading := by
  have layout : other.kind.layout = node.kind.layout := by
    rw [← Kind.layout_plain, plain, Kind.layout_plain]
  have unit (kind : Kind) : kind = .compilationUnit ↔ kind.plain = .compilationUnit := by
    cases kind <;> simp [Kind.plain]
  rw [leading, leading, gaps, gapText_congr layout]
  simp only [unit other.kind, unit node.kind, plain]

theorem leading_settle (asChild : Bool) (node : Node) :
    (node.settle asChild).leading = node.leading :=
  leading_congr (plain_kind_settle asChild node) (by rw [settle_eq]; rfl)

/-- Telling connector definitions apart does not change the text. -/
theorem render_settle {node : Node} (h : node.All Complete) (asChild : Bool) :
    (node.settle asChild).render = node.render := by
  rw [render_eq_written h, render_eq_written (complete_settle h asChild), lexemes_settle,
    leading_settle]

/-! ### The raw form of a parsed node -/

theorem toRawAll_eq_map (nodes : List Node) : toRawAll nodes = nodes.map toRaw := by
  induction nodes with
  | nil => rfl
  | cons node rest ih => rw [toRawAll, ih, List.map_cons]

/-- The fields of the raw form of a parsed node. -/
def rawFields (node : Node) : List (String × Json) :=
  ("type", .text node.kind.wireTag) ::
    ((node.condition.map fun condition => ("condition", toRaw condition)).toList ++
      (node.attributes ++ rawBodyFields node.kind (node.children.map toRaw) node.gaps))

theorem toRaw_eq (node : Node) : node.toRaw = .object node.rawFields := by
  rcases node with ⟨kind, attributes, _ | condition, children, gaps⟩ <;>
    rw [toRaw, toRawAll_eq_map] <;> rfl

/-- What the grammar gives at one node. -/
structure Parsed (node : Node) : Prop where
  notConnector : node.kind ≠ .connectorDefinition
  names : node.attributes.map Prod.fst = node.kind.attributes
  condition_iff : node.condition.isSome = node.kind.hasCondition
  fitting : ∀ below ∈ node.condition, conditionFault? node.kind below = none
  ascending : Gaps.Ascending node.gaps
  known : ∀ entry ∈ node.gaps, node.kind.layout.acceptsGap entry.1
  count : node.kind.takesCount node.children.length
  accepted : ∀ child ∈ node.children, node.kind.accepts.contains child.kind.category
  arranged : arrangementProblem? true node.kind node.operator? (node.children.map outline) = none

/-- What a build checks at a parsed node: the attributes, and that the numbers of gaps are not too
long to be read. -/
structure Loadable (node : Node) : Prop where
  attributes : ∀ entry ∈ node.attributes, attributeProblem? node.kind entry.1 entry.2 = none
  gaps : ∀ entry ∈ node.gaps, entry.1 < 10 ^ Text.digitLimit

/-- The names of attributes are none of the other fields. -/
theorem lookup_attributes_of_field {kind : Kind} {attributes : List (String × Json)}
    (names : attributes.map Prod.fst = kind.attributes) {name : String}
    (field : name ∈ ["type", "condition", "children", "ws"]) : attributes.lookup name = none := by
  rw [List.lookup_eq_none_iff]
  intro entry member
  have own : entry.1 ∈ kind.attributes := names ▸ List.mem_map_of_mem member
  have apart : ∀ name ∈ ["type", "condition", "children", "ws"], name ∉ kind.attributes := by
    cases kind <;> decide
  rw [bne_iff_ne]
  rintro same
  exact apart name field (same ▸ own)

theorem lookup_rawBodyFields {kind : Kind} {children : List Json} {gaps : Gaps} {name : String}
    (notChildren : name ≠ "children") (notGaps : name ≠ "ws") :
    (rawBodyFields kind children gaps).lookup name = none := by
  unfold rawBodyFields
  split <;> split <;>
    simp [List.lookup_cons, beq_false_of_ne notChildren, beq_false_of_ne notGaps]

theorem lookup_rawFields {node : Node} {name : String} (notType : name ≠ "type")
    (notCondition : name ≠ "condition") : node.rawFields.lookup name =
      (node.attributes.lookup name).or
        ((rawBodyFields node.kind (node.children.map toRaw) node.gaps).lookup name) := by
  rw [rawFields, List.lookup_cons, beq_false_of_ne notType]
  cases node.condition <;>
    simp [List.lookup_append, List.lookup_cons, beq_false_of_ne notCondition]

theorem lookup_attribute {node : Node} {name : String} (own : name ∈ node.kind.attributes) :
    node.rawFields.lookup name = node.attributes.lookup name := by
  have apart : name ∉ ["type", "condition", "children", "ws"] := by
    revert own
    cases node.kind <;> simp [Kind.attributes] <;> grind
  simp only [List.mem_cons, List.not_mem_nil, or_false, not_or] at apart
  obtain ⟨notType, notCondition, notChildren, notGaps⟩ := apart
  rw [lookup_rawFields notType notCondition, lookup_rawBodyFields notChildren notGaps,
    Option.or_none]

theorem get?_type (node : Node) : node.toRaw.get? "type" = some (.text node.kind.wireTag) := by
  rw [toRaw_eq]
  rfl

/-- The raw value of a connector definition is told by its second child. -/
theorem isConnectorDefinition_eq {raw : Json} {kind : Kind} {children : List Node}
    {form : Node → Json} (type : raw.get? "type" = some (.text kind.wireTag))
    (listed : kind.plain = .definition →
      raw.get? "children" = some (.array (children.map form)))
    (below : ∀ child, (form child).get? "type" = some (.text child.kind.wireTag)) :
    isConnectorDefinition raw = (kind.plain = .definition ∧
      (children[1]?).any (fun value => value.kind = .connectorCreation) : Bool) := by
  have creation (kind : Kind) :
      (kind.wireTag == Kind.connectorCreation.tag) = decide (kind = .connectorCreation) := by
    cases kind <;> decide
  have wire : (kind.wireTag == Kind.definition.tag) = decide (kind.plain = .definition) := by
    cases kind <;> decide
  by_cases definition : kind.plain = .definition
  · simp only [definition, decide_true] at wire
    simp only [isConnectorDefinition, type, listed definition, definition, true_and]
    rcases children with _ | ⟨first, _ | ⟨second, rest⟩⟩
    · rfl
    · rfl
    · simp only [List.map_cons, below, wire, creation, List.getElem?_cons_succ,
        List.getElem?_cons_zero, Option.any_some, Bool.decide_eq_true, Bool.true_and]
  · simp only [definition, decide_false] at wire
    unfold isConnectorDefinition
    rw [type]
    simp only [definition, false_and, decide_false]
    split
    · next tag _ _ _ same _ =>
      obtain rfl : kind.wireTag = tag := by simpa using same
      rw [wire, Bool.false_and]
    · rfl

section Fields

variable {node : Node} (h : node.Parsed)
include h

theorem lookup_condition : node.rawFields.lookup "condition" = node.condition.map toRaw := by
  have absent : node.attributes.lookup "condition" = none :=
    lookup_attributes_of_field h.names (by simp)
  have body : (rawBodyFields node.kind (node.children.map toRaw) node.gaps).lookup "condition" =
      none :=
    lookup_rawBodyFields (by decide) (by decide)
  cases given : node.condition with
  | none =>
    rw [rawFields, given, List.lookup_cons]
    simp [List.lookup_append, absent, body]
  | some condition =>
    rw [rawFields, given]
    rfl

theorem lookup_children : node.rawFields.lookup "children" =
    if node.kind.maxChildren = some 0 then none else some (.array (node.children.map toRaw)) := by
  rw [lookup_rawFields (by decide) (by decide), lookup_attributes_of_field h.names (by simp),
    Option.none_or]
  unfold rawBodyFields
  split
  · split <;> rfl
  · rfl

theorem lookup_ws : node.rawFields.lookup "ws" =
    if node.kind.layout.defaults.isEmpty then none else some (Gaps.toJson node.gaps) := by
  rw [lookup_rawFields (by decide) (by decide), lookup_attributes_of_field h.names (by simp),
    Option.none_or]
  unfold rawBodyFields
  split <;> split <;> rfl

/-- The children that the fields list are those of the node. -/
theorem listed_rawFields : listed node.rawFields = node.children.map toRaw := by
  unfold listed
  rw [lookup_children h]
  split
  · next same =>
    split at same
    · simp at same
    · simpa using same.symm
  · next other =>
    by_cases leaf : node.kind.maxChildren = some 0
    · have count := h.count.2 0 leaf
      rw [List.eq_nil_of_length_eq_zero (Nat.le_zero.1 count)]
      rfl
    · exact absurd (if_neg leaf) (other _)

/-- The raw form of a connector definition is told by its second child. -/
theorem isConnectorDefinition_toRaw : isConnectorDefinition node.toRaw =
    (node.kind = .definition ∧
      (node.children[1]?).any (fun value => value.kind = .connectorCreation) : Bool) := by
  have children := lookup_children h
  rw [show node.rawFields.lookup "children" = node.toRaw.get? "children" by rw [toRaw_eq]; rfl]
    at children
  have plain : node.kind.plain = node.kind := Kind.plain_eq_self h.notConnector
  rw [isConnectorDefinition_eq (get?_type node) (fun definition => ?_) get?_type, plain]
  rw [plain] at definition
  rw [children, definition]
  rfl

theorem kind_toRaw (asChild : Bool) :
    (if asChild then rawChildKind node.toRaw else rawKind node.toRaw) =
      .ok (settledKind asChild node.kind node.children) := by
  have tag : node.kind.wireTag = node.kind.tag := by
    have := h.notConnector
    cases same : node.kind <;> simp_all [Kind.wireTag]
  have plain : rawKind node.toRaw = .ok node.kind := by
    have type := get?_type node
    rw [toRaw_eq] at type ⊢
    simp only [rawKind, type, tag, Kind.ofTag?_tag]
  rw [rawChildKind, isConnectorDefinition_toRaw h, plain, settledKind]
  cases asChild <;> simp
  split <;> rfl

end Fields

/-! ### Building the raw form -/

/-- Two lists of attributes with the same names, of which one holds what is found in the other. -/
theorem attributes_eq {found own : List (String × Json)} (names : found.map Prod.fst = own.map Prod.fst)
    (nodup : (own.map Prod.fst).Nodup)
    (same : ∀ entry ∈ found, own.lookup entry.1 = some entry.2) : found = own := by
  induction found generalizing own with
  | nil => simpa using names.symm
  | cons entry rest ih =>
    cases own with
    | nil => simp at names
    | cons first others =>
      obtain ⟨name, value⟩ := entry
      obtain ⟨other, own⟩ := first
      simp only [List.map_cons, List.cons.injEq] at names
      obtain ⟨rfl, names⟩ := names
      obtain ⟨here, later⟩ := List.forall_mem_cons.1 same
      obtain ⟨apart, nodup⟩ := List.nodup_cons.1 nodup
      obtain rfl : own = value := by simpa using here
      rw [ih names nodup fun entry member => ?_]
      have found := later entry member
      rw [List.lookup_cons, beq_false_of_ne] at found
      · exact found
      · intro same
        have here : entry.1 ∈ rest.map Prod.fst := List.mem_map_of_mem member
        exact apart (names ▸ same ▸ here)

theorem nodup_attributes (kind : Kind) : kind.attributes.Nodup := by
  cases kind <;> decide

theorem clauseFits_plain (length position : Nat) (kind : Kind) :
    clauseFits length position kind.plain = clauseFits length position kind := by
  cases kind <;> rfl

theorem operandProblem_plain {parent child : Kind} {parentOperator childOperator : Option String}
    {position : Int} :
    operandProblem? parent parentOperator position child.plain childOperator = none ↔
      operandProblem? parent parentOperator position child childOperator = none := by
  unfold operandProblem?
  rw [Kind.strength?_plain]
  split
  · split <;> simp
  · rfl

theorem clauseOrder_map_plain {kinds : List Kind} :
    clauseOrderProblem? (kinds.map Kind.plain) = none ↔ clauseOrderProblem? kinds = none := by
  rw [clauseOrderProblem?_eq_none, clauseOrderProblem?_eq_none, List.zipIdx_map,
    List.forall_mem_map, List.length_map]
  exact forall₂_congr fun entry _ => by
    show clauseFits kinds.length entry.2 entry.1.plain = true ↔ _
    rw [clauseFits_plain]

/-- The arrangement of children does not tell connector definitions from others. -/
theorem arrangement_map_plain {strict : Bool} {kind : Kind} {operator : Option String}
    {children : List (Kind × Option String)} :
    arrangementProblem? strict kind operator
        (children.map fun child => (child.1.plain, child.2)) = none ↔
      arrangementProblem? strict kind operator children = none := by
  unfold arrangementProblem?
  split
  · split
    · rw [← @clauseOrder_map_plain (children.map Prod.fst), List.map_map, List.map_map]
      rfl
    · rfl
  · rw [List.findSome?_eq_none_iff, List.findSome?_eq_none_iff, List.zipIdx_map,
      List.forall_mem_map]
    exact forall₂_congr fun entry _ => operandProblem_plain

theorem arrangement_parent_plain {strict : Bool} {kind : Kind} {operator : Option String}
    {children : List (Kind × Option String)} :
    arrangementProblem? strict kind.plain operator children =
      arrangementProblem? strict kind operator children := by
  cases kind <;> rfl

theorem arrangement_lenient {kind : Kind} {operator : Option String}
    {children : List (Kind × Option String)}
    (h : arrangementProblem? true kind operator children = none) (strict : Bool) :
    arrangementProblem? strict kind operator children = none := by
  cases strict with
  | true => exact h
  | false =>
    unfold arrangementProblem? at h ⊢
    split
    · rfl
    · next other => rwa [if_neg other] at h

/-- Building each of several raw forms. -/
theorem map_ofRaw_toRaw {strict asChild : Bool} {nodes built : List Node}
    (each : ∀ node ∈ nodes, ∀ result, ofRaw strict asChild node.toRaw = .ok result ↔
      result = node.settle asChild ∧ node.All Loadable) :
    (nodes.map toRaw).map (ofRaw strict asChild) = built.map .ok ↔
      built = nodes.map (settle asChild) ∧ ∀ node ∈ nodes, node.All Loadable := by
  induction nodes generalizing built with
  | nil => cases built <;> simp
  | cons node rest ih =>
    obtain ⟨here, later⟩ := List.forall_mem_cons.1 each
    cases built with
    | nil => simp
    | cons result others =>
      rw [List.map_cons, List.map_cons, List.map_cons, List.cons.injEq, here, ih later,
        List.forall_mem_cons, List.map_cons, List.cons.injEq]
      grind

/-- Building the raw form of a condition. -/
theorem optionMap_ofRaw_toRaw {strict asChild : Bool} {given built : Option Node}
    (each : ∀ node ∈ given, ∀ result, ofRaw strict asChild node.toRaw = .ok result ↔
      result = node.settle asChild ∧ node.All Loadable) :
    (given.map toRaw).map (ofRaw strict asChild) = built.map .ok ↔
      built = given.map (settle asChild) ∧ ∀ node ∈ given, node.All Loadable := by
  cases given with
  | none => cases built <;> simp
  | some node =>
    have here := each node rfl
    cases built with
    | none => simp
    | some result =>
      rw [Option.map_some, Option.map_some, Option.map_some, Option.some.injEq, here]
      simp

/-- A layout without gaps knows none. -/
theorem gaps_nil_of_known {kind : Kind} {gaps : Gaps}
    (known : ∀ entry ∈ gaps, kind.layout.acceptsGap entry.1)
    (noDefaults : kind.layout.defaults.isEmpty) : gaps = [] := by
  cases gaps with
  | nil => rfl
  | cons entry rest =>
    have here := known entry List.mem_cons_self
    have chain : kind = .ifElse := by
      revert noDefaults
      cases kind <;> decide
    subst chain
    simp [Layout.acceptsGap, Layout.defaultGap?, Layout.separatorBase?, Kind.layout] at here

theorem present?_attribute {node : Node} {kind : Kind} (same : kind.plain = node.kind.plain)
    {name : String} (own : name ∈ kind.attributes) : (Json.object node.rawFields).present? name =
      match node.attributes.lookup name with
      | some .null => none
      | found => found := by
  rw [← Kind.attributes_plain, same, Kind.attributes_plain] at own
  exact congrArg (fun found : Option Json => match found with
    | some .null => none
    | found => found) (lookup_attribute own)

theorem lookup_of_mem {attributes : List (String × Json)} (nodup : (attributes.map Prod.fst).Nodup)
    {entry : String × Json} (member : entry ∈ attributes) :
    attributes.lookup entry.1 = some entry.2 := by
  induction attributes with
  | nil => exact absurd member List.not_mem_nil
  | cons first rest ih =>
    obtain ⟨apart, nodup⟩ := List.nodup_cons.1 nodup
    rcases List.mem_cons.1 member with rfl | member
    · obtain ⟨name, value⟩ := entry
      simp
    · rw [List.lookup_cons, beq_false_of_ne]
      · exact ih nodup member
      · intro same
        exact apart (same ▸ List.mem_map_of_mem member)

/-- What is good for an attribute is a text. -/
theorem exists_text_of_good {kind : Kind} {name : String} {value : Json}
    (good : attributeProblem? kind name value = none) : ∃ text, value = .text text := by
  cases value <;> simp_all [attributeProblem?]

theorem attributeProblem_plain {kind : Kind} {name : String} {value : Json} :
    attributeProblem? kind.plain name value = none ↔ attributeProblem? kind name value = none := by
  cases kind with
  | connectorDefinition =>
    cases value with
    | text value =>
      simp only [attributeProblem?, Kind.plain, isOperator, reduceCtorEq, if_false]
      split
      · split <;> simp
      · split
        · split <;> simp
        · split
          · split <;> simp
          · split
            · split <;> simp
            · rfl
    | _ => simp [attributeProblem?]
  | _ => rfl

theorem conditionFault_settle {kind other : Kind} {node : Node}
    (fits : conditionFault? kind node = none) :
    conditionFault? other (node.settle false) = none := by
  rw [conditionFault?_eq_none, kind_settle, settledKind_false]
  exact conditionFault?_eq_none.1 fits

theorem takesCount_plain {kind : Kind} {count : Nat} :
    kind.plain.takesCount count ↔ kind.takesCount count := by
  unfold Kind.takesCount
  rw [Kind.minChildren_plain, Kind.maxChildren_plain]

section Building

variable {node : Node} (h : node.Parsed)
include h

theorem givenCondition?_rawFields {kind : Kind} (same : kind.plain = node.kind.plain) :
    givenCondition? kind node.rawFields = node.condition.map toRaw := by
  have has : kind.hasCondition = node.condition.isSome := by
    rw [← Kind.hasCondition_plain, same, Kind.hasCondition_plain, h.condition_iff]
  unfold givenCondition? Json.present? Json.get?
  simp only [lookup_condition h, has]
  cases given : node.condition with
  | none => rfl
  | some condition =>
    simp only [Option.isSome_some, if_true, Option.map_some, toRaw_eq]

theorem readGaps_rawFields {kind : Kind} (same : kind.plain = node.kind.plain) {tag : String}
    {gaps : Gaps} : readGaps kind tag (.object node.rawFields) [] = .ok gaps ↔
      (∀ entry ∈ node.gaps, entry.1 < 10 ^ Text.digitLimit) ∧ gaps = node.gaps := by
  have layout : kind.layout = node.kind.layout := by
    rw [← Kind.layout_plain, same, Kind.layout_plain]
  have given : (Json.object node.rawFields).present? "ws" =
      if node.kind.layout.defaults.isEmpty then none else some (Gaps.toJson node.gaps) := by
    rw [present?_object, lookup_ws h]
    split <;> simp_all [Gaps.toJson]
  unfold readGaps
  rw [given]
  split
  · next same =>
    split at same
    · next noDefaults =>
      rw [gaps_nil_of_known h.known noDefaults]
      simp [eq_comm]
    · simp at same
  · next same =>
    split at same
    · simp at same
    · obtain rfl := Option.some.inj same
      rw [mapError_eq_ok, layout, Gaps.load_toJson h.ascending h.known]

end Building

/-- Nodes with equal parts are equal. -/
theorem eq_of_parts {first second : Node} (kind : first.kind = second.kind)
    (attributes : first.attributes = second.attributes)
    (condition : first.condition = second.condition) (children : first.children = second.children)
    (gaps : first.gaps = second.gaps) : first = second := by
  cases first
  cases second
  cases kind
  cases attributes
  cases condition
  cases children
  cases gaps
  rfl

theorem nodup_names {node : Node} (h : node.Parsed) : (node.attributes.map Prod.fst).Nodup :=
  h.names ▸ nodup_attributes node.kind

/-- What a node that is built from the raw form of a parsed one is. -/
theorem eq_settle_of_builtFrom {strict asChild : Bool} {node built : Node} (h : node.Parsed)
    (origin : BuiltFrom strict asChild node.rawFields built)
    (condition : ∀ below ∈ node.condition, ∀ result, ofRaw strict false below.toRaw = .ok result ↔
      result = below.settle false ∧ below.All Loadable)
    (children : ∀ below ∈ node.children, ∀ result, ofRaw strict true below.toRaw = .ok result ↔
      result = below.settle true ∧ below.All Loadable) :
    built = node.settle asChild ∧ node.All Loadable := by
  have kind : built.kind = settledKind asChild node.kind node.children := by
    have told := kind_toRaw h asChild
    rw [toRaw_eq] at told
    exact Except.ok.inj (origin.kind.symm.trans told)
  have plain : built.kind.plain = node.kind.plain := by
    rw [kind, plain_settledKind]
  have attributes : built.attributes = node.attributes := by
    refine attributes_eq ?_ (nodup_names h) fun entry member => ?_
    · rw [h.names, origin.names, ← Kind.attributes_plain, plain, Kind.attributes_plain]
    · have found := (origin.attributes entry member).1
      rw [present?_attribute plain (origin.names ▸ List.mem_map_of_mem member)] at found
      grind
  obtain ⟨short, gaps⟩ := (readGaps_rawFields h plain).1 origin.gaps
  obtain ⟨below, loadable⟩ := (optionMap_ofRaw_toRaw condition).1
    (givenCondition?_rawFields h plain ▸ origin.condition)
  obtain ⟨each, allLoadable⟩ := (map_ofRaw_toRaw children).1
    (listed_rawFields h ▸ origin.children)
  refine ⟨?_, .mk ⟨fun entry member => ?_, short⟩ loadable allLoadable⟩
  · rw [settle_eq]
    exact eq_of_parts kind attributes below each gaps
  · rw [← attributeProblem_plain, ← plain, attributeProblem_plain]
    exact (origin.attributes entry (attributes ▸ member)).2

/-- Children are accepted whether or not connector definitions are told apart. -/
theorem accepted_settle {asChild : Bool} {node : Node} (h : node.Parsed) :
    ∀ child ∈ node.children, (settledKind asChild node.kind node.children).accepts.contains
      (child.settle true).kind.category := by
  intro child member
  rw [← Kind.accepts_plain, plain_settledKind, Kind.accepts_plain, ← Kind.category_plain,
    plain_kind_settle, Kind.category_plain]
  exact h.accepted child member

/-- Children are in order whether or not connector definitions are told apart. -/
theorem arranged_settle {asChild : Bool} {node : Node} (h : node.Parsed) (strict : Bool) :
    arrangementProblem? strict (settledKind asChild node.kind node.children) node.operator?
      ((node.children.map (settle true)).map outline) = none := by
  have outlines : ((node.children.map (settle true)).map outline).map
      (fun child => (child.1.plain, child.2)) =
      (node.children.map outline).map fun child => (child.1.plain, child.2) := by
    rw [List.map_map, List.map_map, List.map_map]
    refine List.map_congr_left fun inner _ => ?_
    simp [outline, plain_kind_settle, operator?_settle]
  rw [← arrangement_parent_plain, plain_settledKind, arrangement_parent_plain,
    ← arrangement_map_plain, outlines, arrangement_map_plain]
  exact arrangement_lenient h.arranged strict

/-- A parsed node that passes the checks is built from its raw form. -/
theorem builtFrom_settle {strict asChild : Bool} {node : Node} (h : node.Parsed)
    (loadable : node.Loadable)
    (condition : ∀ below ∈ node.condition, ofRaw strict false below.toRaw = .ok (below.settle false))
    (children : ∀ below ∈ node.children, ofRaw strict true below.toRaw = .ok (below.settle true)) :
    BuiltFrom strict asChild node.rawFields (node.settle asChild) := by
  have told := kind_toRaw h asChild
  have plain := plain_settledKind asChild node.kind node.children
  rw [toRaw_eq] at told
  rw [settle_eq]
  constructor
  case kind => exact told
  case names =>
    show node.attributes.map Prod.fst = Kind.attributes (settledKind asChild node.kind node.children)
    rw [h.names, ← Kind.attributes_plain, ← plain, Kind.attributes_plain]
  case attributes =>
    intro entry member
    have good := loadable.attributes entry member
    have own : entry.1 ∈ (settledKind asChild node.kind node.children).attributes := by
      rw [← Kind.attributes_plain, plain, Kind.attributes_plain, ← h.names]
      exact List.mem_map_of_mem member
    obtain ⟨text, same⟩ := exists_text_of_good good
    refine ⟨?_, ?_⟩
    · rw [present?_attribute plain own, lookup_of_mem (nodup_names h) member, same]
    · rwa [Node.kind, ← attributeProblem_plain, plain, attributeProblem_plain]
  case gaps => exact (readGaps_rawFields h plain).2 ⟨loadable.gaps, rfl⟩
  case condition =>
    show (givenCondition? (settledKind asChild node.kind node.children) _).map _ = _
    rw [givenCondition?_rawFields h plain]
    cases given : node.condition with
    | none => rfl
    | some below =>
      simp only [Node.condition, Option.map_some, condition below given]
  case fitting =>
    intro below member
    obtain ⟨inner, found, rfl⟩ := Option.map_eq_some_iff.1 member
    exact conditionFault_settle (h.fitting inner found)
  case array =>
    intro value present
    rw [present?_object, lookup_children h] at present
    split at present
    · simp at present
    · grind
  case count =>
    rw [listed_rawFields h, List.length_map]
    show Kind.takesCount (settledKind asChild node.kind node.children) _
    rw [← takesCount_plain, plain, takesCount_plain]
    exact h.count
  case children =>
    rw [listed_rawFields h, Node.children, List.map_map, List.map_map]
    exact List.map_congr_left children
  case accepted =>
    intro _ below member
    obtain ⟨inner, found, rfl⟩ := List.mem_map.1 member
    exact accepted_settle h inner found
  case arranged =>
    exact arranged_settle h strict

/-- **Which parsed nodes can be built, and with what result.** -/
theorem ofRaw_toRaw {strict asChild : Bool} {node built : Node} (h : node.All Parsed) :
    ofRaw strict asChild node.toRaw = .ok built ↔
      built = node.settle asChild ∧ node.All Loadable := by
  induction h generalizing asChild built with
  | @mk node here _ _ condition children =>
    rw [toRaw_eq, ofRaw_eq_ok]
    constructor
    · rintro ⟨_, same, h⟩
      obtain rfl := Json.object.inj same
      exact eq_settle_of_builtFrom here h (fun below member result => condition below member)
        fun below member result => children below member
    · rintro ⟨rfl, loadable⟩
      cases loadable with
      | mk own loadable allLoadable =>
        exact ⟨_, rfl, builtFrom_settle here own
          (fun below member => (condition below member).2 ⟨rfl, loadable below member⟩)
          fun below member => (children below member).2 ⟨rfl, allLoadable below member⟩⟩

end Node
end Verbatim
