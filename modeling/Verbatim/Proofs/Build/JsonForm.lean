import Verbatim.Proofs.Build.Accepted

/-!
# Raw values are built again

A node that has what a build asks for is written as a raw value and built again as itself, but for
one thing: connector definitions are written under the tag of definitions, and are told apart anew
by what they create. Neither the raw value nor the text of a node shows the difference. All that a
build asks of a node is said of the node itself and of the kinds and operators right below it, so
that it can be asked of a node in a tree as well.

## Main definitions

* `Kind.Holds`, `Kind.TakesCondition`, `Kind.TakesChildren`: what a build asks of the parts of a
  node
* `Node.Fit`: all of it, at one node
* `Node.resettle`: a node with connector definitions told apart anew

## Main results

* `Node.fit_of_ofRaw`: everything that is built is fit
* `Node.ofRaw_toJson`: **everything fit is built again from its raw value**
* `Node.fit_of_ofRaw_toJson`: **and nothing else is**
* `Node.toJson_resettle`, `Node.render_resettle`: and has the raw value and the text it had
* `Node.words_of_toJson`: and raw values tell the words
* `Node.missingCondition_of_render`: all that can keep it from having a text is a missing condition
-/

namespace Verbatim

/-! ### Gaps -/

namespace Gaps

/-- Gaps as a build takes them: in order, known to the layout, and with numbers that are not too long
to be read. -/
structure Orderly (layout : Layout) (gaps : Gaps) : Prop where
  ascending : Ascending gaps
  known : ∀ entry ∈ gaps, layout.acceptsGap entry.1
  short : ∀ entry ∈ gaps, entry.1 < 10 ^ Text.digitLimit

variable {layout : Layout} {gaps : Gaps} {index : Nat} {text : String}

theorem mem_set {entry : Nat × String} (member : entry ∈ gaps.set index text) :
    entry = (index, text) ∨ entry ∈ gaps := by
  induction gaps with
  | nil => exact .inl (List.mem_singleton.1 member)
  | cons first rest ih =>
    rw [set] at member
    split at member
    · exact (List.mem_cons.1 member).imp_right (List.mem_cons_of_mem first)
    · split at member
      · exact List.mem_cons.1 member
      · rcases List.mem_cons.1 member with rfl | later
        · exact .inr List.mem_cons_self
        · exact (ih later).imp_right (List.mem_cons_of_mem first)

theorem Ascending.set (ascending : Ascending gaps) (index : Nat) (text : String) :
    Ascending (gaps.set index text) := by
  induction gaps with
  | nil => exact List.pairwise_singleton _ _
  | cons first rest ih =>
    obtain ⟨above, later⟩ := List.pairwise_cons.1 ascending
    rw [Gaps.set]
    split
    · next same => exact List.pairwise_cons.2 ⟨fun entry member => same ▸ above entry member, later⟩
    · split
      · next less =>
        refine List.pairwise_cons.2 ⟨fun entry member => ?_, ascending⟩
        rcases List.mem_cons.1 member with rfl | member
        · exact less
        · exact Nat.lt_trans less (above entry member)
      · next apart notLess =>
        refine List.pairwise_cons.2 ⟨fun entry member => ?_, ih later⟩
        rcases mem_set member with rfl | member
        · show first.1 < index
          omega
        · exact above entry member

theorem orderly_nil (layout : Layout) : Orderly layout [] :=
  ⟨List.Pairwise.nil, fun _ member => absurd member List.not_mem_nil,
    fun _ member => absurd member List.not_mem_nil⟩

theorem Orderly.set (orderly : gaps.Orderly layout) (known : layout.acceptsGap index)
    (short : index < 10 ^ Text.digitLimit) : (gaps.set index text).Orderly layout where
  ascending := orderly.ascending.set index text
  known entry member := by
    rcases mem_set member with rfl | member
    · exact known
    · exact orderly.known entry member
  short entry member := by
    rcases mem_set member with rfl | member
    · exact short
    · exact orderly.short entry member

/-- What an entry of raw gaps is read as. -/
theorem of_readEntry {field : String × Json} {entry : Nat × String}
    (read : readEntry layout field = .ok entry) :
    layout.acceptsGap entry.1 ∧ entry.1 < 10 ^ Text.digitLimit := by
  unfold readEntry at read
  obtain ⟨found, number, read⟩ := bind_eq_ok.1 read
  by_cases known : layout.acceptsGap found
  · have natural := Layout.nonneg_of_acceptsGap known
    have same : ((found.toNat : Nat) : Int) = found := Int.toNat_of_nonneg natural
    rw [mapError_eq_ok, ← same] at number
    rw [if_pos known] at read
    dsimp only at read
    split at read
    · next text _ =>
      obtain rfl : (found.toNat, text) = entry := Except.ok.inj read
      refine ⟨?_, Text.lt_of_readInteger number⟩
      rw [same]
      exact known
    · contradiction
  · rw [if_neg known] at read
    contradiction

theorem Orderly.foldl_set {entries : Gaps} (orderly : gaps.Orderly layout)
    (good : ∀ entry ∈ entries, layout.acceptsGap entry.1 ∧ entry.1 < 10 ^ Text.digitLimit) :
    (entries.foldl (fun gaps entry => gaps.set entry.1 entry.2) gaps).Orderly layout := by
  induction entries generalizing gaps with
  | nil => exact orderly
  | cons entry rest ih =>
    obtain ⟨⟨known, short⟩, later⟩ := List.forall_mem_cons.1 good
    exact ih (orderly.set known short) later

/-- Loaded gaps are orderly. -/
theorem Orderly.load {raw : Json} {loaded : Gaps} (orderly : gaps.Orderly layout)
    (read : load layout gaps raw = .ok loaded) : loaded.Orderly layout := by
  unfold Gaps.load at read
  split at read
  · next fields =>
    obtain ⟨entries, each, read⟩ := bind_eq_ok.1 read
    obtain rfl := Except.ok.inj read
    refine orderly.foldl_set fun entry member => ?_
    have member : .ok entry ∈ fields.map (readEntry layout) :=
      mapM_eq_ok.1 each ▸ List.mem_map_of_mem member
    obtain ⟨field, -, read⟩ := List.mem_map.1 member
    exact of_readEntry read
  · contradiction

end Gaps

/-! ### What a build asks of a node -/

/-- What a build asks of the attributes and gaps of a node of the kind. -/
structure Kind.Holds (kind : Kind) (attributes : List (String × Json)) (gaps : Gaps) : Prop where
  names : attributes.map Prod.fst = kind.attributes
  good : ∀ entry ∈ attributes, attributeProblem? kind entry.1 entry.2 = none
  gaps : gaps.Orderly kind.layout

/-- What a build asks of the kind of a condition: it is an expression and no connector, and there is
a slot for it. -/
structure Kind.TakesCondition (kind : Kind) (condition : Option Kind) : Prop where
  slot : kind.hasCondition = false → condition = none
  expression : ∀ found ∈ condition, found.category = .expression ∧ found ≠ .connectorCreation

/-- What a build asks of the kinds and operators of children. -/
structure Kind.TakesChildren (strict : Bool) (kind : Kind) (operator : Option String)
    (children : List (Kind × Option String)) : Prop where
  count : kind.takesCount children.length
  accepted : strict → ∀ child ∈ children, kind.accepts.contains child.1.category
  arranged : Node.arrangementProblem? strict kind operator children = none

namespace Kind

variable {strict : Bool} {kind other : Kind} {attributes : List (String × Json)} {gaps : Gaps}
  {operator : Option String} {children : List (Kind × Option String)}

theorem Holds.of_plain (same : other.plain = kind.plain) (holds : kind.Holds attributes gaps) :
    other.Holds attributes gaps where
  names := by
    rw [holds.names, ← attributes_plain, ← same, attributes_plain]
  good entry member := by
    rw [← Node.attributeProblem_plain, same, Node.attributeProblem_plain]
    exact holds.good entry member
  gaps := by
    rw [← layout_plain, same, layout_plain]
    exact holds.gaps

/-- Whether definitions create connectors makes no difference to what is asked of children. -/
theorem TakesChildren.of_plain (same : other.plain = kind.plain)
    {others : List (Kind × Option String)}
    (each : (others.map fun child => (child.1.plain, child.2)) =
      children.map fun child => (child.1.plain, child.2))
    (takes : kind.TakesChildren strict operator children) :
    other.TakesChildren strict operator others where
  count := by
    have length := congrArg List.length each
    rw [List.length_map, List.length_map] at length
    rw [← Node.takesCount_plain, same, Node.takesCount_plain, length]
    exact takes.count
  accepted hstrict child member := by
    have member : (child.1.plain, child.2) ∈ children.map fun child => (child.1.plain, child.2) :=
      each ▸ List.mem_map_of_mem member
    obtain ⟨inner, found, equal⟩ := List.mem_map.1 member
    rw [← accepts_plain, same, accepts_plain, ← category_plain, ← (Prod.mk.inj equal).1,
      category_plain]
    exact takes.accepted hstrict inner found
  arranged := by
    rw [← Node.arrangement_parent_plain, same, Node.arrangement_parent_plain,
      ← Node.arrangement_map_plain, each, Node.arrangement_map_plain]
    exact takes.arranged

end Kind

namespace Node

variable {strict asChild : Bool} {node : Node}

/-- What a build asks of one node. -/
structure Fit (strict : Bool) (node : Node) : Prop where
  own : node.kind.Holds node.attributes node.gaps
  condition : node.kind.TakesCondition (node.condition.map kind)
  children : node.kind.TakesChildren strict node.operator? (node.children.map outline)

/-- What the raw value of a node relies on: it shows the attributes that nodes of the kind have, a
condition only where there is a slot, and gaps that are read as they are. -/
structure Written (node : Node) : Prop where
  names : node.attributes.map Prod.fst = node.kind.attributes
  slot : node.kind.hasCondition = false → node.condition = none
  gaps : node.gaps.Orderly node.kind.layout

theorem Fit.written (fit : node.Fit strict) : node.Written :=
  ⟨fit.own.names, fun absent => Option.map_eq_none_iff.1 (fit.condition.slot absent), fit.own.gaps⟩

theorem BuiltFrom.fit {fields : List (String × Json)} (built : BuiltFrom strict asChild fields node) :
    node.Fit strict := by
  refine ⟨⟨built.names, fun entry member => (built.attributes entry member).2, ?_⟩, ⟨?_, ?_⟩,
    ⟨?_, fun hstrict child member => ?_, built.arranged⟩⟩
  · have read := built.gaps
    unfold readGaps at read
    split at read
    · exact Except.ok.inj read ▸ Gaps.orderly_nil _
    · exact (Gaps.orderly_nil _).load (mapError_eq_ok.1 read)
  · intro noSlot
    have made := built.condition
    rw [givenCondition?, noSlot] at made
    simpa using made.symm
  · intro found member
    obtain ⟨below, inside, rfl⟩ := Option.map_eq_some_iff.1 member
    exact conditionFault?_eq_none.1 (built.fitting below inside)
  · have same := congrArg List.length built.children
    rw [List.length_map, List.length_map] at same
    rw [List.length_map, ← same]
    exact built.count
  · obtain ⟨below, inside, rfl⟩ := List.mem_map.1 member
    exact built.accepted hstrict below inside

/-- **Everything that is built is fit.** -/
theorem fit_of_ofRaw {raw : Json} (h : ofRaw strict asChild raw = .ok node) :
    node.All (Fit strict) := by
  induction node using inductionOn generalizing asChild raw with
  | step node condition children =>
    obtain ⟨fields, rfl, built⟩ := ofRaw_eq_ok.1 h
    obtain ⟨inner, each⟩ := built.below
    refine .mk built.fit (fun below member => ?_) (fun below member => ?_)
    · obtain ⟨value, -, made⟩ := inner below member
      exact condition below member made
    · obtain ⟨value, -, made⟩ := each below member
      exact children below member made

/-! ### Connector definitions told apart anew -/

mutual

/-- The node with connector definitions told apart anew, whatever they were before. -/
def resettle (asChild : Bool) : Node → Node
  | mk kind attributes none children gaps =>
    mk (settledKind asChild kind.plain children) attributes none (resettleAll children) gaps
  | mk kind attributes (some condition) children gaps =>
    mk (settledKind asChild kind.plain children) attributes (some (resettle false condition))
      (resettleAll children) gaps

/-- Each of the children with connector definitions told apart anew. -/
def resettleAll : List Node → List Node
  | [] => []
  | node :: rest => resettle true node :: resettleAll rest

end

theorem resettleAll_eq_map (nodes : List Node) : resettleAll nodes = nodes.map (resettle true) := by
  induction nodes with
  | nil => rfl
  | cons node rest ih => rw [resettleAll, ih, List.map_cons]

theorem resettle_eq (asChild : Bool) (node : Node) :
    node.resettle asChild = mk (settledKind asChild node.kind.plain node.children) node.attributes
      (node.condition.map (resettle false)) (node.children.map (resettle true)) node.gaps := by
  rcases node with ⟨kind, attributes, _ | condition, children, gaps⟩ <;>
    rw [resettle, resettleAll_eq_map] <;> rfl

theorem plain_plain (kind : Kind) : kind.plain.plain = kind.plain := by
  cases kind <;> rfl

theorem plain_kind_resettle (asChild : Bool) (node : Node) :
    (node.resettle asChild).kind.plain = node.kind.plain := by
  rw [resettle_eq]
  exact (plain_settledKind asChild node.kind.plain node.children).trans (plain_plain node.kind)

theorem operator?_resettle (asChild : Bool) (node : Node) :
    (node.resettle asChild).operator? = node.operator? := by
  rw [resettle_eq]
  rfl

/-- The children look the same, up to the creation of connectors. -/
theorem map_outline_resettle (nodes : List Node) :
    (((nodes.map (resettle true)).map outline).map fun child => (child.1.plain, child.2)) =
      (nodes.map outline).map fun child => (child.1.plain, child.2) := by
  rw [List.map_map, List.map_map, List.map_map]
  refine List.map_congr_left fun node _ => ?_
  show ((node.resettle true).kind.plain, (node.resettle true).operator?) = _
  rw [plain_kind_resettle, operator?_resettle]
  rfl

/-! ### Raw values -/

/-- The fields of the raw value of a node. -/
def jsonFields (node : Node) : List (String × Json) :=
  ("type", .text node.kind.wireTag) ::
    (ownFields node.kind node.attributes ++ (bodyFields (node.children.map toJson) node.gaps ++
      (node.condition.map fun condition => ("condition", toJson condition)).toList))

theorem toJson_eq (node : Node) : node.toJson = .object node.jsonFields := by
  rcases node with ⟨kind, attributes, _ | condition, children, gaps⟩ <;>
    rw [toJson, toJsonAll_eq_map] <;> simp [jsonFields, Node.kind, Node.attributes, Node.children,
      Node.gaps, Node.condition]

theorem ownFields_eq {kind : Kind} {attributes : List (String × Json)}
    (names : attributes.map Prod.fst = kind.attributes) : ownFields kind attributes = attributes := by
  have nodup : (attributes.map Prod.fst).Nodup := names ▸ nodup_attributes kind
  have each : ∀ entry ∈ attributes,
      ((fun name => (attributes.lookup name).map (name, ·)) ∘ Prod.fst) entry = some entry := by
    intro entry member
    rw [Function.comp_apply, lookup_of_mem nodup member]
    rfl
  rw [ownFields, ← names, List.filterMap_map, List.filterMap_congr each, List.filterMap_some]

section Fields

variable (written : node.Written)
include written

theorem lookup_jsonFields {name : String} (notType : name ≠ "type") : node.jsonFields.lookup name =
    (node.attributes.lookup name).or
      (((bodyFields (node.children.map toJson) node.gaps).lookup name).or
        ((node.condition.map fun condition => ("condition", toJson condition)).toList.lookup name)) := by
  rw [jsonFields, ownFields_eq written.names, List.lookup_cons, beq_false_of_ne notType]
  simp only [List.lookup_append]

theorem lookup_jsonFields_attribute {name : String} (own : name ∈ node.kind.attributes) :
    node.jsonFields.lookup name = node.attributes.lookup name := by
  have apart : ∀ kind : Kind, ∀ name ∈ kind.attributes,
      name ≠ "type" ∧ name ≠ "condition" ∧ name ≠ "children" ∧ name ≠ "ws" := by
    intro kind
    cases kind <;> decide
  obtain ⟨notType, notCondition, notChildren, notGaps⟩ := apart node.kind name own
  have body : (bodyFields (node.children.map toJson) node.gaps).lookup name = none := by
    unfold bodyFields
    split <;> split <;>
      simp [List.lookup_cons, beq_false_of_ne notChildren, beq_false_of_ne notGaps]
  have slot : (node.condition.map fun condition => ("condition", toJson condition)).toList.lookup
      name = none := by
    cases node.condition <;> simp [List.lookup_cons, beq_false_of_ne notCondition]
  rw [lookup_jsonFields written notType, body, slot, Option.or_none, Option.or_none]

theorem lookup_jsonFields_condition :
    node.jsonFields.lookup "condition" = node.condition.map toJson := by
  have body : (bodyFields (node.children.map toJson) node.gaps).lookup "condition" = none := by
    unfold bodyFields
    split <;> split <;> rfl
  rw [lookup_jsonFields written (by decide), lookup_attributes_of_field written.names (by simp), body]
  cases node.condition <;> rfl

theorem lookup_jsonFields_children : node.jsonFields.lookup "children" =
    if node.children = [] then none else some (.array (node.children.map toJson)) := by
  rw [lookup_jsonFields written (by decide), lookup_attributes_of_field written.names (by simp)]
  unfold bodyFields
  cases node.children <;> cases node.gaps <;> cases node.condition <;> rfl

theorem lookup_jsonFields_ws : node.jsonFields.lookup "ws" =
    if node.gaps = [] then none else some (Gaps.toJson node.gaps) := by
  rw [lookup_jsonFields written (by decide), lookup_attributes_of_field written.names (by simp)]
  unfold bodyFields
  cases node.children <;> cases node.gaps <;> cases node.condition <;> rfl

theorem listed_jsonFields : listed node.jsonFields = node.children.map toJson := by
  rw [listed, lookup_jsonFields_children written]
  cases node.children <;> rfl

theorem present?_jsonFields {name : String} (own : name ∈ node.kind.attributes) :
    (Json.object node.jsonFields).present? name =
      match node.attributes.lookup name with
      | some .null => none
      | found => found :=
  congrArg (fun found : Option Json => match found with
    | some .null => none
    | found => found) (lookup_jsonFields_attribute written own)

theorem givenCondition?_jsonFields {kind : Kind} (same : kind.plain = node.kind.plain) :
    givenCondition? kind node.jsonFields = node.condition.map toJson := by
  have has : kind.hasCondition = node.kind.hasCondition := by
    rw [← Kind.hasCondition_plain, same, Kind.hasCondition_plain]
  unfold givenCondition? Json.present? Json.get?
  simp only [lookup_jsonFields_condition written, has]
  cases given : node.condition with
  | none => split <;> rfl
  | some condition =>
    cases slot : node.kind.hasCondition with
    | false =>
      have none := written.slot slot
      rw [given] at none
      contradiction
    | true => simp only [Option.map_some, toJson_eq, if_true]

theorem readGaps_jsonFields {kind : Kind} (same : kind.plain = node.kind.plain) {tag : String} :
    readGaps kind tag (.object node.jsonFields) [] = .ok node.gaps := by
  have layout : kind.layout = node.kind.layout := by
    rw [← Kind.layout_plain, same, Kind.layout_plain]
  have given : (Json.object node.jsonFields).present? "ws" =
      if node.gaps = [] then none else some (Gaps.toJson node.gaps) := by
    rw [present?_object, lookup_jsonFields_ws written]
    split <;> simp_all [Gaps.toJson]
  unfold readGaps
  rw [given]
  by_cases none : node.gaps = []
  · rw [if_pos none, none]
  · have orderly := written.gaps
    rw [if_neg none, layout]
    exact mapError_eq_ok.2
      ((Gaps.load_toJson orderly.ascending orderly.known).2 ⟨orderly.short, rfl⟩)

end Fields

/-! ### The kind that a raw value asks for -/

theorem get?_type_toJson (node : Node) :
    node.toJson.get? "type" = some (.text node.kind.wireTag) := by
  rw [toJson_eq]
  rfl

theorem rawKind_toJson (node : Node) : rawKind node.toJson = .ok node.kind.plain := by
  have tag : node.kind.wireTag = node.kind.plain.tag := by
    cases node.kind <;> rfl
  have type := get?_type_toJson node
  rw [toJson_eq] at type ⊢
  simp only [rawKind, type, tag, Kind.ofTag?_tag]

theorem kind_toJson (fit : node.Fit strict) (asChild : Bool) :
    (if asChild then rawChildKind node.toJson else rawKind node.toJson) =
      .ok (settledKind asChild node.kind.plain node.children) := by
  have definition : node.kind.plain = .definition →
      node.toJson.get? "children" = some (.array (node.children.map toJson)) := by
    intro definition
    have count := (takesCount_plain.2 fit.children.count).1
    rw [definition, List.length_map] at count
    rw [toJson_eq]
    refine (lookup_jsonFields_children fit.written).trans (if_neg fun none => ?_)
    rw [none] at count
    exact absurd count (by decide)
  rw [rawChildKind, isConnectorDefinition_eq (get?_type_toJson node) definition get?_type_toJson,
    rawKind_toJson, settledKind]
  cases asChild <;> simp
  split <;> rfl

/-- A raw value asks for the kind that its node has, but for connectors that definitions create. -/
theorem plain_of_kind_toJson {kind : Kind}
    (told : (if asChild then rawChildKind node.toJson else rawKind node.toJson) = .ok kind) :
    kind.plain = node.kind.plain := by
  rw [rawChildKind, rawKind_toJson] at told
  by_cases definition : node.kind.plain = .definition
  · rw [definition] at told ⊢
    split at told
    · split at told <;> exact Except.ok.inj told ▸ rfl
    · exact Except.ok.inj told ▸ rfl
  · have plain := @isConnectorDefinition_eq _ _ node.children toJson (get?_type_toJson node)
      (fun same => absurd same definition) get?_type_toJson
    rw [plain] at told
    simp only [definition, false_and, decide_false, Bool.false_eq_true, if_false, ite_self,
      Except.ok.injEq] at told
    rw [← told, plain_plain]

/-! ### Built again -/

/-- A fit node is built from its raw value, if what is below it is. -/
theorem builtFrom_resettle (fit : node.Fit strict)
    (condition : ∀ below ∈ node.condition,
      ofRaw strict false below.toJson = .ok (below.resettle false))
    (children : ∀ below ∈ node.children,
      ofRaw strict true below.toJson = .ok (below.resettle true)) :
    BuiltFrom strict asChild node.jsonFields (node.resettle asChild) := by
  have told := kind_toJson fit asChild
  have plain := (plain_settledKind asChild node.kind.plain node.children).trans
    (plain_plain node.kind)
  rw [toJson_eq] at told
  rw [resettle_eq]
  -- The kind that comes back may differ in whether a definition creates a connector, and in no
  -- other way; none of the checks looks at that.
  generalize settledKind asChild node.kind.plain node.children = kind at told plain ⊢
  have own := fit.own.of_plain plain
  have takes := fit.children.of_plain plain (map_outline_resettle node.children)
  constructor
  case kind => exact told
  case names => exact own.names
  case attributes =>
    intro entry member
    have good := own.good entry member
    have nodup : (node.attributes.map Prod.fst).Nodup := fit.own.names ▸ nodup_attributes node.kind
    have inside : entry.1 ∈ node.kind.attributes := fit.own.names ▸ List.mem_map_of_mem member
    obtain ⟨text, same⟩ := exists_text_of_good good
    refine ⟨?_, good⟩
    rw [present?_jsonFields fit.written inside, lookup_of_mem nodup member, same]
  case gaps => exact readGaps_jsonFields fit.written plain
  case condition =>
    show (givenCondition? kind _).map _ =
      (node.condition.map (resettle false)).map Except.ok
    rw [givenCondition?_jsonFields fit.written plain, Option.map_map, Option.map_map]
    exact Option.map_congr condition
  case fitting =>
    intro below member
    obtain ⟨inner, found, rfl⟩ := Option.map_eq_some_iff.1 member
    obtain ⟨expression, noConnector⟩ := fit.condition.expression inner.kind
      (Option.mem_map_of_mem Node.kind found)
    have same : (inner.resettle false).kind = inner.kind := by
      rw [resettle_eq, settledKind_false]
      refine Kind.plain_eq_self fun definition => ?_
      rw [definition] at expression
      contradiction
    exact conditionFault?_eq_none.2 (same ▸ ⟨expression, noConnector⟩)
  case array =>
    intro value present
    rw [present?_object, lookup_jsonFields_children fit.written] at present
    split at present
    · contradiction
    · grind
  case count =>
    have count := takes.count
    rw [List.length_map, List.length_map] at count
    rw [listed_jsonFields fit.written, List.length_map]
    exact count
  case children =>
    rw [listed_jsonFields fit.written, Node.children, List.map_map, List.map_map]
    exact List.map_congr_left children
  case accepted =>
    intro hstrict below member
    exact takes.accepted hstrict below.outline (List.mem_map_of_mem member)
  case arranged => exact takes.arranged

/-- **Everything fit is built again from its raw value.** -/
theorem ofRaw_toJson (fit : node.All (Fit strict)) (asChild : Bool) :
    ofRaw strict asChild node.toJson = .ok (node.resettle asChild) := by
  induction fit generalizing asChild with
  | @mk node here _ _ condition children =>
    rw [toJson_eq, ofRaw_eq_ok]
    exact ⟨_, rfl, builtFrom_resettle here (fun below member => condition below member false)
      fun below member => children below member true⟩

/-! ### Only what is fit is built -/

namespace BuiltFrom

variable {found : Node} (built : BuiltFrom strict asChild node.jsonFields found)
include built

theorem plain_kind : found.kind.plain = node.kind.plain := by
  have told := built.kind
  rw [← toJson_eq] at told
  exact plain_of_kind_toJson told

variable (written : node.Written)
include written

theorem attributes_eq : found.attributes = node.attributes := by
  have same : found.kind.attributes = node.kind.attributes := by
    rw [← Kind.attributes_plain, built.plain_kind, Kind.attributes_plain]
  have nodup : (found.attributes.map Prod.fst).Nodup := built.names ▸ nodup_attributes found.kind
  rw [← ownFields_eq written.names, ← ownFields_eq built.names, ownFields, ownFields, ← same]
  refine List.filterMap_congr fun name own => ?_
  rw [← built.names] at own
  obtain ⟨entry, member, rfl⟩ := List.mem_map.1 own
  have inside : entry.1 ∈ node.kind.attributes := same ▸ built.names ▸ own
  obtain ⟨present, good⟩ := built.attributes entry member
  obtain ⟨text, isText⟩ := exists_text_of_good good
  rw [present?_jsonFields written inside] at present
  rw [lookup_of_mem nodup member]
  cases given : node.attributes.lookup entry.1 with
  | none =>
    rw [given] at present
    contradiction
  | some value =>
    rw [given] at present
    cases value <;> simp_all

theorem operator?_eq : found.operator? = node.operator? := by
  rw [operator?, operator?, attribute?, attribute?, built.attributes_eq written]

theorem gaps_eq : found.gaps = node.gaps :=
  Except.ok.inj (built.gaps.symm.trans (readGaps_jsonFields written built.plain_kind))

theorem children_eq :
    (node.children.map toJson).map (ofRaw strict true) = found.children.map .ok := by
  rw [← listed_jsonFields written]
  exact built.children

theorem of_mem_children {below : Node} (member : below ∈ node.children) :
    ∃ inner, ofRaw strict true below.toJson = .ok inner := by
  have inside : ofRaw strict true below.toJson ∈ found.children.map .ok := by
    rw [← built.children_eq written, List.map_map]
    exact List.mem_map_of_mem member
  obtain ⟨inner, -, made⟩ := List.mem_map.1 inside
  exact ⟨inner, made.symm⟩

theorem of_mem_condition {below : Node} (member : below ∈ node.condition) :
    ∃ inner ∈ found.condition, ofRaw strict false below.toJson = .ok inner := by
  have made := built.condition
  rw [givenCondition?_jsonFields written built.plain_kind, member] at made
  obtain ⟨inner, inside, made⟩ := Option.map_eq_some_iff.1 made.symm
  exact ⟨inner, inside, made.symm⟩

/-- What a raw value is built from was fit already, if what is below looks as it did. -/
theorem fit_source
    (condition : ∀ below ∈ node.condition, ∀ inner, ofRaw strict false below.toJson = .ok inner →
      inner.kind.plain = below.kind.plain)
    (children : ∀ below ∈ node.children, ∀ inner, ofRaw strict true below.toJson = .ok inner →
      (inner.kind.plain, inner.operator?) = (below.kind.plain, below.operator?)) :
    node.Fit strict := by
  have fit := built.fit
  refine ⟨?_, ⟨fun absent => ?_, ?_⟩, ?_⟩
  · rw [← built.attributes_eq written, ← built.gaps_eq written]
    exact fit.own.of_plain built.plain_kind.symm
  · rw [written.slot absent, Option.map_none]
  · intro kind member
    obtain ⟨below, inside, rfl⟩ := Option.map_eq_some_iff.1 member
    obtain ⟨inner, given, made⟩ := built.of_mem_condition written inside
    have plain := condition below inside inner made
    obtain ⟨expression, noConnector⟩ := conditionFault?_eq_none.1 (built.fitting inner given)
    refine ⟨?_, fun connector => noConnector ?_⟩
    · rw [← Kind.category_plain, ← plain, Kind.category_plain, expression]
    · rw [connector] at plain
      revert plain
      cases inner.kind <;> decide
  · have same := map_congr_of_ok (by rw [← built.children_eq written, List.map_map]; rfl) children
    rw [← built.operator?_eq written]
    refine fit.children.of_plain built.plain_kind.symm ?_
    rw [List.map_map, List.map_map]
    exact same.symm

end BuiltFrom

theorem builtFrom_of_ofRaw_toJson {found : Node}
    (made : ofRaw strict asChild node.toJson = .ok found) :
    BuiltFrom strict asChild node.jsonFields found := by
  rw [toJson_eq] at made
  obtain ⟨fields, same, built⟩ := ofRaw_eq_ok.1 made
  exact Json.object.inj same ▸ built

/-- **Only what is fit is built from its raw value.** -/
theorem fit_of_ofRaw_toJson {found : Node} (written : node.All Written)
    (made : ofRaw strict asChild node.toJson = .ok found) : node.All (Fit strict) := by
  induction written generalizing asChild found with
  | @mk node here belowCondition belowChildren condition children =>
    have built := builtFrom_of_ofRaw_toJson made
    refine .mk (built.fit_source here (fun below _ inner made => ?_) fun below member inner made => ?_)
      (fun below member => ?_) (fun below member => ?_)
    · exact (builtFrom_of_ofRaw_toJson made).plain_kind
    · have built := builtFrom_of_ofRaw_toJson made
      rw [built.plain_kind, built.operator?_eq (belowChildren below member).here]
    · obtain ⟨inner, -, made⟩ := built.of_mem_condition here member
      exact condition below member made
    · obtain ⟨inner, made⟩ := built.of_mem_children here member
      exact children below member made

/-! ### Texts -/

/-- Telling connector definitions apart anew changes no word. -/
theorem lexemes_resettle (asChild : Bool) (node : Node) :
    (node.resettle asChild).lexemes = node.lexemes := by
  induction node using inductionOn generalizing asChild with
  | step node condition children =>
    rw [resettle_eq]
    refine lexemes_congr ?_ rfl rfl ((Option.map_map ..).trans ?_) ((List.map_map ..).trans ?_)
    · exact (layout_settledKind asChild node.kind.plain node.children).trans (Kind.layout_plain _)
    · exact Option.map_congr fun below member => condition below member false
    · exact List.map_congr_left fun below member => children below member true

/-- **Nodes with the same raw value have the same words**, and the same blank text in front. -/
theorem words_of_toJson {other : Node} (fit : node.All (Fit strict))
    (fitToo : other.All (Fit strict)) (same : node.toJson = other.toJson) :
    node.leading = other.leading ∧ node.lexemes = other.lexemes := by
  have built := ofRaw_toJson fit false
  rw [same, ofRaw_toJson fitToo false] at built
  have equal := Except.ok.inj built
  have leading (node : Node) : (node.resettle false).leading = node.leading :=
    leading_congr (plain_kind_resettle false node) (by rw [resettle_eq]; rfl)
  rw [← leading node, ← leading other, ← lexemes_resettle false node, ← lexemes_resettle false other,
    equal]
  exact ⟨rfl, rfl⟩

theorem mem_of_joinPieces {pieces : List (Except RenderError String)} {error : RenderError}
    (failed : joinPieces pieces = .error error) : .error error ∈ pieces := by
  induction pieces with
  | nil => contradiction
  | cons piece rest ih =>
    cases piece with
    | error found =>
      obtain rfl : found = error := Except.error.inj failed
      exact List.mem_cons_self
    | ok text =>
      rw [joinPieces] at failed
      cases joined : joinPieces rest with
      | ok joined' =>
        rw [joined] at failed
        contradiction
      | error found =>
        rw [joined] at failed
        obtain rfl : found = error := Except.error.inj failed
        exact List.mem_cons_of_mem _ (ih joined)

theorem ok_of_mem_separatorPieces {separator : Option (String × Nat)} {gapText : Nat → String}
    {place : Nat} {piece : Except RenderError String}
    (member : piece ∈ Part.separatorPieces separator gapText place) : ∃ text, piece = .ok text := by
  rcases place with _ | place
  · exact absurd member List.not_mem_nil
  · rcases separator with _ | ⟨comma, base⟩
    · exact absurd member List.not_mem_nil
    · rcases List.mem_cons.1 member with rfl | member
      · exact ⟨comma, rfl⟩
      · exact ⟨_, List.mem_singleton.1 member⟩

/-- Whether nodes of the kind have the attribute or the child that a part of a layout names. -/
def asks (kind : Kind) : Part → Bool
  | .attribute name => kind.attributes.contains name
  | .child index => index < kind.minChildren
  | _ => true

end Node

end Verbatim
