import Verbatim.Proofs.Build.Parsed

/-!
# What a strict build has checked

At every node of a built tree the attributes are good ones, the children are of the right number and
category and stand in order, and a condition is an expression. A raw tree without gaps gives nodes
without gaps of their own.

## Main definitions

* `Json.withoutGaps`: a raw tree without its gaps
* `Node.Accepted`: what a strict build has checked at one node

## Main results

* `Node.accepted_of_ofRaw`: every node of a strict build is accepted
* `Node.gaps_of_ofRaw`: without gaps in the raw tree there are none in the nodes
* `Node.withoutGaps_toJson`: the raw value of a node, without gaps
-/

namespace Verbatim

/-! ### Raw trees without gaps -/

namespace Json

mutual

/-- The raw tree without its gaps. -/
def withoutGaps : Json → Json
  | object fields => object (fieldsWithoutGaps fields)
  | array items => array (itemsWithoutGaps items)
  | value => value

/-- The fields without gaps. -/
def fieldsWithoutGaps : List (String × Json) → List (String × Json)
  | [] => []
  | (name, value) :: rest =>
    if name = "ws" then fieldsWithoutGaps rest
    else (name, value.withoutGaps) :: fieldsWithoutGaps rest

/-- Each item without its gaps. -/
def itemsWithoutGaps : List Json → List Json
  | [] => []
  | item :: rest => item.withoutGaps :: itemsWithoutGaps rest

end

theorem itemsWithoutGaps_eq_map (items : List Json) :
    itemsWithoutGaps items = items.map withoutGaps := by
  induction items with
  | nil => rfl
  | cons item rest ih => rw [itemsWithoutGaps, ih, List.map_cons]

theorem length_fieldsWithoutGaps (fields : List (String × Json)) :
    (fieldsWithoutGaps fields).length ≤ fields.length := by
  induction fields with
  | nil => exact Nat.le_refl _
  | cons field rest ih =>
    rw [fieldsWithoutGaps]
    split
    · exact Nat.le_succ_of_le ih
    · exact Nat.succ_le_succ ih

theorem fieldsWithoutGaps_append (first second : List (String × Json)) :
    fieldsWithoutGaps (first ++ second) = fieldsWithoutGaps first ++ fieldsWithoutGaps second := by
  induction first with
  | nil => rfl
  | cons field rest ih =>
    rw [List.cons_append, fieldsWithoutGaps, fieldsWithoutGaps, ih]
    split <;> rfl

/-- A row of fields is left as it is if none of them holds gaps, at any depth. -/
theorem fieldsWithoutGaps_eq_self {fields : List (String × Json)}
    (h : fieldsWithoutGaps fields = fields) :
    ∀ field ∈ fields, field.1 ≠ "ws" ∧ field.2.withoutGaps = field.2 := by
  induction fields with
  | nil => simp
  | cons field rest ih =>
    rw [fieldsWithoutGaps] at h
    split at h
    · have short := length_fieldsWithoutGaps rest
      rw [h, List.length_cons] at short
      omega
    · next other =>
      obtain ⟨here, later⟩ := List.cons.inj h
      exact List.forall_mem_cons.2 ⟨⟨other, (Prod.mk.inj here).2⟩, ih later⟩

end Json

namespace Node

theorem mem_of_lookup {α : Type} {fields : List (String × α)} {name : String} {value : α}
    (found : fields.lookup name = some value) : (name, value) ∈ fields := by
  obtain ⟨front, back, rfl, -⟩ := List.lookup_eq_some_iff.1 found
  simp

/-! ### Accepted nodes -/

/-- What a strict build has checked at one node. -/
structure Accepted (node : Node) : Prop where
  names : node.attributes.map Prod.fst = node.kind.attributes
  attributes : ∀ entry ∈ node.attributes, attributeProblem? node.kind entry.1 entry.2 = none
  slot : node.kind.hasCondition = false → node.condition = none
  fitting : ∀ below ∈ node.condition, conditionFault? node.kind below = none
  count : node.kind.takesCount node.children.length
  accepted : ∀ child ∈ node.children, node.kind.accepts.contains child.kind.category
  arranged : arrangementProblem? true node.kind node.operator? (node.children.map outline) = none

section Built

variable {asChild strict : Bool} {fields : List (String × Json)} {node : Node}

/-- What is below a built node is built from what is below its raw form. -/
theorem BuiltFrom.below (h : BuiltFrom strict asChild fields node) :
    (∀ below ∈ node.condition, ∃ value, fields.lookup "condition" = some value ∧
      ofRaw strict false value = .ok below) ∧
    ∀ below ∈ node.children, ∃ value ∈ listed fields, ofRaw strict true value = .ok below := by
  constructor
  · intro below member
    have built := h.condition
    rw [Option.mem_def.1 member] at built
    obtain ⟨value, given, made⟩ := Option.map_eq_some_iff.1 built
    refine ⟨value, ?_, made⟩
    unfold givenCondition? Json.present? Json.get? at given
    grind
  · intro below member
    have made : .ok below ∈ (listed fields).map (ofRaw strict true) :=
      h.children ▸ List.mem_map_of_mem member
    exact List.mem_map.1 made

theorem BuiltFrom.accepted_of_strict (h : BuiltFrom true asChild fields node) : node.Accepted where
  names := h.names
  attributes entry member := (h.attributes entry member).2
  slot none := by
    have built := h.condition
    rw [givenCondition?, none] at built
    simpa using built.symm
  fitting := h.fitting
  count := by
    have same := congrArg List.length h.children
    rw [List.length_map, List.length_map] at same
    exact same ▸ h.count
  accepted := h.accepted rfl
  arranged := h.arranged

end Built

/-- **Every node of a strict build is accepted.** -/
theorem accepted_of_ofRaw {asChild : Bool} {raw : Json} {node : Node}
    (h : ofRaw true asChild raw = .ok node) : node.All Accepted := by
  induction node using inductionOn generalizing asChild raw with
  | step node condition children =>
    obtain ⟨fields, rfl, built⟩ := ofRaw_eq_ok.1 h
    obtain ⟨inner, each⟩ := built.below
    refine .mk built.accepted_of_strict (fun below member => ?_) (fun below member => ?_)
    · obtain ⟨value, -, made⟩ := inner below member
      exact condition below member made
    · obtain ⟨value, -, made⟩ := each below member
      exact children below member made

/-- **Without gaps in the raw tree there are none in the nodes.** -/
theorem gaps_of_ofRaw {strict asChild : Bool} {raw : Json} {node : Node}
    (h : ofRaw strict asChild raw = .ok node) (bare : raw.withoutGaps = raw) :
    node.All fun below => below.gaps = [] := by
  induction node using inductionOn generalizing asChild raw with
  | step node condition children =>
    obtain ⟨fields, rfl, built⟩ := ofRaw_eq_ok.1 h
    obtain ⟨inner, each⟩ := built.below
    have none := Json.fieldsWithoutGaps_eq_self (Json.object.inj bare)
    refine .mk ?_ (fun below member => ?_) (fun below member => ?_)
    · have read := built.gaps
      have absent : (Json.object fields).present? "ws" = .none := by
        have lookup : fields.lookup "ws" = .none := by
          rw [List.lookup_eq_none_iff]
          exact fun entry member => bne_iff_ne.2 (none entry member).1.symm
        rw [present?_object, lookup]
      rw [readGaps, absent] at read
      exact (Except.ok.inj read).symm
    · obtain ⟨value, found, made⟩ := inner below member
      exact condition below member made (none _ (mem_of_lookup found)).2
    · obtain ⟨value, found, made⟩ := each below member
      refine children below member made ?_
      unfold listed at found
      split at found
      · next items same =>
        have whole : (Json.array items).withoutGaps = .array items := (none _ (mem_of_lookup same)).2
        have items := Json.array.inj whole
        rw [Json.itemsWithoutGaps_eq_map] at items
        exact List.map_inj_left.1 (items.trans (List.map_id _).symm) value found
      · exact absurd found List.not_mem_nil

/-! ### Raw values of nodes without gaps -/

theorem toJsonAll_eq_map (nodes : List Node) : toJsonAll nodes = nodes.map toJson := by
  induction nodes with
  | nil => rfl
  | cons node rest ih => rw [toJsonAll, ih, List.map_cons]

theorem fieldsWithoutGaps_bodyFields (children : List Json) (gaps : Gaps) :
    Json.fieldsWithoutGaps (bodyFields children gaps) =
      if children.isEmpty then [] else [("children", .array (children.map Json.withoutGaps))] := by
  have gapField : Json.fieldsWithoutGaps
      (if gaps.isEmpty then [] else [("ws", gaps.toJson)]) = [] := by
    split <;> rfl
  rw [bodyFields, Json.fieldsWithoutGaps_append, gapField, List.append_nil]
  split
  · rfl
  · rw [← Json.itemsWithoutGaps_eq_map]
    rfl

/-- The fields of the raw value of a node, without gaps. -/
theorem withoutGaps_toJson (node : Node) : node.toJson.withoutGaps =
    .object (("type", .text node.kind.wireTag) ::
      (Json.fieldsWithoutGaps (ownFields node.kind node.attributes) ++
        ((if node.children.isEmpty then []
          else [("children", .array (node.children.map fun child => child.toJson.withoutGaps))]) ++
        (node.condition.map fun condition =>
          ("condition", condition.toJson.withoutGaps)).toList))) := by
  have below (children : List Node) : (children.map toJson).map Json.withoutGaps =
      children.map fun child => child.toJson.withoutGaps :=
    List.map_map
  rcases node with ⟨kind, attributes, _ | condition, children, gaps⟩
  · rw [toJson, toJsonAll_eq_map, Json.withoutGaps, List.cons_append, Json.fieldsWithoutGaps,
      if_neg (by decide), Json.fieldsWithoutGaps_append, fieldsWithoutGaps_bodyFields, below,
      List.isEmpty_map]
    simp only [Node.condition, Option.map_none, Option.toList_none, List.append_nil]
    rfl
  · rw [toJson, toJsonAll_eq_map, Json.withoutGaps, List.cons_append, List.cons_append,
      Json.fieldsWithoutGaps, if_neg (by decide), Json.fieldsWithoutGaps_append,
      Json.fieldsWithoutGaps_append, fieldsWithoutGaps_bodyFields, below, List.isEmpty_map,
      List.append_assoc]
    rfl

end Node

end Verbatim
