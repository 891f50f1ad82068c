import Verbatim.Proofs.Source.Soundness

/-!
# Raw nodes

When a build succeeds, said of the node that comes out and the fields it came from. A build reads
the fields in order and stops at the first fault; where there is no fault, the order plays no part.

## Main definitions

* `Node.BuiltFrom`: what a built node has to do with its fields

## Main results

* `Node.takeChildren_eq_ok`: children are taken one by one, and yet all that counts is whether each
  is accepted and all together are in order
* `Node.ofRaw_eq_ok`: a build succeeds with exactly the nodes that are built from the fields
-/

namespace Verbatim

namespace Node

/-! ### One raw node -/

theorem readAttributes_eq {kind : Kind} {tag : String} {raw : Json} {names : List String}
    {attributes : List (String × Json)} :
    readAttributes kind tag raw names = (attributes, none) ↔
      attributes.map Prod.fst = names ∧ ∀ entry ∈ attributes,
        raw.present? entry.1 = some entry.2 ∧ attributeProblem? kind entry.1 entry.2 = none := by
  induction names generalizing attributes with
  | nil => cases attributes <;> simp [readAttributes]
  | cons name rest ih =>
    rcases found : readAttributes kind tag raw rest with ⟨more, fault⟩
    rw [readAttributes]
    cases present : raw.present? name with
    | none => cases attributes <;> grind
    | some value =>
      cases problem : attributeProblem? kind name value <;> cases attributes <;> grind

theorem clauseOrderProblem?_eq_none {kinds : List Kind} : clauseOrderProblem? kinds = none ↔
    ∀ entry ∈ kinds.zipIdx, clauseFits kinds.length entry.2 entry.1 := by
  unfold clauseOrderProblem?
  rw [← List.all_eq_true]
  split
  · next all => simpa using all
  · next all => simpa using all

/-- The clauses in front of others in order are in order. -/
theorem clauseOrder_of_append {kinds more : List Kind}
    (h : clauseOrderProblem? (kinds ++ more) = none) : clauseOrderProblem? kinds = none := by
  rw [clauseOrderProblem?_eq_none] at h ⊢
  intro entry member
  have fits := h entry (by rw [List.zipIdx_append]; exact List.mem_append_left _ member)
  have small := List.snd_lt_of_mem_zipIdx member
  simp only [clauseFits, List.length_append] at fits ⊢
  grind

theorem arrangement_of_append {strict : Bool} {kind : Kind} {operator : Option String}
    {children : List (Kind × Option String)} (more : List (Kind × Option String))
    (h : arrangementProblem? strict kind operator (children ++ more) = none) :
    arrangementProblem? strict kind operator children = none := by
  unfold arrangementProblem? at h ⊢
  split at h
  · next chain =>
    rw [if_pos chain]
    split at h
    · next strict =>
      rw [if_pos strict]
      rw [List.map_append] at h
      exact clauseOrder_of_append h
    · next strict => rw [if_neg strict]
  · next chain =>
    rw [if_neg chain]
    rw [List.zipIdx_append, List.findSome?_append, Option.or_eq_none_iff] at h
    exact h.1

theorem childFault?_eq_none {strict : Bool} {kind : Kind} {tag : String} {operator : Option String}
    {before : List (Kind × Option String)} {child : Kind × Option String} :
    childFault? strict kind tag operator before child = none ↔
      (strict → kind.accepts.contains child.1.category) ∧
        arrangementProblem? strict kind operator (before ++ [child]) = none := by
  unfold childFault?
  split
  · next refused => simp only [reduceCtorEq, false_iff]; grind
  · next accepted => simp only [Option.map_eq_none_iff]; grind

/-- Children are taken if they are all good, each is accepted, and all together are in order. -/
theorem takeChildren_eq_ok {strict : Bool} {kind : Kind} {tag : String} {operator : Option String}
    {before : List (Kind × Option String)} {children : List (Except BuildFailure Node)}
    {nodes : List Node} (inOrder : arrangementProblem? strict kind operator before = none) :
    takeChildren strict kind tag operator before children = .ok nodes ↔
      children = nodes.map .ok ∧
        (strict → ∀ child ∈ nodes, kind.accepts.contains child.kind.category) ∧
        arrangementProblem? strict kind operator (before ++ nodes.map outline) = none := by
  induction children generalizing before nodes with
  | nil => cases nodes <;> simp [takeChildren, inOrder]
  | cons result rest ih =>
    cases result with
    | error failure => cases nodes <;> simp [takeChildren]
    | ok child =>
      by_cases fits : childFault? strict kind tag operator before child.outline = none
      · have later := childFault?_eq_none.1 fits
        simp only [takeChildren, fits]
        constructor
        · intro h
          split at h
          · next others taken =>
            obtain rfl := Except.ok.inj h
            obtain ⟨rfl, accepted, arranged⟩ := (ih later.2).1 taken
            refine ⟨rfl, fun hstrict => ?_, by simpa using arranged⟩
            exact List.forall_mem_cons.2 ⟨later.1 hstrict, accepted hstrict⟩
          · simp at h
        · rintro ⟨same, accepted, arranged⟩
          cases nodes with
          | nil => simp at same
          | cons node others =>
            obtain ⟨rfl, rfl⟩ := by simpa using same
            rw [(ih later.2).2 ⟨rfl, fun hstrict => (List.forall_mem_cons.1 (accepted hstrict)).2,
              by simpa using arranged⟩]
      · obtain ⟨error, fault⟩ := Option.ne_none_iff_exists'.1 fits
        rw [takeChildren, fault]
        simp only [reduceCtorEq, false_iff]
        rintro ⟨same, accepted, arranged⟩
        cases nodes with
        | nil => simp at same
        | cons node others =>
          obtain ⟨rfl, rfl⟩ := by simpa using same
          refine fits (childFault?_eq_none.2 ⟨fun hstrict => ?_, ?_⟩)
          · exact (List.forall_mem_cons.1 (accepted hstrict)).1
          · exact arrangement_of_append (others.map outline) (by simpa using arranged)

/-- What a node is filled with. -/
theorem fill_eq_ok {strict : Bool} {kind : Kind} {raw : Json}
    {condition : Option (Except BuildFailure Node)} {children : List (Except BuildFailure Node)}
    {node : Node} :
    fill strict kind raw condition children = .ok node ↔ node.kind = kind ∧
      readAttributes kind (rawTag kind raw) raw kind.attributes = (node.attributes, none) ∧
      readGaps kind (rawTag kind raw) raw [] = .ok node.gaps ∧
      takeCondition kind raw condition = .ok node.condition ∧
      childrenFault? kind (rawTag kind raw) raw = none ∧
      takeChildren strict kind (rawTag kind raw) node.operator? [] children =
        .ok node.children := by
  rcases node with ⟨kind', attributes, condition', children', gaps⟩
  rcases own : readAttributes kind (rawTag kind raw) raw kind.attributes with ⟨found, _ | fault⟩
  · cases count : childrenFault? kind (rawTag kind raw) raw with
    | none =>
      simp only [fill, own, count, bind_eq_ok, mapError_eq_ok, pure, Except.pure, Except.ok.injEq,
        Node.mk.injEq]
      constructor
      · rintro ⟨_, read, _, taken, _, below, rfl, rfl, rfl, rfl, rfl⟩
        exact ⟨rfl, rfl, read, taken, trivial, below⟩
      · rintro ⟨rfl, same, read, taken, -, below⟩
        obtain rfl := (Prod.mk.inj same).1
        exact ⟨_, read, _, taken, _, below, rfl, rfl, rfl, rfl, rfl⟩
    | some error => simp [fill, own, count, bind_eq_ok, throw, throwThe, MonadExceptOf.throw]
  · simp [fill, own, bind_eq_ok, throw, throwThe, MonadExceptOf.throw]

theorem complete_eq_ok {strict asChild : Bool} {raw : Json}
    {condition : Option (Except BuildFailure Node)} {children : List (Except BuildFailure Node)}
    {node : Node} :
    complete strict asChild raw condition children = .ok node ↔
      (if asChild then rawChildKind raw else rawKind raw) = .ok node.kind ∧
        fill strict node.kind raw condition children = .ok node := by
  simp only [complete, bind_eq_ok, mapError_eq_ok]
  constructor
  · rintro ⟨kind, told, filled⟩
    obtain rfl := (fill_eq_ok.1 filled).1
    exact ⟨told, filled⟩
  · rintro ⟨told, filled⟩
    exact ⟨_, told, filled⟩

/-! ### Fields of a raw node -/

theorem present?_object (fields : List (String × Json)) (name : String) :
    (Json.object fields).present? name =
      match fields.lookup name with
      | some .null => none
      | found => found :=
  rfl

theorem rawItems_eq_map (strict : Bool) (items : List Json) :
    rawItems strict items = items.map (ofRaw strict true) := by
  induction items with
  | nil => rfl
  | cons item rest ih => rw [rawItems, ih, List.map_cons]

theorem rawCondition_eq (strict : Bool) (fields : List (String × Json)) :
    rawCondition strict fields = (fields.lookup "condition").map (ofRaw strict false) := by
  induction fields with
  | nil => rfl
  | cons field rest ih =>
    rw [rawCondition, List.lookup_cons, ih]
    by_cases own : field.1 = "condition"
    · simp [own]
    · rw [if_neg own, beq_false_of_ne (Ne.symm own)]

/-- The children that the fields list. -/
def listed (fields : List (String × Json)) : List Json :=
  match fields.lookup "children" with
  | some (.array items) => items
  | _ => []

theorem rawChildren_eq (strict : Bool) (fields : List (String × Json)) :
    rawChildren strict fields = (listed fields).map (ofRaw strict true) := by
  induction fields with
  | nil => rfl
  | cons field rest ih =>
    obtain ⟨name, value⟩ := field
    unfold listed
    rw [List.lookup_cons]
    by_cases own : name = "children"
    · subst own
      cases value <;> simp [rawChildren, rawItems_eq_map]
    · rw [beq_false_of_ne (Ne.symm own)]
      cases value <;> simp only [rawChildren, if_neg own, ih] <;> rfl

end Node

/-- Whether nodes of the kind can have so many children. -/
def Kind.takesCount (kind : Kind) (count : Nat) : Prop :=
  kind.minChildren ≤ count ∧ ∀ limit ∈ kind.maxChildren, count ≤ limit

namespace Node

theorem countFault?_eq_none {kind : Kind} {tag : String} {count : Nat} :
    countFault? kind tag count = none ↔ kind.takesCount count := by
  unfold countFault? Kind.takesCount
  cases kind.maxChildren <;> simp

theorem childrenFault?_eq_none {kind : Kind} {tag : String} {fields : List (String × Json)} :
    childrenFault? kind tag (.object fields) = none ↔
      (∀ value, (Json.object fields).present? "children" = some value →
        ∃ items, value = .array items) ∧ kind.takesCount (listed fields).length := by
  unfold childrenFault? listed Json.present? Json.get?
  rcases found : fields.lookup "children" with _ | value
  · simpa [found] using countFault?_eq_none
  · cases value <;> simp [found, countFault?_eq_none]

/-- The raw condition of a node of the kind, if the kind has one and it is not null. -/
def givenCondition? (kind : Kind) (fields : List (String × Json)) : Option Json :=
  if kind.hasCondition then (Json.object fields).present? "condition" else none

theorem conditionFault?_eq_none {kind : Kind} {node : Node} : conditionFault? kind node = none ↔
    node.kind.category = .expression ∧ node.kind ≠ .connectorCreation := by
  unfold conditionFault?
  split
  · next other => simp [other]
  · next expression =>
    split
    · next connector => simp [connector]
    · next other => simpa [other] using expression

theorem takeCondition_absent {kind : Kind} {fields : List (String × Json)}
    (absent : givenCondition? kind fields = none) (condition : Option (Except BuildFailure Node)) :
    takeCondition kind (.object fields) condition = .ok none := by
  unfold givenCondition? at absent
  unfold takeCondition
  cases has : kind.hasCondition with
  | false => rfl
  | true =>
    rw [has, if_pos rfl] at absent
    rw [absent]
    rfl

theorem takeCondition_given {kind : Kind} {fields : List (String × Json)} {value : Json}
    (given : givenCondition? kind fields = some value) {built : Except BuildFailure Node}
    {condition : Option Node} :
    takeCondition kind (.object fields) (some built) = .ok condition ↔
      some built = condition.map .ok ∧ ∀ node ∈ condition, conditionFault? kind node = none := by
  unfold givenCondition? at given
  cases has : kind.hasCondition with
  | false => simp [has] at given
  | true =>
    rw [has, if_pos rfl] at given
    simp only [takeCondition, has, given, bind_eq_ok]
    constructor
    · rintro ⟨node, rfl, h⟩
      cases fault : conditionFault? kind node with
      | none =>
        obtain rfl : some node = condition := by simpa [fault, pure, Except.pure] using h
        simp [fault]
      | some failure => simp [fault, throw, throwThe, MonadExceptOf.throw] at h
    · rintro ⟨same, fits⟩
      cases condition with
      | none => simp at same
      | some node =>
        refine ⟨node, by simpa using same, ?_⟩
        rw [fits node rfl]
        rfl

/-- A condition is taken if it is good and can be a condition. -/
theorem takeCondition_eq_ok {strict : Bool} {kind : Kind} {fields : List (String × Json)}
    {condition : Option Node} :
    takeCondition kind (.object fields) (rawCondition strict fields) = .ok condition ↔
      (givenCondition? kind fields).map (ofRaw strict false) = condition.map .ok ∧
        ∀ node ∈ condition, conditionFault? kind node = none := by
  cases given : givenCondition? kind fields with
  | none =>
    rw [takeCondition_absent given]
    cases condition <;> simp
  | some value =>
    have there : fields.lookup "condition" = some value := by
      unfold givenCondition? Json.present? Json.get? at given
      grind
    rw [rawCondition_eq, there]
    exact takeCondition_given given

/-! ### Whole raw nodes -/

/-- What a node has to do with the fields it was built from. -/
structure BuiltFrom (strict asChild : Bool) (fields : List (String × Json)) (node : Node) :
    Prop where
  kind : (if asChild then rawChildKind (.object fields) else rawKind (.object fields)) =
    .ok node.kind
  names : node.attributes.map Prod.fst = node.kind.attributes
  attributes : ∀ entry ∈ node.attributes, (Json.object fields).present? entry.1 = some entry.2 ∧
    attributeProblem? node.kind entry.1 entry.2 = none
  gaps : readGaps node.kind (rawTag node.kind (.object fields)) (.object fields) [] = .ok node.gaps
  condition : (givenCondition? node.kind fields).map (ofRaw strict false) = node.condition.map .ok
  fitting : ∀ below ∈ node.condition, conditionFault? node.kind below = none
  array : ∀ value, (Json.object fields).present? "children" = some value →
    ∃ items, value = .array items
  count : node.kind.takesCount (listed fields).length
  children : (listed fields).map (ofRaw strict true) = node.children.map .ok
  accepted : strict → ∀ child ∈ node.children, node.kind.accepts.contains child.kind.category
  arranged : arrangementProblem? strict node.kind node.operator? (node.children.map outline) = none

theorem arrangement_nil (strict : Bool) (kind : Kind) (operator : Option String) :
    arrangementProblem? strict kind operator [] = none := by
  unfold arrangementProblem?
  split
  · cases strict <;> rfl
  · rfl

/-- Where structure is strict, the arrangement of a chain is the order of its clauses. -/
theorem arrangement_chain (operator : Option String) (children : List (Kind × Option String)) :
    arrangementProblem? true .ifElse operator children =
      clauseOrderProblem? (children.map Prod.fst) := by
  rw [arrangementProblem?, if_pos rfl, if_pos rfl]

/-- Only objects are nodes. -/
theorem ofRaw_ne_ok {strict asChild : Bool} {raw : Json} (other : ∀ fields, raw ≠ .object fields)
    (node : Node) : ofRaw strict asChild raw ≠ .ok node := by
  intro h
  have refused : rawKind raw = .error (.notMapping raw) := by
    cases raw <;> simp_all [rawKind]
  have plain : isConnectorDefinition raw = false := by
    cases raw <;> simp_all [isConnectorDefinition, Json.get?]
  have built : complete strict asChild raw none [] = .ok node := by
    cases raw <;> simp_all [ofRaw]
  have told := (complete_eq_ok.1 built).1
  rw [rawChildKind, plain, refused] at told
  cases asChild <;> simp at told

/-- **When a build succeeds, and with what.** -/
theorem ofRaw_eq_ok {strict asChild : Bool} {raw : Json} {node : Node} :
    ofRaw strict asChild raw = .ok node ↔
      ∃ fields, raw = .object fields ∧ BuiltFrom strict asChild fields node := by
  by_cases object : ∃ fields, raw = .object fields
  · obtain ⟨fields, rfl⟩ := object
    rw [ofRaw, complete_eq_ok, fill_eq_ok, readAttributes_eq, takeCondition_eq_ok,
      childrenFault?_eq_none, rawChildren_eq, takeChildren_eq_ok (arrangement_nil _ _ _)]
    constructor
    · rintro ⟨kind, -, ⟨names, attributes⟩, gaps, ⟨condition, fitting⟩, ⟨array, count⟩, children,
        accepted, arranged⟩
      exact ⟨fields, rfl, kind, names, attributes, gaps, condition, fitting, array, count,
        children, accepted, arranged⟩
    · rintro ⟨_, same, h⟩
      obtain rfl := Json.object.inj same
      exact ⟨h.kind, rfl, ⟨h.names, h.attributes⟩, h.gaps, ⟨h.condition, h.fitting⟩,
        ⟨h.array, h.count⟩, h.children, h.accepted, h.arranged⟩
  · have other : ∀ fields, raw ≠ .object fields := fun fields same => object ⟨fields, same⟩
    refine ⟨fun built => absurd built (ofRaw_ne_ok other node), ?_⟩
    rintro ⟨fields, same, -⟩
    exact absurd same (other fields)

end Node
end Verbatim
