import Verbatim.Proofs.Build.JsonForm
import Verbatim.Proofs.Tree.Edits
import Verbatim.Proofs.Tree.Views

/-!
# Edits keep nodes fit

What a build asks of a raw tree is kept by every edit: the checks of an edit ask for it again where
the edit touches it. That goes for all nodes of a tree, whether they are in the store or not, so
subtrees that left the tree are still good when they come back.

The checks are off while recorded states are put back, so nothing is said about that here.

## Main definitions

* `Cell.Fit`, `Tree.Fitting`: what a build asks of one node of a tree, and of all of them

## Main results

* `Tree.Fitting.view`: the values of fitting trees are fit
* `Tree.Fitting.build`, `Tree.Fitting.setAttribute`, `Tree.Fitting.addChild`,
  `Tree.Fitting.removeChild`, `Tree.Fitting.replaceChild`, `Tree.Fitting.setCondition`,
  `Tree.Fitting.setConditionText`, `Tree.Fitting.storeGaps`: **edits keep a tree fitting**

## Implementation notes

An operator is looked at from above and from below. A new one is checked against the operands of the
node, and against the place of the node under its parent. The parent is found by the links, which
agree with the owners in sound trees only.
-/

namespace Verbatim

/-- The operator of a cell as running text, if it has one. -/
def Cell.operator? (cell : Cell) : Option String :=
  match cell.attributes.lookup "operator" with
  | none | some .null => none
  | some value => some value.plainText

/-- What a build asks of one node of a tree, from how the nodes that it owns look. -/
structure Cell.Fit (strict : Bool) (outline : NodeId → Kind × Option String) (cell : Cell) : Prop where
  own : cell.kind.Holds cell.attributes cell.gaps
  condition : cell.kind.TakesCondition (cell.condition.node?.map NodeId.kind)
  children : cell.kind.TakesChildren strict cell.operator? (cell.children.map outline)

namespace Tree

open Relation

variable {tree other : Tree} {id x p old new child : NodeId} {cell : Cell} {change : Cell → Cell}
  {place : Nat}

/-- All nodes of the tree have what a build asks for. -/
def Fitting (tree : Tree) : Prop :=
  ∀ id cell, tree.cell? id = some cell → cell.Fit tree.settings.strictStructure tree.outline

theorem operator?_of_cell? (found : tree.cell? id = some cell) :
    tree.operator? id = cell.operator? := by
  rw [operator?, attribute?, found]
  rfl

/-! ### Values -/

theorem fit_view_iff (forest : tree.Forest) {strict : Bool} (found : tree.cell? id = some cell) :
    (tree.view id).Fit strict ↔ cell.Fit strict tree.outline := by
  have outlines : ((tree.view id).children.map Node.outline) = cell.children.map tree.outline := by
    rw [forest.view_eq, Node.children, List.map_map, children, found]
    exact List.map_congr_left fun x _ => forest.outline_view x
  have kinds : (tree.view id).condition.map Node.kind = cell.condition.node?.map NodeId.kind := by
    rw [forest.view_eq, Node.condition, Option.map_map, condition?, found]
    exact Option.map_congr fun x _ => tree.kind_view x
  have operator : (tree.view id).operator? = cell.operator? := by
    rw [← operator?_of_cell? found]
    exact (Prod.mk.inj (forest.outline_view id)).2
  have own : (tree.view id).attributes = cell.attributes ∧ (tree.view id).gaps = cell.gaps := by
    rw [forest.view_eq, Node.attributes, Node.gaps, attributes, gaps, found]
    exact ⟨rfl, rfl⟩
  have kind : (tree.view id).kind = cell.kind := (tree.kind_view id).trans (kind_of_cell? found).symm
  constructor
  · rintro ⟨holds, condition, children⟩
    rw [kind, own.1, own.2] at holds
    rw [kind, kinds] at condition
    rw [kind, operator, outlines] at children
    exact ⟨holds, condition, children⟩
  · rintro ⟨holds, condition, children⟩
    rw [← kind, ← own.1, ← own.2] at holds
    rw [← kind, ← kinds] at condition
    rw [← kind, ← operator, ← outlines] at children
    exact ⟨holds, condition, children⟩

/-- The values of fitting trees are fit. -/
theorem Fitting.view (fitting : tree.Fitting) (forest : tree.Forest) (made : tree.Made id) :
    (tree.view id).All (Node.Fit tree.settings.strictStructure) := by
  refine (forest.founded id).all_view fun x below => ?_
  obtain ⟨cell, found⟩ := forest.made_of_below below made
  exact (fit_view_iff forest found).2 (fitting x cell found)

/-! ### Trees that look alike, and trees that grow -/

theorem Cell.fit_contents {strict : Bool} {outline : NodeId → Kind × Option String} :
    cell.contents.Fit strict outline ↔ cell.Fit strict outline := by
  have slot : cell.contents.condition.node? = cell.condition.node? := cell.condition.node?_plain
  constructor
  · rintro ⟨own, condition, children⟩
    exact ⟨own, slot ▸ condition, children⟩
  · rintro ⟨own, condition, children⟩
    exact ⟨own, slot ▸ condition, children⟩

theorem Matches.fitting (same : tree.Matches other) (settings : other.settings = tree.settings)
    (fitting : tree.Fitting) : other.Fitting := by
  intro id cell found
  have outlines : other.outline = tree.outline := funext fun x => outline_congr (same.contents x)
  obtain ⟨before, was⟩ := same.made.1 ⟨cell, found⟩
  have here := same.contents id
  rw [contents?_of_cell? found, contents?_of_cell? was] at here
  rw [settings, outlines, ← Cell.fit_contents, Option.some.inj here, Cell.fit_contents]
  exact fitting id before was

theorem Alike.fitting (alike : tree.Alike other) (fitting : tree.Fitting) : other.Fitting :=
  alike.matches.fitting alike.settings fitting

/-- A new node of a planted tree is below its top. -/
theorem below_planted {node : Node} (made : (tree.plant node).1.Made x)
    (fresh : tree.cells.size < x.number) : (tree.plant node).1.Below (tree.plant node).2 x := by
  have block := block_of_has node (has_plant tree node)
  rw [Nat.add_right_comm, ← size_plant] at block
  -- Owners have smaller numbers than what they own, so the way up ends at the top.
  induction number : x.number using Nat.strong_induction_on generalizing x with
  | _ number ih =>
    obtain member | ⟨q, low, owns⟩ := block.covered fresh (Nat.lt_succ_of_le made.number_le) made
    · obtain rfl := List.mem_singleton.1 member
      exact .refl
    · have up := (block.owns low (Nat.lt_succ_of_le owns.made.number_le) owns).1
      exact (ih q.number (by omega) owns.made low rfl).tail owns

/-- At the top of a planted tree are the new node and what was there. -/
theorem top_plant_cases {node : Node} (top : (tree.plant node).1.Top x) :
    x = (tree.plant node).2 ∨ tree.Top x ∧ x.number ≤ tree.cells.size := by
  obtain ⟨stored, loose⟩ := top
  have grown := grown_plant tree node
  rcases Nat.lt_or_ge tree.cells.size x.number with new | old
  · exact .inl (loose.eq_of_below (below_planted (made_of_contains stored) new))
  · rw [contains_congr (grown.older old)] at stored
    exact .inr ⟨⟨stored, fun q owns => loose q (grown.owns_of_owns owns)⟩, old⟩

theorem Fitting.plant (fitting : tree.Fitting) (sound : tree.Sound) {node : Node}
    (fit : node.All (Node.Fit tree.settings.strictStructure)) : (tree.plant node).1.Fitting := by
  intro id cell found
  have grown := grown_plant tree node
  have forest := (sound.plant node).toForest
  rcases Nat.lt_or_ge tree.cells.size id.number with fresh | aged
  · rw [← view_plant tree node] at fit
    exact (fit_view_iff forest found).1
      ((founded_plant tree node).of_all_view fit (below_planted ⟨cell, found⟩ fresh))
  · rw [grown.older aged] at found
    obtain ⟨own, condition, children⟩ := fitting id cell found
    have outlines : cell.children.map (tree.plant node).1.outline =
        cell.children.map tree.outline := by
      refine List.map_congr_left fun x member => outline_congr (grown.contents ?_)
      have owns : tree.Owns id x := owns_child (by rwa [Tree.children, found])
      exact (sound.made owns).number_le
    exact ⟨own, condition, outlines ▸ children⟩

theorem Fitting.build (fitting : tree.Fitting) (sound : tree.Sound) {raw : Json}
    (made : (tree.build raw).2 = .ok id) : (tree.build raw).1.Fitting := by
  obtain ⟨node, built, same, -⟩ := build_eq_ok made
  rw [same]
  exact fitting.plant sound (Node.fit_of_ofRaw built)

/-! ### One changed cell -/

theorem settings_modify : (tree.modify p change).settings = tree.settings := by
  obtain ⟨cells, same⟩ := @frame_modify tree p change
  rw [same]

/-- A change that leaves attributes leaves outlines. -/
theorem outline_modify (keeps : ∀ cell, (change cell).kind = cell.kind)
    (same : ∀ cell, (change cell).attributes = cell.attributes) :
    (tree.modify p change).outline = tree.outline := by
  funext x
  rw [outline, outline, operator?, operator?, attribute?, attribute?, cell?_modify keeps]
  by_cases here : x = p
  · rw [if_pos here, here]
    cases tree.cell? p with
    | none => rfl
    | some cell => simp [same]
  · rw [if_neg here]

theorem Fitting.modify (fitting : tree.Fitting) (keeps : ∀ cell, (change cell).kind = cell.kind)
    (same : ∀ cell, (change cell).attributes = cell.attributes)
    (here : ∀ cell, tree.cell? p = some cell → cell.Fit tree.settings.strictStructure tree.outline →
      (change cell).Fit tree.settings.strictStructure tree.outline) :
    (tree.modify p change).Fitting := by
  intro id cell found
  rw [settings_modify, outline_modify keeps same]
  rw [cell?_modify keeps] at found
  by_cases receiver : id = p
  · rw [if_pos receiver] at found
    obtain ⟨before, was, rfl⟩ := Option.map_eq_some_iff.1 found
    exact here before was (fitting p before was)
  · rw [if_neg receiver] at found
    exact fitting id cell found

theorem Fitting.storeChildren (fitting : tree.Fitting) {children : List NodeId}
    (takes : p.kind.TakesChildren tree.settings.strictStructure (tree.operator? p)
      (children.map tree.outline)) : (tree.storeChildren p children).Fitting := by
  refine fitting.modify (fun _ => rfl) (fun _ => rfl) fun cell found fit => ?_
  rw [operator?_of_cell? found, ← kind_of_cell? found] at takes
  exact ⟨fit.own, fit.condition, takes⟩

theorem Fitting.storeCondition (fitting : tree.Fitting) {slot : ConditionSlot}
    (takes : p.kind.TakesCondition (slot.node?.map NodeId.kind)) :
    (tree.storeCondition p slot).Fitting := by
  refine fitting.modify (fun _ => rfl) (fun _ => rfl) fun cell found fit => ?_
  rw [← kind_of_cell? found] at takes
  exact ⟨fit.own, takes, fit.children⟩

theorem Fitting.storeGaps (fitting : tree.Fitting) {gaps : Gaps}
    (orderly : (tree.gaps p).Orderly p.kind.layout → gaps.Orderly p.kind.layout) :
    (tree.storeGaps p gaps).Fitting := by
  refine fitting.modify (fun _ => rfl) (fun _ => rfl) fun cell found fit => ?_
  rw [Tree.gaps, found, ← kind_of_cell? found] at orderly
  exact ⟨⟨fit.own.names, fit.own.good, orderly fit.own.gaps⟩, fit.condition, fit.children⟩

/-! ### Attributes -/

section Fields

variable {name : String} {value : Json} {fields : List (String × Json)}

theorem map_fst_insertField (known : name ∈ fields.map Prod.fst) :
    (Json.insertField name value fields).map Prod.fst = fields.map Prod.fst := by
  induction fields with
  | nil => exact absurd known List.not_mem_nil
  | cons field rest ih =>
    rw [Json.insertField]
    by_cases here : field.1 = name
    · rw [if_pos here, List.map_cons, List.map_cons, here]
    · have later : name ∈ rest.map Prod.fst := (List.mem_cons.1 known).resolve_left (Ne.symm here)
      rw [if_neg here, List.map_cons, List.map_cons, ih later]

theorem mem_insertField {entry : String × Json} (member : entry ∈ Json.insertField name value fields) :
    entry = (name, value) ∨ entry ∈ fields := by
  induction fields with
  | nil => exact .inl (List.mem_singleton.1 member)
  | cons field rest ih =>
    rw [Json.insertField] at member
    split at member
    · exact (List.mem_cons.1 member).imp_right (List.mem_cons_of_mem field)
    · rcases List.mem_cons.1 member with rfl | later
      · exact .inr List.mem_cons_self
      · exact (ih later).imp_right (List.mem_cons_of_mem field)

theorem lookup_insertField (other : String) : (Json.insertField name value fields).lookup other =
    if other = name then some value else fields.lookup other := by
  induction fields with
  | nil =>
    rw [Json.insertField, List.lookup_cons]
    by_cases here : other = name
    · rw [if_pos here, here, BEq.rfl]
    · rw [if_neg here, beq_false_of_ne here]
  | cons field rest ih =>
    rw [Json.insertField]
    by_cases first : field.1 = name
    · rw [if_pos first, List.lookup_cons, List.lookup_cons, first]
      by_cases here : other = name
      · rw [if_pos here, here, BEq.rfl]
      · rw [if_neg here, beq_false_of_ne here]
    · rw [if_neg first, List.lookup_cons, List.lookup_cons, ih]
      by_cases here : other = name
      · subst here
        simp only [beq_false_of_ne (Ne.symm first), if_true]
      · simp only [here, if_false]

end Fields

/-- The children of an operator are in order if each is at its place. -/
theorem arrangement_eq_none {strict : Bool} {kind : Kind} {operator : Option String}
    {children : List (Kind × Option String)} (noChain : kind ≠ .ifElse) :
    Node.arrangementProblem? strict kind operator children = none ↔
      ∀ (place : Nat) child, children[place]? = some child →
        operandProblem? kind operator place child.1 child.2 = none := by
  rw [Node.arrangementProblem?, if_neg noChain, List.findSome?_eq_none_iff]
  constructor
  · intro each place child found
    exact each (child, place) (List.mk_mem_zipIdx_iff_getElem?.2 found)
  · rintro each ⟨child, place⟩ member
    exact each place child (List.mk_mem_zipIdx_iff_getElem?.1 member)

/-- The clauses of a chain are told by their kinds. -/
theorem arrangement_congr_of_chain {strict : Bool} {operator operatorToo : Option String}
    {children others : List (Kind × Option String)}
    (kinds : others.map Prod.fst = children.map Prod.fst) :
    Node.arrangementProblem? strict .ifElse operatorToo others =
      Node.arrangementProblem? strict .ifElse operator children := by
  rw [Node.arrangementProblem?, Node.arrangementProblem?, if_pos rfl, if_pos rfl, kinds]

/-- What an attribute that is not refused is like. -/
structure Settable (tree : Tree) (p : NodeId) (name : String) (value : Json) : Prop where
  known : name ∈ p.kind.attributes
  good : attributeProblem? p.kind name value = none
  /-- A new operator binds its operands. -/
  binds : name = "operator" →
    tree.arrangementProblem? p (some value.plainText) (tree.children p) = none
  /-- A new operator fits where the node stands. -/
  stands : name = "operator" → ∀ parent place, tree.parent? p = some parent →
    tree.position? parent p = some place →
      operandProblem? parent.kind (tree.operator? parent) place p.kind (some value.plainText) = none

theorem settable_of_attributeRefusal? {name : String} {value : Json}
    (passed : tree.attributeRefusal? p name value = none) : tree.Settable p name value := by
  unfold attributeRefusal? at passed
  by_cases known : p.kind.attributes.contains name
  · rw [if_neg (by rw [known]; decide)] at passed
    cases good : attributeProblem? p.kind name value with
    | some problem =>
      rw [good] at passed
      contradiction
    | none =>
      rw [good] at passed
      by_cases operator : name = "operator"
      · simp only [operator, ne_eq, not_true_eq_false, if_false] at passed
        cases arranged : tree.arrangementProblem? p (some value.plainText) (tree.children p) with
        | some problem =>
          rw [arranged] at passed
          contradiction
        | none =>
          rw [arranged] at passed
          refine ⟨List.contains_iff_mem.1 known, good, fun _ => arranged,
            fun _ parent place above spot => ?_⟩
          cases standing : operandProblem? parent.kind (tree.operator? parent) place p.kind
            (some value.plainText) with
          | none => rfl
          | some problem => simp [above, spot, standing] at passed
      · exact ⟨List.contains_iff_mem.1 known, good, fun same => absurd same operator,
          fun same => absurd same operator⟩
  · rw [if_pos (by simpa using known)] at passed
    split at passed <;> contradiction

/-- Nothing else is asked of an attribute. -/
theorem Settable.attributeRefusal? {name : String} {value : Json}
    (settable : tree.Settable p name value) : tree.attributeRefusal? p name value = none := by
  have known : (!p.kind.attributes.contains name) = false := by
    rw [List.contains_iff_mem.2 settable.known]
    rfl
  unfold Tree.attributeRefusal?
  rw [if_neg (by rw [known]; decide), settable.good]
  by_cases operator : name = "operator"
  · simp only [operator, ne_eq, not_true_eq_false, if_false, settable.binds operator]
    cases above : tree.parent? p with
    | none => rfl
    | some parent =>
      cases spot : tree.position? parent p with
      | none => simp [spot]
      | some place => simp [spot, settable.stands operator parent place above spot]
  · simp only [ne_eq, operator, not_false_eq_true, if_true]

theorem position?_of_getElem? (distinct : (tree.children p).Nodup)
    (found : (tree.children p)[place]? = some x) : tree.position? p x = some place := by
  obtain ⟨inside, here⟩ := List.getElem?_eq_some_iff.1 found
  refine List.findIdx?_eq_some_iff_getElem.2 ⟨inside, decide_eq_true here, fun j less passes => ?_⟩
  have same := (of_decide_eq_true passes).trans here.symm
  have := distinct.getElem_inj_iff.1 same
  omega

section Attribute

variable {name : String} {value : Json}

theorem outline_storeAttribute_of_ne (away : x ≠ p) :
    (tree.storeAttribute p name value).outline x = tree.outline x := by
  rw [outline, outline, operator?, operator?, attribute?, attribute?, cell?_storeAttribute,
    if_neg away]

/-- The operator of a cell after an attribute was set. -/
theorem operator?_insertField (good : ∃ text, value = .text text) (cell : Cell) :
    Cell.operator? { cell with attributes := Json.insertField name value cell.attributes } =
      if name = "operator" then some value.plainText else cell.operator? := by
  obtain ⟨text, rfl⟩ := good
  rw [Cell.operator?, Cell.operator?]
  simp only [lookup_insertField]
  by_cases operator : name = "operator"
  · rw [if_pos operator, if_pos operator.symm]
  · rw [if_neg operator, if_neg (Ne.symm operator)]

theorem outline_storeAttribute_self (made : tree.Made p) (good : ∃ text, value = .text text) :
    (tree.storeAttribute p name value).outline p =
      (p.kind, if name = "operator" then some value.plainText else tree.operator? p) := by
  obtain ⟨cell, found⟩ := made
  have changed : (tree.storeAttribute p name value).cell? p =
      some { cell with attributes := Json.insertField name value cell.attributes } := by
    rw [cell?_storeAttribute, if_pos rfl, found]
    rfl
  rw [outline, operator?_of_cell? changed, operator?_of_cell? found, operator?_insertField good]

/-- The receiver of an attribute that can be set. -/
theorem Settable.fit_receiver (settable : tree.Settable p name value) (forest : tree.Forest)
    (found : tree.cell? p = some cell)
    (fit : cell.Fit tree.settings.strictStructure tree.outline) :
    Cell.Fit tree.settings.strictStructure (tree.storeAttribute p name value).outline
      { cell with attributes := Json.insertField name value cell.attributes } := by
  have kind := kind_of_cell? found
  have outlines : cell.children.map (tree.storeAttribute p name value).outline =
      cell.children.map tree.outline := by
    refine List.map_congr_left fun x member => outline_storeAttribute_of_ne fun same => ?_
    have owns : tree.Owns p x := owns_child (by rwa [Tree.children, found])
    exact forest.acyclic p (.single (same ▸ owns))
  have known : name ∈ cell.attributes.map Prod.fst := by
    rw [fit.own.names, kind]
    exact settable.known
  refine ⟨⟨(map_fst_insertField known).trans fit.own.names, fun entry member => ?_, fit.own.gaps⟩,
    fit.condition, ?_⟩
  · rcases mem_insertField member with rfl | member
    · exact kind.symm ▸ settable.good
    · exact fit.own.good entry member
  · rw [operator?_insertField (Node.exists_text_of_good settable.good), outlines]
    refine ⟨fit.children.count, fit.children.accepted, ?_⟩
    by_cases operator : name = "operator"
    · rw [if_pos operator]
      have binds := settable.binds operator
      rwa [arrangementProblem?, Tree.children, found, ← kind] at binds
    · rw [if_neg operator]
      exact fit.children.arranged

/-- The other nodes, of which one may have the receiver as a child. -/
theorem Settable.fit_other (settable : tree.Settable p name value) (sound : tree.Sound)
    (stored : tree.contains p) (found : tree.cell? id = some cell)
    (fit : cell.Fit tree.settings.strictStructure tree.outline) :
    cell.Fit tree.settings.strictStructure (tree.storeAttribute p name value).outline := by
  have kinds : (cell.children.map (tree.storeAttribute p name value).outline).map Prod.fst =
      (cell.children.map tree.outline).map Prod.fst := by
    rw [List.map_map, List.map_map]
    rfl
  have operators (x : NodeId) (away : x ≠ p ∨ name ≠ "operator") :
      (tree.storeAttribute p name value).outline x = tree.outline x := by
    by_cases same : x = p
    · subst same
      rw [outline_storeAttribute_self (made_of_contains stored)
        (Node.exists_text_of_good settable.good), if_neg (away.resolve_left fun h => h rfl)]
      rfl
    · exact outline_storeAttribute_of_ne same
  refine ⟨fit.own, fit.condition, ?_, fun hstrict child member => ?_, ?_⟩
  · have count := fit.children.count
    rwa [List.length_map] at count ⊢
  · obtain ⟨x, inside, rfl⟩ := List.mem_map.1 member
    exact fit.children.accepted hstrict (tree.outline x) (List.mem_map_of_mem inside)
  · by_cases chain : cell.kind = .ifElse
    · have arranged := fit.children.arranged
      rw [chain] at arranged ⊢
      rwa [arrangement_congr_of_chain kinds]
    · rw [arrangement_eq_none chain]
      intro place child here
      rw [List.getElem?_map] at here
      obtain ⟨x, spot, rfl⟩ := Option.map_eq_some_iff.1 here
      have before := (arrangement_eq_none chain).1 fit.children.arranged place (tree.outline x)
        (by rw [List.getElem?_map, spot]; rfl)
      -- Only where the receiver stands below this node, its new operator is looked at.
      by_cases away : x ≠ p ∨ name ≠ "operator"
      · rw [operators x away]
        exact before
      · obtain ⟨rfl, rfl⟩ : x = p ∧ name = "operator" := by simpa using away
        have spot : (tree.children id)[place]? = some x := by rwa [Tree.children, found]
        have owns : tree.Owns id x := owns_child (List.mem_of_getElem? spot)
        have stands := settable.stands rfl id place (sound.parent?_eq_some.2 ⟨stored, owns⟩)
          (position?_of_getElem? (List.nodup_append.1 (sound.distinct id)).2.1 spot)
        rw [operator?_of_cell? found, ← kind_of_cell? found] at stands
        rw [outline_storeAttribute_self (made_of_contains stored)
          (Node.exists_text_of_good settable.good), if_pos rfl]
        exact stands

theorem Fitting.storeAttribute (fitting : tree.Fitting) (sound : tree.Sound)
    (stored : tree.contains p) (settable : tree.Settable p name value) :
    (tree.storeAttribute p name value).Fitting := by
  intro id cell found
  rw [show (tree.storeAttribute p name value).settings = tree.settings from settings_modify]
  rw [cell?_storeAttribute] at found
  by_cases receiver : id = p
  · rw [if_pos receiver] at found
    obtain ⟨before, was, rfl⟩ := Option.map_eq_some_iff.1 found
    exact settable.fit_receiver sound.toForest was (fitting p before was)
  · rw [if_neg receiver] at found
    exact settable.fit_other sound stored found (fitting id cell found)

end Attribute

/-! ### Edits -/

theorem checkArrangement_eq_ok (calm : tree.replaying = false) {children : List NodeId} :
    tree.checkArrangement p children = .ok () ↔
      tree.arrangementProblem? p (tree.operator? p) children = none := by
  rw [checkArrangement, calm, if_neg Bool.false_ne_true]
  cases tree.arrangementProblem? p (tree.operator? p) children <;> simp

theorem Fitting.takesChildren (fitting : tree.Fitting) (made : tree.Made p) :
    p.kind.TakesChildren tree.settings.strictStructure (tree.operator? p)
      ((tree.children p).map tree.outline) := by
  obtain ⟨cell, found⟩ := made
  have takes := (fitting p cell found).children
  rwa [kind_of_cell? found, ← operator?_of_cell? found,
    show cell.children = tree.children p by rw [Tree.children, found]] at takes

theorem Fitting.takesCondition (fitting : tree.Fitting) (made : tree.Made p) :
    p.kind.TakesCondition ((tree.condition? p).map NodeId.kind) := by
  obtain ⟨cell, found⟩ := made
  have takes := (fitting p cell found).condition
  rwa [kind_of_cell? found,
    show cell.condition.node? = tree.condition? p by rw [condition?, found]; rfl] at takes

/-- Other children in order, each of which was there before or is accepted. -/
theorem Fitting.changeChildren (fitting : tree.Fitting) (calm : tree.replaying = false)
    (made : tree.Made p) {children : List NodeId} (count : p.kind.takesCount children.length)
    (each : ∀ x ∈ children, x ∈ tree.children p ∨
      (tree.settings.strictStructure → p.kind.accepts.contains x.kind.category))
    (arranged : tree.checkArrangement p children = .ok ()) :
    (tree.storeChildren p children).Fitting := by
  refine fitting.storeChildren ⟨?_, fun hstrict child member => ?_,
    (checkArrangement_eq_ok calm).1 arranged⟩
  · rwa [List.length_map]
  · obtain ⟨x, inside, rfl⟩ := List.mem_map.1 member
    rcases each x inside with before | accepted
    · exact (fitting.takesChildren made).accepted hstrict _ (List.mem_map_of_mem before)
    · exact accepted hstrict

namespace Fitting

variable (fitting : tree.Fitting) (calm : tree.replaying = false)
include fitting calm

theorem setAttribute (sound : tree.Sound) (stored : tree.contains p) (name : String)
    (value : Json) : (tree.setAttribute p name value).1.Fitting := by
  obtain ⟨cause, -, same⟩ | ⟨checked, same⟩ := setAttribute_cases tree p name value <;> rw [same]
  · exact fitting
  · exact fitting.storeAttribute sound stored (settable_of_attributeRefusal? (checked calm))

theorem addChild (made : tree.Made p) (candidate : Candidate) (index : Option Int) :
    (tree.addChild p candidate index).1.Fitting := by
  obtain ⟨cause, -, same⟩ | ⟨child, place, checked, same⟩ := addChild_cases tree p candidate index <;>
    rw [same]
  · exact fitting
  · obtain ⟨-, -, spot, arranged⟩ := checkAddChild_eq_ok.1 checked
    obtain ⟨room, each⟩ := children_of_checkAddChild checked
    have count := (fitting.takesChildren made).count
    rw [List.length_map] at count
    refine (Alike.adopt _ child p).fitting
      (fitting.changeChildren calm made ⟨?_, room⟩ each arranged)
    rw [List.length_insertIdx_of_le_length (newPlace_le spot)]
    exact Nat.le_succ_of_le count.1

theorem removeChild (made : tree.Made p) (candidate : Candidate) :
    (tree.removeChild p candidate).1.Fitting := by
  obtain ⟨refusal, -, same⟩ | ⟨child, place, checked, same⟩ := removeChild_cases tree p candidate <;>
    rw [same]
  · exact fitting
  · obtain ⟨-, spot, enough, arranged⟩ := checkRemoveChild_eq_ok.1 checked
    have inside := (List.getElem?_eq_some_iff.1 (getElem?_of_position? spot)).1
    have enough := enough (by simp [calm])
    have count := (fitting.takesChildren made).count
    have length := List.length_eraseIdx_of_lt inside
    rw [List.length_map] at count
    refine (Alike.release _ child).fitting (fitting.changeChildren calm made ⟨?_, ?_⟩ ?_ arranged)
    · omega
    · intro limit most
      have := count.2 limit most
      omega
    · exact fun x member => .inl (List.mem_of_mem_eraseIdx member)

theorem replaceChild (made : tree.Made p) (oldCandidate candidate : Candidate) :
    (tree.replaceChild p oldCandidate candidate).1.Fitting := by
  obtain ⟨refusal, -, same⟩ | ⟨old, new, place, checked, same⟩ :=
    replaceChild_cases tree p oldCandidate candidate <;> rw [same]
  · exact fitting
  · obtain ⟨-, -, -, arranged⟩ := checkReplaceChild_eq_ok.1 checked
    have count := (fitting.takesChildren made).count
    rw [List.length_map] at count
    refine (Alike.adopt _ new p).fitting ((Alike.release _ old).fitting
      (fitting.changeChildren calm made ?_ (children_of_checkReplaceChild checked) arranged))
    rwa [List.length_set]

omit calm in
theorem setCondition (has : p.kind.hasCondition) (candidate : Candidate) :
    (tree.setCondition p candidate).1.Fitting := by
  obtain same | ⟨cause, -, same⟩ | ⟨new, checked, same⟩ := setCondition_cases tree p candidate <;>
    rw [same]
  · exact fitting
  · exact fitting
  · obtain ⟨-, expression, binding⟩ := checkCondition_eq_ok.1 checked
    refine ((Alike.exchangeCondition tree _ p new).fitting fitting).storeCondition ⟨?_, ?_⟩
    · intro slot
      rw [has] at slot
      contradiction
    · rintro _ ⟨⟩
      refine ⟨expression, fun connector => binding ?_⟩
      rw [connector]
      rfl

omit calm in
theorem setConditionText (sound : tree.Sound) (has : p.kind.hasCondition) {text : String}
    {change : Option Change} (worked : (tree.setConditionText p text).2 = .ok change) :
    (tree.setConditionText p text).1.Fitting := by
  obtain ⟨e, -, same⟩ | ⟨node, failure, -, -, same⟩ | ⟨node, condition, -, built, same⟩ :=
    setConditionText_cases tree p text <;> rw [same] at worked ⊢
  · contradiction
  · contradiction
  · exact (fitting.build sound built).setCondition has (.own condition)

end Fitting

end Tree

end Verbatim
