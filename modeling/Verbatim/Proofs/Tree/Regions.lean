import Verbatim.Proofs.Coherence
import Verbatim.Proofs.Tree.Around
import Verbatim.Proofs.Tree.Trails

/-!
# Edits and the regions of a tree

An edit changes what one node holds. So it changes the values of the nodes above that one and of no
others, and the value of the root is what it was, with the value of the receiver in its place.

The trees need not be forests. A node that lies inside a subtree that left the tree can be put
somewhere else, and then it has two owners, of which one is in the store. What is asked is that the
nodes in the store agree with their links, and that walking down ends from what is put somewhere.

## Main definitions

* `Content.node?`: the node that a change puts somewhere or takes away
* `Tree.ChangedAt`: one node holds something else

## Main results

* `Tree.Coherent.acyclic`: no node in the store lies below itself
* `Tree.Coherent.resolve_path`: the path of a node leads to it from the root
* `Tree.ChangedAt.founded`: walking down ends after a change
* `Tree.ChangedAt.view_of_not_below`: a node that is not above the receiver looks as it did
* `Tree.ChangedAt.view_update`: **the value of a node, with the receiver changed where it stands**
-/

namespace Verbatim

/-- The node of the content. -/
def Content.node? : Content → Option NodeId
  | .node id => some id
  | .value _ => none

theorem Content.node?_ofNode? (id : Option NodeId) : (Content.ofNode? id).node? = id := by
  cases id <;> rfl

namespace Tree

open Relation

variable {tree first last other : Tree} {change : Change} {cell : Cell} {id x p q : NodeId} {path : Path}

/-! ### Coherent trees -/

namespace Coherent

variable (coherent : tree.Coherent)
include coherent

theorem contains_below (stored : tree.contains p) (below : tree.Below p x) : tree.contains x := by
  induction below with
  | refl => exact stored
  | tail _ owns ih => exact (coherent.owned _ ih _ owns).1

/-- No node in the store lies below itself: the way up would not end. -/
theorem acyclic (stored : tree.contains x) : ¬ TransGen tree.Owns x x := by
  intro cycle
  obtain ⟨top, above, -, free⟩ := coherent.ends x stored
  -- The owner of a node on a cycle is on the cycle as well, and is what the node is linked to.
  have further {b : NodeId} (stored : tree.contains b) (cycle : TransGen tree.Owns b b) :
      ∃ p, tree.link b = .under p ∧ tree.contains p ∧ TransGen tree.Owns p p := by
    obtain ⟨p, below, owns⟩ := TransGen.tail'_iff.1 cycle
    have inside := coherent.contains_below stored below
    exact ⟨p, (coherent.owned p inside b owns).2, inside, TransGen.head' owns below⟩
  have around : tree.contains top ∧ TransGen tree.Owns top top := by
    clear free
    induction above with
    | refl => exact ⟨stored, cycle⟩
    | tail _ linked ih =>
      obtain ⟨p, under, inside, around⟩ := further ih.1 ih.2
      obtain rfl := Link.under.inj (under.symm.trans linked)
      exact ⟨inside, around⟩
  obtain ⟨p, under, -⟩ := further around.1 around.2
  exact Link.noConfusion (free.symm.trans under)

/-- Walking down from a node in the store ends. -/
theorem founded (stored : tree.contains x) : tree.Founded x :=
  fun _ below => coherent.acyclic (coherent.contains_below stored below)

/-- An owner in the store does not lie below what it owns. -/
theorem not_below_owner (stored : tree.contains p) (owns : tree.Owns p x) : ¬ tree.Below x p :=
  fun below => coherent.acyclic stored (TransGen.head' owns below)

theorem depth_lt (stored : tree.contains p) (owns : tree.Owns p x) :
    tree.depth p < tree.depth x :=
  count_lt (fun _ below => .tail below owns)
    (made_of_contains (coherent.owned p stored x owns).1) .refl
    (coherent.not_below_owner stored owns)

/-- A node has one owner in the store. -/
theorem owner (stored : tree.contains p) (storedToo : tree.contains q) (owns : tree.Owns p x)
    (ownsToo : tree.Owns q x) : p = q :=
  Link.under.inj
    ((coherent.owned p stored x owns).2.symm.trans (coherent.owned q storedToo x ownsToo).2)

/-- Two nodes in the store with something below both of them lie one below the other. -/
theorem below_or_below (stored : tree.contains p) (storedToo : tree.contains q)
    (first : tree.Below p x) (second : tree.Below q x) : tree.Below p q ∨ tree.Below q p := by
  induction first with
  | refl => exact .inr second
  | tail above owns ih =>
    obtain rfl | ⟨owner, below, ownsToo⟩ := second.cases_owner
    · exact .inl (above.tail owns)
    · rw [coherent.owner (coherent.contains_below storedToo below)
        (coherent.contains_below stored above) ownsToo owns] at below
      exact ih below

theorem parent?_eq_some (stored : tree.contains p) (owns : tree.Owns p x) :
    tree.parent? x = some p := by
  rw [parent?, (coherent.owned p stored x owns).2]
  exact if_pos stored

/-- The parent of a node is in the store and owns it. -/
theorem owns_of_parent? (above : tree.parent? x = some p) :
    tree.contains p ∧ tree.Owns p x := by
  unfold parent? at above
  split at above
  · next owner linked =>
    split at above
    · obtain rfl := Option.some.inj above
      exact coherent.linked x owner ((coherent.keys x).2 (by simp [linked])) linked
    · contradiction
  · contradiction

/-- Every node has a path. -/
theorem path_ok (id : NodeId) : ∃ path, tree.path id = .ok path :=
  pathWithin_ok (fun above => (coherent.owns_of_parent? above).2) _ id []

/-- No node in the store owns the root. -/
theorem not_owns_root (isRoot : tree.root = some id) (stored : tree.contains p) :
    ¬ tree.Owns p id := fun owns =>
  Link.noConfusion ((coherent.owned p stored id owns).2.symm.trans (coherent.root id isRoot).2)

/-- The subtrees of two nodes with one owner in the store have nothing in common. -/
theorem apart_of_owns (stored : tree.contains p) {sub subToo : NodeId} (owns : tree.Owns p sub)
    (ownsToo : tree.Owns p subToo) (different : sub ≠ subToo) (below : tree.Below sub x) :
    ¬ tree.Below subToo x := by
  have never {a b : NodeId} (ownsA : tree.Owns p a) (ownsB : tree.Owns p b) (different : a ≠ b) :
      ¬ tree.Below a b := by
    intro inside
    obtain same | ⟨owner, above, owns⟩ := inside.cases_owner
    · exact different same.symm
    · have storedA := (coherent.owned p stored a ownsA).1
      rw [coherent.owner (coherent.contains_below storedA above) stored owns ownsB] at above
      exact coherent.not_below_owner stored ownsA above
  intro belowToo
  obtain inside | inside := coherent.below_or_below (coherent.owned p stored sub owns).1
    (coherent.owned p stored subToo ownsToo).1 below belowToo
  · exact never owns ownsToo different inside
  · exact never ownsToo owns different.symm inside

/-- The last of the nodes above a node is the root. -/
theorem getLast?_lineageWithin (isRoot : tree.root = some id) {steps : Nat}
    (enough : tree.depth x ≤ steps) (below : tree.Below id x) :
    (tree.lineageWithin steps x).getLast? = some id := by
  have storedRoot := (coherent.root id isRoot).1
  induction steps generalizing x with
  | zero =>
    obtain rfl | ⟨p, above, owns⟩ := below.cases_owner
    · rfl
    · have := coherent.depth_lt (coherent.contains_below storedRoot above) owns
      omega
  | succ steps ih =>
    rw [lineageWithin]
    obtain rfl | ⟨p, above, owns⟩ := below.cases_owner
    · cases found : tree.parent? x with
      | none => rfl
      | some p =>
        obtain ⟨stored, owns⟩ := coherent.owns_of_parent? found
        exact absurd owns (coherent.not_owns_root isRoot stored)
    · have stored := coherent.contains_below storedRoot above
      have fewer := coherent.depth_lt stored owns
      rw [coherent.parent?_eq_some stored owns]
      simp [List.getLast?_cons, ih (by omega) above]

/-- The path of a node below the root leads to it. -/
theorem descend_path (isRoot : tree.root = some id) (below : tree.Below id x)
    (found : tree.path x = .ok path) : tree.descend id (path.map PathStep.request) = .ok x := by
  obtain ⟨front, last, rfl, isLast, reached⟩ := descend_pathWithin found
  obtain rfl := Option.some.inj (isLast.symm.trans
    (coherent.getLast?_lineageWithin isRoot (tree.depth_le x) below))
  rwa [List.append_nil]

/-- The path of a node below the root is resolved to the node. -/
theorem resolve_path (isRoot : tree.root = some id) (below : tree.Below id x)
    (found : tree.path x = .ok path) : tree.resolve path = .ok x := by
  have root : tree.root? = some id := by
    rw [root?, isRoot, Option.filter_some_pos (coherent.root id isRoot).1]
  rw [resolve, resolveSteps, root]
  exact coherent.descend_path isRoot below found

end Coherent

/-! ### One changed node -/

/-- Only one node holds something else, and it owns nothing else but what was brought. -/
structure ChangedAt (tree other : Tree) (p : NodeId) (brought : Option NodeId) : Prop where
  size : other.cells.size = tree.cells.size
  contents : ∀ {x}, x ≠ p → other.contents? x = tree.contents? x
  made : ∀ {x}, other.Made x ↔ tree.Made x
  owns : ∀ {x}, other.Owns p x → tree.Owns p x ∨ x ∈ brought

theorem Matches.changedAt (same : tree.Matches other) (p : NodeId) : tree.ChangedAt other p none :=
  ⟨same.size, fun _ => same.contents _, same.made, fun owns => .inl (same.owns ▸ owns)⟩

theorem changedAt_storeAttribute (tree : Tree) (p : NodeId) (name : String) (value : Json) :
    tree.ChangedAt (tree.storeAttribute p name value) p none := by
  have inner := Cell.inner_attributes name value
  refine ⟨size_modify, fun away => ?_, made_modify inner, fun owns => ?_⟩
  · rw [storeAttribute, contents?_modify_eq inner.kind, if_neg away]
  · rw [Owns, directNodes_storeAttribute] at owns
    exact .inl owns

theorem changedAt_storeCondition (made : tree.Made p) (slot : ConditionSlot) :
    tree.ChangedAt (tree.storeCondition p slot) p slot.node? := by
  have inner := Cell.inner_condition slot
  refine ⟨size_modify, fun away => ?_, made_modify inner, fun owns => ?_⟩
  · rw [storeCondition, contents?_modify_eq inner.kind, if_neg away]
  · rw [Owns, directNodes_storeCondition made] at owns
    exact (List.mem_append.1 owns).elim (fun new => .inr (Option.mem_toList.1 new))
      fun child => .inl (owns_child child)

theorem changedAt_storeChildren (made : tree.Made p) {children : List NodeId}
    {brought : Option NodeId} (each : ∀ x ∈ children, x ∈ tree.children p ∨ x ∈ brought) :
    tree.ChangedAt (tree.storeChildren p children) p brought := by
  have inner := Cell.inner_children children
  refine ⟨size_modify, fun away => ?_, made_modify inner, fun owns => ?_⟩
  · rw [storeChildren, contents?_modify_eq inner.kind, if_neg away]
  · rw [Owns, directNodes_storeChildren made] at owns
    exact (List.mem_append.1 owns).elim (fun slot => .inl (List.mem_append_left _ slot))
      fun child => (each _ child).imp_left owns_child

theorem ChangedAt.matches {brought : Option NodeId} (changed : tree.ChangedAt first p brought)
    (same : first.Matches other) : tree.ChangedAt other p brought :=
  ⟨same.size.trans changed.size, fun away => (same.contents _).trans (changed.contents away),
    same.made.trans changed.made, fun owns => changed.owns (same.owns ▸ owns)⟩

/-- A change leads to a tree that is changed at its node. -/
theorem Leads.changedAt (leads : first.Leads last change) :
    first.ChangedAt last change.node change.after.node? := by
  cases leads with
  | field made known was becomes => exact (changedAt_storeAttribute ..).matches becomes
  | @condition p path before after made slot was different becomes =>
    have changed := (changedAt_storeCondition made _).matches becomes
    rw [ConditionSlot.node?_ofNode?] at changed
    rwa [Content.node?_ofNode?]
  | @add p child path place made inside becomes =>
    refine (changedAt_storeChildren made fun x member => ?_).matches becomes
    exact (List.eq_or_mem_of_mem_insertIdx member).symm.imp_right fun new => congrArg some new.symm
  | remove made found becomes =>
    exact (changedAt_storeChildren made fun x member =>
      .inl (List.mem_of_mem_eraseIdx member)).matches becomes
  | @replace p old new path place made found different becomes =>
    refine (changedAt_storeChildren made fun x member => ?_).matches becomes
    exact (List.mem_or_eq_of_mem_set member).imp_right fun new => congrArg some new.symm

namespace ChangedAt

variable {brought : Option NodeId} (changed : first.ChangedAt last p brought)
include changed

theorem owns_cases (owns : last.Owns q x) : first.Owns q x ∨ q = p ∧ x ∈ brought := by
  by_cases here : q = p
  · subst here
    exact (changed.owns owns).imp_right fun new => ⟨rfl, new⟩
  · rw [Owns, directNodes_congr (changed.contents here)] at owns
    exact .inl owns

theorem loose (loose : first.Loose x) (other : x ∉ brought) : last.Loose x := fun q owns =>
  (changed.owns_cases owns).elim (loose q) fun new => other new.2

/-- Walking down ends after a change, if it does from what the change brought, and that was not above
the node. -/
theorem founded (founded : first.Founded id)
    (fits : ∀ new ∈ brought, first.Founded new ∧ ¬ first.Below new p) : last.Founded id :=
  founded.rewired changed.owns_cases fits

/-- A node that is not above the changed one looks as it did. -/
theorem view_of_not_below (apart : ¬ first.Below x p) : last.view x = first.view x := by
  rw [view, view, changed.size]
  exact viewWithin_congr (fun y below => changed.contents fun here => apart (here ▸ below)) _

/-- **The value of a node, with the receiver changed where it stands.** -/
theorem view_update (coherent : first.Coherent)
    (fits : ∀ new ∈ brought, first.Founded new ∧ ¬ first.Below new p) (stored : first.contains id)
    (reached : first.descend id (path.map PathStep.request) = .ok p) :
    last.view id = (first.view id).update (fun _ => last.view p) path := by
  induction path generalizing id with
  | nil =>
    obtain rfl := Except.ok.inj reached
    rfl
  | cons step rest ih =>
    cases stepped : first.step? id step.request with
    | none => simp [descend, stepped] at reached
    | some next =>
      rw [List.map_cons, descend, stepped] at reached
      have owns := owns_of_step? stepped
      have later := ih (coherent.owned id stored next owns).1 reached
      have below := below_of_descend reached
      -- The receiver lies below the next node, so not below the others, and not above this one.
      have apart {sub : NodeId} (ownsToo : first.Owns id sub) (different : sub ≠ next) :
          last.view sub = first.view sub :=
        changed.view_of_not_below (coherent.apart_of_owns stored owns ownsToo
          different.symm below)
      have here : last.contents? id = first.contents? id :=
        changed.contents fun same => coherent.not_below_owner stored owns (same ▸ below)
      have distinct := List.nodup_append.1 (coherent.distinct id stored)
      have founded := coherent.founded stored
      rw [(changed.founded founded fits).view_eq, founded.view_eq, attributes_congr here,
        condition?_congr here, children_congr here, gaps_congr here]
      cases step with
      | condition =>
        have slot : first.condition? id = some next := stepped
        have others : (first.children id).map last.view = (first.children id).map first.view :=
          List.map_congr_left fun sub member => apart (owns_child member) fun same =>
            distinct.2.2 next (Option.mem_toList.2 slot) sub member same.symm
        rw [slot, others, Node.update, Option.map_some, Option.map_some, Option.map_some, later]
      | index place =>
        rw [step?_index] at stepped
        have slot : (first.condition? id).map last.view = (first.condition? id).map first.view :=
          Option.map_congr fun sub member => apart (owns_condition member) fun same =>
            distinct.2.2 sub (Option.mem_toList.2 member) next (List.mem_of_getElem? stepped) same
        rw [slot, Node.update]
        congr 1
        refine List.ext_getElem? fun spot => ?_
        rw [List.getElem?_modify, List.getElem?_map, List.getElem?_map]
        by_cases same : place = spot
        · subst same
          rw [stepped]
          simp [later]
        · cases found : (first.children id)[spot]? with
          | none => rfl
          | some sub =>
            have different : sub ≠ next := fun same' => same <|
              (List.getElem?_inj (List.getElem?_eq_some_iff.1 stepped).1 distinct.2.1).1
                (stepped.trans (same' ▸ found).symm)
            simp [same, apart (owns_child (List.mem_of_getElem? found)) different]

/-- What the changed node owns afterwards looks as it did. -/
theorem view_of_owns (coherent : first.Coherent) (stored : first.contains p)
    (apart : ∀ new ∈ brought, ¬ first.Below new p) (owned : last.Owns p x) :
    last.view x = first.view x := by
  refine changed.view_of_not_below ?_
  obtain before | new := changed.owns owned
  · exact coherent.not_below_owner stored before
  · exact apart x new

end ChangedAt

/-- The value of a node whose cell was changed, where what it owns looks as it did. -/
theorem Matches.view_modify {f : Cell → Cell} (becomes : (first.modify p f).Matches last)
    (inner : Cell.Inner f) (founded : last.Founded p)
    (same : ∀ x, last.Owns p x → last.view x = first.view x) (found : first.cell? p = some cell) :
    last.view p = .mk p.kind (f cell).attributes ((f cell).condition.node?.map first.view)
      ((f cell).children.map first.view) (f cell).gaps := by
  have here : last.contents? p = some (f cell).contents := by
    rw [becomes.contents, contents?_modify_eq inner.kind, if_pos rfl, found]
    rfl
  obtain ⟨later, changed, equal⟩ := Option.map_eq_some_iff.1 here
  have condition : last.condition? p = (f cell).condition.node? := by
    rw [Tree.condition?, changed, Option.bind_some, ← ConditionSlot.node?_plain,
      ← ConditionSlot.node?_plain (f cell).condition]
    exact (congrArg (fun cell : Cell => cell.condition.node?) equal :)
  have children : last.children p = (f cell).children := by
    rw [Tree.children, changed]
    exact (congrArg Cell.children equal :)
  rw [founded.view_eq, Option.map_congr fun x member => same x (owns_condition member),
    List.map_congr_left fun x member => same x (owns_child member), condition, children, attributes,
    gaps, changed]
  congr 1
  · exact (congrArg Cell.attributes equal :)
  · exact (congrArg Cell.gaps equal :)

section Views

variable (founded : first.Founded p) (foundedToo : last.Founded p)
  (same : ∀ x, last.Owns p x → last.view x = first.view x) (made : first.Made p)
include founded foundedToo same made

theorem Matches.view_storeChildren {children : List NodeId}
    (becomes : (first.storeChildren p children).Matches last) :
    last.view p = (first.view p).withChildren (children.map first.view) := by
  obtain ⟨cell, found⟩ := made
  rw [becomes.view_modify (Cell.inner_children _) foundedToo same found, founded.view_eq,
    Node.withChildren, Tree.condition?, gaps, attributes, found]
  rfl

theorem Matches.view_storeCondition (becomes : (first.storeCondition p (.holds x)).Matches last) :
    last.view p = (first.view p).withCondition (first.view x) := by
  obtain ⟨cell, found⟩ := made
  rw [becomes.view_modify (Cell.inner_condition _) foundedToo same found, founded.view_eq,
    Node.withCondition, Tree.children, gaps, attributes, found]
  rfl

theorem Matches.view_storeAttribute {name : String} {value : Json}
    (becomes : (first.storeAttribute p name value).Matches last) :
    last.view p = (first.view p).withAttribute name value := by
  obtain ⟨cell, found⟩ := made
  rw [becomes.view_modify (Cell.inner_attributes _ _) foundedToo same found, founded.view_eq,
    Node.withAttribute, Tree.children, Tree.condition?, gaps, attributes, found]
  rfl

end Views

end Tree

end Verbatim
