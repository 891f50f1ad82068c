import Verbatim.Proofs.Tree.Checks
import Verbatim.Proofs.Tree.Exchange
import Verbatim.Proofs.Tree.Growth

/-!
# Edits keep trees sound

Every edit is an exchange: the receiver loses one of the nodes it owns, or gets one that can be put
below it, or both. So edits keep a tree sound, whether they are refused or not, and they keep what
the tables say of the nodes in the store also where the receiver is not one of them.

## Main definitions

* `Candidate.Usable`: what may go into a tree
* `Tree.Touched`: what a node owns was exchanged, maybe for itself

## Main results

* `Tree.Kept.setAttribute`, `Tree.Kept.addChild`, `Tree.Kept.removeChild`,
  `Tree.Kept.replaceChild`, `Tree.Kept.setCondition`: every edit is an exchange
* `Tree.Sound.setAttribute`, `Tree.Sound.addChild`, `Tree.Sound.removeChild`,
  `Tree.Sound.replaceChild`, `Tree.Sound.setCondition`, `Tree.Sound.setConditionText`,
  `Tree.Sound.setRoot?`: **every edit keeps a tree sound**
-/

namespace Verbatim

/-- What is handed to an edit may go into the tree if it is a node that is in the store, or one that
is not but that no node owns. -/
def Candidate.Usable (tree : Tree) : Candidate → Prop
  | .own node => tree.contains node ∨ tree.Made node ∧ tree.Loose node
  | _ => True

namespace Tree

variable {tree other now : Tree} {id x p q old new child : NodeId} {change : Cell → Cell}
  {gone here : Option NodeId} {place : Nat}

/-! ### Changed contents -/

theorem made_modify (inner : Cell.Inner change) :
    (tree.modify id change).Made x ↔ tree.Made x := by
  unfold Made
  rw [cell?_modify inner.kind]
  by_cases here : x = id
  · simp [here]
  · rw [if_neg here]

theorem directNodes_modify_of_ne (inner : Cell.Inner change) (away : q ≠ p) :
    (tree.modify p change).directNodes q = tree.directNodes q :=
  directNodes_congr (by rw [contents?, contents?, cell?_modify inner.kind, if_neg away])

theorem directNodes_storeChildren (made : tree.Made p) (children : List NodeId) :
    (tree.storeChildren p children).directNodes p = (tree.condition? p).toList ++ children := by
  obtain ⟨cell, found⟩ := made
  have changed : (tree.storeChildren p children).cell? p = some { cell with children } := by
    rw [cell?_storeChildren, if_pos rfl, found]
    rfl
  simp only [directNodes, condition?, Tree.children, changed, found, Option.bind_some]

theorem directNodes_storeCondition (made : tree.Made p) (slot : ConditionSlot) :
    (tree.storeCondition p slot).directNodes p = slot.node?.toList ++ tree.children p := by
  obtain ⟨cell, found⟩ := made
  have changed : (tree.storeCondition p slot).cell? p = some { cell with condition := slot } := by
    rw [cell?_storeCondition, if_pos rfl, found]
    rfl
  simp only [directNodes, condition?, Tree.children, changed, found, Option.bind_some]

theorem condition?_storeAttribute {name : String} {value : Json} :
    (tree.storeAttribute p name value).condition? q = tree.condition? q := by
  rw [condition?, condition?, cell?_storeAttribute]
  by_cases same : q = p
  · rw [if_pos same, same]
    cases tree.cell? p <;> rfl
  · rw [if_neg same]

theorem children_storeAttribute {name : String} {value : Json} :
    (tree.storeAttribute p name value).children q = tree.children q := by
  rw [Tree.children, Tree.children, cell?_storeAttribute]
  by_cases same : q = p
  · rw [if_pos same, same]
    cases tree.cell? p <;> rfl
  · rw [if_neg same]

theorem directNodes_storeAttribute {name : String} {value : Json} :
    (tree.storeAttribute p name value).directNodes q = tree.directNodes q := by
  rw [directNodes, directNodes, condition?_storeAttribute, children_storeAttribute]

theorem owns_storeAttribute {name : String} {value : Json} :
    (tree.storeAttribute p name value).Owns = tree.Owns := by
  funext q x
  rw [Owns, Owns, directNodes_storeAttribute]

theorem children_storeGaps {gaps : Gaps} :
    (tree.storeGaps p gaps).children q = tree.children q := by
  rw [Tree.children, Tree.children, storeGaps, cell?_modify (Cell.inner_gaps gaps).kind]
  by_cases same : q = p
  · rw [if_pos same, same]
    cases tree.cell? p <;> rfl
  · rw [if_neg same]

theorem directNodes_storeGaps {gaps : Gaps} :
    (tree.storeGaps p gaps).directNodes q = tree.directNodes q := by
  rw [directNodes, directNodes, condition?, condition?, Tree.children, Tree.children, storeGaps,
    cell?_modify (Cell.inner_gaps gaps).kind]
  by_cases same : q = p
  · rw [if_pos same, same]
    cases tree.cell? p <;> rfl
  · rw [if_neg same]

/-! ### Rewirings -/

/-- A node is rewired if what it owns is exchanged, in any order. -/
theorem Rewired.of_perm (forest : tree.Forest) (made : ∀ x, other.Made x ↔ tree.Made x)
    (elsewhere : ∀ {q}, q ≠ p → other.directNodes q = tree.directNodes q) {rest : List NodeId}
    (before : (tree.directNodes p).Perm (gone.toList ++ rest))
    (after : (other.directNodes p).Perm (here.toList ++ rest))
    (loose : ∀ h ∈ here, tree.Loose h) : tree.Rewired other p gone here := by
  have distinct := before.nodup_iff.1 (forest.distinct p)
  have owned {g : NodeId} (member : g ∈ gone) : tree.Owns p g :=
    before.mem_iff.2 (List.mem_append_left _ (Option.mem_toList.2 member))
  refine ⟨made _, fun {q x} => ?_, ?_, elsewhere⟩
  · by_cases same : q = p
    · subst same
      rw [Owns, Owns, after.mem_iff, before.mem_iff, List.mem_append, List.mem_append,
        Option.mem_toList, Option.mem_toList]
      have apart : x ∈ rest → x ∉ gone := fun member memberToo =>
        List.disjoint_of_nodup_append distinct (Option.mem_toList.2 memberToo) member
      constructor
      · rintro (fresh | kept)
        · exact .inr ⟨rfl, fresh⟩
        · exact .inl ⟨.inr kept, apart kept⟩
      · rintro (⟨was | kept, stays⟩ | ⟨-, fresh⟩)
        · exact absurd was stays
        · exact .inr kept
        · exact .inl fresh
    · rw [Owns, elsewhere same]
      constructor
      · exact fun owns => .inl ⟨owns, fun member => same (forest.owner owns (owned member))⟩
      · rintro (⟨owns, -⟩ | ⟨here, -⟩)
        · exact owns
        · exact absurd here same
  · refine after.nodup_iff.2 (List.nodup_append.2
      ⟨by cases here <;> simp, (List.nodup_append.1 distinct).2.1, ?_⟩)
    rintro h member y kept rfl
    exact loose h (Option.mem_toList.1 member) p (before.mem_iff.2 (List.mem_append_right _ kept))

/-- Where only one node owns other nodes, what is below a node that is not above it stays. -/
theorem below_congr (elsewhere : ∀ {q}, q ≠ p → other.directNodes q = tree.directNodes q)
    (apart : ¬ tree.Below id p) : other.Below id x ↔ tree.Below id x := by
  constructor
  · intro below
    induction below with
    | refl => exact .refl
    | tail _ owns ih =>
      refine ih.tail ?_
      rw [Owns, elsewhere fun same => apart (same ▸ ih)] at owns
      exact owns
  · intro below
    induction below with
    | refl => exact .refl
    | tail above owns ih =>
      refine ih.tail ?_
      rw [Owns, elsewhere fun same => apart (same ▸ above)]
      exact owns

theorem Alike.rewired (alike : now.Alike other) (rewired : tree.Rewired now p gone here) :
    tree.Rewired other p gone here where
  made := alike.made.trans rewired.made
  owns := by
    rw [alike.owns]
    exact rewired.owns
  distinct := by
    rw [alike.directNodes]
    exact rewired.distinct
  elsewhere away := alike.directNodes.trans (rewired.elsewhere away)

theorem Alike.exchangeCondition (tree : Tree) (before : Option NodeId) (p new : NodeId) :
    tree.Alike (tree.exchangeCondition before p new) := by
  cases before with
  | none => exact Alike.adopt tree new p
  | some old => exact (Alike.adopt tree new p).trans (Alike.release _ old)

theorem setRoot?_eq_some : tree.setRoot? x = some other ↔
    (∀ p, tree.link x ≠ .under p) ∧ other = { tree with root := some x } := by
  unfold setRoot?
  cases tree.link x <;> simp [eq_comm]

/-- What a node owns was exchanged, maybe for itself. Only what was handed over may have come. -/
def Touched (tree other : Tree) (p : NodeId) (inserted : Candidate) : Prop :=
  ∃ gone here, tree.Exchanged other p gone here ∧ ∀ h ∈ here, inserted = .own h

/-- What passes the check of a link was handed over. -/
theorem own_of_linkRefusal? {candidate : Candidate}
    (passed : tree.linkRefusal? p candidate = .ok new) : ∀ h ∈ some new, candidate = .own h :=
  fun _ member => Option.some.inj member ▸ (linkRefusal?_eq_ok.1 passed).1

namespace Kept

variable (kept : tree.Kept)
include kept

theorem touched {inserted : Candidate} (touched : tree.Touched other p inserted) : other.Kept := by
  obtain ⟨gone, here, exchanged, -⟩ := touched
  exact kept.exchanged exchanged

/-- Nothing changed. -/
theorem untouched (p : NodeId) (inserted : Candidate) : tree.Touched tree p inserted := by
  refine ⟨none, none, ⟨⟨nofun, nofun, nofun⟩, ⟨Iff.rfl, ?_, kept.distinct p, fun _ => rfl⟩,
    Moved.start tree p⟩, nofun⟩
  exact ⟨fun owns => .inl ⟨owns, Option.not_mem_none _⟩, fun cases =>
    cases.elim And.left fun new => absurd new.2 (Option.not_mem_none _)⟩

/-- The contents of the receiver change first, then the tables. -/
theorem exchanged_after (exchange : tree.Exchange p gone here)
    (inner : Cell.Inner change)
    (rewired : tree.Rewired (tree.modify p change) p gone here) {released : Tree}
    (release : released = gone.elim (tree.modify p change) (tree.modify p change).release) :
    tree.Exchanged (here.elim released (released.adopt · p)) p gone here := by
  have forest := kept.toForest
  have mid := forest.rewired rewired fun h member => exchange.fits member
  have start : tree.Moved (tree.modify p change) p none none := (Moved.start tree p).modify inner
  have alike : (tree.modify p change).Alike released := by
    subst release
    cases gone with
    | none => exact Alike.refl _
    | some old => exact Alike.release _ old
  have moved : tree.Moved released p gone none := by
    subst release
    cases gone with
    | none => exact start
    | some old =>
      refine start.release mid (exchange.notRoot_of_mem kept rfl) (fun x => ?_) fun h member =>
        absurd member (Option.not_mem_none h)
      exact below_congr rewired.elsewhere (exchange.not_below forest rfl)
  cases here with
  | none => exact ⟨exchange, alike.rewired rewired, moved⟩
  | some new =>
    have fits := exchange.fits rfl
    refine ⟨exchange, (alike.trans (Alike.adopt _ new p)).rewired rewired,
      moved.adopt (alike.forest mid) (alike.made.2 (rewired.made.2 fits.made)) fits.loose
        (fun x => ?_) (fun {q x} below => ?_) fun g member x below => ?_⟩
    · rw [alike.below]
      exact below_congr rewired.elsewhere fits.apart
    · rw [alike.owns, Owns, rewired.elsewhere fun same => fits.apart (same ▸ below)]
      exact Iff.rfl
    · exact exchange.apart forest member rfl below

/-- The tables change first, then the contents of the receiver. -/
theorem exchanged_before (exchange : tree.Exchange p gone here)
    (inner : Cell.Inner change) {adopted released : Tree}
    (adopt : adopted = here.elim tree (tree.adopt · p))
    (release : released = gone.elim adopted adopted.release)
    (rewired : tree.Rewired (released.modify p change) p gone here) :
    tree.Exchanged (released.modify p change) p gone here := by
  have forest := kept.toForest
  have alike : tree.Alike adopted := by
    subst adopt
    cases here with
    | none => exact Alike.refl tree
    | some new => exact Alike.adopt tree new p
  have moved : tree.Moved adopted p none here := by
    subst adopt
    cases here with
    | none => exact Moved.start tree p
    | some new =>
      have fits := exchange.fits rfl
      exact (Moved.start tree p).adopt forest fits.made fits.loose (fun _ => Iff.rfl)
        (fun _ => Iff.rfl) fun g member => absurd member (Option.not_mem_none g)
  have movedToo : tree.Moved released p gone here := by
    subst release
    cases gone with
    | none => exact moved
    | some old =>
      refine moved.release (alike.forest forest) (exchange.notRoot_of_mem kept rfl) (fun x => ?_)
        fun h member x below => exchange.apart forest rfl member below
      rw [alike.below]
  exact ⟨exchange, rewired, movedToo.modify inner⟩

/-! ### Effects -/

/-- Only the root is another one. -/
theorem withRoot (inside : tree.contains x) (loose : tree.Loose x) :
    Kept { tree with root := some x } where
  made := kept.made
  distinct := kept.distinct
  owner := kept.owner
  acyclic := kept.acyclic
  down := kept.down
  absent := kept.absent
  owned := kept.owned
  free := kept.free
  root_stored isRoot := by
    obtain rfl := Option.some.inj isRoot
    exact ⟨inside, loose⟩

theorem setRoot? (inside : tree.contains x) (passed : tree.setRoot? x = some other) :
    other.Kept := by
  obtain ⟨free, rfl⟩ := setRoot?_eq_some.1 passed
  exact kept.withRoot inside fun p owns => free p (kept.owned inside owns)

variable (made : tree.Made p)
include made

theorem insertChild (fits : tree.Attachable p child) (notRoot : tree.root ≠ some child)
    (inside : place ≤ (tree.children p).length) :
    tree.Exchanged (tree.insertChild p child place) p none (some child) := by
  have exchange : tree.Exchange p none (some child) :=
    ⟨fun member => absurd member (Option.not_mem_none _),
      fun member => Option.some.inj member ▸ fits, fun member => Option.some.inj member ▸ notRoot⟩
  have rewired : tree.Rewired
      (tree.storeChildren p ((tree.children p).insertIdx place child)) p none (some child) := by
    refine Rewired.of_perm kept.toForest (fun _ => made_modify (Cell.inner_children _))
      (directNodes_modify_of_ne (Cell.inner_children _)) (List.Perm.refl _) ?_
      fun h member => Option.some.inj member ▸ fits.loose
    rw [directNodes_storeChildren made]
    exact ((List.perm_insertIdx child _ inside).append_left _).trans List.perm_middle
  exact kept.exchanged_after exchange (Cell.inner_children _) rewired rfl

theorem eraseChild (found : (tree.children p)[place]? = some child) :
    tree.Exchanged (tree.eraseChild p child place) p (some child) none := by
  obtain ⟨inside, here⟩ := List.getElem?_eq_some_iff.1 found
  have perm := List.getElem_cons_eraseIdx_perm inside
  rw [here] at perm
  have owned : tree.Owns p child := owns_child (List.mem_of_getElem? found)
  have exchange : tree.Exchange p (some child) none :=
    ⟨fun member => Option.some.inj member ▸ owned,
      fun member => absurd member (Option.not_mem_none _),
      fun member => absurd member (Option.not_mem_none _)⟩
  have rewired : tree.Rewired
      (tree.storeChildren p ((tree.children p).eraseIdx place)) p (some child) none := by
    refine Rewired.of_perm kept.toForest (fun _ => made_modify (Cell.inner_children _))
      (directNodes_modify_of_ne (Cell.inner_children _))
      ((perm.symm.append_left _).trans List.perm_middle) (List.Perm.of_eq ?_)
      fun h member => absurd member (Option.not_mem_none h)
    exact directNodes_storeChildren made _
  exact kept.exchanged_after exchange (Cell.inner_children _) rewired rfl

theorem exchangeChild (found : (tree.children p)[place]? = some old)
    (fits : tree.Attachable p new) (notRoot : tree.root ≠ some new) :
    tree.Exchanged (tree.exchangeChild p old new place) p (some old) (some new) := by
  obtain ⟨inside, here⟩ := List.getElem?_eq_some_iff.1 found
  have perm := List.getElem_cons_eraseIdx_perm inside
  rw [here] at perm
  have owned : tree.Owns p old := owns_child (List.mem_of_getElem? found)
  have exchange : tree.Exchange p (some old) (some new) :=
    ⟨fun member => Option.some.inj member ▸ owned,
      fun member => Option.some.inj member ▸ fits, fun member => Option.some.inj member ▸ notRoot⟩
  have rewired : tree.Rewired
      (tree.storeChildren p ((tree.children p).set place new)) p (some old) (some new) := by
    refine Rewired.of_perm kept.toForest (fun _ => made_modify (Cell.inner_children _))
      (directNodes_modify_of_ne (Cell.inner_children _))
      ((perm.symm.append_left _).trans List.perm_middle) ?_
      fun h member => Option.some.inj member ▸ fits.loose
    rw [directNodes_storeChildren made]
    exact ((List.set_perm_cons_eraseIdx inside new).append_left _).trans List.perm_middle
  exact kept.exchanged_after exchange (Cell.inner_children _) rewired rfl

theorem exchangeCondition (fits : tree.Attachable p new) (notRoot : tree.root ≠ some new) :
    tree.Exchanged ((tree.exchangeCondition (tree.condition? p) p new).storeCondition p (.holds new)) p
      (tree.condition? p) (some new) := by
  have exchange : tree.Exchange p (tree.condition? p) (some new) :=
    ⟨owns_condition, fun member => Option.some.inj member ▸ fits,
      fun member => Option.some.inj member ▸ notRoot⟩
  have alike := Alike.exchangeCondition tree (tree.condition? p) p new
  have owned : ((tree.exchangeCondition (tree.condition? p) p new).storeCondition p
      (.holds new)).directNodes p = (some new).toList ++ tree.children p := by
    rw [directNodes_storeCondition (alike.made.2 made), alike.children]
    rfl
  refine kept.exchanged_before exchange (Cell.inner_condition _) rfl ?_
    (Rewired.of_perm kept.toForest
      (fun _ => (made_modify (Cell.inner_condition _)).trans alike.made)
      (fun away => (directNodes_modify_of_ne (Cell.inner_condition _) away).trans alike.directNodes)
      (List.Perm.refl _) (List.Perm.of_eq owned) fun h member => Option.some.inj member ▸ fits.loose)
  unfold Tree.exchangeCondition
  cases tree.condition? p <;> rfl

theorem eraseCondition :
    tree.Exchanged (((tree.condition? p).elim tree tree.release).storeCondition p .emptied) p
      (tree.condition? p) none := by
  have exchange : tree.Exchange p (tree.condition? p) none :=
    ⟨owns_condition, fun member => absurd member (Option.not_mem_none _),
      fun member => absurd member (Option.not_mem_none _)⟩
  have alike : tree.Alike ((tree.condition? p).elim tree tree.release) := by
    cases tree.condition? p with
    | none => exact Alike.refl tree
    | some old => exact Alike.release tree old
  have owned : (((tree.condition? p).elim tree tree.release).storeCondition p
      .emptied).directNodes p = (none : Option NodeId).toList ++ tree.children p := by
    rw [directNodes_storeCondition (alike.made.2 made), alike.children]
    rfl
  exact kept.exchanged_before exchange (Cell.inner_condition _) rfl rfl
    (Rewired.of_perm kept.toForest
      (fun _ => (made_modify (Cell.inner_condition _)).trans alike.made)
      (fun away => (directNodes_modify_of_ne (Cell.inner_condition _) away).trans alike.directNodes)
      (List.Perm.refl _) (List.Perm.of_eq owned)
      fun h member => absurd member (Option.not_mem_none h))

omit made in
/-- A change that leaves what the nodes own. -/
theorem changed (inner : Cell.Inner change)
    (same : ∀ q, (tree.modify p change).directNodes q = tree.directNodes q) :
    tree.Exchanged (tree.modify p change) p none none := by
  have exchange : tree.Exchange p none none :=
    ⟨fun member => absurd member (Option.not_mem_none _),
      fun member => absurd member (Option.not_mem_none _),
      fun member => absurd member (Option.not_mem_none _)⟩
  have rewired : tree.Rewired (tree.modify p change) p none none :=
    Rewired.of_perm kept.toForest (fun _ => made_modify inner) (directNodes_modify_of_ne inner)
      (List.Perm.refl _) (List.Perm.of_eq (same p)) fun h member => absurd member (Option.not_mem_none h)
  exact kept.exchanged_after exchange inner rewired rfl

omit made in
theorem storeAttribute (name : String) (value : Json) :
    tree.Exchanged (tree.storeAttribute p name value) p none none :=
  kept.changed (Cell.inner_attributes name value) fun _ => directNodes_storeAttribute

omit made in
theorem storeGaps (gaps : Gaps) : tree.Exchanged (tree.storeGaps p gaps) p none none :=
  kept.changed (Cell.inner_gaps gaps) fun _ => directNodes_storeGaps

/-! ### Edits -/

omit made in
theorem setAttribute (name : String) (value : Json) :
    tree.Touched (tree.setAttribute p name value).1 p .nothing := by
  obtain ⟨cause, -, same⟩ | ⟨-, same⟩ := setAttribute_cases tree p name value <;> rw [same]
  · exact kept.untouched p _
  · exact ⟨none, none, kept.storeAttribute name value, nofun⟩

theorem removeChild (candidate : Candidate) :
    tree.Touched (tree.removeChild p candidate).1 p .nothing := by
  obtain ⟨refusal, -, same⟩ | ⟨child, place, checked, same⟩ := removeChild_cases tree p candidate <;>
    rw [same]
  · exact kept.untouched p _
  · obtain ⟨-, somewhere, -⟩ := checkRemoveChild_eq_ok.1 checked
    exact ⟨_, none, kept.eraseChild made (getElem?_of_position? somewhere), nofun⟩

section

variable {candidate : Candidate} (fits : ∀ new, tree.linkRefusal? p candidate = .ok new →
  tree.Attachable p new ∧ tree.root ≠ some new)
include fits

theorem addChild (index : Option Int) :
    tree.Touched (tree.addChild p candidate index).1 p candidate := by
  obtain ⟨cause, -, same⟩ | ⟨child, place, checked, same⟩ := addChild_cases tree p candidate index <;>
    rw [same]
  · exact kept.untouched p _
  · obtain ⟨attached, -, inside, -⟩ := checkAddChild_eq_ok.1 checked
    have linked := (attachRefusal?_eq_ok.1 attached).1
    obtain ⟨fits, notRoot⟩ := fits _ linked
    exact ⟨none, _, kept.insertChild made fits notRoot (newPlace_le inside),
      own_of_linkRefusal? linked⟩

theorem replaceChild (oldCandidate : Candidate) :
    tree.Touched (tree.replaceChild p oldCandidate candidate).1 p candidate := by
  obtain ⟨refusal, -, same⟩ | ⟨old, new, place, checked, same⟩ :=
    replaceChild_cases tree p oldCandidate candidate <;> rw [same]
  · exact kept.untouched p _
  · obtain ⟨-, somewhere, attached, -⟩ := checkReplaceChild_eq_ok.1 checked
    have linked := (attachRefusal?_eq_ok.1 attached).1
    obtain ⟨fits, notRoot⟩ := fits _ linked
    exact ⟨_, _, kept.exchangeChild made (getElem?_of_position? somewhere) fits notRoot,
      own_of_linkRefusal? linked⟩

theorem setCondition : tree.Touched (tree.setCondition p candidate).1 p candidate := by
  obtain same | ⟨cause, -, same⟩ | ⟨new, checked, same⟩ := setCondition_cases tree p candidate <;>
    rw [same]
  · exact kept.untouched p _
  · exact kept.untouched p _
  · have linked := (checkCondition_eq_ok.1 checked).1
    obtain ⟨fits, notRoot⟩ := fits _ linked
    exact ⟨_, _, kept.exchangeCondition made fits notRoot, own_of_linkRefusal? linked⟩

end

end Kept

namespace Sound

variable (sound : tree.Sound) (stored : tree.contains p)
include sound stored

theorem touched {inserted : Candidate} (touched : tree.Touched other p inserted) :
    other.Sound := by
  obtain ⟨gone, here, exchanged, -⟩ := touched
  exact sound.exchanged (fun _ _ => stored) exchanged

omit stored in
theorem storeAttribute (name : String) (value : Json) :
    (tree.storeAttribute p name value).Sound :=
  sound.exchanged (fun _ member => absurd member (Option.not_mem_none _))
    (sound.kept.storeAttribute name value)

omit stored in
theorem storeGaps (gaps : Gaps) : (tree.storeGaps p gaps).Sound :=
  sound.exchanged (fun _ member => absurd member (Option.not_mem_none _))
    (sound.kept.storeGaps gaps)

/-- What was handed over can be put below the receiver if it passes the check of its link. -/
theorem attachable_of_usable {candidate : Candidate} (usable : candidate.Usable tree)
    (passed : tree.linkRefusal? p candidate = .ok new) :
    tree.Attachable p new ∧ tree.root ≠ some new := by
  obtain ⟨rfl, -, notRoot, -⟩ := linkRefusal?_eq_ok.1 passed
  obtain inside | ⟨made, loose⟩ := usable
  · exact ⟨sound.attachable stored (made_of_contains inside) (.inl inside) passed, notRoot⟩
  · exact ⟨sound.attachable stored made (.inr loose) passed, notRoot⟩

theorem setAttribute (name : String) (value : Json) : (tree.setAttribute p name value).1.Sound :=
  sound.touched stored (sound.kept.setAttribute name value)

theorem addChild {candidate : Candidate} (usable : candidate.Usable tree) (index : Option Int) :
    (tree.addChild p candidate index).1.Sound :=
  sound.touched stored (sound.kept.addChild (made_of_contains stored)
    (fun _ => sound.attachable_of_usable stored usable) index)

theorem removeChild (candidate : Candidate) : (tree.removeChild p candidate).1.Sound :=
  sound.touched stored (sound.kept.removeChild (made_of_contains stored) candidate)

theorem replaceChild (oldCandidate : Candidate) {candidate : Candidate}
    (usable : candidate.Usable tree) : (tree.replaceChild p oldCandidate candidate).1.Sound :=
  sound.touched stored (sound.kept.replaceChild (made_of_contains stored)
    (fun _ => sound.attachable_of_usable stored usable) oldCandidate)

theorem setCondition {candidate : Candidate} (usable : candidate.Usable tree) :
    (tree.setCondition p candidate).1.Sound :=
  sound.touched stored (sound.kept.setCondition (made_of_contains stored)
    fun _ => sound.attachable_of_usable stored usable)

theorem setConditionText (text : String) : (tree.setConditionText p text).1.Sound := by
  obtain ⟨e, -, same⟩ | ⟨node, failure, -, -, same⟩ | ⟨node, condition, -, built, same⟩ :=
    setConditionText_cases tree p text <;> rw [same]
  · exact sound
  · exact sound.build node.toRaw
  · obtain ⟨planted, -, grown, rfl⟩ := build_eq_ok built
    rw [grown]
    exact (sound.plant planted).setCondition ((grown_plant tree planted).contains stored)
      (.inl (sound.planted planted).1)

omit stored in
/-- Only the root is another one. -/
theorem withRoot (inside : tree.contains x) (loose : tree.Loose x) :
    Sound { tree with root := some x } :=
  (sound.kept.withRoot inside loose).sound fun owns => (sound.together owns).1

omit stored in
theorem setRoot? (inside : tree.contains x) (passed : tree.setRoot? x = some other) :
    other.Sound := by
  obtain ⟨free, rfl⟩ := setRoot?_eq_some.1 passed
  exact sound.withRoot inside fun p owns => free p (sound.owned inside owns)

end Sound

end Tree

end Verbatim
