import Verbatim.Proofs.Tree.Forest

/-!
# Trees whose tables agree

The store and the links are kept beside what the nodes hold. They agree where a node and its owner
are in the store together, and where every node in the store is linked to its owner, or to nothing
if it has none. Then walking up along the links is the way back of walking down, so that it finds
all nodes above a node, and every node has a path.

## Main definitions

* `Tree.Top`: a node in the store that nobody owns
* `Tree.Sound`: a forest whose store, links and root agree with it

## Main results

* `Tree.Sound.parent?_eq_some`: the parent of a node is its owner
* `Tree.Sound.mem_lineage`: **the lineage of a node is all that lies above it**
* `Tree.Sound.path_ok`: every node has a path
* `Tree.Sound.linkRefusal?_eq_ok`: what can be linked below a node
-/

namespace Verbatim

namespace Tree

open Relation

variable {tree other : Tree} {id x p q : NodeId}

/-- A node in the store that nobody owns. -/
def Top (tree : Tree) (x : NodeId) : Prop :=
  tree.contains x ∧ tree.Loose x

/-- A forest whose store, links and root agree with what the nodes own. -/
structure Sound (tree : Tree) : Prop extends Forest tree where
  together : ∀ {p x}, tree.Owns p x → (tree.contains x ↔ tree.contains p)
  absent : ∀ {x}, ¬ tree.contains x → tree.link x = .missing
  owned : ∀ {p x}, tree.contains x → tree.Owns p x → tree.link x = .under p
  free : ∀ {x}, tree.contains x → tree.Loose x → tree.link x = .top
  root_stored : ∀ {x}, tree.root = some x → tree.Top x

/-- The tables agree with the owners of the nodes in the store. Nodes that left the store may own
nodes that did not. -/
structure Kept (tree : Tree) : Prop extends Forest tree where
  down : ∀ {p x}, tree.Owns p x → tree.contains p → tree.contains x
  absent : ∀ {x}, ¬ tree.contains x → tree.link x = .missing
  owned : ∀ {p x}, tree.contains x → tree.Owns p x → tree.link x = .under p
  free : ∀ {x}, tree.contains x → tree.Loose x → tree.link x = .top
  root_stored : ∀ {x}, tree.root = some x → tree.Top x

theorem Sound.kept (sound : tree.Sound) : tree.Kept :=
  { sound with down := fun owns => (sound.together owns).2 }

theorem Kept.sound (kept : tree.Kept)
    (up : ∀ {p x}, tree.Owns p x → tree.contains x → tree.contains p) : tree.Sound :=
  { kept with together := fun owns => ⟨up owns, kept.down owns⟩ }

theorem made_of_contains (stored : tree.contains x) : tree.Made x := by
  unfold contains at stored
  split at stored
  · exact ⟨_, ‹_›⟩
  · contradiction

/-- A child is somewhere among the children. -/
theorem exists_position? (member : x ∈ tree.children p) :
    ∃ place, tree.position? p x = some place := by
  rw [← Option.isSome_iff_exists, position?, List.findIdx?_isSome, List.any_eq_true]
  exact ⟨x, member, decide_eq_true rfl⟩

theorem getElem?_of_position? {place : Nat} (found : tree.position? p x = some place) :
    (tree.children p)[place]? = some x := by
  obtain ⟨inside, passes, -⟩ := List.findIdx?_eq_some_iff_getElem.1 found
  rw [List.getElem?_eq_getElem inside, of_decide_eq_true passes]

/-- Walking up does not fail where parents are owners. -/
theorem pathWithin_ok (owned : ∀ {p x}, tree.parent? x = some p → tree.Owns p x) (steps : Nat)
    (id : NodeId) (path : Path) : ∃ found, tree.pathWithin steps id path = .ok found := by
  induction steps generalizing id path with
  | zero => exact ⟨path, rfl⟩
  | succ steps ih =>
    rw [pathWithin]
    cases above : tree.parent? id with
    | none => exact ⟨path, rfl⟩
    | some p =>
      by_cases slot : tree.isConditionOf id p
      · simp only [slot, if_true]
        exact ih p _
      · have child : id ∈ tree.children p := by
          refine (List.mem_append.1 (owned above)).resolve_left fun member => slot ?_
          exact decide_eq_true (Option.mem_toList.1 member)
        obtain ⟨place, found⟩ := exists_position? child
        simp only [slot, found]
        exact ih p _

namespace Sound

/-! ### Owners and parents -/

theorem loose_or_owned (tree : Tree) (x : NodeId) : tree.Loose x ∨ ∃ p, tree.Owns p x := by
  by_cases owned : ∃ p, tree.Owns p x
  · exact .inr owned
  · exact .inl fun p owns => owned ⟨p, owns⟩

section

variable (sound : tree.Sound)
include sound

/-- The nodes in the store are those among the links. -/
theorem contains_iff : tree.contains x ↔ tree.link x ≠ .missing := by
  refine ⟨fun stored missing => ?_, fun linked => ?_⟩
  · obtain loose | ⟨p, owns⟩ := loose_or_owned tree x
    · exact Link.noConfusion ((sound.free stored loose).symm.trans missing)
    · exact Link.noConfusion ((sound.owned stored owns).symm.trans missing)
  · by_contra gone
    exact linked (sound.absent gone)

theorem owns_of_link (linked : tree.link x = .under p) : tree.contains x ∧ tree.Owns p x := by
  have stored : tree.contains x := sound.contains_iff.2 (by rw [linked]; exact Link.noConfusion)
  refine ⟨stored, ?_⟩
  obtain loose | ⟨owner, owns⟩ := loose_or_owned tree x
  · exact Link.noConfusion (linked.symm.trans (sound.free stored loose))
  · obtain rfl := Link.under.inj (linked.symm.trans (sound.owned stored owns))
    exact owns

/-- The parent of a node is its owner. -/
theorem parent?_eq_some : tree.parent? x = some p ↔ tree.contains x ∧ tree.Owns p x := by
  constructor
  · intro found
    unfold parent? at found
    split at found
    · rename_i owner linked
      split at found
      · obtain rfl := Option.some.inj found
        exact sound.owns_of_link linked
      · contradiction
    · contradiction
  · rintro ⟨stored, owns⟩
    have above := (sound.together owns).1 stored
    rw [parent?, sound.owned stored owns]
    exact if_pos above

theorem parent?_eq_none (stored : tree.contains x) : tree.parent? x = none ↔ tree.Loose x := by
  constructor
  · intro top p owns
    rw [sound.parent?_eq_some.2 ⟨stored, owns⟩] at top
    exact absurd top (Option.some_ne_none p)
  · intro loose
    rw [parent?, sound.free stored loose]

/-- A node is in the store where what is below it is. -/
theorem contains_below (below : tree.Below p x) : tree.contains x ↔ tree.contains p := by
  induction below with
  | refl => exact Iff.rfl
  | tail _ owns ih => exact (sound.together owns).trans ih

/-- Every node in the store is below one at the top. -/
theorem exists_top (stored : tree.contains x) : ∃ top, tree.Top top ∧ tree.Below top x := by
  induction steps : tree.depth x using Nat.strong_induction_on generalizing x with
  | _ steps ih =>
    obtain loose | ⟨p, owns⟩ := loose_or_owned tree x
    · exact ⟨x, ⟨stored, loose⟩, .refl⟩
    · have fewer := sound.depth_lt owns
      obtain ⟨top, isTop, below⟩ := ih _ (by omega) ((sound.together owns).1 stored) rfl
      exact ⟨top, isTop, below.tail owns⟩

/-! ### Walking up -/

theorem mem_lineageWithin {steps : Nat} (stored : tree.contains id) (enough : tree.depth id ≤ steps) :
    x ∈ tree.lineageWithin steps id ↔ tree.Below x id := by
  induction steps generalizing id with
  | zero =>
    rw [lineageWithin, List.mem_singleton]
    refine ⟨fun same => same ▸ .refl, fun below => ?_⟩
    obtain same | ⟨owner, -, owns⟩ := below.cases_owner
    · exact same.symm
    · have := sound.depth_lt owns
      omega
  | succ steps ih =>
    rw [lineageWithin]
    cases found : tree.parent? id with
    | none =>
      have loose := (sound.parent?_eq_none stored).1 found
      rw [List.mem_singleton]
      refine ⟨fun same => same ▸ .refl, fun below => ?_⟩
      obtain same | ⟨owner, -, owns⟩ := below.cases_owner
      · exact same.symm
      · exact absurd owns (loose owner)
    | some p =>
      obtain ⟨-, owns⟩ := sound.parent?_eq_some.1 found
      have lower := sound.depth_lt owns
      rw [List.mem_cons, ih ((sound.together owns).1 stored) (by omega)]
      constructor
      · rintro (rfl | above)
        · exact .refl
        · exact above.tail owns
      · intro below
        obtain same | ⟨owner, above, ownsToo⟩ := below.cases_owner
        · exact .inl same.symm
        · rw [sound.owner ownsToo owns] at above
          exact .inr above

/-- **The lineage of a node is all that lies above it.** -/
theorem mem_lineage (stored : tree.contains id) : x ∈ tree.lineage id ↔ tree.Below x id :=
  sound.mem_lineageWithin stored (tree.depth_le id)

/-- Every node has a path. -/
theorem path_ok (id : NodeId) : ∃ path, tree.path id = .ok path :=
  pathWithin_ok (fun above => (sound.parent?_eq_some.1 above).2) _ id []

end

end Sound

namespace Kept

section

variable (kept : tree.Kept)
include kept

theorem contains_below (below : tree.Below p x) (stored : tree.contains p) : tree.contains x := by
  induction below with
  | refl => exact stored
  | tail _ owns ih => exact kept.down owns ih

/-- The lineage of a node has all nodes in the store that lie above it. -/
theorem mem_lineageWithin {steps : Nat} (stored : tree.contains x) (below : tree.Below x id)
    (enough : tree.depth id ≤ steps) : x ∈ tree.lineageWithin steps id := by
  induction steps generalizing id with
  | zero =>
    obtain same | ⟨owner, -, owns⟩ := below.cases_owner
    · exact List.mem_singleton.2 same.symm
    · have := kept.depth_lt owns
      omega
  | succ steps ih =>
    rw [lineageWithin]
    obtain rfl | ⟨owner, above, owns⟩ := below.cases_owner
    · split
      · exact List.mem_singleton_self _
      · exact List.mem_cons_self
    · have lower := kept.depth_lt owns
      have found : tree.parent? id = some owner := by
        rw [parent?, kept.owned (kept.contains_below below stored) owns]
        exact if_pos (kept.contains_below above stored)
      rw [found]
      exact List.mem_cons_of_mem _ (ih above (by omega))

end

end Kept

/-! ### Attaching -/

/-- What passes the check of a link. -/
theorem linkRefusal?_eq_ok {receiver node : NodeId} {candidate : Candidate} :
    tree.linkRefusal? receiver candidate = .ok node ↔ candidate = .own node ∧
      tree.parent? node = none ∧ tree.root ≠ some node ∧ node ∉ tree.lineage receiver := by
  unfold linkRefusal?
  cases candidate with
  | nothing | value | foreign => simp
  | own other =>
    simp only [Candidate.own.injEq]
    cases above : tree.parent? other with
    | some owner =>
      simp only [reduceCtorEq, false_iff]
      rintro ⟨rfl, top, -⟩
      exact absurd (above.symm.trans top) (Option.some_ne_none owner)
    | none =>
      by_cases isRoot : tree.root = some other
      · simp only [isRoot, if_true, reduceCtorEq, false_iff]
        rintro ⟨rfl, -, notRoot, -⟩
        exact notRoot rfl
      · by_cases member : other ∈ tree.lineage receiver
        · simp only [isRoot, List.contains_iff_mem.2 member, if_false, if_true, reduceCtorEq,
            false_iff]
          rintro ⟨rfl, -, -, apart⟩
          exact apart member
        · simp only [isRoot, member, List.contains_iff_mem, if_false, Except.ok.injEq]
          constructor
          · rintro rfl
            exact ⟨rfl, above, isRoot, member⟩
          · rintro ⟨rfl, -⟩
            rfl

namespace Sound

/-- A node that passes the check of a link can be put below the receiver. -/
theorem attachable (sound : tree.Sound) {receiver node : NodeId} {candidate : Candidate}
    (stored : tree.contains receiver) (made : tree.Made node)
    (available : tree.contains node ∨ tree.Loose node)
    (passed : tree.linkRefusal? receiver candidate = .ok node) : tree.Attachable receiver node := by
  obtain ⟨-, top, -, apart⟩ := linkRefusal?_eq_ok.1 passed
  refine ⟨made, ?_, fun below => apart ((sound.mem_lineage stored).2 below)⟩
  exact available.elim (fun inside => (sound.parent?_eq_none inside).1 top) fun loose => loose

/-- What can be put below a node passes the check of a link, unless it is the root. -/
theorem linkRefusal?_own (sound : tree.Sound) {receiver node : NodeId}
    (stored : tree.contains receiver) (attachable : tree.Attachable receiver node)
    (notRoot : tree.root ≠ some node) : tree.linkRefusal? receiver (.own node) = .ok node := by
  refine linkRefusal?_eq_ok.2 ⟨rfl, ?_, notRoot, fun member =>
    attachable.apart ((sound.mem_lineage stored).1 member)⟩
  by_contra above
  obtain ⟨p, found⟩ := Option.ne_none_iff_exists'.1 above
  exact attachable.loose p (sound.parent?_eq_some.1 found).2

end Sound

end Tree

end Verbatim
