import Verbatim.Proofs.Tree.Moves

/-!
# Exchanges

An edit lets one node own other nodes than before: a subtree may go, and another may come. In the
tables this is a release and an adoption, in the one order or the other. Where the tables agreed with
the owners before, they do so again once both are done; between the two they need not.

## Main definitions

* `Tree.Moved`: one subtree may have left the store, and another may have come below a node
* `Tree.Exchange`: what may go and what may come
* `Tree.Exchanged`: it did, in what the nodes own and in the tables

## Main results

* `Tree.Moved.release`, `Tree.Moved.adopt`: one more move
* `Tree.Moved.contains_iff`: what is in the store after an exchange
* `Tree.Exchanged.top_iff`: which nodes are at the top after an exchange
* `Tree.Kept.exchanged`, `Tree.Sound.exchanged`: **tables that were moved along with the owners agree
  with them**
-/

namespace Verbatim

namespace Tree

variable {tree other now after : Tree} {id x p q : NodeId} {change : Cell → Cell}

/-! ### One subtree for another -/

/-- Beside a tree that was moved to from another one: the subtree of a node that is gone left the
store, the one of a node that is here came below `p`, and nothing else moved. -/
structure Moved (tree now : Tree) (p : NodeId) (gone here : Option NodeId) : Prop where
  root : now.root = tree.root
  dropped : ∀ {g x}, g ∈ gone → tree.Below g x → ¬ now.contains x ∧ now.link x = .missing
  adopted : ∀ {h}, h ∈ here → now.contains h ∧ now.link h = .under p
  restored : ∀ {h x}, h ∈ here → ¬ tree.contains h → tree.Below h x → now.contains x ∧
    ∀ {q}, tree.Below h q → tree.Owns q x → now.link x = .under q
  kept : ∀ {x}, (∀ g ∈ gone, ¬ tree.Below g x) → x ∉ here →
    (∀ h ∈ here, ¬ tree.contains h → ¬ tree.Below h x) →
      now.contains x = tree.contains x ∧ now.link x = tree.link x

theorem Moved.start (tree : Tree) (p : NodeId) : tree.Moved tree p none none :=
  ⟨rfl, fun member => absurd member (Option.not_mem_none _),
    fun member => absurd member (Option.not_mem_none _),
    fun member => absurd member (Option.not_mem_none _), fun _ _ _ => ⟨rfl, rfl⟩⟩

namespace Moved

variable {gone here : Option NodeId} {old new : NodeId}

theorem of_tables (moved : tree.Moved now p gone here) (root : after.root = now.root)
    (same : ∀ x, after.contains x = now.contains x ∧ after.link x = now.link x) :
    tree.Moved after p gone here where
  root := root.trans moved.root
  dropped member below := by
    rw [(same _).1, (same _).2]
    exact moved.dropped member below
  adopted member := by
    rw [(same _).1, (same _).2]
    exact moved.adopted member
  restored member dropped below := by
    rw [(same _).1]
    refine ⟨(moved.restored member dropped below).1, fun belowToo owns => ?_⟩
    rw [(same _).2]
    exact (moved.restored member dropped below).2 belowToo owns
  kept notGone notHere notBelow := by
    rw [(same _).1, (same _).2]
    exact moved.kept notGone notHere notBelow

/-- A change of contents moves nothing. -/
theorem modify (moved : tree.Moved now p gone here) (inner : Cell.Inner change) :
    tree.Moved (now.modify id change) p gone here :=
  moved.of_tables root_modify fun _ => tables_modify inner

/-- A subtree leaves. -/
theorem release (moved : tree.Moved now p none here) (forest : now.Forest)
    (notRoot : tree.root ≠ some old) (same : ∀ x, now.Below old x ↔ tree.Below old x)
    (apart : ∀ h ∈ here, ∀ x, tree.Below old x → ¬ tree.Below h x) :
    tree.Moved (now.release old) p (some old) here := by
  have inside (x : NodeId) : x ∈ now.subtree old ↔ tree.Below old x :=
    forest.mem_subtree.trans (same x)
  have outside {x : NodeId} (away : ¬ tree.Below old x) :
      (now.release old).contains x = now.contains x ∧ (now.release old).link x = now.link x := by
    rw [← inside] at away
    refine ⟨Bool.eq_iff_iff.2 ?_, by rw [link_release, if_neg away]⟩
    rw [contains_release]
    exact and_iff_left away
  refine ⟨(root_release (moved.root ▸ notRoot)).trans moved.root, fun member below => ?_,
    fun member => ?_, fun member dropped below => ?_, fun notGone notHere notBelow => ?_⟩
  · obtain rfl := Option.some.inj member
    rw [contains_release, link_release, if_pos ((inside _).2 below)]
    exact ⟨fun stored => stored.2 ((inside _).2 below), rfl⟩
  · have away := fun below => apart _ member _ below .refl
    rw [(outside away).1, (outside away).2]
    exact moved.adopted member
  · have away := fun gone => apart _ member _ gone below
    rw [(outside away).1, (outside away).2]
    exact moved.restored member dropped below
  · have away := notGone old rfl
    rw [(outside away).1, (outside away).2]
    exact moved.kept (fun g member => absurd member (Option.not_mem_none g)) notHere notBelow

/-- A subtree comes below a node. -/
theorem adopt (moved : tree.Moved now p gone none) (forest : now.Forest) (made : now.Made new)
    (loose : tree.Loose new) (same : ∀ x, now.Below new x ↔ tree.Below new x)
    (owns : ∀ {q x}, tree.Below new q → (now.Owns q x ↔ tree.Owns q x))
    (apart : ∀ g ∈ gone, ∀ x, tree.Below g x → ¬ tree.Below new x) :
    tree.Moved (now.adopt new p) p gone (some new) := by
  have stays : now.contains new = tree.contains new :=
    (moved.kept (fun g member below => apart g member _ below .refl) (Option.not_mem_none _)
      (fun h member => absurd member (Option.not_mem_none h))).1
  have notGone {x : NodeId} (below : tree.Below new x) : ∀ g ∈ gone, ¬ tree.Below g x :=
    fun g member gone => apart g member x gone below
  have untouched {x : NodeId} (away : ∀ g ∈ gone, ¬ tree.Below g x) :
      now.contains x = tree.contains x ∧ now.link x = tree.link x :=
    moved.kept away (Option.not_mem_none _) fun h member => absurd member (Option.not_mem_none h)
  have linked {tree : Tree} {x : NodeId} (other : x ≠ new) :
      (tree.setLink new (.under p)).link x = tree.link x :=
    link_congr (by rw [cell?_setLink, if_neg other])
  have root := (root_adopt now new p).trans moved.root
  rw [Tree.adopt] at root ⊢
  by_cases stored : tree.contains new
  · rw [if_pos (stays.trans stored)] at root ⊢
    refine ⟨root, fun member below => ?_, fun member => ?_,
      fun member dropped => ?_, fun away notHere _ => ?_⟩
    · rw [contains_setLink, linked (fun same => apart _ member _ below (same ▸ .refl))]
      exact moved.dropped member below
    · obtain rfl := Option.some.inj member
      rw [contains_setLink, link_setLink made]
      exact ⟨stays.trans stored, rfl⟩
    · obtain rfl := Option.some.inj member
      exact absurd stored dropped
    · rw [contains_setLink, linked fun same => notHere (same ▸ rfl)]
      exact untouched away
  · have back := forest.restored (Alike.refl now) made
    have madeBack : (now.restore new).Made new := (Alike.restoreWithin _ now new).made.2 made
    rw [stays, if_neg stored] at root ⊢
    refine ⟨root, fun member below => ?_, fun member => ?_, fun member _ below => ?_,
      fun away notHere notBelow => ?_⟩
    · have outside := mt (same _).1 (apart _ member _ below)
      rw [contains_setLink, contains_congr (back.elsewhere outside),
        linked (fun same => apart _ member _ below (same ▸ .refl)),
        link_congr (back.elsewhere outside)]
      exact moved.dropped member below
    · obtain rfl := Option.some.inj member
      rw [contains_setLink, link_setLink madeBack]
      exact ⟨back.stored .refl, rfl⟩
    · obtain rfl := Option.some.inj member
      rw [contains_setLink]
      refine ⟨back.stored ((same _).2 below), fun belowToo ownsX => ?_⟩
      rw [linked]
      · exact back.linked ((same _).2 belowToo) ((owns belowToo).2 ownsX)
      · rintro rfl
        exact loose _ ownsX
    · have outside := mt (same _).1 (notBelow new rfl stored)
      rw [contains_setLink, contains_congr (back.elsewhere outside),
        linked fun same => notHere (same ▸ rfl), link_congr (back.elsewhere outside)]
      exact untouched away

end Moved

/-! ### Tables and owners together -/

/-- What a node owns is exchanged: something that it owns may go, and something that can be put
below it may come. -/
structure Exchange (tree : Tree) (p : NodeId) (gone here : Option NodeId) : Prop where
  owned : ∀ {g}, g ∈ gone → tree.Owns p g
  fits : ∀ {h}, h ∈ here → tree.Attachable p h
  notRoot : ∀ {h}, h ∈ here → tree.root ≠ some h

namespace Exchange

variable {gone here : Option NodeId} {g h : NodeId}

section

variable (exchange : tree.Exchange p gone here) (forest : tree.Forest)
include exchange forest

/-- What goes and what comes have nothing in common. -/
theorem apart (member : g ∈ gone) (memberToo : h ∈ here) (below : tree.Below g x) :
    ¬ tree.Below h x := by
  intro belowToo
  have loose := (exchange.fits memberToo).loose
  have owns := exchange.owned member
  obtain rfl | ⟨owner, above, ownsToo⟩ :=
    (forest.below_of_loose loose below belowToo).cases_owner
  · exact loose p owns
  · rw [forest.owner ownsToo owns] at above
    exact (exchange.fits memberToo).apart above

/-- What goes does not have its owner below it. -/
theorem not_below (member : g ∈ gone) : ¬ tree.Below g p :=
  forest.not_below_owner (exchange.owned member)

end

theorem notRoot_of_mem (exchange : tree.Exchange p gone here) (kept : tree.Kept)
    (member : g ∈ gone) : tree.root ≠ some g :=
  fun isRoot => (kept.root_stored isRoot).2 p (exchange.owned member)

end Exchange

section

variable {gone here : Option NodeId}

/-- What is in the store after an exchange. -/
theorem Moved.contains_iff (moved : tree.Moved other p gone here) (kept : tree.Kept)
    (exchange : tree.Exchange p gone here) : other.contains x ↔
      (∃ h ∈ here, tree.Below h x) ∨ tree.contains x ∧ ∀ g ∈ gone, ¬ tree.Below g x := by
  by_cases lost : ∃ g ∈ gone, tree.Below g x
  · obtain ⟨g, member, below⟩ := lost
    refine iff_of_false (moved.dropped member below).1 ?_
    rintro (⟨h, memberToo, belowToo⟩ | ⟨-, away⟩)
    · exact exchange.apart kept.toForest member memberToo below belowToo
    · exact away g member below
  · have away : ∀ g ∈ gone, ¬ tree.Below g x := fun g member below => lost ⟨g, member, below⟩
    by_cases back : ∃ h ∈ here, tree.Below h x
    · refine iff_of_true ?_ (.inl back)
      obtain ⟨h, member, below⟩ := back
      by_cases stored : tree.contains h
      · by_cases same : x = h
        · rw [same]
          exact (moved.adopted member).1
        · have stays := moved.kept away
            (fun memberToo => same (Option.some.inj (memberToo.symm.trans member)))
            (fun h' member' dropped => by
              obtain rfl := Option.some.inj (member'.symm.trans member)
              exact absurd stored dropped)
          rw [stays.1]
          exact kept.contains_below below stored
      · exact (moved.restored member stored below).1
    · have stays := moved.kept away (fun member => back ⟨x, member, .refl⟩)
        fun h member _ below => back ⟨h, member, below⟩
      rw [stays.1]
      exact ⟨fun stored => .inr ⟨stored, away⟩, fun cases =>
        cases.elim (fun inside => absurd inside back) And.left⟩

/-- What a node owns is exchanged, and the tables are moved along. -/
structure Exchanged (tree other : Tree) (p : NodeId) (gone here : Option NodeId) : Prop where
  exchange : tree.Exchange p gone here
  rewired : tree.Rewired other p gone here
  moved : tree.Moved other p gone here

/-- The nodes at the top are those from before, without the one that came below the receiver. -/
theorem Exchanged.top_iff (exchanged : tree.Exchanged other p gone here) (kept : tree.Kept) :
    other.Top x ↔ tree.Top x ∧ x ∉ here := by
  obtain ⟨exchange, rewired, moved⟩ := exchanged
  have contains := @Moved.contains_iff tree other x p gone here moved kept exchange
  constructor
  · rintro ⟨stored, loose⟩
    have notHere : x ∉ here := fun member => loose p (rewired.owns.2 (.inr ⟨rfl, member⟩))
    have looseBefore : tree.Loose x := fun q owns =>
      loose q (rewired.owns.2 (.inl ⟨owns, fun member => (moved.dropped member .refl).1 stored⟩))
    obtain ⟨h, member, below⟩ | ⟨inside, -⟩ := contains.1 stored
    · exact absurd (looseBefore.eq_of_below below ▸ member) notHere
    · exact ⟨⟨inside, looseBefore⟩, notHere⟩
  · rintro ⟨⟨stored, loose⟩, notHere⟩
    refine ⟨contains.2 (.inr ⟨stored, fun g member below => ?_⟩), fun q owns => ?_⟩
    · obtain rfl := loose.eq_of_below below
      exact loose p (exchange.owned member)
    · obtain ⟨before, -⟩ | ⟨-, new⟩ := rewired.owns.1 owns
      · exact loose q before
      · exact notHere new

/-- **Tables that were moved along with the owners agree with them.** -/
theorem Kept.exchanged (kept : tree.Kept) (exchanged : tree.Exchanged other p gone here) :
    other.Kept := by
  have top_iff {x : NodeId} := @Exchanged.top_iff tree other x p gone here exchanged
  obtain ⟨exchange, rewired, moved⟩ := exchanged
  have forest := kept.toForest
  have contains {x : NodeId} := @Moved.contains_iff tree other x p gone here moved kept exchange
  refine ⟨forest.rewired rewired fun h member => exchange.fits member, fun {q x} owns stored => ?_,
    fun {x} lost => ?_, fun {q x} stored owns => ?_, fun {x} stored loose => ?_,
    fun {x} isRoot => ?_⟩
  · obtain ⟨before, stays⟩ | ⟨rfl, new⟩ := rewired.owns.1 owns
    · rw [contains] at stored ⊢
      obtain ⟨h, member, below⟩ | ⟨stored, away⟩ := stored
      · exact .inl ⟨h, member, below.tail before⟩
      · refine .inr ⟨kept.down before stored, fun g member below => ?_⟩
        exact away g member (forest.below_owner before below fun same => stays (same ▸ member))
    · exact (moved.adopted new).1
  · rw [contains, not_or] at lost
    obtain ⟨notBack, notKept⟩ := lost
    by_cases gone : ∃ g ∈ gone, tree.Below g x
    · obtain ⟨g, member, below⟩ := gone
      exact (moved.dropped member below).2
    · have away := fun g member below => gone ⟨g, member, below⟩
      rw [(moved.kept away (fun member => notBack ⟨x, member, .refl⟩)
        fun h member _ below => notBack ⟨h, member, below⟩).2]
      exact kept.absent fun stored => notKept ⟨stored, away⟩
  · obtain ⟨before, stays⟩ | ⟨rfl, new⟩ := rewired.owns.1 owns
    · have notHere : x ∉ here := fun member => (exchange.fits member).loose q before
      by_cases back : ∃ h ∈ here, ¬ tree.contains h ∧ tree.Below h x
      · obtain ⟨h, member, dropped, below⟩ := back
        refine (moved.restored member dropped below).2 ?_ before
        exact forest.below_owner before below fun same => notHere (same ▸ member)
      · have away : ∀ g ∈ gone, ¬ tree.Below g x := fun g member below =>
          (moved.dropped member below).1 stored
        have untouched := moved.kept away notHere fun h member dropped below =>
          back ⟨h, member, dropped, below⟩
        rw [untouched.2]
        exact kept.owned (untouched.1 ▸ stored) before
    · exact (moved.adopted new).2
  · obtain ⟨⟨-, looseBefore⟩, notHere⟩ := (top_iff kept).1 ⟨stored, loose⟩
    have away : ∀ g ∈ gone, ¬ tree.Below g x := fun g member below =>
      (moved.dropped member below).1 stored
    have untouched := moved.kept away notHere fun h member _ below =>
      notHere (looseBefore.eq_of_below below ▸ member)
    rw [untouched.2]
    exact kept.free (untouched.1 ▸ stored) looseBefore
  · rw [moved.root] at isRoot
    exact (top_iff kept).2 ⟨kept.root_stored isRoot, fun member => exchange.notRoot member isRoot⟩

/-- Owners stay in the store with what they own, if nothing comes below a receiver that is not in
the store. -/
theorem Sound.exchanged (sound : tree.Sound) (stored : ∀ h ∈ here, tree.contains p)
    (exchanged : tree.Exchanged other p gone here) : other.Sound := by
  have kept := sound.kept.exchanged exchanged
  obtain ⟨exchange, rewired, moved⟩ := exchanged
  have forest := sound.toForest
  have contains {x : NodeId} := @Moved.contains_iff tree other x p gone here moved sound.kept exchange
  refine kept.sound fun {q x} owns inside => ?_
  rw [contains] at inside ⊢
  obtain ⟨before, -⟩ | ⟨rfl, new⟩ := rewired.owns.1 owns
  · obtain ⟨h, member, below⟩ | ⟨inside, away⟩ := inside
    · exact .inl ⟨h, member, forest.below_owner before below fun same =>
        (exchange.fits member).loose q (same ▸ before)⟩
    · exact .inr ⟨(sound.together before).1 inside, fun g member below =>
        away g member (below.tail before)⟩
  · exact .inr ⟨stored x new, fun g member => exchange.not_below forest member⟩

end

end Tree

end Verbatim
