import Verbatim.Proofs.Tree.Moves
import Verbatim.Proofs.Tree.Plant

/-!
# Trees that grow

Making nodes adds cells behind those that are there. The new nodes own one another only, each one
nodes with larger numbers, so the old nodes are not concerned and a tree whose tables agree with its
owners stays such a tree. A build that fails adds vacant cells, and maybe a refused condition.

## Main definitions

* `Tree.Block`: the nodes with numbers in a range, as they are after planting
* `Tree.Grown`: the same tree with further nodes behind

## Main results

* `Tree.block_of_has`: planted cells are a block
* `Tree.Kept.grown`, `Tree.Sound.grown`: **growing keeps the tables in agreement with the owners**
* `Tree.build_induction`: what is kept while a tree grows is kept by builds
-/

namespace Verbatim

namespace Tree

open Relation

variable {tree other : Tree} {id x p q : NodeId} {first middle next : Nat} {link : Link}

/-! ### Blocks -/

/-- The nodes with numbers in a range own one another only. Each is linked to its owner, and those
at the top, which have none, are linked as told. -/
structure Block (tree : Tree) (first next : Nat) (tops : List NodeId) (link : Link) : Prop where
  inside : ∀ {x}, x ∈ tops → first ≤ x.number ∧ x.number < next ∧ tree.Made x ∧ tree.link x = link
  distinct : tops.Nodup
  stored : ∀ {x}, first ≤ x.number → x.number < next → tree.Made x → tree.contains x
  owns : ∀ {q x}, first ≤ q.number → q.number < next → tree.Owns q x →
    q.number < x.number ∧ x.number < next ∧ tree.Made x ∧ tree.link x = .under q
  nodup : ∀ {q}, first ≤ q.number → q.number < next → (tree.directNodes q).Nodup
  covered : ∀ {x}, first ≤ x.number → x.number < next → tree.Made x →
    x ∈ tops ∨ ∃ q, first ≤ q.number ∧ tree.Owns q x

namespace Block

theorem nil (tree : Tree) (first : Nat) (link : Link) : tree.Block first first [] link where
  inside member := absurd member List.not_mem_nil
  distinct := List.nodup_nil
  stored low high := by omega
  owns low high := by omega
  nodup low high := by omega
  covered low high := by omega

/-- Two blocks behind one another are a block. -/
theorem append {tops topsToo : List NodeId} (block : tree.Block first middle tops link)
    (further : tree.Block middle next topsToo link) (forth : first ≤ middle) (on : middle ≤ next) :
    tree.Block first next (tops ++ topsToo) link where
  inside member := by
    obtain member | member := List.mem_append.1 member
    · obtain ⟨low, high, rest⟩ := block.inside member
      exact ⟨low, Nat.lt_of_lt_of_le high on, rest⟩
    · obtain ⟨low, high, rest⟩ := further.inside member
      exact ⟨Nat.le_trans forth low, high, rest⟩
  distinct := by
    refine List.nodup_append.2 ⟨block.distinct, further.distinct, ?_⟩
    rintro x member y memberToo rfl
    have := (block.inside member).2.1
    have := (further.inside memberToo).1
    omega
  stored low high made := by
    rcases Nat.lt_or_ge _ middle with left | right
    · exact block.stored low left made
    · exact further.stored right high made
  owns low high owns := by
    rcases Nat.lt_or_ge _ middle with left | right
    · obtain ⟨up, bound, rest⟩ := block.owns low left owns
      exact ⟨up, Nat.lt_of_lt_of_le bound on, rest⟩
    · exact further.owns right high owns
  nodup low high := by
    rcases Nat.lt_or_ge _ middle with left | right
    · exact block.nodup low left
    · exact further.nodup right high
  covered low high made := by
    rcases Nat.lt_or_ge _ middle with left | right
    · exact (block.covered low left made).imp_left (List.mem_append_left _)
    · refine (further.covered right high made).imp (List.mem_append_right _) ?_
      rintro ⟨q, low, owns⟩
      exact ⟨q, Nat.le_trans forth low, owns⟩

/-- A node in front of the block of what it owns makes a block with it. -/
theorem node {kind : Kind} {cell : Cell} (found : tree.cell? ⟨kind, first⟩ = some cell)
    (stored : cell.stored)
    (below : tree.Block (first + 1) next (tree.directNodes ⟨kind, first⟩) (.under ⟨kind, first⟩))
    (on : first + 1 ≤ next) : tree.Block first next [⟨kind, first⟩] cell.link := by
  have made : tree.Made ⟨kind, first⟩ := ⟨cell, found⟩
  have top {x : NodeId} (madeX : tree.Made x) (low : first ≤ x.number) :
      x = ⟨kind, first⟩ ∨ first + 1 ≤ x.number := by
    rcases Nat.eq_or_lt_of_le low with same | later
    · exact .inl (madeX.eq_of_number made same.symm)
    · exact .inr later
  refine ⟨fun member => ?_, List.nodup_singleton _, fun low high madeX => ?_, fun low high owns => ?_,
    fun {q} low high => ?_, fun low high madeX => ?_⟩
  · obtain rfl := List.mem_singleton.1 member
    exact ⟨Nat.le_refl _, on, made, link_of_cell? found⟩
  · obtain rfl | later := top madeX low
    · exact contains_iff_cell?.2 ⟨cell, found, stored⟩
    · exact below.stored later high madeX
  · obtain rfl | later := top owns.made low
    · obtain ⟨later, rest⟩ := below.inside owns
      exact ⟨later, rest⟩
    · exact below.owns later high owns
  · by_cases madeQ : tree.Made q
    · obtain rfl | later := top madeQ low
      · exact below.distinct
      · exact below.nodup later high
    · -- A name without a node owns nothing.
      have nothing : tree.directNodes q = [] :=
        List.eq_nil_iff_forall_not_mem.2 fun x owns => madeQ (Owns.made owns)
      rw [nothing]
      exact List.nodup_nil
  · obtain rfl | later := top madeX low
    · exact .inl (List.mem_singleton_self _)
    · refine .inr ?_
      obtain member | ⟨q, lowQ, owns⟩ := below.covered later high madeX
      · exact ⟨_, Nat.le_refl _, member⟩
      · exact ⟨q, Nat.le_of_succ_le lowQ, owns⟩

end Block

mutual

/-- Planted cells are a block. -/
theorem block_of_has : ∀ (node : Node) {number : Nat} {link : Link},
    tree.Has number (node.cellsFrom number link) →
      tree.Block number (number + node.size) [⟨node.kind, number⟩] link
  | .mk kind attributes none children gaps, number, link, has => by
    rw [Node.cellsFrom] at has
    have below := blocks_of_has children has.cons
    have found := has.cell?
    rw [Node.size]
    refine Block.node found rfl ?_ (by omega)
    rw [directNodes, condition?, Tree.children, found]
    rw [Nat.add_assoc] at below
    exact below
  | .mk kind attributes (some condition) children gaps, number, link, has => by
    rw [Node.cellsFrom] at has
    obtain ⟨start, later⟩ := has.append
    rw [List.length_cons, Node.length_cellsFrom, ← Nat.add_assoc, Nat.add_right_comm] at later
    have slot := block_of_has condition start.cons
    have below := blocks_of_has children later
    have found := start.cell?
    rw [Node.size]
    refine Block.node found rfl ?_ (by omega)
    rw [directNodes, condition?, Tree.children, found]
    have both := slot.append below (by omega) (by omega)
    rw [show number + (1 + condition.size + Node.sizeAll children) =
      number + 1 + condition.size + Node.sizeAll children by omega]
    exact both

theorem blocks_of_has : ∀ (nodes : List Node) {number : Nat} {parent : NodeId},
    tree.Has number (Node.childCells number parent nodes).2 →
      tree.Block number (number + Node.sizeAll nodes) (Node.childCells number parent nodes).1
        (.under parent)
  | [], number, parent, _ => Block.nil tree number _
  | child :: rest, number, parent, has => by
    rw [Node.childCells] at has ⊢
    obtain ⟨here, later⟩ := has.append
    rw [Node.length_cellsFrom] at later
    have both := (block_of_has child here).append (blocks_of_has rest later) (by omega) (by omega)
    rw [Node.sizeAll, ← Nat.add_assoc]
    exact both

end

/-! ### Growing -/

/-- The same tree with further nodes behind. A new node that owns anything is in the store, and is
in front of what it owns. -/
structure Grown (tree other : Tree) : Prop where
  older : ∀ {x}, x.number ≤ tree.cells.size → other.cell? x = tree.cell? x
  root : other.root = tree.root
  nodup : ∀ {q}, tree.cells.size < q.number → (other.directNodes q).Nodup
  owns : ∀ {q x}, tree.cells.size < q.number → other.Owns q x → q.number < x.number ∧
    other.Made x ∧ other.contains q ∧ other.contains x ∧ other.link x = .under q
  absent : ∀ {x}, tree.cells.size < x.number → ¬ other.contains x → other.link x = .missing
  free : ∀ {x}, tree.cells.size < x.number → other.contains x → other.Loose x → other.link x = .top

namespace Grown

section

variable (grown : tree.Grown other)
include grown

theorem made (made : tree.Made x) : other.Made x := by
  obtain ⟨cell, found⟩ := made
  exact ⟨cell, (grown.older (Made.number_le ⟨cell, found⟩)).trans found⟩

theorem contents (old : q.number ≤ tree.cells.size) : other.contents? q = tree.contents? q :=
  congrArg (Option.map Cell.contents) (grown.older old)

theorem owns_iff (old : q.number ≤ tree.cells.size) : other.Owns q x ↔ tree.Owns q x := by
  rw [Owns, Owns, directNodes_congr (grown.contents old)]

theorem owns_of_owns (owns : tree.Owns q x) : other.Owns q x :=
  (grown.owns_iff owns.made.number_le).2 owns

/-- Old nodes own old ones only. -/
theorem old_of_owns (forest : tree.Forest) (old : q.number ≤ tree.cells.size)
    (owns : other.Owns q x) : x.number ≤ tree.cells.size :=
  (forest.made ((grown.owns_iff old).1 owns)).number_le

/-- A way down from an old node stays among the old nodes. -/
theorem old_path (forest : tree.Forest) (old : q.number ≤ tree.cells.size)
    (path : TransGen other.Owns q x) : TransGen tree.Owns q x ∧ x.number ≤ tree.cells.size := by
  induction path with
  | single owns => exact ⟨.single ((grown.owns_iff old).1 owns), grown.old_of_owns forest old owns⟩
  | tail _ owns ih =>
    obtain ⟨path, bound⟩ := ih
    exact ⟨path.tail ((grown.owns_iff bound).1 owns), grown.old_of_owns forest bound owns⟩

/-- A way down from a new node goes to larger numbers. -/
theorem number_lt (new : tree.cells.size < q.number) (path : TransGen other.Owns q x) :
    q.number < x.number := by
  induction path with
  | single owns => exact (grown.owns new owns).1
  | tail _ owns up => exact Nat.lt_trans up (grown.owns (Nat.lt_trans new up) owns).1

/-- No new node lies below itself. -/
theorem founded (new : tree.cells.size < id.number) : other.Founded id := by
  intro p below cycle
  obtain same | path := reflTransGen_iff_eq_or_transGen.1 below
  · exact Nat.lt_irrefl _ (grown.number_lt (same ▸ new) cycle)
  · exact Nat.lt_irrefl _ (grown.number_lt (Nat.lt_trans new (grown.number_lt new path)) cycle)

theorem loose_of_loose (old : x.number ≤ tree.cells.size) (loose : tree.Loose x) :
    other.Loose x := by
  intro q owns
  rcases Nat.lt_or_ge tree.cells.size q.number with new | oldToo
  · have := (grown.owns new owns).1
    omega
  · exact loose q ((grown.owns_iff oldToo).1 owns)

end

end Grown

namespace Grown

/-- An owner is an old one, or new. -/
theorem owns_cases (grown : tree.Grown other) (owns : other.Owns q x) :
    q.number ≤ tree.cells.size ∧ tree.Owns q x ∨ tree.cells.size < q.number := by
  rcases Nat.lt_or_ge tree.cells.size q.number with new | old
  · exact .inr new
  · exact .inl ⟨old, (grown.owns_iff old).1 owns⟩

end Grown

/-- **Growing keeps the tables in agreement with the owners.** -/
theorem Kept.grown (kept : tree.Kept) (grown : tree.Grown other) : other.Kept := by
  have forest := kept.toForest
  have owner {q x : NodeId} (owns : other.Owns q x) := grown.owns_cases owns
  -- The number of a node tells whether its owner is old or new.
  have apart {q r x : NodeId} (owns : tree.Owns q x) (ownsToo : other.Owns r x) :
      ¬ tree.cells.size < r.number := fun new => by
    have := (forest.made owns).number_le
    have := (grown.owns new ownsToo).1
    omega
  refine ⟨⟨fun {q x} owns => ?_, fun q => ?_, fun {q r x} owns ownsToo => ?_, fun x cycle => ?_⟩,
    fun {q x} owns stored => ?_, fun {x} lost => ?_, fun {q x} stored owns => ?_,
    fun {x} stored loose => ?_, fun {x} isRoot => ?_⟩
  · obtain ⟨-, before⟩ | new := owner owns
    · exact grown.made (forest.made before)
    · exact (grown.owns new owns).2.1
  · rcases Nat.lt_or_ge tree.cells.size q.number with new | old
    · exact grown.nodup new
    · rw [directNodes_congr (grown.contents old)]
      exact forest.distinct q
  · obtain ⟨-, before⟩ | new := owner owns <;> obtain ⟨-, beforeToo⟩ | newToo := owner ownsToo
    · exact forest.owner before beforeToo
    · exact absurd newToo (apart before ownsToo)
    · exact absurd new (apart beforeToo owns)
    · exact Link.under.inj
        ((grown.owns new owns).2.2.2.2.symm.trans (grown.owns newToo ownsToo).2.2.2.2)
  · rcases Nat.lt_or_ge tree.cells.size x.number with new | old
    · exact absurd (grown.number_lt new cycle) (Nat.lt_irrefl _)
    · exact forest.acyclic x (grown.old_path forest old cycle).1
  · obtain ⟨old, before⟩ | new := owner owns
    · rw [contains_congr (grown.older old)] at stored
      rw [contains_congr (grown.older (forest.made before).number_le)]
      exact kept.down before stored
    · exact (grown.owns new owns).2.2.2.1
  · rcases Nat.lt_or_ge tree.cells.size x.number with new | old
    · exact grown.absent new lost
    · rw [contains_congr (grown.older old)] at lost
      rw [link_congr (grown.older old)]
      exact kept.absent lost
  · obtain ⟨-, before⟩ | new := owner owns
    · have old := (forest.made before).number_le
      rw [contains_congr (grown.older old)] at stored
      rw [link_congr (grown.older old)]
      exact kept.owned stored before
    · exact (grown.owns new owns).2.2.2.2
  · rcases Nat.lt_or_ge tree.cells.size x.number with new | old
    · exact grown.free new stored loose
    · rw [contains_congr (grown.older old)] at stored
      rw [link_congr (grown.older old)]
      exact kept.free stored fun q owns => loose q (grown.owns_of_owns owns)
  · rw [grown.root] at isRoot
    obtain ⟨stored, loose⟩ := kept.root_stored isRoot
    have old := (made_of_contains stored).number_le
    exact ⟨(contains_congr (grown.older old)).trans stored, grown.loose_of_loose old loose⟩

theorem Sound.grown (sound : tree.Sound) (grown : tree.Grown other) : other.Sound := by
  refine (sound.kept.grown grown).sound fun {q x} owns stored => ?_
  obtain ⟨old, before⟩ | new := grown.owns_cases owns
  · rw [contains_congr (grown.older (sound.made before).number_le)] at stored
    rw [contains_congr (grown.older old)]
    exact (sound.together before).1 stored
  · exact (grown.owns new owns).2.2.1

/-! ### Ways to grow -/

theorem cell?_of_append {more : List Cell} (same : other.cells.toList = tree.cells.toList ++ more)
    (old : x.number ≤ tree.cells.size) : other.cell? x = tree.cell? x := by
  unfold cell?
  by_cases zero : x.number = 0
  · rw [if_pos zero, if_pos zero]
  · have inside : x.number - 1 < tree.cells.toList.length := by
      rw [Array.length_toList]
      omega
    rw [if_neg zero, if_neg zero, ← Array.getElem?_toList, ← Array.getElem?_toList, same,
      List.getElem?_append_left inside]

theorem grown_plant (tree : Tree) (node : Node) : tree.Grown (tree.plant node).1 := by
  have block := block_of_has node (has_plant tree node)
  rw [Nat.add_right_comm, ← size_plant] at block
  have bound {x : NodeId} (made : (tree.plant node).1.Made x) := Nat.lt_succ_of_le made.number_le
  have behind : (tree.plant node).1.cells.toList = tree.cells.toList ++
      node.cellsFrom (tree.cells.size + 1) .top := by simp [Tree.plant]
  refine ⟨cell?_of_append behind, rfl, fun {q} new => ?_, fun {q x} new owns => ?_, fun {x} new lost => ?_,
    fun {x} new stored loose => ?_⟩
  · by_cases made : (tree.plant node).1.Made q
    · exact block.nodup new (bound made)
    · have nothing : (tree.plant node).1.directNodes q = [] :=
        List.eq_nil_iff_forall_not_mem.2 fun x owns => made (Owns.made owns)
      rw [nothing]
      exact List.nodup_nil
  · obtain ⟨up, below, made, linked⟩ := block.owns new (bound owns.made) owns
    exact ⟨up, made, block.stored new (bound owns.made) owns.made,
      block.stored (Nat.lt_trans new up) below made, linked⟩
  · by_cases made : (tree.plant node).1.Made x
    · exact absurd (block.stored new (bound made) made) lost
    · unfold link
      split
      · exact absurd ⟨_, ‹_›⟩ made
      · rfl
  · have made := made_of_contains stored
    obtain member | ⟨q, -, owns⟩ := block.covered new (bound made) made
    · exact (block.inside member).2.2.2
    · exact absurd owns (loose q)

/-- The cells of numbers that were used up are vacant. -/
theorem vacant_of_skip {count : Nat} {cell : Cell} (new : tree.cells.size < x.number)
    (found : (tree.skip count).cell? x = some cell) :
    cell = { kind := .compilationUnit, stored := false, link := .missing } := by
  obtain ⟨-, here, -⟩ := cell?_eq_some.1 found
  rw [skip, Array.getElem?_append_right (by omega), Array.getElem?_replicate] at here
  split at here
  · exact (Option.some.inj here).symm
  · contradiction

theorem grown_skip (tree : Tree) (count : Nat) : tree.Grown (tree.skip count) := by
  have empty {q : NodeId} (new : tree.cells.size < q.number) :
      (tree.skip count).directNodes q = [] := by
    unfold directNodes condition? Tree.children
    cases found : (tree.skip count).cell? q with
    | none => rfl
    | some cell =>
      rw [vacant_of_skip new found]
      rfl
  refine ⟨cell?_of_append Array.toList_append, rfl, fun new => ?_, fun new owns => ?_, fun {x} new _ => ?_,
    fun {x} new stored => ?_⟩
  · rw [empty new]
    exact List.nodup_nil
  · rw [Owns, empty new] at owns
    exact absurd owns List.not_mem_nil
  · unfold link
    cases found : (tree.skip count).cell? x with
    | none => rfl
    | some cell =>
      rw [vacant_of_skip new found]
  · obtain ⟨cell, found, inside⟩ := contains_iff_cell?.1 stored
    rw [vacant_of_skip new found] at inside
    contradiction

/-- What is kept while a tree grows is kept by a build, whether it works or not. -/
theorem build_induction {keeps : Tree → Prop}
    (grows : ∀ {tree other : Tree}, keeps tree → tree.Grown other → keeps other) (now : keeps tree)
    (raw : Json) : keeps (tree.build raw).1 := by
  unfold build
  split
  · exact grows now (grown_plant tree _)
  · unfold absorb
    split
    · exact grows (grows now (grown_skip tree _)) (grown_plant _ _)
    · exact grows now (grown_skip tree _)

/-- A new node is a planted one that has nothing yet. -/
theorem grown_create (tree : Tree) (kind : Kind) : tree.Grown (tree.create kind).1 :=
  grown_plant tree (.mk kind [] none [] [])

theorem Grown.contains (grown : tree.Grown other) (stored : tree.contains x) : other.contains x := by
  rw [contains_congr (grown.older (made_of_contains stored).number_le)]
  exact stored

/-- What is at the top stays there while a tree grows. -/
theorem Grown.top (grown : tree.Grown other) (top : tree.Top x) : other.Top x :=
  ⟨grown.contains top.1, grown.loose_of_loose (made_of_contains top.1).number_le top.2⟩

theorem contains_build (raw : Json) (stored : tree.contains x) : (tree.build raw).1.contains x :=
  build_induction (fun stored grown => grown.contains stored) stored raw

/-- Walking down from a planted node ends. -/
theorem founded_plant (tree : Tree) (node : Node) :
    (tree.plant node).1.Founded (tree.plant node).2 :=
  (grown_plant tree node).founded (Nat.lt_succ_self tree.cells.size)

/-- A planted node is one of the tree's nodes, at the top. -/
theorem top_plant (tree : Tree) (node : Node) : (tree.plant node).1.Made (tree.plant node).2 ∧
    (tree.plant node).1.link (tree.plant node).2 = .top :=
  ((block_of_has node (has_plant tree node)).inside (List.mem_singleton_self _)).2.2

namespace Kept

variable (kept : tree.Kept)
include kept

theorem plant (node : Node) : (tree.plant node).1.Kept :=
  kept.grown (grown_plant tree node)

theorem build (raw : Json) : (tree.build raw).1.Kept :=
  build_induction Kept.grown kept raw

/-- A planted node is in the store, and nobody owns it. -/
theorem planted (node : Node) : (tree.plant node).1.contains (tree.plant node).2 ∧
    (tree.plant node).1.Loose (tree.plant node).2 := by
  have block := block_of_has node (has_plant tree node)
  have member := List.mem_singleton_self (⟨node.kind, tree.cells.size + 1⟩ : NodeId)
  obtain ⟨low, high, made, linked⟩ := block.inside member
  have stored := block.stored low high made
  refine ⟨stored, fun q owns => ?_⟩
  exact Link.noConfusion (linked.symm.trans ((kept.plant node).owned stored owns))

end Kept

namespace Sound

variable (sound : tree.Sound)
include sound

theorem plant (node : Node) : (tree.plant node).1.Sound :=
  sound.grown (grown_plant tree node)

theorem create (kind : Kind) : (tree.create kind).1.Sound :=
  sound.grown (grown_create tree kind)

theorem build (raw : Json) : (tree.build raw).1.Sound :=
  build_induction Sound.grown sound raw

theorem planted (node : Node) : (tree.plant node).1.contains (tree.plant node).2 ∧
    (tree.plant node).1.Loose (tree.plant node).2 :=
  sound.kept.planted node

end Sound

end Tree

end Verbatim
