import Verbatim.Proofs.Coherence

/-!
# Links that can be traced

Not every state of a tree is coherent: calls on nodes that left the tree, and nodes that are taken
out of a subtree that left it, can set the links against the store. One thing holds of every state
all the same: a node that is linked to a parent is owned by that parent. So every node has a path,
whatever was done to the tree before.

Edits keep the links that way whatever is put somewhere, even a name that no node of the tree has: it
gets no link. That what is owned was made is said on top.

## Main definitions

* `Call.Known`: the nodes that a call names were made in the tree
* `Tree.Possible`: the states of an empty tree after any number of such calls
* `Tree.Linked`: links lead to owners
* `Tree.Traced`: and what is owned was made in the tree

## Main results

* `Tree.Traced.perform`: every call on nodes of the tree keeps links traced
* `Tree.Linked.path_ok`: every node has a path
-/

namespace Verbatim

/-- What is handed to an edit may be anything, but a node of the tree was made in it. -/
def Candidate.Known (tree : Tree) : Candidate → Prop
  | .own node => tree.Made node
  | _ => True

/-- Receivers, roots and what is put somewhere were made in the tree, and may be anywhere since. -/
def Call.Known (tree : Tree) : Call → Prop
  | .create _ | .build _ => True
  | .setRoot node => tree.Made node
  | .setAttribute receiver .. | .removeChild receiver _ | .setConditionText receiver _ =>
    tree.Made receiver
  | .addChild receiver child _ => tree.Made receiver ∧ child.Known tree
  | .replaceChild receiver _ new => tree.Made receiver ∧ new.Known tree
  | .setCondition receiver condition => tree.Made receiver ∧ condition.Known tree

theorem Candidate.Usable.known {tree : Tree} {candidate : Candidate}
    (usable : candidate.Usable tree) : candidate.Known tree := by
  cases candidate with
  | nothing | value | foreign => trivial
  | own node => exact usable.elim Tree.made_of_contains And.left

theorem Call.Allowed.known {tree : Tree} {call : Call} (allowed : call.Allowed tree) :
    call.Known tree := by
  cases call with
  | create | build => trivial
  | setRoot | setAttribute | removeChild | setConditionText => exact Tree.made_of_contains allowed
  | addChild | replaceChild | setCondition =>
    exact ⟨Tree.made_of_contains allowed.1, allowed.2.known⟩

namespace Tree

open Relation

variable {tree other now : Tree} {id x p q old new child : NodeId} {change : Cell → Cell}
  {place : Nat}

/-- What becomes of an empty tree. Beside the calls, others may begin or stop to watch it, and it may
be given a file. -/
inductive Possible : Tree → Prop where
  | empty (label : String) (settings : Settings) : Possible (empty label settings)
  | call {tree : Tree} (call : Call) : Possible tree → call.Known tree →
      Possible (tree.perform call)
  | aside {tree : Tree} (observers : List Observer) (filePath : Option String) : Possible tree →
      Possible { tree with observers, filePath }

/-- A node that is linked to a parent is owned by it. -/
def Linked (tree : Tree) : Prop :=
  ∀ x p, tree.link x = .under p → tree.Owns p x

/-- A node that is linked to a parent is owned by it, and what is named was made. -/
structure Traced (tree : Tree) : Prop where
  made : ∀ {p x}, tree.Owns p x → tree.Made x
  owned : ∀ {p x}, tree.link x = .under p → tree.Owns p x
  root : ∀ {x}, tree.root = some x → tree.Made x

/-! ### Links after a move -/

theorem link_setLink_cases {link : Link} (linked : (tree.setLink id link).link x = .under p) :
    x = id ∧ link = .under p ∨ tree.link x = .under p := by
  rw [Tree.link, cell?_setLink] at linked
  by_cases here : x = id
  · rw [if_pos here] at linked
    cases found : tree.cell? id with
    | none => simp [found] at linked
    | some cell => exact .inl ⟨here, by simpa [found] using linked⟩
  · rw [if_neg here] at linked
    exact .inr linked

theorem link_register_cases (linked : (tree.register id).link x = .under p) :
    tree.link x = .under p := by
  rw [link, cell?_register] at linked
  by_cases here : x = id
  · rw [if_pos here] at linked
    cases found : tree.cell? id <;> simp [found] at linked
  · rw [if_neg here] at linked
    exact linked

/-- A restored subtree is linked as it was, or to its owners. -/
theorem link_restoreWithin_cases {steps : Nat} (alike : tree.Alike now)
    (linked : (restoreWithin steps now id).link x = .under p) :
    now.link x = .under p ∨ tree.Owns p x := by
  induction steps generalizing now id with
  | zero => exact .inl (link_register_cases linked)
  | succ steps ih =>
    have along : ∀ (subs : List NodeId) {now : Tree}, tree.Alike now →
        (∀ sub ∈ subs, tree.Owns id sub) →
        (subs.foldl (fun now sub => (restoreWithin steps now sub).setLink sub (.under id)) now).link
          x = .under p → now.link x = .under p ∨ tree.Owns p x := by
      intro subs
      induction subs with
      | nil => exact fun _ _ linked => .inl linked
      | cons sub rest ihRest =>
        intro now alike owns linked
        obtain ⟨ownsSub, owns⟩ := List.forall_mem_cons.1 owns
        have restored := alike.trans (Alike.restoreWithin steps now sub)
        obtain before | owned := ihRest (restored.trans (Alike.setLink _ sub _)) owns linked
        · obtain ⟨rfl, same⟩ | before := link_setLink_cases before
          · exact .inr (Link.under.inj same ▸ ownsSub)
          · exact ih alike before
        · exact .inr owned
    have registered := alike.trans (Alike.register now id)
    have owns : ∀ sub ∈ now.directNodes id, tree.Owns id sub := fun sub member => by
      rw [alike.directNodes] at member
      exact member
    exact (along _ registered owns linked).imp_left link_register_cases

/-- Adopting links the child to its new parent, and restored nodes to their owners. -/
theorem link_adopt_cases (linked : (tree.adopt child q).link x = .under p) :
    x = child ∧ p = q ∨ tree.link x = .under p ∨ tree.Owns p x := by
  rw [adopt] at linked
  obtain ⟨here, same⟩ | before := link_setLink_cases linked
  · exact .inl ⟨here, (Link.under.inj same).symm⟩
  · refine .inr ?_
    split at before
    · exact .inl before
    · exact link_restoreWithin_cases (Alike.refl tree) before

/-- Releasing links no node to a parent. -/
theorem link_release_cases (linked : (tree.release id).link x = .under p) :
    x ≠ id ∧ tree.link x = .under p := by
  rw [link_release] at linked
  split at linked
  · contradiction
  · rename_i outside
    refine ⟨fun same => outside ?_, linked⟩
    rw [same, subtree]
    cases tree.cells.size with
    | zero => exact List.mem_singleton_self id
    | succ steps => exact List.mem_cons_self

theorem root_release_cases (isRoot : (tree.release id).root = some x) : tree.root = some x := by
  rw [release, dropAll] at isRoot
  split at isRoot
  · contradiction
  · exact (root_foldl (fun _ _ => root_modify) _).symm.trans isRoot

/-! ### Owners after a move -/

section

variable (madeP : tree.Made p)
include madeP

theorem owns_insertChild (inside : place ≤ (tree.children p).length) :
    (tree.insertChild p child place).Owns p x ↔ x = child ∨ tree.Owns p x := by
  have alike := Alike.adopt (tree.storeChildren p ((tree.children p).insertIdx place child)) child p
  rw [Owns, Owns, insertChild, alike.directNodes, directNodes_storeChildren madeP, directNodes,
    List.mem_append, List.mem_append, List.mem_insertIdx inside]
  tauto

/-- What a node owned without the child, it still owns. -/
theorem owns_eraseChild (found : (tree.children p)[place]? = some child) :
    tree.Owns p x ↔ x = child ∨ (tree.eraseChild p child place).Owns p x := by
  have alike := Alike.release (tree.storeChildren p ((tree.children p).eraseIdx place)) child
  obtain ⟨inside, here⟩ := List.getElem?_eq_some_iff.1 found
  have perm := List.getElem_cons_eraseIdx_perm inside
  rw [here] at perm
  rw [Owns, Owns, eraseChild, alike.directNodes, directNodes_storeChildren madeP, directNodes,
    List.mem_append, List.mem_append, ← perm.mem_iff, List.mem_cons]
  tauto

/-- What a node owns without the new child, it owned beside the old one. -/
theorem owns_exchangeChild (found : (tree.children p)[place]? = some old) (new : NodeId) :
    ∃ kept : NodeId → Prop, (∀ x, tree.Owns p x ↔ x = old ∨ kept x) ∧
      ∀ x, (tree.exchangeChild p old new place).Owns p x ↔ x = new ∨ kept x := by
  have released := Alike.release (tree.storeChildren p ((tree.children p).set place new)) old
  have alike := released.trans (Alike.adopt _ new p)
  obtain ⟨inside, here⟩ := List.getElem?_eq_some_iff.1 found
  have perm := List.getElem_cons_eraseIdx_perm inside
  rw [here] at perm
  refine ⟨fun x => x ∈ (tree.condition? p).toList ∨ x ∈ (tree.children p).eraseIdx place,
    fun x => ?_, fun x => ?_⟩
  · rw [Owns, directNodes, List.mem_append, ← perm.mem_iff, List.mem_cons]
    tauto
  · rw [Owns, exchangeChild, alike.directNodes, directNodes_storeChildren madeP, List.mem_append,
      (List.set_perm_cons_eraseIdx inside new).mem_iff, List.mem_cons]
    tauto

/-- Besides the slot, a node owns the children that it had. -/
theorem owns_storeCondition (alike : tree.Alike other) (slot : ConditionSlot) :
    (other.storeCondition p slot).Owns p x ↔ slot.node? = some x ∨ x ∈ tree.children p := by
  rw [Owns, directNodes_storeCondition (alike.made.2 madeP), alike.children, List.mem_append,
    Option.mem_toList]

end

namespace Linked

/-! ### Paths -/

section

variable (linked : tree.Linked)
include linked

/-- The parent of a node owns it. -/
theorem owns_of_parent? (above : tree.parent? x = some p) : tree.Owns p x := by
  unfold parent? at above
  split at above
  · next owner under =>
    split at above
    · exact Option.some.inj above ▸ linked x owner under
    · contradiction
  · contradiction

/-- Every node has a path. -/
theorem path_ok (id : NodeId) : ∃ path, tree.path id = .ok path :=
  pathWithin_ok linked.owns_of_parent? _ id []

/-- So changes can be described. -/
theorem described_ne_error (id : NodeId) (change : Path → Change) (refusal : Refusal) :
    (tree.described id change).2 ≠ .error refusal := by
  obtain ⟨path, found⟩ := linked.path_ok id
  simp [described, found, Except.map]

end

/-! ### Moves -/

/-- One node may get other nodes to own, as long as it owns those that are linked to it. -/
theorem moved (elsewhere : ∀ {q}, q ≠ p → other.directNodes q = tree.directNodes q)
    (links : ∀ {q x}, other.link x = .under q →
      other.Owns q x ∨ tree.Owns q x ∧ (q = p → other.Owns p x)) : other.Linked := by
  intro x q under
  obtain owns | ⟨before, stays⟩ := links under
  · exact owns
  · by_cases same : q = p
    · exact same ▸ stays same
    · rwa [Owns, elsewhere same]

section Effects

variable (linked : tree.Linked)
include linked

theorem storeAttribute (name : String) (value : Json) : (tree.storeAttribute p name value).Linked := by
  have inner := Cell.inner_attributes name value
  refine Linked.moved (directNodes_modify_of_ne inner) fun {q x} under => .inl ?_
  rw [Owns, directNodes_storeAttribute]
  exact linked x q ((tables_modify inner).2.symm.trans under)

variable (madeP : tree.Made p)
include madeP

theorem insertChild (inside : place ≤ (tree.children p).length) :
    (tree.insertChild p child place).Linked := by
  have inner := Cell.inner_children ((tree.children p).insertIdx place child)
  have alike := Alike.adopt (tree.storeChildren p ((tree.children p).insertIdx place child)) child p
  have owns (x : NodeId) : (tree.insertChild p child place).Owns p x ↔
      x = child ∨ tree.Owns p x := owns_insertChild madeP inside
  refine Linked.moved (fun away => alike.directNodes.trans (directNodes_modify_of_ne inner away))
    fun {q x} under => ?_
  obtain ⟨rfl, rfl⟩ | before | owned := link_adopt_cases under
  · exact .inl ((owns x).2 (.inl rfl))
  · have owned := linked x q ((tables_modify inner).2.symm.trans before)
    exact .inr ⟨owned, fun same => (owns x).2 (.inr (same ▸ owned))⟩
  · rw [← alike.owns] at owned
    exact .inl owned

theorem eraseChild (found : (tree.children p)[place]? = some child) :
    (tree.eraseChild p child place).Linked := by
  have inner := Cell.inner_children ((tree.children p).eraseIdx place)
  have alike := Alike.release (tree.storeChildren p ((tree.children p).eraseIdx place)) child
  refine Linked.moved (fun away => alike.directNodes.trans (directNodes_modify_of_ne inner away))
    fun {q x} under => ?_
  obtain ⟨other, before⟩ := link_release_cases under
  have before := linked x q ((tables_modify inner).2.symm.trans before)
  exact .inr ⟨before, fun same =>
    ((owns_eraseChild madeP found).1 (same ▸ before)).resolve_left other⟩

theorem exchangeChild (found : (tree.children p)[place]? = some old) :
    (tree.exchangeChild p old new place).Linked := by
  have inner := Cell.inner_children ((tree.children p).set place new)
  have released := Alike.release (tree.storeChildren p ((tree.children p).set place new)) old
  have alike := released.trans (Alike.adopt _ new p)
  obtain ⟨kept, owned, owns⟩ := owns_exchangeChild madeP found new
  refine Linked.moved (fun away => alike.directNodes.trans (directNodes_modify_of_ne inner away))
    fun {q x} under => ?_
  obtain ⟨rfl, rfl⟩ | before | now := link_adopt_cases under
  · exact .inl ((owns x).2 (.inl rfl))
  · obtain ⟨other, before⟩ := link_release_cases before
    have before := linked x q ((tables_modify inner).2.symm.trans before)
    exact .inr ⟨before, fun same =>
      (owns x).2 (.inr (((owned x).1 (same ▸ before)).resolve_left other))⟩
  · rw [← (Alike.adopt _ new p).owns] at now
    exact .inl now

omit linked in
/-- A slot may be set once the node that was in it has no link, and that which comes in is linked. -/
theorem storeCondition (alike : tree.Alike other) (slot : ConditionSlot)
    (links : ∀ {q x}, other.link x = .under q → q = p ∧ slot.node? = some x ∨
      x ∉ tree.condition? p ∧ tree.Owns q x) : (other.storeCondition p slot).Linked := by
  have inner := Cell.inner_condition slot
  refine Linked.moved (fun away => (directNodes_modify_of_ne inner away).trans alike.directNodes)
    fun {q x} under => ?_
  obtain ⟨rfl, held⟩ | ⟨outside, owns⟩ := links ((tables_modify inner).2.symm.trans under)
  · exact .inl ((owns_storeCondition madeP alike slot).2 (.inl held))
  · refine .inr ⟨owns, fun same => (owns_storeCondition madeP alike slot).2 (.inr ?_)⟩
    subst same
    exact (List.mem_append.1 owns).resolve_left fun held => outside (Option.mem_toList.1 held)

theorem exchangeCondition :
    ((tree.exchangeCondition (tree.condition? p) p new).storeCondition p (.holds new)).Linked := by
  refine Linked.storeCondition madeP (Alike.exchangeCondition tree (tree.condition? p) p new) _
    fun {q x} under => ?_
  -- What is linked afterwards was linked before or restored, and is not the old condition.
  have links : x ∉ tree.condition? p ∧ (tree.adopt new p).link x = .under q := by
    unfold Tree.exchangeCondition at under
    cases slot : tree.condition? p with
    | none =>
      rw [slot] at under
      exact ⟨Option.not_mem_none x, under⟩
    | some before =>
      rw [slot] at under
      obtain ⟨away, under⟩ := link_release_cases under
      exact ⟨fun member => away (Option.some.inj member).symm, under⟩
  obtain ⟨rfl, rfl⟩ | before | owns := link_adopt_cases links.2
  · exact .inl ⟨rfl, rfl⟩
  · exact .inr ⟨links.1, linked x q before⟩
  · exact .inr ⟨links.1, owns⟩

end Effects

end Linked

namespace Traced

theorem linked (traced : tree.Traced) : tree.Linked :=
  fun _ _ => traced.owned

/-! ### Moves -/

theorem aside (traced : tree.Traced) (observers : List Observer) (filePath : Option String) :
    Traced { tree with observers, filePath } :=
  ⟨traced.made, traced.owned, traced.root⟩

/-- One node may get other nodes to own, as long as links lead to owners. -/
theorem moved (traced : tree.Traced) (made : ∀ {x}, other.Made x ↔ tree.Made x)
    (elsewhere : ∀ {q}, q ≠ p → other.directNodes q = tree.directNodes q)
    (root : ∀ {x}, other.root = some x → tree.root = some x)
    (fresh : ∀ {x}, other.Owns p x → tree.Made x) (linked : other.Linked) : other.Traced where
  made {q x} owns := by
    rw [made]
    by_cases same : q = p
    · exact fresh (same ▸ owns)
    · rw [Owns, elsewhere same] at owns
      exact traced.made owns
  owned {p x} under := linked x p under
  root isRoot := made.2 (traced.root (root isRoot))

section Effects

variable (traced : tree.Traced) (madeP : tree.Made p)
include traced madeP

theorem insertChild (madeChild : tree.Made child) (inside : place ≤ (tree.children p).length) :
    (tree.insertChild p child place).Traced := by
  have inner := Cell.inner_children ((tree.children p).insertIdx place child)
  have alike := Alike.adopt (tree.storeChildren p ((tree.children p).insertIdx place child)) child p
  refine traced.moved (alike.made.trans (made_modify inner))
    (fun away => alike.directNodes.trans (directNodes_modify_of_ne inner away))
    (fun isRoot => ?_) (fun {x} owned => ?_) (traced.linked.insertChild madeP inside)
  · exact root_modify.symm.trans ((root_adopt _ child p).symm.trans isRoot)
  · obtain rfl | before := (owns_insertChild madeP inside).1 owned
    · exact madeChild
    · exact traced.made before

theorem eraseChild (found : (tree.children p)[place]? = some child) :
    (tree.eraseChild p child place).Traced := by
  have inner := Cell.inner_children ((tree.children p).eraseIdx place)
  have alike := Alike.release (tree.storeChildren p ((tree.children p).eraseIdx place)) child
  refine traced.moved (alike.made.trans (made_modify inner))
    (fun away => alike.directNodes.trans (directNodes_modify_of_ne inner away))
    (fun isRoot => root_modify.symm.trans (root_release_cases isRoot))
    (fun kept => traced.made ((owns_eraseChild madeP found).2 (.inr kept)))
    (traced.linked.eraseChild madeP found)

theorem exchangeChild (found : (tree.children p)[place]? = some old) (madeNew : tree.Made new) :
    (tree.exchangeChild p old new place).Traced := by
  have inner := Cell.inner_children ((tree.children p).set place new)
  have released := Alike.release (tree.storeChildren p ((tree.children p).set place new)) old
  have alike := released.trans (Alike.adopt _ new p)
  obtain ⟨kept, owned, owns⟩ := owns_exchangeChild madeP found new
  refine traced.moved (alike.made.trans (made_modify inner))
    (fun away => alike.directNodes.trans (directNodes_modify_of_ne inner away))
    (fun isRoot => ?_) (fun {x} here => ?_) (traced.linked.exchangeChild madeP found)
  · exact root_modify.symm.trans (root_release_cases ((root_adopt _ new p).symm.trans isRoot))
  · obtain rfl | stays := (owns x).1 here
    · exact madeNew
    · exact traced.made ((owned x).2 (.inr stays))

theorem exchangeCondition (madeNew : tree.Made new) :
    ((tree.exchangeCondition (tree.condition? p) p new).storeCondition p (.holds new)).Traced := by
  have inner := Cell.inner_condition (.holds new)
  have alike := Alike.exchangeCondition tree (tree.condition? p) p new
  refine traced.moved ((made_modify inner).trans alike.made)
    (fun away => (directNodes_modify_of_ne inner away).trans alike.directNodes)
    (fun isRoot => ?_) (fun {x} here => ?_) (traced.linked.exchangeCondition madeP)
  · have isRoot := root_modify.symm.trans isRoot
    rw [← root_adopt tree new p]
    unfold Tree.exchangeCondition at isRoot
    cases slot : tree.condition? p with
    | none => rwa [slot] at isRoot
    | some before =>
      rw [slot] at isRoot
      exact root_release_cases isRoot
  · obtain held | child := (owns_storeCondition madeP alike _).1 here
    · exact Option.some.inj held ▸ madeNew
    · exact traced.made (owns_child child)

omit madeP in
theorem storeAttribute (name : String) (value : Json) : (tree.storeAttribute p name value).Traced := by
  have inner := Cell.inner_attributes name value
  refine traced.moved (made_modify inner) (directNodes_modify_of_ne inner) (root_modify.symm.trans ·)
    (fun {x} here => ?_) (traced.linked.storeAttribute name value)
  rw [Owns, directNodes_storeAttribute] at here
  exact traced.made here

end Effects

/-! ### Growing -/

theorem grown (traced : tree.Traced) (grown : tree.Grown other) : other.Traced where
  made {q x} owns := by
    rcases Nat.lt_or_ge tree.cells.size q.number with new | old
    · exact (grown.owns new owns).2.1
    · exact grown.made (traced.made ((grown.owns_iff old).1 owns))
  owned {p x} under := by
    rcases Nat.lt_or_ge tree.cells.size x.number with new | old
    · have stored : other.contains x := by
        by_contra lost
        exact Link.noConfusion ((grown.absent new lost).symm.trans under)
      obtain loose | ⟨q, owns⟩ := Sound.loose_or_owned other x
      · exact Link.noConfusion ((grown.free new stored loose).symm.trans under)
      · -- An old node owns old ones only.
        have newOwner : tree.cells.size < q.number := by
          by_contra old
          have := (traced.made ((grown.owns_iff (Nat.le_of_not_lt old)).1 owns)).number_le
          omega
        obtain rfl := Link.under.inj ((grown.owns newOwner owns).2.2.2.2.symm.trans under)
        exact owns
    · rw [link_congr (grown.older old)] at under
      exact grown.owns_of_owns (traced.owned under)
  root isRoot := grown.made (traced.root (grown.root.symm.trans isRoot))

theorem plant (traced : tree.Traced) (node : Node) : (tree.plant node).1.Traced :=
  traced.grown (grown_plant tree node)

theorem build (traced : tree.Traced) (raw : Json) : (tree.build raw).1.Traced :=
  build_induction Traced.grown traced raw

/-! ### Calls -/

section Calls

variable (traced : tree.Traced) (madeP : tree.Made p)
include traced madeP

omit madeP in
theorem setAttribute (name : String) (value : Json) : (tree.setAttribute p name value).1.Traced := by
  obtain ⟨cause, -, same⟩ | ⟨-, same⟩ := setAttribute_cases tree p name value <;> rw [same]
  · exact traced
  · exact traced.storeAttribute name value

theorem addChild {candidate : Candidate} (known : candidate.Known tree) (index : Option Int) :
    (tree.addChild p candidate index).1.Traced := by
  obtain ⟨cause, -, same⟩ | ⟨child, place, checked, same⟩ := addChild_cases tree p candidate index <;>
    rw [same]
  · exact traced
  · obtain ⟨attached, -, inside, -⟩ := checkAddChild_eq_ok.1 checked
    obtain ⟨rfl, -⟩ := linkRefusal?_eq_ok.1 (attachRefusal?_eq_ok.1 attached).1
    exact traced.insertChild madeP known (newPlace_le inside)

theorem removeChild (candidate : Candidate) : (tree.removeChild p candidate).1.Traced := by
  obtain ⟨refusal, -, same⟩ | ⟨child, place, checked, same⟩ := removeChild_cases tree p candidate <;>
    rw [same]
  · exact traced
  · obtain ⟨-, somewhere, -⟩ := checkRemoveChild_eq_ok.1 checked
    exact traced.eraseChild madeP (getElem?_of_position? somewhere)

theorem replaceChild (oldCandidate : Candidate) {candidate : Candidate}
    (known : candidate.Known tree) :
    (tree.replaceChild p oldCandidate candidate).1.Traced := by
  obtain ⟨refusal, -, same⟩ | ⟨old, new, place, checked, same⟩ :=
    replaceChild_cases tree p oldCandidate candidate <;> rw [same]
  · exact traced
  · obtain ⟨-, somewhere, attached, -⟩ := checkReplaceChild_eq_ok.1 checked
    obtain ⟨rfl, -⟩ := linkRefusal?_eq_ok.1 (attachRefusal?_eq_ok.1 attached).1
    exact traced.exchangeChild madeP (getElem?_of_position? somewhere) known

theorem setCondition {candidate : Candidate} (known : candidate.Known tree) :
    (tree.setCondition p candidate).1.Traced := by
  obtain same | ⟨cause, -, same⟩ | ⟨new, checked, same⟩ := setCondition_cases tree p candidate <;>
    rw [same]
  · exact traced
  · exact traced
  · obtain ⟨rfl, -⟩ := linkRefusal?_eq_ok.1 (checkCondition_eq_ok.1 checked).1
    exact traced.exchangeCondition madeP known

theorem setConditionText (text : String) : (tree.setConditionText p text).1.Traced := by
  obtain ⟨e, -, same⟩ | ⟨node, failure, -, -, same⟩ | ⟨node, condition, -, built, same⟩ :=
    setConditionText_cases tree p text <;> rw [same]
  · exact traced
  · exact traced.build node.toRaw
  · obtain ⟨planted, -, grown, rfl⟩ := build_eq_ok built
    rw [grown]
    exact (traced.plant planted).setCondition ((grown_plant tree planted).made madeP)
      (top_plant tree planted).1

omit madeP in
theorem setRoot? (made : tree.Made x) (passed : tree.setRoot? x = some other) : other.Traced := by
  obtain ⟨-, rfl⟩ := setRoot?_eq_some.1 passed
  exact ⟨traced.made, traced.owned, fun isRoot => Option.some.inj isRoot ▸ made⟩

end Calls

/-- **Every call on nodes of the tree keeps links traced.** -/
theorem perform (traced : tree.Traced) {call : Call} (known : call.Known tree) :
    (tree.perform call).Traced := by
  cases call with
  | create kind => exact traced.grown (grown_create tree kind)
  | build raw => exact traced.build raw
  | setRoot node =>
    show ((tree.setRoot? node).getD tree).Traced
    cases passed : tree.setRoot? node with
    | none => exact traced
    | some other => exact traced.setRoot? known passed
  | setAttribute receiver name value => exact traced.setAttribute name value
  | addChild receiver child index => exact traced.addChild known.1 known.2 index
  | removeChild receiver child => exact traced.removeChild known child
  | replaceChild receiver old new => exact traced.replaceChild known.1 old known.2
  | setCondition receiver condition => exact traced.setCondition known.1 known.2
  | setConditionText receiver text => exact traced.setConditionText known text

end Traced

/-! ### Runs -/

theorem Sound.traced (sound : tree.Sound) : tree.Traced where
  made := sound.made
  owned under := (sound.owns_of_link under).2
  root isRoot := made_of_contains (sound.root_stored isRoot).1

/-- In every possible state, links lead to owners. -/
theorem Possible.traced (possible : tree.Possible) : tree.Traced := by
  induction possible with
  | empty label settings => exact (sound_empty label settings).traced
  | call call _ known ih => exact ih.perform known
  | aside observers filePath _ ih => exact ih.aside observers filePath

/-- What is reachable where only nodes in the store are named is possible. -/
theorem Reachable.possible (reachable : tree.Reachable) : tree.Possible := by
  induction reachable with
  | empty label settings => exact .empty label settings
  | call call _ allowed ih => exact ih.call call (Call.Allowed.known allowed)

end Tree

end Verbatim
