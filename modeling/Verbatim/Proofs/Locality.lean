import Verbatim.Proofs.Tree.Regions
import Verbatim.Proofs.Tree.Regular

/-!
# Edits are local in the text

The text of a tree is what is in front of a node, what is written of the node, and what is behind it.
An edit that puts another node in its place, or that asks the node itself, changes the middle part
only, and there it does no more than it says: another node is written in full, an attribute is one
word, and a child of a block comes in or goes out where it stands.

## Main definitions

* `Tree.Spot`: a node below the root, with the texts around it
* `Tree.LocalAt`: what edits make of the text around a node

## Main results

* `Tree.Spot.emit`: the text of a tree whose root was changed at the place of a node
* `Tree.Sound.apart_of_linked`: in sound trees no node is put below what lies below it
* `Tree.localAt_of_emit`: **edits are local in the text**
-/

namespace Verbatim

/-- All attributes are written but the type of a literal. -/
theorem Kind.attribute_mem_parts {kind : Kind} {name : String} (known : name ∈ kind.attributes) :
    .attribute name ∈ kind.layout.parts ↔ name ≠ "literal_type" := by
  revert known
  cases kind <;> simp [attributes, layout, pairLayout] <;> rintro (rfl | rfl) <;> simp

theorem join_insertIdx {texts : List String} {place : Nat} (inside : place ≤ texts.length)
    (new : String) : String.join (texts.insertIdx place new) =
      String.join (texts.take place) ++ new ++ String.join (texts.drop place) := by
  induction place generalizing texts with
  | zero => simp [String.join_cons]
  | succ place ih =>
    cases texts with
    | nil => simp at inside
    | cons text rest =>
      rw [List.insertIdx_succ_cons, List.take_succ_cons, List.drop_succ_cons, String.join_cons,
        String.join_cons, ih (Nat.le_of_succ_le_succ inside)]
      simp only [String.append_assoc]

namespace Tree

open Relation

variable {tree later : Tree} {change : Change} {id root x p n m old new child : NodeId} {path : Path}
  {candidate : Candidate} {place : Nat}

/-- The nodes of regular trees have a place for what they have. -/
theorem Regular.shaped (regular : tree.Regular) (founded : tree.Founded id) :
    (tree.view id).All Node.Shaped := by
  refine founded.all_view fun x below => ?_
  rw [(founded.of_below below).view_eq]
  refine ⟨fun limit most => ?_, fun present => ?_⟩
  · rw [Node.children, List.length_map]
    exact regular.room most
  · obtain ⟨below, found⟩ := Option.isSome_iff_exists.1 present
    obtain ⟨y, slot, -⟩ := Option.map_eq_some_iff.1 found
    exact regular.slotted slot

/-! ### The root stays -/

theorem root?_eq_some : tree.root? = some root ↔ tree.root = some root ∧ tree.contains root := by
  rw [root?, Option.filter_eq_some_iff]

theorem root?_modify {change : Cell → Cell} (inner : Cell.Inner change)
    (top : tree.root? = some root) : (tree.modify p change).root? = some root := by
  obtain ⟨isRoot, stored⟩ := root?_eq_some.1 top
  refine root?_eq_some.2 ⟨root_modify.trans isRoot, ?_⟩
  rw [(tables_modify inner).1]
  exact stored

theorem contains_register (stored : tree.contains x) : (tree.register id).contains x := by
  by_cases same : x = id
  · exact same ▸ (register_self (made_of_contains (same ▸ stored))).1
  · rw [contains_congr (cell?_register.trans (if_neg same))]
    exact stored

theorem contains_restoreWithin (steps : Nat) (stored : tree.contains x) :
    (restoreWithin steps tree id).contains x := by
  induction steps generalizing tree id with
  | zero => exact contains_register stored
  | succ steps ih =>
    rw [restoreWithin]
    have further (subs : List NodeId) {now : Tree} (stored : now.contains x) : (subs.foldl
        (fun now sub => (restoreWithin steps now sub).setLink sub (.under id)) now).contains x := by
      induction subs generalizing now with
      | nil => exact stored
      | cons sub rest again =>
        refine again ?_
        rw [contains_setLink]
        exact ih stored
    exact further _ (contains_register stored)

/-- What is in the store stays there when a subtree is put somewhere. -/
theorem contains_adopt (stored : tree.contains x) : (tree.adopt child p).contains x := by
  rw [adopt, contains_setLink]
  split
  · exact stored
  · exact contains_restoreWithin _ stored

theorem root?_adopt (top : tree.root? = some root) : (tree.adopt child p).root? = some root := by
  obtain ⟨isRoot, stored⟩ := root?_eq_some.1 top
  exact root?_eq_some.2 ⟨(root_adopt tree child p).trans isRoot, contains_adopt stored⟩

section Root

variable (coherent : tree.Coherent) (isRoot : tree.root = some root) (storedP : tree.contains p)
include coherent isRoot storedP

/-- The root stays when something else is released. -/
theorem root?_release {now : Tree} {brought : Option NodeId} (owns : tree.Owns p x)
    (changed : tree.ChangedAt now p brought) (top : now.root? = some root) :
    (now.release x).root? = some root := by
  obtain ⟨isRootToo, stored⟩ := root?_eq_some.1 top
  have storedX := (coherent.owned p storedP x owns).1
  have notRoot : root ≠ x := fun same => coherent.not_owns_root isRoot storedP (same ▸ owns)
  refine root?_eq_some.2 ⟨(root_release ?_).trans isRootToo, contains_release.2 ⟨stored, ?_⟩⟩
  · exact isRootToo ▸ fun same => notRoot (Option.some.inj same)
  · intro member
    -- Walking down from the released node does not lead to its owner, so what is new is not passed.
    have below : tree.Below x root := by
      obtain same | strictly := reflTransGen_iff_eq_or_transGen.1 (below_of_mem_subtreeWithin member)
      · exact absurd same notRoot
      · obtain before | ⟨new, -, above, -⟩ := below_or_through changed.owns_cases strictly
        · exact before.to_reflTransGen
        · exact absurd above (coherent.not_below_owner storedP owns)
    obtain same | ⟨owner, above, ownsRoot⟩ := below.cases_owner
    · exact notRoot same
    · exact coherent.not_owns_root isRoot (coherent.contains_below storedX above) ownsRoot

theorem root?_eraseChild (owns : tree.Owns p child) :
    (tree.eraseChild p child place).root? = some root := by
  have changed : tree.ChangedAt (tree.storeChildren p ((tree.children p).eraseIdx place)) p none :=
    changedAt_storeChildren (made_of_contains storedP)
      fun x member => .inl (List.mem_of_mem_eraseIdx member)
  exact root?_release coherent isRoot storedP owns changed
    (root?_modify (Cell.inner_children _) (root?_eq_some.2 ⟨isRoot, (coherent.root root isRoot).1⟩))

theorem root?_exchangeChild (owns : tree.Owns p old) :
    (tree.exchangeChild p old new place).root? = some root := by
  have changed : tree.ChangedAt (tree.storeChildren p ((tree.children p).set place new)) p
      (some new) :=
    changedAt_storeChildren (made_of_contains storedP) fun x member =>
      (List.mem_or_eq_of_mem_set member).imp_right fun same => congrArg some same.symm
  exact root?_adopt (root?_release coherent isRoot storedP owns changed
    (root?_modify (Cell.inner_children _) (root?_eq_some.2 ⟨isRoot, (coherent.root root isRoot).1⟩)))

theorem root?_exchangeCondition :
    (tree.exchangeCondition (tree.condition? p) p new).root? = some root := by
  have adopted : (tree.adopt new p).root? = some root :=
    root?_adopt (root?_eq_some.2 ⟨isRoot, (coherent.root root isRoot).1⟩)
  unfold exchangeCondition
  cases slot : tree.condition? p with
  | none => exact adopted
  | some old =>
    exact root?_release coherent isRoot storedP (owns_condition slot)
      ((Alike.adopt tree new p).matches.changedAt p) adopted

end Root

/-! ### Around a node -/

/-- A node below the root, with its path and the texts around it. -/
structure Spot (tree : Tree) (root n : NodeId) (path : Path) (front own back : String) : Prop where
  isRoot : tree.root = some root
  stored : tree.contains n
  reached : tree.descend root (path.map PathStep.request) = .ok n
  written : tree.source n = .ok own
  changed : ∀ change, ((tree.view root).update change path).render =
    (change (tree.view n)).render.map fun own => front ++ own ++ back

theorem emit_of_root (top : tree.root? = some root) :
    tree.emit = (tree.source root).mapError .render := by
  rw [emit, top]

variable {front own back : String}

/-- What is said of the text when the value of the root is changed at the place of the node. -/
theorem Spot.emit (spot : tree.Spot root n path front own back) (top : later.root? = some root)
    {value : Node} {text : String} (written : value.render = .ok text)
    (view : later.view root = (tree.view root).update (fun _ => value) path) :
    later.emit = .ok (front ++ text ++ back) := by
  rw [emit_of_root top, source, view, spot.changed, written]
  rfl

/-- What edits make of the text of a tree in which `front` is in front of a node, `own` is what is
written of it, and `back` is behind it. The receivers are in the store. What is put below them can be
written, so walking down from it ends, and it is not above them. The checks see to that as long as every
node has one owner. Where a node that left the tree is above the receiver all the same, putting it there
does not come to an end. -/
structure LocalAt (tree : Tree) (n : NodeId) (front own back : String) : Prop where
  /-- Another child in place of the node is written there. -/
  replaced : ∀ {p m : NodeId} {new : String} {change : Change}, tree.contains p → tree.Founded m →
    ¬ tree.Below m p → tree.source m = .ok new →
    (tree.replaceChild p (.own n) (.own m)).2 = .ok change →
    (tree.replaceChild p (.own n) (.own m)).1.emit = .ok (front ++ new ++ back)
  /-- So is another condition. -/
  exchanged : ∀ {p m : NodeId} {new : String} {result : Option Change}, tree.contains p →
    tree.condition? p = some n → tree.Founded m → ¬ tree.Below m p → tree.source m = .ok new →
    (tree.setCondition p (.own m)).2 = .ok result →
    (tree.setCondition p (.own m)).1.emit = .ok (front ++ new ++ back)
  /-- An attribute is one word, and the type of a literal is none. -/
  attributeSet : ∀ {name : String} {value : Json} {change : Change},
    (tree.setAttribute n name value).2 = .ok change →
    ∃ new, (tree.setAttribute n name value).1.source n = .ok new ∧
      (tree.setAttribute n name value).1.emit = .ok (front ++ new ++ back) ∧
      (name = "literal_type" → new = own) ∧
      (name ≠ "literal_type" → ∃ head old tail, tree.attribute? n name = some old ∧
        own = head ++ old.plainText ++ tail ∧ new = head ++ value.plainText ++ tail)
  /-- A child of a block comes in at its place. -/
  added : n.kind.Block → ∀ {m : NodeId} {new : String} {index : Option Int} {change : Change},
    tree.Founded m → ¬ tree.Below m n → tree.source m = .ok new →
    (tree.addChild n (.own m) index).2 = .ok change →
    ∃ head texts tail place, (tree.children n).map tree.source = texts.map .ok ∧
      own = head ++ String.join texts ++ tail ∧ change.index = some place ∧ place ≤ texts.length ∧
      (tree.addChild n (.own m) index).1.emit = .ok (front ++ (head ++
        (String.join (texts.take place) ++ new ++ String.join (texts.drop place)) ++ tail) ++ back)
  /-- A child of a block goes out of its place. -/
  removed : n.kind.Block → ∀ {x : NodeId} {change : Change},
    (tree.removeChild n (.own x)).2 = .ok change →
    ∃ head texts gone tail place, (tree.children n).map tree.source = texts.map .ok ∧
      own = head ++ String.join texts ++ tail ∧ change.index = some place ∧
      texts[place]? = some gone ∧ tree.source x = .ok gone ∧
      (tree.removeChild n (.own x)).1.emit = .ok (front ++ (head ++
        (String.join (texts.take place) ++ String.join (texts.drop (place + 1))) ++ tail) ++ back)

/-! ### Edits one by one -/

/-- Only the condition that is there changes nothing. -/
theorem eq_of_setCondition_none (worked : (tree.setCondition p (.own m)).2 = .ok none) :
    tree.condition? p = some m := by
  unfold setCondition at worked
  dsimp only at worked
  split at worked
  · next same => exact of_decide_eq_true same
  · split at worked
    · exact nomatch worked
    · obtain ⟨change, -, same⟩ := map_eq_ok.1 worked
      exact nomatch same

/-- A condition that is set can be linked, and takes the place of the one before. -/
theorem setCondition_eq (worked : (tree.setCondition p (.own m)).2 = .ok (some change)) :
    tree.linkRefusal? p (.own m) = .ok m ∧ (tree.setCondition p (.own m)).1 =
      (tree.exchangeCondition (tree.condition? p) p m).storeCondition p (.holds m) := by
  obtain same | ⟨cause, -, same⟩ | ⟨new, checked, same⟩ := setCondition_cases tree p (.own m) <;>
    rw [same] at worked ⊢
  · exact nomatch Except.ok.inj worked
  · exact nomatch worked
  · have linked := (checkCondition_eq_ok.1 checked).1
    obtain ⟨⟨rfl⟩, -⟩ := linkRefusal?_eq_ok.1 linked
    exact ⟨linked, rfl⟩

theorem matches_exchangeCondition (tree : Tree) (p m : NodeId) :
    (tree.storeCondition p (.holds m)).Matches
      ((tree.exchangeCondition (tree.condition? p) p m).storeCondition p (.holds m)) :=
  (Alike.exchangeCondition tree _ p m).matches.storeCondition rfl

/-- What passes the check of a link in a sound tree is not above the receiver. -/
theorem Sound.apart_of_linked (sound : tree.Sound) (storedP : tree.contains p)
    (passed : tree.linkRefusal? p candidate = .ok new) : ¬ tree.Below new p := fun below =>
  (linkRefusal?_eq_ok.1 passed).2.2.2 ((sound.mem_lineage storedP).2 below)

/-- What passes the check of a link is not owned by the receiver. -/
theorem Coherent.ne_of_linked (coherent : tree.Coherent) (storedP : tree.contains p)
    (passed : tree.linkRefusal? p candidate = .ok new) (owns : tree.Owns p old) : new ≠ old := by
  rintro rfl
  obtain ⟨-, loose, -⟩ := linkRefusal?_eq_ok.1 passed
  exact Option.some_ne_none p ((coherent.parent?_eq_some storedP owns).symm.trans loose)

section Edits

variable (regular : tree.Regular) (spot : tree.Spot root n path front own back)
include regular spot

/-- The node itself holds something else. -/
theorem Spot.emit_of_changedAt {brought : Option NodeId} (changed : tree.ChangedAt later n brought)
    (fits : ∀ new ∈ brought, tree.Founded new ∧ ¬ tree.Below new n) (top : later.root? = some root)
    {text : String} (written : later.source n = .ok text) :
    later.emit = .ok (front ++ text ++ back) :=
  spot.emit top written (changed.view_update regular.coherent fits
    (regular.coherent.root root spot.isRoot).1 spot.reached)

theorem Spot.attributeSet {name : String} {value : Json}
    (worked : (tree.setAttribute n name value).2 = .ok change) :
    ∃ new, (tree.setAttribute n name value).1.source n = .ok new ∧
      (tree.setAttribute n name value).1.emit = .ok (front ++ new ++ back) ∧
      (name = "literal_type" → new = own) ∧
      (name ≠ "literal_type" → ∃ head old tail, tree.attribute? n name = some old ∧
        own = head ++ old.plainText ++ tail ∧ new = head ++ value.plainText ++ tail) := by
  have founded := regular.coherent.founded spot.stored
  have made := made_of_contains spot.stored
  obtain ⟨cause, -, same⟩ | ⟨checked, same⟩ := setAttribute_cases tree n name value <;>
    rw [same] at worked ⊢
  · contradiction
  · have settable := settable_of_attributeRefusal? (checked regular.calm)
    obtain ⟨text, rfl⟩ := Node.exists_text_of_good settable.good
    have changed := changedAt_storeAttribute tree n name (.text text)
    have view : (tree.storeAttribute n name (.text text)).view n =
        (tree.view n).withAttribute name (.text text) :=
      Matches.view_storeAttribute founded (changed.founded founded nofun)
        (fun x => changed.view_of_owns regular.coherent spot.stored nofun) made (.refl _)
    have top : (tree.storeAttribute n name (.text text)).root? = some root :=
      root?_modify (Cell.inner_attributes _ _)
        (root?_eq_some.2 ⟨spot.isRoot, (regular.coherent.root root spot.isRoot).1⟩)
    have emits {new : String} (written : ((tree.view n).withAttribute name (.text text)).render =
        .ok new) : (tree.storeAttribute n name (.text text)).source n = .ok new ∧
          (tree.storeAttribute n name (.text text)).emit = .ok (front ++ new ++ back) := by
      have written : (tree.storeAttribute n name (.text text)).source n = .ok new := by
        rw [source, view, written]
      exact ⟨written, spot.emit_of_changedAt regular changed nofun top written⟩
    have known : name ∈ (tree.view n).kind.attributes :=
      (tree.kind_view n).symm ▸ settable.known
    have written := Kind.attribute_mem_parts known
    by_cases literal : name = "literal_type"
    · have unwritten := Node.render_unwritten (mt written.1 (not_not_intro literal)) (.text text)
      obtain ⟨here, whole⟩ := emits (unwritten.trans spot.written)
      exact ⟨own, here, whole, fun _ => rfl, fun other => absurd literal other⟩
    · obtain ⟨head, old, tail, found, rfl, becomes⟩ :=
        Node.render_attribute (written.2 literal) spot.written
      obtain ⟨here, whole⟩ := emits (becomes (.text text) Json.noConfusion)
      rw [founded.view_eq, Node.attributes, lookup_attributes] at found
      exact ⟨_, here, whole, fun same => absurd same literal,
        fun _ => ⟨head, old, tail, found, rfl, rfl⟩⟩

/-- The node is a block and gets other children. -/
theorem Spot.emit_of_children (block : n.kind.Block) {brought : Option NodeId}
    {children : List NodeId} (changed : tree.ChangedAt later n brought)
    (fits : ∀ new ∈ brought, tree.Founded new ∧ ¬ tree.Below new n) (top : later.root? = some root)
    (becomes : (tree.storeChildren n children).Matches later) :
    ∃ head texts tail, (tree.children n).map tree.source = texts.map .ok ∧
      own = head ++ String.join texts ++ tail ∧ ∀ texts : List String,
        children.map tree.source = texts.map .ok →
          later.emit = .ok (front ++ (head ++ String.join texts ++ tail) ++ back) := by
  have founded := regular.coherent.founded spot.stored
  have block : (tree.view n).kind.Block := (tree.kind_view n).symm ▸ block
  obtain ⟨head, texts, tail, each, rfl, others⟩ := Node.render_block block spot.written
  refine ⟨head, texts, tail, ?_, rfl, fun texts each => ?_⟩
  · rwa [founded.view_eq, Node.children, List.map_map] at each
  · have view : later.view n = (tree.view n).withChildren (children.map tree.view) :=
      becomes.view_storeChildren founded (changed.founded founded fits)
        (fun x => changed.view_of_owns regular.coherent spot.stored fun new member =>
          (fits new member).2) (made_of_contains spot.stored)
    refine spot.emit_of_changedAt regular changed fits top ?_
    rw [source, view]
    exact others _ texts ((List.map_map ..).trans each)

theorem Spot.added (block : n.kind.Block) {new : String} {index : Option Int}
    (founded : tree.Founded m) (apart : ¬ tree.Below m n) (written : tree.source m = .ok new)
    (worked : (tree.addChild n (.own m) index).2 = .ok change) :
    ∃ head texts tail place, (tree.children n).map tree.source = texts.map .ok ∧
      own = head ++ String.join texts ++ tail ∧ change.index = some place ∧ place ≤ texts.length ∧
      (tree.addChild n (.own m) index).1.emit = .ok (front ++ (head ++
        (String.join (texts.take place) ++ new ++ String.join (texts.drop place)) ++ tail) ++ back) := by
  have leads := (led_addChild spot.stored worked).1.changedAt
  obtain ⟨cause, -, same⟩ | ⟨child, place, checked, same⟩ := addChild_cases tree n (.own m) index <;>
    rw [same] at worked leads ⊢
  · contradiction
  · obtain ⟨attached, -, inside, -⟩ := checkAddChild_eq_ok.1 checked
    have inside := newPlace_le inside
    obtain ⟨⟨rfl⟩, -⟩ := linkRefusal?_eq_ok.1 (attachRefusal?_eq_ok.1 attached).1
    obtain ⟨path, rfl⟩ := described_eq_ok worked
    have top := root?_eq_some.2 ⟨spot.isRoot, (regular.coherent.root root spot.isRoot).1⟩
    obtain ⟨head, texts, tail, each, rfl, emits⟩ := spot.emit_of_children regular block leads
      (fun _ member => Option.some.inj member ▸ ⟨founded, apart⟩)
      (root?_adopt (root?_modify (Cell.inner_children _) top)) (Alike.adopt _ m n).matches
    have length : (tree.children n).length = texts.length := by
      simpa using congrArg List.length each
    refine ⟨head, texts, tail, place, each, rfl, rfl, length ▸ inside, ?_⟩
    rw [← join_insertIdx (length ▸ inside)]
    refine emits _ ?_
    rw [List.map_insertIdx, each, List.map_insertIdx, written]

theorem Spot.removed (block : n.kind.Block)
    (worked : (tree.removeChild n (.own x)).2 = .ok change) :
    ∃ head texts gone tail place, (tree.children n).map tree.source = texts.map .ok ∧
      own = head ++ String.join texts ++ tail ∧ change.index = some place ∧
      texts[place]? = some gone ∧ tree.source x = .ok gone ∧
      (tree.removeChild n (.own x)).1.emit = .ok (front ++ (head ++
        (String.join (texts.take place) ++ String.join (texts.drop (place + 1))) ++ tail) ++ back) := by
  have leads := (led_removeChild spot.stored worked).1.changedAt
  obtain ⟨refusal, -, same⟩ | ⟨child, place, checked, same⟩ := removeChild_cases tree n (.own x) <;>
    rw [same] at worked leads ⊢
  · contradiction
  · obtain ⟨⟨rfl⟩, spotted, -⟩ := checkRemoveChild_eq_ok.1 checked
    have found := getElem?_of_position? spotted
    obtain ⟨path, rfl⟩ := described_eq_ok worked
    obtain ⟨head, texts, tail, each, rfl, emits⟩ := spot.emit_of_children regular block leads nofun
      (root?_eraseChild regular.coherent spot.isRoot spot.stored
        (owns_child (List.mem_of_getElem? found))) (Alike.release _ x).matches
    obtain ⟨gone, there, written⟩ : ∃ gone, texts[place]? = some gone ∧
        tree.source x = .ok gone := by
      have here := congrArg (·[place]?) each
      simp only [List.getElem?_map, found, Option.map_some] at here
      obtain ⟨gone, there, same⟩ := Option.map_eq_some_iff.1 here.symm
      exact ⟨gone, there, same.symm⟩
    refine ⟨head, texts, gone, tail, place, each, rfl, rfl, there, written, ?_⟩
    rw [← String.join_append, ← List.eraseIdx_eq_take_drop_succ]
    refine emits _ ?_
    rw [← List.eraseIdx_map, each, List.eraseIdx_map]

section Exchange

variable (storedP : tree.contains p)
include storedP

/-- Another node is in place of the node, below what owns it. -/
theorem Spot.emit_of_exchange (owns : tree.Owns p n) {brought : Option NodeId}
    (changed : tree.ChangedAt later p brought)
    (fits : ∀ new ∈ brought, tree.Founded new ∧ ¬ tree.Below new p) (top : later.root? = some root)
    {new : String} (written : tree.source m = .ok new)
    (view : ∀ step : PathStep, tree.step? p step.request = some n →
      later.view p = (tree.view p).update (fun _ => tree.view m) [step]) :
    later.emit = .ok (front ++ new ++ back) := by
  have reached := spot.reached
  have storedRoot := (regular.coherent.root root spot.isRoot).1
  refine spot.emit top written ?_
  rcases List.eq_nil_or_concat path with rfl | ⟨above, step, rfl⟩
  · obtain rfl := Except.ok.inj reached
    exact absurd owns (regular.coherent.not_owns_root spot.isRoot storedP)
  · rw [List.concat_eq_append] at reached ⊢
    obtain ⟨q, reached, stepped⟩ := descend_concat.1 reached
    obtain rfl : q = p := regular.coherent.owner
      (regular.coherent.contains_below storedRoot (below_of_descend reached)) storedP
      (owns_of_step? stepped) owns
    rw [changed.view_update regular.coherent fits storedRoot reached, Node.update_append]
    exact Node.update_congr ((regular.coherent.founded storedRoot).at?_of_descend reached)
      (view step stepped)

theorem Spot.replaced {new : String} (ends : tree.Founded m) (apart : ¬ tree.Below m p)
    (written : tree.source m = .ok new)
    (worked : (tree.replaceChild p (.own n) (.own m)).2 = .ok change) :
    (tree.replaceChild p (.own n) (.own m)).1.emit = .ok (front ++ new ++ back) := by
  have founded := regular.coherent.founded storedP
  obtain ⟨refusal, -, same⟩ | ⟨old, new, place, checked, same⟩ :=
    replaceChild_cases tree p (.own n) (.own m) <;> rw [same] at worked ⊢
  · contradiction
  · obtain ⟨⟨rfl⟩, spotted, attached, -⟩ := checkReplaceChild_eq_ok.1 checked
    have found := getElem?_of_position? spotted
    have owns := owns_child (List.mem_of_getElem? found)
    have linked := (attachRefusal?_eq_ok.1 attached).1
    have different := regular.coherent.ne_of_linked storedP linked owns
    obtain ⟨⟨rfl⟩, -⟩ := linkRefusal?_eq_ok.1 linked
    have becomes := ((Alike.release (tree.storeChildren p ((tree.children p).set place m)) n).trans
      (Alike.adopt _ m p)).matches
    have leads := @Leads.replace tree (tree.exchangeChild p n m place) p n m [] place
      (made_of_contains storedP) found different becomes
    have changed := leads.changedAt
    have fits : ∀ x ∈ some m, tree.Founded x ∧ ¬ tree.Below x p := fun _ member =>
      Option.some.inj member ▸ ⟨ends, apart⟩
    refine spot.emit_of_exchange regular storedP owns changed fits
      (root?_exchangeChild regular.coherent spot.isRoot storedP owns) written
      fun step stepped => ?_
    have distinct := List.nodup_append.1 (regular.coherent.distinct p storedP)
    have view := becomes.view_storeChildren founded (changed.founded founded fits)
      (fun x => changed.view_of_owns regular.coherent storedP fun new member =>
        (fits new member).2) (made_of_contains storedP)
    have children : (tree.view p).children = (tree.children p).map tree.view := by
      rw [founded.view_eq, Node.children]
    cases step with
    | condition =>
      exact absurd rfl (distinct.2.2 n (Option.mem_toList.2 stepped) n (List.mem_of_getElem? found))
    | index spot =>
      rw [step?_index] at stepped
      obtain rfl := (List.getElem?_inj (List.getElem?_eq_some_iff.1 found).1 distinct.2.1).1
        (found.trans stepped.symm)
      rw [← Node.withChildren_set, children, ← List.map_set]
      exact view

theorem Spot.exchanged {new : String} {result : Option Change} (slot : tree.condition? p = some n)
    (ends : tree.Founded m) (apart : ¬ tree.Below m p) (written : tree.source m = .ok new)
    (worked : (tree.setCondition p (.own m)).2 = .ok result) :
    (tree.setCondition p (.own m)).1.emit = .ok (front ++ new ++ back) := by
  have founded := regular.coherent.founded storedP
  have owns := owns_condition slot
  cases result with
  | none =>
    obtain rfl := Option.some.inj (slot.symm.trans (eq_of_setCondition_none worked))
    obtain same | ⟨cause, -, same⟩ | ⟨new, -, same⟩ := setCondition_cases tree p (.own n) <;>
      rw [same] at worked ⊢
    · exact spot.emit_of_changedAt regular ((Matches.refl tree).changedAt n) nofun
        (root?_eq_some.2 ⟨spot.isRoot, (regular.coherent.root root spot.isRoot).1⟩) written
    · exact nomatch worked
    · obtain ⟨change, -, same⟩ := map_eq_ok.1 worked
      exact nomatch same
  | some change =>
    obtain ⟨-, same⟩ := setCondition_eq worked
    rw [same]
    have becomes := matches_exchangeCondition tree p m
    have changed := (changedAt_storeCondition (made_of_contains storedP) _).matches becomes
    have fits : ∀ x ∈ some m, tree.Founded x ∧ ¬ tree.Below x p := fun _ member =>
      Option.some.inj member ▸ ⟨ends, apart⟩
    refine spot.emit_of_exchange regular storedP owns changed fits
      (root?_modify (Cell.inner_condition _)
        (root?_exchangeCondition regular.coherent spot.isRoot storedP))
      written fun step stepped => ?_
    have distinct := List.nodup_append.1 (regular.coherent.distinct p storedP)
    have view := Matches.view_storeCondition founded (changed.founded founded fits)
      (fun x => changed.view_of_owns regular.coherent storedP fun new member =>
        (fits new member).2) (made_of_contains storedP) becomes
    have condition : (tree.view p).condition = some (tree.view n) := by
      rw [founded.view_eq, Node.condition, slot, Option.map_some]
    cases step with
    | condition =>
      rw [← Node.withCondition_eq condition]
      exact view
    | index spot =>
      rw [step?_index] at stepped
      exact absurd rfl
        (distinct.2.2 n (Option.mem_toList.2 slot) n (List.mem_of_getElem? stepped))

end Exchange

end Edits

/-- Every node below the root of a tree that has a text stands somewhere in it. -/
theorem Regular.spot (regular : tree.Regular) (isRoot : tree.root = some root)
    (below : tree.Below root n) {text : String} (emitted : tree.emit = .ok text) :
    ∃ path front own back, tree.path n = .ok path ∧
      (tree.view root).around? path = some (front, back) ∧ text = front ++ own ++ back ∧
      tree.Spot root n path front own back := by
  have coherent := regular.coherent
  have storedRoot := (coherent.root root isRoot).1
  obtain ⟨path, found⟩ := coherent.path_ok n
  have reached := coherent.descend_path isRoot below found
  rw [emit_of_root (root?_eq_some.2 ⟨isRoot, storedRoot⟩), mapError_eq_ok] at emitted
  have founded := coherent.founded storedRoot
  obtain ⟨front, own, back, around, written, split, changed⟩ :=
    Node.render_around (regular.shaped founded) (founded.at?_of_descend reached) emitted
  exact ⟨path, front, own, back, found, around, split,
    isRoot, coherent.contains_below storedRoot below, reached, written, changed⟩

/-- **Edits are local in the text.** -/
theorem localAt_of_emit (regular : tree.Regular) (isRoot : tree.root = some root)
    (below : tree.Below root n) {text : String} (emitted : tree.emit = .ok text) :
    ∃ path front own back, tree.path n = .ok path ∧
      (tree.view root).around? path = some (front, back) ∧ tree.source n = .ok own ∧
      text = front ++ own ++ back ∧ tree.LocalAt n front own back := by
  obtain ⟨path, front, own, back, found, around, rfl, spot⟩ := regular.spot isRoot below emitted
  exact ⟨path, front, own, back, found, around, spot.written, rfl, {
    replaced := fun storedP ends apart written worked =>
      spot.replaced regular storedP ends apart written worked
    exchanged := fun storedP slot ends apart written worked =>
      spot.exchanged regular storedP slot ends apart written worked
    attributeSet := fun worked => spot.attributeSet regular worked
    added := fun block _ _ _ _ ends apart written worked =>
      spot.added regular block ends apart written worked
    removed := fun block _ _ worked => spot.removed regular block worked }⟩

/-- The condition of a loop behind another statement is replaced. -/
theorem localAt_of_emit_loop : ∃ (tree : Tree) (root loop n m : NodeId) (text : String),
    tree.Regular ∧ tree.root = some root ∧ tree.Below root n ∧ tree.emit = .ok text ∧
      ∃ path front own back, tree.path n = .ok path ∧
        (tree.view root).around? path = some (front, back) ∧ tree.source n = .ok own ∧
        text = front ++ own ++ back ∧ tree.LocalAt n front own back ∧ own = "x" ∧
        (tree.setCondition loop (.own m)).1.emit = .ok (front ++ "y" ++ back) := by
  let reference (name : String) : Node :=
    .mk .reference [("variable_name", .text name)] none [] []
  let node : Node := .mk .compilationUnit [] none
    [.mk .returnStatement [] none [] [], .mk .whileLoop [] (some (reference "x")) [] []] []
  let unit : NodeId := ⟨.compilationUnit, 1⟩
  let loop : NodeId := ⟨.whileLoop, 3⟩
  let old : NodeId := ⟨.reference, 4⟩
  let new : NodeId := ⟨.reference, 5⟩
  obtain ⟨first, built⟩ : ∃ tree, tree = (empty "t" {}).perform (.build node.toJson) := ⟨_, rfl⟩
  obtain ⟨second, rooted⟩ : ∃ tree, tree = first.perform (.setRoot unit) := ⟨_, rfl⟩
  obtain ⟨tree, more⟩ : ∃ tree, tree = second.perform (.build (reference "y").toJson) := ⟨_, rfl⟩
  have whole : tree = (((empty "t" {}).perform (.build node.toJson)).perform (.setRoot unit)).perform
      (.build (reference "y").toJson) := by rw [more, rooted, built]
  have inside : first.contains unit := by
    rw [built]
    cbv
  have assembled : first.Assembled := built ▸ .call (.build node.toJson) (.empty "t" {}) trivial trivial
  have assembled : second.Assembled := rooted ▸ assembled.call (.setRoot unit) inside trivial
  have assembled : tree.Assembled :=
    more ▸ assembled.call (.build (reference "y").toJson) trivial trivial
  have regular := assembled.neat.regular
  have isRoot : tree.root = some unit := by
    rw [whole]
    cbv
  have owns : (tree.directNodes unit).contains loop ∧ (tree.directNodes loop).contains old := by
    rw [whole]
    cbv
  have below : tree.Below unit old := .tail (.single (List.contains_iff_mem.1 owns.1))
    (List.contains_iff_mem.1 owns.2)
  have emitted : ∃ text, tree.emit = .ok text := by
    rw [whole]
    exact ⟨_, by cbv⟩
  obtain ⟨text, emitted⟩ := emitted
  obtain ⟨path, front, own, back, found, around, written, split, localAt⟩ :=
    localAt_of_emit regular isRoot below emitted
  have views : tree.view old = reference "x" ∧ tree.view new = reference "y" := by
    rw [whole]
    cbv
    exact ⟨rfl, rfl⟩
  have sources : tree.source old = .ok "x" ∧ tree.source new = .ok "y" := by
    rw [source, source, views.1, views.2]
    exact ⟨rfl, rfl⟩
  have facts : tree.contains loop ∧ tree.condition? loop = some old := by
    rw [whole]
    exact ⟨by cbv, by cbv⟩
  obtain rfl : own = "x" := Except.ok.inj (written.symm.trans sources.1)
  have apart : ¬ tree.Below new loop := fun below => by
    have nothing : tree.directNodes new = [] := by
      rw [whole]
      cbv
    obtain same | ⟨sub, owns, -⟩ := ReflTransGen.cases_head below
    · exact absurd same (by decide)
    · rw [Owns, nothing] at owns
      contradiction
  have worked : ∃ result, (tree.setCondition loop (.own new)).2 = .ok result := by
    rw [whole]
    exact ⟨_, by cbv⟩
  obtain ⟨result, worked⟩ := worked
  exact ⟨tree, unit, loop, old, new, text, regular, isRoot, below, emitted, path, front, "x", back,
    found, around, written, split, localAt, rfl, localAt.exchanged facts.1 facts.2
      (assembled.neat.sound.founded new) apart sources.2 worked⟩

end Tree

end Verbatim
