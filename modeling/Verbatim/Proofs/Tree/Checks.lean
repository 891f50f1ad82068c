import Verbatim.Proofs.Steps
import Verbatim.Proofs.Tree.Sound

/-!
# What edits do

Every edit is refused and leaves the tree, or does the one thing that its check let through. What is
proved of edits is read off this, and no edit is taken apart again.

Each check of an edit is spelled out as the list of what it asks for. The checks of the grammar are
among it only where no recorded states are put back.

## Main results

* `Tree.checkAddChild_eq_ok`, `Tree.checkRemoveChild_eq_ok`, `Tree.checkReplaceChild_eq_ok`,
  `Tree.checkCondition_eq_ok`: the checks of the four edits that move nodes
* `Tree.children_of_checkAddChild`, `Tree.children_of_checkReplaceChild`: what the children are like
  with a new one
* `Tree.setAttribute_cases`, `Tree.addChild_cases`, `Tree.removeChild_cases`,
  `Tree.replaceChild_cases`, `Tree.setCondition_cases`, `Tree.setConditionText_cases`: **all that an
  edit can do**
-/

namespace Verbatim

namespace Tree

variable {tree : Tree} {p child old new node : NodeId} {candidate oldCandidate : Candidate}
  {place : Nat} {index : Option Int}

theorem attachRefusal?_eq_ok : tree.attachRefusal? p candidate = .ok node ↔
    tree.linkRefusal? p candidate = .ok node ∧
      (tree.settings.strictStructure → p.kind.accepts.contains node.kind.category) := by
  simp only [attachRefusal?, bind_eq_ok, guard_eq_ok, pure, Except.pure, Except.ok.injEq]
  constructor
  · rintro ⟨found, linked, fits, rfl⟩
    exact ⟨linked, by simpa using fits⟩
  · rintro ⟨linked, fits⟩
    exact ⟨node, linked, by simpa using fits, rfl⟩

/-- The place for a new child is at most behind all others. -/
theorem newPlace_le (found : tree.newPlace p index = .ok place) :
    place ≤ (tree.children p).length := by
  cases index with
  | none =>
    obtain rfl := Except.ok.inj found
    exact Nat.le_refl _
  | some index =>
    by_cases inside : 0 ≤ index ∧ index ≤ (tree.children p).length
    · rw [newPlace, if_pos inside] at found
      obtain rfl := Except.ok.inj found
      omega
    · rw [newPlace, if_neg inside] at found
      contradiction

theorem newPlace_of_le (inside : place ≤ (tree.children p).length) :
    tree.newPlace p (some place) = .ok place := by
  have bounds : (0 : Int) ≤ place ∧ (place : Int) ≤ (tree.children p).length := by omega
  simp only [newPlace, bounds, and_self, if_true, Int.toNat_natCast]

/-- While recorded states are put back, every arrangement will do. -/
theorem checkArrangement_of_replaying (replaying : tree.replaying) (children : List NodeId) :
    tree.checkArrangement p children = .ok () := by
  rw [checkArrangement, if_pos replaying]

theorem indexOf_eq_ok : tree.indexOf p candidate = .ok (place, child) ↔
    candidate = .own child ∧ tree.position? p child = some place := by
  unfold indexOf
  cases candidate with
  | nothing | value | foreign => simp
  | own other =>
    cases found : tree.position? p other with
    | none =>
      simp only [found, Option.map_none, reduceCtorEq, Candidate.own.injEq, false_iff]
      rintro ⟨rfl, somewhere⟩
      exact absurd (somewhere.symm.trans found) (Option.some_ne_none place)
    | some at_ =>
      simp only [found, Option.map_some, Except.ok.injEq, Prod.mk.injEq, Candidate.own.injEq]
      constructor
      · rintro ⟨rfl, rfl⟩
        exact ⟨rfl, found⟩
      · rintro ⟨rfl, somewhere⟩
        exact ⟨Option.some.inj (found.symm.trans somewhere), rfl⟩

theorem checkAddChild_eq_ok : tree.checkAddChild p candidate index = .ok (child, place) ↔
    tree.attachRefusal? p candidate = .ok child ∧
      (∀ limit, p.kind.maxChildren = some limit → (tree.children p).length < limit) ∧
      tree.newPlace p index = .ok place ∧
      tree.checkArrangement p ((tree.children p).insertIdx place child) = .ok () := by
  unfold checkAddChild
  cases p.kind.maxChildren with
  | none =>
    simp only [bind_eq_ok, pure, Except.pure, Except.ok.injEq, Prod.mk.injEq]
    constructor
    · rintro ⟨found, attached, spot, someplace, done, arranged, rfl, rfl⟩
      exact ⟨attached, fun limit most => absurd most.symm (Option.some_ne_none limit), someplace,
        arranged⟩
    · rintro ⟨attached, -, someplace, arranged⟩
      exact ⟨child, attached, place, someplace, (), arranged, rfl, rfl⟩
  | some limit =>
    simp only [guard_eq_ok, bind_eq_ok, pure, Except.pure, Except.ok.injEq, Prod.mk.injEq]
    constructor
    · rintro ⟨found, attached, room, spot, someplace, done, arranged, rfl, rfl⟩
      refine ⟨attached, ?_, someplace, arranged⟩
      rintro bound same
      obtain rfl := Option.some.inj same
      exact Nat.lt_of_not_le room
    · rintro ⟨attached, room, someplace, arranged⟩
      exact ⟨child, attached, Nat.not_le.2 (room limit rfl), place, someplace, (), arranged, rfl,
        rfl⟩

theorem checkRemoveChild_eq_ok : tree.checkRemoveChild p candidate = .ok (child, place) ↔
    candidate = .own child ∧ tree.position? p child = some place ∧
      (¬ tree.replaying → p.kind.minChildren < (tree.children p).length) ∧
      tree.checkArrangement p ((tree.children p).eraseIdx place) = .ok () := by
  simp only [checkRemoveChild, bind_eq_ok, guard_eq_ok, mapError_eq_ok, pure, Except.pure,
    Except.ok.injEq, Prod.mk.injEq, Prod.exists, indexOf_eq_ok]
  constructor
  · rintro ⟨spot, found, ⟨own, somewhere⟩, enough, done, arranged, rfl, rfl⟩
    exact ⟨own, somewhere, by simpa using enough, arranged⟩
  · rintro ⟨own, somewhere, enough, arranged⟩
    exact ⟨place, child, ⟨own, somewhere⟩, by simpa using enough, (), arranged, rfl, rfl⟩

theorem checkReplaceChild_eq_ok :
    tree.checkReplaceChild p oldCandidate candidate = .ok (old, new, place) ↔
      oldCandidate = .own old ∧ tree.position? p old = some place ∧
        tree.attachRefusal? p candidate = .ok new ∧
        tree.checkArrangement p ((tree.children p).set place new) = .ok () := by
  simp only [checkReplaceChild, bind_eq_ok, mapError_eq_ok, pure, Except.pure, Except.ok.injEq,
    Prod.mk.injEq, Prod.exists, indexOf_eq_ok]
  constructor
  · rintro ⟨spot, found, ⟨own, somewhere⟩, fresh, ⟨node, attached, done, arranged, rfl⟩, rfl, rfl, rfl⟩
    exact ⟨own, somewhere, attached, arranged⟩
  · rintro ⟨own, somewhere, attached, arranged⟩
    exact ⟨place, old, ⟨own, somewhere⟩, new, ⟨new, attached, (), arranged, rfl⟩, rfl, rfl, rfl⟩

/-- With a child that was let in there are not too many, and each was there before or is accepted. -/
theorem children_of_checkAddChild (checked : tree.checkAddChild p candidate index = .ok (child, place)) :
    (∀ limit, p.kind.maxChildren = some limit →
      ((tree.children p).insertIdx place child).length ≤ limit) ∧
    ∀ x ∈ (tree.children p).insertIdx place child, x ∈ tree.children p ∨
      (tree.settings.strictStructure → p.kind.accepts.contains x.kind.category) := by
  obtain ⟨attached, room, spot, -⟩ := checkAddChild_eq_ok.1 checked
  have inside := newPlace_le spot
  refine ⟨fun limit most => ?_, fun x member => ?_⟩
  · rw [List.length_insertIdx_of_le_length inside]
    exact room limit most
  · obtain rfl | before := (List.mem_insertIdx inside).1 member
    · exact .inr (attachRefusal?_eq_ok.1 attached).2
    · exact .inl before

/-- With a child that was let in for another one, each was there before or is accepted. -/
theorem children_of_checkReplaceChild
    (checked : tree.checkReplaceChild p oldCandidate candidate = .ok (old, new, place)) :
    ∀ x ∈ (tree.children p).set place new, x ∈ tree.children p ∨
      (tree.settings.strictStructure → p.kind.accepts.contains x.kind.category) := by
  obtain ⟨-, -, attached, -⟩ := checkReplaceChild_eq_ok.1 checked
  intro x member
  obtain before | rfl := List.mem_or_eq_of_mem_set member
  · exact .inl before
  · exact .inr (attachRefusal?_eq_ok.1 attached).2

/-- Of all expressions, only connectors are too weak for a condition. -/
theorem strength?_ne_zero {kind : Kind} (expression : kind.category = .expression)
    (plain : kind ≠ .connectorCreation) : kind.strength? none ≠ some 0 := by
  revert expression plain
  cases kind <;> decide

theorem checkCondition_eq_ok : tree.checkCondition p candidate = .ok node ↔
    tree.linkRefusal? p candidate = .ok node ∧
      node.kind.category = .expression ∧ node.kind.strength? none ≠ some 0 := by
  simp only [checkCondition, bind_eq_ok, guard_eq_ok, pure, Except.pure, Except.ok.injEq, not_or,
    Decidable.not_not]
  constructor
  · rintro ⟨found, linked, ⟨expression, plain⟩, rfl⟩
    exact ⟨linked, expression, plain⟩
  · rintro ⟨linked, expression, plain⟩
    exact ⟨node, linked, ⟨expression, plain⟩, rfl⟩

/-! ### Outcomes -/

theorem setAttribute_cases (tree : Tree) (p : NodeId) (name : String) (value : Json) :
    (∃ cause, tree.attributeRefusal? p name value = some cause ∧
      tree.setAttribute p name value = (tree, .error ⟨.setAttribute, cause⟩)) ∨
    (tree.replaying = false → tree.attributeRefusal? p name value = none) ∧
      tree.setAttribute p name value = tree.changeAttribute p name value := by
  unfold setAttribute
  cases tree.replaying with
  | true => exact .inr ⟨Bool.noConfusion, rfl⟩
  | false =>
    cases checked : tree.attributeRefusal? p name value with
    | some cause => exact .inl ⟨cause, rfl, rfl⟩
    | none => exact .inr ⟨fun _ => rfl, rfl⟩

theorem addChild_cases (tree : Tree) (p : NodeId) (candidate : Candidate) (index : Option Int) :
    (∃ cause, tree.checkAddChild p candidate index = .error cause ∧
      tree.addChild p candidate index = (tree, .error ⟨.addChild, cause⟩)) ∨
    ∃ child place, tree.checkAddChild p candidate index = .ok (child, place) ∧
      tree.addChild p candidate index = (tree.insertChild p child place).described p fun path =>
        { action := .addChild, node := p, path, index := some place, after := .node child } := by
  unfold addChild
  cases tree.checkAddChild p candidate index with
  | error cause => exact .inl ⟨cause, rfl, rfl⟩
  | ok found => exact .inr ⟨found.1, found.2, rfl, rfl⟩

theorem removeChild_cases (tree : Tree) (p : NodeId) (candidate : Candidate) :
    (∃ refusal, tree.checkRemoveChild p candidate = .error refusal ∧
      tree.removeChild p candidate = (tree, .error refusal)) ∨
    ∃ child place, tree.checkRemoveChild p candidate = .ok (child, place) ∧
      tree.removeChild p candidate = (tree.eraseChild p child place).described p fun path =>
        { action := .removeChild, node := p, path, index := some place, before := .node child } := by
  unfold removeChild
  cases tree.checkRemoveChild p candidate with
  | error refusal => exact .inl ⟨refusal, rfl, rfl⟩
  | ok found => exact .inr ⟨found.1, found.2, rfl, rfl⟩

theorem replaceChild_cases (tree : Tree) (p : NodeId) (oldCandidate candidate : Candidate) :
    (∃ refusal, tree.checkReplaceChild p oldCandidate candidate = .error refusal ∧
      tree.replaceChild p oldCandidate candidate = (tree, .error refusal)) ∨
    ∃ old new place, tree.checkReplaceChild p oldCandidate candidate = .ok (old, new, place) ∧
      tree.replaceChild p oldCandidate candidate =
        (tree.exchangeChild p old new place).described p fun path =>
          { action := .replaceChild, node := p, path, index := some place, before := .node old,
            after := .node new } := by
  unfold replaceChild
  cases tree.checkReplaceChild p oldCandidate candidate with
  | error refusal => exact .inl ⟨refusal, rfl, rfl⟩
  | ok found => exact .inr ⟨found.1, found.2.1, found.2.2, rfl, rfl⟩

/-- Nothing, and the condition that is there, change nothing. -/
theorem setCondition_cases (tree : Tree) (p : NodeId) (candidate : Candidate) :
    tree.setCondition p candidate = (tree, .ok none) ∨
    (∃ cause, tree.checkCondition p candidate = .error cause ∧
      tree.setCondition p candidate = (tree, .error ⟨.setCondition, cause⟩)) ∨
    ∃ new, tree.checkCondition p candidate = .ok new ∧
      let edited := (tree.exchangeCondition (tree.condition? p) p new).changeCondition p
        (tree.condition? p) (.holds new)
      tree.setCondition p candidate = (edited.1, edited.2.map some) := by
  unfold setCondition
  dsimp only
  split_ifs
  · exact .inl rfl
  · refine .inr ?_
    cases tree.checkCondition p candidate with
    | error cause => exact .inl ⟨cause, rfl, rfl⟩
    | ok new => exact .inr ⟨new, rfl, rfl⟩

theorem setConditionText_cases (tree : Tree) (p : NodeId) (text : String) :
    (∃ e, (Fragment.expression text).parse = .error e ∧
      tree.setConditionText p text = (tree, .error (.parse e))) ∨
    (∃ node failure, (Fragment.expression text).parse = .ok node ∧
      (tree.build node.toRaw).2 = .error failure ∧
      tree.setConditionText p text = ((tree.build node.toRaw).1, .error (.build failure))) ∨
    ∃ node condition, (Fragment.expression text).parse = .ok node ∧
      (tree.build node.toRaw).2 = .ok condition ∧
      let edited := (tree.build node.toRaw).1.setCondition p (.own condition)
      tree.setConditionText p text = (edited.1, edited.2.mapError .refused) := by
  unfold setConditionText
  cases (Fragment.expression text).parse with
  | error e => exact .inl ⟨e, rfl, rfl⟩
  | ok node =>
    refine .inr ?_
    cases built : tree.build node.toRaw with
    | mk later result =>
      cases result with
      | error failure => exact .inl ⟨node, failure, rfl, by rw [built], by simp only [built]⟩
      | ok condition => exact .inr ⟨node, condition, rfl, by rw [built], by simp only [built]⟩

end Tree

end Verbatim
