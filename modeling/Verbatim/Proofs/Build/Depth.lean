import Mathlib
import Verbatim.Tree.Build

/-!
# The check of the depth

The check of the depth is a loop over a stack that stops early. What it finds is the same as what the
nesting says, which is a maximum over the whole raw tree. A turn keeps what there is to find: what is
nested in a value is one level deeper than the value, and goes onto the stack with that depth. Each
turn takes one value from the stack for good, so the loop ends after as many turns as there are
values in the raw tree, at most.

## Main definitions

* `Json.Exceeds`: something on the stack, or nested in it, is too deep
* `Json.DepthRun`: the turns of the check, to their end

## Main results

* `Json.nesting_eq`: a raw tree is nested deeper than what is nested in it
* `Json.exceeds_of_onward`: **a turn keeps what there is to find**
* `Json.nestsDeeper_iff`: **the check finds what is nested deeper than the limit**
* `Json.exists_depthRun`: **the check comes to an end**
* `Tree.checkDepth_eq`: which raw trees are refused
-/

namespace Verbatim

namespace Json

variable {limit : Nat} {raw : Json} {stack later : List (Json × Nat)}

/-! ### Nesting -/

theorem itemsNesting_append (first second : List Json) :
    itemsNesting (first ++ second) = max (itemsNesting first) (itemsNesting second) := by
  induction first with
  | nil => simp [itemsNesting]
  | cons item rest ih => rw [List.cons_append, itemsNesting, itemsNesting, ih, max_assoc]

theorem conditionNesting_eq (fields : List (String × Json)) : conditionNesting fields =
    itemsNesting ((object fields).present? "condition").toList := by
  induction fields with
  | nil => rfl
  | cons field rest ih =>
    obtain ⟨name, value⟩ := field
    unfold conditionNesting
    by_cases here : name = "condition"
    · rw [if_pos here, here]
      cases value <;> simp [present?, get?, itemsNesting]
    · have other : ("condition" == name) = false := beq_false_of_ne (Ne.symm here)
      simpa only [if_neg here, present?, get?, List.lookup_cons, other] using ih

theorem childrenNesting_eq (fields : List (String × Json)) : childrenNesting fields =
    itemsNesting (match (object fields).get? "children" with
      | some (array items) => items
      | _ => []) := by
  induction fields with
  | nil => rfl
  | cons field rest ih =>
    obtain ⟨name, value⟩ := field
    unfold childrenNesting
    by_cases here : name = "children"
    · rw [if_pos here, here]
      cases value <;> simp [get?, itemsNesting]
    · have other : ("children" == name) = false := beq_false_of_ne (Ne.symm here)
      simpa only [if_neg here, get?, List.lookup_cons, other] using ih

/-- **A raw tree is nested one level deeper than what is nested in it.** -/
theorem nesting_eq (raw : Json) : raw.nesting = 1 + itemsNesting raw.inner := by
  cases raw with
  | object fields =>
    rw [nesting, conditionNesting_eq, childrenNesting_eq, ← itemsNesting_append]
    rfl
  | _ => rfl

theorem lt_itemsNesting_iff {items : List Json} {bound : Nat} :
    bound < itemsNesting items ↔ ∃ item ∈ items, bound < item.nesting := by
  induction items with
  | nil => simp [itemsNesting]
  | cons item rest ih => simp [itemsNesting, ih]

theorem nesting_pos (raw : Json) : 0 < raw.nesting := by
  rw [nesting_eq]
  omega

/-! ### Turns -/

/-- Something on the stack, or nested in it, is deeper than the limit. -/
def Exceeds (limit : Nat) (stack : List (Json × Nat)) : Prop :=
  ∃ value depth, (value, depth) ∈ stack ∧ limit + 1 < depth + value.nesting

theorem exceeds_cons {value : Json} {depth : Nat} : Exceeds limit ((value, depth) :: stack) ↔
    limit + 1 < depth + value.nesting ∨ Exceeds limit stack := by
  simp only [Exceeds, List.mem_cons, Prod.mk.injEq]
  constructor
  · rintro ⟨value, depth, ⟨rfl, rfl⟩ | rest, deeper⟩
    · exact .inl deeper
    · exact .inr ⟨value, depth, rest, deeper⟩
  · rintro (deeper | ⟨value, depth, rest, deeper⟩)
    · exact ⟨_, _, .inl ⟨rfl, rfl⟩, deeper⟩
    · exact ⟨value, depth, .inr rest, deeper⟩

/-- Values that are pushed with one depth exceed the limit if the deepest of them does. -/
theorem exceeds_foldl (values : List Json) (depth : Nat) :
    Exceeds limit (values.foldl (fun stack below => (below, depth + 1) :: stack) stack) ↔
      (∃ value ∈ values, limit < depth + value.nesting) ∨ Exceeds limit stack := by
  induction values generalizing stack with
  | nil => simp
  | cons value rest ih =>
    have one : limit + 1 < depth + 1 + value.nesting ↔ limit < depth + value.nesting := by omega
    rw [List.foldl_cons, ih, exceeds_cons, one, List.exists_mem_cons_iff, or_left_comm, or_assoc]

/-- **A turn keeps what there is to find**: a value that is not too deep itself exceeds the limit if
something nested in it does, which is one level deeper. -/
theorem exceeds_of_onward (turn : depthTurn limit stack = .onward later) :
    Exceeds limit later ↔ Exceeds limit stack := by
  cases stack with
  | nil => cases turn
  | cons entry rest =>
    obtain ⟨value, depth⟩ := entry
    rw [depthTurn] at turn
    split at turn
    · cases turn
    · rename_i shallow
      obtain rfl := DepthTurn.onward.inj turn
      have below : (∃ inside ∈ value.inner, limit < depth + inside.nesting) ↔
          limit - depth < itemsNesting value.inner := by
        rw [lt_itemsNesting_iff]
        exact exists_congr fun inside => and_congr_right fun _ => by omega
      rw [exceeds_foldl, exceeds_cons, nesting_eq, below]
      exact or_congr_left (by omega)

/-- A turn that stops the check has found something. -/
theorem exceeds_of_tooDeep (turn : depthTurn limit stack = .tooDeep) : Exceeds limit stack := by
  cases stack with
  | nil => cases turn
  | cons entry rest =>
    obtain ⟨value, depth⟩ := entry
    rw [depthTurn] at turn
    split at turn
    · have := value.nesting_pos
      exact exceeds_cons.2 (.inl (by omega))
    · cases turn

/-- A turn that ends the check without an objection has nothing left to look at. -/
theorem eq_nil_of_passed (turn : depthTurn limit stack = .passed) : stack = [] := by
  cases stack with
  | nil => rfl
  | cons entry rest =>
    rw [depthTurn] at turn
    split at turn <;> cases turn

theorem stackNestsDeeper_iff (limit : Nat) (stack : List (Json × Nat)) :
    stackNestsDeeper limit stack ↔ Exceeds limit stack := by
  induction stack using stackNestsDeeper.induct limit with
  | case1 stack turn =>
    have empty : stack = [] := eq_nil_of_passed turn
    unfold stackNestsDeeper
    rw [turn]
    simp [empty, Exceeds]
  | case2 stack turn =>
    unfold stackNestsDeeper
    rw [turn]
    simpa using exceeds_of_tooDeep turn
  | case3 stack later turn ih =>
    unfold stackNestsDeeper
    rw [turn]
    exact ih.trans (exceeds_of_onward turn)

/-- **The check finds what is nested deeper than the limit.** -/
theorem nestsDeeper_iff : raw.nestsDeeper limit ↔ limit < raw.nesting := by
  rw [nestsDeeper, stackNestsDeeper_iff, exceeds_cons]
  simp only [Exceeds, List.not_mem_nil, false_and, exists_false, or_false]
  omega

/-! ### The end of the check -/

/-- From the stack, the check goes on for so many turns, and then ends with or without an
objection. -/
inductive DepthRun (limit : Nat) : List (Json × Nat) → Nat → Bool → Prop where
  | passed {stack : List (Json × Nat)} (turn : depthTurn limit stack = .passed) :
      DepthRun limit stack 0 false
  | tooDeep {stack : List (Json × Nat)} (turn : depthTurn limit stack = .tooDeep) :
      DepthRun limit stack 0 true
  | onward {stack later : List (Json × Nat)} {turns : Nat} {found : Bool}
      (turn : depthTurn limit stack = .onward later) (run : DepthRun limit later turns found) :
      DepthRun limit stack (turns + 1) found

/-- **The check comes to an end**, after no more turns than there are values. -/
theorem exists_depthRun (limit : Nat) (stack : List (Json × Nat)) :
    ∃ turns ≤ stackWeight stack, DepthRun limit stack turns (stackNestsDeeper limit stack) := by
  induction stack using stackNestsDeeper.induct limit with
  | case1 stack turn =>
    unfold stackNestsDeeper
    rw [turn]
    exact ⟨0, Nat.zero_le _, .passed turn⟩
  | case2 stack turn =>
    unfold stackNestsDeeper
    rw [turn]
    exact ⟨0, Nat.zero_le _, .tooDeep turn⟩
  | case3 stack later turn ih =>
    obtain ⟨turns, fewer, run⟩ := ih
    have smaller := stackWeight_of_onward turn
    unfold stackNestsDeeper
    rw [turn]
    exact ⟨turns + 1, by omega, .onward turn run⟩

/-- The check of a raw tree ends, and has found something if the raw tree is nested too deep. -/
theorem exists_depthRun_raw (limit : Nat) (raw : Json) :
    ∃ turns ≤ raw.weight, DepthRun limit [(raw, 1)] turns (decide (limit < raw.nesting)) := by
  obtain ⟨turns, fewer, run⟩ := exists_depthRun limit [(raw, 1)]
  have found : stackNestsDeeper limit [(raw, 1)] = decide (limit < raw.nesting) :=
    Bool.eq_iff_iff.2 (nestsDeeper_iff.trans (decide_eq_true_iff).symm)
  exact ⟨turns, fewer, found ▸ run⟩

end Json

/-! ### Builds -/

/-- Which raw trees are refused, and with what error. -/
theorem Tree.checkDepth_eq (limit : Nat) (raw : Json) : Tree.checkDepth limit raw =
    if limit < raw.nesting then .error { error := .tooDeep limit } else .ok () := by
  by_cases deeper : limit < raw.nesting
  · rw [checkDepth, if_pos (Json.nestsDeeper_iff.2 deeper), if_pos deeper]
  · rw [checkDepth, if_neg (mt Json.nestsDeeper_iff.1 deeper), if_neg deeper]

end Verbatim
