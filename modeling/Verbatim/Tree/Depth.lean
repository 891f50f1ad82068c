import Verbatim.Json.Basic

/-!
# The depth of raw trees

A raw tree that is nested too deep is refused before anything is built. The check must not recurse
itself, so it keeps the values that are still to be looked at on a stack, each with its depth, and
stops at the first one that is too deep.

## Main definitions

* `Json.nesting`: how deep a raw tree is nested
* `Json.inner`: what counts as nested in a raw value
* `Json.depthTurn`: what the check does with the value on the top of its stack
* `Json.nestsDeeper`: whether a raw tree is nested deeper than a limit

## Main results

* `Json.itemsWeight_inner`: what is nested in a value is smaller than the value
* `Json.stackWeight_of_onward`: every turn of the check makes the stack smaller
-/

namespace Verbatim.Json

/-! ### Nesting -/

mutual

/-- How deep a raw tree is nested: one level for the value itself, and below it its condition and
its children. -/
def nesting : Json → Nat
  | object fields => 1 + max (conditionNesting fields) (childrenNesting fields)
  | _ => 1

/-- The nesting of the condition among the fields. -/
def conditionNesting : List (String × Json) → Nat
  | [] => 0
  | (name, value) :: rest =>
    if name = "condition" then (match value with | null => 0 | value => nesting value)
    else conditionNesting rest

/-- The deepest nesting of the children among the fields. -/
def childrenNesting : List (String × Json) → Nat
  | [] => 0
  | (name, value) :: rest =>
    if name = "children" then (match value with | array items => itemsNesting items | _ => 0)
    else childrenNesting rest

/-- The deepest nesting of the items. -/
def itemsNesting : List Json → Nat
  | [] => 0
  | item :: rest => max (nesting item) (itemsNesting rest)

end

/-! ### Weight -/

mutual

/-- How many values there are in a value, with the value itself. -/
def weight : Json → Nat
  | array items => 1 + itemsWeight items
  | object fields => 1 + fieldsWeight fields
  | _ => 1

/-- How many values there are in the items. -/
def itemsWeight : List Json → Nat
  | [] => 0
  | item :: rest => weight item + itemsWeight rest

/-- How many values there are in the fields. -/
def fieldsWeight : List (String × Json) → Nat
  | [] => 0
  | (_, value) :: rest => weight value + fieldsWeight rest

end

theorem weight_pos (value : Json) : 0 < value.weight := by
  cases value <;> simp only [weight] <;> omega

theorem itemsWeight_append (first second : List Json) :
    itemsWeight (first ++ second) = itemsWeight first + itemsWeight second := by
  induction first with
  | nil => simp [itemsWeight]
  | cons item rest ih => simp only [List.cons_append, itemsWeight, ih, Nat.add_assoc]

/-- What counts as nested in a raw value: its condition, where it is not null, and its children,
where they are a list. -/
def inner (value : Json) : List Json :=
  (value.present? "condition").toList ++
    match value.get? "children" with
    | some (array items) => items
    | _ => []

/-- The condition and the children are different fields, so their weights go together into that of
the fields. -/
theorem itemsWeight_inner_object (fields : List (String × Json)) :
    itemsWeight (inner (object fields)) ≤ fieldsWeight fields := by
  induction fields with
  | nil => exact Nat.le_refl 0
  | cons field rest ih =>
    obtain ⟨name, value⟩ := field
    simp only [inner, present?, get?, itemsWeight_append] at ih ⊢
    simp only [List.lookup_cons, fieldsWeight]
    by_cases condition : "condition" = name
    · subst condition
      have other : ("children" == "condition") = false := rfl
      simp only [beq_self_eq_true, other]
      cases value <;> simp only [Option.toList, itemsWeight] <;> omega
    · by_cases children : "children" = name
      · subst children
        have other : ("condition" == "children") = false := rfl
        simp only [beq_self_eq_true, other]
        cases value <;> simp only [itemsWeight, weight] <;> omega
      · simp only [beq_false_of_ne condition, beq_false_of_ne children]
        omega

/-- What is nested in a value is smaller than the value. -/
theorem itemsWeight_inner (value : Json) : itemsWeight value.inner < value.weight := by
  cases value with
  | object fields =>
    have := itemsWeight_inner_object fields
    rw [weight]
    omega
  | _ => simp [inner, present?, get?, itemsWeight, weight_pos]

/-! ### The check -/

/-- What one turn of the check comes to. -/
inductive DepthTurn where
  /-- Nothing is left to be looked at. -/
  | passed
  /-- The value is too deep. -/
  | tooDeep
  /-- The check goes on with these values, each with its depth. -/
  | onward (stack : List (Json × Nat))

/-- Look at the value on the top of the stack. What is nested in it goes onto the stack, one after
the other. -/
def depthTurn (limit : Nat) : List (Json × Nat) → DepthTurn
  | [] => .passed
  | (value, depth) :: rest =>
    if limit < depth then .tooDeep
    else .onward (value.inner.foldl (fun stack below => (below, depth + 1) :: stack) rest)

/-- How many values there are in all values on the stack. -/
def stackWeight : List (Json × Nat) → Nat
  | [] => 0
  | (value, _) :: rest => weight value + stackWeight rest

theorem stackWeight_foldl (depth : Nat) (values : List Json) (stack : List (Json × Nat)) :
    stackWeight (values.foldl (fun stack below => (below, depth) :: stack) stack) =
      itemsWeight values + stackWeight stack := by
  induction values generalizing stack with
  | nil => simp [itemsWeight]
  | cons value rest ih =>
    simp only [List.foldl_cons, ih, stackWeight, itemsWeight]
    omega

/-- Every turn makes the stack smaller. -/
theorem stackWeight_of_onward {limit : Nat} {stack later : List (Json × Nat)}
    (turn : depthTurn limit stack = .onward later) : stackWeight later < stackWeight stack := by
  cases stack with
  | nil => cases turn
  | cons entry rest =>
    obtain ⟨value, depth⟩ := entry
    have smaller := itemsWeight_inner value
    rw [depthTurn] at turn
    split at turn
    · cases turn
    · obtain rfl := DepthTurn.onward.inj turn
      rw [stackWeight_foldl, stackWeight]
      omega

/-- Whether something on the stack, or nested in it, is deeper than the limit. -/
def stackNestsDeeper (limit : Nat) (stack : List (Json × Nat)) : Bool :=
  match _turn : depthTurn limit stack with
  | .passed => false
  | .tooDeep => true
  | .onward later => stackNestsDeeper limit later
termination_by stackWeight stack
decreasing_by exact stackWeight_of_onward _turn

/-- Whether a raw tree is nested deeper than the limit. -/
def nestsDeeper (limit : Nat) (raw : Json) : Bool :=
  stackNestsDeeper limit [(raw, 1)]

end Verbatim.Json
