import Mathlib

/-!
# Steps that can fail

When several steps, each of which can fail, work together.

## Main results

* `bind_eq_ok`, `map_eq_ok`, `mapError_eq_ok`, `guard_eq_ok`: when a step works and what it gives
* `map_eq_error`, `mapError_eq_error`: when a step fails
* `map_congr_of_ok`: what is said of each step of a row that worked, said of the row
-/

namespace Verbatim

variable {ε δ α β : Type} {first : Except ε α}

theorem bind_eq_ok {next : α → Except ε β} {result : β} :
    (first >>= next) = .ok result ↔ ∃ value, first = .ok value ∧ next value = .ok result := by
  cases first <;> simp [bind, Except.bind]

theorem map_eq_ok {f : α → β} {result : β} :
    first.map f = .ok result ↔ ∃ value, first = .ok value ∧ f value = result := by
  cases first <;> simp [Except.map]

theorem map_eq_error {f : α → β} {error : ε} : first.map f = .error error ↔ first = .error error := by
  cases first <;> simp [Except.map]

theorem mapError_eq_ok {f : ε → δ} {value : α} :
    first.mapError f = .ok value ↔ first = .ok value := by
  cases first <;> simp [Except.mapError]

theorem mapError_eq_error {f : ε → δ} {error : δ} :
    first.mapError f = .error error ↔ ∃ cause, first = .error cause ∧ f cause = error := by
  cases first <;> simp [Except.mapError]

/-- A row of steps that all worked: what each result shows of its source, the results show of the
sources. -/
theorem map_congr_of_ok {γ : Type} {step : α → Except ε β} {shown : β → γ} {source : α → γ}
    {values : List α} {results : List β} (worked : values.map step = results.map .ok)
    (each : ∀ value ∈ values, ∀ result, step value = .ok result → shown result = source value) :
    results.map shown = values.map source := by
  induction values generalizing results with
  | nil => rw [List.map_eq_nil_iff.1 worked.symm, List.map_nil, List.map_nil]
  | cons value values ih =>
    cases results with
    | nil => contradiction
    | cons result results =>
      obtain ⟨first, rest⟩ := List.cons.inj worked
      rw [List.map_cons, List.map_cons, each value List.mem_cons_self result first,
        ih rest fun value member => each value (List.mem_cons_of_mem _ member)]

/-- A guard in front of a step. -/
theorem guard_eq_ok {refused : Prop} [Decidable refused] {error : ε} {never : α → Except ε β}
    {next : Except ε β} {result : β} :
    (if refused then throw error >>= never else next) = .ok result ↔
      ¬ refused ∧ next = .ok result := by
  by_cases holds : refused <;> simp [holds, throw, throwThe, MonadExceptOf.throw, bind, Except.bind]

end Verbatim
