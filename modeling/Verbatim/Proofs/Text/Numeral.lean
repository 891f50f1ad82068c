import Mathlib
import Verbatim.Text.Numeral

/-!
# Written numbers read back

A natural number in written form is read again, as long as it has no more digits than are read at
all.

## Main results

* `Text.readInteger_toString`: reading a written number
* `Text.readInteger_toString_eq_ok`: which written numbers are read
* `Text.natAbs_lt_of_readInteger`: what is read has no more digits than are read at all
-/

namespace Verbatim.Text

/-- No visible character of the ASCII range is blank. -/
theorem isBlank_eq_false {c : Char} (above : 32 < c.toNat) (below : c.toNat < 127) :
    isBlank c = false := by
  simp only [isBlank, blankRanges, List.any_cons, List.any_nil, Bool.or_eq_false_iff,
    Bool.and_eq_false_iff, decide_eq_false_iff_not, Bool.or_false]
  omega

/-- A digit is no blank. -/
theorem isBlank_of_isDigit {c : Char} (h : c.isDigit) : isBlank c = false := by
  simp only [Char.isDigit, Bool.and_eq_true, decide_eq_true_eq, ge_iff_le,
    UInt32.le_iff_toNat_le] at h
  have same : c.val.toNat = c.toNat := rfl
  simp at h
  exact isBlank_eq_false (by omega) (by omega)

theorem isNumeralBlank_of_isDigit {c : Char} (h : c.isDigit) : isNumeralBlank c = false := by
  rw [isNumeralBlank, isBlank_of_isDigit h, Bool.false_and]

/-- The digits of a written number. -/
theorem isDigit_of_mem_toString {n : Nat} {c : Char} (member : c ∈ (toString n).toList) :
    c.isDigit := by
  rw [Nat.toString_eq_ofList_toDigits, String.toList_ofList] at member
  exact Nat.isDigit_of_mem_toDigits (by decide) (by decide) member

/-- A digit is no sign. -/
theorem takeMinus_digit {c : Char} (h : c.isDigit) (rest : List Char) :
    takeMinus (c :: rest) = (false, c :: rest) := by
  unfold takeMinus
  split
  · next same =>
    rw [(List.cons.inj same).1] at h
    exact absurd h (by decide)
  · next same =>
    rw [(List.cons.inj same).1] at h
    exact absurd h (by decide)
  · rfl

theorem go_digits {digits : List Char} (all : ∀ c ∈ digits, c.isDigit) (value count : Nat) :
    readDigits.go digits (some (value, count)) =
      some (Nat.ofDigitChars 10 digits value, count + digits.length, []) := by
  induction digits generalizing value count with
  | nil => rfl
  | cons c rest ih =>
    have digit : c.isDigit := all c List.mem_cons_self
    have under : c ≠ '_' := by
      rintro rfl
      exact absurd digit (by decide)
    have later := ih fun d member => all d (List.mem_cons_of_mem c member)
    unfold readDigits.go
    split
    · next same _ => exact absurd (List.cons.inj same).1 under
    · next same seen =>
      obtain ⟨rfl, rfl⟩ := List.cons.inj same
      simp only [digitValue?_of_isDigit digit]
      rw [later, Nat.ofDigitChars_cons, List.length_cons, Nat.add_assoc, Nat.add_comm 1]
      rfl
    · next same => exact absurd same (List.cons_ne_nil c rest)

theorem readDigits_digits {c : Char} {rest : List Char} (all : ∀ d ∈ c :: rest, d.isDigit) :
    readDigits (c :: rest) = some (Nat.ofDigitChars 10 (c :: rest) 0, rest.length + 1, []) := by
  have digit : c.isDigit := all c List.mem_cons_self
  have later := go_digits fun d member => all d (List.mem_cons_of_mem c member)
  unfold readDigits readDigits.go
  split
  · next seen => exact absurd seen (by simp)
  · next same seen =>
    obtain ⟨rfl, rfl⟩ := List.cons.inj same
    simp only [digitValue?_of_isDigit digit]
    rw [later, Nat.ofDigitChars_cons, Nat.mul_zero, Nat.zero_add, Nat.add_comm]
    rfl
  · next same => exact absurd same (List.cons_ne_nil c rest)

/-- **A written number is read again**, unless it has too many digits. -/
theorem readInteger_toString (n : Nat) : readInteger (toString n) =
    if digitLimit < (Nat.toDigits 10 n).length then .error (.tooLong (Nat.toDigits 10 n).length)
    else .ok n := by
  have all (c : Char) (member : c ∈ Nat.toDigits 10 n) : c.isDigit :=
    Nat.isDigit_of_mem_toDigits (by decide) (by decide) member
  have value : Nat.ofDigitChars 10 (Nat.toDigits 10 n) 0 = n := Nat.ofDigitChars_ten_toDigits
  have same : (toString n).toList = Nat.toDigits 10 n := by
    rw [Nat.toString_eq_ofList_toDigits, String.toList_ofList]
  unfold readInteger
  rw [same]
  cases digits : Nat.toDigits 10 n with
  | nil => exact absurd digits Nat.toDigits_ne_nil
  | cons c rest =>
    rw [digits] at all value
    have digit := all c List.mem_cons_self
    have front : (c :: rest).dropWhile isNumeralBlank = c :: rest := by
      simp [isNumeralBlank_of_isDigit digit]
    simp only [front, takeMinus_digit digit, readDigits_digits all, value, List.length_cons,
      List.all_nil, if_true]
    rfl

theorem readInteger_toString_eq_ok {n : Nat} {value : Int} :
    readInteger (toString n) = .ok value ↔ n < 10 ^ digitLimit ∧ value = n := by
  rw [readInteger_toString, ← Nat.length_toDigits_le_iff (by decide) (by decide)]
  split
  · next long => simp only [reduceCtorEq, false_iff]; omega
  · next short =>
    rw [Except.ok.injEq]
    exact ⟨fun same => ⟨by omega, same.symm⟩, fun both => both.2.symm⟩

/-! ### Bounds -/

theorem digitValue?_lt {c : Char} {value : Nat} (found : digitValue? c = some value) :
    value < 10 := by
  obtain ⟨first, member, rfl⟩ := Option.map_eq_some_iff.1 found
  have range := List.find?_some member
  simp only [Bool.and_eq_true, decide_eq_true_eq] at range
  omega

theorem lt_of_further_digit {value count digit : Nat} (bound : value < 10 ^ count)
    (small : digit < 10) : 10 * value + digit < 10 ^ (count + 1) := by
  rw [Nat.pow_succ]
  omega

/-- Digits are worth less than the power of ten with as many zeros. -/
theorem lt_of_go {text : List Char} {seen : Option (Nat × Nat)}
    (bound : ∀ found ∈ seen, found.1 < 10 ^ found.2) {value count : Nat} {rest : List Char} :
    readDigits.go text seen = some (value, count, rest) → value < 10 ^ count := by
  fun_induction readDigits.go text seen with
  | case1 more before digits c d found ih =>
    refine ih fun entry member => ?_
    obtain rfl := Option.some.inj member
    exact lt_of_further_digit (bound _ rfl) (digitValue?_lt found)
  | case3 c more d before digits found _ ih =>
    refine ih fun entry member => ?_
    obtain rfl := Option.some.inj member
    exact lt_of_further_digit (bound _ rfl) (digitValue?_lt found)
  | case4 c more d found _ ih =>
    refine ih fun entry member => ?_
    obtain rfl := Option.some.inj member
    exact digitValue?_lt found
  | case2 | case5 | case7 => simp
  | case6 c more before digits _ _ _ =>
    rintro same
    obtain ⟨rfl, rfl, -⟩ := by simpa using same
    exact bound _ rfl
  | case8 seen =>
    rintro same
    obtain ⟨found, rfl, same⟩ := Option.map_eq_some_iff.1 same
    obtain ⟨rfl, rfl, -⟩ := by simpa using same
    exact bound _ rfl

theorem natAbs_lt_of_readInteger {text : String} {value : Int}
    (read : readInteger text = .ok value) : value.natAbs < 10 ^ digitLimit := by
  unfold readInteger at read
  dsimp only at read
  split at read
  · contradiction
  · next number count rest found =>
    split at read
    · contradiction
    · next short =>
      split at read
      · have bound : number < 10 ^ count := lt_of_go (fun _ member => absurd member (Option.not_mem_none _)) found
        have most : 10 ^ count ≤ 10 ^ digitLimit :=
          Nat.pow_le_pow_right (by decide) (Nat.le_of_not_lt short)
        have same := Except.ok.inj read
        split at same <;> omega
      · contradiction

theorem lt_of_readInteger {text : String} {value : Nat} (read : readInteger text = .ok value) :
    value < 10 ^ digitLimit :=
  natAbs_lt_of_readInteger read

end Verbatim.Text
