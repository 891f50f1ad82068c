/-!
# Digits

Decimal digits of all scripts. Unicode 14 has them in runs of ten, from zero to nine. Superscripts,
circled figures and the like look like digits and are not decimal: no numeral is written with them.

## Main definitions

* `Text.digitValue?`: the value of a decimal digit of any script
* `Text.isDigitLike`: whether a character is a decimal digit or merely looks like a digit

## Main results

* `Text.digitValue?_of_isDigit`: the digits of ASCII have their usual values
-/

namespace Verbatim.Text

/-- The code points of the digits zero, in ascending order. -/
def zeroDigits : List Nat :=
  [
    48, 1632, 1776, 1984, 2406, 2534, 2662, 2790, 2918, 3046, 3174, 3302, 3430, 3558, 3664, 3792,
    3872, 4160, 4240, 6112, 6160, 6470, 6608, 6784, 6800, 6992, 7088, 7232, 7248, 42528, 43216,
    43264, 43472, 43504, 43600, 44016, 65296, 66720, 68912, 69734, 69872, 69942, 70096, 70384,
    70736, 70864, 71248, 71360, 71472, 71904, 72016, 72784, 73040, 73120, 92768, 92864, 93008,
    120782, 120792, 120802, 120812, 120822, 123200, 123632, 125264, 130032]

/-- The ranges of characters that look like digits and are not decimal. -/
def figureRanges : List (Nat × Nat) :=
  [
    (178, 179), (185, 185), (4969, 4977), (6618, 6618), (8304, 8304), (8308, 8313), (8320, 8329),
    (9312, 9320), (9332, 9340), (9352, 9360), (9450, 9450), (9461, 9469), (9471, 9471),
    (10102, 10110), (10112, 10120), (10122, 10130), (68160, 68163), (69216, 69224),
    (69714, 69722), (127232, 127242)]

/-- The value of a decimal digit. -/
def digitValue? (c : Char) : Option Nat :=
  (zeroDigits.find? fun first => first ≤ c.toNat && c.toNat < first + 10).map (c.toNat - ·)

/-- Whether the character is a decimal digit or a figure that looks like one. -/
def isDigitLike (c : Char) : Bool :=
  (digitValue? c).isSome || figureRanges.any fun range => range.1 ≤ c.toNat && c.toNat ≤ range.2

theorem digitValue?_of_isDigit {c : Char} (h : c.isDigit) :
    digitValue? c = some (c.toNat - 48) := by
  have range : 48 ≤ c.toNat ∧ c.toNat < 48 + 10 := by
    simp only [Char.isDigit, Bool.and_eq_true, decide_eq_true_eq, ge_iff_le,
      UInt32.le_iff_toNat_le] at h
    have same : c.val.toNat = c.toNat := rfl
    simp at h
    omega
  simp [digitValue?, zeroDigits, range]

end Verbatim.Text
