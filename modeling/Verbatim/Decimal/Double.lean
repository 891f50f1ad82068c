/-!
# Double-precision numbers

A number with a fraction is held as its 64 bits: a sign, eleven bits of exponent and fifty-two of
fraction. All arithmetic on it is exact, on natural numbers: a finite number is `m * 2 ^ q`, and a
decimal numeral is read by rounding one quotient.

## Main definitions

* `Double`, `Double.parts`: the bits, and what they stand for
* `Double.ofQuotient`, `Double.ofDecimal`: the double nearest to an exact value, of two equally near
  ones the one with the even last bit
* `Double.integer?`: the integer a double is equal to, if there is one
-/

namespace Verbatim

/-- A double-precision number by its bits, so equality is equality of bits. -/
structure Double where
  bits : UInt64
  deriving DecidableEq, Repr

/-- What the bits of a double stand for. A finite number is `m * 2 ^ q`, with its sign. -/
inductive DoubleParts where
  | notANumber
  | infinite (negative : Bool)
  | finite (negative : Bool) (m : Nat) (q : Int)
  deriving DecidableEq, Repr

namespace Double

/-! ### Powers -/

/-- A power of two. -/
def twoTo (exponent : Nat) : Nat := Nat.pow 2 exponent

/-- A power of ten. -/
def tenTo (exponent : Nat) : Nat := Nat.pow 10 exponent

/-! ### Bits -/

/-- The exponent of the least positive double, `2 ^ (-1074)`. -/
def leastExponent : Int := -1074

/-- The value that the bits stand for. Numbers with a zero exponent field have no hidden bit. -/
def parts (x : Double) : DoubleParts :=
  let bits : Nat := x.bits.toNat
  let negative : Bool := twoTo 63 ≤ bits
  let exponent : Nat := bits / twoTo 52 % twoTo 11
  let fraction : Nat := bits % twoTo 52
  if exponent = 2047 then
    if fraction = 0 then .infinite negative else .notANumber
  else if exponent = 0 then
    .finite negative fraction leastExponent
  else
    .finite negative (twoTo 52 + fraction) (leastExponent + exponent - 1)

/-- Put a sign onto the bits of a number without one. -/
def withSign (negative : Bool) (bits : Nat) : Double :=
  ⟨UInt64.ofNat (if negative then twoTo 63 + bits else bits)⟩

/-- The number that is no number. -/
def notANumber : Double := ⟨0x7ff8000000000000⟩

/-- Infinity with the given sign. -/
def infinity (negative : Bool) : Double := withSign negative 0x7ff0000000000000

/-- The quotient rounded to the nearest natural number, a half to the even neighbour. -/
def roundQuotient (num den : Nat) : Nat :=
  let floor := num / den
  let twice := 2 * (num % den)
  if twice < den then floor
  else if den < twice then floor + 1
  else floor + floor % 2

/-- The double nearest to `num / den`. -/
def ofQuotient (negative : Bool) (num den : Nat) : Double :=
  if num = 0 then withSign negative 0
  else
    -- `2 ^ estimate` is at most twice the quotient and more than half of it
    let estimate : Int := (num.log2 : Int) - den.log2
    let place (q : Int) : Nat × Nat := (num * twoTo (-q).toNat, den * twoTo q.toNat)
    let tooLow (q : Int) : Bool := let (n, d) := place q; twoTo 53 ≤ n / d
    let start := max leastExponent (estimate - 53)
    let q := if tooLow start then start + 1 else start
    let (n, d) := place q
    let m := roundQuotient n d
    -- rounding can reach the next power of two, whose bits follow without a gap
    let bits :=
      if m < twoTo 52 then m
      else ((q - leastExponent).toNat + 1) * twoTo 52 + (m - twoTo 52)
    if 0x7ff0000000000000 ≤ bits then infinity negative else withSign negative bits

/-- The double nearest to `digits * 10 ^ exponent`. Numerals far outside the range are settled by
their size alone, so a huge exponent costs nothing. -/
def ofDecimal (negative : Bool) (digits : Nat) (exponent : Int) : Double :=
  if digits = 0 then withSign negative 0
  else
    let size : Int := (Nat.toDigits 10 digits).length + exponent
    if 400 < size then infinity negative
    else if size < -400 then withSign negative 0
    else ofQuotient negative (digits * tenTo exponent.toNat) (tenTo (-exponent).toNat)

/-- The integer that the double is equal to. -/
def integer? (x : Double) : Option Int :=
  match x.parts with
  | .finite negative m q =>
    let whole := m * twoTo q.toNat / twoTo (-q).toNat
    if whole * twoTo (-q).toNat = m * twoTo q.toNat then
      some (if negative then -whole else whole)
    else none
  | _ => none

/-- Whether the double is neither infinite nor undefined. -/
def isFinite (x : Double) : Bool :=
  match x.parts with
  | .finite .. => true
  | _ => false

end Double

end Verbatim
