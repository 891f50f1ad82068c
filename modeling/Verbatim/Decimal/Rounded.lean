import Verbatim.Decimal.Shortest

/-!
# Rounded decimals of a double

A double written with a given number of digits is rounded exactly, a half to the even neighbour.

## Main definitions

* `DecimalStyle`: positional, with an exponent, or whichever is shorter
* `Double.rounded`: the written form of a double in a style, with a number of digits
-/

namespace Verbatim

/-- How a number is laid out. -/
inductive DecimalStyle where
  /-- With the given number of digits behind the point. -/
  | positional
  /-- With one digit in front of the point and an exponent. -/
  | exponent
  /-- With the given number of digits in all, positional unless the exponent is below `-4` or takes
  more digits than there are. -/
  | general
  deriving DecidableEq, Repr

namespace Double

/-- The value `m * 2 ^ q` in units of `10 ^ place`, rounded. -/
def roundedAt (m : Nat) (q place : Int) : Nat :=
  roundQuotient (m * twoTo q.toNat * tenTo (-place).toNat) (twoTo (-q).toNat * tenTo place.toNat)

/-- The value `m * 2 ^ q` rounded to the given number of digits behind the first: the digits, and the
place of the first of them. Zero has its first digit in place zero. -/
def leadingDigits (m : Nat) (q : Int) (places : Nat) : Nat × Int :=
  if m = 0 then (0, 0)
  else
    let first := firstPlace (m * twoTo q.toNat) (twoTo (-q).toNat)
    let digits := roundedAt m q (first - places)
    if digits = tenTo (places + 1) then (digits / 10, first + 1) else (digits, first)

/-- Decimal digits, with zeros in front up to the given number of digits. -/
def paddedDigits (width n : Nat) : List Char :=
  let digits := Nat.toDigits 10 n
  List.replicate (width - digits.length) '0' ++ digits

/-- Digits with a point before the last of them, as many as given. Without digits behind it the point
stands only if asked for. -/
def pointed (places : Nat) (point : Bool) (n : Nat) : List Char :=
  let digits := paddedDigits (places + 1) n
  let (whole, fraction) := digits.splitAt (digits.length - places)
  whole ++ (if point || places ≠ 0 then ['.'] else []) ++ fraction

/-- The power of ten behind a mantissa, of two digits at least. -/
def powerText (power : Int) : List Char :=
  'e' :: (if power < 0 then '-' else '+') :: paddedDigits 2 power.natAbs

/-- A mantissa without zeros at the end of its fraction, and without a point at its end. -/
def dropFractionZeros (text : List Char) : List Char :=
  if text.contains '.' then
    match text.reverse.dropWhile (· = '0') with
    | '.' :: rest => rest.reverse
    | rest => rest.reverse
  else text

/-- The written form of `m * 2 ^ q`. With `full`, the point and the zeros behind it always stand. -/
def layRounded (style : DecimalStyle) (digits : Nat) (full : Bool) (m : Nat) (q : Int) :
    List Char :=
  match style with
  | .positional => pointed digits full (roundedAt m q (-digits))
  | .exponent =>
    let (mantissa, first) := leadingDigits m q digits
    pointed digits full mantissa ++ powerText first
  | .general =>
    let count := max 1 digits
    let (mantissa, first) := leadingDigits m q (count - 1)
    let trim (text : List Char) : List Char := if full then text else dropFractionZeros text
    if -4 ≤ first ∧ first < count then
      trim (pointed (count - 1 - first).toNat full (roundedAt m q (first + 1 - count)))
    else trim (pointed (count - 1) full mantissa) ++ powerText first

/-- The written form of a double in a style, with a number of digits. -/
def rounded (style : DecimalStyle) (digits : Nat) (full : Bool) (x : Double) : List Char :=
  match x.parts with
  | .notANumber => "nan".toList
  | .infinite negative => (if negative then "-inf" else "inf").toList
  | .finite negative m q =>
    (if negative then ['-'] else []) ++ layRounded style digits full m q

end Double

end Verbatim
