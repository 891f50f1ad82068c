import Verbatim.Decimal.Double

/-!
# The shortest decimal of a double

A double stands for every real number that rounds to it, which is an interval around its value. Its
*shortest decimal* is the decimal in that interval with the fewest digits, and of several the one
nearest to the value. For one digit, two digits and so on, the two neighbours of the value on that
decimal grid are tried: if any point of a grid lies in the interval, one of the neighbours does.
Seventeen digits are always enough.

## Main definitions

* `Double.shortest`: the digits and the power of ten of a positive value `m * 2 ^ q`
* `Double.text`: the written form; positional from `1e-4` up to below `1e16`, with an exponent
  elsewhere, and never without a point or an exponent
-/

namespace Verbatim

namespace Double

/-- The interval of reals that round to `m * 2 ^ q`, as four numerators over one denominator: the
lower end, the value, the upper end. Below a power of two the numbers lie twice as dense. -/
def roundingInterval (m : Nat) (q : Int) : Nat × Nat × Nat × Nat :=
  let scale := twoTo (q - 2).toNat
  let below := if m = twoTo 52 ∧ leastExponent < q then 1 else 2
  ((4 * m - below) * scale, 4 * m * scale, (4 * m + 2) * scale, twoTo (2 - q).toNat)

/-- The place of the first digit of `num / den`: the greatest `e` with `10 ^ e` at most the
quotient. -/
def firstPlace (num den : Nat) : Int :=
  if den ≤ num then ((Nat.toDigits 10 (num / den)).length : Int) - 1
  else
    let rec search : Nat → Nat → Int → Int
      | 0, _, place => place
      | fuel + 1, num, place => if den ≤ num then place else search fuel (10 * num) (place - 1)
    search 400 num 0

/-- The neighbours of the value on the grid of multiples of `10 ^ place` that round to the double:
the nearer one if both do, and the even one in a tie. -/
def gridPoint? (m : Nat) (q place : Int) : Option Nat :=
  let (low, value, high, den) := roundingInterval m q
  let up := tenTo (-place).toNat
  let unit := den * tenTo place.toNat
  let inside (d : Nat) : Bool :=
    let point := d * unit
    if m % 2 = 0 then low * up ≤ point && point ≤ high * up
    else low * up < point && point < high * up
  let floor := value * up / unit
  let twice := 2 * (value * up % unit)
  match inside floor && floor != 0, inside (floor + 1) with
  | true, true =>
    some (if twice < unit then floor
      else if unit < twice then floor + 1
      else floor + floor % 2)
  | true, false => some floor
  | false, true => some (floor + 1)
  | false, false => none

/-- The shortest decimal of `m * 2 ^ q`, for positive `m`: digits and power of ten. -/
def shortest (m : Nat) (q : Int) : Nat × Int :=
  let (_, value, _, den) := roundingInterval m q
  let first := firstPlace value den
  let rec search : Nat → Int → Nat × Int
    | 0, place => ((gridPoint? m q place).getD 0, place)
    | fuel + 1, place =>
      match gridPoint? m q place with
      | some digits => (digits, place)
      | none => search fuel (place - 1)
  search 17 first

/-- Digits and power of ten in written form. -/
def layDigits (digits : Nat) (exponent : Int) : String :=
  let all := Nat.toDigits 10 digits
  let kept := (all.reverse.dropWhile (· == '0')).reverse
  let point : Int := all.length + exponent
  let zeros (n : Int) : List Char := List.replicate n.toNat '0'
  String.ofList <|
    if -4 < point ∧ point ≤ 16 then
      if point ≤ 0 then '0' :: '.' :: zeros (-point) ++ kept
      else if kept.length ≤ point then kept ++ zeros (point - kept.length) ++ ['.', '0']
      else kept.take point.toNat ++ '.' :: kept.drop point.toNat
    else
      let mantissa := match kept with
        | [] => []
        | [d] => [d]
        | d :: rest => d :: '.' :: rest
      let power := (point - 1).natAbs
      let sign := if point - 1 < 0 then '-' else '+'
      mantissa ++ 'e' :: sign :: (if power < 10 then ['0'] else []) ++ Nat.toDigits 10 power

/-- The written form of a double: the shortest decimal that reads back as it. -/
def text (x : Double) : String :=
  match x.parts with
  | .notANumber => "nan"
  | .infinite negative => if negative then "-inf" else "inf"
  | .finite negative m q =>
    let sign := if negative then "-" else ""
    if m = 0 then sign ++ "0.0"
    else
      let (digits, exponent) := shortest m q
      sign ++ layDigits digits exponent

end Double

end Verbatim
