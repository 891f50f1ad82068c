import Verbatim.Text.Blank
import Verbatim.Text.Digit
import Verbatim.Text.Quoted

/-!
# Numerals

Integers in written form: digits of any script, single underscores between digits, a sign in front,
and blanks around. A numeral of more than 4300 digits is refused, leading zeros counted.

## Main definitions

* `Text.readInteger`: the value of a numeral
* `Text.NumeralError`: why a text is no numeral
-/

namespace Verbatim.Text

/-- Why a text is not read as an integer. -/
inductive NumeralError where
  | malformed (text : String)
  | tooLong (digits : Nat)
  deriving DecidableEq, Repr

/-- The greatest number of digits that is read. -/
def digitLimit : Nat := 4300

/-- The text of the refusal of a numeral with too many digits. -/
def tooLongMessage (digits : Nat) : String :=
  s!"Exceeds the limit ({digitLimit} digits) for integer string conversion: " ++
    s!"value has {digits} digits; use sys.set_int_max_str_digits() to increase the limit"

/-- The text of the error. A malformed text is quoted, and its quoted form cut after 200
characters. -/
def NumeralError.message : NumeralError → String
  | .malformed text =>
    "invalid literal for int() with base 10: " ++ String.ofList ((quoted text).toList.take 200)
  | .tooLong digits => tooLongMessage digits

/-- Blanks around a numeral. The information separators are not among them. -/
def isNumeralBlank (c : Char) : Bool :=
  isBlank c && !(0x1c ≤ c.toNat && c.toNat ≤ 0x1f)

/-- Read digits with single underscores between them: the value, the number of digits and what
follows. `none` if there is no digit, or an underscore without a digit on either side. -/
def readDigits (text : List Char) : Option (Nat × Nat × List Char) :=
  go text none
where
  go : List Char → Option (Nat × Nat) → Option (Nat × Nat × List Char)
    | '_' :: c :: rest, some (value, count) =>
      match digitValue? c with
      | some d => go rest (some (10 * value + d, count + 1))
      | none => none
    | c :: rest, seen =>
      match digitValue? c, seen with
      | some d, some (value, count) => go rest (some (10 * value + d, count + 1))
      | some d, none => go rest (some (d, 1))
      | none, some (value, count) =>
        if c = '_' then none else some (value, count, c :: rest)
      | none, none => none
    | [], seen => seen.map fun (value, count) => (value, count, [])

/-- Split off the sign in front. The flag says whether it is a minus. -/
def takeMinus : List Char → Bool × List Char
  | '-' :: rest => (true, rest)
  | '+' :: rest => (false, rest)
  | rest => (false, rest)

/-- The value of a numeral. -/
def readInteger (text : String) : Except NumeralError Int :=
  let (negative, body) := takeMinus (text.toList.dropWhile isNumeralBlank)
  match readDigits body with
  | none => .error (.malformed text)
  | some (value, count, rest) =>
    if digitLimit < count then .error (.tooLong count)
    else if rest.all isNumeralBlank then .ok (if negative then -value else value)
    else .error (.malformed text)

end Verbatim.Text
