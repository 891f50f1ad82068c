import Verbatim.Json.Basic
import Verbatim.Text.Numeral

/-!
# Reading raw values

The text form of raw values. Besides the standard's values the words `NaN`, `Infinity` and
`-Infinity` are read; of two fields of one name the later one counts; and control characters are
refused inside strings.

## Main definitions

* `Json.read`: the value of a text
* `Json.ReadError`: what is wrong, and where

## Implementation notes

Every function takes the characters still to be read. An error holds the characters from the fault
on, so a position is never counted on the way: the wrapper subtracts lengths. The number of steps is
bounded by the first argument; between two characters that are taken there are at most four.
-/

namespace Verbatim.Json

/-- What is wrong with a text. -/
inductive Problem where
  | expectedValue
  | expectedName
  | expectedColon
  | expectedComma
  | unterminatedString
  | controlCharacter
  | badEscape
  | badHexEscape
  | extraData
  | byteOrderMark
  deriving DecidableEq, Repr

/-- The text of the problem. -/
def Problem.message : Problem → String
  | .expectedValue => "Expecting value"
  | .expectedName => "Expecting property name enclosed in double quotes"
  | .expectedColon => "Expecting ':' delimiter"
  | .expectedComma => "Expecting ',' delimiter"
  | .unterminatedString => "Unterminated string starting at"
  | .controlCharacter => "Invalid control character at"
  | .badEscape => "Invalid \\escape"
  | .badHexEscape => "Invalid \\uXXXX escape"
  | .extraData => "Extra data"
  | .byteOrderMark => "Unexpected UTF-8 BOM (decode using utf-8-sig)"

/-- A fault on the way: a problem with the characters from the faulty one on, or a numeral with too
many digits. -/
inductive Fault where
  | refused (problem : Problem) (rest : List Char)
  | tooLong (digits : Nat)

/-- Why a text is no value. -/
inductive ReadError where
  /-- A problem at the character with this number, counted from zero, in this line and column. -/
  | refused (problem : Problem) (line column index : Nat)
  /-- A numeral with too many digits. -/
  | tooLong (digits : Nat)
  deriving DecidableEq, Repr

/-- The text of the error. -/
def ReadError.message : ReadError → String
  | .refused problem line column index =>
    s!"{problem.message}: line {line} column {column} (char {index})"
  | .tooLong digits => Text.tooLongMessage digits

/-! ### Pieces -/

/-- The characters that can stand between values. -/
def isPadding (c : Char) : Bool :=
  c = ' ' || c = '\t' || c = '\n' || c = '\r'

/-- The characters behind the padding. -/
def skipPadding (chars : List Char) : List Char :=
  chars.dropWhile isPadding

/-- The value of a hexadecimal digit. -/
def hexValue? (c : Char) : Option Nat :=
  if c.isDigit then some (c.toNat - 48)
  else if 'a' ≤ c ∧ c ≤ 'f' then some (c.toNat - 87)
  else if 'A' ≤ c ∧ c ≤ 'F' then some (c.toNat - 55)
  else none

/-- The number of four hexadecimal digits in front, and what follows. -/
def takeHex? : List Char → Option (Nat × List Char)
  | a :: b :: c :: d :: rest => do
    let a ← hexValue? a
    let b ← hexValue? b
    let c ← hexValue? c
    let d ← hexValue? d
    return (a * 4096 + b * 256 + c * 16 + d, rest)
  | _ => none

/-- The character that a single letter behind a backslash stands for. -/
def escapeValue? : Char → Option Char
  | '"' => some '"'
  | '\\' => some '\\'
  | '/' => some '/'
  | 'b' => some '\x08'
  | 'f' => some '\x0c'
  | 'n' => some '\n'
  | 'r' => some '\r'
  | 't' => some '\t'
  | _ => none

/-- The character with the given number behind `\u`, joined with a second escape if the two are the
halves of one character. The argument `u` holds the characters from the `u` on. -/
def readHexEscape (u rest : List Char) : Except Fault (Char × List Char) :=
  match takeHex? rest with
  | none => .error (.refused .badHexEscape u)
  | some (high, rest) =>
    if rest.isEmpty then .error (.refused .badHexEscape u)
    else
      match rest with
      | '\\' :: 'u' :: more =>
        if 0xd800 ≤ high ∧ high < 0xdc00 ∧ 4 < more.length then
          match takeHex? more with
          | none => .error (.refused .badHexEscape ('u' :: more))
          | some (low, later) =>
            if 0xdc00 ≤ low ∧ low < 0xe000 then
              .ok (Char.ofNat (0x10000 + (high - 0xd800) * 1024 + (low - 0xdc00)), later)
            else .ok (Char.ofNat high, rest)
        else .ok (Char.ofNat high, rest)
      | _ => .ok (Char.ofNat high, rest)

/-- The characters of a string behind its opening quote. The argument `opening` holds the characters
from that quote on. -/
def readString (opening : List Char) : Nat → List Char → Except Fault (List Char × List Char)
  | 0, _ | _, [] => .error (.refused .unterminatedString opening)
  | _ + 1, '"' :: rest => .ok ([], rest)
  | _ + 1, ['\\'] => .error (.refused .unterminatedString opening)
  | steps + 1, '\\' :: 'u' :: rest => do
    let (c, rest) ← readHexEscape ('u' :: rest) rest
    let (body, rest) ← readString opening steps rest
    return (c :: body, rest)
  | steps + 1, '\\' :: c :: rest =>
    match escapeValue? c with
    | none => .error (.refused .badEscape ('\\' :: c :: rest))
    | some c => do
      let (body, rest) ← readString opening steps rest
      return (c :: body, rest)
  | steps + 1, c :: rest =>
    if c.toNat < 0x20 then .error (.refused .controlCharacter (c :: rest))
    else do
      let (body, rest) ← readString opening steps rest
      return (c :: body, rest)

/-- The value of a row of decimal digits. -/
def digitsValue (digits : List Char) : Nat :=
  digits.foldl (fun value d => 10 * value + (d.toNat - 48)) 0

/-- The fraction in front: a point with digits behind it. -/
def takeFraction : List Char → List Char × List Char
  | '.' :: d :: rest =>
    if d.isDigit then ((d :: rest).takeWhile Char.isDigit, (d :: rest).dropWhile Char.isDigit)
    else ([], '.' :: d :: rest)
  | rest => ([], rest)

/-- The exponent in front: the letter, a sign, and digits. -/
def takeExponent? (chars : List Char) : Option (Int × List Char) :=
  match chars with
  | e :: rest =>
    if e = 'e' ∨ e = 'E' then
      let (negative, rest) :=
        match rest with
        | '-' :: rest => (true, rest)
        | '+' :: rest => (false, rest)
        | rest => (false, rest)
      let digits := rest.takeWhile Char.isDigit
      if digits.isEmpty then none
      else
        let value : Int := digitsValue digits
        some (if negative then -value else value, rest.dropWhile Char.isDigit)
    else none
  | [] => none

/-- The digits in front. Behind a zero in front there are no more. -/
def takeWhole : List Char → List Char
  | '0' :: _ => ['0']
  | chars => chars.takeWhile Char.isDigit

/-- A number without its sign. The argument `start` holds the characters from the sign on. -/
def readNumber (start : List Char) (negative : Bool) (chars : List Char) :
    Except Fault (Json × List Char) :=
  let whole := takeWhole chars
  if whole.isEmpty then .error (.refused .expectedValue start)
  else
    let (fraction, rest) := takeFraction (chars.drop whole.length)
    match takeExponent? rest, fraction with
    | none, [] =>
      if Text.digitLimit < whole.length then .error (.tooLong whole.length)
      else
        let value : Int := digitsValue whole
        .ok (.int (if negative then -value else value), rest)
    | exponent?, _ =>
      let (exponent, rest) := exponent?.getD (0, rest)
      .ok (.float (Double.ofDecimal negative (digitsValue (whole ++ fraction))
        (exponent - fraction.length)), rest)

/-- The words that stand for values. -/
def words : List (List Char × Json) :=
  [(['n', 'u', 'l', 'l'], .null),
    (['t', 'r', 'u', 'e'], .bool true),
    (['f', 'a', 'l', 's', 'e'], .bool false),
    (['N', 'a', 'N'], .float .notANumber),
    (['I', 'n', 'f', 'i', 'n', 'i', 't', 'y'], .float (.infinity false)),
    (['-', 'I', 'n', 'f', 'i', 'n', 'i', 't', 'y'], .float (.infinity true))]

/-- The word in front that stands for a value. -/
def takeWord? (chars : List Char) : Option (Json × List Char) :=
  words.findSome? fun (word, value) =>
    if chars.take word.length = word then some (value, chars.drop word.length) else none

/-- A value that is no string and has no brackets: a word, or a number. -/
def readPlain (chars : List Char) : Except Fault (Json × List Char) :=
  match takeWord? chars, chars with
  | some found, _ => .ok found
  | none, '-' :: rest => readNumber chars true rest
  | none, _ => readNumber chars false chars

/-! ### Values -/

mutual

/-- The value in front. -/
def readValue : Nat → List Char → Except Fault (Json × List Char)
  | 0, chars => .error (.refused .expectedValue chars)
  | _ + 1, [] => .error (.refused .expectedValue [])
  | steps + 1, '"' :: rest => do
    let (body, rest) ← readString ('"' :: rest) (steps + 1) rest
    return (.text (String.ofList body), rest)
  | steps + 1, '\x7b' :: rest => readObject steps rest
  | steps + 1, '[' :: rest => readArray steps rest
  | _ + 1, chars => readPlain chars

/-- An array behind its opening bracket. -/
def readArray : Nat → List Char → Except Fault (Json × List Char)
  | 0, chars => .error (.refused .expectedValue chars)
  | steps + 1, chars =>
    match skipPadding chars with
    | ']' :: rest => .ok (.array [], rest)
    | chars => do
      let (items, rest) ← readItems steps chars
      return (.array items, rest)

/-- The items of an array that is not empty, and its closing bracket. -/
def readItems : Nat → List Char → Except Fault (List Json × List Char)
  | 0, chars => .error (.refused .expectedValue chars)
  | steps + 1, chars => do
    let (item, rest) ← readValue steps chars
    match skipPadding rest with
    | ']' :: rest => return ([item], rest)
    | ',' :: rest => do
      let (items, rest) ← readItems steps (skipPadding rest)
      return (item :: items, rest)
    | rest => throw (.refused .expectedComma rest)

/-- An object behind its opening brace. -/
def readObject : Nat → List Char → Except Fault (Json × List Char)
  | 0, chars => .error (.refused .expectedName chars)
  | steps + 1, chars =>
    match skipPadding chars with
    | '\x7d' :: rest => .ok (.object [], rest)
    | chars => do
      let (fields, rest) ← readFields steps [] chars
      return (.object fields, rest)

/-- The fields of an object that is not empty, put to those already read, and its closing brace. -/
def readFields : Nat → List (String × Json) → List Char →
    Except Fault (List (String × Json) × List Char)
  | 0, _, chars => .error (.refused .expectedName chars)
  | steps + 1, before, chars =>
    match chars with
    | '"' :: rest => do
      let (name, rest) ← readString ('"' :: rest) (steps + 1) rest
      match skipPadding rest with
      | ':' :: rest => do
        let (value, rest) ← readValue steps (skipPadding rest)
        let fields := insertField (String.ofList name) value before
        match skipPadding rest with
        | '\x7d' :: rest => return (fields, rest)
        | ',' :: rest => readFields steps fields (skipPadding rest)
        | rest => throw (.refused .expectedComma rest)
      | rest => throw (.refused .expectedColon rest)
    | chars => .error (.refused .expectedName chars)

end

/-- The whole text as one value. -/
def readAll (chars : List Char) : Except Fault Json := do
  if chars.head? = some '\ufeff' then
    throw (.refused .byteOrderMark chars)
  let (value, rest) ← readValue (4 * (chars.length + 1)) (skipPadding chars)
  let rest := skipPadding rest
  unless rest.isEmpty do
    throw (.refused .extraData rest)
  return value

/-- Where a fault is: line and column count from one, and only line feeds end lines. -/
def Fault.locate (chars : List Char) : Fault → ReadError
  | .tooLong digits => .tooLong digits
  | .refused problem rest =>
    let before := chars.take (chars.length - rest.length)
    let line := before.count '\n' + 1
    let column := (before.reverse.takeWhile (· ≠ '\n')).length + 1
    .refused problem line column before.length

/-- The value of a text. -/
def read (text : String) : Except ReadError Json :=
  (readAll text.toList).mapError (Fault.locate text.toList)

end Verbatim.Json
