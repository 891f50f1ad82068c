import Verbatim.Decimal.Rounded
import Verbatim.Json.Basic

/-!
# Templates for lines

A template is a text with directives. A directive is a percent sign, the name of a field in
parentheses, flags, a width, a precision and a letter that says how the field's value is written. Two
percent signs in a row stand for one. The fields of a record are values of any type, and a letter
that does not suit the type of a value is an error.

## Main definitions

* `TemplateError`: what is wrong with a template, or with a value for it
* `Directive`, `Directive.fit`: a directive behind its field, and how it fits a text into a line
* `Directive.written`: a value as the letter of a directive writes it
* `LogTemplate.hasField`: whether a template is worth anything
* `LogTemplate.fill`: a template with the values of its fields

## Implementation notes

A template is filled from left to right, and the first error counts. A directive without a field of
its own takes the value of the field before it, if that was not written yet, and the first one takes
the record as a whole.
-/

namespace Verbatim

/-- What is wrong with a template, or with a value for it. -/
inductive TemplateError where
  /-- It has no directive with a field. -/
  | noField (template : String)
  | unknownField (name : String)
  /-- The name of a field has no end. -/
  | openName
  /-- A directive has no letter. -/
  | unfinished
  /-- There is no such letter. -/
  | unknownLetter (letter : Char) (place : Nat)
  | widthTooBig
  | precisionTooBig
  /-- There is no value left for a directive. -/
  | noValue
  /-- A width or precision that is to be taken from a value is no integer. -/
  | starNotInteger
  | notNumber (letter : Char) (type : String)
  | notInteger (letter : Char) (type : String)
  | notReal (type : String)
  | notCharacter
  | undefinedInteger
  | infiniteInteger
  | integerTooLarge
  | characterTooLarge
  deriving DecidableEq, Repr

/-- The text of the error. -/
def TemplateError.message : TemplateError → String
  | .noField template => s!"Invalid format '{template}' for '%' style"
  | .unknownField name => s!"Formatting field not found in record: {Text.quoted name}"
  | .openName => "incomplete format key"
  | .unfinished => "incomplete format"
  | .unknownLetter letter place =>
    let shown := if 0x1f ≤ letter.toNat && letter.toNat < 0x7f then letter else '?'
    let number := String.ofList (Text.hex 1 letter.toNat)
    s!"unsupported format character '{shown}' (0x{number}) at index {place}"
  | .widthTooBig => "width too big"
  | .precisionTooBig => "precision too big"
  | .noValue => "not enough arguments for format string"
  | .starNotInteger => "* wants int"
  | .notNumber letter type => s!"%{letter} format: a real number is required, not {type}"
  | .notInteger letter type => s!"%{letter} format: an integer is required, not {type}"
  | .notReal type => s!"must be real number, not {type}"
  | .notCharacter => "%c requires int or char"
  | .undefinedInteger => "cannot convert float NaN to integer"
  | .infiniteInteger => "cannot convert float infinity to integer"
  | .integerTooLarge => "int too large to convert to float"
  | .characterTooLarge => "%c arg not in range(0x110000)"

/-- A directive behind its field. -/
structure Directive where
  /-- Whether blanks go behind the text, and not in front of it. -/
  left : Bool := false
  /-- Whether a number that is not negative has a plus sign. -/
  plus : Bool := false
  /-- Whether a number that is not negative has a blank for a sign. -/
  blank : Bool := false
  /-- Whether a number shows its base, or its point. -/
  full : Bool := false
  /-- Whether zeros fill up a number behind its sign. -/
  zeros : Bool := false
  width : Nat := 0
  precision : Option Nat := none
  letter : Char
  deriving DecidableEq, Repr

namespace Directive

/-! ### Writing values -/

/-- The integer that a value counts as, a fraction being cut off. -/
def wholeNumber (letter : Char) : Json → Except TemplateError Int
  | .int value => .ok value
  | .bool value => .ok (if value then 1 else 0)
  | .float value =>
    match value.parts with
    | .notANumber => .error .undefinedInteger
    | .infinite _ => .error .infiniteInteger
    | .finite negative m q =>
      let whole : Int := m * Double.twoTo q.toNat / Double.twoTo (-q).toNat
      .ok (if negative then -whole else whole)
  | value => .error (.notNumber letter value.typeName)

/-- The integer that a value is. -/
def exactInteger? : Json → Option Int
  | .int value => some value
  | .bool value => some (if value then 1 else 0)
  | _ => none

/-- The double that a value counts as. -/
def realNumber : Json → Except TemplateError Double
  | .float value => .ok value
  | value =>
    match exactInteger? value with
    | some n =>
      let x := Double.ofQuotient (n < 0) n.natAbs 1
      if x.isFinite then .ok x else .error .integerTooLarge
    | none => .error (.notReal value.typeName)

/-- The character that a value stands for: itself if it is one, or the one with its number. -/
def character : Json → Except TemplateError Char
  | .text text =>
    match text.toList with
    | [c] => .ok c
    | _ => .error .notCharacter
  | value =>
    match exactInteger? value with
    | some n =>
      if 0 ≤ n ∧ n < 0x110000 then .ok (Char.ofNat n.toNat) else .error .characterTooLarge
    | none => .error .notCharacter

/-- An integer in a base, with zeros in front up to the precision. -/
def integerText (directive : Directive) (base : Nat) (mark : List Char) (n : Int) : List Char :=
  let digits := Nat.toDigits base n.natAbs
  let zeros := List.replicate (directive.precision.getD 0 - digits.length) '0'
  (if n < 0 then ['-'] else []) ++ (if directive.full then mark else []) ++ zeros ++ digits

/-- The text with every character outside ASCII by number. -/
def asciiText (text : String) : List Char :=
  text.toList.flatMap fun c =>
    if c.toNat < 0x80 then [c]
    else if c.toNat < 0x100 then '\\' :: 'x' :: Text.hex 2 c.toNat
    else if c.toNat < 0x10000 then '\\' :: 'u' :: Text.hex 4 c.toNat
    else '\\' :: 'U' :: Text.hex 8 c.toNat

/-- A double in a style, six digits unless there is a precision. -/
def realText (directive : Directive) (style : DecimalStyle) (value : Json) :
    Except TemplateError (List Char) :=
  (Double.rounded style (directive.precision.getD 6) directive.full) <$> realNumber value

/-- What a letter makes of a value. -/
inductive Written where
  | text (chars : List Char)
  /-- A number, with the number of characters that mark its base behind the sign. -/
  | number (chars : List Char) (mark : Nat)
  deriving DecidableEq, Repr

/-- A value as the letter writes it. The directive stands at the given place. -/
def written (directive : Directive) (place : Nat) (value : Json) :
    Except TemplateError Written :=
  let cut (text : List Char) : Written :=
    .text (match directive.precision with
      | some limit => text.take limit
      | none => text)
  let letter := directive.letter
  let inBase (base : Nat) (mark : List Char) : Except TemplateError (List Char) :=
    match exactInteger? value with
    | some n => .ok (directive.integerText base mark n)
    | none => .error (.notInteger letter value.typeName)
  let mark := if directive.full then 2 else 0
  let capital (chars : List Char) : List Char := chars.map Char.toUpper
  let plainReal (chars : List Char) : Written := .number chars 0
  match letter with
  | 's' => .ok (cut value.plainText.toList)
  | 'r' => .ok (cut value.quotedText.toList)
  | 'a' => .ok (cut (asciiText value.quotedText))
  | 'c' => (fun c => .text [c]) <$> character value
  | 'd' | 'i' | 'u' =>
    (fun n => .number (directive.integerText 10 [] n) 0) <$> wholeNumber letter value
  | 'o' => (.number · mark) <$> inBase 8 ['0', 'o']
  | 'x' => (.number · mark) <$> inBase 16 ['0', 'x']
  | 'X' => (fun chars => .number (capital chars) mark) <$> inBase 16 ['0', 'x']
  | 'e' => plainReal <$> directive.realText .exponent value
  | 'E' => (plainReal ∘ capital) <$> directive.realText .exponent value
  | 'f' => plainReal <$> directive.realText .positional value
  | 'F' => (plainReal ∘ capital) <$> directive.realText .positional value
  | 'g' => plainReal <$> directive.realText .general value
  | 'G' => (plainReal ∘ capital) <$> directive.realText .general value
  | letter => .error (.unknownLetter letter place)

/-! ### Fitting texts -/

/-- The text filled up to the width. Zeros go between the sign and the mark of the base on one side
and the digits on the other; blanks go in front, or behind. -/
def fit (directive : Directive) : Written → List Char
  | .text chars => pad chars
  | .number chars mark =>
    let (sign, rest) := match chars with
      | '-' :: rest => (['-'], rest)
      | rest => (if directive.plus then ['+'] else if directive.blank then [' '] else [], rest)
    if directive.zeros && !directive.left then
      let (front, digits) := rest.splitAt mark
      sign ++ front ++ List.replicate (directive.width - sign.length - rest.length) '0' ++ digits
    else pad (sign ++ rest)
where
  /-- Fill up with blanks. -/
  pad (chars : List Char) : List Char :=
    let blanks := List.replicate (directive.width - chars.length) ' '
    if directive.left then chars ++ blanks else blanks ++ chars

/-- A value fitted into a line. The directive stands at the given place. -/
def render (directive : Directive) (place : Nat) (value : Json) :
    Except TemplateError (List Char) :=
  directive.fit <$> directive.written place value

end Directive

/-! ### Reading directives -/

/-- The number that digits stand for. -/
def digitsValue (digits : List Char) : Nat :=
  digits.foldl (fun value c => 10 * value + (c.toNat - '0'.toNat)) 0

namespace LogTemplate

/-- The flags of directives. -/
def isFlag (c : Char) : Bool :=
  "#0+ -".toList.contains c

/-- The name of a field behind its opening parenthesis, and what follows. Parentheses inside the name
come in pairs. -/
def readName : Nat → List Char → Except TemplateError (List Char × List Char)
  | _, [] => .error .openName
  | 0, ')' :: rest => .ok ([], rest)
  | depth + 1, ')' :: rest => (fun (name, rest) => (')' :: name, rest)) <$> readName depth rest
  | depth, '(' :: rest => (fun (name, rest) => ('(' :: name, rest)) <$> readName (depth + 1) rest
  | depth, c :: rest => (fun (name, rest) => (c :: name, rest)) <$> readName depth rest

/-- A width or precision that is taken from a value. -/
def starValue : Option Json → Except TemplateError Int
  | none => .error .noValue
  | some value =>
    match Directive.exactInteger? value with
    | some n => .ok n
    | none => .error .starNotInteger

/-- A directive behind its field, with the value that is left for it and what follows. -/
structure ReadDirective where
  directive : Directive
  value : Option Json
  rest : List Char

/-- Read a directive behind its field. A width or precision of a star takes up the value. A letter
for the size of numbers says nothing. -/
def readDirective (value : Option Json) (text : List Char) :
    Except TemplateError ReadDirective := do
  let (flags, text) := text.span isFlag
  let (width, value, text) ← match text with
    | '*' :: rest => (fun n => (n, none, rest)) <$> starValue value
    | text =>
      let (digits, rest) := text.span Char.isDigit
      let width := digitsValue digits
      if 0x8000000000000000 ≤ width then throw .widthTooBig
      pure ((width : Int), value, rest)
  let (precision, value, text) ← match text with
    | '.' :: '*' :: rest => (fun n => (some n.toNat, none, rest)) <$> starValue value
    | '.' :: rest =>
      let (digits, rest) := rest.span Char.isDigit
      let precision := digitsValue digits
      if 0x80000000 ≤ precision then throw .precisionTooBig
      pure (some precision, value, rest)
    | text => pure (none, value, text)
  let text := match text with
    | c :: rest => if "hlL".toList.contains c then rest else text
    | [] => []
  match text with
  | [] => throw .unfinished
  | letter :: rest =>
    return {
      directive := {
        left := flags.contains '-' || width < 0
        plus := flags.contains '+'
        blank := flags.contains ' '
        full := flags.contains '#'
        zeros := flags.contains '0'
        width := width.natAbs
        precision, letter }
      value, rest }

/-- Fill a text that ends at the given place, in at most as many steps as it has characters. -/
def fillFrom (fields : List (String × Json)) (size : Nat) :
    Nat → Option Json → List Char → Except TemplateError (List Char)
  | 0, _, _ | _, _, [] => .ok []
  | steps + 1, value, '%' :: '%' :: rest =>
    ('%' :: ·) <$> fillFrom fields size steps value rest
  | steps + 1, value, '%' :: rest => do
    let (value, rest) ← match rest with
      | '(' :: rest => do
        let (name, rest) ← readName 0 rest
        let name := String.ofList name
        match fields.lookup name with
        | some value => pure (some value, rest)
        | none => throw (.unknownField name)
      | rest => pure (value, rest)
    let found ← readDirective value rest
    match found.value with
    | none => throw .noValue
    | some value =>
      let filled ← found.directive.render (size - found.rest.length - 1) value
      (filled ++ ·) <$> fillFrom fields size steps none found.rest
  | steps + 1, value, c :: rest => (c :: ·) <$> fillFrom fields size steps value rest

/-- A template with the values of its fields. -/
def fill (template : String) (fields : List (String × Json)) : Except TemplateError String :=
  let text := template.toList
  String.ofList <$> fillFrom fields text.length text.length (some (.object fields)) text

/-! ### Templates worth filling -/

/-- Whether the text starts with a directive that has a field, its name being a word, and a letter
that is known in one case or the other. -/
def startsField (text : List Char) : Bool :=
  match text with
  | '%' :: '(' :: text =>
    let (name, text) := text.span fun c => c.isAlphanum || c = '_' || 0x80 ≤ c.toNat
    match text with
    | ')' :: text =>
      let amount (text : List Char) : Option (List Char) :=
        match text with
        | '*' :: rest => some rest
        | text =>
          let (digits, rest) := text.span Char.isDigit
          if digits.isEmpty then none else some rest
      let text := text.dropWhile isFlag
      let text := (amount text).getD text
      let text := match text with
        | '.' :: rest => (amount rest).getD text
        | text => text
      match text with
      | c :: _ => !name.isEmpty && "diouxefgcrsa%".toList.contains c.toLower
      | [] => false
    | _ => false
  | _ => false

/-- Whether there is a directive with a field anywhere in a text. -/
def hasFieldIn : List Char → Bool
  | [] => false
  | c :: rest => startsField (c :: rest) || hasFieldIn rest

/-- Whether there is a directive with a field anywhere in a template. -/
def hasField (template : String) : Bool :=
  hasFieldIn template.toList

end LogTemplate

end Verbatim
