import Verbatim.Json.Basic
import Verbatim.Settings.Basic
import Verbatim.Text.Capital
import Verbatim.Text.Numeral

/-!
# Settings from raw values

Each setting takes more than its own type of value where the meaning is plain: `"yes"` and `1` for
a truth value, `"+5"` and `5.0` for an integer. Then its own rule is checked. All faults are
reported together, in the order of the settings, and after them the fields that name no setting.

## Main definitions

* `SettingProblem`, `SettingFault`: what is wrong with a value, and of which setting
* `truthValue`, `integerValue`, `levelValue`: what a raw value stands for
* `Settings.read`: the settings from the fields of a raw object
* `Settings.toJson`: the settings as a raw object
-/

namespace Verbatim

/-- What is wrong with the value of a setting. -/
inductive SettingProblem where
  | notTruth
  /-- A text or number that stands for no truth value. -/
  | unclearTruth
  | notInteger
  /-- A text that is no numeral. -/
  | unclearInteger
  /-- A numeral with too many digits, or a double beyond 64 bits. -/
  | longInteger
  | fraction
  | notFinite
  | notText
  | notPositive (value : Int)
  | negative (value : Int)
  | unknownLevel (text : String)
  /-- There is no such setting. -/
  | unknown
  deriving DecidableEq, Repr

namespace SettingProblem

/-- The short name of the problem. -/
def tag : SettingProblem → String
  | .notTruth => "bool_type"
  | .unclearTruth => "bool_parsing"
  | .notInteger => "int_type"
  | .unclearInteger => "int_parsing"
  | .longInteger => "int_parsing_size"
  | .fraction => "int_from_float"
  | .notFinite => "finite_number"
  | .notText => "string_type"
  | .notPositive _ | .negative _ | .unknownLevel _ => "value_error"
  | .unknown => "extra_forbidden"

/-- The text of the problem. -/
def message : SettingProblem → String
  | .notTruth => "Input should be a valid boolean"
  | .unclearTruth => "Input should be a valid boolean, unable to interpret input"
  | .notInteger => "Input should be a valid integer"
  | .unclearInteger => "Input should be a valid integer, unable to parse string as an integer"
  | .longInteger => "Unable to parse input string as an integer, exceeded maximum size"
  | .fraction => "Input should be a valid integer, got a number with a fractional part"
  | .notFinite => "Input should be a finite number"
  | .notText => "Input should be a valid string"
  | .notPositive value => s!"Value error, max_depth must be positive, got: {value}"
  | .negative value => s!"Value error, undo_limit must be >= 0, got: {value}"
  | .unknownLevel text =>
    let names := ", ".intercalate (LogLevel.all.map LogLevel.name)
    s!"Value error, log_level must be one of {names}, got: {text}"
  | .unknown => "Extra inputs are not permitted"

end SettingProblem

/-- A setting, or a field that is none, with what is wrong with its value. -/
structure SettingFault where
  name : String
  problem : SettingProblem
  deriving DecidableEq, Repr

/-! ### Truth values -/

/-- The words for true, in small letters. -/
def trueWords : List String := ["1", "on", "t", "true", "y", "yes"]

/-- The words for false, in small letters. -/
def falseWords : List String := ["0", "off", "f", "false", "n", "no"]

/-- The truth value that an integer stands for. An integer beyond 64 bits is not looked at. -/
def truthOfInteger (value : Int) : Except SettingProblem Bool :=
  if value < -0x8000000000000000 || 0x8000000000000000 ≤ value then .error .notTruth
  else if value = 0 then .ok false
  else if value = 1 then .ok true
  else .error .unclearTruth

/-- The integer that a double is equal to. It lies strictly between `-2 ^ 63` and `2 ^ 63`. -/
def integerOfDouble (value : Double) : Except SettingProblem Int :=
  match value.integer? with
  | some value => if value.natAbs < 0x8000000000000000 then .ok value else .error .longInteger
  | none => .error (if value.isFinite then .fraction else .notFinite)

/-- The truth value that a raw value stands for. Only ASCII letters may be capital ones. -/
def truthValue : Json → Except SettingProblem Bool
  | .bool value => .ok value
  | .int value => truthOfInteger value
  | .float value =>
    match integerOfDouble value with
    | .ok value => truthOfInteger value
    | .error _ => .error .notTruth
  | .text text =>
    let word := String.ofList (text.toList.map Char.toLower)
    if falseWords.contains word then .ok false
    else if trueWords.contains word then .ok true
    else .error .unclearTruth
  | _ => .error .notTruth

/-! ### Integers -/

/-- The integer that a plain numeral stands for: digits behind an optional minus sign, the first of
them no zero unless it is the only one. A numeral of more than 4300 characters is too long, whatever
follows it. -/
def plainInteger (text : List Char) : Except SettingProblem Int :=
  let (negative, body) := match text with
    | '-' :: rest => (true, rest)
    | _ => (false, text)
  let (digits, rest) := body.span Char.isDigit
  match digits with
  | [] => .error .unclearInteger
  | '0' :: more => if more.isEmpty && rest.isEmpty then .ok 0 else .error .unclearInteger
  | _ =>
    if Text.digitLimit < text.length - rest.length then .error .longInteger
    else if rest.isEmpty then
      let value := digits.foldl (fun value c => 10 * value + (c.toNat - '0'.toNat)) 0
      .ok (if negative then -(value : Int) else value)
    else .error .unclearInteger

/-- The digits without leading zeros and the underscores among them; `none` if they start with no
digit. The last of them stays in front of nothing and in front of a point. A minus sign may follow
the zeros. -/
def dropLeadingZeros (digits : List Char) : Option (List Char) :=
  match digits with
  | '0' :: rest =>
    let (zeros, more) := rest.span fun c => c = '0' || c = '_'
    let last := zeros.getLast?.getD '0'
    match more with
    | [] => some [last]
    | '.' :: _ => some (last :: more)
    | c :: _ => if ('1' ≤ c && c ≤ '9') || c = '-' then some more else none
  | c :: _ => if '1' ≤ c && c ≤ '9' then some digits else none
  | [] => none

/-- The text without a point that at least one zero follows, and nothing else. -/
def dropZeroFraction (text : List Char) : List Char :=
  match text.span (· ≠ '.') with
  | (whole, '.' :: '0' :: more) => if more.all (· = '0') then whole else text
  | _ => text

/-- The text without single underscores; `none` if there is one at an end, or two in a row. -/
def dropUnderscores (text : List Char) : Option (List Char) :=
  if text.head? = some '_' || text.getLast? = some '_' then none
  else if (text.zip (text.drop 1)).contains ('_', '_') then none
  else some (text.filter (· ≠ '_'))

/-- The plain form of a numeral with blanks around, a plus sign, leading zeros, underscores or a
fraction of zeros. -/
def plainForm? (text : List Char) : Option (List Char) := do
  let body := (text.dropWhile Text.isNumeralBlank).reverse.dropWhile Text.isNumeralBlank
  let (sign, digits) ← match body.reverse with
    | '+' :: '-' :: _ => none
    | '+' :: rest => some ([], rest)
    | '-' :: rest => some (['-'], rest)
    | body => some ([], body)
  let digits ← dropLeadingZeros digits
  dropUnderscores (dropZeroFraction (sign ++ digits))

/-- The integer that a text stands for. A numeral is too long only as it stands: one that is too
long behind blanks or a plus sign is no numeral. -/
def integerOfText (text : String) : Except SettingProblem Int :=
  match plainInteger text.toList with
  | .error .unclearInteger =>
    match (plainForm? text.toList).map plainInteger with
    | some (.ok value) => .ok value
    | _ => .error .unclearInteger
  | result => result

/-- The integer that a raw value stands for. -/
def integerValue : Json → Except SettingProblem Int
  | .int value => .ok value
  | .bool value => .ok (if value then 1 else 0)
  | .float value => integerOfDouble value
  | .text text => integerOfText text
  | _ => .error .notInteger

/-! ### The settings -/

/-- The depth limit that a raw value stands for. -/
def depthValue (raw : Json) : Except SettingProblem Nat := do
  let value ← integerValue raw
  if value ≤ 0 then .error (.notPositive value) else .ok value.toNat

/-- The undo limit that a raw value stands for. -/
def limitValue (raw : Json) : Except SettingProblem Nat := do
  let value ← integerValue raw
  if value < 0 then .error (.negative value) else .ok value.toNat

/-- The level that a raw value names, in any case and with blanks around. -/
def levelValue : Json → Except SettingProblem LogLevel
  | .text text =>
    match LogLevel.ofName? (Text.upper (Text.strip text)) with
    | some level => .ok level
    | none => .error (.unknownLevel text)
  | _ => .error .notText

/-- The file name that a raw value stands for. -/
def fileValue : Json → Except SettingProblem (Option String)
  | .null => .ok none
  | .text name => .ok (some name)
  | _ => .error .notText

/-- The value of one setting, its default if there is no such field, and the fault. -/
def readSetting {α : Type} (fields : List (String × Json)) (name : String) (default : α)
    (value : Json → Except SettingProblem α) : α × List SettingFault :=
  match fields.lookup name with
  | none => (default, [])
  | some raw =>
    match value raw with
    | .ok value => (value, [])
    | .error problem => (default, [⟨name, problem⟩])

namespace Settings

/-- The names of the settings, in order. -/
def names : List String := ["strict_structure", "max_depth", "undo_limit", "log_level", "log_file"]

/-- The settings that the fields stand for, or all faults. -/
def read (fields : List (String × Json)) : Except (List SettingFault) Settings :=
  let base : Settings := {}
  let (strictStructure, faults₁) :=
    readSetting fields "strict_structure" base.strictStructure truthValue
  let (maxDepth, faults₂) := readSetting fields "max_depth" base.maxDepth depthValue
  let (undoLimit, faults₃) := readSetting fields "undo_limit" base.undoLimit limitValue
  let (logLevel, faults₄) := readSetting fields "log_level" base.logLevel levelValue
  let (logFile, faults₅) := readSetting fields "log_file" base.logFile fileValue
  let unknown := fields.filterMap fun (name, _) =>
    if names.contains name then none else some ⟨name, .unknown⟩
  match faults₁ ++ faults₂ ++ faults₃ ++ faults₄ ++ faults₅ ++ unknown with
  | [] => .ok { strictStructure, maxDepth, undoLimit, logLevel, logFile }
  | faults => .error faults

/-- The settings as fields of a raw object. -/
def fields (settings : Settings) : List (String × Json) :=
  [("strict_structure", .bool settings.strictStructure), ("max_depth", .int settings.maxDepth),
    ("undo_limit", .int settings.undoLimit), ("log_level", .text settings.logLevel.name),
    ("log_file", (settings.logFile.map Json.text).getD .null)]

/-- The settings as a raw object. -/
def toJson (settings : Settings) : Json :=
  .object settings.fields

end Settings

end Verbatim
