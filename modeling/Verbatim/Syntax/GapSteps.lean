import Verbatim.Syntax.Gaps

/-!
# Changing the gaps of a node

A program changes the gaps of a node in two ways: it loads raw gaps, or sets the text of one gap.
What it hands over need not come out of a raw tree. Keys can be integers as well as texts, or
nothing that an integer can be made of. All entries of raw gaps are read aside before the first gap
changes, so that a bad one behind good ones does no harm.

An integer with too many digits is good as the number of a gap, but it cannot be written: not in the
message of an error, and not when the gaps are captured.

## Main definitions

* `GapKey`, `RawGaps`: keys, and raw gaps, as a program hands them over
* `GapFault`: why a step fails
* `GapStep`, `GapStep.run`: loading raw gaps and setting one gap
* `Gaps.afterSteps`: the gaps of a new node after some steps
* `Gaps.captured?`: the gaps as they are captured
-/

namespace Verbatim

/-! ### Written integers -/

namespace Text

/-- The written form of an integer, unless it has too many digits. -/
def numeral? (value : Int) : Option String :=
  if (Nat.toDigits 10 value.natAbs).length ≤ digitLimit then some (toString value) else none

/-- The text of the refusal of an integer that is too long to be written. -/
def unwrittenMessage : String :=
  s!"Exceeds the limit ({digitLimit} digits) for integer string conversion; " ++
    "use sys.set_int_max_str_digits() to increase the limit"

end Text

/-! ### What is handed over -/

/-- A key of raw gaps. -/
inductive GapKey where
  | text (key : String)
  /-- An integer, or what is taken for one. -/
  | integer (value : Int)
  /-- A key that no integer can be made of, as messages quote it. -/
  | shapeless (quoted : String)
  /-- A key that fails in its own way when an integer is made of it. -/
  | failing (error : String)

/-- Raw gaps: entries in the order in which they are given, or a value that has none. -/
inductive RawGaps where
  | mapping (entries : List (GapKey × Json))
  | other

/-- The raw gaps of a raw node. -/
def RawGaps.ofJson : Json → RawGaps
  | .object fields => .mapping (fields.map fun field => (.text field.1, field.2))
  | _ => .other

/-- Why a step fails. -/
inductive GapFault where
  | malformed (problem : GapProblem)
  | shapeless (quoted : String)
  /-- There is something wrong at a number that is too long for a message. -/
  | unwritten
  /-- The error of a key. -/
  | failed (error : String)
  /-- The layout has no such gap to be set. -/
  | noGap (index : Int)
  deriving DecidableEq, Repr

/-- The text of the fault. -/
def GapFault.message : GapFault → String
  | .malformed problem => problem.message
  | .shapeless quoted => "invalid whitespace region index " ++ quoted
  | .unwritten => Text.unwrittenMessage
  | .failed error => error
  | .noGap index => (Text.numeral? index).getD Text.unwrittenMessage

/-- The fault for a problem at a gap. -/
def GapFault.about (index : Int) (problem : GapProblem) : GapFault :=
  if (Text.numeral? index).isSome then .malformed problem else .unwritten

/-- The number that a key tells. -/
def GapKey.index : GapKey → Except GapFault Int
  | text key => (Text.readInteger key).mapError fun _ => .malformed (.badIndex key)
  | integer value => .ok value
  | shapeless quoted => .error (.shapeless quoted)
  | failing error => .error (.failed error)

/-! ### Steps -/

namespace Gaps

/-- Check one entry of raw gaps. -/
def checkEntry (layout : Layout) (entry : GapKey × Json) : Except GapFault (Nat × String) := do
  let index ← entry.1.index
  unless layout.acceptsGap index do
    throw (.about index (.unknown index))
  match entry.2 with
  | .text text => return (index.toNat, text)
  | _ => throw (.about index (.notText index))

/-- Put one entry of raw gaps to those that were read. -/
def takeEntry (layout : Layout) (loaded : Gaps) (entry : GapKey × Json) : Except GapFault Gaps := do
  let (index, text) ← checkEntry layout entry
  return loaded.set index text

/-- Read the entries of raw gaps, up to the first bad one. -/
def collect (layout : Layout) (entries : List (GapKey × Json)) : Except GapFault Gaps :=
  entries.foldlM (takeEntry layout) []

/-- Give all gaps the texts that they have among others. -/
def update (gaps others : Gaps) : Gaps :=
  others.foldl (fun gaps entry => gaps.set entry.1 entry.2) gaps

/-- The gaps in raw form, if their numbers can be written. -/
def captured? (gaps : Gaps) : Option Json :=
  (gaps.mapM fun ((index : Nat), text) => (Text.numeral? index).map (·, Json.text text)).map .object

end Gaps

/-- Work on the gaps of a node. What was changed before a fault stays changed. -/
abbrev GapWork := ExceptT GapFault (StateM Gaps)

/-- A change of the gaps of a node. -/
inductive GapStep where
  | load (raw : RawGaps)
  | set (index : Int) (text : String)

namespace GapStep

/-- What a step does. -/
def work (layout : Layout) : GapStep → GapWork Unit
  | load (.mapping entries) => do
    let loaded ← MonadExcept.ofExcept (Gaps.collect layout entries)
    modify fun gaps => gaps.update loaded
  | load .other => throw (.malformed .notMapping)
  | set index text => do
    unless layout.acceptsGap index do
      throw (.noGap index)
    modify fun gaps => gaps.set index.toNat text

/-- What comes of a step, and the gaps afterwards. -/
def run (layout : Layout) (step : GapStep) (gaps : Gaps) : Except GapFault Unit × Gaps :=
  (ExceptT.run (step.work layout)).run gaps

end GapStep

end Verbatim
