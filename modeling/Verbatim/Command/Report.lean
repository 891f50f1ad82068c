import Verbatim.Storage.Folder
import Verbatim.Tree.Source
import Verbatim.Tree.Edit

/-!
# Reports of commands

What a command prints, how it ends, and what it notes in the log on the way.

## Main definitions

* `Outcome`: the exit code and the printed text
* `Note`, `Report`: messages for the log, and an outcome with them
* `buildNotes`, `conditionNotes`: what building a tree and setting a condition note
-/

namespace Verbatim

/-- An error that a command does not handle. -/
inductive Escape where
  | file (error : FileError)
  /-- A file holds a numeral with too many digits. -/
  | longNumeral (digits : Nat)
  /-- An indentation is no integer of 64 bits. -/
  | indentTooLarge
  /-- There is no room for so many blanks. -/
  | noRoom

/-- The text of the error. -/
def Escape.message : Escape → String
  | .file error => error.message
  | .longNumeral digits => Text.tooLongMessage digits
  | .indentTooLarge => "cannot fit 'int' into an index-sized integer"
  | .noRoom => ""

/-- How a run ends. -/
structure Outcome where
  exit : Nat := 0
  stdout : String := ""
  stderr : String := ""
  escaped : Option Escape := none

namespace Outcome

/-- Print and end well. -/
def printed (text : String) : Outcome := { stdout := text }

/-- Print a line about what was done, and end well. -/
def done (line : String) : Outcome := printed s!"✅ {line}\n"

/-- Print a line about what is wrong, and fail. -/
def wrong (line : String) : Outcome := { exit := 1, stderr := s!"❌ {line}\n" }

/-- Say which action failed and why, and fail. -/
def failed (action reason : String) : Outcome := wrong s!"Error {action}: {reason}"

/-- Fail with an error that is not handled. -/
def unhandled (error : Escape) : Outcome := { exit := 1, escaped := some error }

end Outcome

/-- A message for the log. -/
structure Note where
  level : LogLevel
  text : String
  deriving DecidableEq, Repr

/-- An outcome with the messages on the way to it. -/
structure Report where
  notes : List Note := []
  /-- The file in whose place a new one was put. -/
  replaced : Option FileName := none
  outcome : Outcome

/-- Put notes in front. -/
def Report.after (notes : List Note) (report : Report) : Report :=
  { report with notes := notes ++ report.notes }

/-! ### Notes -/

/-- The notes of builds that were given up, the innermost first. -/
def abandonedNotes (label : String) (failure : BuildFailure) : List Note :=
  failure.abandoned.map fun kind =>
    ⟨.debug, s!"Error building {kind.tag} in tree {label}: {failure.error.message}"⟩

/-- The notes of a tree that was to be built. A tree that is nested too deep is not begun. -/
def buildNotes (label : String) : Except SourceError Tree → List Note
  | .ok tree => [⟨.debug, s!"Built tree {label} with {tree.stored.length} nodes"⟩]
  | .error (.parse _) => []
  | .error (.build failure) =>
    match failure.error with
    | .tooDeep _ => []
    | error =>
      abandonedNotes label failure
        ++ [⟨.error, s!"Error building tree from raw node: {error.message}"⟩]

/-- The note of a change. -/
def changeNote (label : String) (change : Change) : Note :=
  ⟨.debug, s!"Tree {label} change: {change.action.name} on {change.node.text}"⟩

/-- The notes of a condition that was to be set from a text. -/
def conditionNotes (label : String) (node : NodeId) (text : String) :
    Except Tree.ConditionTextError (Option Change) → List Note
  | .error (.parse _) => []
  | .error (.build failure) => abandonedNotes label failure
  | .error (.refused _) => [setting]
  | .ok change => setting :: (change.map (changeNote label)).toList
where
  setting : Note :=
    ⟨.debug,
      s!"Setting condition of {node.text} from {Text.quoted (Fragment.expression text).source}"⟩

end Verbatim
