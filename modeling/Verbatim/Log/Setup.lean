import Verbatim.Log.Record
import Verbatim.Storage.Folder

/-!
# Setting up a log

A log has a threshold, below which nothing is written, and goes to a file or to the error stream.

## Main definitions

* `Log`: the threshold and where lines go
* `Log.start`: a log with the threshold of a level name, its file made at once
* `Log.write`: write a record, if it reaches the threshold
-/

namespace Verbatim

/-- Where records go, and which. -/
structure Log where
  threshold : Int
  /-- The file for the lines; without one they go to the error stream. -/
  file : Option FileName
  deriving DecidableEq, Repr

/-- Why a log cannot be started. -/
inductive LogError where
  | file (error : FileError)
  | unknownLevel (name : String)

/-- The text of the error. -/
def LogError.message : LogError → String
  | .file error => error.message
  | .unknownLevel name => s!"Unknown level: {Text.quoted name}"

namespace Log

/-- The least level that is written. Without a threshold of its own a log writes warnings. -/
def least (log : Log) : Int :=
  if log.threshold = 0 then LogLevel.warning.number else log.threshold

/-- Whether records of the level are written. -/
def writes (log : Log) (level : Int) : Bool :=
  log.least ≤ level

/-- Start a log. The file is made first, and then the level is looked up. Double dots in the file's
name take back the part before them, folder or not. -/
def start {m : Type → Type} [Monad m] [Files m] (level : String) (file : Option String) :
    m (Except LogError Log) := do
  let name := match file with
    | none | some "" => none
    | some name => some (FileName.ofText name).settled
  let opened ← match name with
    | some name => Files.append name ""
    | none => pure (.ok ())
  match opened with
  | .error e => return .error (.file e)
  | .ok () =>
    match levelOfName? (Text.upper level) with
    | some threshold => return .ok { threshold, file := name }
    | none => return .error (.unknownLevel (Text.upper level))

/-- Write a record. What goes to the error stream is given back. -/
def write {m : Type → Type} [Monad m] [Files m] (log : Log) (time : String) (level : Int)
    (message : String) : m String := do
  if log.writes level then
    let line := (LogRecord.ofMessage level message).line time ++ "\n"
    match log.file with
    | some name =>
      let _ ← Files.append name line
      return ""
    | none => return line
  else
    return ""

end Log

end Verbatim
