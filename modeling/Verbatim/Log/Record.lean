import Verbatim.Log.Template
import Verbatim.Settings.Basic
import Verbatim.Text.Blank
import Verbatim.Text.Capital

/-!
# Log records

A log record has a level, a message and an importance from 0 to 10, by default that of its level's
name. A template says how a record is written as a line.

## Main definitions

* `levelTitle`, `levelOfName?`: names and numbers of levels
* `importanceOfName`: the importance that goes with the name of a level
* `LogRecord`: one record
* `LogRecord.line`, `LogRecord.filled`: a record as a line, in the usual form or by a template
-/

namespace Verbatim

/-! ### Levels -/

/-- The level names that a threshold can be given by, with their numbers. -/
def levelNames : List (String × Int) :=
  LogLevel.all.map (fun level => (level.name, level.number))
    ++ [("NOTSET", 0), ("WARN", 30), ("FATAL", 50)]

/-- The number of the level with the given name. -/
def levelOfName? (name : String) : Option Int :=
  levelNames.lookup name

/-- The name of a level in log lines. -/
def levelTitle (number : Int) : String :=
  match levelNames.find? fun level => level.2 = number with
  | some level => level.1
  | none => s!"Level {number}"

/-- The importance of a level. -/
def LogLevel.importance : LogLevel → Int
  | .debug => 2
  | .info => 4
  | .warning => 6
  | .error => 8
  | .critical => 10

/-- The importance that goes with a level name in any case, with blanks around. An unknown name
counts as much as information. -/
def importanceOfName (name : String) : Int :=
  ((LogLevel.ofName? (Text.upper (Text.strip name))).getD .info).importance

/-! ### Records -/

/-- One record. -/
structure LogRecord where
  level : Int
  /-- The name of the level. -/
  title : String
  message : String
  /-- An integer, unless a record is given something else. -/
  importance : Json

/-- The record of a message at a level. -/
def LogRecord.ofMessage (level : Int) (message : String) : LogRecord where
  level
  title := levelTitle level
  message
  importance := .int (importanceOfName (levelTitle level))

/-! ### Lines -/

/-- The line of a record, at the given time: time, level, importance and message. -/
def LogRecord.line (time : String) (record : LogRecord) : String :=
  let title : Directive := { left := true, width := 8, letter := 's' }
  let titleText := String.ofList (title.fit (.text record.title.toList))
  s!"{time} | {titleText} | {record.importance.plainText} | {record.message}"

/-- The fields of a record that templates name. -/
def LogRecord.fields (time : String) (record : LogRecord) : List (String × Json) :=
  [("asctime", .text time), ("levelname", .text record.title), ("levelno", .int record.level),
    ("importance", record.importance), ("message", .text record.message),
    ("msg", .text record.message)]

/-- The line of a record by a template, at the given time. An empty template stands for the message
alone. -/
def LogRecord.filled (template time : String) (record : LogRecord) :
    Except TemplateError String :=
  let template := if template = "" then "%(message)s" else template
  if LogTemplate.hasField template then LogTemplate.fill template (record.fields time)
  else .error (.noField template)

end Verbatim
