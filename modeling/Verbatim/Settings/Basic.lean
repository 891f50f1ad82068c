/-!
# Settings

What is shared by building, editing and the command line.

## Main definitions

* `Settings`: the five settings, with their defaults
* `LogLevel`: the levels of log lines
-/

namespace Verbatim

/-- The levels of log lines, the least urgent first. -/
inductive LogLevel where
  | debug
  | info
  | warning
  | error
  | critical
  deriving DecidableEq, Repr

namespace LogLevel

/-- Every level, once. -/
def all : List LogLevel := [.debug, .info, .warning, .error, .critical]

/-- The level's name. -/
def name : LogLevel → String
  | .debug => "DEBUG"
  | .info => "INFO"
  | .warning => "WARNING"
  | .error => "ERROR"
  | .critical => "CRITICAL"

/-- The level's number; lines of a level are written where the number reaches the threshold. -/
def number : LogLevel → Int
  | .debug => 10
  | .info => 20
  | .warning => 30
  | .error => 40
  | .critical => 50

/-- The level with the given name. -/
def ofName? (text : String) : Option LogLevel :=
  all.find? fun level => level.name == text

theorem ofName?_name (level : LogLevel) : ofName? level.name = some level := by
  cases level <;> decide

end LogLevel

/-- The settings. -/
structure Settings where
  /-- Whether a child of a category that the parent does not take is refused. -/
  strictStructure : Bool := true
  /-- The deepest nesting of raw trees that is built. It is never zero. -/
  maxDepth : Nat := 256
  /-- How many changes can be undone; zero stands for all. -/
  undoLimit : Nat := 100
  /-- The least urgent level that is logged. -/
  logLevel : LogLevel := .warning
  /-- The file for log lines. -/
  logFile : Option String := none
  deriving DecidableEq, Repr

end Verbatim
