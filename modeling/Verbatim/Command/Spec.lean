/-!
# Commands and their words

What can be written on the command line: two groups of commands, each command with at most one
argument and with options.

## Main definitions

* `ValueType`, `OptionSpec`, `CommandSpec`, `GroupSpec`: what a command line is made of
* `groups`: the groups, `treeGroup` and `configGroup`
-/

namespace Verbatim

/-- What the value of an option or argument is. -/
inductive ValueType where
  | text
  | integer
  /-- A file that is there. -/
  | existingFile
  /-- A file or folder that is there. -/
  | existingPath
  /-- A file that can be written, so no folder. -/
  | newFile
  deriving DecidableEq, Repr

/-- The name of the type on help pages. -/
def ValueType.title : ValueType → String
  | .text => "TEXT"
  | .integer => "INTEGER"
  | .existingFile | .newFile => "FILE"
  | .existingPath => "PATH"

/-- An option. -/
structure OptionSpec where
  name : String
  /-- The option that switches this one off. -/
  opposite : Option String := none
  /-- The type of the option's value, unless it is a switch. -/
  value : Option ValueType := none
  required : Bool := false
  help : String
  deriving DecidableEq, Repr

/-- An argument. -/
structure ArgumentSpec where
  name : String
  value : ValueType
  deriving DecidableEq, Repr

/-- A command. -/
structure CommandSpec where
  name : String
  help : String
  argument : Option ArgumentSpec := none
  options : List OptionSpec := []
  deriving DecidableEq, Repr

/-- A group of commands, in the order of the help page, with the options of the group itself. -/
structure GroupSpec where
  name : String
  help : String
  options : List OptionSpec := []
  commands : List CommandSpec
  deriving DecidableEq, Repr

/-- The option that shows the help page. Every command has it, as the last one. -/
def helpOption : OptionSpec where
  name := "--help"
  help := "Show this message and exit."

/-- The option that shows the version. -/
def versionOption : OptionSpec where
  name := "--version"
  help := "Show the version and exit."

/-- The line that shows the version. -/
def versionLine : String := "composer-ast, version 1.0.0"

/-- Print the raw tree of a text. -/
def parseCommand : CommandSpec where
  name := "parse"
  help := "Parse a source file and print its raw JSON tree."
  argument := some { name := "SOURCE_FILE", value := .existingFile }
  options :=
    [{ name := "--out", value := some .newFile, help := "Write JSON here" },
      { name := "--indent", value := some .integer, help := "JSON indentation (default: 2)" }]

/-- Print the text of a raw tree. -/
def renderCommand : CommandSpec where
  name := "render"
  help := "Render a raw JSON tree back to source text."
  argument := some { name := "JSON_FILE", value := .existingFile }

/-- Check that a text comes back as it was. -/
def checkCommand : CommandSpec where
  name := "check"
  help := "Verify that a file survives parse, build and emit unchanged."
  argument := some { name := "SOURCE_FILE", value := .existingFile }

/-- Replace a condition. -/
def setConditionCommand : CommandSpec where
  name := "set-condition"
  help := "Replace the condition of an if, else-if or while statement."
  argument := some { name := "SOURCE_FILE", value := .existingFile }
  options :=
    [{ name := "--path", value := some .text, required := true,
        help := "Node path, e.g. \"0/0\"" },
      { name := "--expr", value := some .text, required := true,
        help := "New condition expression" },
      { name := "--in-place", help := "Rewrite the file instead of printing" }]

/-- The commands on trees. -/
def treeGroup : GroupSpec where
  name := "tree"
  help := "AST tree operations - parse, render and edit source files."
  options :=
    [{ name := "--config", value := some .existingFile, help := "Path to JSON configuration file" },
      { name := "--log-level", value := some .text, help := "Override configured log level" }]
  commands := [checkCommand, parseCommand, renderCommand, setConditionCommand]

/-- Write a file of settings. -/
def generateCommand : CommandSpec where
  name := "generate"
  help := "Generate configuration file for composer-ast."
  options :=
    [{ name := "--out", value := some .text,
        help := "Output config path (default: composer.json)" },
      { name := "--strict", opposite := some "--lenient",
        help := "Reject children of unexpected category (default: strict)" },
      { name := "--max-depth", value := some .integer,
        help := "Maximum raw tree depth (default: 256)" },
      { name := "--undo-limit", value := some .integer,
        help := "Change log capacity (default: 100)" },
      { name := "--log-level", value := some .text, help := "Log level (default: WARNING)" },
      { name := "--log-file", value := some .text, help := "Log file path (default: stderr)" }]

/-- Check a file of settings. -/
def validateCommand : CommandSpec where
  name := "validate"
  help := "Validate configuration file."
  argument := some { name := "CONFIG_FILE", value := .existingPath }

/-- The commands on settings. -/
def configGroup : GroupSpec where
  name := "config"
  help := "Configuration management commands."
  commands := [generateCommand, validateCommand]

/-- The program's name on its own pages. -/
def programName : String := "cli"

/-- What the program is for. -/
def programHelp : String := "Parse source into an editable AST and emit it back unchanged."

/-- The groups, in the order of the help page. -/
def groups : List GroupSpec := [configGroup, treeGroup]

end Verbatim
