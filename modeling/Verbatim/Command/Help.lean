import Verbatim.Command.Spec

/-!
# Help pages

A help page shows how a command is written, what it does, and a table of its options and another of
its commands. Every line fits the page, so nothing is broken.

## Main definitions

* `commandPage`, `groupPage`, `programPage`: the help pages
-/

namespace Verbatim

/-- How an option is written, in the first column. -/
def OptionSpec.usage (spec : OptionSpec) : String :=
  let value := match spec.value with
    | some type => " " ++ type.title
    | none => ""
  match spec.opposite with
  | some opposite => spec.name ++ " / " ++ opposite
  | none => spec.name ++ value

/-- What an option does, in the second column. -/
def OptionSpec.summary (spec : OptionSpec) : String :=
  if spec.required then spec.help ++ "  [required]" else spec.help

/-- A titled table with two columns, the second of which starts two blanks behind the longest entry
of the first. -/
def helpTable (title : String) (rows : List (String × String)) : String :=
  let width := rows.foldl (fun width row => max width row.1.length) 0
  let line (row : String × String) : String :=
    "  " ++ row.1 ++ String.ofList (List.replicate (width + 2 - row.1.length) ' ') ++ row.2 ++ "\n"
  title ++ ":\n" ++ "".intercalate (rows.map line)

/-- The table of options, the help option last. -/
def optionTable (options : List OptionSpec) : String :=
  helpTable "Options" ((options ++ [helpOption]).map fun spec => (spec.usage, spec.summary))

/-- A help page up to its table of options. -/
def helpPage (path usage help : String) (options : List OptionSpec) : String :=
  s!"Usage: {path} [OPTIONS]{usage}\n\n  {help}\n\n" ++ optionTable options

/-- The help page of a command in a group. -/
def commandPage (group : GroupSpec) (command : CommandSpec) : String :=
  let usage := match command.argument with
    | some argument => " " ++ argument.name
    | none => ""
  helpPage s!"{programName} {group.name} {command.name}" usage command.help command.options

/-- The help page of a group. -/
def groupPage (group : GroupSpec) : String :=
  helpPage s!"{programName} {group.name}" " COMMAND [ARGS]..." group.help group.options ++ "\n"
    ++ helpTable "Commands" (group.commands.map fun command => (command.name, command.help))

/-- The help page of the program. -/
def programPage : String :=
  helpPage programName " COMMAND [ARGS]..." programHelp [versionOption] ++ "\n"
    ++ helpTable "Commands" (groups.map fun group => (group.name, group.help))

end Verbatim
