import Verbatim.Command.Help
import Verbatim.Command.Report
import Verbatim.Command.Words
import Verbatim.Log.Setup
import Verbatim.Settings.File
import Verbatim.Tree.Edit

/-!
# Running commands

A command line is read, its values are checked against the files that are there, and the command
runs. The commands on trees first load their settings and start the log.

## Main definitions

* `Surroundings`: what a run takes from outside, apart from files
* `runParse`, `runRender`, `runCheck`, `runSetCondition`, `runGenerate`, `runValidate`: the commands
* `run`: the program
-/

namespace Verbatim

/-- What a run takes from outside, apart from files. -/
structure Surroundings where
  /-- The name of the tree. -/
  label : String
  /-- The time in log lines. -/
  time : String

variable {m : Type → Type} [Monad m] [Files m]

/-! ### Values on the command line -/

/-- Why a value is refused for an option or argument. -/
def valueProblem? (name : String) (type : ValueType) (text : String) : m (Option UsageError) := do
  match type with
  | .text => return none
  | .integer =>
    match Text.readInteger text with
    | .ok _ => return none
    | .error _ => return some (.badInteger name text)
  | .existingFile =>
    match ← found text with
    | .missing => return some (.notFound name text)
    | .folder => return some (.isFolder name text)
    | .file => return none
  | .existingPath =>
    match ← found text with
    | .missing => return some (.notFound name text)
    | _ => return none
  | .newFile =>
    match ← found text with
    | .folder => return some (.isFolder name text)
    | _ => return none
where
  /-- What is there under the name. An empty name is nowhere, and so is a file asked for as a
  folder. -/
  found (text : String) : m Entry := do
    if text = "" then return .missing
    match ← Files.entry (FileName.ofText text) with
    | .ok .file => return if FileName.asksForFolder text then .missing else .file
    | .ok entry => return entry
    | .error _ => return .missing

/-- Why an option is refused: its last value is, or it has none and needs one. -/
def optionProblem? (words : Words) (spec : OptionSpec) : m (Option UsageError) := do
  match spec.value, words.value? spec.name with
  | some type, some text => valueProblem? spec.name type text
  | _, _ =>
    return if spec.required && !words.has spec.name then some (.missingOption spec.name) else none

/-- Why the plain words of a command are refused. -/
def argumentProblem? (argument : Option ArgumentSpec) (plain : List String) :
    m (Option UsageError) := do
  match argument, plain with
  | none, [] => return none
  | none, text :: _ => return some (.extraArgument text)
  | some argument, [] => return some (.missingArgument argument.name)
  | some argument, [text] => valueProblem? argument.name argument.value text
  | some _, _ :: text :: _ => return some (.extraArgument text)

/-- The first problem that a list of checks finds. -/
def firstProblem? : List (m (Option UsageError)) → m (Option UsageError)
  | [] => return none
  | check :: rest => do
    match ← check with
    | some problem => return some problem
    | none => firstProblem? rest

/-- The outcome of a command line that makes no sense. -/
def refused (error : UsageError) : Outcome :=
  { exit := 2, stderr := s!"Error: {error.message}\n" }

/-- The integer given for an option. -/
def integerOption? (words : Words) (name : String) : Option Int :=
  (words.value? name).bind fun text => (Text.readInteger text).toOption

/-- The first plain word as a file name. -/
def fileArgument (words : Words) : FileName :=
  FileName.ofText (words.plain.headD "")

/-! ### Commands on trees -/

/-- The number of blanks for an indentation. A negative one stands for none, and one that takes more
than 47 bits finds no room. -/
def indentWidth (indent : Int) : Except Escape Nat :=
  if indent < -0x8000000000000000 || 0x8000000000000000 ≤ indent then .error .indentTooLarge
  else if 0x800000000000 ≤ indent then .error .noRoom
  else .ok indent.toNat

/-- Print the raw tree of a text, or write it into a file. -/
def runParse (words : Words) : m Report := do
  match ← Files.read (fileArgument words) with
  | .error e => return { outcome := .unhandled (.file e) }
  | .ok text =>
    match parseUnit text with
    | .error e => return { outcome := .failed "parsing source" e.message }
    | .ok node =>
      match indentWidth ((integerOption? words "--indent").getD 2) with
      | .error e => return { outcome := .unhandled e }
      | .ok width =>
        let json := node.toRaw.pretty width ++ "\n"
        match (words.value? "--out").map FileName.ofText with
        | none => return { outcome := .printed json }
        | some out =>
          match ← Files.write out json with
          | .error e => return { outcome := .unhandled (.file e) }
          | .ok () => return { outcome := .done s!"Raw tree written: {out.text}" }

/-- Print the text of a raw tree. -/
def runRender (label : String) (settings : Settings) (words : Words) : m Report := do
  match ← Files.read (fileArgument words) with
  | .error e => return { outcome := .unhandled (.file e) }
  | .ok text =>
    match Json.read text with
    | .error (.tooLong digits) => return { outcome := .unhandled (.longNumeral digits) }
    | .error e => return { outcome := .failed "reading JSON" e.message }
    | .ok raw =>
      match Tree.renderRaw label settings raw with
      | .error error =>
        let notes := match error with
          | .build failure => abandonedNotes label failure
          | .render _ => []
        return { notes, outcome := .failed "rendering tree" error.message }
      | .ok source => return { outcome := .printed source }

/-- Check that the text of a file comes back as it was. -/
def runCheck (label : String) (settings : Settings) (words : Words) : m Report := do
  let name := fileArgument words
  match ← Files.read name with
  | .error e => return { outcome := .unhandled (.file e) }
  | .ok text =>
    let built := Tree.ofSource label settings text
    let notes := buildNotes label built
    match built with
    | .error e => return { notes, outcome := .failed "building tree" e.message }
    | .ok tree =>
      match tree.emit with
      | .error e => return { notes, outcome := .failed "building tree" e.message }
      | .ok emitted =>
        if emitted = text then
          let count := tree.stored.length
          return { notes, outcome := .done s!"Round-trip OK: {name.text} ({count} nodes)" }
        else
          return { notes, outcome := .wrong s!"Round-trip mismatch: {name.text}" }

/-- Why no node is found. -/
inductive LocateError where
  | path (error : PathError)
  | lookup (failure : LookupFailure)
  deriving DecidableEq, Repr

/-- The text of the error. -/
def LocateError.message : LocateError → String
  | .path error => error.message
  | .lookup failure => failure.message

/-- The node that a written path leads to. -/
def Tree.locate (tree : Tree) (path : String) : Except LocateError NodeId := do
  let path ← (Path.read path).mapError .path
  (tree.resolve path).mapError .lookup

/-- Print a tree, or save it into the named file, from which it came. -/
def finishEdit (label : String) (name : FileName) (tree : Tree) (inPlace : Bool) : m Report := do
  if inPlace then
    match ← tree.saveFile none with
    | (_, .error (.file e)) => return { outcome := .unhandled (.file e) }
    | (_, .error e) => return { outcome := .failed "setting condition" e.message }
    | (_, .ok saved) =>
      return {
        notes := [⟨.info, s!"Saved tree {label} to {saved.text}"⟩]
        replaced := some saved
        outcome := .done s!"Condition updated: {name.text}" }
  else
    match tree.emit with
    | .error e => return { outcome := .failed "setting condition" e.message }
    | .ok source => return { outcome := .printed source }

/-- Replace a condition in the tree of a file. -/
def runSetCondition (label : String) (settings : Settings) (words : Words) : m Report := do
  let name := fileArgument words
  let path := (words.value? "--path").getD ""
  let expression := (words.value? "--expr").getD ""
  match ← Tree.loadFile label settings name.text with
  | .error (.source e) =>
    return { notes := buildNotes label (.error e), outcome := .failed "locating node" e.message }
  | .error (.file (.undecodable e)) => return { outcome := .failed "locating node" e.message }
  | .error (.file e) => return { outcome := .unhandled (.file e) }
  | .error (.missing _) => return { outcome := .unhandled (.file (.missing name)) }
  | .ok tree =>
    let notes := buildNotes label (.ok tree)
    match tree.locate path with
    | .error e => return { notes, outcome := .failed "locating node" e.message }
    | .ok node =>
      if node.kind.hasCondition then
        let (edited, result) := tree.setConditionText node expression
        let notes := notes ++ conditionNotes label node expression result
        match result with
        | .error e => return { notes, outcome := .failed "setting condition" e.message }
        | .ok _ =>
          let finished ← finishEdit label name edited (words.has "--in-place")
          return finished.after notes
      else
        let problem :=
          s!"Node at {Text.quoted path} is {node.kind.tag}, not a conditional statement"
        return { notes, outcome := .wrong problem }

/-! ### Commands on settings -/

/-- The settings given as options, as fields. -/
def givenFields (words : Words) : List (String × Json) :=
  let strict := generateCommand.options.find? fun spec => spec.opposite.isSome
  let on := match strict with
    | some spec => words.isOn spec true
    | none => true
  let integer (option name : String) : List (String × Json) :=
    ((integerOption? words option).map fun value => (name, Json.int value)).toList
  let text (option name : String) : List (String × Json) :=
    ((words.value? option).map fun value => (name, Json.text value)).toList
  ("strict_structure", .bool on) :: integer "--max-depth" "max_depth"
    ++ integer "--undo-limit" "undo_limit" ++ text "--log-level" "log_level"
    ++ text "--log-file" "log_file"

/-- Write a file of settings. -/
def runGenerate (words : Words) : m Outcome := do
  let out := (words.value? "--out").getD "composer.json"
  match Settings.read (givenFields words) with
  | .error faults => return .failed "generating configuration" (faultsHeading faults)
  | .ok settings =>
    match ← saveFields settings.fields (FileName.ofText out) with
    | .error e => return .failed "generating configuration" e.message
    | .ok () => return .done s!"Configuration generated: {out}"

/-- Check a file of settings. -/
def runValidate (words : Words) : m Outcome := do
  match ← Settings.load (fileArgument words) with
  | .error e => return .unhandled (.file e)
  | .ok (.ok _) => return .done "Validation OK"
  | .ok (.error e) => return { exit := 1, stdout := s!"❌ Validation failed:\n   - {e.message}\n" }

/-! ### The program -/

/-- Read the words of a command, and run it unless its help page is asked for. -/
def runCommand (group : GroupSpec) (command : CommandSpec) (arguments : List String)
    (action : Words → m Outcome) : m Outcome := do
  match Words.scan (command.options ++ [helpOption]) true arguments with
  | .error e => return refused e
  | .ok words =>
    if words.has helpOption.name then return .printed (commandPage group command)
    else
      let checks := command.options.map (optionProblem? words)
        ++ [argumentProblem? command.argument words.plain]
      match ← firstProblem? (m := m) checks with
      | some e => return refused e
      | none => action words

/-- Read the words of a group up to its command, and go on with the command and its words. -/
def runGroup (group : GroupSpec) (arguments : List String)
    (action : Words → CommandSpec → List String → m Outcome) : m Outcome := do
  if arguments.isEmpty then return { exit := 2, stderr := groupPage group }
  else
    match Words.scan (group.options ++ [helpOption]) false arguments with
    | .error e => return refused e
    | .ok words =>
      if words.has helpOption.name then return .printed (groupPage group)
      else
        match ← firstProblem? (m := m) (group.options.map (optionProblem? words)) with
        | some e => return refused e
        | none =>
          match words.plain with
          | [] => return refused .missingCommand
          | name :: rest =>
            match group.commands.find? fun command => command.name = name with
            | none => return refused (.unknownCommand name)
            | some command => action words command rest

/-- The settings for commands on trees: those of a file, with the level of an option. -/
def treeSettings (words : Words) : m (Except Outcome Settings) := do
  let failed (reason : String) : Except Outcome Settings :=
    .error (.failed "loading configuration" reason)
  let loaded ← match words.value? "--config" with
    | none => pure (.ok (.ok {}))
    | some path => Settings.load (FileName.ofText path)
  match loaded with
  | .error e => return .error (.unhandled (.file e))
  | .ok (.error e) => return failed e.message
  | .ok (.ok settings) =>
    match words.value? "--log-level" with
    | none | some "" => return .ok settings
    | some level =>
      match levelValue (.text level) with
      | .ok logLevel => return .ok { settings with logLevel }
      | .error problem => return failed (faultsHeading [⟨"log_level", problem⟩])

/-- Write the notes of a report into the log, and give its outcome. What the log writes to the error
stream comes first. Where the command put a new file in place of the log's file, the log went on with
the one that is gone. -/
def conclude (surroundings : Surroundings) (log : Log) (report : Report) : m Outcome := do
  let gone := log.file.isSome && log.file = report.replaced.map FileName.settled
  let notes := if gone then [] else report.notes
  let lines ← notes.mapM fun note =>
    log.write surroundings.time note.level.number note.text
  let written := "".intercalate lines
  return { report.outcome with stderr := written ++ report.outcome.stderr }

/-- Run a command on trees. -/
def runTree (surroundings : Surroundings) (group : Words) (command : CommandSpec)
    (arguments : List String) : m Outcome := do
  match ← treeSettings group with
  | .error outcome => return outcome
  | .ok settings =>
    match ← Log.start settings.logLevel.name settings.logFile with
    | .error (.file e) => return .unhandled (.file e)
    | .error e => return .failed "starting log" e.message
    | .ok log =>
      let label := surroundings.label
      runCommand treeGroup command arguments fun words => do
        let report ← match command.name with
          | "parse" => runParse words
          | "render" => runRender label settings words
          | "check" => runCheck label settings words
          | _ => runSetCondition label settings words
        conclude surroundings log report

/-- Run a command on settings. -/
def runConfig (command : CommandSpec) (arguments : List String) : m Outcome :=
  runCommand configGroup command arguments fun words =>
    match command.name with
    | "generate" => runGenerate words
    | _ => runValidate words

/-- Run the program. -/
def run (surroundings : Surroundings) (arguments : List String) : m Outcome := do
  if arguments.isEmpty then return { exit := 2, stderr := programPage }
  else
    match Words.scan [versionOption, helpOption] false arguments with
    | .error e => return refused e
    | .ok words =>
      match words.options, words.plain with
      | (name, _) :: _, _ =>
        return .printed (if name = versionOption.name then versionLine ++ "\n" else programPage)
      | [], "tree" :: rest => runGroup treeGroup rest (runTree surroundings)
      | [], "config" :: rest => runGroup configGroup rest fun _ => runConfig
      | [], [] => return refused .missingCommand
      | [], name :: _ => return refused (.unknownCommand name)

end Verbatim
