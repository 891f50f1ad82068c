import Verbatim.Command.Spec
import Verbatim.Text.Quoted

/-!
# Reading a command line

The words of a command line are options, values of options and plain words. Two dashes end the
options. A group stops at its first plain word, which names the command; a command takes options
anywhere.

## Main definitions

* `UsageError`: why a command line makes no sense
* `Words`, `Words.scan`: a command line taken apart
* `Words.value?`, `Words.has`: what was given for an option
-/

namespace Verbatim

/-- Why a command line makes no sense. -/
inductive UsageError where
  | unknownOption (name : String)
  | noValue (option : String)
  | unwantedValue (option : String)
  | missingOption (name : String)
  | missingArgument (name : String)
  | extraArgument (text : String)
  | badInteger (name text : String)
  /-- The file or folder is not there. -/
  | notFound (name text : String)
  | isFolder (name text : String)
  | unknownCommand (name : String)
  | missingCommand
  deriving DecidableEq, Repr

/-- The text of the error. -/
def UsageError.message : UsageError → String
  | .unknownOption name => s!"No such option: {name}"
  | .noValue option => s!"Option '{option}' requires an argument."
  | .unwantedValue option => s!"Option '{option}' does not take a value."
  | .missingOption name => s!"Missing option '{name}'."
  | .missingArgument name => s!"Missing argument '{name}'."
  | .extraArgument text => s!"Got unexpected extra argument ({text})"
  | .badInteger name text =>
    s!"Invalid value for '{name}': {Text.quoted text} is not a valid integer."
  | .notFound name text => s!"Invalid value for '{name}': {Text.quoted text} does not exist."
  | .isFolder name text => s!"Invalid value for '{name}': {Text.quoted text} is a directory."
  | .unknownCommand name => s!"No such command '{name}'."
  | .missingCommand => "Missing command."

/-- A command line taken apart. -/
structure Words where
  /-- The options in order, each with its value; switches have none. -/
  options : List (String × Option String) := []
  plain : List String := []
  deriving DecidableEq, Repr

namespace Words

/-- The option of the given name, or the one it switches off. -/
def find? (specs : List OptionSpec) (name : String) : Option OptionSpec :=
  specs.find? fun spec => spec.name = name || spec.opposite = some name

/-- Put an option in front. -/
def withOption (name : String) (value : Option String) (words : Words) : Words :=
  { words with options := (name, value) :: words.options }

/-- Put a plain word in front. -/
def withPlain (word : String) (words : Words) : Words :=
  { words with plain := word :: words.plain }

/-- The name of an option and the value behind an equals sign, if there is one. -/
def splitOption (word : String) : String × Option String :=
  let (name, rest) := word.toList.span (· ≠ '=')
  match rest with
  | [] => (word, none)
  | _ :: value => (String.ofList name, some (String.ofList value))

/-- Whether the word is an option: a dash and more. -/
def isOption (word : String) : Bool :=
  match word.toList with
  | '-' :: _ :: _ => true
  | _ => false

/-- Take a command line apart, with options behind plain words or not. -/
def scan (specs : List OptionSpec) (anywhere : Bool) : List String → Except UsageError Words
  | [] => .ok {}
  | word :: rest =>
    if word = "--" then .ok { plain := rest }
    else if isOption word then
      let (name, given) := splitOption word
      match find? specs name, given, rest with
      | none, _, _ => .error (.unknownOption name)
      | some { value := none, .. }, some _, _ => .error (.unwantedValue name)
      | some { value := none, .. }, none, rest =>
        (scan specs anywhere rest).map (withOption name none)
      | some { value := some _, .. }, some given, rest =>
        (scan specs anywhere rest).map (withOption name (some given))
      | some { value := some _, .. }, none, value :: rest =>
        (scan specs anywhere rest).map (withOption name (some value))
      | some { value := some _, .. }, none, [] => .error (.noValue name)
    else if anywhere then (scan specs anywhere rest).map (withPlain word)
    else .ok { plain := word :: rest }

/-- The value that an option was given last. -/
def value? (words : Words) (name : String) : Option String :=
  (words.options.reverse.find? fun option => option.1 = name).bind Prod.snd

/-- Whether an option was given. -/
def has (words : Words) (name : String) : Bool :=
  words.options.any fun option => option.1 = name

/-- Whether a switch is on: the last word on it counts. -/
def isOn (words : Words) (spec : OptionSpec) (default : Bool) : Bool :=
  let last := words.options.reverse.find? fun option =>
    option.1 = spec.name || some option.1 = spec.opposite
  match last with
  | some option => option.1 = spec.name
  | none => default

end Words

end Verbatim
