import Std.Time.Format
import Verbatim.Command.Run

/-!
# The program

Files, the clock and the names of trees as the outside world has them, and the entry point.
-/

namespace Verbatim

/-- Whether an error code is the given one. Some calls negate the codes of the system. -/
def isCode (code expected : UInt32) : Bool :=
  code = expected || code = 0 - expected

/-- The cause of a failure to reach a file, if it is one that commands know. -/
def fileErrorOf (name : FileName) : IO.Error → Option FileError
  | .noFileOrDirectory .. => some (.missing name)
  | .inappropriateType _ code _ => some (if isCode code 21 then .isFolder name else .notFolder name)
  | .alreadyExists .. => some (.occupied name)
  | .invalidArgument _ code _ =>
    if Folder.holdsNull name.text then some .nullCharacter
    else if isCode code 36 then some (.tooLong name)
    else none
  | .resourceBusy .. => some (.busy name)
  | _ => none

/-- Try to reach a file. -/
def attempt {α : Type} (name : FileName) (action : IO α) : IO (Except FileError α) := do
  try
    return .ok (← action)
  catch e =>
    match fileErrorOf name e with
    | some e => return .error e
    | none => throw e

/-- Write a file, and make the folders above it. -/
def writeDeepFile (name : FileName) (text : String) : IO Unit := do
  IO.FS.createDirAll name.above.text
  IO.FS.writeFile name.text text

/-- Write a file whole: first beside its place, then into it. -/
def replaceFile (name : FileName) (text : String) : IO Unit := do
  IO.FS.createDirAll name.above.text
  let beside : FileName :=
    { name with parts := name.parts.dropLast ++ ["." ++ name.last ++ ".making.tmp"] }
  IO.FS.writeFile beside.text text
  try
    IO.FS.rename beside.text name.text
  catch e =>
    IO.FS.removeFile beside.text
    throw e

instance : Files IO where
  entry name := do
    match ← attempt name (IO.FS.readBinFile name.text) with
    | .ok _ => return .ok .file
    | .error (.isFolder _) => return .ok .folder
    | .error (.tooLong name) => return .error (.tooLong name)
    | .error _ => return .ok .missing
  read name := do
    match ← attempt name (IO.FS.readBinFile name.text) with
    | .ok bytes => return (Contents.ofBytes bytes.toList).read.mapError .undecodable
    | .error e => return .error e
  write name text := attempt name (IO.FS.writeFile name.text text)
  writeDeep name text := attempt name (writeDeepFile name text)
  replace name text := attempt name (replaceFile name text)
  append name text := attempt name do
    let file ← IO.FS.Handle.mk name.text .append
    file.putStr text

/-- A name for a tree that no other tree has: 32 random hexadecimal digits in five groups. -/
def freshLabel : IO String := do
  let group (width : Nat) : IO String := do
    return String.ofList (Text.hex width (← IO.rand 0 (Nat.pow 16 width - 1)))
  return "-".intercalate
    [← group 8, ← group 4, ← group 4, ← group 4, (← group 6) ++ (← group 6)]

/-- The time now. -/
def timeText : IO String := do
  return (← Std.Time.PlainDateTime.now).format "uuuu-MM-dd HH:mm:ss"

end Verbatim

/-- Run the program on the words of the command line. -/
def main (arguments : List String) : IO UInt32 := do
  let surroundings : Verbatim.Surroundings :=
    { label := ← Verbatim.freshLabel, time := ← Verbatim.timeText }
  let outcome ← Verbatim.run surroundings arguments
  IO.print outcome.stdout
  IO.eprint outcome.stderr
  if let some e := outcome.escaped then
    IO.eprintln e.message
  return UInt32.ofNat outcome.exit
