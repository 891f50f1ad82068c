import Verbatim.Storage.FileName
import Verbatim.Text.Utf8

/-!
# Folders of files

The files below a working folder, as a value, and the reading and writing of files.

## Main definitions

* `Contents`: what a file holds
* `Folder`, `Folder.entry`: the files, and what a name stands for
* `Folder.walk`, `Folder.makeFolders`: the way of a name through folders, the latter making them
* `Folder.read`, `Folder.write`, `Folder.append`, `Folder.replace`: reading and writing
* `FileError`: why a file cannot be read or written
* `Files`: reading and writing in any monad, of which `Folder` is one instance

## Main results

* `Folder.get?_put`: what was put at a place is there

## Implementation notes

A folder is there where files are below it, or where it was made. Making the folders above a file
and then failing to write the file leaves them behind.
-/

namespace Verbatim

/-- What a file holds: a text, or bytes that are no text. -/
inductive Contents where
  | text (text : String)
  | bytes (bytes : List UInt8)
  deriving DecidableEq, Repr

namespace Contents

/-- The contents that bytes make up. -/
def ofBytes (bytes : List UInt8) : Contents :=
  match Text.decodeBytes bytes with
  | .ok decoded => .text decoded
  | .error _ => .bytes bytes

/-- The contents as text, with line ends folded. -/
def read : Contents → Except Text.DecodeError String
  | .text stored => .ok (Text.foldLineEnds stored)
  | .bytes stored => (Text.decodeBytes stored).map Text.foldLineEnds

/-- The contents with bad bytes shown by number. -/
def shown : Contents → String
  | .text stored => stored
  | .bytes stored => Text.showBytes stored

/-- The contents with a text behind them. -/
def append : Contents → String → Contents
  | .text stored, more => .text (stored ++ more)
  | .bytes stored, more => .bytes (stored ++ more.toUTF8.toList)

end Contents

/-- Why a file cannot be read or written. -/
inductive FileError where
  | missing (name : FileName)
  | isFolder (name : FileName)
  /-- A file stands where the name wants a folder. -/
  | notFolder (name : FileName)
  /-- A file stands where a folder is to be made. -/
  | occupied (name : FileName)
  /-- A part of the name, or all of it, is too long. -/
  | tooLong (name : FileName)
  /-- The name ends in no part of its own that a file could take the place of. -/
  | busy (name : FileName)
  /-- The name holds a null character. -/
  | nullCharacter
  | undecodable (error : Text.DecodeError)
  deriving DecidableEq, Repr

/-- The text of the error. -/
def FileError.message : FileError → String
  | .missing name => s!"[Errno 2] No such file or directory: {Text.quoted name.text}"
  | .isFolder name => s!"[Errno 21] Is a directory: {Text.quoted name.text}"
  | .notFolder name => s!"[Errno 20] Not a directory: {Text.quoted name.text}"
  | .occupied name => s!"[Errno 17] File exists: {Text.quoted name.text}"
  | .tooLong name => s!"[Errno 36] File name too long: {Text.quoted name.text}"
  | .busy name => s!"[Errno 16] Device or resource busy: {Text.quoted name.text}"
  | .nullCharacter => "embedded null byte"
  | .undecodable error => error.message

/-- What a name leads to. -/
inductive Spot where
  /-- A place below the working folder, which is itself the empty place. -/
  | inside (place : List String)
  /-- A folder around the working folder. -/
  | around
  deriving DecidableEq, Repr

/-- The spot that a part of a name leads to. Around the working folder nothing else is to be
seen. -/
def Spot.step? : Spot → String → Option Spot
  | .around, ".." | .inside [], ".." => some .around
  | .around, _ => none
  | .inside place, ".." => some (.inside place.dropLast)
  | .inside place, part => some (.inside (place ++ [part]))

/-- What is at a spot. -/
inductive Entry where
  | missing
  | file
  | folder
  deriving DecidableEq, Repr

/-- The files below a working folder, by place. A place occurs once. -/
structure Folder where
  files : List (List String × Contents)
  /-- The places of folders that were made. -/
  made : List (List String) := []

namespace Folder

/-- No files. -/
def empty : Folder := { files := [] }

/-- The contents of the file at a place. -/
def get? (folder : Folder) (place : List String) : Option Contents :=
  (folder.files.find? fun file => file.1 = place).map Prod.snd

/-- Put contents at a place. -/
def put (folder : Folder) (place : List String) (contents : Contents) : Folder :=
  { folder with files := go folder.files }
where
  go : List (List String × Contents) → List (List String × Contents)
    | [] => [(place, contents)]
    | file :: rest => if file.1 = place then (place, contents) :: rest else file :: go rest

/-- **Read after write.** -/
theorem get?_put (folder : Folder) (place : List String) (contents : Contents) :
    (folder.put place contents).get? place = some contents := by
  obtain ⟨files, made⟩ := folder
  unfold put get?
  induction files with
  | nil => simp [put.go]
  | cons file rest ih =>
    by_cases h : file.1 = place
    · simp [put.go, h]
    · simpa [put.go, h] using ih

/-- What is at a spot. -/
def entryAt (folder : Folder) : Spot → Entry
  | .around => .folder
  | .inside place =>
    if (folder.get? place).isSome then .file
    else if place.isEmpty || folder.made.contains place
        || folder.files.any (fun file => place.isPrefixOf file.1) then
      .folder
    else .missing

/-! ### Following names -/

/-- The greatest number of bytes in a part of a name. -/
def partLimit : Nat := 255

/-- The greatest number of bytes in a name. -/
def nameLimit : Nat := 4095

/-- Where a part of a name leads from a folder. -/
def step (name : FileName) (spot : Spot) (part : String) : Except FileError Spot :=
  if partLimit < part.utf8ByteSize then .error (.tooLong name)
  else
    match spot.step? part with
    | some spot => .ok spot
    | none => .error (.missing name)

/-- Follow the parts of a name from a spot. Before every part there has to be a folder. -/
def follow (folder : Folder) (name : FileName) : Spot → List String → Except FileError Spot
  | spot, [] => .ok spot
  | spot, part :: rest =>
    match folder.entryAt spot with
    | .file => .error (.notFolder name)
    | .missing => .error (.missing name)
    | .folder =>
      match step name spot part with
      | .ok spot => follow folder name spot rest
      | .error e => .error e

/-- Make a folder at a spot where nothing is. -/
def makeAt (folder : Folder) (spot : Spot) : Folder :=
  match folder.entryAt spot, spot with
  | .missing, .inside place => { folder with made := place :: folder.made }
  | _, _ => folder

/-- Follow the parts of a name from a spot, and make every folder that is missing. -/
def makeFollowing (name : FileName) :
    Folder → Spot → List String → Folder × Except FileError Spot
  | folder, spot, [] =>
    if folder.entryAt spot = .file then (folder, .error (.occupied name))
    else (folder.makeAt spot, .ok spot)
  | folder, spot, part :: rest =>
    if folder.entryAt spot = .file then (folder, .error (.notFolder name))
    else
      let folder := folder.makeAt spot
      match step name spot part with
      | .ok spot => makeFollowing name folder spot rest
      | .error e => (folder, .error e)

/-- Whether a text holds a null character. -/
def holdsNull (text : String) : Bool :=
  text.toList.contains '\x00'

/-- Why a name cannot be followed at all. -/
def nameFault? (name : FileName) : Option FileError :=
  if holdsNull name.text then some .nullCharacter
  else if nameLimit < name.text.utf8ByteSize then some (.tooLong name)
  else none

/-- Where a name starts. -/
def startOf (name : FileName) : Spot :=
  if name.start = .here then .inside [] else .around

/-- The spot that a name leads to, whether or not there is anything. -/
def walk (folder : Folder) (name : FileName) : Except FileError Spot :=
  match nameFault? name with
  | some e => .error e
  | none => folder.follow name (startOf name) name.parts

/-- Make the folder of the given name, and the ones above it. -/
def makeFolders (folder : Folder) (name : FileName) : Folder × Except FileError Spot :=
  match nameFault? name with
  | some e => (folder, .error e)
  | none => makeFollowing name folder (startOf name) name.parts

/-- What the name stands for. A name that cannot be followed stands for nothing, unless it is too
long to ask. -/
def entry (folder : Folder) (name : FileName) : Except FileError Entry :=
  match folder.walk name with
  | .ok spot => .ok (folder.entryAt spot)
  | .error (.tooLong name) => .error (.tooLong name)
  | .error _ => .ok .missing

/-! ### Reading and writing -/

/-- Read a file as text. -/
def read (folder : Folder) (name : FileName) : Except FileError String :=
  match folder.walk name with
  | .error e => .error e
  | .ok spot =>
    match folder.entryAt spot, spot with
    | .file, .inside place =>
      match folder.get? place with
      | some contents => contents.read.mapError .undecodable
      | none => .error (.missing name)
    | .folder, _ => .error (.isFolder name)
    | _, _ => .error (.missing name)

/-- The place for writing a file. The folder above must be there. -/
def target (folder : Folder) (name : FileName) : Except FileError (List String) :=
  match folder.walk name with
  | .error e => .error e
  | .ok .around => .error (.isFolder name)
  | .ok (.inside place) =>
    if folder.entryAt (.inside place) = .folder then .error (.isFolder name) else .ok place

/-- Whether the name ends in no part of its own. -/
def isBare (name : FileName) : Bool :=
  name.last = "" || name.last = ".."

/-- The place for a file in the folder at a spot. The file is written under its name with `margin` more
bytes. A name without a last part of its own has the given error. -/
def targetIn (folder : Folder) (margin : Nat) (bare : FileError) (name : FileName) (spot : Spot) :
    Except FileError (List String) :=
  if holdsNull name.last then .error .nullCharacter
  else if nameLimit < name.text.utf8ByteSize + margin then .error (.tooLong name)
  else if isBare name then .error bare
  else if partLimit < name.last.utf8ByteSize + margin then .error (.tooLong name)
  else
    match spot.step? name.last with
    | some (.inside place) =>
      if folder.entryAt (.inside place) = .folder then .error (.isFolder name) else .ok place
    | _ => .error (.missing name)

/-- The number of bytes that the name of a file in the making has beyond the name that it is to
take: two points, eight random characters and `.tmp`. -/
def makingMargin : Nat := 14

/-- Write a text over what a file held. -/
def write (folder : Folder) (name : FileName) (text : String) : Folder × Except FileError Unit :=
  match folder.target name with
  | .ok place => (folder.put place (.text text), .ok ())
  | .error e => (folder, .error e)

/-- Make the folders above a file, and write a text at the place that is found there for it. -/
def putDeep (folder : Folder) (margin : Nat) (bare : FileError) (name : FileName) (text : String) :
    Folder × Except FileError Unit :=
  match folder.makeFolders name.above with
  | (folder, .error e) => (folder, .error e)
  | (folder, .ok spot) =>
    match folder.targetIn margin bare name spot with
    | .ok place => (folder.put place (.text text), .ok ())
    | .error e => (folder, .error e)

/-- Write a text over what a file held, and make the folders above it. -/
def writeDeep (folder : Folder) (name : FileName) (text : String) :
    Folder × Except FileError Unit :=
  folder.putDeep 0 (.isFolder name) name text

/-- Put a new file with a text in place of a file, and make the folders above it. -/
def replace (folder : Folder) (name : FileName) (text : String) :
    Folder × Except FileError Unit :=
  folder.putDeep makingMargin (.busy name) name text

/-- Write a text behind what a file holds. -/
def append (folder : Folder) (name : FileName) (text : String) : Folder × Except FileError Unit :=
  match folder.target name with
  | .ok place =>
    let before := (folder.get? place).getD (.text "")
    (folder.put place (before.append text), .ok ())
  | .error e => (folder, .error e)

end Folder

/-! ### Files in any monad -/

/-- Reading and writing files. -/
class Files (m : Type → Type) where
  /-- What a name stands for. -/
  entry : FileName → m (Except FileError Entry)
  /-- Read a file as text, with line ends folded. -/
  read : FileName → m (Except FileError String)
  /-- Write a text over what a file held. The folder above must be there. -/
  write : FileName → String → m (Except FileError Unit)
  /-- Write a text over what a file held, and make the folders above it. -/
  writeDeep : FileName → String → m (Except FileError Unit)
  /-- Put a new file with a text in place of a file, and make the folders above it. -/
  replace : FileName → String → m (Except FileError Unit)
  /-- Write a text behind what a file holds. The folder above must be there. -/
  append : FileName → String → m (Except FileError Unit)

instance : Files (StateM Folder) where
  entry name := fun folder => (folder.entry name, folder)
  read name := fun folder => (folder.read name, folder)
  write name text := fun folder => (folder.write name text).swap
  writeDeep name text := fun folder => (folder.writeDeep name text).swap
  replace name text := fun folder => (folder.replace name text).swap
  append name text := fun folder => (folder.append name text).swap

end Verbatim
