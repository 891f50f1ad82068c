/-!
# File names

Names of files, relative to the working folder or absolute. A name is a row of parts between
slashes; empty parts and single dots say nothing and are dropped. Exactly two slashes in front are
kept apart from one, and more than two count as one.

## Main definitions

* `FileName`, `FileName.ofText`, `FileName.text`: names and their written form
* `FileName.place?`: the place below the working folder that a name stands for, by its parts alone
* `FileName.above`: the folder of a file
-/

namespace Verbatim

/-- Where a name starts. -/
inductive NameStart where
  /-- In the working folder. -/
  | here
  /-- At the top of all folders. -/
  | top
  /-- At the top of all folders, written with two slashes. -/
  | doubleTop
  deriving DecidableEq, Repr

/-- The slashes in front. -/
def NameStart.text : NameStart → String
  | .here => ""
  | .top => "/"
  | .doubleTop => "//"

/-- The name of a file or folder. -/
structure FileName where
  start : NameStart
  parts : List String
  deriving DecidableEq, Repr

namespace FileName

/-- Where the name that a text stands for starts. -/
def startOf (text : String) : NameStart :=
  match (text.toList.takeWhile (· = '/')).length with
  | 0 => .here
  | 2 => .doubleTop
  | _ => .top

/-- The name that a text stands for. -/
def ofText (text : String) : FileName where
  start := startOf text
  parts := (text.splitOn "/").filter fun part => part ≠ "" && part ≠ "."

/-- Whether a text can only stand for a folder: it ends in a slash, or in a single dot of its
own. -/
def asksForFolder (text : String) : Bool :=
  match (text.splitOn "/").getLast? with
  | some part => part = "" || part = "."
  | none => false

/-- The written name. The working folder itself is a single dot. -/
def text (name : FileName) : String :=
  let body := "/".intercalate name.parts
  if name.start = .here && name.parts.isEmpty then "." else name.start.text ++ body

/-- The folder of a file. -/
def above (name : FileName) : FileName :=
  { name with parts := name.parts.dropLast }

/-- The last part of a name, and nothing for the folder in which names start. -/
def last (name : FileName) : String :=
  name.parts.getLast?.getD ""

/-- The parts with every double dot taking back the part before it; `none` if that leads out of the
folder. The last part comes first. -/
def settle : List String → List String → Option (List String)
  | above, [] => some above
  | above, ".." :: rest =>
    match above with
    | [] => none
    | _ :: above => settle above rest
  | above, part :: rest => settle (part :: above) rest

/-- The place below the working folder that the name stands for, if it is there and every part
before a double dot is a folder. -/
def place? (name : FileName) : Option (List String) :=
  if name.start = .here then (settle [] name.parts).map List.reverse else none

/-- The name without double dots, where it stays below the working folder. -/
def settled (name : FileName) : FileName :=
  match name.place? with
  | some parts => ⟨.here, parts⟩
  | none => name

end FileName

end Verbatim
