import Verbatim.Storage.Folder
import Verbatim.Tree.Build

/-!
# Trees and their source

Between texts, files and trees: a text becomes a tree, a tree becomes a text, and both can be in a
file. A tree is only saved if its text can be read again.

## Main definitions

* `Tree.ofSource`, `Tree.emit`: the tree of a text, and the text of a tree
* `Tree.renderRaw`: the text of a raw tree
* `Tree.loadFile`, `Tree.saveFile`: the same with files
-/

namespace Verbatim

/-- Why a text does not become a tree. -/
inductive SourceError where
  | parse (error : ParseError)
  | build (failure : BuildFailure)

/-- The text of the error. -/
def SourceError.message : SourceError → String
  | .parse error => error.message
  | .build failure => failure.error.message

/-- Why a tree has no text. -/
inductive EmitError where
  | noRoot (label : String)
  | render (error : RenderError)

/-- The text of the error. -/
def EmitError.message : EmitError → String
  | .noRoot label => s!"Tree {label} has no root"
  | .render error => error.message

/-- Why a raw tree has no text. -/
inductive RawTextError where
  | build (failure : BuildFailure)
  | render (error : RenderError)

/-- The text of the error. -/
def RawTextError.message : RawTextError → String
  | .build failure => failure.error.message
  | .render error => error.message

/-- Why a file does not become a tree. -/
inductive LoadError where
  | missing (path : String)
  | file (error : FileError)
  | source (error : SourceError)

/-- The text of the error. -/
def LoadError.message : LoadError → String
  | .missing path => s!"File not found: {path}"
  | .file error => error.message
  | .source error => error.message

/-- Why a tree is not saved. -/
inductive SaveError where
  /-- It is not known where to. -/
  | noPath (label : String)
  | emit (error : EmitError)
  /-- The text of the tree cannot be read again. -/
  | parse (error : ParseError)
  | file (error : FileError)

/-- The text of the error. -/
def SaveError.message : SaveError → String
  | .noPath label => s!"No file path for tree {label}"
  | .emit error => error.message
  | .parse error => error.message
  | .file error => error.message

namespace Tree

/-- The tree of a text. -/
def ofSource (label : String) (settings : Settings) (text : String) : Except SourceError Tree := do
  let node ← (parseUnit text).mapError .parse
  (ofRaw label settings node.toRaw).mapError .build

/-- The text of a node and everything below it. -/
def source (tree : Tree) (id : NodeId) : Except RenderError String :=
  (tree.view id).render

/-- The text of a tree. -/
def emit (tree : Tree) : Except EmitError String :=
  match tree.root? with
  | some root => (tree.source root).mapError .render
  | none => .error (.noRoot tree.label)

/-- The text of a raw tree, which must not be nested too deep. -/
def renderRaw (label : String) (settings : Settings) (raw : Json) : Except RawTextError String := do
  (checkDepth settings.maxDepth raw).mapError .build
  let (tree, built) := (empty label settings).build raw
  let id ← built.mapError .build
  (tree.source id).mapError .render

/-- The tree of the text in a file. -/
def loadFile {m : Type → Type} [Monad m] [Files m] (label : String) (settings : Settings)
    (path : String) : m (Except LoadError Tree) := do
  let name := FileName.ofText path
  match ← Files.entry name with
  | .error e => return .error (.file e)
  | .ok .missing => return .error (.missing path)
  | .ok _ =>
    match ← Files.read name with
    | .error e => return .error (.file e)
    | .ok text =>
      match ofSource label settings text with
      | .error e => return .error (.source e)
      | .ok tree => return .ok { tree with filePath := some name.settled.text }

/-- Where a tree is saved: at the given path, else where it came from or was saved last. -/
def savePath? (tree : Tree) : Option String → Option String
  | none | some "" => tree.filePath
  | some path => some path

/-- The text of a tree, if it can be read again. -/
def savedText (tree : Tree) : Except SaveError String := do
  let text ← tree.emit.mapError .emit
  let _ ← (parseUnit text).mapError .parse
  return text

/-- Save a tree, and give the name of the file. -/
def saveFile {m : Type → Type} [Monad m] [Files m] (tree : Tree) (path : Option String) :
    m (Tree × Except SaveError FileName) := do
  match tree.savePath? path with
  | none => return (tree, .error (.noPath tree.label))
  | some path =>
    match tree.savedText with
    | .error e => return (tree, .error e)
    | .ok text =>
      let name := FileName.ofText path
      match ← Files.replace name text with
      | .error e => return (tree, .error (.file e))
      | .ok () => return ({ tree with filePath := some name.settled.text }, .ok name)

end Tree

end Verbatim
