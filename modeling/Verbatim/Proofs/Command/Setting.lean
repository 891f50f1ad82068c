import Verbatim.Proofs.Command.Keeping

/-!
# Setting conditions in files

The command that sets a condition loads a tree from the text of a file, sets the condition of the
node at a path, and puts the new text in place of the file. Each step of a run that ends well is told
by what it reads and what it leaves, from the loading of the tree up to the whole program.

## Main definitions

* `SetsInPlace`: a command line that asks for a condition to be set in place

## Main results

* `Tree.loadFile_eq_ok`, `Tree.saveFile_eq_ok`: trees and their files
* `runSetCondition_of_exit`: what a run that ends well has done
* `runSetCondition_of_saved`: runs that end well
* `run_of_exit`: the program does that in a folder where the file is as it was, and then writes its
  log
-/

namespace Verbatim

namespace Tree

/-! ### Loading and saving -/

variable {label text path : String} {settings : Settings} {tree : Tree} {folder : Folder}

theorem loadFile_of_read (there : folder.entry (.ofText path) = .ok .file)
    (given : folder.read (.ofText path) = .ok text) (read : ofSource label settings text = .ok tree) :
    (loadFile label settings path : StateM Folder _) folder =
      (.ok { tree with filePath := some (FileName.ofText path).settled.text }, folder) := by
  unfold loadFile
  rw [bind_apply, entry_apply, there]
  dsimp only
  rw [bind_apply, read_apply, given]
  dsimp only
  rw [read]
  rfl

/-- A tree is loaded from the text of its file, and knows where that is. -/
theorem loadFile_eq_ok {loaded : Tree}
    (worked : ((loadFile label settings path : StateM Folder _) folder).1 = .ok loaded) :
    ∃ text tree, folder.read (.ofText path) = .ok text ∧ ofSource label settings text = .ok tree ∧
      loaded = { tree with filePath := some (FileName.ofText path).settled.text } := by
  unfold loadFile at worked
  rw [bind_apply, entry_apply] at worked
  cases asked : folder.entry (.ofText path) with
  | error e =>
    rw [asked] at worked
    exact nomatch worked
  | ok entry =>
    rw [asked] at worked
    cases entry with
    | missing => exact nomatch worked
    | file | folder =>
      dsimp only at worked
      rw [bind_apply, read_apply] at worked
      cases given : folder.read (.ofText path) with
      | error e =>
        rw [given] at worked
        exact nomatch worked
      | ok text =>
        rw [given] at worked
        dsimp only at worked
        cases read : ofSource label settings text with
        | error e =>
          rw [read] at worked
          exact nomatch worked
        | ok tree =>
          rw [read] at worked
          exact ⟨text, tree, rfl, read, (Except.ok.inj worked).symm⟩

theorem saveFile_of_replace {later : Folder} (known : tree.filePath = some path)
    (saved : tree.savedText = .ok text)
    (replaced : folder.replace (.ofText path) text = (later, .ok ())) :
    (tree.saveFile none : StateM Folder _) folder =
      (({ tree with filePath := some (FileName.ofText path).settled.text }, .ok (.ofText path)),
        later) := by
  unfold saveFile
  rw [savePath?, known]
  dsimp only
  rw [saved]
  dsimp only
  rw [bind_apply, replace_apply, replaced]
  rfl

/-- A tree is saved where it came from. -/
theorem saveFile_eq_ok {saved : FileName}
    (worked : ((tree.saveFile none : StateM Folder _) folder).1.2 = .ok saved) :
    ∃ path new, tree.filePath = some path ∧ tree.emit = .ok new ∧ saved = FileName.ofText path ∧
      folder.replace saved new = (((tree.saveFile none : StateM Folder _) folder).2, .ok ()) := by
  unfold saveFile at worked ⊢
  cases known : tree.savePath? none with
  | none =>
    rw [known] at worked
    exact nomatch worked
  | some path =>
    rw [known] at worked
    dsimp only at worked ⊢
    cases whole : tree.savedText with
    | error e =>
      rw [whole] at worked
      exact nomatch worked
    | ok new =>
      obtain ⟨text, emitted, again⟩ := bind_eq_ok.1 whole
      obtain ⟨parsed, -, same⟩ := bind_eq_ok.1 again
      obtain rfl : text = new := Except.ok.inj same
      rw [whole] at worked
      dsimp only at worked ⊢
      rw [bind_apply, replace_apply] at worked ⊢
      cases replaced : folder.replace (.ofText path) text with
      | mk later result =>
        rw [replaced] at worked
        dsimp only [Prod.swap] at worked ⊢
        cases result with
        | error e => exact nomatch worked
        | ok done =>
          obtain rfl := Except.ok.inj worked
          exact ⟨path, text, known, mapError_eq_ok.1 emitted, rfl, replaced⟩

end Tree

/-! ### The command -/

variable {label : String} {settings : Settings} {words : Words} {tree : Tree} {name : FileName}
  {folder : Folder}

theorem finishEdit_of_saved {saved : FileName} {last : Tree} {later : Folder}
    (saves : (tree.saveFile none : StateM Folder _) folder = ((last, .ok saved), later)) :
    ∃ report, (finishEdit label name tree true : StateM Folder _) folder = (report, later) ∧
      report.outcome.exit = 0 := by
  unfold finishEdit
  rw [if_pos rfl, bind_apply, saves]
  exact ⟨_, rfl, rfl⟩

/-- A run that rewrote a file saved the tree. -/
theorem finishEdit_of_exit
    (worked : ((finishEdit label name tree true : StateM Folder _) folder).1.outcome.exit = 0) :
    ∃ path new, tree.filePath = some path ∧ tree.emit = .ok new ∧
      folder.replace (.ofText path) new =
        (((finishEdit label name tree true : StateM Folder _) folder).2, .ok ()) ∧
      ((finishEdit label name tree true : StateM Folder _) folder).1.replaced =
        some (.ofText path) := by
  unfold finishEdit at worked ⊢
  rw [if_pos rfl] at worked ⊢
  rw [bind_apply] at worked ⊢
  cases saves : (tree.saveFile none : StateM Folder _) folder with
  | mk result later =>
    obtain ⟨saved, result⟩ := result
    rw [saves] at worked
    dsimp only at worked ⊢
    cases result with
    | error e => cases e <;> exact absurd worked (Nat.succ_ne_zero 0)
    | ok done =>
      obtain ⟨path, new, known, emitted, rfl, replaced⟩ :=
        Tree.saveFile_eq_ok (congrArg (fun result => result.1.2) saves)
      rw [saves] at replaced
      exact ⟨path, new, known, emitted, replaced, rfl⟩

/-- A run that loads a tree, sets a condition and saves the tree ends well. -/
theorem runSetCondition_of_saved {path expression : String} {p : NodeId} {result : Option Change}
    {last : Tree} {saved : FileName} {middle later : Folder} (inPlace : words.has "--in-place")
    (place : words.value? "--path" = some path) (value : words.value? "--expr" = some expression)
    (loads : (Tree.loadFile label settings (fileArgument words).text : StateM Folder _) folder =
      (.ok tree, middle))
    (located : tree.locate path = .ok p) (slot : p.kind.hasCondition)
    (edits : (tree.setConditionText p expression).2 = .ok result)
    (saves : ((tree.setConditionText p expression).1.saveFile none : StateM Folder _) middle =
      ((last, .ok saved), later)) :
    ∃ report, (runSetCondition label settings words : StateM Folder _) folder = (report, later) ∧
      report.outcome.exit = 0 := by
  unfold runSetCondition
  rw [bind_apply, loads, place, value]
  dsimp only [Option.getD_some]
  rw [located]
  dsimp only
  rw [if_pos slot]
  cases sets : tree.setConditionText p expression with
  | mk edited outcome =>
    rw [sets] at edits saves
    dsimp only at edits saves ⊢
    obtain ⟨report, finishes, ends⟩ := finishEdit_of_saved saves
    rw [edits]
    dsimp only
    rw [inPlace, bind_apply, finishes]
    exact ⟨_, rfl, ends⟩

/-- A run that rewrote a file loaded a tree, set a condition, and saved the tree. -/
theorem runSetCondition_of_exit (inPlace : words.has "--in-place")
    (worked :
      ((runSetCondition label settings words : StateM Folder _) folder).1.outcome.exit = 0) :
    ∃ (tree : Tree) (p : NodeId) (result : Option Change) (path new : String) (later : Folder),
      ((Tree.loadFile label settings (fileArgument words).text : StateM Folder _) folder).1 =
        .ok tree ∧
      tree.locate ((words.value? "--path").getD "") = .ok p ∧ p.kind.hasCondition ∧
      (tree.setConditionText p ((words.value? "--expr").getD "")).2 = .ok result ∧
      (tree.setConditionText p ((words.value? "--expr").getD "")).1.filePath = some path ∧
      (tree.setConditionText p ((words.value? "--expr").getD "")).1.emit = .ok new ∧
      later.replace (.ofText path) new =
        (((runSetCondition label settings words : StateM Folder _) folder).2, .ok ()) ∧
      ((runSetCondition label settings words : StateM Folder _) folder).1.replaced =
        some (.ofText path) := by
  unfold runSetCondition at worked ⊢
  dsimp only at worked ⊢
  rw [bind_apply] at worked ⊢
  cases loads :
      (Tree.loadFile label settings (fileArgument words).text : StateM Folder _) folder with
  | mk loaded middle =>
    rw [loads] at worked
    dsimp only at worked ⊢
    cases loaded with
    | error e =>
      rcases e with missing | e | e
      · exact absurd worked (Nat.succ_ne_zero 0)
      · cases e <;> exact absurd worked (Nat.succ_ne_zero 0)
      · exact absurd worked (Nat.succ_ne_zero 0)
    | ok tree =>
      dsimp only at worked ⊢
      cases located : tree.locate ((words.value? "--path").getD "") with
      | error e =>
        rw [located] at worked
        exact absurd worked (Nat.succ_ne_zero 0)
      | ok p =>
        rw [located] at worked
        dsimp only at worked ⊢
        split at worked
        · next slot =>
          rw [if_pos slot]
          cases sets : tree.setConditionText p ((words.value? "--expr").getD "") with
          | mk edited result =>
            rw [sets] at worked
            dsimp only at worked ⊢
            cases result with
            | error e => exact absurd worked (Nat.succ_ne_zero 0)
            | ok result =>
              dsimp only at worked ⊢
              rw [inPlace] at worked ⊢
              rw [bind_apply] at worked ⊢
              obtain ⟨path, new, known, emitted, replaced, marked⟩ := finishEdit_of_exit worked
              refine ⟨tree, p, result, path, new, middle, rfl, located, slot, ?_, ?_, ?_, replaced,
                marked⟩ <;> rw [sets]
              exacts [known, emitted]
        · exact absurd worked (Nat.succ_ne_zero 0)

/-! ### The program -/

variable {surroundings : Surroundings} {arguments place : List String} {group command : Words}
  {old : Contents}

/-- The command line asks for a condition to be set in place. The words of the group of commands and
those of the command make sense, and no help page is asked for. -/
structure SetsInPlace (arguments : List String) (group command : Words) : Prop where
  words : ∃ rest behind,
    Words.scan [versionOption, helpOption] false arguments = .ok { plain := "tree" :: rest } ∧
    Words.scan (treeGroup.options ++ [helpOption]) false rest = .ok group ∧
    group.plain = setConditionCommand.name :: behind ∧
    Words.scan (setConditionCommand.options ++ [helpOption]) true behind = .ok command
  helpless : group.has helpOption.name = false ∧ command.has helpOption.name = false
  inPlace : command.has "--in-place"

/-- With settings and a log, a run on trees is the command and then the log. -/
theorem runTree_of_started {behind : List String} {log : Log} {middle later : Folder}
    (loads : (treeSettings group : StateM Folder _) folder = (.ok settings, middle))
    (starts : (Log.start settings.logLevel.name settings.logFile : StateM Folder _) middle =
      (.ok log, later)) :
    (runTree surroundings group setConditionCommand behind : StateM Folder Outcome) folder =
      (runCommand treeGroup setConditionCommand behind fun words =>
        runSetCondition surroundings.label settings words >>= conclude surroundings log :
          StateM Folder Outcome) later := by
  unfold runTree
  rw [bind_apply, loads]
  dsimp only
  rw [bind_apply, starts]
  rfl

/-- A run on trees that ends well has settings and a log, and runs its command. -/
theorem runTree_of_exit {behind : List String}
    (scanned : Words.scan (setConditionCommand.options ++ [helpOption]) true behind = .ok command)
    (helpless : command.has helpOption.name = false)
    (worked : ((runTree surroundings group setConditionCommand behind : StateM Folder Outcome)
      folder).1.exit = 0)
    (held : folder.get? place = some old) :
    ∃ (settings : Settings) (log : Log) (later : Folder),
      (∀ name ∈ log.file, ∃ given : FileName, name = given.settled) ∧
      later.get? place = some old ∧
      (runTree surroundings group setConditionCommand behind : StateM Folder Outcome) folder =
        (runSetCondition surroundings.label settings command >>= conclude surroundings log :
          StateM Folder Outcome) later := by
  have held := keeps_treeSettings group folder old held
  have fails := exit_of_treeSettings group folder
  cases loads : (treeSettings group : StateM Folder _) folder with
  | mk loaded middle =>
    rw [loads] at held fails
    cases loaded with
    | error outcome =>
      unfold runTree at worked
      rw [bind_apply, loads] at worked
      exact absurd (fails outcome rfl) (worked ▸ Nat.zero_ne_one)
    | ok settings =>
      have held := keeps_start settings.logLevel.name settings.logFile middle old held
      have settled := file_of_start settings.logLevel.name settings.logFile middle
      cases starts : (Log.start settings.logLevel.name settings.logFile : StateM Folder _) middle with
      | mk started later =>
        rw [starts] at held settled
        cases started with
        | error e =>
          unfold runTree at worked
          rw [bind_apply, loads] at worked
          dsimp only at worked
          rw [bind_apply, starts] at worked
          cases e <;> exact absurd worked (Nat.succ_ne_zero 0)
        | ok log =>
          rw [runTree_of_started loads starts] at worked ⊢
          obtain ⟨later, same, held⟩ := runCommand_of_exit scanned helpless worked held
          exact ⟨settings, log, later, settled log rfl, held, same⟩

theorem run_tree {rest : List String}
    (program :
      Words.scan [versionOption, helpOption] false arguments = .ok { plain := "tree" :: rest }) :
    (run surroundings arguments : StateM Folder Outcome) =
      runGroup treeGroup rest (runTree surroundings) := by
  unfold run
  cases arguments with
  | nil => exact nomatch program
  | cons first others =>
    rw [program]
    rfl

/-- A run of the program that sets a condition in place and ends well does so in a folder where the
file is as it was, and then writes its log. -/
theorem run_of_exit (asked : SetsInPlace arguments group command)
    (worked : ((run surroundings arguments : StateM Folder Outcome) folder).1.exit = 0)
    (held : folder.get? place = some old) :
    ∃ (settings : Settings) (log : Log) (later : Folder),
      (∀ name ∈ log.file, ∃ given : FileName, name = given.settled) ∧
      later.get? place = some old ∧
      (run surroundings arguments : StateM Folder Outcome) folder =
        (runSetCondition surroundings.label settings command >>= conclude surroundings log :
          StateM Folder Outcome) later := by
  obtain ⟨rest, behind, program, tree, names, scanned⟩ := asked.words
  obtain ⟨groupHelpless, commandHelpless⟩ := asked.helpless
  rw [run_tree program] at worked ⊢
  obtain ⟨middle, again, held⟩ := runGroup_of_exit tree groupHelpless names rfl worked held
  rw [again] at worked ⊢
  exact runTree_of_exit scanned commandHelpless worked held

end Verbatim
