import Verbatim.Proofs.Command.Setting
import Verbatim.Proofs.ConditionText
import Verbatim.Proofs.Spans
import Verbatim.Proofs.Text.Utf8

/-!
# Rewriting a file in place

A file is decoded, its line ends are folded, and a tree is made of its text. A condition is set from a
text, and the text of the tree is put in place of the file. Of all these steps only one loses
something: folding makes a line feed of a carriage return, with the line feed behind it if there is
one. Everything else comes back. In front of the condition and behind it stands what stood there
before, whatever is written there, and between them is the text of the new condition.

The log may be written into the file that is rewritten. The new file takes its place under another
name first, so the log goes on with the one that is gone, and the new one stays as it is.

## Main definitions

* `Tree.ConditionAt`: where the condition of a node stands in the text of its tree
* `Contents.bytesOf`: the bytes of a file
* `Rewrites`: what is rewritten, and by what

## Main results

* `Tree.emit_of_setConditionText`: **a condition that is set is written where the old one was**
* `rewrites_of_run`: **a file that is rewritten differs in the condition and in its line ends**
* `rewrites_of_run_folded`: a carriage return behind the condition is lost
-/

namespace Verbatim

namespace Tree

variable {label text path expression before own after : String} {settings : Settings} {tree : Tree}
  {p : NodeId} {result : Option Change}

/-! ### The text of the tree -/

/-- In the text of a tree, `before` is in front of the condition of the node at a written path,
`own` is the condition, and `after` is behind it. -/
structure ConditionAt (tree : Tree) (path before own after : String) : Prop where
  leads : ∃ root p c steps, tree.root = some root ∧ Path.read path = .ok steps ∧
    tree.resolve steps = .ok p ∧ tree.condition? p = some c ∧ tree.source c = .ok own ∧
    (tree.view root).around? (steps ++ [.condition]) = some (before, after)

theorem locate_eq_ok : tree.locate path = .ok p ↔
    ∃ steps, Path.read path = .ok steps ∧ tree.resolve steps = .ok p := by
  rw [locate, bind_eq_ok]
  simp only [mapError_eq_ok]

theorem source_of_emit (emitted : tree.emit = .ok text) :
    ∃ root, tree.root = some root ∧ tree.source root = .ok text := by
  cases top : tree.root? with
  | none =>
    rw [emit, top] at emitted
    contradiction
  | some root =>
    rw [emit_of_root top, mapError_eq_ok] at emitted
    exact ⟨root, (root?_eq_some.1 top).1, emitted⟩

/-- The text of the tree of a text is that text. -/
theorem emit_of_ofSource (read : ofSource label settings text = .ok tree) :
    tree.emit = .ok text := by
  obtain ⟨node, root, parsed, -, isRoot, view⟩ := view_of_ofSource read
  obtain ⟨ready, -⟩ := ready_of_ofSource read
  have top := root?_eq_some.2 ⟨isRoot, (ready.sound.root_stored isRoot).1⟩
  have written : node.render = .ok text := render_of_parse parsed
  rw [emit_of_root top, source, view, Node.render_settle (parse_grammatical parsed).complete, written]
  rfl

/-- Where there is a slot for a condition in a tree that has a text, there is a condition. -/
theorem exists_condition_of_source (neat : tree.Neat) {root : NodeId} {steps : Path}
    (written : tree.source root = .ok text)
    (reached : tree.descend root (steps.map PathStep.request) = .ok p)
    (slot : p.kind.hasCondition) : ∃ c, tree.condition? p = some c := by
  have founded := neat.sound.founded root
  have statement := founded.at?_of_descend reached
  obtain ⟨-, whole, -, -, here, -, -⟩ :=
    Node.render_around (neat.regular.shaped founded) statement written
  have present := Node.condition_of_render here ((tree.kind_view p).symm ▸ slot)
  rw [neat.sound.view_eq, Node.condition, Option.isSome_map] at present
  exact Option.isSome_iff_exists.1 present

/-- **A condition that is set from a text is written where the old one was**, and what is in front
of it and behind it stays. -/
theorem emit_of_setConditionText (neat : tree.Neat) (emitted : tree.emit = .ok text)
    (located : tree.locate path = .ok p) (slot : p.kind.hasCondition)
    (worked : (tree.setConditionText p expression).2 = .ok result) :
    ∃ before own after value new, tree.ConditionAt path before own after ∧
      text = before ++ own ++ after ∧ (Fragment.expression expression).parse = .ok value ∧
      value.render = .ok new ∧
      (tree.setConditionText p expression).1.emit = .ok (before ++ new ++ after) := by
  have sound := neat.sound
  obtain ⟨root, isRoot, written⟩ := source_of_emit emitted
  obtain ⟨steps, read, found⟩ := locate_eq_ok.1 located
  have reached := (sound.coherent.resolve_eq isRoot steps).symm.trans found
  have founded := sound.founded root
  have shaped := neat.regular.shaped founded
  have statement := founded.at?_of_descend reached
  obtain ⟨c, condition⟩ := exists_condition_of_source neat written reached slot
  have inside : (tree.view p).condition = some (tree.view c) := by
    rw [sound.view_eq, Node.condition, condition, Option.map_some]
  have reachedToo :
      tree.descend root ((steps ++ [PathStep.condition]).map PathStep.request) = .ok c :=
    descend_concat.2 ⟨p, reached, condition⟩
  obtain ⟨before, own, after, around, ownWritten, split, changed⟩ :=
    Node.render_around shaped (founded.at?_of_descend reachedToo) written
  obtain ⟨value, readToo, -, topToo, view⟩ :=
    sound.view_setConditionText_of_descend isRoot reached worked
  have complete := (parse_grammatical readToo).complete
  obtain ⟨new, rendered⟩ : ∃ new, value.render = .ok new :=
    ⟨_, Node.render_eq_written complete⟩
  refine ⟨before, own, after, value, new, ⟨root, p, c, steps, isRoot, read, found, condition,
    ownWritten, around⟩, split, readToo, rendered, ?_⟩
  have same : (tree.view root).update (·.withCondition (value.settle false)) steps =
      (tree.view root).update (fun _ => value.settle false) (steps ++ [.condition]) := by
    rw [Node.update_append]
    exact Node.update_congr statement (Node.withCondition_eq inside _)
  rw [emit_of_root topToo, source, view, same, changed, Node.render_settle complete, rendered]
  rfl

/-! ### Where a tree is stored -/

variable {other : Tree} {steps : List StepRequest}

theorem cell?_of_cells (cells : other.cells = tree.cells) (p : NodeId) :
    other.cell? p = tree.cell? p := by
  rw [cell?, cell?, cells]

/-- Only the cells matter for where steps lead. -/
theorem descend_of_cells (cells : other.cells = tree.cells) :
    other.descend p steps = tree.descend p steps := by
  induction steps generalizing p with
  | nil => rfl
  | cons step rest ih =>
    have same : other.step? p step = tree.step? p step := by
      unfold step? condition? children
      rw [cell?_of_cells cells]
    rw [descend, descend, same]
    cases tree.step? p step with
    | none => rfl
    | some below => exact ih

theorem ConditionAt.of_cells (h : tree.ConditionAt path before own after)
    (cells : other.cells = tree.cells) (root : other.root = tree.root) :
    other.ConditionAt path before own after := by
  obtain ⟨top, p, c, steps, isRoot, read, found, condition, written, around⟩ := h
  have view := (matches_of_cells cells).view
  refine ⟨top, p, c, steps, root.trans isRoot, read, ?_, ?_, ?_, ?_⟩
  · unfold resolve resolveSteps at found ⊢
    cases isTop : tree.root? with
    | none =>
      rw [isTop] at found
      contradiction
    | some inside =>
      obtain ⟨same, stored⟩ := root?_eq_some.1 isTop
      rw [isTop] at found
      rw [root?_eq_some.2 ⟨root.trans same, (contains_congr (cell?_of_cells cells _)).trans stored⟩]
      exact (descend_of_cells cells).trans found
  · rw [condition?, cell?_of_cells cells]
    exact condition
  · rw [source, view]
    exact written
  · rw [view]
    exact around

/-- Where a tree is stored has nothing to do with what is in it. -/
theorem Neat.stored (neat : tree.Neat) (filePath : Option String) :
    { tree with filePath }.Neat where
  sound := neat.sound.of_cells rfl rfl
  lawful := neat.lawful
  calm := neat.calm
  slotted := neat.slotted

theorem emit_stored (tree : Tree) (filePath : Option String) :
    { tree with filePath }.emit = tree.emit := by
  have alike : tree.Matches { tree with filePath } := matches_of_cells rfl
  simp only [emit, source, alike.view]
  rfl

end Tree

/-! ### What a file holds -/

variable {label : String} {settings : Settings} {words : Words} {folder : Folder}
  {surroundings : Surroundings} {arguments place : List String} {group command : Words}
  {old : Contents}

/-- The bytes of a file. -/
def Contents.bytesOf : Contents → List UInt8
  | .text stored => Text.utf8 stored
  | .bytes stored => stored

/-- A file is read as the text that its bytes stand for, with its line ends folded. -/
theorem Contents.read_eq_ok {contents : Contents} {text : String}
    (given : contents.read = .ok text) :
    ∃ stored, Text.utf8 stored = contents.bytesOf ∧ text = Text.foldLineEnds stored := by
  cases contents with
  | text stored => exact ⟨stored, rfl, (Except.ok.inj given).symm⟩
  | bytes stored =>
    obtain ⟨decoded, same, folded⟩ := map_eq_ok.1 given
    exact ⟨decoded, Text.utf8_of_decodeBytes same, folded.symm⟩

/-- What rewriting a file does to its text. With line ends folded, the text is the condition `own` of
the node at a written path, with `before` in front of it and `after` behind it, and `new` is the text
of the expression that takes the place of `own`. -/
structure Rewrites (path expression : String) (old : Contents) (before own after new : String) :
    Prop where
  source : ∃ stored label settings tree, Text.utf8 stored = old.bytesOf ∧
    Text.foldLineEnds stored = before ++ own ++ after ∧
    Tree.ofSource label settings (before ++ own ++ after) = .ok tree ∧
    tree.ConditionAt path before own after
  value : ∃ value, (Fragment.expression expression).parse = .ok value ∧ value.render = .ok new

/-- Without carriage returns a text stands in its file as it is read. -/
theorem Rewrites.bytes_eq {path expression before own after new : String}
    (rewrites : Rewrites path expression old before own after new) (plain : 13 ∉ old.bytesOf) :
    old.bytesOf = Text.utf8 before ++ Text.utf8 own ++ Text.utf8 after := by
  obtain ⟨stored, -, -, -, same, folded, -⟩ := rewrites.source
  rw [← same] at plain ⊢
  rw [Text.foldLineEnds_eq_self plain] at folded
  rw [folded, Text.utf8_append, Text.utf8_append]

/-- A run that ends well writes the text with the new condition where the file was. -/
theorem rewrites_of_exit (inPlace : words.has "--in-place")
    (found : (fileArgument words).place? = some place) (held : folder.get? place = some old)
    (worked :
      ((runSetCondition label settings words : StateM Folder _) folder).1.outcome.exit = 0) :
    ∃ before own after new,
      Rewrites ((words.value? "--path").getD "") ((words.value? "--expr").getD "") old
        before own after new ∧
      ((runSetCondition label settings words : StateM Folder _) folder).2.get? place =
        some (.text (before ++ new ++ after)) ∧
      ((runSetCondition label settings words : StateM Folder _) folder).1.replaced =
        some ⟨.here, place⟩ := by
  have level := FileName.notMem_of_place? found
  have plain : FileName.Plain (fileArgument words).parts := FileName.plain_ofText _
  have placed : FileName.ofText (FileName.text ⟨.here, place⟩) = ⟨.here, place⟩ :=
    FileName.ofText_text rfl (FileName.plain_of_place? plain found)
  have named : FileName.ofText (fileArgument words).text = fileArgument words :=
    FileName.ofText_text (FileName.place?_eq_some.1 found).1 plain
  obtain ⟨loaded, p, result, path, new, later, loads, located, slot, edits, known, emitted,
    replaced, marked⟩ := runSetCondition_of_exit inPlace worked
  obtain ⟨text, tree, given, read, same⟩ := Tree.loadFile_eq_ok loads
  rw [named] at given same
  obtain ⟨contents, here, given⟩ := Folder.get?_of_read found given
  obtain rfl := Option.some.inj (held.symm.trans here)
  obtain ⟨stored, bytes, folded⟩ := Contents.read_eq_ok given
  have neat : loaded.Neat := same ▸ (Tree.ready_of_ofSource read).1.neat.stored _
  have emits : loaded.emit = .ok text := by
    rw [same, Tree.emit_stored, Tree.emit_of_ofSource read]
  obtain ⟨before, own, after, value, written, condition, split, parsed, rendered, changed⟩ :=
    Tree.emit_of_setConditionText neat emits located slot edits
  obtain rfl := Except.ok.inj (emitted.symm.trans changed)
  have kept : path = (fileArgument words).settled.text := by
    obtain ⟨cells, frame⟩ :=
      Edit.frame neat.sound (.setConditionText p ((words.value? "--expr").getD ""))
    refine Option.some.inj (known.symm.trans ((congrArg Tree.filePath frame).trans ?_))
    rw [same]
  rw [kept, FileName.settled_of_place? found, placed] at replaced marked
  exact ⟨before, own, after, written,
    ⟨⟨stored, label, settings, tree, bytes, folded.symm.trans split, split ▸ read,
      condition.of_cells (congrArg Tree.cells same).symm (congrArg Tree.root same).symm⟩,
      value, parsed, rendered⟩,
    Folder.get?_of_replace level replaced, marked⟩

/-! ### A loop -/

/-- A folder with one file. -/
def loopFolder (stored : String) : Folder where
  files := [(["a.bal"], .text stored)]

/-- The words that set the condition of the first statement. -/
def loopArguments : List String :=
  ["tree", "set-condition", "a.bal", "--path", "0", "--expr", "y", "--in-place"]

/-- The words of the command, taken apart. -/
def loopWords : Words where
  options := [("--path", some "0"), ("--expr", some "y"), ("--in-place", none)]
  plain := ["a.bal"]

section Loop

variable {stored : String}

theorem sets_loop : SetsInPlace loopArguments { plain := loopArguments.drop 1 } loopWords where
  words := ⟨loopArguments.drop 1, loopArguments.drop 2, by cbv, by decide +kernel, rfl,
    by cbv⟩
  helpless := by cbv
  inPlace := by cbv

theorem fileArgument_loop : fileArgument loopWords = ⟨.here, ["a.bal"]⟩ := by
  unfold fileArgument FileName.ofText
  rw [Text.splitOn_slash]
  cbv

theorem value?_loop :
    loopWords.value? "--path" = some "0" ∧ loopWords.value? "--expr" = some "y" := by
  cbv

/-- There is nothing to object to the words. -/
theorem clear_loop : firstProblem? (setConditionCommand.options.map (optionProblem? loopWords) ++
      [argumentProblem? setConditionCommand.argument loopWords.plain] : List (StateM Folder _))
        (loopFolder stored) = (none, loopFolder stored) := by
  obtain ⟨path, expression⟩ := value?_loop
  have name : FileName.ofText "a.bal" = ⟨.here, ["a.bal"]⟩ := fileArgument_loop
  have bare : FileName.asksForFolder "a.bal" = false := by
    unfold FileName.asksForFolder
    rw [Text.splitOn_slash]
    cbv
  simp only [setConditionCommand, List.map, optionProblem?, path, expression, argumentProblem?,
    valueProblem?]
  simp only [loopWords, valueProblem?.found, name, bare]
  rfl

theorem starts_loop : (Log.start ({} : Settings).logLevel.name none : StateM Folder _)
    (loopFolder stored) = (.ok ⟨30, none⟩, loopFolder stored) := by
  have level : levelOfName? (Text.upper ({} : Settings).logLevel.name) = some 30 := by
    cbv
  unfold Log.start
  dsimp only
  rw [level]
  rfl

/-- The condition is set in the tree of the text. -/
theorem edit_loop : ∃ tree loaded p result, Tree.ofSource "t" {} "while(x){}\n" = .ok tree ∧
    loaded = { tree with filePath := some "a.bal" } ∧ loaded.locate "0" = .ok p ∧
      p.kind.hasCondition ∧ (loaded.setConditionText p "y").2 = .ok result ∧
      (loaded.setConditionText p "y").1.filePath = some "a.bal" ∧
      (loaded.setConditionText p "y").1.savedText = .ok "while(y){}\n" := by
  let node : Node := .mk .compilationUnit [] none
    [.mk .whileLoop [] (some (.mk .reference [("variable_name", .text "x")] none [] [(0, "")])) []
      [(0, ""), (1, ""), (2, ""), (3, ""), (4, "\n")]] [(0, "")]
  let p : NodeId := ⟨.whileLoop, 2⟩
  obtain ⟨tree, made⟩ : ∃ tree, tree = { ((Tree.empty "t" {}).plant node).1 with
    root := some ((Tree.empty "t" {}).plant node).2 } := ⟨_, rfl⟩
  obtain ⟨loaded, given⟩ : ∃ loaded, loaded = { tree with filePath := some "a.bal" } := ⟨_, rfl⟩
  have read : Tree.ofSource "t" {} "while(x){}\n" = .ok tree := by
    rw [made]
    cbv
  have located : loaded.locate "0" = .ok p := by
    have leads : loaded.resolve [.index 0] = .ok p := by
      rw [given, made]
      cbv
    have written : Path.text [.index 0] = "0" := by cbv
    refine Tree.locate_eq_ok.2 ⟨[.index 0], written ▸ Path.read_text.2 fun step member => ?_, leads⟩
    obtain rfl := List.mem_singleton.1 member
    exact Nat.pow_pos (by decide)
  obtain ⟨result, edits⟩ : ∃ result, (loaded.setConditionText p "y").2 = .ok result := by
    rw [given, made]
    exact ⟨_, by cbv⟩
  refine ⟨tree, loaded, p, result, read, given, located, rfl, edits, ?_, ?_⟩ <;> rw [given, made]
  · cbv
  · cbv

/-- The command sets the condition. -/
theorem runSetCondition_loop (folded : Text.foldLineEnds stored = "while(x){}\n") :
    ∃ report, (runSetCondition "t" {} loopWords : StateM Folder _) (loopFolder stored) =
      (report, loopFolder "while(y){}\n") ∧ report.outcome.exit = 0 := by
  obtain ⟨tree, loaded, p, result, read, given, located, slot, edits, known, saved⟩ := edit_loop
  obtain ⟨path, expression⟩ := value?_loop
  have name : FileName.ofText "a.bal" = ⟨.here, ["a.bal"]⟩ := fileArgument_loop
  have loads : (Tree.loadFile "t" {} (fileArgument loopWords).text : StateM Folder _)
      (loopFolder stored) = (.ok loaded, loopFolder stored) := by
    have there : (loopFolder stored).entry (.ofText "a.bal") = .ok .file := by
      rw [name]
      rfl
    have text : (loopFolder stored).read (.ofText "a.bal") = .ok "while(x){}\n" := by
      rw [name, ← folded]
      rfl
    rw [fileArgument_loop]
    refine (Tree.loadFile_of_read there text read).trans ?_
    rw [given, name]
    rfl
  have replaced : (loopFolder stored).replace (.ofText "a.bal") "while(y){}\n" =
      (loopFolder "while(y){}\n", .ok ()) := by
    rw [name]
    rfl
  exact runSetCondition_of_saved sets_loop.inPlace path expression loads located slot edits
    (Tree.saveFile_of_replace known saved replaced)

/-- So does the program. -/
theorem run_loop (folded : Text.foldLineEnds stored = "while(x){}\n") :
    ((run ⟨"t", ""⟩ loopArguments : StateM Folder Outcome) (loopFolder stored)).1.exit = 0 ∧
      ((run ⟨"t", ""⟩ loopArguments : StateM Folder Outcome) (loopFolder stored)).2.get? ["a.bal"] =
        some (.text "while(y){}\n") := by
  obtain ⟨rest, behind, program, tree, names, scanned⟩ := sets_loop.words
  obtain ⟨groupHelpless, commandHelpless⟩ := sets_loop.helpless
  obtain ⟨report, ends, exit⟩ := runSetCondition_loop folded
  rw [run_tree program, runGroup_of_clear tree groupHelpless names rfl rfl,
    runTree_of_started rfl starts_loop, runCommand_of_clear scanned commandHelpless clear_loop,
    bind_apply, ends, exit_conclude]
  exact ⟨exit, keeps_conclude (fun name file => absurd file (Option.not_mem_none name)) _ _ rfl⟩

end Loop

/-! ### The bytes of the file -/

/-- **A file in which a condition is set in place differs in the condition and in its line ends.** The
new file holds the text of the old one, with the new condition in place of the old one; without
carriage returns the bytes of the old one are those of its text. -/
theorem rewrites_of_run (asked : SetsInPlace arguments group command)
    (found : (fileArgument command).place? = some place) (held : folder.get? place = some old)
    (worked : ((run surroundings arguments : StateM Folder Outcome) folder).1.exit = 0) :
    ∃ before own after new later,
      Rewrites ((command.value? "--path").getD "") ((command.value? "--expr").getD "") old
        before own after new ∧
      ((run surroundings arguments : StateM Folder Outcome) folder).2.get? place = some later ∧
      later.bytesOf = Text.utf8 before ++ Text.utf8 new ++ Text.utf8 after ∧
      (13 ∉ old.bytesOf → old.bytesOf = Text.utf8 before ++ Text.utf8 own ++ Text.utf8 after) := by
  obtain ⟨settings, log, middle, settled, held, same⟩ := run_of_exit asked worked held
  rw [same] at worked ⊢
  rw [bind_apply] at worked ⊢
  rw [exit_conclude] at worked
  obtain ⟨before, own, after, new, rewrites, written, marked⟩ :=
    rewrites_of_exit asked.inPlace found held worked
  refine ⟨before, own, after, new, .text (before ++ new ++ after), rewrites, ?_, ?_, rewrites.bytes_eq⟩
  · -- Where the file of the log was replaced, the log is written into the old one.
    refine keeps_conclude (fun name file inside => ?_) _ _ written
    obtain ⟨given, rfl⟩ := settled name file
    have level := FileName.notMem_of_place? found
    rw [file, marked, Option.map_some, FileName.settled_eq_of_place? inside,
      FileName.settled_of_place? (FileName.place?_of_notMem level)]
  · rw [Contents.bytesOf, Text.utf8_append, Text.utf8_append]

/-- In a file with a loop. -/
theorem rewrites_of_run_loop :
    SetsInPlace loopArguments { plain := loopArguments.drop 1 } loopWords ∧
      (fileArgument loopWords).place? = some ["a.bal"] ∧
      (loopFolder "while(x){}\n").get? ["a.bal"] = some (.text "while(x){}\n") ∧
      ((run ⟨"t", ""⟩ loopArguments : StateM Folder Outcome) (loopFolder "while(x){}\n")).1.exit = 0 ∧
      ∃ before own after new later, Rewrites "0" "y" (.text "while(x){}\n") before own after new ∧
        ((run ⟨"t", ""⟩ loopArguments : StateM Folder Outcome) (loopFolder "while(x){}\n")).2.get?
          ["a.bal"] = some later ∧
        later.bytesOf = Text.utf8 before ++ Text.utf8 new ++ Text.utf8 after ∧
        Text.utf8 "while(x){}\n" = Text.utf8 before ++ Text.utf8 own ++ Text.utf8 after := by
  have place : (fileArgument loopWords).place? = some ["a.bal"] := by
    rw [fileArgument_loop]
    rfl
  have plain : 13 ∉ Text.utf8 "while(x){}\n" := by
    rw [Text.utf8_eq_flatMap]
    decide
  have folded : Text.foldLineEnds "while(x){}\n" = "while(x){}\n" := by rfl
  obtain ⟨exit, -⟩ := run_loop folded
  obtain ⟨before, own, after, new, later, rewrites, written, bytes, same⟩ :=
    rewrites_of_run sets_loop place rfl exit
  obtain ⟨path, expression⟩ := value?_loop
  rw [path, expression] at rewrites
  exact ⟨sets_loop, place, rfl, exit, before, own, after, new, later, rewrites, written, bytes,
    same plain⟩

/-- Behind the condition, a carriage return at the end of a line is gone. -/
theorem rewrites_of_run_folded :
    SetsInPlace loopArguments { plain := loopArguments.drop 1 } loopWords ∧
      (loopFolder "while(x){}\r\n").get? ["a.bal"] = some (.text "while(x){}\r\n") ∧
      ((run ⟨"t", ""⟩ loopArguments : StateM Folder Outcome) (loopFolder "while(x){}\r\n")).1.exit = 0 ∧
      ((run ⟨"t", ""⟩ loopArguments : StateM Folder Outcome) (loopFolder "while(x){}\r\n")).2.get?
        ["a.bal"] = some (.text "while(y){}\n") ∧
      ¬ ∃ before after, Text.utf8 "while(x){}\r\n" = before ++ Text.utf8 "x" ++ after ∧
        Text.utf8 "while(y){}\n" = before ++ Text.utf8 "y" ++ after := by
  have folded : Text.foldLineEnds "while(x){}\r\n" = "while(x){}\n" := by rfl
  obtain ⟨exit, written⟩ := run_loop folded
  refine ⟨sets_loop, rfl, exit, written, fun ⟨before, after, old, new⟩ => ?_⟩
  have lengths : (Text.utf8 "while(x){}\r\n").length = (Text.utf8 "while(y){}\n").length + 1 ∧
      (Text.utf8 "x").length = (Text.utf8 "y").length := by
    simp only [Text.utf8_eq_flatMap]
    cbv
  have first := congrArg List.length old
  have second := congrArg List.length new
  simp only [List.length_append] at first second
  omega

end Verbatim