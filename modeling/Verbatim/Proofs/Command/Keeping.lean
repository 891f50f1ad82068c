import Verbatim.Command.Run
import Verbatim.Proofs.Storage.Names

/-!
# What commands leave alone

A run looks at files before it does anything: it reads settings, and it checks the values of options
and arguments. The log is written behind what its file holds. So a file that is not the log's stays
as it is, until a command is asked to write it.

## Main definitions

* `Keeps`: a file is as it was

## Main results

* `keeps_firstProblem?`, `keeps_treeSettings`: checks and settings are read only
* `keeps_start`, `keeps_conclude`: what a log leaves alone
* `runCommand_of_exit`, `runGroup_of_exit`: runs without usage errors and help pages
-/

namespace Verbatim

variable {α β : Type} {place : List String} {name : FileName}

/-! ### Actions -/

/-- If there is a file at the place, it stays there as it is. -/
def Keeps (place : List String) (action : StateM Folder α) : Prop :=
  ∀ folder contents, folder.get? place = some contents →
    (action folder).2.get? place = some contents

theorem bind_apply (action : StateM Folder α) (next : α → StateM Folder β) (folder : Folder) :
    (action >>= next) folder = next (action folder).1 (action folder).2 :=
  rfl

theorem entry_apply (name : FileName) (folder : Folder) :
    (Files.entry name : StateM Folder _) folder = (folder.entry name, folder) :=
  rfl

theorem read_apply (name : FileName) (folder : Folder) :
    (Files.read name : StateM Folder _) folder = (folder.read name, folder) :=
  rfl

theorem replace_apply (name : FileName) (text : String) (folder : Folder) :
    (Files.replace name text : StateM Folder _) folder = (folder.replace name text).swap :=
  rfl

namespace Keeps

theorem pure (value : α) : Keeps place (pure value) :=
  fun _ _ held => held

theorem bind {action : StateM Folder α} {next : α → StateM Folder β} (first : Keeps place action)
    (later : ∀ value, Keeps place (next value)) : Keeps place (action >>= next) :=
  fun folder contents held => later _ _ contents (first folder contents held)

theorem entry (name : FileName) : Keeps place (Files.entry name : StateM Folder _) :=
  fun _ _ held => held

theorem read (name : FileName) : Keeps place (Files.read name : StateM Folder _) :=
  fun _ _ held => held

theorem append (different : name.place? ≠ some place) (text : String) :
    Keeps place (Files.append name text : StateM Folder _) :=
  fun _ _ held => (Folder.get?_append_of_ne different).trans held

theorem append_empty (name : FileName) : Keeps place (Files.append name "" : StateM Folder _) :=
  fun _ _ held => Folder.get?_append_empty held

theorem mapM {action : α → StateM Folder β} (each : ∀ value, Keeps place (action value))
    (values : List α) : Keeps place (values.mapM action) := by
  induction values with
  | nil => exact .pure _
  | cons value rest ih =>
    rw [List.mapM_cons]
    exact (each value).bind fun _ => ih.bind fun _ => .pure _

end Keeps

/-- What an action gives has a property, whatever the files are. -/
def Gives (property : α → Prop) (action : StateM Folder α) : Prop :=
  ∀ folder, property (action folder).1

namespace Gives

variable {property : α → Prop} {value : α}

theorem pure (h : property value) : Gives property (pure value) :=
  fun _ => h

theorem bind {action : StateM Folder β} {next : β → StateM Folder α}
    (later : ∀ value, Gives property (next value)) : Gives property (action >>= next) :=
  fun _ => later _ _

end Gives

/-! ### Checks -/

theorem keeps_found (text : String) : Keeps place (valueProblem?.found text : StateM Folder _) := by
  unfold valueProblem?.found
  split
  · exact .pure _
  · refine .bind (.entry _) fun entry => ?_
    split <;> exact .pure _

theorem keeps_valueProblem? (name : String) (type : ValueType) (text : String) :
    Keeps place (valueProblem? name type text : StateM Folder _) := by
  unfold valueProblem?
  cases type with
  | text => exact .pure _
  | integer => dsimp only; split <;> exact .pure _
  | existingFile | existingPath | newFile =>
    refine .bind (keeps_found text) fun entry => ?_
    split <;> exact .pure _

theorem keeps_optionProblem? (words : Words) (spec : OptionSpec) :
    Keeps place (optionProblem? words spec : StateM Folder _) := by
  unfold optionProblem?
  split
  · exact keeps_valueProblem? _ _ _
  · exact .pure _

theorem keeps_argumentProblem? (argument : Option ArgumentSpec) (plain : List String) :
    Keeps place (argumentProblem? argument plain : StateM Folder _) := by
  unfold argumentProblem?
  split
  · exact .pure _
  · exact .pure _
  · exact .pure _
  · exact keeps_valueProblem? _ _ _
  · exact .pure _

theorem keeps_firstProblem? {checks : List (StateM Folder (Option UsageError))}
    (each : ∀ check ∈ checks, Keeps place check) : Keeps place (firstProblem? checks) := by
  induction checks with
  | nil => exact .pure _
  | cons check rest ih =>
    refine .bind (each check List.mem_cons_self) fun problem => ?_
    split
    · exact .pure _
    · exact ih fun later member => each later (List.mem_cons_of_mem _ member)

/-! ### Settings -/

theorem keeps_load (name : FileName) : Keeps place (Settings.load name : StateM Folder _) := by
  unfold Settings.load
  refine .bind (.entry _) fun entry => ?_
  split
  · exact .pure _
  · exact .pure _
  · refine .bind (.read _) fun text => ?_
    split <;> exact .pure _

theorem keeps_treeSettings (words : Words) :
    Keeps place (treeSettings words : StateM Folder _) := by
  unfold treeSettings
  extract_lets failed next
  have later (loaded) : Keeps place (next loaded) := by
    unfold next
    split
    · exact .pure _
    · exact .pure _
    · split
      · exact .pure _
      · exact .pure _
      · split <;> exact .pure _
  split
  · exact (Keeps.pure _).bind later
  · exact (keeps_load _).bind later

/-- Without settings a run fails. -/
theorem exit_of_treeSettings (words : Words) : Gives
    (fun result => ∀ outcome, result = .error outcome → outcome.exit = 1)
    (treeSettings words : StateM Folder _) := by
  unfold treeSettings
  extract_lets failed next
  have unhandled {result : Except Outcome Settings} {outcome : Outcome}
      (same : result = .error outcome) (fails : outcome.exit = 1) :
      ∀ other, result = .error other → other.exit = 1 :=
    fun other sameToo => Except.error.inj (same.symm.trans sameToo) ▸ fails
  have later (loaded) : Gives (fun result => ∀ outcome, result = .error outcome → outcome.exit = 1)
      (next loaded) := by
    unfold next
    split
    · exact .pure (unhandled rfl rfl)
    · exact .pure (unhandled rfl rfl)
    · split
      · exact .pure nofun
      · exact .pure nofun
      · split
        · exact .pure nofun
        · exact .pure (unhandled rfl rfl)
  split <;> exact .bind later

/-! ### The log -/

/-- The file of a log has a settled name. -/
theorem file_of_start (level : String) (file : Option String) : Gives
    (fun result => ∀ log, result = .ok log →
      ∀ name ∈ log.file, ∃ given : FileName, name = given.settled)
    (Log.start level file : StateM Folder _) := by
  unfold Log.start
  extract_lets name next
  have settled : ∀ chosen ∈ name, ∃ given : FileName, chosen = given.settled := by
    intro chosen member
    unfold name at member
    split at member
    · exact nomatch member
    · exact nomatch member
    · exact ⟨_, (Option.some.inj member).symm⟩
  have later (opened) : Gives (fun result => ∀ log, result = .ok log →
      ∀ name ∈ log.file, ∃ given : FileName, name = given.settled) (next opened) := by
    unfold next
    split
    · exact .pure nofun
    · split
      · exact .pure fun log same => Except.ok.inj same ▸ settled
      · exact .pure nofun
  cases name with
  | none => exact .bind later
  | some chosen => exact .bind later

theorem keeps_start (level : String) (file : Option String) :
    Keeps place (Log.start level file : StateM Folder _) := by
  unfold Log.start
  extract_lets name next
  have later (opened) : Keeps place (next opened) := by
    unfold next
    split
    · exact .pure _
    · split <;> exact .pure _
  cases name with
  | none => exact (Keeps.pure _).bind later
  | some chosen => exact (Keeps.append_empty _).bind later

theorem keeps_write {log : Log} (away : ∀ name ∈ log.file, name.place? ≠ some place) (time : String)
    (level : Int) (message : String) :
    Keeps place (log.write time level message : StateM Folder _) := by
  unfold Log.write
  split
  · dsimp only
    split
    · next name file => exact (Keeps.append (away name file) _).bind fun _ => .pure _
    · exact .pure _
  · exact .pure _

/-- The log leaves alone what was put in place of its file. -/
theorem keeps_conclude {surroundings : Surroundings} {log : Log} {report : Report}
    (away : ∀ name ∈ log.file, name.place? = some place →
      log.file = report.replaced.map FileName.settled) :
    Keeps place (conclude surroundings log report : StateM Folder _) := by
  unfold conclude
  refine .bind ?_ fun lines => .pure _
  split
  · exact .pure _
  · next other =>
    refine .mapM (fun note => keeps_write (fun name file same => other ?_) _ _ _) _
    rw [← away name file same, Option.isSome_of_eq_some file]
    simp

theorem exit_conclude (surroundings : Surroundings) (log : Log) (report : Report) (folder : Folder) :
    ((conclude surroundings log report : StateM Folder _) folder).1.exit = report.outcome.exit :=
  rfl

/-! ### Commands and groups -/

variable {group : GroupSpec} {command : CommandSpec} {arguments : List String} {words : Words}
  {folder later : Folder} {contents : Contents}

/-- A run that ends well had nothing to object to. -/
theorem clear_of_exit {checks : List (StateM Folder (Option UsageError))}
    {action : StateM Folder Outcome} (worked : ((firstProblem? checks >>= fun problem =>
      match problem with
      | some e => pure (refused e)
      | none => action) folder).1.exit = 0) :
    ∃ later, firstProblem? checks folder = (none, later) := by
  rw [bind_apply] at worked
  cases checked : firstProblem? checks folder with
  | mk problem later =>
    rw [checked] at worked
    cases problem with
    | some e => exact nomatch worked
    | none => exact ⟨later, rfl⟩

/-- A command is run if its words make sense and there is nothing to object to them. -/
theorem runCommand_of_clear {action : Words → StateM Folder Outcome}
    (scanned : Words.scan (command.options ++ [helpOption]) true arguments = .ok words)
    (helpless : words.has helpOption.name = false)
    (clear : firstProblem? (command.options.map (optionProblem? words) ++
      [argumentProblem? command.argument words.plain] : List (StateM Folder _)) folder =
        (none, later)) :
    runCommand group command arguments action folder = action words later := by
  unfold runCommand
  rw [scanned]
  dsimp only
  rw [helpless, if_neg Bool.false_ne_true, bind_apply, clear]

/-- A command that ended well was run, in a folder where the file is as it was. -/
theorem runCommand_of_exit {action : Words → StateM Folder Outcome}
    (scanned : Words.scan (command.options ++ [helpOption]) true arguments = .ok words)
    (helpless : words.has helpOption.name = false)
    (worked : (runCommand group command arguments action folder).1.exit = 0)
    (held : folder.get? place = some contents) :
    ∃ later, runCommand group command arguments action folder = action words later ∧
      later.get? place = some contents := by
  obtain ⟨later, clear⟩ : ∃ later, firstProblem? (command.options.map (optionProblem? words) ++
      [argumentProblem? command.argument words.plain] : List (StateM Folder _)) folder =
        (none, later) := by
    unfold runCommand at worked
    rw [scanned] at worked
    dsimp only at worked
    rw [helpless, if_neg Bool.false_ne_true] at worked
    exact clear_of_exit worked
  have keeps : Keeps place (firstProblem? (command.options.map (optionProblem? words) ++
      [argumentProblem? command.argument words.plain]) : StateM Folder _) := by
    refine keeps_firstProblem? fun check member => ?_
    obtain option | argument := List.mem_append.1 member
    · obtain ⟨spec, -, rfl⟩ := List.mem_map.1 option
      exact keeps_optionProblem? _ _
    · obtain rfl := List.mem_singleton.1 argument
      exact keeps_argumentProblem? _ _
  exact ⟨later, runCommand_of_clear scanned helpless clear, by
    simpa [clear] using keeps folder contents held⟩

/-- A group goes on with its command if its words make sense and there is nothing to object to
them. -/
theorem runGroup_of_clear {action : Words → CommandSpec → List String → StateM Folder Outcome}
    {name : String} {rest : List String}
    (scanned : Words.scan (group.options ++ [helpOption]) false arguments = .ok words)
    (helpless : words.has helpOption.name = false) (names : words.plain = name :: rest)
    (known : group.commands.find? (fun command => command.name = name) = some command)
    (clear : firstProblem? (group.options.map (optionProblem? words) : List (StateM Folder _)) folder =
      (none, later)) :
    runGroup group arguments action folder = action words command rest later := by
  unfold runGroup
  cases arguments with
  | nil =>
    obtain rfl := Except.ok.inj scanned
    exact nomatch names
  | cons first others =>
    rw [if_neg (by simp), scanned]
    dsimp only
    rw [helpless, if_neg Bool.false_ne_true, bind_apply, clear]
    dsimp only
    rw [names]
    dsimp only
    rw [known]

/-- A group that ended well went on with its command, in a folder where the file is as it was. -/
theorem runGroup_of_exit {action : Words → CommandSpec → List String → StateM Folder Outcome}
    {name : String} {rest : List String}
    (scanned : Words.scan (group.options ++ [helpOption]) false arguments = .ok words)
    (helpless : words.has helpOption.name = false) (names : words.plain = name :: rest)
    (known : group.commands.find? (fun command => command.name = name) = some command)
    (worked : (runGroup group arguments action folder).1.exit = 0)
    (held : folder.get? place = some contents) :
    ∃ later, runGroup group arguments action folder = action words command rest later ∧
      later.get? place = some contents := by
  obtain ⟨later, clear⟩ : ∃ later, firstProblem?
      (group.options.map (optionProblem? words) : List (StateM Folder _)) folder = (none, later) := by
    unfold runGroup at worked
    split at worked
    · exact nomatch worked
    · rw [scanned] at worked
      dsimp only at worked
      rw [helpless, if_neg Bool.false_ne_true] at worked
      exact clear_of_exit worked
  have keeps : Keeps place
      (firstProblem? (group.options.map (optionProblem? words)) : StateM Folder _) := by
    refine keeps_firstProblem? fun check member => ?_
    obtain ⟨spec, -, rfl⟩ := List.mem_map.1 member
    exact keeps_optionProblem? _ _
  exact ⟨later, runGroup_of_clear scanned helpless names known clear, by
    simpa [clear] using keeps folder contents held⟩

end Verbatim
