import Verbatim.Proofs.Command.Keeping
import Verbatim.Proofs.Json.Written
import Verbatim.Proofs.Storage.Saving
import Verbatim.Proofs.Text.Numeral
import Verbatim.Proofs.Text.Utf8
import Verbatim.Settings.File

/-!
# Settings survive their file

Settings take many kinds of values and are written with one kind each, so reading them again changes
nothing. On the way through a file the only thing that can be lost are digits: integers are written
whatever their size, and read up to a number of digits. No integer that comes out of a text or a
number with a fraction has more digits than that, so it is enough that no integer is given with more.

## Main results

* `Settings.read_fields`: settings are read again from their own fields
* `natAbs_lt_of_integerValue`: integers that are read are short
* `Settings.load_saved`: **settings are loaded as they were saved**
-/

namespace Verbatim

/-! ### Their own fields -/

theorem depthValue_eq_ok {raw : Json} {depth : Nat} : depthValue raw = .ok depth ↔
    ∃ value : Int, 0 < value ∧ integerValue raw = .ok value ∧ value.toNat = depth := by
  rw [depthValue, bind_eq_ok]
  refine exists_congr fun value => ?_
  split
  · next low => simp [Int.not_lt.2 low]
  · next high => simp [Int.lt_of_not_ge high]

theorem limitValue_eq_ok {raw : Json} {limit : Nat} : limitValue raw = .ok limit ↔
    ∃ value : Int, 0 ≤ value ∧ integerValue raw = .ok value ∧ value.toNat = limit := by
  rw [limitValue, bind_eq_ok]
  refine exists_congr fun value => ?_
  split
  · next low => simp [Int.not_le.2 low]
  · next high => simp [Int.not_lt.1 high]

theorem levelValue_name (level : LogLevel) : levelValue (.text level.name) = .ok level := by
  cases level <;> rfl

namespace Settings

variable {settings : Settings} {fields : List (String × Json)}

/-- **Settings are read again from their own fields.** -/
theorem read_fields (positive : 0 < settings.maxDepth) :
    Settings.read settings.fields = .ok settings := by
  have depth : depthValue (.int settings.maxDepth) = .ok settings.maxDepth :=
    depthValue_eq_ok.2 ⟨settings.maxDepth, Int.natCast_pos.2 positive, rfl, Int.toNat_natCast _⟩
  have limit : limitValue (.int settings.undoLimit) = .ok settings.undoLimit :=
    limitValue_eq_ok.2 ⟨settings.undoLimit, Int.natCast_nonneg _, rfl, Int.toNat_natCast _⟩
  have level := levelValue_name settings.logLevel
  have file : fileValue ((settings.logFile.map Json.text).getD .null) = .ok settings.logFile := by
    cases settings.logFile <;> rfl
  simp [Settings.read, Settings.fields, readSetting, List.lookup_cons, truthValue, depth, limit,
    level, file, names]

end Settings

/-! ### Short integers -/

theorem ofDigitChars_lt {digits : List Char} (all : ∀ c ∈ digits, c.isDigit) :
    Nat.ofDigitChars 10 digits 0 < 10 ^ digits.length := by
  have bound : Nat.ofDigitChars 10 digits 0 < 10 ^ (0 + digits.length) :=
    Text.lt_of_go (by simp) (Text.go_digits all 0 0)
  rwa [Nat.zero_add] at bound

/-- A plain numeral that is read has no more digits than can be read. -/
theorem natAbs_lt_of_plainInteger {text : List Char} {value : Int}
    (read : plainInteger text = .ok value) : value.natAbs < 10 ^ Text.digitLimit := by
  unfold plainInteger at read
  split at read
  next negative body signed =>
  split at read
  next digits rest spanned =>
  have body_le : body.length ≤ text.length := by
    split at signed
    · obtain ⟨-, rfl⟩ := Prod.mk.inj signed
      simp
    · exact (Prod.mk.inj signed).2 ▸ Nat.le_refl _
  rw [List.span_eq_takeWhile_dropWhile] at spanned
  obtain ⟨front, behind⟩ := Prod.mk.inj spanned
  have all : ∀ c ∈ digits, c.isDigit := by
    rw [← front]
    exact List.all_eq_true.1 List.all_takeWhile
  have joined : digits.length + rest.length = body.length := by
    rw [← front, ← behind, ← List.length_append, List.takeWhile_append_dropWhile]
  split at read
  · cases read
  · split at read
    · obtain rfl := Except.ok.inj read
      exact Nat.pow_pos (by decide)
    · cases read
  · split at read
    · cases read
    next short =>
    split at read
    · have bound := ofDigitChars_lt all
      have few : 10 ^ digits.length ≤ 10 ^ Text.digitLimit :=
        Nat.pow_le_pow_right (by decide) (by omega)
      have same := Except.ok.inj read
      have size : value.natAbs = Nat.ofDigitChars 10 digits 0 := by
        rw [← same]
        cases negative <;> simp [Nat.ofDigitChars]
      omega
    · cases read

theorem natAbs_lt_of_integerOfText {text : String} {value : Int}
    (read : integerOfText text = .ok value) : value.natAbs < 10 ^ Text.digitLimit := by
  unfold integerOfText at read
  split at read
  · split at read
    · next found =>
      obtain ⟨plain, -, result⟩ := Option.map_eq_some_iff.1 found
      obtain rfl := Except.ok.inj read
      exact natAbs_lt_of_plainInteger result
    · cases read
  · exact natAbs_lt_of_plainInteger read

theorem lt_digitLimit {number : Nat} (small : number < 10 ^ 19) : number < 10 ^ Text.digitLimit :=
  Nat.lt_of_lt_of_le small (Nat.pow_le_pow_right (by decide) (by decide))

/-- The integer that a double is equal to is much shorter. -/
theorem natAbs_lt_of_integerOfDouble {given : Double} {value : Int}
    (read : integerOfDouble given = .ok value) : value.natAbs < 10 ^ Text.digitLimit := by
  unfold integerOfDouble at read
  split at read
  · split at read
    · next small =>
      obtain rfl := Except.ok.inj read
      exact lt_digitLimit (by omega)
    · cases read
  · cases read

/-- Integers that are read are short, if none is given that is not. -/
theorem natAbs_lt_of_integerValue {raw : Json} {value : Int}
    (short : ∀ given, raw = .int given → given.natAbs < 10 ^ Text.digitLimit)
    (read : integerValue raw = .ok value) : value.natAbs < 10 ^ Text.digitLimit := by
  cases raw with
  | int given => exact Except.ok.inj read ▸ short given rfl
  | bool given =>
    obtain rfl := Except.ok.inj read
    cases given <;> exact lt_digitLimit (by decide)
  | float given => exact natAbs_lt_of_integerOfDouble read
  | text given => exact natAbs_lt_of_integerOfText read
  | _ => cases read

namespace Settings

variable {settings : Settings} {fields : List (String × Json)}

/-- No integer among the fields is too long to be read from a text. -/
def ShortIntegers (fields : List (String × Json)) : Prop :=
  ∀ name value, (name, .int value) ∈ fields → value.natAbs < 10 ^ Text.digitLimit

/-- A setting has its default or comes from the field of its name. -/
theorem readSetting_eq_of_nil {α : Type} {name : String} {default result : α}
    {value : Json → Except SettingProblem α}
    (given : readSetting fields name default value = (result, [])) :
    result = default ∨ ∃ raw, (name, raw) ∈ fields ∧ value raw = .ok result := by
  unfold readSetting at given
  split at given
  · exact .inl (Prod.mk.inj given).1.symm
  · next raw found =>
    obtain ⟨front, back, rfl, -⟩ := List.lookup_eq_some_iff.1 found
    split at given
    · next result taken =>
      obtain rfl := (Prod.mk.inj given).1
      exact .inr ⟨raw, by simp, taken⟩
    · cases (Prod.mk.inj given).2

/-- Where the two limits come from. -/
theorem limits_of_read (read : Settings.read fields = .ok settings) :
    readSetting fields "max_depth" 256 depthValue = (settings.maxDepth, []) ∧
      readSetting fields "undo_limit" 100 limitValue = (settings.undoLimit, []) := by
  unfold Settings.read at read
  dsimp only at read
  split at read
  next none =>
    simp only [List.append_eq_nil_iff] at none
    obtain ⟨⟨⟨⟨⟨-, depth⟩, limit⟩, -⟩, -⟩, -⟩ := none
    obtain rfl := Except.ok.inj read
    exact ⟨Prod.ext rfl depth, Prod.ext rfl limit⟩
  · cases read

/-- Both limits are short, and the first is not zero. -/
theorem limits_lt_of_read (short : ShortIntegers fields)
    (read : Settings.read fields = .ok settings) :
    0 < settings.maxDepth ∧ settings.maxDepth < 10 ^ Text.digitLimit ∧
      settings.undoLimit < 10 ^ Text.digitLimit := by
  have integer {name : String} {raw : Json} {value : Int} (member : (name, raw) ∈ fields)
      (given : integerValue raw = .ok value) : value.natAbs < 10 ^ Text.digitLimit :=
    natAbs_lt_of_integerValue (fun given same => short name given (same ▸ member)) given
  obtain ⟨depth, limit⟩ := limits_of_read read
  refine ⟨?_, ?_, ?_⟩
  · obtain default | ⟨raw, -, taken⟩ := readSetting_eq_of_nil depth
    · omega
    · obtain ⟨value, positive, -, same⟩ := depthValue_eq_ok.1 taken
      omega
  · obtain default | ⟨raw, member, taken⟩ := readSetting_eq_of_nil depth
    · exact lt_digitLimit (by omega)
    · obtain ⟨value, -, given, same⟩ := depthValue_eq_ok.1 taken
      have := integer member given
      omega
  · obtain default | ⟨raw, member, taken⟩ := readSetting_eq_of_nil limit
    · exact lt_digitLimit (by omega)
    · obtain ⟨value, -, given, same⟩ := limitValue_eq_ok.1 taken
      have := integer member given
      omega

/-! ### Files -/

theorem writable_fields (depth : settings.maxDepth < 10 ^ Text.digitLimit)
    (limit : settings.undoLimit < 10 ^ Text.digitLimit) : (Json.object settings.fields).Writable := by
  have file : ((settings.logFile.map Json.text).getD .null).Writable := by
    cases settings.logFile with
    | none => exact .null
    | some name => exact .text name
  refine .object (by simp [fields]) fun field member => ?_
  simp only [fields, List.mem_cons, List.not_mem_nil, or_false] at member
  obtain rfl | rfl | rfl | rfl | rfl := member
  · exact .bool _
  · exact .int depth
  · exact .int limit
  · exact .text _
  · exact file

/-- **Settings are loaded as they were saved.** Whatever fields they are read from, they are read
again from their own fields, and from the file into which these are saved, if a file can be saved
there. -/
theorem load_saved (short : ShortIntegers fields) (read : Settings.read fields = .ok settings) :
    Settings.read settings.fields = .ok settings ∧
    ∀ (folder : Folder) (name : FileName), (∃ text, (folder.writeDeep name text).2 = .ok ()) →
      ∃ later, (saveFields settings.fields name : StateM Folder _) folder = (.ok (), later) ∧
        (Settings.load name : StateM Folder _) later = (.ok (.ok settings), later) := by
  obtain ⟨positive, depth, limit⟩ := limits_lt_of_read short read
  refine ⟨read_fields positive, fun folder name ⟨text, saved⟩ => ?_⟩
  have writable := writable_fields depth limit
  obtain ⟨later, written, entry, given⟩ :=
    Folder.read_of_putDeep saved (Json.pretty 2 (.object settings.fields))
  have plain : Text.foldLineEnds (Json.pretty 2 (.object settings.fields)) =
      Json.pretty 2 (.object settings.fields) := by
    rw [Json.pretty, Text.foldLineEnds, Text.fold_eq_self writable.notMem_pretty,
      String.ofList_toList]
  refine ⟨later, ?_, ?_⟩
  · show (folder.writeDeep name _).swap = _
    rw [Folder.writeDeep, written]
    rfl
  · rw [plain] at given
    have parsed : ofText (Json.pretty 2 (.object settings.fields)) = .ok settings := by
      simp only [ofText, writable.read_pretty, read_fields positive]
      rfl
    simp only [Settings.load, bind_apply, entry_apply, read_apply, entry, given, parsed]
    rfl

/-- A log file with a name of quotes, a backslash, both line ends and letters outside ASCII, two words
and two numerals, and a folder that is made for the file. -/
theorem load_saved_quoted : ∃ (fields : List (String × Json)) (settings : Settings)
    (name : FileName) (later : Folder),
    ShortIntegers fields ∧ Settings.read fields = .ok settings ∧
      settings.logFile = some "\"\\\r\n\x01é" ∧ settings.maxDepth = 12 ∧
      (saveFields settings.fields name : StateM Folder _) Folder.empty = (.ok (), later) ∧
      (Settings.load name : StateM Folder _) later = (.ok (.ok settings), later) := by
  let fields : List (String × Json) := [("strict_structure", .text "off"), ("max_depth", .text "+1_2"),
    ("undo_limit", .int 7), ("log_level", .text " debug"), ("log_file", .text "\"\\\r\n\x01é")]
  let settings : Settings := {
    strictStructure := false
    maxDepth := 12
    undoLimit := 7
    logLevel := .debug
    logFile := some "\"\\\r\n\x01é" }
  have short : ShortIntegers fields := by
    intro name value member
    obtain ⟨-, rfl⟩ : name = "undo_limit" ∧ value = 7 := by simpa [fields] using member
    exact lt_digitLimit (by decide)
  have read : Settings.read fields = .ok settings := by cbv
  have free : ((Folder.empty.writeDeep ⟨.here, ["deep", "settings"]⟩ "").2) = .ok () := by rfl
  obtain ⟨-, saves⟩ := load_saved short read
  obtain ⟨later, saved, loaded⟩ := saves _ _ ⟨_, free⟩
  exact ⟨fields, settings, _, later, short, read, rfl, rfl, saved, loaded⟩

end Settings

end Verbatim
