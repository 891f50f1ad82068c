import Verbatim.Proofs.Storage.Names

/-!
# Files that are saved are found again

Saving makes the folders above a file, and puts the file in the last of them. Afterwards the name
leads to the file: the folders on the way are there, those that were there before stay, and the file
takes the place of no folder. Whether a file can be saved does not depend on its text.

## Main definitions

* `Folder.KeepsFolders`: the folders of one state are folders of a later one

## Main results

* `Folder.follow_of_makeFollowing`: the way on which folders were made can be followed
* `Folder.read_of_putDeep`: **what is saved is read again**
-/

namespace Verbatim

namespace Folder

variable {folder middle later : Folder} {name : FileName} {parts place : List String}
  {spot next : Spot} {contents : Contents} {text : String}

/-! ### Folders that stay -/

/-- What is a folder stays one. -/
def KeepsFolders (folder later : Folder) : Prop :=
  ∀ spot, folder.entryAt spot = .folder → later.entryAt spot = .folder

theorem KeepsFolders.refl (folder : Folder) : folder.KeepsFolders folder :=
  fun _ h => h

theorem KeepsFolders.trans (first : folder.KeepsFolders middle) (second : middle.KeepsFolders later) :
    folder.KeepsFolders later :=
  fun spot h => second spot (first spot h)

/-- There is a folder where no file is, and where one was made or has something in it. -/
theorem entryAt_inside_eq_folder : folder.entryAt (.inside place) = .folder ↔
    folder.get? place = none ∧
      (place = [] ∨ place ∈ folder.made ∨ ∃ file ∈ folder.files, place <+: file.1) := by
  cases held : folder.get? place with
  | some contents => simp [entryAt, held]
  | none => simp [entryAt, held, imp_iff_not_or, or_assoc]

theorem get?_of_missing (missing : folder.entryAt (.inside place) = .missing) :
    folder.get? place = none := by
  cases held : folder.get? place with
  | some contents => simp [entryAt, held] at missing
  | none => rfl

/-- A folder that is made is there, unless a file is in its place. -/
theorem entryAt_makeAt (free : folder.entryAt spot ≠ .file) :
    (folder.makeAt spot).entryAt spot = .folder := by
  cases spot with
  | around => rfl
  | inside place =>
    cases entry : folder.entryAt (.inside place) with
    | file => exact absurd entry free
    | folder =>
      unfold makeAt
      rwa [entry]
    | missing =>
      have free : folder.get? place = none := get?_of_missing entry
      unfold makeAt
      rw [entry]
      exact entryAt_inside_eq_folder.2 ⟨free, .inr (.inl List.mem_cons_self)⟩

theorem keepsFolders_makeAt (folder : Folder) (spot : Spot) :
    folder.KeepsFolders (folder.makeAt spot) := by
  unfold makeAt
  split
  · next made missing =>
    rintro (place | _) h
    · obtain ⟨free, here⟩ := entryAt_inside_eq_folder.1 h
      exact entryAt_inside_eq_folder.2
        ⟨free, here.imp_right fun here => here.imp_left (List.mem_cons_of_mem made)⟩
    · rfl
  · exact .refl folder

/-- Places that are taken stay taken. -/
theorem exists_mem_put {file : List String × Contents} (member : file ∈ folder.files) :
    ∃ other ∈ (folder.put place contents).files, other.1 = file.1 := by
  obtain ⟨files, made⟩ := folder
  simp only [put]
  induction files with
  | nil => contradiction
  | cons first rest ih =>
    rw [put.go]
    split
    · next same =>
      obtain rfl | later := List.mem_cons.1 member
      · exact ⟨_, List.mem_cons_self, same.symm⟩
      · exact ⟨file, List.mem_cons_of_mem _ later, rfl⟩
    · obtain rfl | later := List.mem_cons.1 member
      · exact ⟨file, List.mem_cons_self, rfl⟩
      · obtain ⟨other, inside, same⟩ := ih later
        exact ⟨other, List.mem_cons_of_mem _ inside, same⟩

/-- A file that takes the place of no folder leaves all folders. -/
theorem keepsFolders_put (free : folder.entryAt (.inside place) ≠ .folder) :
    folder.KeepsFolders (folder.put place contents) := by
  rintro (other | _) h
  · have different : other ≠ place := by
      rintro rfl
      exact free h
    obtain ⟨none, here⟩ := entryAt_inside_eq_folder.1 h
    refine entryAt_inside_eq_folder.2 ⟨(get?_put_of_ne different).trans none, ?_⟩
    refine here.imp_right fun here => here.imp_right fun ⟨file, member, inside⟩ => ?_
    obtain ⟨later, member, same⟩ := exists_mem_put member
    exact ⟨later, member, same ▸ inside⟩
  · rfl

/-! ### The way to a file -/

/-- Steps are the same for all names, where they lead somewhere. -/
theorem step_of_step {part : String} (stepped : step name spot part = .ok next) (other : FileName) :
    step other spot part = .ok next := by
  unfold step at stepped ⊢
  split at stepped
  · contradiction
  · next short =>
    rw [if_neg short]
    split at stepped
    · exact stepped
    · contradiction

/-- The way on which folders were made can be followed, for as long as the folders stay. -/
theorem follow_of_makeFollowing
    (made : makeFollowing name folder spot parts = (middle, .ok next)) :
    folder.KeepsFolders middle ∧ ∀ later, middle.KeepsFolders later → ∀ other,
      later.follow other spot parts = .ok next ∧ later.entryAt next = .folder := by
  induction parts generalizing folder spot with
  | nil =>
    rw [makeFollowing] at made
    split at made
    · cases (Prod.mk.inj made).2
    · next free =>
      obtain ⟨rfl, same⟩ := Prod.mk.inj made
      obtain rfl := Except.ok.inj same
      exact ⟨keepsFolders_makeAt folder spot, fun later keeps other =>
        ⟨rfl, keeps _ (entryAt_makeAt free)⟩⟩
  | cons part rest ih =>
    rw [makeFollowing] at made
    split at made
    · cases (Prod.mk.inj made).2
    · next free =>
      split at made
      · next inner stepped =>
        obtain ⟨keeps, follows⟩ := ih made
        refine ⟨(keepsFolders_makeAt folder spot).trans keeps, fun later stay other => ?_⟩
        have here : later.entryAt spot = .folder := stay _ (keeps _ (entryAt_makeAt free))
        rw [follow, here, step_of_step stepped other]
        exact follows later stay other
      · cases (Prod.mk.inj made).2

/-- Followed parts, and one more. -/
theorem follow_concat {part : String} {target : Spot}
    (follows : folder.follow name spot parts = .ok next) (isFolder : folder.entryAt next = .folder)
    (stepped : step name next part = .ok target) :
    folder.follow name spot (parts ++ [part]) = .ok target := by
  induction parts generalizing spot with
  | nil =>
    obtain rfl := Except.ok.inj follows
    rw [List.nil_append, follow, isFolder, stepped]
    rfl
  | cons first rest ih =>
    rw [follow] at follows
    rw [List.cons_append, follow]
    split at follows
    · contradiction
    · contradiction
    · split at follows
      · exact ih follows
      · contradiction

/-! ### Names that can be followed -/

theorem parts_eq_above (own : name.last ≠ "") : name.parts = name.above.parts ++ [name.last] := by
  obtain ⟨start, parts⟩ := name
  obtain rfl | ⟨front, last, rfl⟩ := parts.eq_nil_or_concat
  · exact absurd rfl own
  · simp [FileName.above, FileName.last]

/-- The text of a name is made up of the text of its folder, and its last part. -/
theorem mem_text {c : Char} (own : name.last ≠ "") (member : c ∈ name.text.toList) :
    c ∈ name.above.text.toList ∨ c = '/' ∨ c ∈ name.last.toList := by
  have parts := parts_eq_above own
  have slashes : c ∈ name.start.text.toList → c = '/' := by
    cases name.start <;> simp [NameStart.text]
  obtain top | some := eq_or_ne name.above.parts []
  · have whole : name.text = name.start.text ++ name.last := by
      simp [FileName.text, parts, top]
    rw [whole, String.toList_append, List.mem_append] at member
    exact member.elim (fun front => .inr (.inl (slashes front))) fun behind => .inr (.inr behind)
  · have whole : name.text = name.above.text ++ "/" ++ name.last := by
      have start : name.above.start = name.start := rfl
      simp [FileName.text, parts, some, start, String.intercalate_append_of_ne_nil,
        String.append_assoc]
    rw [whole] at member
    simpa [or_assoc] using member

/-- A name without a null character, as its folder and its last part have none. -/
theorem holdsNull_eq_false (own : name.last ≠ "") (above : holdsNull name.above.text = false)
    (last : holdsNull name.last = false) : holdsNull name.text = false := by
  simp only [holdsNull, List.contains_eq_mem, decide_eq_false_iff_not] at above last ⊢
  intro member
  obtain inside | slash | inside := mem_text own member
  · exact above inside
  · exact absurd slash (by decide)
  · exact last inside

theorem nameFault?_eq_none : nameFault? name = none ↔
    holdsNull name.text = false ∧ name.text.utf8ByteSize ≤ nameLimit := by
  unfold nameFault?
  split
  · next null => simp [null]
  · next null =>
    rw [Bool.not_eq_true] at null
    split
    · next long => simp [null, Nat.not_le.2 long]
    · next short => simp [null, Nat.le_of_not_lt short]

theorem makeFolders_eq_ok : folder.makeFolders name = (middle, .ok spot) ↔ nameFault? name = none ∧
    makeFollowing name folder (startOf name) name.parts = (middle, .ok spot) := by
  unfold makeFolders
  cases nameFault? name <;> simp

/-- A name leads where folders were made for it, and one step further. -/
theorem walk_of_makeFolders (own : name.last ≠ "") (plain : nameFault? name = none)
    (made : folder.makeFolders name.above = (middle, .ok spot)) (keeps : middle.KeepsFolders later)
    (stepped : step name spot name.last = .ok next) : later.walk name = .ok next := by
  have parts := parts_eq_above own
  have start : startOf name = startOf name.above := rfl
  obtain ⟨-, made⟩ := makeFolders_eq_ok.1 made
  obtain ⟨follows, isFolder⟩ := (follow_of_makeFollowing made).2 later keeps name
  rw [walk, plain, parts, start]
  exact follow_concat follows isFolder stepped

/-- A file that was put at the end of a name is there, and is read. -/
theorem read_put (walked : (folder.put place (.text text)).walk name = .ok (.inside place)) :
    (folder.put place (.text text)).entry name = .ok .file ∧
      (folder.put place (.text text)).read name = .ok (Text.foldLineEnds text) := by
  have held := get?_put folder place (.text text)
  have entry : (folder.put place (.text text)).entryAt (.inside place) = .file := by
    simp [entryAt, held]
  constructor
  · simp only [Folder.entry, walked, entry]
  · simp only [read, walked, entry, held]
    rfl

/-- **What is saved is read again**, whether the file is new or not. If one text can be saved, every
text can. -/
theorem read_of_putDeep {margin : Nat} {bare : FileError} {given : String}
    (saved : (folder.putDeep margin bare name given).2 = .ok ()) (text : String) :
    ∃ later, folder.putDeep margin bare name text = (later, .ok ()) ∧ later.entry name = .ok .file ∧
      later.read name = .ok (Text.foldLineEnds text) := by
  unfold putDeep at saved ⊢
  split at saved
  · cases saved
  next middle spot made =>
  split at saved
  · next place found =>
    obtain ⟨last, short, own, -, stepped, free⟩ := of_targetIn found
    have above := nameFault?_eq_none.1 (makeFolders_eq_ok.1 made).1
    have plain : nameFault? name = none :=
      nameFault?_eq_none.2 ⟨holdsNull_eq_false own above.1 last, short⟩
    exact ⟨middle.put place (.text text), rfl,
      read_put (walk_of_makeFolders own plain made (keepsFolders_put free) stepped)⟩
  · cases saved

end Folder

end Verbatim
