import Verbatim.Proofs.Steps
import Verbatim.Storage.Folder

/-!
# Names and places

A name without double dots leads down folder by folder, and its text stands for it again. A name with
double dots that leads to a place below the working folder leads where the settled name leads.

## Main definitions

* `FileName.Plain`: a row of parts that can stand in a name

## Main results

* `FileName.ofText_text`: **the text of a name stands for the name**
* `FileName.place?_of_walk`: where a name leads can be told from its parts
* `FileName.place?_settled`: a settled name leads to the same place
-/

namespace Verbatim

/-! ### Texts between slashes -/

namespace Text

open String

/-- From one character to the next: `front` was read, and `piece` since the last slash. -/
theorem splitOnAux_slash (front piece rest : List Char) (done : List String) :
    splitOnAux (ofList (front ++ piece ++ rest)) "/" ⟨utf8Len front⟩
        ⟨utf8Len front + utf8Len piece⟩ 0 done =
      done.reverse ++ (List.splitOnPPrepend (· == '/') rest piece.reverse).map ofList := by
  induction rest generalizing front piece done with
  | nil =>
    have ending : Pos.Raw.atEnd (ofList (front ++ piece)) ⟨utf8Len front + utf8Len piece⟩ := by
      simpa using atEnd_of_valid (front ++ piece) []
    have own := extract_of_valid front piece []
    rw [List.append_nil] at own
    rw [splitOnAux, List.append_nil, if_pos ending, own]
    simp
  | cons c rest ih =>
    have going : ¬ Pos.Raw.atEnd (ofList (front ++ piece ++ c :: rest))
        ⟨utf8Len front + utf8Len piece⟩ := by
      simpa [-ofList_append] using atEnd_of_valid (front ++ piece) (c :: rest)
    have here : Pos.Raw.get (ofList (front ++ piece ++ c :: rest))
        ⟨utf8Len front + utf8Len piece⟩ = c := by
      simpa [-ofList_append] using get_of_valid (front ++ piece) (c :: rest)
    have next : Pos.Raw.next (ofList (front ++ piece ++ c :: rest))
        ⟨utf8Len front + utf8Len piece⟩ = ⟨utf8Len front + utf8Len piece + c.utf8Size⟩ := by
      simpa [-ofList_append] using next_of_valid (front ++ piece) c rest
    have separator : Pos.Raw.get "/" 0 = '/' := rfl
    have behind : Pos.Raw.next "/" 0 = ⟨1⟩ := rfl
    have ended : Pos.Raw.atEnd "/" ⟨1⟩ := rfl
    rw [splitOnAux, if_neg going, here, next, separator, behind]
    by_cases slash : c = '/'
    · subst slash
      have own := extract_of_valid front piece ('/' :: rest)
      have back : Pos.Raw.unoffsetBy ⟨utf8Len front + utf8Len piece + '/'.utf8Size⟩ ⟨1⟩ =
          ⟨utf8Len front + utf8Len piece⟩ := rfl
      have later := ih (front ++ piece ++ ['/']) [] (ofList piece :: done)
      have split : List.splitOnPPrepend (· == '/') ('/' :: rest) piece.reverse =
          piece :: List.splitOnP (· == '/') rest := by
        simp [List.splitOnPPrepend_cons_eq_if]
      rw [if_pos (beq_self_eq_true _)]
      dsimp only
      rw [if_pos ended, back, own, split]
      simpa [Nat.add_assoc] using later
    · have stay : Pos.Raw.unoffsetBy ⟨utf8Len front + utf8Len piece⟩ 0 =
          ⟨utf8Len front + utf8Len piece⟩ := rfl
      have later := ih front (piece ++ [c]) done
      have split : List.splitOnPPrepend (· == '/') (c :: rest) piece.reverse =
          List.splitOnPPrepend (· == '/') rest (c :: piece.reverse) := by
        simp [List.splitOnPPrepend_cons_eq_if, slash]
      rw [if_neg (by simpa using slash), stay, next, split]
      simpa [Nat.add_assoc] using later

theorem splitOn_slash (text : String) : text.splitOn "/" = (text.toList.splitOn '/').map ofList := by
  have whole := splitOnAux_slash [] [] text.toList []
  rw [List.splitOn_eq_splitOnP, splitOn, if_neg (by decide)]
  simpa using whole

theorem notMem_of_mem_splitOn {c : Char} {chars piece : List Char}
    (member : piece ∈ chars.splitOn c) : c ∉ piece := by
  induction chars generalizing piece with
  | nil =>
    rw [List.splitOn_nil, List.mem_singleton] at member
    exact member ▸ List.not_mem_nil
  | cons first rest ih =>
    rw [List.splitOn_cons_eq_if_modifyHead] at member
    split at member
    · obtain rfl | later := List.mem_cons.1 member
      · exact List.not_mem_nil
      · exact ih later
    · next other =>
      obtain ⟨head, tail, pieces⟩ := List.exists_cons_of_ne_nil (List.splitOn_ne_nil c rest)
      rw [pieces, List.modifyHead_cons] at member
      rw [pieces] at ih
      obtain rfl | later := List.mem_cons.1 member
      · refine fun inside => ?_
        obtain rfl | inside := List.mem_cons.1 inside
        · exact other (beq_self_eq_true _)
        · exact ih List.mem_cons_self inside
      · exact ih (List.mem_cons_of_mem _ later)

end Text

/-! ### Names -/

namespace FileName

variable {name : FileName} {text part : String} {above parts place settledParts : List String}

/-- Parts that say something and are no parts of parts. -/
def Plain (parts : List String) : Prop :=
  ∀ part ∈ parts, part ≠ "" ∧ part ≠ "." ∧ '/' ∉ part.toList

theorem plain_ofText (text : String) : Plain (ofText text).parts := by
  intro part member
  obtain ⟨piece, spoken⟩ := List.mem_filter.1 member
  rw [Text.splitOn_slash] at piece
  obtain ⟨chars, inside, rfl⟩ := List.mem_map.1 piece
  obtain ⟨some, other⟩ : String.ofList chars ≠ "" ∧ String.ofList chars ≠ "." := by
    simpa using spoken
  refine ⟨some, other, ?_⟩
  rw [String.toList_ofList]
  exact Text.notMem_of_mem_splitOn inside

/-- **The text of a name stands for the name**, if the name starts in the working folder. -/
theorem ofText_text (here : name.start = .here) (plain : Plain name.parts) :
    ofText name.text = name := by
  obtain ⟨start, parts⟩ := name
  obtain rfl : start = .here := here
  cases parts with
  | nil =>
    have split : ".".splitOn "/" = ["."] := by
      rw [Text.splitOn_slash]
      rfl
    show ofText "." = _
    rw [ofText, split]
    rfl
  | cons first rest =>
    have written : (text ⟨.here, first :: rest⟩).toList =
        ['/'].intercalate ((first :: rest).map String.toList) := by
      simp [text, NameStart.text, String.toList_intercalate]
    have split : (text ⟨.here, first :: rest⟩).splitOn "/" = first :: rest := by
      rw [Text.splitOn_slash, written, List.splitOn_intercalate]
      · simp [Function.comp_def]
      · intro chars member
        obtain ⟨part, inside, rfl⟩ := List.mem_map.1 member
        exact (plain part inside).2.2
      · exact List.cons_ne_nil _ _
    have start : startOf (text ⟨.here, first :: rest⟩) = .here := by
      obtain ⟨c, chars, spelled⟩ := List.exists_cons_of_ne_nil
        (mt String.toList_eq_nil_iff.1 (plain first List.mem_cons_self).1)
      have other : c ≠ '/' := fun same =>
        (plain first List.mem_cons_self).2.2 (spelled ▸ same ▸ List.mem_cons_self)
      have front : ∃ more, (text ⟨.here, first :: rest⟩).toList = c :: more := by
        rw [written, List.map_cons, spelled]
        cases rest <;> exact ⟨_, rfl⟩
      obtain ⟨more, same⟩ := front
      rw [startOf, same, List.takeWhile_cons_of_neg (by simpa using other)]
      rfl
    rw [ofText, start, split]
    congr 1
    refine List.filter_eq_self.2 fun part member => ?_
    simpa using ⟨(plain part member).1, (plain part member).2.1⟩

/-! ### Settled names -/

/-- Without double dots the parts stand as they are. -/
theorem settle_of_notMem (level : ".." ∉ parts) :
    settle above parts = some (parts.reverse ++ above) := by
  fun_induction settle above parts with
  | case1 => rfl
  | case2 => exact absurd List.mem_cons_self level
  | case3 => exact absurd List.mem_cons_self level
  | case4 above part rest other ih =>
    rw [ih fun member => level (List.mem_cons_of_mem _ member)]
    simp

/-- Double dots are gone, and the other parts are those of the name. -/
theorem mem_of_settle (settles : settle above parts = some place) (member : part ∈ place) :
    part ∈ above ∨ part ∈ parts ∧ part ≠ ".." := by
  fun_induction settle above parts with
  | case1 => exact .inl (Option.some.inj settles ▸ member)
  | case2 => contradiction
  | case3 rest last above ih =>
    exact (ih settles).imp (List.mem_cons_of_mem _) fun ⟨inside, other⟩ =>
      ⟨List.mem_cons_of_mem _ inside, other⟩
  | case4 above first rest other ih =>
    rcases ih settles with before | ⟨inside, level⟩
    · obtain rfl | before := List.mem_cons.1 before
      · exact .inr ⟨List.mem_cons_self, fun same => other same⟩
      · exact .inl before
    · exact .inr ⟨List.mem_cons_of_mem _ inside, level⟩

theorem place?_eq_some : name.place? = some place ↔
    name.start = .here ∧ settle [] name.parts = some place.reverse := by
  unfold place?
  split
  · next here => simp [here, Option.map_eq_some_iff, List.reverse_eq_iff]
  · next away => simp [away]

/-- No part of a place takes back another one. -/
theorem notMem_of_place? (found : name.place? = some place) : ".." ∉ place := fun member =>
  match mem_of_settle (place?_eq_some.1 found).2 (List.mem_reverse.2 member) with
  | .inl before => nomatch before
  | .inr ⟨_, level⟩ => level rfl

theorem plain_of_place? (plain : Plain name.parts) (found : name.place? = some place) :
    Plain place := fun part member =>
  match mem_of_settle (place?_eq_some.1 found).2 (List.mem_reverse.2 member) with
  | .inl before => nomatch before
  | .inr ⟨inside, _⟩ => plain part inside

theorem settled_of_place? (found : name.place? = some place) : name.settled = ⟨.here, place⟩ := by
  rw [settled, found]

theorem place?_of_notMem (level : ".." ∉ place) : place? ⟨.here, place⟩ = some place := by
  rw [place?_eq_some]
  exact ⟨rfl, by rw [settle_of_notMem level, List.append_nil]⟩

/-- A settled name leads to the same place. -/
theorem place?_settled (name : FileName) : name.settled.place? = name.place? := by
  cases found : name.place? with
  | none => rw [settled, found, found]
  | some place => rw [settled_of_place? found, place?_of_notMem (notMem_of_place? found)]

/-- Settled names that lead to one place are one name. -/
theorem settled_eq_of_place? (found : name.settled.place? = some place) :
    name.settled = ⟨.here, place⟩ :=
  settled_of_place? (name.place?_settled ▸ found)

end FileName

/-! ### Walking -/

namespace Folder

variable {folder later : Folder} {name : FileName} {text : String} {parts place other : List String}
  {part : String} {contents old : Contents} {spot next : Spot}

theorem get?_put_of_ne (different : other ≠ place) :
    (folder.put place contents).get? other = folder.get? other := by
  obtain ⟨files, made⟩ := folder
  simp only [put, get?]
  congr 1
  induction files with
  | nil => simp [put.go, different.symm]
  | cons file rest ih =>
    rw [put.go]
    split
    · next same => simp [different.symm, same]
    · rw [List.find?_cons, List.find?_cons, ih]

/-! ### Walking -/

theorem step?_of_step (stepped : step name spot part = .ok next) : spot.step? part = some next := by
  unfold step at stepped
  split at stepped
  · contradiction
  · split at stepped
    · next found => exact found.trans (congrArg some (Except.ok.inj stepped))
    · contradiction

theorem step?_around (stepped : Spot.step? .around part = some spot) : spot = .around := by
  unfold Spot.step? at stepped
  split at stepped <;> simp_all

/-- A double dot takes back the last part of a place, and leads out where there is none. -/
theorem step?_inside (stepped : Spot.step? (.inside other) part = some spot) :
    part = ".." ∧ (other = [] ∧ spot = .around ∨ other ≠ [] ∧ spot = .inside other.dropLast) ∨
      part ≠ ".." ∧ spot = .inside (other ++ [part]) := by
  unfold Spot.step? at stepped
  split at stepped <;> simp_all

/-- The parts were followed to a place as if they took each other back. -/
theorem settle_of_follow (walked : folder.follow name spot parts = .ok (.inside place)) :
    ∃ other, spot = .inside other ∧ FileName.settle other.reverse parts = some place.reverse := by
  induction parts generalizing spot with
  | nil =>
    obtain rfl := Except.ok.inj walked
    exact ⟨place, rfl, rfl⟩
  | cons part rest ih =>
    rw [follow] at walked
    split at walked
    · contradiction
    · contradiction
    · split at walked
      · next next stepped =>
        obtain ⟨other, rfl, settles⟩ := ih walked
        have moved := step?_of_step stepped
        cases spot with
        | around => exact nomatch step?_around moved
        | inside before =>
          refine ⟨before, rfl, ?_⟩
          obtain ⟨rfl, ⟨-, out⟩ | ⟨some, same⟩⟩ | ⟨level, same⟩ := step?_inside moved
          · exact nomatch out
          · obtain rfl := Spot.inside.inj same
            obtain ⟨front, last, rfl⟩ := (List.eq_nil_or_concat before).resolve_left some
            simpa [FileName.settle] using settles
          · obtain rfl := Spot.inside.inj same
            rw [FileName.settle]
            · simpa using settles
            · exact level
      · contradiction

/-- **Where a name leads can be told from its parts.** -/
theorem place?_of_walk (walked : folder.walk name = .ok (.inside place)) :
    name.place? = some place := by
  unfold walk at walked
  split at walked
  · contradiction
  · obtain ⟨other, start, settles⟩ := settle_of_follow walked
    unfold startOf at start
    split at start
    · next here =>
      obtain rfl := Spot.inside.inj start
      exact FileName.place?_eq_some.2 ⟨here, settles⟩
    · contradiction

/-! ### Reading and writing -/

/-- A file that is read is where its name leads. -/
theorem get?_of_read (found : name.place? = some place) (given : folder.read name = .ok text) :
    ∃ contents, folder.get? place = some contents ∧ contents.read = .ok text := by
  unfold read at given
  split at given
  · contradiction
  · next spot walked =>
    split at given
    · next inside entry =>
      obtain rfl := Option.some.inj (found.symm.trans (place?_of_walk walked))
      split at given
      · next contents held => exact ⟨contents, held, mapError_eq_ok.1 given⟩
      · contradiction
    · contradiction
    · contradiction

theorem place?_of_target (found : folder.target name = .ok place) : name.place? = some place := by
  unfold target at found
  split at found
  · contradiction
  · contradiction
  · next inside walked =>
    split at found
    · contradiction
    · exact Except.ok.inj found ▸ place?_of_walk walked

/-- A text is written behind the file that the name leads to, and no other file. -/
theorem get?_append_of_ne (different : name.place? ≠ some place) :
    (folder.append name text).1.get? place = folder.get? place := by
  unfold append
  split
  · next target found =>
    exact get?_put_of_ne fun same => different (same ▸ place?_of_target found)
  · rfl

/-- Nothing is written behind a file. -/
theorem get?_append_empty (held : folder.get? place = some old) :
    (folder.append name "").1.get? place = some old := by
  by_cases same : name.place? = some place
  · unfold append
    split
    · next target found =>
      obtain rfl := Option.some.inj (same.symm.trans (place?_of_target found))
      rw [get?_put, held]
      cases old <;> simp [Contents.append]
    · exact held
  · rw [get?_append_of_ne same, held]

/-- Folders are made down to the place. -/
theorem eq_of_makeFollowing (level : ".." ∉ parts)
    (made : makeFollowing name folder (.inside other) parts = (later, .ok spot)) :
    spot = .inside (other ++ parts) := by
  induction parts generalizing folder other with
  | nil =>
    rw [makeFollowing] at made
    split at made
    · exact nomatch (Prod.mk.inj made).2
    · rw [List.append_nil, ← Except.ok.inj (Prod.mk.inj made).2]
  | cons part rest ih =>
    rw [makeFollowing] at made
    split at made
    · exact nomatch (Prod.mk.inj made).2
    · split at made
      · next next stepped =>
        have level := not_or.1 (mt List.mem_cons.2 level)
        obtain ⟨dots, -⟩ | ⟨-, rfl⟩ := step?_inside (step?_of_step stepped)
        · exact absurd dots.symm level.1
        · rw [ih level.2 made, List.append_assoc, List.singleton_append]
      · exact nomatch (Prod.mk.inj made).2

/-- A file can be put at a place that is no folder, one step away with a part of its own. -/
theorem of_targetIn {margin : Nat} {bare : FileError}
    (found : folder.targetIn margin bare name spot = .ok place) :
    holdsNull name.last = false ∧ name.text.utf8ByteSize ≤ nameLimit ∧
      name.last ≠ "" ∧ name.last ≠ ".." ∧ step name spot name.last = .ok (.inside place) ∧
        folder.entryAt (.inside place) ≠ .folder := by
  unfold targetIn at found
  split at found
  · contradiction
  next null =>
  split at found
  · contradiction
  next short =>
  split at found
  · contradiction
  next own =>
  split at found
  · contradiction
  next small =>
  split at found
  · next target stepped =>
    split at found
    · contradiction
    · next free =>
      obtain rfl := Except.ok.inj found
      obtain ⟨some, level⟩ : name.last ≠ "" ∧ name.last ≠ ".." := by simpa [isBare] using own
      refine ⟨by simpa using null, by omega, some, level, ?_, free⟩
      rw [step, if_neg (by omega), stepped]
  · contradiction

/-- The place in a folder for a file is its last part behind that of the folder. -/
theorem eq_of_targetIn {margin : Nat} {bare : FileError} {target : List String}
    (found : folder.targetIn margin bare name (.inside other) = .ok target) :
    name.last ≠ "" ∧ target = other ++ [name.last] := by
  obtain ⟨-, -, some, level, stepped, -⟩ := of_targetIn found
  obtain ⟨dots, -⟩ | ⟨-, same⟩ := step?_inside (step?_of_step stepped)
  · exact absurd dots level
  · exact ⟨some, Spot.inside.inj same⟩

/-- What a file is replaced with is at its place. -/
theorem get?_of_replace (level : ".." ∉ place)
    (replaced : folder.replace ⟨.here, place⟩ text = (later, .ok ())) :
    later.get? place = some (.text text) := by
  unfold replace putDeep at replaced
  split at replaced
  · exact nomatch (Prod.mk.inj replaced).2
  · next made spot follows =>
    split at replaced
    · next target found =>
      obtain rfl : spot = .inside place.dropLast := by
        unfold makeFolders at follows
        split at follows
        · exact nomatch (Prod.mk.inj follows).2
        · exact eq_of_makeFollowing (fun member => level (List.mem_of_mem_dropLast member)) follows
      obtain ⟨own, rfl⟩ := eq_of_targetIn found
      obtain rfl | ⟨front, last, rfl⟩ := List.eq_nil_or_concat place
      · exact absurd rfl own
      · obtain rfl := (Prod.mk.inj replaced).1
        simpa [FileName.last] using get?_put made (front ++ [last]) (.text text)
    · exact nomatch (Prod.mk.inj replaced).2

end Folder

end Verbatim
