import Verbatim.Proofs.Source.Lexemes
import Verbatim.Proofs.Source.Scanning

/-!
# Reading rows of words

A row of words is read back from its text if each word can be meant where it stands, and no word
runs into the next one. Both are settled between two words: by the expectation there, and by what
the end of the word in front asks for. So a row is cut at a *seam*, and rows with the same seam
between them go together.

## Main definitions

* `Seam`, `Seam.Takes`: a place between two words, and the words that can be read there
* `Flows`: the words lead from one place to another
* `Lexeme.Tidy`: a word with at most one space or line end behind it

## Main results

* `takeToken_append_of`: a word reads the same before whatever ends it
* `lex_of_flows`: a row of tidy words is read back from its text
-/

namespace Verbatim

/-! ### One word -/

namespace TokenKind

/-- The kinds of words that are written in letters or digits. -/
def isWordy : TokenKind → Bool
  | .name | .number | .trueWord | .falseWord | .ifWord | .elseWord | .whileWord | .returnWord
  | .createWord => true
  | _ => false

/-- The kinds of signs that an equals sign behind them can make longer. -/
def takesEquals : TokenKind → Bool
  | .relationOp | .equals | .bang => true
  | _ => false

/-- The keywords. -/
def isKeyword : TokenKind → Bool
  | .trueWord | .falseWord | .ifWord | .elseWord | .whileWord | .returnWord | .createWord => true
  | _ => false

/-- Whether a word of the kind ends where the given characters follow. -/
structure EndsAt (kind : TokenKind) (more : List Char) : Prop where
  wordy : kind.isWordy → EndsBefore isNameChar more ∧ EndsBefore (· == '.') more
  sign : kind.takesEquals → EndsBefore (· == '=') more

end TokenKind

/-- Whether the word is meant where the expectation holds. -/
def Expectation.Means (expectation : Expectation) (kind : TokenKind) (text : String) : Prop :=
  match kind with
  | .name => TokenKind.ofKeyword? text.toList = none ∧ expectation.cutsIf = false
  | .equalityOp => expectation.splitsEquals = false ∧ expectation.splitsBang = false
  | .trueWord | .falseWord | .ifWord | .elseWord | .whileWord | .returnWord | .createWord =>
    expectation.wordKind text.toList = kind ∧ (expectation.cutsIf → kind = .ifWord)
  | _ => True

theorem takeWord_plain {expectation : Expectation} {word more : List Char}
    (all : ∀ c ∈ word, isNameChar c) (ends : EndsBefore isNameChar more)
    (whole : expectation.cutsIf = false) :
    takeWord expectation (word ++ more) = (expectation.wordKind word, word, more) := by
  unfold takeWord
  split
  · next cuts _ => exact absurd (whole.symm.trans cuts) Bool.false_ne_true
  · rw [takeWhile_append_of_endsBefore all ends, dropWhile_append_of_endsBefore all ends]

theorem isNameChar_of_isNameStart {c : Char} (h : isNameStart c) : isNameChar c := by
  simp only [isNameStart, isNameChar, Char.isAlphanum, Bool.or_eq_true] at h ⊢
  rcases h with h | h <;> simp [h]

theorem isNameStart_of_isDigit {c : Char} (h : c.isDigit) : isNameStart c = false := by
  have few : c.toNat ≤ 57 := (Char.isDigit_iff_toNat.1 h).2
  have letter : c.isAlpha = false := by
    simp only [Char.isAlpha, Char.isUpper, Char.isLower, ge_iff_le, UInt32.le_iff_toNat_le,
      Char.toNat_val, Bool.or_eq_false_iff, Bool.and_eq_false_iff, decide_eq_false_iff_not]
    have upper : 'A'.toNat = 65 := rfl
    have lower : 'a'.toNat = 97 := rfl
    omega
  have underscore : c ≠ '_' := by
    rintro rfl
    exact absurd h (by decide)
  simp [isNameStart, letter, underscore]

theorem numberEnds_of_endsBefore {more : List Char} (letters : EndsBefore isNameChar more)
    (point : EndsBefore (· == '.') more) : NumberEnds more := by
  refine ⟨fun c member => ?_, fun d rest same => ?_⟩
  · have other := letters c member
    simp only [isNameChar, Char.isAlphanum, Bool.or_eq_false_iff] at other
    exact other.1.2
  · have isPoint := point '.' (by rw [same]; rfl)
    exact absurd isPoint (by decide)

theorem takeToken_letters {expectation : Expectation} {c : Char} {rest : List Char}
    (start : isNameStart c) :
    takeToken expectation (c :: rest) = some (takeWord expectation (c :: rest)) := by
  rw [takeToken, if_pos start]

/-- A keyword reads the same before whatever ends it. -/
theorem takeToken_keyword {expectation : Expectation} {kind : TokenKind} {text : String}
    {more : List Char} (keyword : kind.isKeyword) (spelled : kind.Spells text.toList)
    (meant : expectation.wordKind text.toList = kind ∧ (expectation.cutsIf → kind = .ifWord))
    (ends : EndsBefore isNameChar more) :
    takeToken expectation (text.toList ++ more) = some (kind, text.toList, more) := by
  have letters : ∃ c rest, text.toList = c :: rest ∧ isNameStart c ∧
      ∀ c ∈ text.toList, isNameChar c := by
    cases kind <;> simp [TokenKind.isKeyword] at keyword <;>
      simp only [TokenKind.Spells, TokenKind.spellings, List.mem_singleton,
        String.ofList_toList] at spelled <;>
      subst spelled <;> exact ⟨_, _, rfl, rfl, List.all_eq_true.1 rfl⟩
  obtain ⟨c, rest, same, start, all⟩ := letters
  have word : takeToken expectation (text.toList ++ more) =
      some (takeWord expectation (text.toList ++ more)) := by
    rw [same, List.cons_append, takeToken_letters start]
  rw [word]
  by_cases cuts : expectation.cutsIf
  · obtain rfl := meant.2 cuts
    simp only [TokenKind.Spells, TokenKind.spellings, List.mem_singleton,
      String.ofList_toList] at spelled
    subst spelled
    show some (takeWord expectation ('i' :: 'f' :: more)) = _
    rw [takeWord]
    · rfl
    · exact cuts
  · rw [takeWord_plain all ends (Bool.eq_false_iff.2 cuts), meant.1]

theorem not_equals_of_endsBefore {more : List Char} (h : EndsBefore (· == '=') more)
    (rest : List Char) (same : more = '=' :: rest) : False :=
  absurd (h '=' (by rw [same]; rfl)) (by decide)

/-- A word reads the same before whatever ends it. -/
theorem takeToken_append_of {expectation : Expectation} {kind : TokenKind} {text : String}
    {more : List Char} (spelled : kind.Spells text.toList) (meant : expectation.Means kind text)
    (ends : kind.EndsAt more) :
    takeToken expectation (text.toList ++ more) = some (kind, text.toList, more) := by
  cases kind with
  | name =>
    obtain ⟨c, rest, same, start, all⟩ := spelled
    obtain ⟨noKeyword, whole⟩ := meant
    have each : ∀ d ∈ text.toList, isNameChar d := by
      rw [same, List.forall_mem_cons]
      exact ⟨isNameChar_of_isNameStart start, List.all_eq_true.1 all⟩
    have split := @takeWord_plain _ _ more each (ends.wordy rfl).1 whole
    rw [Expectation.wordKind, noKeyword] at split
    rw [same, List.cons_append] at split ⊢
    rw [takeToken_letters start, split]
  | number =>
    obtain ⟨c, rest, same, digit, whole⟩ := spelled
    have split := takeNumber_append_of whole
      (numberEnds_of_endsBefore (ends.wordy rfl).1 (ends.wordy rfl).2)
    rw [same, List.cons_append] at split ⊢
    simp only [takeToken, isNameStart_of_isDigit digit, digit, split, if_true]
    rfl
  | string =>
    obtain ⟨body, same, whole⟩ := spelled
    have split := takeString_append_of whole more
    rw [same, List.cons_append, takeToken, if_neg (by decide), if_neg (by decide), if_pos rfl]
    simp only [split]
  | trueWord => exact takeToken_keyword rfl spelled meant (ends.wordy rfl).1
  | falseWord => exact takeToken_keyword rfl spelled meant (ends.wordy rfl).1
  | ifWord => exact takeToken_keyword rfl spelled meant (ends.wordy rfl).1
  | elseWord => exact takeToken_keyword rfl spelled meant (ends.wordy rfl).1
  | whileWord => exact takeToken_keyword rfl spelled meant (ends.wordy rfl).1
  | returnWord => exact takeToken_keyword rfl spelled meant (ends.wordy rfl).1
  | createWord => exact takeToken_keyword rfl spelled meant (ends.wordy rfl).1
  | equalityOp =>
    obtain ⟨noEquals, noBang⟩ := meant
    simp only [TokenKind.Spells, TokenKind.spellings, List.mem_cons, List.not_mem_nil, or_false,
      String.ofList_toList] at spelled
    rcases spelled with rfl | rfl
    · show takeSign expectation ('=' :: '=' :: more) = _
      rw [takeSign, noEquals]
      rfl
    · show takeSign expectation ('!' :: '=' :: more) = _
      rw [takeSign, noBang]
      rfl
  | relationOp =>
    have single := not_equals_of_endsBefore (ends.sign rfl)
    simp only [TokenKind.Spells, TokenKind.spellings, List.mem_cons, List.not_mem_nil, or_false,
      String.ofList_toList] at spelled
    rcases spelled with rfl | rfl | rfl | rfl
    · show takeSign expectation ('<' :: more) = _
      rw [takeSign]
      · rfl
      · exact single
    · rfl
    · show takeSign expectation ('>' :: more) = _
      rw [takeSign]
      · rfl
      · exact single
    · rfl
  | equals =>
    simp only [TokenKind.Spells, TokenKind.spellings, List.mem_singleton,
      String.ofList_toList] at spelled
    subst spelled
    show takeSign expectation ('=' :: more) = _
    rw [takeSign]
    · rfl
    · exact not_equals_of_endsBefore (ends.sign rfl)
  | bang =>
    simp only [TokenKind.Spells, TokenKind.spellings, List.mem_singleton,
      String.ofList_toList] at spelled
    subst spelled
    show takeSign expectation ('!' :: more) = _
    rw [takeSign]
    · rfl
    · exact not_equals_of_endsBefore (ends.sign rfl)
  | _ =>
    simp only [TokenKind.Spells, TokenKind.spellings, List.mem_cons, List.not_mem_nil, or_false,
      String.ofList_toList] at spelled
    rcases spelled with rfl | rfl | rfl <;> rfl

/-! ### Rows of words -/

/-- What the end of a word asks of the word behind it. -/
inductive Edge where
  /-- Nothing, since there is blank text between them or no word can go on. -/
  | free
  /-- No letter or digit. -/
  | letters
  /-- No equals sign. -/
  | sign
  deriving DecidableEq, Repr

/-- Whether a word of the kind can stand behind the edge. -/
def Edge.admits : Edge → TokenKind → Bool
  | .free, _ => true
  | .letters, kind => !kind.isWordy
  | .sign, kind => kind ≠ .equals && kind ≠ .equalityOp

namespace Lexeme

/-- What the end of the word asks of the next one. -/
def edge (word : Lexeme) : Edge :=
  if word.gap = "" then
    if word.kind.isWordy then .letters else if word.kind.takesEquals then .sign else .free
  else .free

/-- A well spelled word with at most one space or line end behind it. A sign that could begin a
comment has one. -/
structure Tidy (word : Lexeme) : Prop where
  spelled : word.kind.Spells word.text.toList
  gap : word.gap = "" ∨ word.gap = " " ∨ word.gap = "\n"
  apart : word.kind = .productOp → word.gap ≠ ""

end Lexeme

/-- A place between words: what can stand there, and what the word in front asks for. -/
structure Seam where
  expectation : Expectation
  edge : Edge
  deriving DecidableEq, Repr

/-- The place behind a word. -/
def Seam.after (seam : Seam) (word : Lexeme) : Seam :=
  ⟨seam.expectation.after word.kind, word.edge⟩

/-- Whether a word can be read at a place. -/
structure Seam.Takes (seam : Seam) (word : Lexeme) : Prop where
  tidy : word.Tidy
  meant : seam.expectation.Means word.kind word.text
  admitted : seam.edge.admits word.kind

/-- The words lead from one place to another, and each can be read where it stands. -/
inductive Flows : Seam → List Lexeme → Seam → Prop
  | nil (seam : Seam) : Flows seam [] seam
  | cons {seam final : Seam} {word : Lexeme} {rest : List Lexeme} (takes : seam.Takes word)
      (later : Flows (seam.after word) rest final) : Flows seam (word :: rest) final

theorem Flows.append {start middle final : Seam} {first second : List Lexeme}
    (h : Flows start first middle) (h' : Flows middle second final) :
    Flows start (first ++ second) final := by
  induction h with
  | nil => exact h'
  | cons takes _ ih => exact .cons takes (ih h')

theorem Flows.one {seam : Seam} {word : Lexeme} (takes : seam.Takes word) :
    Flows seam [word] (seam.after word) :=
  .cons takes (.nil _)

/-! ### Reading rows of words -/

/-- What the first character of a word says. -/
structure FirstOf (kind : TokenKind) (c : Char) : Prop where
  space : isSpace c = false
  slash : c = '/' → kind = .productOp
  letter : isNameChar c → kind.isWordy
  point : c ≠ '.'
  equals : c = '=' → kind = .equals ∨ kind = .equalityOp

theorem firstOf_wordy {kind : TokenKind} {c : Char} (wordy : kind.isWordy) (h : isNameChar c) :
    FirstOf kind c := by
  refine ⟨?_, ?_, fun _ => wordy, ?_, ?_⟩
  · rw [Bool.eq_false_iff]
    intro space
    simp only [isSpace, Bool.or_eq_true, decide_eq_true_eq] at space
    rcases space with (((rfl | rfl) | rfl) | rfl) | rfl <;> exact absurd h (by decide)
  all_goals
    rintro rfl
    exact absurd h (by decide)

theorem TokenKind.firstOf_of_spells {kind : TokenKind} {text : String}
    (spelled : kind.Spells text.toList) : ∃ c rest, text.toList = c :: rest ∧ FirstOf kind c := by
  cases kind with
  | name =>
    obtain ⟨c, rest, same, start, -⟩ := spelled
    exact ⟨c, rest, same, firstOf_wordy rfl (isNameChar_of_isNameStart start)⟩
  | number =>
    obtain ⟨c, rest, same, digit, -⟩ := spelled
    exact ⟨c, rest, same, firstOf_wordy rfl (by simp [isNameChar, Char.isAlphanum, digit])⟩
  | string =>
    obtain ⟨body, same, -⟩ := spelled
    exact ⟨'"', body, same, by decide, by decide, by decide, by decide, by decide⟩
  | _ =>
    simp only [TokenKind.Spells, TokenKind.spellings, List.mem_cons, List.not_mem_nil, or_false,
      String.ofList_toList] at spelled
    rcases spelled with rfl | rfl | rfl | rfl <;> refine ⟨_, _, rfl, ?_⟩ <;>
      exact ⟨by decide, by decide, by decide, by decide, by decide⟩

/-- What stands behind a place is nothing or starts as a word that can stand there. -/
theorem Flows.firstOf {seam final : Seam} {words : List Lexeme} (h : Flows seam words final) :
    ∀ c ∈ (written words).toList.head?, ∃ kind, seam.edge.admits kind ∧ FirstOf kind c := by
  intro c member
  cases h with
  | nil => exact absurd member (Option.not_mem_none c)
  | @cons _ _ word rest takes later =>
    obtain ⟨first, tail, same, tells⟩ := TokenKind.firstOf_of_spells takes.tidy.spelled
    rw [written_cons, String.toList_append, String.toList_append, same] at member
    obtain rfl := Option.some.inj member
    exact ⟨word.kind, takes.admitted, tells⟩

/-- A word ends where the next one can be read. -/
theorem Flows.endsAt {seam final : Seam} {word : Lexeme} {rest : List Lexeme}
    (h : Flows (seam.after word) rest final) (tidy : word.Tidy) :
    word.kind.EndsAt (word.gap.toList ++ (written rest).toList) := by
  have first := h.firstOf
  rcases tidy.gap with none | space | line
  · rw [none]
    refine ⟨fun wordy => ?_, fun takes => ?_⟩
    · have edge : (seam.after word).edge = .letters := by
        rw [Seam.after, Lexeme.edge, if_pos none, if_pos wordy]
      rw [edge] at first
      constructor
      · intro c member
        obtain ⟨kind, admitted, tells⟩ := first c member
        rw [Bool.eq_false_iff]
        intro letter
        simp [Edge.admits, tells.letter letter] at admitted
      · intro c member
        obtain ⟨kind, -, tells⟩ := first c member
        exact beq_eq_false_iff_ne.2 tells.point
    · have sign : word.kind.isWordy = false := by
        cases kind : word.kind <;> simp_all [TokenKind.takesEquals, TokenKind.isWordy]
      have edge : (seam.after word).edge = .sign := by
        rw [Seam.after, Lexeme.edge, if_pos none, if_neg (by simp [sign]), if_pos takes]
      rw [edge] at first
      intro c member
      obtain ⟨kind, admitted, tells⟩ := first c member
      refine beq_eq_false_iff_ne.2 fun equals => ?_
      rcases tells.equals equals with rfl | rfl <;> simp [Edge.admits] at admitted
  · rw [space]
    refine ⟨fun _ => ⟨?_, ?_⟩, fun _ => ?_⟩ <;> rintro c member <;>
      obtain rfl := Option.some.inj member <;> decide
  · rw [line]
    refine ⟨fun _ => ⟨?_, ?_⟩, fun _ => ?_⟩ <;> rintro c member <;>
      obtain rfl := Option.some.inj member <;> decide

theorem takeGap_space {c : Char} {rest : List Char} (space : isSpace c)
    (word : takeGap false rest = ([], rest)) : takeGap false (c :: rest) = ([c], rest) := by
  rw [takeGap, if_pos space, word]

/-- A tidy word begins no comment. -/
theorem Lexeme.Tidy.takeGap_eq {word : Lexeme} (h : word.Tidy) (behind : List Char) :
    takeGap false (word.text.toList ++ word.gap.toList ++ behind) =
      ([], word.text.toList ++ word.gap.toList ++ behind) := by
  obtain ⟨c, rest, same, tells⟩ := TokenKind.firstOf_of_spells h.spelled
  rw [same]
  refine bare_iff.2 ⟨tells.space, fun slash => ?_⟩
  have product := tells.slash slash
  have short : rest = [] := by
    have spelled := h.spelled
    rw [product] at spelled
    simp only [TokenKind.Spells, TokenKind.spellings, List.mem_cons, List.not_mem_nil, or_false,
      String.ofList_toList] at spelled
    rcases spelled with text | text | text <;> rw [text] at same <;>
      exact (List.cons.inj same).2.symm
  rw [short]
  rcases h.gap with none | space | line
  · exact absurd none (h.apart product)
  · rw [space]
    exact fun equal => absurd (Option.some.inj equal) (by decide)
  · rw [line]
    exact fun equal => absurd (Option.some.inj equal) (by decide)

/-- The blank text behind a word ends where the next one can be read. -/
theorem Flows.takeGap_eq {seam final : Seam} {rest : List Lexeme} {gap : String}
    (h : Flows seam rest final) (few : gap = "" ∨ gap = " " ∨ gap = "\n") :
    takeGap false (gap.toList ++ (written rest).toList) = (gap.toList, (written rest).toList) := by
  have word : takeGap false (written rest).toList = ([], (written rest).toList) := by
    cases h with
    | nil => rfl
    | @cons _ _ word rest takes later =>
      rw [written_cons, String.toList_append, String.toList_append]
      exact takes.tidy.takeGap_eq _
  rcases few with rfl | rfl | rfl
  · exact word
  · exact takeGap_space rfl word
  · exact takeGap_space rfl word

/-- Rows of tidy words are scanned. -/
theorem Flows.scans {seam final : Seam} {words : List Lexeme} (h : Flows seam words final) :
    Scans seam.expectation words [] := by
  induction h with
  | nil seam => exact .nil _ _
  | @cons seam final word rest takes later ih =>
    refine .cons ⟨?_, ?_⟩ ih
    · rw [List.append_nil, List.append_assoc]
      exact takeToken_append_of takes.tidy.spelled takes.meant (later.endsAt takes.tidy)
    · rw [List.append_nil]
      exact later.takeGap_eq takes.tidy.gap

/-- A text of tidy words, none of which stands in front, is read as these words. -/
theorem lex_of_flows {seam final : Seam} {words : List Lexeme} (h : Flows seam words final) :
    (lex seam.expectation (written words)).leading = "" ∧
      (lex seam.expectation (written words)).tokens.map Token.lexeme = words ∧
        (lex seam.expectation (written words)).stuck = none := by
  have word := h.takeGap_eq (.inl rfl)
  rw [String.toList_empty, List.nil_append] at word
  rw [lex, word]
  exact ⟨rfl, h.scans.lexTokens_eq _⟩

end Verbatim
