import Verbatim.Source.Token

/-!
# Reading words

A text is a row of words with blank text before, between and behind them: spaces, line ends and
comments, which run from `//` to the end of the line. Reading goes from left to right and takes the
longest word at each place. It stops at a character that starts no word.

## Main definitions

* `Lexed`: the blank text in front, the words, and where reading stopped
* `lex`: read a text under an expectation

## Main results

* `takeGap_append`: blank text and rest make up the input
* `takeToken_append`, `takeToken_ne_nil`: a word is not empty, and word and rest make up the input
-/

namespace Verbatim

/-! ### Blank text -/

/-- The characters that separate words. -/
def isSpace (c : Char) : Bool :=
  c = ' ' || c = '\t' || c = '\x0c' || c = '\r' || c = '\n'

/-- Split off the blank text in front. The flag says whether a comment has begun. -/
def takeGap : Bool → List Char → List Char × List Char
  | _, [] => ([], [])
  | true, c :: rest =>
    let (gap, words) := takeGap (c != '\n') rest
    (c :: gap, words)
  | false, c :: rest =>
    if isSpace c then
      let (gap, words) := takeGap false rest
      (c :: gap, words)
    else if c = '/' ∧ rest.head? = some '/' then
      let (gap, words) := takeGap true rest
      (c :: gap, words)
    else ([], c :: rest)

theorem takeGap_append (comment : Bool) (chars : List Char) :
    (takeGap comment chars).1 ++ (takeGap comment chars).2 = chars := by
  induction chars generalizing comment with
  | nil => cases comment <;> rfl
  | cons c rest ih => cases comment <;> grind [takeGap]

/-! ### Words -/

/-- The letters that start a name, and the underscore. -/
def isNameStart (c : Char) : Bool :=
  c.isAlpha || c = '_'

/-- The characters of a name behind the first one. -/
def isNameChar (c : Char) : Bool :=
  c.isAlphanum || c = '_'

/-- Split off the rest of a string literal, its closing quote included. A backslash takes the next
character with it, and no line feed is allowed. -/
def takeString : List Char → Option (List Char × List Char)
  | [] => none
  | '"' :: rest => some (['"'], rest)
  | '\\' :: c :: rest =>
    if c = '\n' then none
    else
      match takeString rest with
      | some (body, tail) => some ('\\' :: c :: body, tail)
      | none => none
  | c :: rest =>
    if c = '\n' ∨ c = '\\' then none
    else
      match takeString rest with
      | some (body, tail) => some (c :: body, tail)
      | none => none

/-- Split off a number: digits, and a point with digits behind it. -/
def takeNumber (chars : List Char) : List Char × List Char :=
  let whole := chars.takeWhile Char.isDigit
  match chars.dropWhile Char.isDigit with
  | '.' :: d :: rest =>
    if d.isDigit then
      (whole ++ '.' :: (d :: rest).takeWhile Char.isDigit, (d :: rest).dropWhile Char.isDigit)
    else (whole, '.' :: d :: rest)
  | rest => (whole, rest)

/-- The sign of one or two characters in front, the longer one first. -/
def takeSign (expectation : Expectation) : List Char →
    Option (TokenKind × List Char × List Char)
  | '|' :: '|' :: rest => some (.orOp, ['|', '|'], rest)
  | '&' :: '&' :: rest => some (.andOp, ['&', '&'], rest)
  | '=' :: '=' :: rest =>
    if expectation.splitsEquals then some (.equals, ['='], '=' :: rest)
    else some (.equalityOp, ['=', '='], rest)
  | '!' :: '=' :: rest =>
    if expectation.splitsBang then some (.bang, ['!'], '=' :: rest)
    else some (.equalityOp, ['!', '='], rest)
  | '<' :: '=' :: rest => some (.relationOp, ['<', '='], rest)
  | '>' :: '=' :: rest => some (.relationOp, ['>', '='], rest)
  | '<' :: rest => some (.relationOp, ['<'], rest)
  | '>' :: rest => some (.relationOp, ['>'], rest)
  | '=' :: rest => some (.equals, ['='], rest)
  | '!' :: rest => some (.bang, ['!'], rest)
  | '+' :: rest => some (.plus, ['+'], rest)
  | '-' :: rest => some (.minus, ['-'], rest)
  | '*' :: rest => some (.productOp, ['*'], rest)
  | '/' :: rest => some (.productOp, ['/'], rest)
  | '%' :: rest => some (.productOp, ['%'], rest)
  | '(' :: rest => some (.leftParen, ['('], rest)
  | ')' :: rest => some (.rightParen, [')'], rest)
  | '\x7b' :: rest => some (.leftBrace, ['\x7b'], rest)
  | '\x7d' :: rest => some (.rightBrace, ['\x7d'], rest)
  | ';' :: rest => some (.semicolon, [';'], rest)
  | ',' :: rest => some (.comma, [','], rest)
  | _ => none

/-- Split off a word of letters: the keyword or name in front, or just its `if` where the
expectation cuts that off. -/
def takeWord (expectation : Expectation) (chars : List Char) :
    TokenKind × List Char × List Char :=
  match expectation.cutsIf, chars with
  | true, 'i' :: 'f' :: rest => (.ifWord, ['i', 'f'], rest)
  | _, _ =>
    let word := chars.takeWhile isNameChar
    (expectation.wordKind word, word, chars.dropWhile isNameChar)

/-- The word in front: its kind, its characters and what follows. `none` if the first character
starts no word. -/
def takeToken (expectation : Expectation) (chars : List Char) :
    Option (TokenKind × List Char × List Char) :=
  match chars with
  | [] => none
  | c :: rest =>
    if isNameStart c then some (takeWord expectation (c :: rest))
    else if c.isDigit then
      let (number, tail) := takeNumber (c :: rest)
      some (.number, number, tail)
    else if c = '"' then
      match takeString rest with
      | some (body, tail) => some (.string, '"' :: body, tail)
      | none => none
    else takeSign expectation (c :: rest)

/-! ### Word and rest make up the input -/

theorem takeString_append {chars body rest : List Char} (h : takeString chars = some (body, rest)) :
    body ++ rest = chars := by
  fun_induction takeString chars generalizing body rest <;> grind

theorem takeNumber_append (chars : List Char) :
    (takeNumber chars).1 ++ (takeNumber chars).2 = chars := by
  have join := List.takeWhile_append_dropWhile (p := Char.isDigit) (l := chars)
  unfold takeNumber
  split
  · next d rest h =>
    have again := List.takeWhile_append_dropWhile (p := Char.isDigit) (l := d :: rest)
    rw [h] at join
    split
    · simp only [List.append_assoc, List.cons_append, again, join]
    · exact join
  · exact join

theorem takeSign_append {expectation : Expectation} {chars word rest : List Char}
    {kind : TokenKind} (h : takeSign expectation chars = some (kind, word, rest)) :
    word ++ rest = chars := by
  unfold takeSign at h
  grind

theorem takeWord_append (expectation : Expectation) (chars : List Char) :
    (takeWord expectation chars).2.1 ++ (takeWord expectation chars).2.2 = chars := by
  unfold takeWord
  split
  · rfl
  · exact List.takeWhile_append_dropWhile

theorem takeToken_append {expectation : Expectation} {chars word rest : List Char}
    {kind : TokenKind} (h : takeToken expectation chars = some (kind, word, rest)) :
    word ++ rest = chars := by
  cases chars with
  | nil => simp [takeToken] at h
  | cons c tail =>
    have letters := takeWord_append expectation (c :: tail)
    have number := takeNumber_append (c :: tail)
    have string := @takeString_append tail
    simp only [takeToken] at h
    split at h
    · grind
    · split at h
      · grind
      · split at h
        · grind
        · exact takeSign_append h

/-! ### Words are not empty -/

theorem takeWord_ne_nil (expectation : Expectation) {c : Char} (rest : List Char)
    (h : isNameStart c) : (takeWord expectation (c :: rest)).2.1 ≠ [] := by
  have start : isNameChar c := by
    simp only [isNameStart, isNameChar, Char.isAlphanum, Bool.or_eq_true] at h ⊢
    rcases h with h | h <;> simp [h]
  unfold takeWord
  split
  · simp
  · simp [start]

theorem takeNumber_ne_nil {c : Char} (rest : List Char) (h : c.isDigit) :
    (takeNumber (c :: rest)).1 ≠ [] := by
  have start : (c :: rest).takeWhile Char.isDigit ≠ [] := by simp [h]
  unfold takeNumber
  split
  · split
    · simp
    · exact start
  · exact start

theorem takeSign_ne_nil {expectation : Expectation} {chars word rest : List Char}
    {kind : TokenKind} (h : takeSign expectation chars = some (kind, word, rest)) : word ≠ [] := by
  unfold takeSign at h
  grind

theorem takeToken_ne_nil {expectation : Expectation} {chars word rest : List Char}
    {kind : TokenKind} (h : takeToken expectation chars = some (kind, word, rest)) :
    word ≠ [] := by
  cases chars with
  | nil => simp [takeToken] at h
  | cons c tail =>
    have letters := @takeWord_ne_nil expectation c tail
    have number := @takeNumber_ne_nil c tail
    simp only [takeToken] at h
    split at h
    · grind
    · split at h
      · grind
      · split at h
        · grind
        · exact takeSign_ne_nil h

/-! ### Whole texts -/

/-- What reading a text gives: the blank text in front, the words, and the character and place at
which reading stopped before the end. -/
structure Lexed where
  leading : String
  tokens : List Token
  stuck : Option (Char × Place)
  deriving DecidableEq, Repr

/-- Read words from a place that is not blank. -/
def lexTokens (expectation : Expectation) (place : Place) (chars : List Char) :
    List Token × Option (Char × Place) :=
  match _found : takeToken expectation chars with
  | none => ([], chars.head?.map (·, place))
  | some (kind, word, rest) =>
    let split := takeGap false rest
    let token : Token := ⟨kind, String.ofList word, String.ofList split.1, place⟩
    let later := lexTokens (expectation.after kind) ((place.after word).after split.1) split.2
    (token :: later.1, later.2)
termination_by chars.length
decreasing_by
  have shorter := congrArg List.length (takeToken_append _found)
  have gap := congrArg List.length (takeGap_append false rest)
  have long := List.length_pos_iff.2 (takeToken_ne_nil _found)
  simp only [List.length_append] at shorter gap
  omega

/-- Read a text. -/
def lex (expectation : Expectation) (text : String) : Lexed :=
  let split := takeGap false text.toList
  let read := lexTokens expectation (Place.start.after split.1) split.2
  ⟨String.ofList split.1, read.1, read.2⟩

end Verbatim
