import Mathlib
import Verbatim.Source.Lexer

/-!
# Spellings

What a word of each kind looks like, and that reading gives no other words. A keyword or a sign has
a few fixed texts; a name, a number and a string follow a pattern. Places play no part in what the
words say, so they are left out of a *lexeme*.

## Main definitions

* `TokenKind.Spells`: the texts of each kind of word
* `TokenKind.ofText`: the kind that a text has where it is no name
* `Lexeme`, `written`: words without their places, and the text they make up

## Main results

* `takeToken_spells`: every word is spelled as its kind asks
* `lex_spelled`, `lex_written`: the same for whole texts, of which nothing is lost
-/

namespace Verbatim

namespace TokenKind

/-- The texts of a kind that has only a few. -/
def spellings : TokenKind → List String
  | .orOp => ["||"]
  | .andOp => ["&&"]
  | .equalityOp => ["==", "!="]
  | .relationOp => ["<", "<=", ">", ">="]
  | .plus => ["+"]
  | .minus => ["-"]
  | .productOp => ["*", "/", "%"]
  | .bang => ["!"]
  | .trueWord => ["true"]
  | .falseWord => ["false"]
  | .ifWord => ["if"]
  | .elseWord => ["else"]
  | .whileWord => ["while"]
  | .returnWord => ["return"]
  | .createWord => ["create"]
  | .leftParen => ["("]
  | .rightParen => [")"]
  | .leftBrace => ["\x7b"]
  | .rightBrace => ["\x7d"]
  | .equals => ["="]
  | .semicolon => [";"]
  | .comma => [","]
  | .name | .number | .string => []

/-- Whether a text is a word of the kind. -/
def Spells (kind : TokenKind) (text : List Char) : Prop :=
  match kind with
  | .name => ∃ c rest, text = c :: rest ∧ isNameStart c ∧ rest.all isNameChar
  | .number => ∃ c rest, text = c :: rest ∧ c.isDigit ∧ takeNumber text = (text, [])
  | .string => ∃ body, text = '"' :: body ∧ takeString body = some (body, [])
  | kind => String.ofList text ∈ kind.spellings

/-- The kind of a word that is no name. -/
def ofText (text : String) : TokenKind :=
  match text with
  | "||" => .orOp
  | "&&" => .andOp
  | "==" | "!=" => .equalityOp
  | "<" | "<=" | ">" | ">=" => .relationOp
  | "+" => .plus
  | "-" => .minus
  | "*" | "/" | "%" => .productOp
  | "!" => .bang
  | "true" => .trueWord
  | "false" => .falseWord
  | "if" => .ifWord
  | "else" => .elseWord
  | "while" => .whileWord
  | "return" => .returnWord
  | "create" => .createWord
  | "(" => .leftParen
  | ")" => .rightParen
  | "\x7b" => .leftBrace
  | "\x7d" => .rightBrace
  | "=" => .equals
  | ";" => .semicolon
  | "," => .comma
  | text => if text.toList.head? = some '"' then .string else .number

end TokenKind

/-! ### One word -/

/-- Whether a row of characters of a class ends before the given characters. -/
def EndsBefore (class? : Char → Bool) (more : List Char) : Prop :=
  ∀ c ∈ more.head?, class? c = false

theorem takeWhile_append_of_endsBefore {class? : Char → Bool} {chars more : List Char}
    (all : ∀ c ∈ chars, class? c) (ends : EndsBefore class? more) :
    (chars ++ more).takeWhile class? = chars := by
  rw [List.takeWhile_append_of_pos all]
  cases more with
  | nil => simp
  | cons c rest => simp [ends c rfl]

theorem dropWhile_append_of_endsBefore {class? : Char → Bool} {chars more : List Char}
    (all : ∀ c ∈ chars, class? c) (ends : EndsBefore class? more) :
    (chars ++ more).dropWhile class? = more := by
  rw [List.dropWhile_append_of_pos all]
  cases more with
  | nil => rfl
  | cons c rest => simp [ends c rfl]

/-- Whether a number ends before the given characters. -/
def NumberEnds (more : List Char) : Prop :=
  EndsBefore Char.isDigit more ∧ ∀ d rest, more = '.' :: d :: rest → d.isDigit = false

theorem numberEnds_nil : NumberEnds [] :=
  ⟨by simp [EndsBefore], by simp⟩

/-- Digits with nothing behind them that goes on with the number. -/
theorem takeNumber_whole {whole more : List Char} (all : ∀ c ∈ whole, c.isDigit)
    (ends : NumberEnds more) : takeNumber (whole ++ more) = (whole, more) := by
  unfold takeNumber
  rw [dropWhile_append_of_endsBefore all ends.1, takeWhile_append_of_endsBefore all ends.1]
  split
  · next d rest =>
    rw [if_neg]
    simp [ends.2 d rest rfl]
  · rfl

/-- Digits, a point and further digits. -/
theorem takeNumber_point {whole fraction more : List Char} {d : Char}
    (all : ∀ c ∈ whole, c.isDigit) (behind : ∀ c ∈ d :: fraction, c.isDigit)
    (ends : EndsBefore Char.isDigit more) :
    takeNumber (whole ++ '.' :: d :: fraction ++ more) = (whole ++ '.' :: d :: fraction, more) := by
  have point : EndsBefore Char.isDigit ('.' :: d :: fraction ++ more) := by
    intro c hc
    obtain rfl : '.' = c := by simpa using hc
    decide
  unfold takeNumber
  rw [List.append_assoc, dropWhile_append_of_endsBefore all point,
    takeWhile_append_of_endsBefore all point]
  have digit : d.isDigit := behind d (by simp)
  have front := takeWhile_append_of_endsBefore behind ends
  have rest := dropWhile_append_of_endsBefore behind ends
  simp only [List.cons_append] at front rest ⊢
  simp only [digit, if_true, front, rest]

/-- A number reads the same before whatever ends it. -/
theorem takeNumber_append_of {chars number rest : List Char} (h : takeNumber chars = (number, rest))
    {more : List Char} (ends : NumberEnds more) :
    takeNumber (number ++ more) = (number, more) := by
  have digits : ∀ cs : List Char, ∀ c ∈ cs.takeWhile Char.isDigit, c.isDigit := fun cs c hc =>
    List.all_eq_true.1 (List.all_takeWhile (l := cs) (p := Char.isDigit)) c hc
  unfold takeNumber at h
  split at h
  · next d tail found =>
    split at h
    · next hd =>
      obtain ⟨rfl, rfl⟩ := Prod.mk.inj h
      have front : (d :: tail).takeWhile Char.isDigit = d :: tail.takeWhile Char.isDigit := by
        simp [hd]
      rw [front]
      exact takeNumber_point (digits _) (front ▸ digits (d :: tail)) ends.1
    · obtain ⟨rfl, rfl⟩ := Prod.mk.inj h
      exact takeNumber_whole (digits _) ends
  · obtain ⟨rfl, rfl⟩ := Prod.mk.inj h
    exact takeNumber_whole (digits _) ends

theorem takeString_plain {c : Char} (rest : List Char) (hq : c ≠ '"') (hb : c ≠ '\\')
    (hn : c ≠ '\n') :
    takeString (c :: rest) = (takeString rest).map fun split => (c :: split.1, split.2) := by
  rw [takeString]
  · simp only [hn, hb, or_self, if_false]
    cases takeString rest <;> rfl
  · exact fun h => hq h
  · exact fun _ _ h => absurd h hb

/-- A string literal reads the same whatever follows it. -/
theorem takeString_append_of {chars body rest : List Char} (h : takeString chars = some (body, rest))
    (more : List Char) : takeString (body ++ more) = some (body, more) := by
  fun_induction takeString chars generalizing body rest with
  | case1 => simp at h
  | case2 rest =>
    obtain ⟨rfl, rfl⟩ := by simpa using h
    rfl
  | case3 rest => simp at h
  | case4 c rest hc tail body found ih =>
    obtain ⟨rfl, rfl⟩ := by simpa using h
    simp [takeString, hc, ih found]
  | case5 c rest hc found => simp at h
  | case6 c rest => simp at h
  | case7 c rest hq hb hc body tail found ih =>
    obtain ⟨rfl, rfl⟩ := by simpa using h
    rw [not_or] at hc
    rw [List.cons_append, takeString_plain _ hq hc.2 hc.1, ih found]
    rfl
  | case8 c rest hq hb hc found => simp at h

theorem TokenKind.spells_of_ofKeyword? {word : List Char} {kind : TokenKind}
    (h : TokenKind.ofKeyword? word = some kind) : kind.Spells word := by
  unfold TokenKind.ofKeyword? at h
  split at h <;> (try simp at h) <;> subst h <;> simp_all [TokenKind.Spells, TokenKind.spellings]

/-- A word of letters is a name or the keyword that it spells. -/
theorem Expectation.wordKind_eq (expectation : Expectation) (word : List Char) :
    expectation.wordKind word = .name ∨
      TokenKind.ofKeyword? word = some (expectation.wordKind word) := by
  unfold Expectation.wordKind
  split
  · exact .inl rfl
  · next keyword found =>
    have pick (meant : Bool) : (if meant then keyword else .name) = .name ∨
        (if meant then keyword else .name) = keyword := by
      cases meant <;> simp
    exact (pick _).imp_right fun same => found.trans (congrArg some same.symm)

theorem takeSign_spells {expectation : Expectation} {chars word rest : List Char}
    {kind : TokenKind} (h : takeSign expectation chars = some (kind, word, rest)) :
    kind.Spells word := by
  unfold takeSign at h
  repeat' split at h
  all_goals simp only [Option.some.injEq, Prod.mk.injEq, reduceCtorEq] at h
  all_goals
    obtain ⟨rfl, rfl, rfl⟩ := h
    simp [TokenKind.Spells, TokenKind.spellings]

theorem takeWord_spells (expectation : Expectation) {c : Char} (rest : List Char)
    (start : isNameStart c) :
    (takeWord expectation (c :: rest)).1.Spells (takeWord expectation (c :: rest)).2.1 := by
  have first : isNameChar c := by
    simp only [isNameStart, isNameChar, Char.isAlphanum, Bool.or_eq_true] at start ⊢
    rcases start with h | h <;> simp [h]
  unfold takeWord
  split
  · simp [TokenKind.Spells, TokenKind.spellings]
  · have front : (c :: rest).takeWhile isNameChar = c :: rest.takeWhile isNameChar := by
      simp [first]
    rcases expectation.wordKind_eq ((c :: rest).takeWhile isNameChar) with name | keyword
    · simp only [name]
      exact ⟨c, _, front, start, List.all_takeWhile⟩
    · exact TokenKind.spells_of_ofKeyword? keyword

theorem takeToken_spells {expectation : Expectation} {chars word rest : List Char}
    {kind : TokenKind} (h : takeToken expectation chars = some (kind, word, rest)) :
    kind.Spells word := by
  cases chars with
  | nil => simp [takeToken] at h
  | cons c tail =>
    have letters := @takeWord_spells expectation c tail
    simp only [takeToken] at h
    split at h
    · next start =>
      simp only [Option.some.injEq] at h
      rw [h] at letters
      exact letters start
    · split at h
      · next digit =>
        obtain ⟨rfl, read⟩ := Prod.mk.inj (Option.some.inj h)
        obtain rfl : (takeNumber (c :: tail)).1 = word := congrArg Prod.fst read
        have same := congrArg List.head? (takeNumber_append (c :: tail))
        have split : takeNumber (c :: tail) = ((takeNumber (c :: tail)).1, _) := rfl
        have whole := takeNumber_append_of split numberEnds_nil
        have long := takeNumber_ne_nil tail digit
        revert same whole long
        cases (takeNumber (c :: tail)).1 with
        | nil => simp
        | cons d rest =>
          intro same whole _
          obtain rfl : d = c := by simpa using same
          exact ⟨d, rest, rfl, digit, by simpa using whole⟩
      · split at h
        · next quote =>
          subst quote
          split at h
          · next body behind found =>
            obtain ⟨rfl, rfl, rfl⟩ := by simpa using h
            exact ⟨body, rfl, by simpa using takeString_append_of found []⟩
          · simp at h
        · exact takeSign_spells h

/-! ### Whole texts -/

/-- A word without its place: its kind, its text and the blank text behind it. -/
structure Lexeme where
  kind : TokenKind
  text : String
  gap : String
  deriving DecidableEq, Repr

/-- The word without its place. -/
def Token.lexeme (token : Token) : Lexeme := ⟨token.kind, token.text, token.gap⟩

/-- The text that words make up. -/
def written : List Lexeme → String
  | [] => ""
  | word :: rest => word.text ++ word.gap ++ written rest

@[simp] theorem written_nil : written [] = "" := rfl

@[simp] theorem written_cons (word : Lexeme) (rest : List Lexeme) :
    written (word :: rest) = word.text ++ word.gap ++ written rest := rfl

@[simp] theorem written_append (first second : List Lexeme) :
    written (first ++ second) = written first ++ written second := by
  induction first with
  | nil => simp
  | cons word rest ih => simp [ih, String.append_assoc]

/-- Whether a word is spelled as its kind asks. -/
def Token.Spelled (token : Token) : Prop := token.kind.Spells token.text.toList

theorem lexTokens_spelled (expectation : Expectation) (place : Place) (chars : List Char) :
    ∀ token ∈ (lexTokens expectation place chars).1, token.Spelled := by
  fun_induction lexTokens expectation place chars with
  | case1 => simp
  | case2 expectation place chars kind word rest found split token later ih =>
    intro other member
    rcases List.mem_cons.1 member with rfl | member
    · simpa [Token.Spelled, token] using takeToken_spells found
    · exact ih other member

/-- **No text is lost.** -/
theorem lexTokens_written (expectation : Expectation) (place : Place) (chars : List Char)
    (done : (lexTokens expectation place chars).2 = none) :
    (written ((lexTokens expectation place chars).1.map Token.lexeme)).toList = chars := by
  fun_induction lexTokens expectation place chars with
  | case1 expectation place chars found =>
    cases chars with
    | nil => rfl
    | cons c rest => simp at done
  | case2 expectation place chars kind word rest found split token later ih =>
    have behind := takeGap_append false rest
    simp only [List.map_cons, written_cons, String.toList_append, Token.lexeme, token]
    rw [ih done, String.toList_ofList, String.toList_ofList, List.append_assoc, behind]
    exact takeToken_append found

theorem lex_spelled (expectation : Expectation) (text : String) :
    ∀ token ∈ (lex expectation text).tokens, token.Spelled :=
  lexTokens_spelled _ _ _

theorem lex_written {expectation : Expectation} {text : String}
    (done : (lex expectation text).stuck = none) :
    written ((lex expectation text).tokens.map Token.lexeme) =
      String.ofList (takeGap false text.toList).2 := by
  rw [← String.toList_inj, String.toList_ofList]
  exact lexTokens_written _ _ _ done

/-! ### The kind of a text -/

/-- The first character tells strings and numbers from all other words. -/
theorem TokenKind.ofText_of_head {text : String} {c : Char} {rest : List Char}
    (same : text.toList = c :: rest) (h : c.isDigit ∨ c = '"') :
    TokenKind.ofText text = if c = '"' then .string else .number := by
  unfold TokenKind.ofText
  split
  case h_29 => simp [same]
  -- every other text starts with a letter or a sign
  all_goals
    have letter := congrArg List.head? same
    simp only [List.head?_cons] at letter
    revert h
    obtain rfl := Option.some.inj (letter.symm.trans (by rfl))
    decide

/-- A word that is no name is told by its text. -/
theorem TokenKind.ofText_of_spells {kind : TokenKind} {text : String} (name : kind ≠ .name)
    (h : kind.Spells text.toList) : TokenKind.ofText text = kind := by
  cases kind with
  | name => exact absurd rfl name
  | number =>
    obtain ⟨c, rest, same, digit, -⟩ := h
    have quote : c ≠ '"' := by
      rintro rfl
      exact absurd digit (by decide)
    rw [ofText_of_head same (.inl digit), if_neg quote]
  | string =>
    obtain ⟨body, same, -⟩ := h
    rw [ofText_of_head same (.inr rfl), if_pos rfl]
  | _ =>
    simp only [TokenKind.Spells, TokenKind.spellings, String.ofList_toList, List.mem_cons,
      List.not_mem_nil, or_false] at h
    rcases h with rfl | rfl | rfl | rfl <;> rfl

/-- A word of a kind with a single text has that text. -/
theorem Token.lexeme_of_spellings {token : Token} {text : String} (spelled : token.Spelled)
    (only : token.kind.spellings = [text]) : token.lexeme = ⟨token.kind, text, token.gap⟩ := by
  have same : token.text = text := by
    unfold Token.Spelled TokenKind.Spells at spelled
    split at spelled
    all_goals simp_all [TokenKind.spellings]
  rw [Token.lexeme, same]

end Verbatim
