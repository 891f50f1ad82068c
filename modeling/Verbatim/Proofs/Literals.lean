import Verbatim.Proofs.Build.Names

/-!
# Texts of literals

Whether a text is the value of a literal is decided by reading it as a whole expression. What passes
is one word, with nothing in front, behind or around it: a truth value, a number or a string. What
these words look like is said here without reading anything. A string ends at the first quote that
no backslash takes with it, so inside it stand characters that are no quote, and pairs of a backslash
and the character behind it.

## Main definitions

* `Digits`, `NumberText`: digits, and the texts of numbers
* `StringBody`, `StringText`: what stands inside a string, and the texts of strings

## Main results

* `TokenKind.spells_number_iff`, `TokenKind.spells_string_iff`: which texts are words of digits, or
  words in quotes
* `isLiteral_iff`: a text reads as one literal if it is a word that is one
* `attributeProblem_literal_value_iff`: **the values of literals are exactly these texts**
-/

namespace Verbatim

/-! ### Numbers -/

/-- One or more digits. -/
def Digits (chars : List Char) : Prop :=
  chars ≠ [] ∧ ∀ c ∈ chars, c.isDigit

/-- Digits, and perhaps a point with further digits behind it. -/
inductive NumberText : List Char → Prop where
  | whole {digits : List Char} (whole : Digits digits) : NumberText digits
  | point {digits fraction : List Char} (whole : Digits digits) (behind : Digits fraction) :
      NumberText (digits ++ '.' :: fraction)

theorem NumberText.head {chars : List Char} (h : NumberText chars) :
    ∃ c rest, chars = c :: rest ∧ c.isDigit := by
  obtain ⟨whole, digits⟩ | ⟨⟨whole, digits⟩, -⟩ := h
  all_goals obtain ⟨c, rest, rfl⟩ := List.exists_cons_of_ne_nil whole
  · exact ⟨c, rest, rfl, digits c List.mem_cons_self⟩
  · exact ⟨c, _, rfl, digits c List.mem_cons_self⟩

theorem digits_takeWhile {c : Char} {rest : List Char} (digit : c.isDigit) :
    Digits ((c :: rest).takeWhile Char.isDigit) := by
  refine ⟨by simp [digit], fun d member => ?_⟩
  exact List.all_eq_true.1 List.all_takeWhile d member

/-- What is read as a number from a digit on is a number. -/
theorem numberText_takeNumber {c : Char} (rest : List Char) (digit : c.isDigit) :
    NumberText (takeNumber (c :: rest)).1 := by
  unfold takeNumber
  split
  · split
    · next another => exact .point (digits_takeWhile digit) (digits_takeWhile another)
    · exact .whole (digits_takeWhile digit)
  · exact .whole (digits_takeWhile digit)

theorem takeNumber_eq_self {chars : List Char} (h : NumberText chars) :
    takeNumber chars = (chars, []) := by
  cases h with
  | whole whole => simpa using takeNumber_whole whole.2 numberEnds_nil
  | @point digits fraction whole behind =>
    obtain ⟨d, fraction, rfl⟩ := List.exists_cons_of_ne_nil behind.1
    simpa using takeNumber_point whole.2 behind.2 numberEnds_nil.1

/-- **The texts that are words of digits.** -/
theorem TokenKind.spells_number_iff {chars : List Char} :
    TokenKind.number.Spells chars ↔ NumberText chars := by
  constructor
  · rintro ⟨c, rest, rfl, digit, whole⟩
    have read := numberText_takeNumber rest digit
    rwa [whole] at read
  · intro h
    obtain ⟨c, rest, same, digit⟩ := h.head
    exact ⟨c, rest, same, digit, takeNumber_eq_self h⟩

/-! ### Strings -/

/-- What stands between the quotes of a string: characters other than quotes, backslashes and line
feeds, and pairs of a backslash and a character that is no line feed. -/
inductive StringBody : List Char → Prop where
  | nil : StringBody []
  | plain {c : Char} {rest : List Char} (quote : c ≠ '"') (backslash : c ≠ '\\')
      (lineFeed : c ≠ '\n') (body : StringBody rest) : StringBody (c :: rest)
  | pair {c : Char} {rest : List Char} (lineFeed : c ≠ '\n') (body : StringBody rest) :
      StringBody ('\\' :: c :: rest)

/-- A text in quotes, which has no quote of its own inside. -/
def StringText (chars : List Char) : Prop :=
  ∃ body, StringBody body ∧ chars = '"' :: (body ++ ['"'])

/-- A string ends behind its body, at the first quote that is not part of a pair. -/
theorem takeString_body {body : List Char} (h : StringBody body) (rest : List Char) :
    takeString (body ++ '"' :: rest) = some (body ++ ['"'], rest) := by
  induction h with
  | nil => rfl
  | plain quote backslash lineFeed _ ih =>
    rw [List.cons_append, takeString_plain _ quote backslash lineFeed, ih]
    rfl
  | pair lineFeed _ ih => simp [takeString, lineFeed, ih]

/-- Whatever is read as the rest of a string is a body and a quote. -/
theorem exists_body_of_takeString {chars taken rest : List Char}
    (h : takeString chars = some (taken, rest)) : ∃ body, StringBody body ∧ taken = body ++ ['"'] := by
  fun_induction takeString chars generalizing taken rest with
  | case1 => cases h
  | case2 rest =>
    obtain ⟨rfl, rfl⟩ := by simpa using h
    exact ⟨[], .nil, rfl⟩
  | case3 rest => cases h
  | case4 c rest lineFeed taken tail found ih =>
    obtain ⟨rfl, rfl⟩ := by simpa using h
    obtain ⟨body, inside, rfl⟩ := ih found
    exact ⟨_, .pair lineFeed inside, rfl⟩
  | case5 c rest lineFeed found => cases h
  | case6 c rest => cases h
  | case7 c rest quote _ other taken tail found ih =>
    obtain ⟨rfl, rfl⟩ := by simpa using h
    obtain ⟨body, inside, rfl⟩ := ih found
    rw [not_or] at other
    exact ⟨_, .plain quote other.2 other.1 inside, rfl⟩
  | case8 c rest quote _ other found => cases h

/-- **The texts that are words in quotes.** -/
theorem TokenKind.spells_string_iff {chars : List Char} :
    TokenKind.string.Spells chars ↔ StringText chars := by
  constructor
  · rintro ⟨taken, rfl, whole⟩
    obtain ⟨body, inside, rfl⟩ := exists_body_of_takeString whole
    exact ⟨body, inside, rfl⟩
  · rintro ⟨body, inside, rfl⟩
    exact ⟨body ++ ['"'], rfl, takeString_body inside []⟩

/-! ### Literals -/

/-- The words that are literals, by their kinds. -/
theorem exists_literalWord_iff {text : String} :
    (∃ kind : TokenKind, kind.isLiteral ∧ kind.Spells text.toList) ↔
      text = "true" ∨ text = "false" ∨ NumberText text.toList ∨ StringText text.toList := by
  constructor
  · rintro ⟨kind, literal, spells⟩
    cases kind with
    | trueWord => exact .inl (by simpa [TokenKind.Spells, TokenKind.spellings] using spells)
    | falseWord => exact .inr (.inl (by simpa [TokenKind.Spells, TokenKind.spellings] using spells))
    | number => exact .inr (.inr (.inl (TokenKind.spells_number_iff.1 spells)))
    | string => exact .inr (.inr (.inr (TokenKind.spells_string_iff.1 spells)))
    | _ => cases literal
  · rintro (rfl | rfl | number | string)
    · exact ⟨.trueWord, rfl, by simp [TokenKind.Spells, TokenKind.spellings]⟩
    · exact ⟨.falseWord, rfl, by simp [TokenKind.Spells, TokenKind.spellings]⟩
    · exact ⟨.number, rfl, TokenKind.spells_number_iff.2 number⟩
    · exact ⟨.string, rfl, TokenKind.spells_string_iff.2 string⟩

/-- A text reads as one literal if it is a word that is one. -/
theorem isLiteral_iff {text : String} :
    isLiteral text ↔ ∃ kind : TokenKind, kind.isLiteral ∧ kind.Spells text.toList := by
  constructor
  · intro literal
    obtain ⟨word, isLiteral, spelled, rfl, -⟩ := Node.exists_word_of_isLiteral literal
    exact ⟨word.kind, isLiteral, spelled⟩
  · rintro ⟨kind, literal, spells⟩
    let word : Token := ⟨kind, text, "", .start⟩
    exact @isLiteral_of_spelled word literal spells

theorem attributeProblem?_value_iff {kind : Kind} {text : String} :
    attributeProblem? kind "value" (.text text) = none ↔ isLiteral text := by
  refine ⟨Node.isLiteral_of_good, fun literal => ?_⟩
  rw [attributeProblem?, if_neg (by decide), if_neg (by decide), if_pos rfl, if_pos literal]

/-- **The values of literals are exactly these texts**: the truth values, numbers and strings. -/
theorem attributeProblem_literal_value_iff (text : String) :
    attributeProblem? .literal "value" (.text text) = none ↔
      text = "true" ∨ text = "false" ∨ NumberText text.toList ∨ StringText text.toList := by
  rw [attributeProblem?_value_iff, isLiteral_iff, exists_literalWord_iff]

end Verbatim
