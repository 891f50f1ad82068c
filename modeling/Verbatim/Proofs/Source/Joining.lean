import Verbatim.Proofs.Source.Scanning
import Verbatim.Proofs.Source.Units

/-!
# Texts behind one another

A statement ends with a semicolon or a closing brace, and both stand alone. So what was read of a
text of statements is read again where another text follows, unless a comment is open at the end.
The blank text in front of the second text then belongs to the last word of the first one.

The second text is read where a block may have ended, and not at the start. This makes a difference
to `else` alone, which goes on with the chain there and is a name at the start.

## Main definitions

* `endsInComment`: whether a comment is open at the end of a text
* `TokenKind.closes`: the words that statements end with

## Main results

* `Scans.blockEnd`: **words other than `else` are read behind a block as at the start**
* `lex_append`, `lex_append_blank`: **the words of two texts behind one another**
-/

namespace Verbatim

variable {expectation : Expectation} {kind : TokenKind} {chars word rest behind : List Char}

/-! ### Behind a block -/

theorem wordKind_blockEnd (noElse : String.ofList word ≠ "else") :
    Expectation.blockEnd.wordKind word = Expectation.statement.wordKind word := by
  have other : TokenKind.ofKeyword? word ≠ some .elseWord := by
    unfold TokenKind.ofKeyword?
    split <;> simp_all
  unfold Expectation.wordKind
  split
  · rfl
  · next keyword found => cases keyword <;> first | rfl | exact absurd found other

/-- An `else` at the start is a name. -/
theorem wordKind_else (same : String.ofList word = "else") :
    Expectation.statement.wordKind word = .name := by
  rw [Expectation.wordKind, TokenKind.ofKeyword?, same]
  rfl

/-- Behind a block, a word is read as at the start of a statement unless it is `else`. -/
theorem takeToken_blockEnd (taken : takeToken .statement chars = some (kind, word, rest))
    (noElse : kind = .name → String.ofList word ≠ "else") :
    takeToken .blockEnd chars = some (kind, word, rest) := by
  cases chars with
  | nil => exact taken
  | cons c tail =>
    rw [takeToken] at taken ⊢
    split at taken
    · next letter =>
      obtain ⟨rfl, rfl, rfl⟩ : Expectation.statement.wordKind ((c :: tail).takeWhile isNameChar) =
          kind ∧ (c :: tail).takeWhile isNameChar = word ∧
            (c :: tail).dropWhile isNameChar = rest := by
        simpa [takeWord, Expectation.cutsIf] using taken
      have other : String.ofList ((c :: tail).takeWhile isNameChar) ≠ "else" := fun same =>
        noElse (wordKind_else same) same
      rw [if_pos letter]
      simp only [takeWord, Expectation.cutsIf, wordKind_blockEnd other]
    · next letter =>
      rw [if_neg letter]
      exact taken

theorem after_blockEnd (kind : TokenKind) :
    Expectation.blockEnd.after kind = Expectation.statement.after kind := by
  cases kind <;> rfl

/-- **Words other than `else` are read behind a block as at the start.** -/
theorem Scans.blockEnd {words : List Lexeme} (scans : Scans .statement words behind)
    (noElse : ∀ word ∈ words.head?, word.kind = .name → word.text ≠ "else") :
    Scans .blockEnd words behind := by
  cases scans with
  | nil => exact .nil _ _
  | @cons _ word words _ stands later =>
    have other := noElse word rfl
    rw [← String.ofList_toList (s := word.text)] at other
    refine .cons ⟨takeToken_blockEnd stands.taken other, stands.gap⟩ ?_
    rwa [after_blockEnd]

/-! ### The ends of texts -/

/-- The kinds of words that statements end with. -/
def TokenKind.closes : TokenKind → Bool
  | .semicolon | .rightBrace => true
  | _ => false

/-- The blank text at the end: that behind the last word, and the leading one without words. -/
def Lexed.ending (lexed : Lexed) : String :=
  (lexed.tokens.getLast?.map Token.gap).getD lexed.leading

/-- Whether a comment is open at the end of a text of statements: there is one, and no line ends
behind it. -/
def endsInComment (text : String) : Bool :=
  commentAfter false (lex .statement text).ending.toList

/-- A word that ends a statement is read whatever is behind it. -/
theorem takeToken_closes (closes : kind.closes) (gap : String) (behind : List Char) :
    takeToken expectation ((kind.lexeme gap).text.toList ++ (kind.lexeme gap).gap.toList ++ behind) =
      some (kind, (kind.lexeme gap).text.toList, (kind.lexeme gap).gap.toList ++ behind) := by
  rw [List.append_assoc]
  cases kind with
  | semicolon =>
    show takeToken expectation (";".toList ++ (gap.toList ++ behind)) =
      some (.semicolon, ";".toList, gap.toList ++ behind)
    rfl
  | rightBrace =>
    show takeToken expectation ("\x7d".toList ++ (gap.toList ++ behind)) =
      some (.rightBrace, "\x7d".toList, gap.toList ++ behind)
    rfl
  | _ => exact absurd closes Bool.false_ne_true

theorem stops_closes (closes : kind.closes) (gap : String) (rest : List Lexeme) :
    Stops (written (kind.lexeme gap :: rest)).toList := by
  cases kind with
  | semicolon => exact stops_written ';' (by decide) rest
  | rightBrace => exact stops_written '\x7d' (by decide) rest
  | _ => exact absurd closes Bool.false_ne_true

theorem closes_ne_nil (closes : kind.closes) (gap : String) (rest : List Lexeme) :
    (written (kind.lexeme gap :: rest)).toList ≠ [] := by
  cases kind with
  | semicolon => simp [TokenKind.lexeme, TokenKind.spellings]
  | rightBrace => simp [TokenKind.lexeme, TokenKind.spellings]
  | _ => exact absurd closes Bool.false_ne_true

/-- Behind a statement a word is read as at the start, unless it is `else`. -/
theorem Scans.after_closes {words : List Lexeme} (scans : Scans .statement words behind)
    (noElse : ∀ word ∈ words.head?, word.kind = .name → word.text ≠ "else") (closes : kind.closes) :
    Scans (expectation.after kind) words behind := by
  cases kind with
  | semicolon => exact scans
  | rightBrace => exact scans.blockEnd noElse
  | _ => exact absurd closes Bool.false_ne_true

/-- **Two rows of words are read behind one another** where the first one ends a statement. The blank
text between them belongs to the last word of the first row. -/
theorem Scans.join {before words : List Lexeme} {gap leading : String}
    (scans : Scans expectation (before ++ [kind.lexeme gap]) []) (closes : kind.closes)
    (closed : commentAfter false gap.toList = false) (more : Scans .statement words [])
    (noElse : ∀ word ∈ words.head?, word.kind = .name → word.text ≠ "else")
    (blank : takeGap false (leading.toList ++ (written words).toList) =
      (leading.toList, (written words).toList)) :
    Scans expectation (before ++ kind.lexeme (gap ++ leading) :: words) [] := by
  obtain ⟨scans, last⟩ := scans_append.1 scans
  rw [List.append_nil] at scans
  cases last with
  | cons stands =>
    have whole : Closed gap.toList := by
      refine ⟨?_, closed⟩
      have end_ := stands.gap
      rwa [written_nil, String.toList_empty, List.append_nil, List.append_nil] at end_
    refine scans_append.2 ⟨?_, .cons ⟨takeToken_closes closes _ _, ?_⟩
      (more.after_closes noElse closes)⟩
    · rw [List.append_nil]
      exact scans.exchange (stops_closes closes gap []) (stops_closes closes _ words)
        fun nothing => absurd nothing (closes_ne_nil closes gap [])
    · show takeGap false ((gap ++ leading).toList ++ _) = ((gap ++ leading).toList, _)
      rw [List.append_nil, String.toList_append, List.append_assoc, whole.takeGap_join, blank]

/-! ### Two texts -/

variable {text more : String}

/-- A text is its leading blank text and its words. -/
theorem blankFront_append_written (done : (lex expectation text).stuck = none) :
    blankFront text ++ written ((lex expectation text).tokens.map Token.lexeme) = text := by
  have whole := takeGap_append false text.toList
  rw [takeGap_of_lex done] at whole
  rw [← leading_lex expectation, ← String.toList_inj, String.toList_append, whole]

theorem takeGap_blankFront (done : (lex expectation text).stuck = none) :
    takeGap false ((blankFront text).toList ++
        (written ((lex expectation text).tokens.map Token.lexeme)).toList) =
      ((blankFront text).toList, (written ((lex expectation text).tokens.map Token.lexeme)).toList) := by
  rw [← String.toList_append, blankFront_append_written done, takeGap_of_lex done,
    leading_lex expectation]

/-- What reading a text gives: the leading blank text and the words, and nothing is left. -/
structure ReadAs (text leading : String) (words : List Lexeme) : Prop where
  leading : blankFront text = leading
  words : (lex .statement text).tokens.map Token.lexeme = words
  finished : (lex .statement text).stuck = none

theorem readAs_of_scans {leading : String} {words : List Lexeme} (scans : Scans .statement words [])
    (split : takeGap false (leading.toList ++ (written words).toList) =
      (leading.toList, (written words).toList)) :
    ReadAs (leading ++ written words) leading words := by
  obtain ⟨front, words, finished⟩ := lex_of_scans scans split
  exact ⟨front, words, finished⟩

/-- **The words of two texts behind one another**, where the first one ends with a statement. -/
theorem lex_append {before : List Lexeme} {gap : String}
    (done : (lex .statement text).stuck = none)
    (words : (lex .statement text).tokens.map Token.lexeme = before ++ [kind.lexeme gap])
    (closes : kind.closes) (closed : endsInComment text = false)
    (doneMore : (lex .statement more).stuck = none)
    (noElse : ∀ word ∈ ((lex .statement more).tokens.map Token.lexeme).head?,
      word.kind = .name → word.text ≠ "else") :
    ReadAs (text ++ more) (blankFront text) (before ++
      kind.lexeme (gap ++ blankFront more) :: (lex .statement more).tokens.map Token.lexeme) := by
  have ending : (lex .statement text).ending = gap := by
    have last := congrArg List.getLast? words
    rw [List.getLast?_map, List.getLast?_concat] at last
    obtain ⟨token, found, same⟩ := Option.map_eq_some_iff.1 last
    rw [Lexed.ending, found]
    exact congrArg Lexeme.gap same
  rw [endsInComment, ending] at closed
  have scans := scans_lex done
  have front := takeGap_blankFront done
  have whole := blankFront_append_written done
  rw [words] at scans front whole
  have joined := scans.join closes closed (scans_lex doneMore) noElse (takeGap_blankFront doneMore)
  have text_eq : text ++ more = blankFront text ++ written (before ++
      kind.lexeme (gap ++ blankFront more) :: (lex .statement more).tokens.map Token.lexeme) := by
    calc text ++ more = blankFront text ++ written (before ++ [kind.lexeme gap]) ++ (blankFront more ++
          written ((lex .statement more).tokens.map Token.lexeme)) := by
          rw [whole, blankFront_append_written doneMore]
      _ = _ := by simp [TokenKind.lexeme, String.append_assoc]
  rw [text_eq]
  refine readAs_of_scans joined ?_
  have something : (written (before ++ [kind.lexeme gap])).toList ≠ [] := by
    rw [written_append, String.toList_append]
    exact List.append_ne_nil_of_right_ne_nil _ (closes_ne_nil closes gap [])
  have bare : Bare (written (before ++ [kind.lexeme gap])).toList := by
    have rest := bare_takeGap false ((blankFront text).toList ++
      (written (before ++ [kind.lexeme gap])).toList)
    rwa [front] at rest
  rw [written_append, String.toList_append] at bare
  refine (closed_of_takeGap something front).takeGap_append ?_
  rw [written_append, String.toList_append]
  exact bare.exchange (stops_closes closes _ _)

/-- The words of a text behind blank text. -/
theorem lex_append_blank (blank : (lex .statement text).tokens = [])
    (done : (lex .statement text).stuck = none) (closed : endsInComment text = false)
    (doneMore : (lex .statement more).stuck = none) :
    ReadAs (text ++ more) (blankFront text ++ blankFront more)
      ((lex .statement more).tokens.map Token.lexeme) := by
  have front := takeGap_blankFront done
  have whole := blankFront_append_written done
  rw [endsInComment, Lexed.ending, blank] at closed
  rw [blank, List.map_nil, written_nil, String.append_empty] at whole
  rw [blank, List.map_nil, written_nil, String.toList_empty, List.append_nil] at front
  have gap : Closed (blankFront text).toList := ⟨front, closed⟩
  have split := gap.takeGap_join ((blankFront more).toList ++
    (written ((lex .statement more).tokens.map Token.lexeme)).toList)
  rw [takeGap_blankFront doneMore] at split
  have text_eq : text ++ more = blankFront text ++ blankFront more ++
      written ((lex .statement more).tokens.map Token.lexeme) := by
    rw [String.append_assoc, blankFront_append_written doneMore, whole]
  rw [text_eq]
  refine readAs_of_scans (scans_lex doneMore) ?_
  rw [String.toList_append, List.append_assoc, split]

end Verbatim
