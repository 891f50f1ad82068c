import Verbatim.Proofs.Source.Spelling

/-!
# Words and what is behind them

Whether a row of characters is read as a word depends on what is behind it: a name goes on with the
letters there, a sign with an equals sign, and a comment swallows whatever comes up to the end of its
line. So a row of words is *scanned* together with the characters behind its last word.

A parenthesis settles this, and so do a semicolon and a closing brace. They belong to no longer word,
and they are not blank, so a row of words in front of one is scanned the same whatever stands behind
the sign. The end of the text settles it as well, unless a comment is open there.

## Main definitions

* `Lexeme.Stands`, `Scans`: a word, and a row of words, is read with the given characters behind it
* `Stops`: nothing is behind, or a sign that settles where the word in front ends
* `commentAfter`: whether a comment is open behind blank text
* `Spliced`: one row of words is another one with other words in a pair of parentheses

## Main results

* `scans_lexTokens`, `Scans.lexTokens_eq`: **words are scanned exactly when they are read**
* `scans_append`: two rows are scanned together where each is
* `Scans.exchange`: **what is behind a row of words can be exchanged at such a sign**
* `lex_spliced_iff`: **when the words of an expression can be put between the parentheses of a text**
-/

namespace Verbatim

/-! ### Signs that stand alone -/

/-- Signs that are part of no longer word and begin no comment. -/
def loneSigns : List Char := ['(', ')', '\x7d', ';']

/-- Nothing follows, or a sign that stands alone. -/
def Stops (behind : List Char) : Prop := ∀ c ∈ behind.head?, c ∈ loneSigns

variable {expectation : Expectation} {kind : TokenKind} {chars word rest behind other : List Char}

theorem stops_nil : Stops [] := by simp [Stops]

theorem Stops.head {c : Char} (stops : Stops (c :: rest)) :
    c = '(' ∨ c = ')' ∨ c = '\x7d' ∨ c = ';' := by
  simpa [loneSigns] using stops c rfl

theorem Stops.endsBefore (stops : Stops behind) (class? : Char → Bool)
    (others : loneSigns.any class? = false) : EndsBefore class? behind := fun c member =>
  Bool.eq_false_iff.2 (List.any_eq_false.1 others c (stops c member))

/-- A row of characters of a class ends at its end before what is not of the class. -/
theorem takeWhile_dropWhile_append {class? : Char → Bool} (chars : List Char)
    (ends : EndsBefore class? behind) :
    (chars ++ behind).takeWhile class? = chars.takeWhile class? ∧
      (chars ++ behind).dropWhile class? = chars.dropWhile class? ++ behind := by
  induction chars with
  | nil =>
    exact ⟨takeWhile_append_of_endsBefore (by simp) ends, dropWhile_append_of_endsBefore (by simp) ends⟩
  | cons c chars ih =>
    simp only [List.cons_append, List.takeWhile_cons, List.dropWhile_cons]
    cases class? c
    · simp
    · simpa using ih

/-- A sign that stands alone is no part of a number. -/
theorem takeNumber_stop (chars : List Char) (stops : Stops behind) :
    takeNumber (chars ++ behind) = ((takeNumber chars).1, (takeNumber chars).2 ++ behind) := by
  have ends := stops.endsBefore Char.isDigit rfl
  obtain ⟨whole, after⟩ := takeWhile_dropWhile_append chars ends
  simp only [takeNumber, whole, after]
  generalize chars.takeWhile Char.isDigit = digits
  rcases chars.dropWhile Char.isDigit with _ | ⟨point, _ | ⟨d, tail⟩⟩
  · cases behind with
    | nil => rfl
    | cons c more =>
      obtain rfl | rfl | rfl | rfl := stops.head <;> rfl
  · by_cases isPoint : point = '.'
    · subst isPoint
      cases behind with
      | nil => rfl
      | cons c more =>
        have noDigit : c.isDigit = false := ends c rfl
        simp [noDigit]
    · simp [isPoint]
  · obtain ⟨fraction, later⟩ := takeWhile_dropWhile_append (d :: tail) ends
    by_cases isPoint : point = '.'
    · subst isPoint
      simp only [List.cons_append] at fraction later ⊢
      simp only [fraction, later]
      split <;> rfl
    · simp [isPoint]

/-- A sign that stands alone is no part of a name or keyword. -/
theorem takeWord_stop (expectation : Expectation) (chars : List Char) (stops : Stops behind) :
    takeWord expectation (chars ++ behind) = ((takeWord expectation chars).1,
      (takeWord expectation chars).2.1, (takeWord expectation chars).2.2 ++ behind) := by
  obtain ⟨whole, after⟩ := takeWhile_dropWhile_append chars (stops.endsBefore isNameChar rfl)
  by_cases cut : expectation.cutsIf ∧ ∃ tail, chars = 'i' :: 'f' :: tail
  · obtain ⟨cuts, tail, rfl⟩ := cut
    simp [takeWord, cuts]
  · -- Nor does one complete the word that is cut off.
    have plain {row : List Char} (uncut : ¬ (expectation.cutsIf ∧ ∃ tail, row = 'i' :: 'f' :: tail)) :
        takeWord expectation row = (expectation.wordKind (row.takeWhile isNameChar),
          row.takeWhile isNameChar, row.dropWhile isNameChar) := by
      unfold takeWord
      split
      · next tail cuts => exact absurd ⟨cuts, tail, rfl⟩ uncut
      · rfl
    rw [plain cut, plain, whole, after]
    rintro ⟨cuts, tail, same⟩
    refine cut ⟨cuts, ?_⟩
    rcases chars with _ | ⟨first, _ | ⟨second, chars⟩⟩
    · exact absurd (stops 'i' (congrArg List.head? same)) (by decide)
    · exact absurd (stops 'f' (congrArg (·.tail.head?) same)) (by decide)
    · simp only [List.cons_append, List.cons.injEq] at same
      exact ⟨chars, by rw [same.1, same.2.1]⟩

/-- The first characters of signs. -/
def signStarts : List Char :=
  ['|', '&', '=', '!', '<', '>', '+', '-', '*', '/', '%', '(', ')', '\x7b', '\x7d', ';', ',']

theorem takeSign_eq_none {c : Char} (other : c ∉ signStarts) :
    takeSign expectation (c :: rest) = none := by
  rw [takeSign]
  all_goals
    intro tail same
    obtain ⟨rfl, -⟩ := List.cons.inj same
    exact other (by decide)

/-- What follows the second character plays no part in a sign. -/
theorem takeSign_second {c d : Char} (sign : c ∈ signStarts) :
    takeSign expectation (c :: d :: (rest ++ behind)) =
      (takeSign expectation (c :: d :: rest)).map fun taken =>
        (taken.1, taken.2.1, taken.2.2 ++ behind) := by
  simp only [signStarts, List.mem_cons, List.not_mem_nil, or_false] at sign
  obtain rfl | rfl | double | single : c = '|' ∨ c = '&' ∨ (c = '=' ∨ c = '!' ∨ c = '<' ∨ c = '>') ∨
      (c = '+' ∨ c = '-' ∨ c = '*' ∨ c = '/' ∨ c = '%' ∨ c = '(' ∨ c = ')' ∨ c = '\x7b' ∨
        c = '\x7d' ∨ c = ';' ∨ c = ',') := by grind
  · by_cases two : d = '|'
    · subst two
      rfl
    · simp [takeSign, two]
  · by_cases two : d = '&'
    · subst two
      rfl
    · simp [takeSign, two]
  · by_cases two : d = '='
    · subst two
      rcases double with rfl | rfl | rfl | rfl <;> cases expectation <;> rfl
    · rcases double with rfl | rfl | rfl | rfl <;> simp [takeSign, two]
  · rcases single with rfl | rfl | rfl | rfl | rfl | rfl | rfl | rfl | rfl | rfl | rfl <;> rfl

/-- A sign that stands alone makes no other sign longer. -/
theorem takeSign_stop (expectation : Expectation) (c : Char) (chars : List Char)
    (stops : Stops behind) :
    takeSign expectation (c :: chars ++ behind) =
      (takeSign expectation (c :: chars)).map fun taken =>
        (taken.1, taken.2.1, taken.2.2 ++ behind) := by
  by_cases sign : c ∈ signStarts
  · cases chars with
    | cons d tail => exact takeSign_second sign
    | nil =>
      simp only [signStarts, List.mem_cons, List.not_mem_nil, or_false] at sign
      cases behind with
      | nil => rcases sign with rfl | rfl | rfl | rfl | rfl | rfl | rfl | rfl | rfl | rfl | rfl | rfl | rfl | rfl | rfl | rfl | rfl <;> rfl
      | cons d more =>
        obtain rfl | rfl | rfl | rfl := stops.head <;> rcases sign with rfl | rfl | rfl | rfl | rfl | rfl | rfl | rfl | rfl | rfl | rfl | rfl | rfl | rfl | rfl | rfl | rfl <;> rfl
  · rw [List.cons_append, takeSign_eq_none sign, takeSign_eq_none sign]
    rfl

/-- A sign that stands alone belongs to no other word. A string that is not closed could hold one. -/
theorem takeToken_stop (stops : Stops behind) {c : Char} (noString : c ≠ '"') :
    takeToken expectation (c :: chars ++ behind) =
      (takeToken expectation (c :: chars)).map fun taken =>
        (taken.1, taken.2.1, taken.2.2 ++ behind) := by
  have letters := takeWord_stop expectation (c :: chars) stops
  have number := takeNumber_stop (c :: chars) stops
  have sign := takeSign_stop expectation c chars stops
  simp only [List.cons_append] at letters number sign ⊢
  simp only [takeToken, letters, number, sign, noString, if_false]
  split
  · rfl
  · split <;> rfl

/-- What is behind a word can be exchanged at a sign that stands alone. -/
theorem takeToken_exchange (stops : Stops behind) (stopsToo : Stops other)
    (found : takeToken expectation (word ++ rest ++ behind) = some (kind, word, rest ++ behind)) :
    takeToken expectation (word ++ rest ++ other) = some (kind, word, rest ++ other) := by
  obtain ⟨c, tail, rfl⟩ := List.exists_cons_of_ne_nil (takeToken_ne_nil found)
  by_cases string : c = '"'
  · subst string
    simp only [List.cons_append, takeToken, if_true] at found ⊢
    rw [if_neg (by decide), if_neg (by decide)] at found ⊢
    split at found
    · next body behind taken =>
      obtain ⟨rfl, rfl, rfl⟩ := by simpa using found
      rw [List.append_assoc, takeString_append_of taken]
    · contradiction
  · rw [List.cons_append] at found ⊢
    rw [takeToken_stop stops string, Option.map_eq_some_iff] at found
    obtain ⟨taken, found, same⟩ := found
    simp only [Prod.mk.injEq] at same
    obtain ⟨rfl, whole, behind⟩ := same
    rw [takeToken_stop stopsToo string, found, Option.map_some, whole,
      List.append_cancel_right behind]

/-! ### Blank text -/

/-- Whether a comment is open behind blank text. The flag says whether one is open in front. -/
def commentAfter : Bool → List Char → Bool
  | comment, [] => comment
  | true, c :: rest => commentAfter (c != '\n') rest
  | false, c :: rest => commentAfter (c = '/') rest

/-- No blank text stands in front. -/
def Bare (chars : List Char) : Prop := takeGap false chars = ([], chars)

/-- The characters are blank text, and no comment is open behind them. -/
def Closed (gap : List Char) : Prop := takeGap false gap = (gap, []) ∧ commentAfter false gap = false

theorem bare_iff {c : Char} : Bare (c :: rest) ↔ isSpace c = false ∧ (c = '/' → rest.head? ≠ some '/') := by
  unfold Bare
  rw [takeGap]
  grind

theorem bare_takeGap (comment : Bool) (chars : List Char) : Bare (takeGap comment chars).2 := by
  unfold Bare
  induction chars generalizing comment with
  | nil => cases comment <;> rfl
  | cons c rest ih => cases comment <;> grind [takeGap]

theorem bare_of_stops (stops : Stops behind) : Bare behind := by
  cases behind with
  | nil => rfl
  | cons c rest =>
    obtain rfl | rfl | rfl | rfl := stops.head <;> rfl

theorem Bare.exchange (bare : Bare (chars ++ behind)) (stops : Stops other) :
    Bare (chars ++ other) := by
  rcases chars with _ | ⟨c, _ | ⟨d, tail⟩⟩
  · exact bare_of_stops stops
  · refine bare_iff.2 ⟨(bare_iff.1 bare).1, fun _ slash => ?_⟩
    exact absurd (stops '/' slash) (by decide)
  · have word := bare_iff.1 bare
    exact bare_iff.2 word

/-- Blank text that something stands behind leaves no comment open. -/
theorem closed_of_takeGap {gap : List Char} (something : behind ≠ [])
    (split : takeGap false (gap ++ behind) = (gap, behind)) : Closed gap := by
  suffices whole : ∀ comment, takeGap comment (gap ++ behind) = (gap, behind) →
      takeGap comment gap = (gap, []) ∧ commentAfter comment gap = false from whole false split
  clear split
  induction gap with
  | nil =>
    obtain ⟨d, more, rfl⟩ := List.exists_cons_of_ne_nil something
    intro comment split
    cases comment <;> simp_all [takeGap, commentAfter]
  | cons c gap ih =>
    intro comment split
    -- Each character leaves a comment open or not, and the rest is told by that.
    have step {later : Bool} (split : ((c :: (takeGap later (gap ++ behind)).1),
        (takeGap later (gap ++ behind)).2) = (c :: gap, behind)) :
        takeGap later gap = (gap, []) ∧ commentAfter later gap = false :=
      ih later (Prod.ext (List.cons.inj (Prod.mk.inj split).1).2 (Prod.mk.inj split).2)
    cases comment with
    | true =>
      obtain ⟨blank, closed⟩ := step split
      rw [takeGap, blank]
      exact ⟨rfl, closed⟩
    | false =>
      rw [List.cons_append, takeGap] at split
      split at split
      · next space =>
        obtain ⟨blank, closed⟩ := step split
        have noSlash : c ≠ '/' := by
          rintro rfl
          exact absurd space (by decide)
        rw [takeGap, if_pos space, blank, commentAfter, decide_eq_false noSlash]
        exact ⟨rfl, closed⟩
      · split at split
        · next space opening =>
          obtain ⟨blank, closed⟩ := step split
          cases gap with
          | nil => contradiction
          | cons d gap =>
            rw [takeGap, if_neg space, if_pos (show c = '/' ∧ (d :: gap).head? = some '/' from opening),
              blank, commentAfter, decide_eq_true opening.1]
            exact ⟨rfl, closed⟩
        · exact absurd (congrArg Prod.fst split) (List.cons_ne_nil c gap).symm

/-- Closed blank text ends where it ends, and further blank text can stand behind it. -/
theorem Closed.takeGap_join {gap : List Char} (closed : Closed gap) (behind : List Char) :
    takeGap false (gap ++ behind) =
      (gap ++ (takeGap false behind).1, (takeGap false behind).2) := by
  obtain ⟨blank, closed⟩ := closed
  suffices whole : ∀ comment, takeGap comment gap = (gap, []) → commentAfter comment gap = false →
      takeGap comment (gap ++ behind) = (gap ++ (takeGap false behind).1, (takeGap false behind).2)
    from whole false blank closed
  clear blank closed
  induction gap with
  | nil =>
    intro comment _ closed
    obtain rfl : comment = false := closed
    rfl
  | cons c gap ih =>
    intro comment blank closed
    have step {later : Bool} (blank : (c :: (takeGap later gap).1, (takeGap later gap).2) = (c :: gap, []))
        (closed : commentAfter later gap = false) : takeGap later (gap ++ behind) =
          (gap ++ (takeGap false behind).1, (takeGap false behind).2) :=
      ih later (Prod.ext (List.cons.inj (Prod.mk.inj blank).1).2 (Prod.mk.inj blank).2) closed
    cases comment with
    | true => rw [List.cons_append, takeGap, step blank closed, List.cons_append]
    | false =>
      rw [takeGap] at blank
      split at blank
      · next space =>
        have noSlash : c ≠ '/' := by
          rintro rfl
          exact absurd space (by decide)
        rw [commentAfter, decide_eq_false noSlash] at closed
        rw [List.cons_append, takeGap, if_pos space, step blank closed, List.cons_append]
      · split at blank
        · next space opening =>
          rw [commentAfter, decide_eq_true opening.1] at closed
          obtain ⟨tail, rfl⟩ := List.head?_eq_some_iff.1 opening.2
          rw [List.cons_append, takeGap, if_neg space, if_pos ⟨opening.1, rfl⟩, step blank closed]
          rfl
        · exact absurd (congrArg Prod.fst blank) (List.cons_ne_nil c gap).symm

/-- What stands behind closed blank text does not matter. -/
theorem Closed.takeGap_append {gap : List Char} (closed : Closed gap) (bare : Bare behind) :
    takeGap false (gap ++ behind) = (gap, behind) := by
  rw [closed.takeGap_join, bare, List.append_nil]

/-! ### Rows of words -/

/-- The word is read where the expectation holds, with the given characters behind it. -/
structure Lexeme.Stands (expectation : Expectation) (word : Lexeme) (behind : List Char) : Prop where
  taken : takeToken expectation (word.text.toList ++ word.gap.toList ++ behind) =
    some (word.kind, word.text.toList, word.gap.toList ++ behind)
  gap : takeGap false (word.gap.toList ++ behind) = (word.gap.toList, behind)

/-- What can follow a row of words. -/
def Expectation.afterAll (expectation : Expectation) (words : List Lexeme) : Expectation :=
  words.foldl (fun expectation word => expectation.after word.kind) expectation

/-- The words are read one by one where the expectation holds, with the given characters behind the
last one. -/
inductive Scans : Expectation → List Lexeme → List Char → Prop
  | nil (expectation : Expectation) (behind : List Char) : Scans expectation [] behind
  | cons {expectation : Expectation} {word : Lexeme} {rest : List Lexeme} {behind : List Char}
      (stands : word.Stands expectation ((written rest).toList ++ behind))
      (later : Scans (expectation.after word.kind) rest behind) :
      Scans expectation (word :: rest) behind

variable {first second words : List Lexeme}

theorem Lexeme.Stands.text_ne_nil {word : Lexeme} (stands : word.Stands expectation behind) :
    word.text.toList ≠ [] :=
  takeToken_ne_nil stands.taken

theorem scans_append : Scans expectation (first ++ second) behind ↔
    Scans expectation first ((written second).toList ++ behind) ∧
      Scans (expectation.afterAll first) second behind := by
  induction first generalizing expectation with
  | nil => exact ⟨fun later => ⟨.nil _ _, later⟩, And.right⟩
  | cons word rest ih =>
    have whole : (written (rest ++ second)).toList ++ behind =
        (written rest).toList ++ ((written second).toList ++ behind) := by
      rw [written_append, String.toList_append, List.append_assoc]
    constructor
    · rintro (_ | ⟨stands, later⟩)
      exact ⟨.cons (whole ▸ stands) (ih.1 later).1, (ih.1 later).2⟩
    · rintro ⟨_ | ⟨stands, before⟩, later⟩
      exact .cons (whole ▸ stands) (ih.2 ⟨before, later⟩)

/-- What is read is scanned. -/
theorem scans_lexTokens {place : Place} (done : (lexTokens expectation place chars).2 = none) :
    Scans expectation ((lexTokens expectation place chars).1.map Token.lexeme) [] := by
  fun_induction lexTokens expectation place chars with
  | case1 => exact .nil _ _
  | case2 expectation place chars kind word rest found split token later ih =>
    have behind := takeGap_append false rest
    have whole : (written (later.1.map Token.lexeme)).toList = split.2 := lexTokens_written _ _ _ done
    have text := takeToken_append found
    refine .cons ⟨?_, ?_⟩ (ih done)
    · simp only [Token.lexeme, token, String.toList_ofList, whole, List.append_nil, List.append_assoc,
        split, behind, text, found]
    · simp only [Token.lexeme, token, String.toList_ofList, whole, List.append_nil, split, behind]

/-- **What is scanned is read.** -/
theorem Scans.lexTokens_eq (scans : Scans expectation words []) (place : Place) :
    (lexTokens expectation place (written words).toList).1.map Token.lexeme = words ∧
      (lexTokens expectation place (written words).toList).2 = none := by
  induction words generalizing expectation place with
  | nil =>
    rw [written_nil, lexTokens]
    exact ⟨rfl, rfl⟩
  | cons word rest ih =>
    cases scans with
    | cons stands later =>
      have found := stands.taken
      have gap := stands.gap
      rw [List.append_nil] at found gap
      rw [← String.toList_append, ← String.toList_append, ← written_cons] at found
      rw [lexTokens]
      split
      · next none => exact absurd (none.symm.trans found) (Option.some_ne_none _).symm
      · next kind text behind other =>
        obtain ⟨rfl, rfl, rfl⟩ : kind = word.kind ∧ text = word.text.toList ∧
            behind = word.gap.toList ++ (written rest).toList := by
          simpa using other.symm.trans found
        simp only [gap, String.ofList_toList, List.map_cons]
        obtain ⟨same, finished⟩ := ih later ((place.after word.text.toList).after word.gap.toList)
        exact ⟨congrArg (word :: ·) same, finished⟩

/-! ### What is behind a row of words -/

theorem Lexeme.Stands.exchange {word : Lexeme} (stands : word.Stands expectation (chars ++ behind))
    (stops : Stops behind) (stopsToo : Stops other)
    (last : chars ++ behind = [] → commentAfter false word.gap.toList = false) :
    word.Stands expectation (chars ++ other) := by
  have closed : Closed word.gap.toList := by
    by_cases nothing : chars ++ behind = []
    · have blank := stands.gap
      rw [nothing, List.append_nil] at blank
      exact ⟨blank, last nothing⟩
    · exact closed_of_takeGap nothing stands.gap
  have bare : Bare (chars ++ behind) := by
    have rest := bare_takeGap false (word.gap.toList ++ (chars ++ behind))
    rwa [stands.gap] at rest
  refine ⟨?_, closed.takeGap_append (bare.exchange stopsToo)⟩
  have taken := stands.taken
  rw [List.append_assoc, ← List.append_assoc word.gap.toList, ← List.append_assoc] at taken ⊢
  exact takeToken_exchange stops stopsToo taken

/-- **What is behind a row of words can be exchanged at a sign that stands alone**, and behind a
whole text where no comment is open at its end. -/
theorem Scans.exchange (scans : Scans expectation words behind) (stops : Stops behind)
    (stopsToo : Stops other)
    (ending : behind = [] → ∀ word ∈ words.getLast?, commentAfter false word.gap.toList = false) :
    Scans expectation words other := by
  induction scans with
  | nil => exact .nil _ _
  | @cons expectation word rest behind stands later ih =>
    refine .cons (stands.exchange stops stopsToo fun nothing => ?_) (ih stops fun none last member => ?_)
    · obtain ⟨noText, none⟩ := List.append_eq_nil_iff.1 nothing
      cases later with
      | nil => exact ending none word rfl
      | cons stands =>
        rw [written_cons, String.toList_append, String.toList_append] at noText
        exact absurd (List.append_eq_nil_iff.1 (List.append_eq_nil_iff.1 noText).1).1 stands.text_ne_nil
    · refine ending none last ?_
      rw [List.getLast?_cons, Option.mem_def.1 member]
      rfl

/-! ### Words in parentheses -/

/-- The second row of words is the first one with `new` for `old` in a pair of parentheses. -/
def Spliced (old new words others : List Lexeme) : Prop :=
  ∃ front left right back,
    words = front ++ ⟨.leftParen, "(", left⟩ :: (old ++ ⟨.rightParen, ")", right⟩ :: back) ∧
      others = front ++ ⟨.leftParen, "(", left⟩ :: (new ++ ⟨.rightParen, ")", right⟩ :: back)

variable {old new words others : List Lexeme}

theorem Spliced.between (spliced : Spliced old new words others) (before after : List Lexeme) :
    Spliced old new (before ++ (words ++ after)) (before ++ (others ++ after)) := by
  obtain ⟨front, left, right, back, rfl, rfl⟩ := spliced
  exact ⟨before ++ front, left, right, back ++ after, by simp, by simp⟩

theorem stops_written {kind : TokenKind} {gap : String} (c : Char) (lone : c ∈ loneSigns)
    (rest : List Lexeme) : Stops (written (⟨kind, String.singleton c, gap⟩ :: rest)).toList := by
  intro d member
  obtain rfl : c = d := by simpa using member
  exact lone

theorem takeToken_paren (expectation : Expectation) (gap behind : List Char) :
    takeToken expectation ("(".toList ++ gap ++ behind) =
        some (.leftParen, "(".toList, gap ++ behind) ∧
      takeToken expectation (")".toList ++ gap ++ behind) =
        some (.rightParen, ")".toList, gap ++ behind) := by
  rw [List.append_assoc, List.append_assoc]
  exact ⟨rfl, rfl⟩

/-- **The words of an expression can be put in parentheses** where no comment is open behind them. -/
theorem Scans.splice (scans : Scans expectation words []) (spliced : Spliced old new words others)
    (part : Scans .operand new []) (bare : Bare (written new).toList)
    (closed : ∀ word ∈ new.getLast?, commentAfter false word.gap.toList = false) :
    Scans expectation others [] := by
  obtain ⟨front, left, right, back, rfl, rfl⟩ := spliced
  obtain ⟨before, scans⟩ := scans_append.1 scans
  rw [List.append_nil] at before
  cases scans with
  | cons opening scans =>
    obtain ⟨-, scans⟩ := scans_append.1 scans
    cases scans with
    | cons closing after =>
      have ends : Stops (written (⟨.rightParen, ")", right⟩ :: back)).toList :=
        stops_written ')' (by decide) back
      have inner := part.exchange stops_nil ends fun _ => closed
      have blank : Closed left.toList := by
        have something : (written (old ++ ⟨.rightParen, ")", right⟩ :: back)).toList ≠ [] := by simp
        exact closed_of_takeGap something (by simpa using opening.gap)
      have bare : Bare (written (new ++ ⟨.rightParen, ")", right⟩ :: back)).toList := by
        rw [written_append, String.toList_append]
        have alone : Bare ((written new).toList ++ []) := by rwa [List.append_nil]
        exact alone.exchange ends
      refine scans_append.2 ⟨?_, .cons ⟨(takeToken_paren _ _ _).1, ?_⟩ (scans_append.2 ⟨?_,
        .cons ⟨(takeToken_paren _ _ _).2, closing.gap⟩ after⟩)⟩
      · rw [List.append_nil]
        exact before.exchange (stops_written '(' (by decide) _) (stops_written '(' (by decide) _)
          (by simp)
      · rw [List.append_nil]
        exact blank.takeGap_append bare
      · rw [List.append_nil]
        exact inner

/-- No comment is open in front of what stands behind a row of words. -/
theorem Scans.closed_getLast (scans : Scans expectation words behind) (something : behind ≠ []) :
    ∀ word ∈ words.getLast?, commentAfter false word.gap.toList = false := by
  intro word member
  obtain ⟨before, rfl⟩ := List.getLast?_eq_some_iff.1 member
  obtain ⟨-, scans⟩ := scans_append.1 scans
  cases scans with
  | cons stands => exact (closed_of_takeGap (by simpa using something) stands.gap).2

/-- Nor is one open in front of the closing parenthesis. -/
theorem Scans.closed_of_spliced (scans : Scans expectation others [])
    (spliced : Spliced old new words others) :
    ∀ word ∈ new.getLast?, commentAfter false word.gap.toList = false := by
  obtain ⟨front, left, right, back, -, rfl⟩ := spliced
  obtain ⟨-, scans⟩ := scans_append.1 scans
  cases scans with
  | cons opening scans => exact (scans_append.1 scans).1.closed_getLast (by simp)

/-! ### Texts -/

/-- A text is its leading blank text and its words. -/
theorem takeGap_of_lex {text : String} (done : (lex expectation text).stuck = none) :
    takeGap false text.toList = ((lex expectation text).leading.toList,
      (written ((lex expectation text).tokens.map Token.lexeme)).toList) := by
  rw [lex_written done, String.toList_ofList, lex, String.toList_ofList]

theorem bare_of_lex {text : String} (done : (lex expectation text).stuck = none) :
    Bare (written ((lex expectation text).tokens.map Token.lexeme)).toList := by
  have rest := bare_takeGap false text.toList
  rwa [takeGap_of_lex done] at rest

theorem scans_lex {text : String} (done : (lex expectation text).stuck = none) :
    Scans expectation ((lex expectation text).tokens.map Token.lexeme) [] :=
  scans_lexTokens done

/-- A text of words that are scanned, behind blank text, is read as these words. -/
theorem lex_of_scans {leading : String} (scans : Scans expectation words [])
    (split : takeGap false (leading.toList ++ (written words).toList) =
      (leading.toList, (written words).toList)) :
    (lex expectation (leading ++ written words)).leading = leading ∧
      (lex expectation (leading ++ written words)).tokens.map Token.lexeme = words ∧
        (lex expectation (leading ++ written words)).stuck = none := by
  rw [lex, String.toList_append, split, String.ofList_toList]
  exact ⟨rfl, scans.lexTokens_eq _⟩

/-- **The words of an expression can be put between the parentheses of a text** exactly when no
comment is open behind them. -/
theorem lex_spliced_iff {text part leading : String} (done : (lex expectation text).stuck = none)
    (starts : (lex expectation text).leading = leading) (partDone : (lex .operand part).stuck = none)
    (spliced : Spliced old ((lex .operand part).tokens.map Token.lexeme)
      ((lex expectation text).tokens.map Token.lexeme) others) :
    ((lex expectation (leading ++ written others)).leading = leading ∧
      (lex expectation (leading ++ written others)).tokens.map Token.lexeme = others ∧
        (lex expectation (leading ++ written others)).stuck = none) ↔
      ∀ word ∈ ((lex .operand part).tokens.map Token.lexeme).getLast?,
        commentAfter false word.gap.toList = false := by
  subst starts
  constructor
  · rintro ⟨-, words, finished⟩
    have scans := scans_lex finished
    rw [words] at scans
    exact scans.closed_of_spliced spliced
  · intro closed
    refine lex_of_scans ((scans_lex done).splice spliced (scans_lex partDone) (bare_of_lex partDone)
      closed) ?_
    have blank := takeGap_of_lex done
    have bare := bare_of_lex done
    obtain ⟨front, left, right, back, same, rfl⟩ := spliced
    have whole := takeGap_append false text.toList
    rw [blank] at whole
    rw [← whole] at blank
    rw [same] at blank bare
    refine (closed_of_takeGap (by simp) blank).takeGap_append ?_
    rw [written_append, String.toList_append] at bare ⊢
    exact bare.exchange (stops_written '(' (by decide) _)

end Verbatim
