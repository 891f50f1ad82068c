import Verbatim.Json.Reader
import Verbatim.Json.Writer
import Verbatim.Proofs.Source.Spelling

/-!
# Written values are read back

What is written of a value is read as the same value. Numbers with a fraction are left out here, and
integers are only read up to a number of digits. The fields of an object come back in their order if
no name occurs twice.

A reader does not know where a written value ends. What follows one is a comma, a line end or nothing,
so no digit or letter can be taken for a part of it.

## Main definitions

* `Json.Writable`: values that are read back
* `Json.Stops`: what follows a written value
* `Json.ReadsAs`: characters that are read as a value

## Main results

* `Json.readString_escaped`: a quoted text is read back
* `Json.Writable.readsAs`: **a written value is read back**, whatever follows it
* `Json.Writable.read_pretty`: the same for whole texts
* `Json.Writable.notMem_pretty`: no line end of another kind is written
-/

namespace Verbatim.Json

variable {width depth steps number : Nat} {opening rest chars : List Char}

/-! ### Strings -/

/-- A character is written as a pair that stands for it, by its number, or as itself. -/
theorem escapeChar_cases (c : Char) :
    (∃ letter, escapeChar c = ['\\', letter] ∧ escapeValue? letter = some c ∧ letter ≠ 'u' ∧
      0x20 ≤ letter.toNat) ∨
    (c.toNat < 0x20 ∧ escapeChar c = '\\' :: 'u' :: Text.hex 4 c.toNat) ∨
    (c ≠ '"' ∧ c ≠ '\\' ∧ 0x20 ≤ c.toNat ∧ escapeChar c = [c]) := by
  unfold escapeChar
  repeat' split
  iterate 7
    next same => exact .inl ⟨_, rfl, by rw [same]; rfl, by decide, by decide⟩
  · next control => exact .inr (.inl ⟨control, rfl⟩)
  · next quote backslash _ _ _ _ _ above =>
    exact .inr (.inr ⟨quote, backslash, Nat.le_of_not_lt above, rfl⟩)

theorem takeHex?_append (taken : takeHex? chars = some (number, [])) (rest : List Char) :
    takeHex? (chars ++ rest) = some (number, rest) := by
  match chars, taken with
  | a :: b :: c :: d :: more, taken =>
    simp only [takeHex?, Option.bind_eq_bind, Option.bind_eq_some_iff, Option.pure_def,
      Option.some.injEq, Prod.mk.injEq] at taken
    obtain ⟨first, isFirst, second, isSecond, third, isThird, fourth, isFourth, rfl, rfl⟩ := taken
    simp [takeHex?, isFirst, isSecond, isThird, isFourth]

/-- The number of a control character is read, and nothing behind it. -/
theorem readHexEscape_hex (small : number < 0x20) (more : rest ≠ []) (u : List Char) :
    readHexEscape u (Text.hex 4 number ++ rest) = .ok (Char.ofNat number, rest) := by
  have four : ∀ number < 0x20, takeHex? (Text.hex 4 number) = some (number, []) := by decide
  unfold readHexEscape
  rw [takeHex?_append (four number small)]
  simp only [List.isEmpty_iff, more, if_false]
  split
  · rw [if_neg (by omega)]
  · rfl

theorem readString_pair {letter c : Char} (stands : escapeValue? letter = some c)
    (other : letter ≠ 'u') : readString opening (steps + 1) ('\\' :: letter :: rest) =
      (readString opening steps rest).map fun split => (c :: split.1, split.2) := by
  rw [readString]
  · simp only [stands]
    cases readString opening steps rest <;> rfl
  · exact other

theorem readString_plain {c : Char} (quote : c ≠ '"') (backslash : c ≠ '\\')
    (above : 0x20 ≤ c.toNat) : readString opening (steps + 1) (c :: rest) =
      (readString opening steps rest).map fun split => (c :: split.1, split.2) := by
  rw [readString]
  · rw [if_neg (Nat.not_lt.2 above)]
    cases readString opening steps rest <;> rfl
  all_goals
    intros
    simp_all

/-- A written character is read again, in one step. -/
theorem readString_escapeChar (c : Char) (more : rest ≠ []) :
    readString opening (steps + 1) (escapeChar c ++ rest) =
      (readString opening steps rest).map fun split => (c :: split.1, split.2) := by
  obtain ⟨letter, same, stands, other, -⟩ | ⟨control, same⟩ | ⟨quote, backslash, above, same⟩ :=
    escapeChar_cases c
  · rw [same]
    exact readString_pair stands other
  · rw [same, List.cons_append, List.cons_append, readString, readHexEscape_hex control more,
      Char.ofNat_toNat]
    simp only [bind, Except.bind, pure, Except.pure]
    cases readString opening steps rest <;> rfl
  · rw [same]
    exact readString_plain quote backslash above

/-- **A quoted text is read back.** -/
theorem readString_escaped {text : List Char} (enough : text.length < steps) :
    readString opening steps (text.flatMap escapeChar ++ '"' :: rest) = .ok (text, rest) := by
  induction text generalizing steps with
  | nil =>
    obtain ⟨steps, rfl⟩ := Nat.exists_eq_succ_of_ne_zero (Nat.ne_zero_of_lt enough)
    simp [readString]
  | cons c text ih =>
    obtain ⟨steps, rfl⟩ := Nat.exists_eq_succ_of_ne_zero (Nat.ne_zero_of_lt enough)
    rw [List.flatMap_cons, List.append_assoc, readString_escapeChar c (by simp),
      ih (Nat.lt_of_succ_lt_succ enough)]
    rfl

/-- Quoting makes no text shorter. -/
theorem length_le_escaped (text : List Char) : text.length ≤ (text.flatMap escapeChar).length := by
  induction text with
  | nil => exact Nat.le_refl 0
  | cons c text ih =>
    have some : 0 < (escapeChar c).length := by
      obtain ⟨_, same, -⟩ | ⟨-, same⟩ | ⟨-, -, -, same⟩ := escapeChar_cases c <;> simp [same]
    rw [List.flatMap_cons, List.length_append, List.length_cons]
    omega

/-! ### Numbers -/

/-- What follows a written value: nothing, a comma, or a line end. -/
def Stops (rest : List Char) : Prop :=
  ∀ c ∈ rest.head?, c = ',' ∨ c = '\n'

theorem stops_nil : Stops [] := by
  simp [Stops]

theorem stops_comma (rest : List Char) : Stops (',' :: rest) := by
  simp [Stops]

theorem stops_lineEnd (rest : List Char) : Stops ('\n' :: rest) := by
  simp [Stops]

theorem Stops.endsBefore (stops : Stops rest) : EndsBefore Char.isDigit rest := by
  intro c member
  obtain rfl | rfl := stops c member <;> decide

theorem Stops.takeFraction (stops : Stops rest) : takeFraction rest = ([], rest) := by
  cases rest with
  | nil => rfl
  | cons c rest =>
    obtain rfl | rfl := stops c rfl <;> rfl

theorem Stops.takeExponent? (stops : Stops rest) : takeExponent? rest = none := by
  cases rest with
  | nil => rfl
  | cons c rest =>
    obtain rfl | rfl := stops c rfl <;> rfl

/-- Only zero is written with a zero in front. -/
theorem head?_toDigits (positive : 0 < number) : (Nat.toDigits 10 number).head? ≠ some '0' := by
  induction number using Nat.strongRecOn with
  | ind number ih =>
    rw [Nat.toDigits_eq_if (by decide)]
    split
    · next small =>
      have digits : ∀ number < 10, 0 < number → Nat.digitChar number ≠ '0' := by decide
      simpa using digits number small positive
    · rw [List.head?_append_of_ne_nil _ Nat.toDigits_ne_nil]
      exact ih (number / 10) (by omega) (by omega)

theorem takeWhole_toDigits (stops : Stops rest) :
    takeWhole (Nat.toDigits 10 number ++ rest) = Nat.toDigits 10 number := by
  obtain rfl | positive := Nat.eq_zero_or_pos number
  · rfl
  · have first := head?_toDigits positive
    unfold takeWhole
    split
    · next same =>
      have front : (Nat.toDigits 10 number ++ rest).head? = (Nat.toDigits 10 number).head? :=
        List.head?_append_of_ne_nil _ Nat.toDigits_ne_nil
      rw [same] at front
      exact absurd front.symm first
    · exact takeWhile_append_of_endsBefore
        (fun c member => Nat.isDigit_of_mem_toDigits (by decide) (by decide) member)
        stops.endsBefore

theorem exists_toDigits (number : Nat) :
    ∃ c rest, Nat.toDigits 10 number = c :: rest ∧ c.isDigit := by
  obtain ⟨c, rest, same⟩ := List.exists_cons_of_ne_nil (Nat.toDigits_ne_nil (n := number) (b := 10))
  exact ⟨c, rest, same, Nat.isDigit_of_mem_toDigits (b := 10) (n := number) (by decide) (by decide)
    (same ▸ List.mem_cons_self)⟩

theorem toList_toString_ofNat (number : Nat) :
    (toString (Int.ofNat number)).toList = Nat.toDigits 10 number := by
  simp [Int.toString_eq_repr, Int.repr, Nat.repr_eq_ofList_toDigits]

theorem toList_toString_negSucc (number : Nat) :
    (toString (Int.negSucc number)).toList = '-' :: Nat.toDigits 10 (number + 1) := by
  simp [Int.toString_eq_repr, Int.repr, Nat.repr_eq_ofList_toDigits]

/-- A digit is none of the characters that other values start with. -/
theorem ne_of_isDigit {c : Char} (digit : c.isDigit) :
    c ≠ 'n' ∧ c ≠ 't' ∧ c ≠ 'f' ∧ c ≠ 'N' ∧ c ≠ 'I' ∧ c ≠ '-' ∧ c ≠ '"' ∧ c ≠ '[' ∧ c ≠ '\x7b' := by
  refine ⟨?_, ?_, ?_, ?_, ?_, ?_, ?_, ?_, ?_⟩ <;>
  · rintro rfl
    exact absurd digit (by decide)

/-- Written digits are read back as a whole number. -/
theorem readNumber_toDigits (short : number < 10 ^ Text.digitLimit) (stops : Stops rest)
    (start : List Char) (negative : Bool) :
    readNumber start negative (Nat.toDigits 10 number ++ rest) =
      .ok (.int (if negative then -(number : Int) else number), rest) := by
  have few : ¬Text.digitLimit < (Nat.toDigits 10 number).length :=
    Nat.not_lt.2 ((Nat.length_toDigits_le_iff (by decide) (by decide)).2 short)
  have value : digitsValue (Nat.toDigits 10 number) = number := Nat.ofDigitChars_ten_toDigits
  unfold readNumber
  simp only [takeWhole_toDigits stops, List.drop_left, stops.takeFraction, stops.takeExponent?,
    value, few, if_false, List.isEmpty_iff, Nat.toDigits_ne_nil]

theorem readPlain_digit {c : Char} (digit : c.isDigit) :
    readPlain (c :: chars) = readNumber (c :: chars) false (c :: chars) := by
  obtain ⟨n, t, f, bigN, bigI, minus, -⟩ := ne_of_isDigit digit
  have word : takeWord? (c :: chars) = none := by
    simp [takeWord?, words, n, t, f, bigN, bigI, minus]
  simp [readPlain, word, minus]

theorem readPlain_minus {c : Char} (digit : c.isDigit) :
    readPlain ('-' :: c :: chars) = readNumber ('-' :: c :: chars) true (c :: chars) := by
  have word : takeWord? ('-' :: c :: chars) = none := by
    simp [takeWord?, words, ne_of_isDigit digit]
  simp [readPlain, word]

/-! ### Values -/

/-- The characters that written values start with. -/
def startsValue (c : Char) : Bool :=
  c.isDigit || ['n', 't', 'f', '-', '"', '[', '\x7b'].contains c

/-- The characters start like a value. -/
def StartsValue (chars : List Char) : Prop :=
  ∃ c more, chars = c :: more ∧ startsValue c

theorem StartsValue.append (starts : StartsValue chars) (rest : List Char) :
    StartsValue (chars ++ rest) := by
  obtain ⟨c, more, rfl, starts⟩ := starts
  exact ⟨c, more ++ rest, rfl, starts⟩

/-- A reader with three steps for every character has two to begin with. -/
theorem StartsValue.exists_steps (starts : StartsValue chars) (enough : 3 * chars.length ≤ steps) :
    ∃ further, steps = further + 2 := by
  obtain ⟨c, more, rfl, -⟩ := starts
  rw [List.length_cons] at enough
  exact ⟨steps - 2, by omega⟩

/-- The characters are read as the value, whatever follows that can follow a value. For every
character there have to be three steps. -/
structure ReadsAs (written : List Char) (value : Json) : Prop where
  starts : StartsValue written
  reads : ∀ {steps : Nat} {rest : List Char}, 3 * written.length ≤ steps → Stops rest →
    readValue steps (written ++ rest) = .ok (value, rest)

/-- Other values start with a quote or a bracket. -/
theorem readValue_plain {c : Char} (quote : c ≠ '"') (bracket : c ≠ '[') (brace : c ≠ '\x7b') :
    readValue (steps + 1) (c :: chars) = readPlain (c :: chars) := by
  rw [readValue]
  all_goals simp [quote, bracket, brace]

theorem readsAs_word {c : Char} {word : List Char} {value : Json} (starts : startsValue c)
    (other : c ≠ '"' ∧ c ≠ '[' ∧ c ≠ '\x7b')
    (found : ∀ rest, takeWord? (c :: (word ++ rest)) = some (value, rest)) :
    ReadsAs (c :: word) value := by
  obtain ⟨quote, bracket, brace⟩ := other
  have starts : StartsValue (c :: word) := ⟨c, word, rfl, starts⟩
  refine ⟨starts, fun {steps rest} enough _ => ?_⟩
  obtain ⟨steps, rfl⟩ := starts.exists_steps enough
  rw [List.cons_append, readValue_plain quote bracket brace]
  simp only [readPlain, found]

theorem readsAs_null : ReadsAs "null".toList .null := by
  have letters : "null".toList = ['n', 'u', 'l', 'l'] := rfl
  rw [letters]
  exact readsAs_word rfl (by decide) fun rest => by simp [takeWord?, words]

theorem readsAs_bool (value : Bool) :
    ReadsAs (if value then "true" else "false").toList (.bool value) := by
  cases value with
  | false =>
    have letters : "false".toList = ['f', 'a', 'l', 's', 'e'] := rfl
    rw [if_neg Bool.false_ne_true, letters]
    exact readsAs_word rfl (by decide) fun rest => by simp [takeWord?, words]
  | true =>
    have letters : "true".toList = ['t', 'r', 'u', 'e'] := rfl
    rw [if_pos rfl, letters]
    exact readsAs_word rfl (by decide) fun rest => by simp [takeWord?, words]

theorem readsAs_text (text : String) : ReadsAs (quote text).toList (.text text) := by
  have shape (rest : List Char) : (quote text).toList ++ rest =
      '"' :: (text.toList.flatMap escapeChar ++ '"' :: rest) := by
    simp [quote]
  have starts : StartsValue (quote text).toList := ⟨'"', _, by simpa using shape [], rfl⟩
  refine ⟨starts, fun {steps rest} enough _ => ?_⟩
  have shorter := length_le_escaped text.toList
  obtain ⟨steps, rfl⟩ := starts.exists_steps enough
  rw [shape, readValue, readString_escaped]
  · simp [bind, Except.bind, pure, Except.pure]
  · simp [quote] at enough shorter ⊢
    omega

theorem readsAs_int {value : Int} (short : value.natAbs < 10 ^ Text.digitLimit) :
    ReadsAs (toString value).toList (.int value) := by
  cases value with
  | ofNat number =>
    have short : number < 10 ^ Text.digitLimit := short
    obtain ⟨c, digits, same, digit⟩ := exists_toDigits number
    obtain ⟨-, -, -, -, -, -, quote, bracket, brace⟩ := ne_of_isDigit digit
    have starts : StartsValue (Nat.toDigits 10 number) :=
      ⟨c, digits, same, by rw [startsValue, digit, Bool.true_or]⟩
    rw [toList_toString_ofNat]
    refine ⟨starts, fun {steps rest} enough stops => ?_⟩
    obtain ⟨steps, rfl⟩ := starts.exists_steps enough
    have read := readNumber_toDigits short stops (Nat.toDigits 10 number ++ rest) false
    rw [same] at read
    rw [same, List.cons_append, readValue_plain quote bracket brace, readPlain_digit digit]
    exact read
  | negSucc number =>
    have short : number + 1 < 10 ^ Text.digitLimit := short
    obtain ⟨c, digits, same, digit⟩ := exists_toDigits (number + 1)
    rw [toList_toString_negSucc]
    have starts : StartsValue ('-' :: Nat.toDigits 10 (number + 1)) := ⟨'-', _, rfl, rfl⟩
    refine ⟨starts, fun {steps rest} enough stops => ?_⟩
    obtain ⟨steps, rfl⟩ := starts.exists_steps enough
    have read := readNumber_toDigits short stops ('-' :: Nat.toDigits 10 (number + 1) ++ rest) true
    rw [same] at read
    rw [same, List.cons_append, List.cons_append,
      readValue_plain (by decide) (by decide) (by decide), readPlain_minus digit]
    exact read

/-! ### Lines -/

theorem isPadding_of_startsValue {c : Char} (starts : startsValue c) : isPadding c = false := by
  by_contra padding
  simp only [isPadding, Bool.not_eq_false, Bool.or_eq_true, decide_eq_true_eq] at padding
  obtain ((rfl | rfl) | rfl) | rfl := padding <;> exact absurd starts (by decide)

theorem isPadding_of_mem_lineBreak {c : Char} (member : c ∈ (lineBreak width depth).toList) :
    isPadding c := by
  simp only [lineBreak, String.toList_append, String.toList_ofList, List.mem_append,
    List.mem_replicate] at member
  obtain lineEnd | ⟨-, rfl⟩ := member
  · obtain rfl : c = '\n' := by simpa using lineEnd
    rfl
  · rfl

/-- A line end with its blanks is skipped. -/
theorem skipPadding_lineBreak {c : Char} (other : isPadding c = false) :
    skipPadding ((lineBreak width depth).toList ++ c :: rest) = c :: rest := by
  rw [skipPadding, List.dropWhile_append_of_pos fun c member => isPadding_of_mem_lineBreak member]
  simp [other]

theorem StartsValue.skipPadding (starts : StartsValue chars) :
    skipPadding ((lineBreak width depth).toList ++ chars) = chars := by
  obtain ⟨c, more, rfl, starts⟩ := starts
  exact skipPadding_lineBreak (isPadding_of_startsValue starts)

/-- Lines start with the first of them. -/
theorem StartsValue.lines {line : List Char} (starts : StartsValue line) (separator : List Char)
    (lines : List (List Char)) : StartsValue (separator.intercalate (line :: lines)) := by
  cases lines with
  | nil => rwa [List.intercalate_singleton]
  | cons next lines =>
    rw [List.intercalate_cons_cons, List.append_assoc]
    exact starts.append _

theorem stops_lineBreak (rest : List Char) : Stops ((lineBreak width depth).toList ++ rest) := by
  simpa [lineBreak] using stops_lineEnd _

/-- Lines in brackets, of which there is at least one. -/
theorem toList_bracketLines {opening closing : String} {lines : List String} (some : lines ≠ []) :
    (bracketLines width depth opening closing lines).toList =
      opening.toList ++ ((lineBreak width (depth + 1)).toList ++
        ((',' :: (lineBreak width (depth + 1)).toList).intercalate (lines.map String.toList) ++
          ((lineBreak width depth).toList ++ closing.toList))) := by
  simp [bracketLines, some, String.toList_intercalate]

/-- Items in lines are read one after the other. -/
theorem readItems_lines {inside : Nat} {lines : List (List Char)} {items : List Json}
    (each : List.Forall₂ ReadsAs lines items) (some : items ≠ [])
    (enough : 3 * ((',' :: (lineBreak width inside).toList).intercalate lines).length < steps) :
    readItems steps ((',' :: (lineBreak width inside).toList).intercalate lines ++
      ((lineBreak width depth).toList ++ ']' :: rest)) = .ok (items, rest) := by
  induction each generalizing steps with
  | nil => exact absurd rfl some
  | @cons line item lines items reads each ih =>
    obtain ⟨steps, rfl⟩ : ∃ more, steps = more + 1 := ⟨steps - 1, by omega⟩
    cases each with
    | nil =>
      rw [List.intercalate_singleton] at enough ⊢
      rw [readItems, reads.reads (by omega) (stops_lineBreak _)]
      have skipped : skipPadding ((lineBreak width depth).toList ++ ']' :: rest) = ']' :: rest :=
        skipPadding_lineBreak rfl
      simp [bind, Except.bind, pure, Except.pure, skipped]
    | @cons next other lines items readsNext each =>
      rw [List.intercalate_cons_cons] at enough ⊢
      simp only [List.length_append, List.length_cons] at enough
      have later := @ih steps (List.cons_ne_nil _ _) (by omega)
      have starts (more : List Char) : StartsValue
          ((',' :: (lineBreak width inside).toList).intercalate (next :: lines) ++ more) :=
        (readsNext.starts.lines _ lines).append more
      have comma (behind : List Char) : skipPadding (',' :: behind) = ',' :: behind := rfl
      simp only [List.append_assoc, List.cons_append]
      rw [readItems, reads.reads (by omega) (stops_comma _)]
      simp [bind, Except.bind, pure, Except.pure, comma, (starts _).skipPadding, later]

/-! ### Fields -/

theorem insertField_of_notMem {name : String} {value : Json} {fields : List (String × Json)}
    (new : name ∉ fields.map Prod.fst) :
    insertField name value fields = fields ++ [(name, value)] := by
  induction fields with
  | nil => rfl
  | cons field rest ih =>
    obtain ⟨other, later⟩ := not_or.1 (mt List.mem_cons.2 new)
    rw [insertField, if_neg (Ne.symm other), ih later, List.cons_append]

/-- The line is a quoted name, and characters that are read as a value. -/
def FieldReadsAs (line : List Char) (field : String × Json) : Prop :=
  ∃ written, ReadsAs written field.2 ∧
    line = '"' :: (field.1.toList.flatMap escapeChar ++ '"' :: ':' :: ' ' :: written)

theorem FieldReadsAs.starts {line : List Char} {field : String × Json}
    (reads : FieldReadsAs line field) : StartsValue line := by
  obtain ⟨written, -, rfl⟩ := reads
  exact ⟨'"', _, rfl, rfl⟩

/-- A field in front is put to those before it, and what follows decides how to go on. -/
theorem readFields_field {line tail : List Char} {field : String × Json}
    {before : List (String × Json)} (reads : FieldReadsAs line field)
    (enough : 3 * line.length ≤ steps) (stops : Stops tail) :
    readFields (steps + 1) before (line ++ tail) =
      match skipPadding tail with
      | '\x7d' :: rest => .ok (insertField field.1 field.2 before, rest)
      | ',' :: rest => readFields steps (insertField field.1 field.2 before) (skipPadding rest)
      | rest => .error (.refused .expectedComma rest) := by
  obtain ⟨written, reads, rfl⟩ := reads
  have shorter := length_le_escaped field.1.toList
  have colon (behind : List Char) : skipPadding (':' :: behind) = ':' :: behind := rfl
  have blank : skipPadding (' ' :: (written ++ tail)) = written ++ tail := by
    obtain ⟨c, more, rfl, starts⟩ := reads.starts
    simp [skipPadding, isPadding_of_startsValue starts, show isPadding ' ' = true from rfl]
  simp only [List.length_append, List.length_cons] at enough
  have value : readValue steps (written ++ tail) = .ok (field.2, tail) :=
    reads.reads (by omega) stops
  simp only [List.cons_append, List.append_assoc]
  rw [readFields, readString_escaped (by omega)]
  simp only [bind, Except.bind, colon, blank, value, String.ofList_toList]
  rfl

/-- Fields in lines are read one after the other, if no name occurs twice. -/
theorem readFields_lines {inside : Nat} {lines : List (List Char)} {fields : List (String × Json)}
    (before : List (String × Json)) (each : List.Forall₂ FieldReadsAs lines fields)
    (some : fields ≠ []) (names : ((before ++ fields).map Prod.fst).Nodup)
    (enough : 3 * ((',' :: (lineBreak width inside).toList).intercalate lines).length < steps) :
    readFields steps before ((',' :: (lineBreak width inside).toList).intercalate lines ++
      ((lineBreak width depth).toList ++ '\x7d' :: rest)) = .ok (before ++ fields, rest) := by
  induction each generalizing steps before with
  | nil => exact absurd rfl some
  | @cons line field lines fields reads each ih =>
    obtain ⟨steps, rfl⟩ : ∃ more, steps = more + 1 := ⟨steps - 1, by omega⟩
    have new : field.1 ∉ before.map Prod.fst := by
      rw [List.map_append, List.nodup_append] at names
      exact fun member => names.2.2 _ member _ List.mem_cons_self rfl
    have inserted : insertField field.1 field.2 before = before ++ [field] :=
      insertField_of_notMem new
    cases each with
    | nil =>
      rw [List.intercalate_singleton] at enough ⊢
      rw [readFields_field reads (by omega) (stops_lineBreak _), skipPadding_lineBreak rfl, inserted]
      rfl
    | @cons next other lines fields readsNext each =>
      rw [List.intercalate_cons_cons] at enough ⊢
      simp only [List.length_append, List.length_cons] at enough
      have later := @ih steps (before ++ [field]) (List.cons_ne_nil _ _)
        (by rwa [List.append_assoc]) (by omega)
      have comma (behind : List Char) : skipPadding (',' :: behind) = ',' :: behind := rfl
      simp only [List.append_assoc, List.cons_append]
      rw [readFields_field reads (by omega) (stops_comma _), comma]
      simp only [inserted, ((readsNext.starts.lines _ lines).append _).skipPadding]
      rw [later, List.append_assoc]
      rfl

/-! ### Brackets -/

theorem prettyItems_eq_map (items : List Json) :
    prettyItems width depth items = items.map (prettyAt width depth) := by
  induction items with
  | nil => rfl
  | cons item rest ih => rw [prettyItems, ih, List.map_cons]

theorem prettyFields_eq_map (fields : List (String × Json)) : prettyFields width depth fields =
    fields.map fun field => quote field.1 ++ ": " ++ prettyAt width depth field.2 := by
  induction fields with
  | nil => rfl
  | cons field rest ih => rw [prettyFields, ih, List.map_cons]

/-- Lines in brackets are read back if the reader goes through them to the closing bracket, behind
the two steps in which it finds the opening one. -/
theorem readsAs_brackets {opening closing : Char} {chars : List Char} {value : Json}
    (starts : startsValue opening)
    (reads : ∀ {steps : Nat} {rest : List Char}, 3 * chars.length < steps →
      readValue (steps + 2) (opening :: ((lineBreak width (depth + 1)).toList ++
        (chars ++ ((lineBreak width depth).toList ++ closing :: rest)))) = .ok (value, rest)) :
    ReadsAs (opening :: ((lineBreak width (depth + 1)).toList ++
      (chars ++ ((lineBreak width depth).toList ++ [closing])))) value := by
  refine ⟨⟨opening, _, rfl, starts⟩, fun {steps rest} enough _ => ?_⟩
  obtain ⟨steps, rfl⟩ := StartsValue.exists_steps ⟨opening, _, rfl, starts⟩ enough
  simp only [List.length_cons, List.length_append] at enough
  simpa only [List.cons_append, List.append_assoc, List.nil_append] using reads (by omega)

/-- An array with items in it starts with something other than its closing bracket. -/
theorem readArray_of_items {items : List Json} (starts : StartsValue chars)
    (read : readItems steps chars = .ok (items, rest)) :
    readArray (steps + 1) ((lineBreak width depth).toList ++ chars) =
      .ok (.array items, rest) := by
  rw [readArray, starts.skipPadding]
  obtain ⟨c, more, rfl, starts⟩ := starts
  split
  · next same =>
    obtain ⟨rfl, -⟩ := List.cons.inj same
    exact absurd starts (by decide)
  · rw [read]
    rfl

/-- A list is read back if its items are. -/
theorem readsAs_array {items : List Json}
    (each : ∀ item ∈ items, ReadsAs (prettyAt width (depth + 1) item).toList item) :
    ReadsAs (prettyAt width depth (.array items)).toList (.array items) := by
  cases items with
  | nil =>
    have letters : (prettyAt width depth (.array [])).toList = ['[', ']'] := by
      simp [prettyAt, prettyItems, bracketLines]
    rw [letters]
    have starts : StartsValue ['[', ']'] := ⟨'[', _, rfl, rfl⟩
    refine ⟨starts, fun {steps rest} enough _ => ?_⟩
    obtain ⟨steps, rfl⟩ := starts.exists_steps enough
    rfl
  | cons item items =>
    rw [prettyAt, toList_bracketLines (by simp [prettyItems]), prettyItems_eq_map, List.map_map]
    refine @readsAs_brackets _ _ '[' ']' _ _ rfl fun {steps rest} enough => ?_
    rw [readValue]
    exact readArray_of_items (((each item List.mem_cons_self).starts.lines _ _).append _)
      (readItems_lines (List.forall₂_map_left_iff.2 (List.forall₂_same.2 each))
        (List.cons_ne_nil _ _) enough)

/-- An object with fields in it starts with something other than its closing brace. -/
theorem readObject_of_fields {fields : List (String × Json)} (starts : StartsValue chars)
    (read : readFields steps [] chars = .ok (fields, rest)) :
    readObject (steps + 1) ((lineBreak width depth).toList ++ chars) =
      .ok (.object fields, rest) := by
  rw [readObject, starts.skipPadding]
  obtain ⟨c, more, rfl, starts⟩ := starts
  split
  · next same =>
    obtain ⟨rfl, -⟩ := List.cons.inj same
    exact absurd starts (by decide)
  · rw [read]
    rfl

theorem fieldReadsAs_pretty {field : String × Json}
    (reads : ReadsAs (prettyAt width depth field.2).toList field.2) :
    FieldReadsAs (quote field.1 ++ ": " ++ prettyAt width depth field.2).toList field :=
  ⟨_, reads, by simp [quote]⟩

/-- An object is read back if its fields are, and no name occurs twice. -/
theorem readsAs_object {fields : List (String × Json)} (names : (fields.map Prod.fst).Nodup)
    (each : ∀ field ∈ fields, ReadsAs (prettyAt width (depth + 1) field.2).toList field.2) :
    ReadsAs (prettyAt width depth (.object fields)).toList (.object fields) := by
  cases fields with
  | nil =>
    have letters : (prettyAt width depth (.object [])).toList = ['\x7b', '\x7d'] := by
      simp [prettyAt, prettyFields, bracketLines]
    rw [letters]
    have starts : StartsValue ['\x7b', '\x7d'] := ⟨'\x7b', _, rfl, rfl⟩
    refine ⟨starts, fun {steps rest} enough _ => ?_⟩
    obtain ⟨steps, rfl⟩ := starts.exists_steps enough
    rfl
  | cons field fields =>
    have lines (field : String × Json) (member) := fieldReadsAs_pretty (each field member)
    rw [prettyAt, toList_bracketLines (by simp [prettyFields]), prettyFields_eq_map, List.map_map]
    refine @readsAs_brackets _ _ '\x7b' '\x7d' _ _ rfl fun {steps rest} enough => ?_
    rw [readValue]
    exact readObject_of_fields (((lines field List.mem_cons_self).starts.lines _ _).append _)
      (readFields_lines [] (List.forall₂_map_left_iff.2 (List.forall₂_same.2 lines))
        (List.cons_ne_nil _ _) names enough)

/-! ### Written values -/

/-- Values that are read back: no number has a fraction, no integer has too many digits, and no name
occurs twice among the fields of an object. -/
inductive Writable : Json → Prop where
  | null : Writable .null
  | bool (value : Bool) : Writable (.bool value)
  | int {value : Int} (short : value.natAbs < 10 ^ Text.digitLimit) : Writable (.int value)
  | text (value : String) : Writable (.text value)
  | array {items : List Json} (each : ∀ item ∈ items, Writable item) : Writable (.array items)
  | object {fields : List (String × Json)} (names : (fields.map Prod.fst).Nodup)
      (each : ∀ field ∈ fields, Writable field.2) : Writable (.object fields)

variable {value : Json}

/-- **A written value is read back**, whatever follows it that can follow a value. -/
theorem Writable.readsAs (h : Writable value) : ReadsAs (prettyAt width depth value).toList value := by
  induction h generalizing depth with
  | null => exact readsAs_null
  | bool value => exact readsAs_bool value
  | int short => exact readsAs_int short
  | text value => exact readsAs_text value
  | array _ ih => exact readsAs_array fun item member => ih item member
  | object names _ ih => exact readsAs_object names fun field member => ih field member

/-- **The text of a value is read as the value.** -/
theorem Writable.read_pretty (h : Writable value) : read (pretty width value) = .ok value := by
  have written : ReadsAs (prettyAt width 0 value).toList value := h.readsAs
  have value : readValue (4 * ((pretty width value).toList.length + 1))
      ((pretty width value).toList ++ []) = .ok (value, []) :=
    written.reads (by rw [pretty]; omega) stops_nil
  obtain ⟨c, more, same, starts⟩ := written.starts
  have mark : c ≠ '\ufeff' := by
    rintro rfl
    exact absurd starts (by decide)
  rw [List.append_nil] at value
  rw [read, readAll]
  rw [pretty, same] at value ⊢
  rw [List.length_cons] at value
  have skipped : skipPadding (c :: more) = c :: more := by
    simp [skipPadding, isPadding_of_startsValue starts]
  have nothing : skipPadding [] = [] := rfl
  simp [mark, skipped, value, nothing, bind, Except.bind, pure, Except.pure, Except.mapError]

/-! ### Line ends -/

theorem notMem_escapeChar (c : Char) : '\r' ∉ escapeChar c := by
  have other {c : Char} (above : 0x20 ≤ c.toNat) : '\r' ≠ c := by
    rintro rfl
    exact absurd above (by decide)
  have digits : ∀ number < 0x20, '\r' ∉ Text.hex 4 number := by decide
  obtain ⟨letter, same, -, -, above⟩ | ⟨control, same⟩ | ⟨-, -, above, same⟩ := escapeChar_cases c
  · simp [same, other above]
  · simp [same, digits _ control]
  · simp [same, other above]

theorem notMem_quote (text : String) : '\r' ∉ (quote text).toList := by
  simp [quote, notMem_escapeChar]

theorem notMem_toDigits (number : Nat) : '\r' ∉ Nat.toDigits 10 number := fun member =>
  absurd (Nat.isDigit_of_mem_toDigits (by decide) (by decide) member) (by decide)

theorem notMem_toString (value : Int) : '\r' ∉ (toString value).toList := by
  cases value with
  | ofNat number =>
    rw [toList_toString_ofNat]
    exact notMem_toDigits number
  | negSucc number =>
    rw [toList_toString_negSucc]
    simp [notMem_toDigits]

theorem notMem_lineBreak : '\r' ∉ (lineBreak width depth).toList := by
  simp [lineBreak]

theorem notMem_intercalate {c : Char} {separator : List Char} {lines : List (List Char)}
    (outside : c ∉ separator) (each : ∀ line ∈ lines, c ∉ line) :
    c ∉ separator.intercalate lines := by
  induction lines with
  | nil => exact List.not_mem_nil
  | cons line lines ih =>
    obtain ⟨here, later⟩ := List.forall_mem_cons.1 each
    cases lines with
    | nil => rwa [List.intercalate_singleton]
    | cons next lines =>
      rw [List.intercalate_cons_cons]
      simp [here, outside, ih later]

theorem notMem_bracketLines {opening closing : String} {lines : List String}
    (outside : '\r' ∉ opening.toList ∧ '\r' ∉ closing.toList)
    (each : ∀ line ∈ lines, '\r' ∉ line.toList) :
    '\r' ∉ (bracketLines width depth opening closing lines).toList := by
  obtain rfl | some := eq_or_ne lines []
  · simpa [bracketLines] using outside
  · have inside : '\r' ∉ (',' :: (lineBreak width (depth + 1)).toList).intercalate
        (lines.map String.toList) :=
      notMem_intercalate (by simp [notMem_lineBreak]) fun line member => by
        obtain ⟨text, given, rfl⟩ := List.mem_map.1 member
        exact each text given
    rw [toList_bracketLines some]
    simp [outside, notMem_lineBreak, inside]

/-- Line feeds are the only line ends that are written. -/
theorem Writable.notMem_pretty (h : Writable value) : '\r' ∉ (prettyAt width depth value).toList := by
  induction h generalizing depth with
  | null => exact (by decide : '\r' ∉ "null".toList)
  | bool value => cases value <;> simp [prettyAt]
  | int => exact notMem_toString _
  | text value => exact notMem_quote value
  | array _ ih =>
    rw [prettyAt, prettyItems_eq_map]
    refine notMem_bracketLines (by decide) fun line member => ?_
    obtain ⟨item, inside, rfl⟩ := List.mem_map.1 member
    exact ih item inside
  | object _ _ ih =>
    rw [prettyAt, prettyFields_eq_map]
    refine notMem_bracketLines (by decide) fun line member => ?_
    obtain ⟨field, inside, rfl⟩ := List.mem_map.1 member
    simp [notMem_quote, ih field inside]

end Verbatim.Json
