/-!
# Blank characters

The characters that `strip` removes from both ends of a text: the white space of Unicode, and the
four information separators U+001C to U+001F.

## Main definitions

* `Text.isBlank`: whether a character is blank
* `Text.strip`: a text without the blanks at its ends
* `Text.stripBy`: the same for any class of characters

## Main results

* `Text.isBlank_of_isWhitespace`: what counts as white space elsewhere is blank here
* `Text.strip_empty`, `Text.stripBy_eq_self`, `Text.stripBy_eq_self_of_ends`: when nothing is removed
-/

namespace Verbatim.Text

/-- The ranges of blank code points, in ascending order. -/
def blankRanges : List (Nat × Nat) :=
  [(9, 13), (28, 32), (133, 133), (160, 160), (5760, 5760), (8192, 8202), (8232, 8233), (8239, 8239), (8287, 8287), (12288, 12288)]

/-- Whether the character is blank. -/
def isBlank (c : Char) : Bool :=
  blankRanges.any fun range => range.1 ≤ c.toNat && c.toNat ≤ range.2

theorem isBlank_of_isWhitespace {c : Char} (h : c.isWhitespace) : isBlank c := by
  simp only [Char.isWhitespace, Bool.or_eq_true, decide_eq_true_eq] at h
  rcases h with ((rfl | rfl) | rfl) | rfl <;> decide

/-- The text without the characters of the class at its ends. -/
def stripBy (drop : Char → Bool) (text : String) : String :=
  String.ofList ((text.toList.dropWhile drop).reverse.dropWhile drop).reverse

/-- The text without the blanks at its ends. -/
def strip (text : String) : String :=
  stripBy isBlank text

theorem strip_empty : strip "" = "" := by
  simp [strip, stripBy]

/-- Nothing is removed from a text that has no character of the class at its ends. -/
theorem stripBy_eq_self_of_ends {drop : Char → Bool} {text : String}
    (front : ∀ c ∈ text.toList.head?, drop c = false)
    (back : ∀ c ∈ text.toList.getLast?, drop c = false) : stripBy drop text = text := by
  have keep : ∀ {cs : List Char}, (∀ c ∈ cs.head?, drop c = false) → cs.dropWhile drop = cs := by
    intro cs ends
    cases cs with
    | nil => rfl
    | cons c rest => simp [ends c rfl]
  unfold stripBy
  rw [keep front, keep (by rwa [List.head?_reverse])]
  simp

/-- Nothing is removed from a text with no character of the class. -/
theorem stripBy_eq_self {drop : Char → Bool} {text : String}
    (h : ∀ c ∈ text.toList, drop c = false) : stripBy drop text = text :=
  stripBy_eq_self_of_ends (fun c member => h c (List.mem_of_head? member))
    fun c member => h c (List.mem_of_getLast? member)

end Verbatim.Text
