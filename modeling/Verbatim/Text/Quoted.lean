import Verbatim.Text.Printable

/-!
# Quoted text

The form in which a text is quoted in messages: between single quotes, or between double quotes
when it holds a single quote and no double one. Backslashes and the enclosing quote are escaped,
line ends and tabs have their letters, and other characters that are not printable are written by
number.

## Main definitions

* `Text.quoted`: the quoted form
* `Text.escape`: how one character is written between the given quotes

## Main results

* `Text.escape_of_isAlphanum`: letters and digits of ASCII are written as themselves
-/

namespace Verbatim.Text

/-- The number in hexadecimal digits, filled up with zeros to the given width. -/
def hex (width n : Nat) : List Char :=
  let digits := Nat.toDigits 16 n
  List.replicate (width - digits.length) '0' ++ digits

/-- How a character is written between two quotes `quote`. -/
def escape (quote c : Char) : List Char :=
  if c = quote ∨ c = '\\' then ['\\', c]
  else if c = '\n' then ['\\', 'n']
  else if c = '\r' then ['\\', 'r']
  else if c = '\t' then ['\\', 't']
  else if isPrintable c then [c]
  else if c.toNat < 0x100 then '\\' :: 'x' :: hex 2 c.toNat
  else if c.toNat < 0x10000 then '\\' :: 'u' :: hex 4 c.toNat
  else '\\' :: 'U' :: hex 8 c.toNat

/-- The quote that encloses a text: double only where that saves escaping. -/
def enclosingQuote (text : String) : Char :=
  if text.contains '\'' && !text.contains '"' then '"' else '\''

/-- The text in quotes. -/
def quoted (text : String) : String :=
  let quote := enclosingQuote text
  String.ofList (quote :: text.toList.flatMap (escape quote) ++ [quote])

theorem escape_of_isAlphanum {quote c : Char} (hc : c.isAlphanum) (hq : c ≠ quote) :
    escape quote c = [c] := by
  have plain : ∀ d : Char, d.isAlphanum = false → c ≠ d := by
    rintro d hd rfl
    simp [hc] at hd
  simp [escape, hq, plain '\\' (by decide), plain '\n' (by decide), plain '\r' (by decide),
    plain '\t' (by decide), isPrintable_of_isAlphanum hc]

end Verbatim.Text
