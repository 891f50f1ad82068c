import Verbatim.Json.Basic

/-!
# Writing raw values

Two written forms: all in one line, and with every item and field in a line of its own, indented by
its depth. Characters outside ASCII stand for themselves.

## Main definitions

* `Json.compact`: the form in one line
* `Json.pretty`: the form in lines
-/

namespace Verbatim.Json

/-- How a character is written inside a string. -/
def escapeChar (c : Char) : List Char :=
  if c = '"' then ['\\', '"']
  else if c = '\\' then ['\\', '\\']
  else if c = '\n' then ['\\', 'n']
  else if c = '\r' then ['\\', 'r']
  else if c = '\t' then ['\\', 't']
  else if c = '\x0c' then ['\\', 'f']
  else if c = '\x08' then ['\\', 'b']
  else if c.toNat < 0x20 then '\\' :: 'u' :: Text.hex 4 c.toNat
  else [c]

/-- A text as a string. -/
def quote (text : String) : String :=
  String.ofList ('"' :: text.toList.flatMap escapeChar ++ ['"'])

/-- A number with a fraction. -/
def floatText (x : Double) : String :=
  match x.parts with
  | .notANumber => "NaN"
  | .infinite negative => if negative then "-Infinity" else "Infinity"
  | .finite .. => x.text

mutual

/-- The value in one line. -/
def compact : Json → String
  | null => "null"
  | bool b => if b then "true" else "false"
  | int n => toString n
  | float x => floatText x
  | text s => quote s
  | array items => "[" ++ ", ".intercalate (compactItems items) ++ "]"
  | object fields => "\x7b" ++ ", ".intercalate (compactFields fields) ++ "\x7d"

/-- Each item in one line. -/
def compactItems : List Json → List String
  | [] => []
  | item :: rest => compact item :: compactItems rest

/-- Each field in one line. -/
def compactFields : List (String × Json) → List String
  | [] => []
  | (name, value) :: rest => (quote name ++ ": " ++ compact value) :: compactFields rest

end

/-- A line end with the indentation of the given depth. -/
def lineBreak (width depth : Nat) : String :=
  "\n" ++ String.ofList (List.replicate (width * depth) ' ')

/-- Lines between brackets; without lines the brackets stand together. -/
def bracketLines (width depth : Nat) (opening closing : String) (lines : List String) : String :=
  if lines.isEmpty then opening ++ closing
  else
    opening ++ lineBreak width (depth + 1)
      ++ ("," ++ lineBreak width (depth + 1)).intercalate lines
      ++ lineBreak width depth ++ closing

mutual

/-- The value in lines, each step of depth indented by `width` blanks. -/
def prettyAt (width depth : Nat) : Json → String
  | null => "null"
  | bool b => if b then "true" else "false"
  | int n => toString n
  | float x => floatText x
  | text s => quote s
  | array items => bracketLines width depth "[" "]" (prettyItems width (depth + 1) items)
  | object fields =>
    bracketLines width depth "\x7b" "\x7d" (prettyFields width (depth + 1) fields)

/-- Each item in lines. -/
def prettyItems (width depth : Nat) : List Json → List String
  | [] => []
  | item :: rest => prettyAt width depth item :: prettyItems width depth rest

/-- Each field in lines. -/
def prettyFields (width depth : Nat) : List (String × Json) → List String
  | [] => []
  | (name, value) :: rest =>
    (quote name ++ ": " ++ prettyAt width depth value) :: prettyFields width depth rest

end

/-- The value in lines. -/
def pretty (width : Nat) (value : Json) : String :=
  prettyAt width 0 value

end Verbatim.Json
