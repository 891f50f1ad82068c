import Verbatim.Json.Basic
import Verbatim.Syntax.Layout
import Verbatim.Text.Numeral

/-!
# Gaps of a node

The blank texts that a node carries of its own, by gap number. A gap that is not among them has the
layout's default text. Numbers are kept in ascending order, so two nodes with the same gaps have
equal ones.

## Main definitions

* `Gaps`, `Gaps.get?`, `Gaps.set`: gap texts by number
* `Gaps.text?`: the text of a gap, the node's own or the default one
* `Gaps.load`: take over the gaps of a raw node, all or none

## Main results

* `Gaps.get?_set`: setting a gap changes that gap alone
-/

namespace Verbatim

/-- Gap texts by number, in ascending order of the numbers. -/
abbrev Gaps := List (Nat × String)

/-- Why the gaps of a raw node are refused. -/
inductive GapProblem where
  /-- The gaps are no object. -/
  | notMapping
  /-- The name of the entry is no number. -/
  | badIndex (key : String)
  /-- The layout has no such gap. -/
  | unknown (index : Int)
  /-- The value of the entry is no text. -/
  | notText (index : Int)
  deriving DecidableEq, Repr

/-- The text of the problem. -/
def GapProblem.message : GapProblem → String
  | .notMapping => "'ws' must be a mapping"
  | .badIndex key => "invalid whitespace region index " ++ Text.quoted key
  | .unknown index => s!"unknown whitespace region {index}"
  | .notText index => s!"whitespace region {index} must be a string"

namespace Gaps

/-- The node's own text of a gap. -/
def get? : Gaps → Nat → Option String
  | [], _ => none
  | (i, text) :: rest, index => if i = index then some text else get? rest index

/-- Give a gap a text of its own. -/
def set : Gaps → Nat → String → Gaps
  | [], index, text => [(index, text)]
  | (i, old) :: rest, index, text =>
    if i = index then (index, text) :: rest
    else if index < i then (index, text) :: (i, old) :: rest
    else (i, old) :: set rest index text

/-- **Read after write.** -/
theorem get?_set (gaps : Gaps) (index : Nat) (text : String) (other : Nat) :
    (gaps.set index text).get? other = if index = other then some text else gaps.get? other := by
  induction gaps with
  | nil => simp [set, get?]
  | cons entry rest ih => grind [set, get?]

/-- The text of a gap: the node's own, else the layout's default. `none` if the layout has no such
gap. -/
def text? (layout : Layout) (gaps : Gaps) (index : Int) : Option String :=
  match index with
  | .ofNat i => (gaps.get? i).or (layout.defaultGap? i)
  | .negSucc _ => none

/-- Give a gap a text, if the layout has such a gap. -/
def set? (layout : Layout) (gaps : Gaps) (index : Int) (text : String) : Option Gaps :=
  if layout.acceptsGap index then some (gaps.set index.toNat text) else none

/-- Check one entry of a raw node's gaps. -/
def readEntry (layout : Layout) (entry : String × Json) : Except GapProblem (Nat × String) := do
  let index ← (Text.readInteger entry.1).mapError fun _ => .badIndex entry.1
  unless layout.acceptsGap index do
    throw (.unknown index)
  match entry.2 with
  | .text text => return (index.toNat, text)
  | _ => throw (.notText index)

/-- Take over the gaps of a raw node. Nothing changes unless every entry is good. -/
def load (layout : Layout) (gaps : Gaps) (raw : Json) : Except GapProblem Gaps := do
  match raw with
  | .object fields =>
    let entries ← fields.mapM (readEntry layout)
    return entries.foldl (fun gaps entry => gaps.set entry.1 entry.2) gaps
  | _ => throw .notMapping

/-- The gaps in raw form. -/
def toJson (gaps : Gaps) : Json :=
  .object (gaps.map fun (index, text) => (toString index, .text text))

end Gaps

end Verbatim
