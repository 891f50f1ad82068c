import Verbatim.Text.Quoted

/-!
# UTF-8

Reading bytes as text. A character is a lead byte and up to three continuation bytes; the lead byte
says how many, and bounds the first of them so that no character has two written forms. Bytes that
fit nowhere are kept apart, as the longest start of a character that they make up.

## Main definitions

* `Text.scanBytes`: bytes cut into characters and bad bytes
* `Text.decodeBytes`: the text, or the first bad bytes
* `Text.showBytes`: the text with bad bytes shown by number
* `Text.foldLineEnds`: a text with all line ends written alike
-/

namespace Verbatim.Text

/-- What is wrong with bytes. -/
inductive ByteFault where
  /-- No character starts with this byte. -/
  | start
  /-- A character is cut off by a byte that does not continue it. -/
  | continuation
  /-- A character is cut off by the end. -/
  | ending
  deriving DecidableEq, Repr

/-- The text of the fault. -/
def ByteFault.message : ByteFault → String
  | .start => "invalid start byte"
  | .continuation => "invalid continuation byte"
  | .ending => "unexpected end of data"

/-- A piece of bytes: a character, or bytes that are none. -/
inductive BytePiece where
  | char (c : Char)
  | bad (fault : ByteFault) (bytes : List UInt8)
  deriving DecidableEq, Repr

/-- A character that is not complete yet. -/
structure PartialChar where
  /-- The bytes read so far, the last one first. -/
  seen : List UInt8
  /-- How many bytes are still to come. -/
  missing : Nat
  /-- The bounds of the next byte. -/
  least : Nat
  greatest : Nat
  /-- The value of the bits read so far. -/
  value : Nat

/-- What a lead byte starts: how many bytes follow, the bounds of the first of them, and the lead
byte's own bits. -/
def leadByte? (byte : Nat) : Option (Nat × Nat × Nat × Nat) :=
  if byte < 0x80 then some (0, 0, 0, byte)
  else if byte < 0xc2 then none
  else if byte < 0xe0 then some (1, 0x80, 0xbf, byte - 0xc0)
  else if byte = 0xe0 then some (2, 0xa0, 0xbf, 0)
  else if byte = 0xed then some (2, 0x80, 0x9f, 0xd)
  else if byte < 0xf0 then some (2, 0x80, 0xbf, byte - 0xe0)
  else if byte = 0xf0 then some (3, 0x90, 0xbf, 0)
  else if byte < 0xf4 then some (3, 0x80, 0xbf, byte - 0xf0)
  else if byte = 0xf4 then some (3, 0x80, 0x8f, 4)
  else none

/-- Read a byte where a character starts: a piece that is complete at once, or a partial
character. -/
def startChar (byte : UInt8) : BytePiece ⊕ PartialChar :=
  match leadByte? byte.toNat with
  | none => .inl (.bad .start [byte])
  | some (0, _, _, value) => .inl (.char (Char.ofNat value))
  | some (missing, least, greatest, value) =>
    .inr { seen := [byte], missing, least, greatest, value }

/-- Cut bytes into pieces, with a partial character in front. -/
def scanFrom : Option PartialChar → List UInt8 → List BytePiece
  | none, [] => []
  | some p, [] => [.bad .ending p.seen.reverse]
  | none, byte :: rest =>
    match startChar byte with
    | .inl piece => piece :: scanFrom none rest
    | .inr p => scanFrom (some p) rest
  | some p, byte :: rest =>
    if p.least ≤ byte.toNat && byte.toNat ≤ p.greatest then
      let value := 64 * p.value + (byte.toNat - 0x80)
      if p.missing = 1 then .char (Char.ofNat value) :: scanFrom none rest
      else
        scanFrom
          (some { seen := byte :: p.seen, missing := p.missing - 1, least := 0x80,
                  greatest := 0xbf, value })
          rest
    else
      .bad .continuation p.seen.reverse ::
        match startChar byte with
        | .inl piece => piece :: scanFrom none rest
        | .inr p => scanFrom (some p) rest

/-- Cut bytes into characters and bad bytes. -/
def scanBytes (bytes : List UInt8) : List BytePiece :=
  scanFrom none bytes

/-- Bytes that are no text, with the place of the first of them. -/
structure DecodeError where
  fault : ByteFault
  place : Nat
  bytes : List UInt8
  deriving DecidableEq, Repr

/-- The text of the error. -/
def DecodeError.message (e : DecodeError) : String :=
  let shown := match e.bytes with
    | [byte] => s!"byte 0x{String.ofList (hex 2 byte.toNat)} in position {e.place}"
    | bytes => s!"bytes in position {e.place}-{e.place + bytes.length - 1}"
  s!"'utf-8' codec can't decode {shown}: {e.fault.message}"

/-- The characters of pieces from a place on, or the first bad bytes. -/
def joinPiecesFrom (place : Nat) : List BytePiece → Except DecodeError (List Char)
  | [] => .ok []
  | .bad fault bytes :: _ => .error { fault, place, bytes }
  | .char c :: rest => (joinPiecesFrom (place + c.utf8Size) rest).map (c :: ·)

/-- The text that the bytes stand for. -/
def decodeBytes (bytes : List UInt8) : Except DecodeError String :=
  (joinPiecesFrom 0 (scanBytes bytes)).map String.ofList

/-- The text that the bytes stand for, with bad bytes shown by number. -/
def showBytes (bytes : List UInt8) : String :=
  String.ofList <| (scanBytes bytes).flatMap fun
    | .char c => [c]
    | .bad _ bytes => bytes.flatMap fun byte => '\\' :: 'x' :: hex 2 byte.toNat

/-- The text with every line end written as a line feed. -/
def foldLineEnds (text : String) : String :=
  String.ofList (fold text.toList)
where
  fold : List Char → List Char
    | '\r' :: '\n' :: rest => '\n' :: fold rest
    | '\r' :: rest => '\n' :: fold rest
    | c :: rest => c :: fold rest
    | [] => []

end Verbatim.Text
