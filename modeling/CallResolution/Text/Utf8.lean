/-!
# Text as bytes

File contents are byte strings that need not be UTF-8. This module reads a byte string as a
list of *pieces*, each a well-formed character or one stray byte, and from the pieces derives
the displayed text, in which every stray byte shows as the replacement character U+FFFD.
-/

namespace CallResolution.Text

/-- A byte string: the content of a file, or a part of one. -/
abbrev Bytes := List UInt8

/-- The UTF-8 encoding of a text. -/
def bytesOf (s : String) : Bytes :=
  s.toUTF8.toList

/-- One step of reading bytes as text. -/
inductive Piece where
  /-- A well-formed character. -/
  | char (c : Char)
  /-- A byte that does not belong to any well-formed character. -/
  | stray (b : UInt8)
  deriving DecidableEq, Repr, Inhabited

namespace Piece

/-- The character shown for a piece: itself, or U+FFFD for a stray byte. -/
def shown : Piece → Char
  | .char c => c
  | .stray _ => '\uFFFD'

end Piece

/-- Continuation bytes are `10xxxxxx`. -/
def isContinuation (b : UInt8) : Bool :=
  0x80 ≤ b && b ≤ 0xBF

/-- The payload of a continuation byte. -/
def continuationBits (b : UInt8) : Nat :=
  b.toNat % 64

/-- A two-byte character, when the lead and the continuation byte fit. -/
def twoByte (a b : UInt8) : Option Char :=
  if 0xC2 ≤ a && a ≤ 0xDF && isContinuation b then
    some (Char.ofNat ((a.toNat % 32) * 64 + continuationBits b))
  else none

/-- A three-byte character; overlong forms and surrogates are not characters. -/
def threeByte (a b c : UInt8) : Option Char :=
  if 0xE0 ≤ a && a ≤ 0xEF && isContinuation b && isContinuation c
      && (a != 0xE0 || 0xA0 ≤ b) && (a != 0xED || b ≤ 0x9F) then
    some (Char.ofNat ((a.toNat % 16) * 4096 + continuationBits b * 64 + continuationBits c))
  else none

/-- A four-byte character; overlong forms and values above U+10FFFF are not characters. -/
def fourByte (a b c d : UInt8) : Option Char :=
  if 0xF0 ≤ a && a ≤ 0xF4 && isContinuation b && isContinuation c && isContinuation d
      && (a != 0xF0 || 0x90 ≤ b) && (a != 0xF4 || b ≤ 0x8F) then
    some (Char.ofNat
      ((a.toNat % 8) * 262144 + continuationBits b * 4096 + continuationBits c * 64
        + continuationBits d))
  else none

/-- Reads a byte string piece by piece. A malformed sequence gives up one byte and goes on
with the next one. -/
def pieces : Bytes → List Piece
  | [] => []
  | [a] => [if a < 0x80 then .char (Char.ofNat a.toNat) else .stray a]
  | a :: b :: r =>
    if a < 0x80 then .char (Char.ofNat a.toNat) :: pieces (b :: r)
    else match twoByte a b with
      | some ch => .char ch :: pieces r
      | none => match r with
        | [] => .stray a :: pieces [b]
        | c :: r' => match threeByte a b c with
          | some ch => .char ch :: pieces r'
          | none => match r' with
            | [] => .stray a :: pieces [b, c]
            | d :: r'' => match fourByte a b c d with
              | some ch => .char ch :: pieces r''
              | none => .stray a :: pieces (b :: c :: d :: r'')
termination_by s => s.length

/-- The displayed text of a byte string: every stray byte becomes U+FFFD. -/
def textOf (s : Bytes) : String :=
  String.ofList ((pieces s).map Piece.shown)

/-- The character that a piece is. -/
def Piece.char? : Piece → Option Char
  | .char c => some c
  | .stray _ => none

/-- The text that a byte string writes, if it is well formed throughout. -/
def text? (s : Bytes) : Option String :=
  ((pieces s).mapM Piece.char?).map String.ofList

/-- The number of characters of the displayed text. -/
def runeCount (s : Bytes) : Nat :=
  (pieces s).length

end CallResolution.Text
