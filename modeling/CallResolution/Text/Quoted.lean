import CallResolution.Text.Printable
import CallResolution.Text.Utf8

/-!
# Quoted text

Values shown inside messages stand between double quotes. Printable characters are kept, the
quote and the backslash are escaped, and every other character is written as an escape
sequence: the seven common control characters by letter, further control characters and stray
bytes as `\x7f`, and the remaining ones as `\u200b` or `\U000e0001`.
-/

namespace CallResolution.Text

/-- A lower-case hexadecimal digit. -/
def hexDigit (n : Nat) : Char :=
  if n < 10 then Char.ofNat (48 + n) else Char.ofNat (87 + n)

/-- The last `width` hexadecimal digits of a number. -/
def hexDigits : Nat → Nat → List Char
  | 0, _ => []
  | width + 1, n => hexDigits width (n / 16) ++ [hexDigit (n % 16)]

/-- The digits of a byte string, two for each byte. -/
def hexOf (s : Bytes) : String :=
  String.ofList (s.flatMap fun b => hexDigits 2 b.toNat)

/-- A character inside quotes. -/
def quoteChar (c : Char) : List Char :=
  if c = '"' then ['\\', '"']
  else if c = '\\' then ['\\', '\\']
  else if isPrintable c then [c]
  else match c.toNat with
    | 7 => ['\\', 'a']
    | 8 => ['\\', 'b']
    | 12 => ['\\', 'f']
    | 10 => ['\\', 'n']
    | 13 => ['\\', 'r']
    | 9 => ['\\', 't']
    | 11 => ['\\', 'v']
    | n =>
      if n < 0x20 || n == 0x7F then '\\' :: 'x' :: hexDigits 2 n
      else if n < 0x10000 then '\\' :: 'u' :: hexDigits 4 n
      else '\\' :: 'U' :: hexDigits 8 n

/-- A piece of a byte string inside quotes. -/
def quotePiece : Piece → List Char
  | .char c => quoteChar c
  | .stray b => '\\' :: 'x' :: hexDigits 2 b.toNat

/-- A text between double quotes. -/
def quote (s : String) : String :=
  String.ofList ('"' :: s.toList.flatMap quoteChar ++ ['"'])

/-- A byte string between double quotes. -/
def quoteBytes (s : Bytes) : String :=
  String.ofList ('"' :: (pieces s).flatMap quotePiece ++ ['"'])

end CallResolution.Text
