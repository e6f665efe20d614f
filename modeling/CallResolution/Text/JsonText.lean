import CallResolution.Text.Quoted

/-!
# JSON text

Values written as JSON, on one line or indented by two spaces. Members keep their order.
Inside strings the characters `<`, `>`, `&`, U+2028 and U+2029 are escaped, so the text can
stand in a web page, and a stray byte is written as the escape of U+FFFD.
-/

namespace CallResolution.Text

/-- A value to be written. -/
inductive JsonValue where
  /-- A truth value. -/
  | bool (b : Bool)
  /-- A whole number. -/
  | int (n : Int)
  /-- A number that is already written out. -/
  | numeral (digits : String)
  /-- A text. -/
  | text (s : String)
  /-- A byte string shown as text. -/
  | bytes (s : Bytes)
  /-- A list. -/
  | list (items : List JsonValue)
  /-- An object with its members in order. -/
  | object (members : List (String × JsonValue))
  deriving Inhabited

/-- A character inside a JSON string. -/
def jsonChar (c : Char) : List Char :=
  if c = '"' then ['\\', '"']
  else if c = '\\' then ['\\', '\\']
  else match c.toNat with
    | 8 => ['\\', 'b']
    | 12 => ['\\', 'f']
    | 10 => ['\\', 'n']
    | 13 => ['\\', 'r']
    | 9 => ['\\', 't']
    | n =>
      if n < 0x20 || n = 0x3C || n = 0x3E || n = 0x26 || n = 0x2028 || n = 0x2029 then
        '\\' :: 'u' :: hexDigits 4 n
      else [c]

/-- A piece of a byte string inside a JSON string. -/
def jsonPiece : Piece → List Char
  | .char c => jsonChar c
  | .stray _ => ['\\', 'u', 'f', 'f', 'f', 'd']

/-- A text as a JSON string. -/
def jsonString (s : String) : String :=
  String.ofList ('"' :: s.toList.flatMap jsonChar ++ ['"'])

/-- A byte string as a JSON string. -/
def jsonBytes (s : Bytes) : String :=
  String.ofList ('"' :: (pieces s).flatMap jsonPiece ++ ['"'])

namespace JsonValue

mutual

/-- A value on one line. -/
def compact : JsonValue → String
  | .bool b => if b then "true" else "false"
  | .int n => toString n
  | .numeral d => d
  | .text s => jsonString s
  | .bytes s => jsonBytes s
  | .list items => "[" ++ ",".intercalate (compactItems items) ++ "]"
  | .object members => "\x7b" ++ ",".intercalate (compactMembers members) ++ "\x7d"

/-- The items of a list, each on one line. -/
def compactItems : List JsonValue → List String
  | [] => []
  | v :: vs => v.compact :: compactItems vs

/-- The members of an object, each on one line. -/
def compactMembers : List (String × JsonValue) → List String
  | [] => []
  | (k, v) :: ms => (jsonString k ++ ":" ++ v.compact) :: compactMembers ms

end

/-- A line break followed by the indentation of a depth. -/
def lineBreak (depth : Nat) : String :=
  "\n" ++ String.ofList (List.replicate (2 * depth) ' ')

/-- Puts parts on indented lines between two brackets; without parts the brackets touch. -/
def bracketed (depth : Nat) (opening closing : String) (parts : List String) : String :=
  if parts.isEmpty then opening ++ closing
  else
    opening ++ lineBreak (depth + 1) ++ ("," ++ lineBreak (depth + 1)).intercalate parts
      ++ lineBreak depth ++ closing

mutual

/-- A value on indented lines, at a depth. -/
def indented (depth : Nat) : JsonValue → String
  | .bool b => if b then "true" else "false"
  | .int n => toString n
  | .numeral d => d
  | .text s => jsonString s
  | .bytes s => jsonBytes s
  | .list items => bracketed depth "[" "]" (indentedItems (depth + 1) items)
  | .object members => bracketed depth "\x7b" "\x7d" (indentedMembers (depth + 1) members)

/-- The items of a list on indented lines. -/
def indentedItems (depth : Nat) : List JsonValue → List String
  | [] => []
  | v :: vs => v.indented depth :: indentedItems depth vs

/-- The members of an object on indented lines. -/
def indentedMembers (depth : Nat) : List (String × JsonValue) → List String
  | [] => []
  | (k, v) :: ms => (jsonString k ++ ": " ++ v.indented depth) :: indentedMembers depth ms

end

end JsonValue

end CallResolution.Text
