/-!
# Reading position in a document

The text that is still to be read, with the place of its first character. Lines and columns
count from zero, and columns count characters.
-/

namespace CallResolution.Yaml

/-- A place in a document. -/
structure Mark where
  /-- The line, from zero. -/
  line : Nat := 0
  /-- The column, from zero. -/
  col : Nat := 0
  deriving DecidableEq, Repr, Inhabited

/-- Why a text is no document. -/
inductive Fault where
  /-- A control character. -/
  | control
  /-- A character that starts nothing. -/
  | character
  /-- A line that should be a key has no colon. -/
  | missingColon
  /-- A key, value or list entry where none may stand. -/
  | misplaced
  /-- A quoted text without an end. -/
  | unclosedQuote
  /-- An unknown escape. -/
  | escape
  /-- A tab in the indentation. -/
  | tab
  /-- A faulty head of a block text. -/
  | blockHead
  /-- A faulty directive. -/
  | directive
  /-- A name of a node without letters, or a name that no node has. -/
  | anchor
  /-- A faulty tag, or one that does not fit its text. -/
  | tag
  /-- A value to be merged that is no mapping. -/
  | merge
  /-- A node, an entry or the end of a collection is missing. -/
  | structural
  deriving DecidableEq, Repr, Inhabited

/-- What a fault says. -/
def Fault.message : Fault → String
  | .control => "control characters are not allowed"
  | .character => "found character that cannot start any token"
  | .missingColon => "could not find expected ':'"
  | .misplaced => "mapping values are not allowed in this context"
  | .unclosedQuote => "found unexpected end of stream"
  | .escape => "found unknown escape character"
  | .tab => "found a tab character that violates indentation"
  | .blockHead => "did not find expected comment or line break"
  | .directive => "found unknown directive name"
  | .anchor => "did not find expected alphabetic or numeric character"
  | .tag => "did not find expected tag URI"
  | .merge => "map merge requires map or sequence of maps as the value"
  | .structural => "did not find expected node content"

/-- Whether a character is a space or tab. -/
def isBlank (c : Char) : Bool :=
  c = ' ' || c = '\t'

/-- Whether a character ends a line. -/
def isBreak (c : Char) : Bool :=
  c = '\n' || c = '\r' || c.toNat = 0x85 || c.toNat = 0x2028 || c.toNat = 0x2029

/-- Whether a text is at its end, or starts with a blank or a line break. -/
def startsBlank : List Char → Bool
  | [] => true
  | c :: _ => isBlank c || isBreak c

/-- Whether a character may stand in a document. -/
def isAllowed (c : Char) : Bool :=
  let n := c.toNat
  n = 9 || n = 10 || n = 13 || (0x20 ≤ n && n ≤ 0x7E) || n = 0x85 || (0xA0 ≤ n && n ≤ 0xFFFD) || 0x10000 ≤ n

/-- The rest of a text with the place where it starts. -/
structure Cursor where
  /-- What is still to be read. -/
  rest : List Char
  /-- The place. -/
  mark : Mark := {}
  /-- How many characters were read. -/
  index : Nat := 0
  deriving Repr, Inhabited

namespace Cursor

/-- The next character. -/
def head? (c : Cursor) : Option Char :=
  c.rest.head?

/-- Moves past one character of a line. -/
def next (c : Cursor) : Cursor :=
  { rest := c.rest.tail, mark := { c.mark with col := c.mark.col + 1 }, index := c.index + 1 }

/-- Moves past some characters of a line. -/
def skip (c : Cursor) (n : Nat) : Cursor :=
  { rest := c.rest.drop n, mark := { c.mark with col := c.mark.col + n }, index := c.index + n }

/-- Moves past a line break; a carriage return and a line feed count as one. -/
def nextLine (c : Cursor) : Cursor :=
  let n := match c.rest with
    | '\r' :: '\n' :: _ => 2
    | _ => 1
  { rest := c.rest.drop n, mark := { line := c.mark.line + 1, col := 0 }, index := c.index + n }

/-- A line break as it counts in a text: the two Unicode separators stay, and all others
become line feeds. -/
def breakChar (c : Cursor) : Char :=
  match c.rest with
  | x :: _ => if x.toNat = 0x2028 || x.toNat = 0x2029 then x else '\n'
  | [] => '\n'

/-- Whether a blank, a line break or the end comes next. -/
def atBlank (c : Cursor) : Bool :=
  startsBlank c.rest

/-- Whether a line break comes next. -/
def atBreak (c : Cursor) : Bool :=
  c.rest.head?.any isBreak

/-- Whether the line starts with one of the two document markers. -/
def atDocumentMarker (c : Cursor) : Bool :=
  c.mark.col = 0 &&
    match c.rest with
    | '-' :: '-' :: '-' :: r => startsBlank r
    | '.' :: '.' :: '.' :: r => startsBlank r
    | _ => false

end Cursor

end CallResolution.Yaml
