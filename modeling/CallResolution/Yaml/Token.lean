import CallResolution.Yaml.Scalar
import CallResolution.Yaml.Tag

/-!
# Tokens

The tokens of a text. Indentation becomes tokens of its own: one where a block collection
starts and one where it ends. A key is recognised only at the colon behind it, so the token
that marks it is put in front of it then.

A token is given out only when two more stand behind it and it cannot become a key any more.
So a fault in the text is met by those who look at the tokens a little before it, and never by
those who stop earlier.
-/

namespace CallResolution.Yaml

/-- The kinds of tokens. -/
inductive TokenKind where
  /-- A marker that starts a document. -/
  | documentStart
  /-- A marker that ends a document. -/
  | documentEnd
  /-- The end of the text. -/
  | streamEnd
  /-- The start of a block list. -/
  | blockSeqStart
  /-- The start of a block mapping. -/
  | blockMapStart
  /-- The end of a block collection. -/
  | blockEnd
  /-- The start of a list in brackets. -/
  | flowSeqStart
  /-- The end of a list in brackets. -/
  | flowSeqEnd
  /-- The start of a mapping in braces. -/
  | flowMapStart
  /-- The end of a mapping in braces. -/
  | flowMapEnd
  /-- A dash before an entry of a block list. -/
  | blockEntry
  /-- A comma. -/
  | flowEntry
  /-- A key follows. -/
  | key
  /-- A value follows. -/
  | value
  /-- A text, plain or in some other spelling. -/
  | scalar (text : String) (isPlain : Bool)
  /-- A name for the node that follows. -/
  | anchor (name : String)
  /-- The node of a name. -/
  | reference (name : String)
  /-- A tag of the node that follows. -/
  | tag (handle suffix : String)
  /-- A directive. -/
  | directive (d : Directive)
  deriving DecidableEq, Repr, Inhabited

/-- A token with its place. -/
structure Token where
  /-- The kind. -/
  kind : TokenKind
  /-- Where it starts. -/
  mark : Mark
  deriving DecidableEq, Repr, Inhabited

/-- A place at which a key may have started. -/
structure KeyStart where
  /-- Whether only a key can stand there. -/
  required : Bool
  /-- The number of tokens before it. -/
  count : Nat
  /-- The place. -/
  mark : Mark
  /-- The number of characters before it. -/
  index : Nat
  deriving DecidableEq, Repr, Inhabited

/-- The state of cutting a text into tokens. -/
structure Scanner where
  /-- Where reading goes on. -/
  cursor : Cursor
  /-- The tokens so far, the last one first. -/
  tokens : List Token := []
  /-- How many tokens there are. -/
  count : Nat := 0
  /-- The indentation of the innermost block collection, -1 outside of all. -/
  indent : Int := -1
  /-- The indentations around it. -/
  indents : List Int := []
  /-- Whether a key may start here. -/
  allowKey : Bool := true
  /-- Where a key may have started, at each level of brackets. -/
  keys : List (Option KeyStart) := [none]
  /-- How many characters the part of the text has in which the first character of every line
  goes for a mark of byte order. -/
  markedPart : Nat := 0
  /-- Whether a character that may not stand in a document follows. -/
  isWalled : Bool := false
  deriving Repr, Inhabited

/-- A step of cutting a text into tokens. -/
abbrev ScanM := StateT Scanner (Except Fault)

namespace Cursor

/-- Moves past blanks and line breaks. -/
def skipBlankLines : Nat → Cursor → Cursor
  | 0, c => c
  | fuel + 1, c =>
    let c := c.skip (c.rest.takeWhile isBlank).length
    if c.atBreak then c.nextLine.skipBlankLines fuel else c

end Cursor

namespace Scanner

/-- The depth of brackets. -/
def flow (s : Scanner) : Nat :=
  s.keys.length - 1

/-- Adds a token at the end. -/
def push (kind : TokenKind) (mark : Mark) : ScanM Unit :=
  modify fun s => { s with tokens := ⟨kind, mark⟩ :: s.tokens, count := s.count + 1 }

/-- Adds a token behind the first `at_` ones. -/
def insert (at_ : Nat) (kind : TokenKind) (mark : Mark) : ScanM Unit :=
  modify fun s =>
    let later := s.tokens.take (s.count - at_)
    let earlier := s.tokens.drop (s.count - at_)
    { s with tokens := later ++ ⟨kind, mark⟩ :: earlier, count := s.count + 1 }

/-- Starts a block collection at a deeper column. -/
def roll (col : Nat) (at_ : Nat) (kind : TokenKind) (mark : Mark) : ScanM Unit := do
  let s ← get
  if s.flow = 0 && s.indent < col then
    set { s with indents := s.indent :: s.indents, indent := col }
    insert at_ kind mark

/-- Ends the block collections that are deeper than a column. -/
def unrollTo (col : Int) (mark : Mark) : List Int → ScanM Unit
  | [] => return
  | outer :: rest => do
    if (← get).indent > col then
      push .blockEnd mark
      modify fun s => { s with indent := outer, indents := rest }
      unrollTo col mark rest

/-- Ends the block collections that are deeper than a column. -/
def unroll (col : Int) : ScanM Unit := do
  let s ← get
  if s.flow = 0 then unrollTo col s.cursor.mark s.indents

/-- Sets where the key at the innermost level of brackets may have started. -/
def setKey (k : Option KeyStart) : ScanM Unit :=
  modify fun s => { s with keys := k :: s.keys.tail }

/-- Gives up the key that may have started at the innermost level; a required one has to be
there. -/
def dropKey : ScanM Unit := do
  match (← get).keys.head? with
  | some (some k) => if k.required then throw .missingColon else setKey none
  | _ => return

/-- Remembers that a key may start here. -/
def saveKey : ScanM Unit := do
  let s ← get
  if s.allowKey then
    dropKey
    setKey (some
      { required := s.flow = 0 && s.indent = s.cursor.mark.col
        count := s.count
        mark := s.cursor.mark
        index := s.cursor.index })

/-- The key that a colon at this place belongs to. It stands on the same line, within 1024
characters. -/
def keyHere : ScanM (Option KeyStart) := do
  let s ← get
  match s.keys.head? with
  | some (some k) =>
    if k.mark.line < s.cursor.mark.line || k.index + 1024 < s.cursor.index then
      if k.required then throw .missingColon
      setKey none
      return none
    else return some k
  | _ => return none

/-- Says whether a key may start at the next place. -/
def allow (b : Bool) : ScanM Unit :=
  modify ({ · with allowKey := b })

/-- Moves on by some characters of the line. -/
def advance (n : Nat) : ScanM Unit :=
  modify fun s => { s with cursor := s.cursor.skip n }

/-- Moves past a comment, and past those on the following lines, whatever blanks stand before
them. -/
def skipComments : Nat → Cursor → Cursor
  | 0, c => c
  | fuel + 1, c =>
    if c.head? = some '#' then
      let c := c.skip (c.rest.takeWhile (!isBreak ·)).length
      let next := c.skipBlankLines (c.rest.length + 1)
      if next.head? = some '#' then skipComments fuel next else c
    else c

/-- Moves past a comment on the line, whatever blanks stand before it. -/
def skipLineComment : ScanM Unit :=
  modify fun s =>
    let c := s.cursor.skip (s.cursor.rest.takeWhile isBlank).length
    if c.head? = some '#' then { s with cursor := c.skip (c.rest.takeWhile (!isBreak ·)).length } else s

/-- Moves past a mark of byte order at the start of a line. -/
def skipMark (s : Scanner) : Cursor :=
  if s.cursor.mark.col = 0 && s.cursor.index + 3 ≤ s.markedPart then s.cursor.next else s.cursor

/-- Moves past blanks, comments and line breaks. -/
def skipSpace : Nat → ScanM Unit
  | 0 => return
  | fuel + 1 => do
    let s ← get
    let c := s.skipMark
    let blanks := (c.rest.takeWhile fun x => x = ' ' || (x = '\t' && (0 < s.flow || !s.allowKey))).length
    let c := skipComments (c.rest.length + 1) (c.skip blanks)
    if c.atBreak then
      set { s with cursor := c.nextLine, allowKey := s.flow = 0 || s.allowKey }
      skipSpace fuel
    else set { s with cursor := c }

/-- Takes over a scalar that was read. -/
def takeScalar (mark : Mark) (isPlain : Bool) (t : ScalarText) : ScanM Unit := do
  push (.scalar (String.ofList t.chars) isPlain) mark
  modify fun s => { s with cursor := t.after, allowKey := s.allowKey || t.onNewLine }

/-- Reads an opening bracket or brace. -/
def openFlow (kind : TokenKind) : ScanM Unit := do
  saveKey
  push kind (← get).cursor.mark
  modify fun s => { s with keys := none :: s.keys, allowKey := true }
  advance 1

/-- Reads a closing bracket or brace. -/
def closeFlow (kind : TokenKind) : ScanM Unit := do
  dropKey
  push kind (← get).cursor.mark
  modify fun s => { s with keys := if 0 < s.flow then s.keys.tail else s.keys, allowKey := false }
  advance 1

/-- Reads a comma. -/
def comma : ScanM Unit := do
  dropKey
  push .flowEntry (← get).cursor.mark
  allow true
  advance 1

/-- Starts a block collection here, where an entry or key may stand. -/
def startBlock (kind : TokenKind) : ScanM Unit := do
  let s ← get
  if s.flow = 0 then
    if !s.allowKey then throw .misplaced
    roll s.cursor.mark.col s.count kind s.cursor.mark

/-- Reads the dash of a list entry. -/
def dash : ScanM Unit := do
  startBlock .blockSeqStart
  dropKey
  push .blockEntry (← get).cursor.mark
  allow true
  advance 1

/-- Reads the question mark of a key. -/
def questionMark : ScanM Unit := do
  startBlock .blockMapStart
  dropKey
  push .key (← get).cursor.mark
  modify fun s => { s with allowKey := s.flow = 0 }
  advance 1
  skipLineComment

/-- Reads a colon. -/
def colon : ScanM Unit := do
  match ← keyHere with
  | some k =>
    insert k.count .key k.mark
    roll k.mark.col k.count .blockMapStart k.mark
    setKey none
    allow false
  | none =>
    startBlock .blockMapStart
    modify fun s => { s with allowKey := s.flow = 0 }
  push .value (← get).cursor.mark
  advance 1
  skipLineComment

/-- Reads a text in quotes. -/
def quoted (isSingle : Bool) : ScanM Unit := do
  saveKey
  allow false
  let c := (← get).cursor
  takeScalar c.mark false (← readQuoted isSingle (c.rest.length + 1) [] c.next)

/-- Reads a plain text. -/
def plain : ScanM Unit := do
  saveKey
  allow false
  let s ← get
  takeScalar s.cursor.mark true
    (← readPlain (0 < s.flow) s.indent (s.cursor.rest.length + 1) [] {} s.cursor)

/-- Reads a block text. -/
def block (isFolded : Bool) : ScanM Unit := do
  dropKey
  allow true
  let s ← get
  takeScalar s.cursor.mark false (← readBlock isFolded s.indent s.cursor.next)

/-- Reads a document marker. -/
def marker (kind : TokenKind) : ScanM Unit := do
  unroll (-1)
  dropKey
  allow false
  push kind (← get).cursor.mark
  advance 3

/-- Reads the name of a node, or a name that stands for one. -/
def name (kind : String → TokenKind) : ScanM Unit := do
  saveKey
  allow false
  let c := (← get).cursor
  let (name, n) ← readName c.rest.tail
  push (kind name) c.mark
  advance (n + 1)

/-- Reads a tag. -/
def tag : ScanM Unit := do
  saveKey
  allow false
  let c := (← get).cursor
  let (handle, suffix, n) ← readTag c.rest
  push (.tag handle suffix) c.mark
  advance n

/-- Reads a directive with the end of its line. -/
def directive : ScanM Unit := do
  unroll (-1)
  dropKey
  allow false
  let c := (← get).cursor
  let (d, n) ← readDirective c.rest.tail
  push (.directive d) c.mark
  advance (n + 1)
  modify fun s => if s.cursor.atBreak then { s with cursor := s.cursor.nextLine } else s

/-- Reads the end of the text. -/
def finish : ScanM Unit := do
  modify fun s =>
    let m := s.cursor.mark
    { s with cursor := { s.cursor with mark := if m.col = 0 then m else { line := m.line + 1, col := 0 } } }
  unroll (-1)
  dropKey
  push .streamEnd (← get).cursor.mark

/-- Whether a character can start a plain text, given what follows it. -/
def startsPlain (inFlow : Bool) (x : Char) (after : List Char) : Bool :=
  x ∉ ['-', '?', ':', ',', '[', ']', '\x7b', '\x7d', '#', '&', '*', '!', '|', '>', '\'', '"', '%', '@', Char.ofNat 0x60]
      && !isBlank x && !isBreak x
    || (x = '-' && !after.head?.any isBlank)
    || (!inFlow && (x = '?' || x = ':') && !startsBlank after)

/-- Reads the next token, and tells whether it was the last one of the text. -/
def step : ScanM Bool := do
  skipSpace ((← get).cursor.rest.length + 1)
  unroll (← get).cursor.mark.col
  let s ← get
  let inFlow := 0 < s.flow
  if s.isWalled && s.cursor.rest.length < 4 then throw .control
  match s.cursor.rest with
  | [] => do finish; return true
  | x :: r =>
    if x = '%' && s.cursor.mark.col = 0 then directive
    else if s.cursor.atDocumentMarker then marker (if x = '-' then .documentStart else .documentEnd)
    else if x = '[' then openFlow .flowSeqStart
    else if x = '\x7b' then openFlow .flowMapStart
    else if x = ']' then closeFlow .flowSeqEnd
    else if x = '\x7d' then closeFlow .flowMapEnd
    else if x = ',' then comma
    else if x = '-' && startsBlank r then dash
    else if x = '?' && (inFlow || startsBlank r) then questionMark
    else if x = ':' && (inFlow || startsBlank r) then colon
    else if x = '*' then name .reference
    else if x = '&' then name .anchor
    else if x = '!' then tag
    else if x = '|' && !inFlow then block false
    else if x = '>' && !inFlow then block true
    else if x = '\'' then quoted true
    else if x = '"' then quoted false
    else if startsPlain inFlow x r then plain
    else throw .character
    return false

/-- Whether a key that may have started can still become one. -/
def mayBecomeKey (s : Scanner) (k : KeyStart) : Bool :=
  s.cursor.mark.line ≤ k.mark.line && s.cursor.index ≤ k.index + 1024

/-- The tokens that are given out before a fault: two more stand behind each, and none can
become a key any more. -/
def givenOut (s : Scanner) : List Token :=
  let open_ := (s.keys.filterMap id).filter s.mayBecomeKey
  s.tokens.reverse.take ((open_.map (·.count)).foldl min (s.count - 2))

end Scanner

/-- The tokens of a text, and what is wrong behind them. -/
structure Tokens where
  /-- The tokens that are given out. -/
  given : List Token
  /-- Why there are no more. -/
  fault : Fault := .structural
  deriving Repr, Inhabited

/-- Reads tokens up to the end of the text or the first fault. -/
def Scanner.readAll : Nat → Scanner → Tokens
  | 0, s => ⟨s.givenOut, .structural⟩
  | fuel + 1, s =>
    match Scanner.step.run s with
    | .error f => ⟨s.givenOut, f⟩
    | .ok (isLast, after) =>
      if isLast then ⟨after.tokens.reverse, .structural⟩
      else if after.isWalled && after.cursor.rest.isEmpty then ⟨s.givenOut, .control⟩
      else Scanner.readAll fuel after

/-! ## Texts -/

/-- The number of bytes that are looked at together. -/
def chunkSize : Nat := 512

/-- Whether a character is a mark of byte order. -/
def isOrderMark (c : Char) : Bool :=
  c.toNat = 0xFEFF

/-- Splits a text into chunks of no more than `chunkSize` bytes, `used` bytes of the first one
being taken. -/
def chunks : (used : Nat) → List Char → List (List Char)
  | _, [] => [[]]
  | used, c :: cs =>
    let w := c.utf8Size
    if chunkSize < used + w then [] :: consHead c (chunks w cs) else consHead c (chunks (used + w) cs)
where
  /-- Adds a character to the first chunk. -/
  consHead (c : Char) : List (List Char) → List (List Char)
    | [] => [[c]]
    | d :: ds => (c :: d) :: ds

/-- What can be read of a text: the chunks before the first one with a character that may not
stand in a document. -/
def readable (parts : List (List Char)) : List Char × Bool :=
  let good := parts.takeWhile (·.all isAllowed)
  (good.flatten, good.length < parts.length)

/-- The tokens of a text. A mark of byte order at the start does not count. -/
def tokens (text : String) : Tokens :=
  let isMarked := text.toList.head?.any isOrderMark
  let chars := if isMarked then text.toList.tail else text.toList
  let parts := chunks (if isMarked then 3 else 0) chars
  let (rest, isWalled) := readable parts
  let markedPart := if isMarked && chars.head?.any isOrderMark then (parts.head?.getD []).length else 0
  Scanner.readAll (rest.length + 2) { cursor := { rest }, markedPart, isWalled }

end CallResolution.Yaml
