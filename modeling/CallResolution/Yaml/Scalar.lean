import CallResolution.Text.Decimal
import CallResolution.Yaml.Cursor

/-!
# Scalars

Texts in their four spellings: plain, in single or double quotes, and as blocks. A line break
inside a plain or quoted text counts as one space, and further ones stay.
-/

namespace CallResolution.Yaml

/-- What stands between two words of a text. -/
structure Gap where
  /-- The blanks, when there is no line break. -/
  blanks : List Char := []
  /-- The line breaks. -/
  breaks : List Char := []
  deriving Repr, Inhabited

/-- What a gap becomes between two words: the first line feed is folded to a space, or goes
when others follow. -/
def Gap.joined (g : Gap) : List Char :=
  match g.breaks with
  | [] => g.blanks
  | ['\n'] => [' ']
  | '\n' :: more => more
  | breaks => breaks

/-- Reads a gap. In a plain text, tabs left of the indentation `indent` are refused. -/
def readGap (indent : Int) : Nat → Gap → Cursor → Except Fault (Gap × Cursor)
  | 0, g, c => .ok (g, c)
  | fuel + 1, g, c =>
    match c.rest with
    | [] => .ok (g, c)
    | x :: _ =>
      if isBlank x then
        if g.breaks.isEmpty then readGap indent fuel { g with blanks := g.blanks ++ [x] } c.next
        else if (c.mark.col : Int) < indent && x = '\t' then .error .tab
        else readGap indent fuel g c.next
      else if isBreak x then
        readGap indent fuel { blanks := [], breaks := g.breaks ++ [c.breakChar] } c.nextLine
      else .ok (g, c)

/-! ## Plain texts -/

/-- Whether a plain text ends before a character: at a colon with a blank after it, and inside
brackets also at the indicators of collections. -/
def endsPlain (inFlow : Bool) (x : Char) (after : List Char) : Bool :=
  (x = ':' && startsBlank after) || (inFlow && x ∈ [',', '?', '[', ']', '\x7b', '\x7d'])

/-- Reads one word of a plain text. -/
def readWord (inFlow : Bool) : List Char → List Char
  | [] => []
  | x :: r => if isBlank x || isBreak x || endsPlain inFlow x r then [] else x :: readWord inFlow r

/-- A scalar that was read. -/
structure ScalarText where
  /-- The text. -/
  chars : List Char
  /-- Where reading goes on. -/
  after : Cursor
  /-- Whether a new line was begun behind the text. -/
  onNewLine : Bool := false
  deriving Repr, Inhabited

/-- Reads the words of a plain text that stands deeper than `indent`, `gap` being what stands
before the next word. -/
def readPlain (inFlow : Bool) (indent : Int) : Nat → (chars : List Char) → (gap : Gap) → Cursor →
    Except Fault ScalarText
  | 0, chars, _, c => .ok ⟨chars, c, false⟩
  | fuel + 1, chars, gap, c =>
    let stop : ScalarText := ⟨chars, c, !gap.breaks.isEmpty⟩
    if c.atDocumentMarker || c.head? = some '#' then .ok stop
    else match readWord inFlow c.rest with
      | [] => .ok stop
      | word => do
        let chars := chars ++ gap.joined ++ word
        let c := c.skip word.length
        if c.rest.isEmpty || !c.atBlank then return ⟨chars, c, false⟩
        let (gap, c) ← readGap (indent + 1) (c.rest.length + 1) {} c
        if !inFlow && (c.mark.col : Int) ≤ indent then return ⟨chars, c, !gap.breaks.isEmpty⟩
        readPlain inFlow indent fuel chars gap c

/-! ## Quoted texts -/

/-- The character that a one-letter escape stands for. -/
def escapeChar? : Char → Option Char
  | '0' => some (Char.ofNat 0)
  | 'a' => some (Char.ofNat 7)
  | 'b' => some (Char.ofNat 8)
  | 't' => some '\t'
  | '\t' => some '\t'
  | 'n' => some '\n'
  | 'v' => some (Char.ofNat 11)
  | 'f' => some (Char.ofNat 12)
  | 'r' => some '\r'
  | 'e' => some (Char.ofNat 27)
  | ' ' => some ' '
  | '"' => some '"'
  | '\'' => some '\''
  | '\\' => some '\\'
  | 'N' => some (Char.ofNat 0x85)
  | '_' => some (Char.ofNat 0xA0)
  | 'L' => some (Char.ofNat 0x2028)
  | 'P' => some (Char.ofNat 0x2029)
  | _ => none

/-- The number of hexadecimal digits after an escape letter. -/
def escapeDigits? : Char → Option Nat
  | 'x' => some 2
  | 'u' => some 4
  | 'U' => some 8
  | _ => none

/-- Reads an escape after its backslash: the character and the number of characters read. -/
def readEscape (rest : List Char) : Except Fault (Char × Nat) :=
  match rest with
  | [] => .error .escape
  | x :: r =>
    match escapeChar? x, escapeDigits? x with
    | some c, _ => .ok (c, 1)
    | none, none => .error .escape
    | none, some n =>
      match Text.digitsValue? 16 0 (r.take n) with
      | some v =>
        if (r.take n).length = n && v.isValidChar then .ok (Char.ofNat v, n + 1) else .error .escape
      | none => .error .escape

/-- A run of a quoted text without plain blanks. -/
structure QuotedRun where
  /-- The characters. -/
  chars : List Char
  /-- Where reading goes on. -/
  after : Cursor
  /-- Whether it ended in an escaped line break. -/
  escapedBreak : Bool := false
  deriving Repr, Inhabited

/-- Reads a run of a text in quotes. -/
def readRun (isSingle : Bool) : Nat → List Char → Cursor → Except Fault QuotedRun
  | 0, acc, c => .ok ⟨acc, c, false⟩
  | fuel + 1, acc, c =>
    match c.rest with
    | [] => .ok ⟨acc, c, false⟩
    | x :: r =>
      if isBlank x || isBreak x then .ok ⟨acc, c, false⟩
      else if isSingle then
        if x = '\'' then
          if r.head? = some '\'' then readRun isSingle fuel (acc ++ ['\'']) (c.skip 2)
          else .ok ⟨acc, c, false⟩
        else readRun isSingle fuel (acc ++ [x]) c.next
      else if x = '"' then .ok ⟨acc, c, false⟩
      else if x = '\\' then
        if r.head?.any isBreak then .ok ⟨acc, c.next.nextLine, true⟩
        else match readEscape r with
          | .ok (ch, n) => readRun isSingle fuel (acc ++ [ch]) (c.skip (n + 1))
          | .error e => .error e
      else readRun isSingle fuel (acc ++ [x]) c.next

/-- What a gap behind a run of a quoted text becomes. An escaped line break before it counts
as nothing. -/
def quotedGap (escapedBreak : Bool) (g : Gap) : List Char :=
  if escapedBreak then g.breaks else g.joined

/-- Reads the rest of a text in quotes. -/
def readQuoted (isSingle : Bool) : Nat → List Char → Cursor → Except Fault ScalarText
  | 0, _, _ => .error .unclosedQuote
  | fuel + 1, chars, c =>
    if c.atDocumentMarker || c.rest.isEmpty then .error .unclosedQuote
    else do
      let run ← readRun isSingle (c.rest.length + 1) [] c
      let chars := chars ++ run.chars
      if run.after.head? = some (if isSingle then '\'' else '"') then
        return ⟨chars, run.after.next, false⟩
      let (gap, after) ← readGap 0 (run.after.rest.length + 1) {} run.after
      readQuoted isSingle fuel (chars ++ quotedGap run.escapedBreak gap) after

/-! ## Block texts -/

/-- What is done with the line breaks at the end of a block text. -/
inductive Chomping where
  /-- One stays. -/
  | clip
  /-- None stays. -/
  | strip
  /-- All stay. -/
  | keep
  deriving DecidableEq, Repr, Inhabited

/-- The head of a block text. -/
structure BlockHead where
  /-- The treatment of final line breaks. -/
  chomping : Chomping := .clip
  /-- The given indentation. -/
  indent : Option Nat := none
  deriving DecidableEq, Repr, Inhabited

/-- Reads the chomping indicator. -/
def chompingOf? : Char → Option Chomping
  | '+' => some .keep
  | '-' => some .strip
  | _ => none

/-- Reads the indentation indicator. -/
def indentOf? (c : Char) : Option Nat :=
  if c.isDigit && c ≠ '0' then some (c.toNat - '0'.toNat) else none

/-- Reads the indicators behind the bar or angle bracket of a block text: the head and the
number of characters. -/
def readIndicators : List Char → Except Fault (BlockHead × Nat)
  | x :: y :: _ =>
    match chompingOf? x, indentOf? x, chompingOf? y, indentOf? y with
    | some ch, _, _, some n => .ok (⟨ch, some n⟩, 2)
    | _, some n, some ch, _ => .ok (⟨ch, some n⟩, 2)
    | some ch, _, _, none => if y = '0' then .error .blockHead else .ok (⟨ch, none⟩, 1)
    | _, some n, none, _ => .ok (⟨.clip, some n⟩, 1)
    | none, none, _, _ => if x = '0' then .error .blockHead else .ok ({}, 0)
  | [x] =>
    match chompingOf? x, indentOf? x with
    | some ch, _ => .ok (⟨ch, none⟩, 1)
    | _, some n => .ok (⟨.clip, some n⟩, 1)
    | none, none => if x = '0' then .error .blockHead else .ok ({}, 0)
  | [] => .ok ({}, 0)

/-- Moves past the blanks and the comment at the end of a head line. -/
def skipHeadLine (c : Cursor) : Except Fault Cursor :=
  let blanks := (c.rest.takeWhile isBlank).length
  let c := c.skip blanks
  let comment := if c.head? = some '#' then (c.rest.takeWhile (!isBreak ·)).length else 0
  let c := c.skip comment
  if c.rest.isEmpty then .ok c else if c.atBreak then .ok c.nextLine else .error .blockHead

/-- Moves past the indentation and blank lines before a line of a block text, collecting the
line breaks. Without a known indentation every space counts, and the widest column met is
given back. -/
def readBlockBreaks (indent : Option Nat) : Nat → (breaks : List Char) → (widest : Nat) → Cursor →
    Except Fault (List Char × Nat × Cursor)
  | 0, breaks, widest, c => .ok (breaks, widest, c)
  | fuel + 1, breaks, widest, c =>
    let spaces := (c.rest.takeWhile (· = ' ')).length
    let n := match indent with
      | some i => min spaces (i - c.mark.col)
      | none => spaces
    let c := c.skip n
    let widest := max widest c.mark.col
    if (indent.all (c.mark.col < ·)) && c.head? = some '\t' then .error .tab
    else if c.atBreak then readBlockBreaks indent fuel (breaks ++ [c.breakChar]) widest c.nextLine
    else .ok (breaks, widest, c)

/-- The state of reading a block text. -/
structure BlockText where
  /-- The text so far. -/
  chars : List Char := []
  /-- The line break behind the last line. -/
  lineBreak : List Char := []
  /-- The line breaks after that. -/
  trailing : List Char := []
  /-- Whether the last line started with a blank. -/
  afterBlank : Bool := false
  deriving Repr, Inhabited

/-- Adds a line to a block text. A folded text joins lines that do not start with a blank. -/
def BlockText.addLine (t : BlockText) (isFolded : Bool) (line : List Char) : BlockText :=
  let blank := line.head?.any isBlank
  let folds := isFolded && t.lineBreak.head? = some '\n' && !t.afterBlank && !blank
  let joint := if folds then (if t.trailing.isEmpty then [' '] else []) else t.lineBreak
  { chars := t.chars ++ joint ++ t.trailing ++ line, afterBlank := blank }

/-- Reads the lines of a block text. -/
def readBlockLines (isFolded : Bool) (indent : Nat) : Nat → BlockText → Cursor → Except Fault (BlockText × Cursor)
  | 0, t, c => .ok (t, c)
  | fuel + 1, t, c =>
    if c.mark.col = indent && !c.rest.isEmpty then do
      let line := c.rest.takeWhile (!isBreak ·)
      let t := t.addLine isFolded line
      let c := c.skip line.length
      let (lineBreak, c) := if c.rest.isEmpty then ([], c) else ([c.breakChar], c.nextLine)
      let (trailing, _, c) ← readBlockBreaks (some indent) (c.rest.length + 1) [] 0 c
      readBlockLines isFolded indent fuel { t with lineBreak, trailing } c
    else .ok (t, c)

/-- Reads a block text behind its bar or angle bracket; `parent` is the indentation around it.
-/
def readBlock (isFolded : Bool) (parent : Int) (c : Cursor) : Except Fault ScalarText := do
  let (head, n) ← readIndicators c.rest
  let c ← skipHeadLine (c.skip n)
  let given := head.indent.map fun n => (if 0 ≤ parent then parent.toNat else 0) + n
  let (leading, widest, c) ← readBlockBreaks given (c.rest.length + 1) [] 0 c
  let indent := given.getD (max widest (max (parent + 1).toNat 1))
  let (t, c) ← readBlockLines isFolded indent (c.rest.length + 1) { trailing := leading } c
  let tail := match head.chomping with
    | .strip => []
    | .clip => t.lineBreak
    | .keep => t.lineBreak ++ t.trailing
  return ⟨t.chars ++ tail, c, true⟩

end CallResolution.Yaml
