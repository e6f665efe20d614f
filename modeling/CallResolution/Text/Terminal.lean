import CallResolution.Text.Width

/-!
# Cells of a line on a terminal

A line that is sent to a terminal may hold control sequences, which take no cells. The line is
read character by character with the state of the control sequence it is in. Outside of one, a
printable ASCII character takes one cell, a control character none, and any other character
starts a grapheme cluster. The cells of a cluster follow from its first character: a flag
takes two cells, a pictograph as many as its presentation asks for, and other characters are
added up.
-/

namespace CallResolution.Text

/-! ## Control sequences -/

/-- Where a reader of control sequences stands. -/
inductive Control where
  /-- Outside of a sequence. -/
  | ground
  /-- After an escape character. -/
  | escape
  /-- In an escape sequence, after an intermediate character. -/
  | escapeMore
  /-- In the parameters of a control sequence. -/
  | sequence
  /-- In a control sequence, after an intermediate character. -/
  | sequenceMore
  /-- At the start of a device control string. -/
  | device
  /-- In the parameters of a device control string. -/
  | deviceParameters
  /-- In a device control string, after an intermediate character. -/
  | deviceMore
  /-- In the text of a device control string. -/
  | deviceText
  /-- In the text of a system command. -/
  | command
  /-- In the text of any other string. -/
  | message
  deriving DecidableEq, Repr, Inhabited

namespace Control

/-- Where a byte leads from a state that has no rule for it. -/
def anywhere (b : Nat) : Control :=
  if b = 0x1B then .escape
  else if b = 0x90 then .device
  else if b = 0x9B then .sequence
  else if b = 0x9D then .command
  else if b = 0x98 || b = 0x9E || b = 0x9F then .message
  else .ground

/-- Whether a byte is a control character that no sequence is ended by. -/
def isHarmless (b : Nat) : Bool :=
  (b < 0x20 && b != 0x18 && b != 0x1A && b != 0x1B) || b = 0x7F

/-- Whether a byte is an intermediate character. -/
def isIntermediate (b : Nat) : Bool :=
  0x20 ≤ b && b ≤ 0x2F

/-- Whether a byte belongs to the parameters of a sequence. -/
def isParameter (b : Nat) : Bool :=
  0x30 ≤ b && b ≤ 0x3F

/-- Whether a byte ends the head of a sequence. -/
def isFinal (b : Nat) : Bool :=
  0x40 ≤ b && b ≤ 0x7E

/-- Where the character after an escape character leads. -/
def ofEscaped (b : Nat) : Control :=
  if b = 0x50 then .device
  else if b = 0x5B then .sequence
  else if b = 0x5D then .command
  else if b = 0x58 || b = 0x5E || b = 0x5F then .message
  else .ground

/-- The state after a byte. -/
def next (s : Control) (b : Nat) : Control :=
  match s with
  | .ground => anywhere b
  | .escape =>
    if isHarmless b then .escape
    else if isIntermediate b then .escapeMore
    else if b ≤ 0x7F && b != 0x1B then ofEscaped b
    else anywhere b
  | .escapeMore => if isHarmless b || isIntermediate b then .escapeMore else anywhere b
  | .sequence =>
    if isHarmless b || isParameter b then .sequence
    else if isIntermediate b then .sequenceMore
    else anywhere b
  | .sequenceMore => if isHarmless b || isIntermediate b then .sequenceMore else anywhere b
  | .device =>
    if (0x08 ≤ b && b ≤ 0x0D) || b = 0x1B || isFinal b then .deviceText
    else if isHarmless b then .device
    else if isParameter b then .deviceParameters
    else if isIntermediate b then .deviceMore
    else anywhere b
  | .deviceParameters =>
    if isFinal b then .deviceText
    else if isHarmless b || isParameter b then .deviceParameters
    else if isIntermediate b then .deviceMore
    else anywhere b
  | .deviceMore =>
    if isFinal b || isParameter b then .deviceText
    else if isHarmless b || isIntermediate b then .deviceMore
    else anywhere b
  | .deviceText => if b = 0x18 || b = 0x1A || b = 0x1B || b = 0x9C then anywhere b else .deviceText
  | .command =>
    if b = 0x07 || b = 0x18 || b = 0x1A || b = 0x1B || b = 0x9C then anywhere b else .command
  | .message => if isHarmless b || (0x20 ≤ b && b ≤ 0x7F) then .message else anywhere b

/-- Whether characters above ASCII belong to the sequence. Elsewhere they end it. -/
def takesText : Control → Bool
  | .deviceText | .command => true
  | _ => false

end Control

/-! ## Clusters -/

/-- Whether a character of East Asian scripts takes two cells; those that Unicode 15.1 added
take one. -/
def isWide (n : Nat) : Bool :=
  inRanges n wideRanges && !((0x2FFC ≤ n && n ≤ 0x2FFF) || n = 0x31EF)

/-- Wide pictographs that are shown as text unless a selector follows. -/
def textPictographRanges : List (Nat × Nat) :=
  [(0x3030, 0x3030), (0x303D, 0x303D), (0x3297, 0x3297), (0x3299, 0x3299), (0x1F202, 0x1F202),
   (0x1F237, 0x1F237), (0x1F260, 0x1F265)]

/-- The cells of a character of a break class. -/
def cellsOf (k : BreakClass) (n : Nat) : Nat :=
  match k with
  | .control | .cr | .lf | .extend | .joiner => 0
  | .flagHalf => 2
  | .pictograph => if isWide n && !inRanges n textPictographRanges then 2 else 1
  | _ => if n = 0x2E3A then 3 else if n = 0x2E3B then 4 else if isWide n then 2 else 1

/-- A cluster that is being read. -/
structure OpenCluster where
  /-- The class of its first character. -/
  first : BreakClass
  /-- What decides whether the next character belongs to it. -/
  state : ClusterState
  /-- Its cells so far. -/
  cells : Nat

namespace OpenCluster

/-- The cluster of one character. -/
def start (k : BreakClass) (n : Nat) : OpenCluster :=
  ⟨k, .start k, cellsOf k n⟩

/-- The cluster with one more character: the selector U+FE0F asks for two cells and, after a
pictograph, U+FE0E for one. -/
def add (o : OpenCluster) (k : BreakClass) (n : Nat) : OpenCluster :=
  { o with
    state := o.state.step k
    cells :=
      if n = 0xFE0F then 2
      else match o.first with
        | .pictograph => if n = 0xFE0E then 1 else 2
        | .flagHalf | .hangulL => o.cells
        | _ => o.cells + cellsOf k n }

end OpenCluster

/-! ## Lines -/

/-- How far a line has been read. -/
structure LineCells where
  /-- The state of the control sequence. -/
  control : Control := .ground
  /-- The cluster that may go on. -/
  cluster? : Option OpenCluster := none
  /-- The cells before that cluster. -/
  cells : Nat := 0

namespace LineCells

/-- The cells of what has been read. -/
def total (l : LineCells) : Nat :=
  l.cells + (l.cluster?.map OpenCluster.cells).getD 0

/-- Reads one byte of a control sequence or of ASCII text. -/
def readByte (l : LineCells) (b : UInt8) : LineCells :=
  let shown := l.control = .ground && 0x20 ≤ b && b ≤ 0x7E
  { l with control := l.control.next b.toNat, cells := l.cells + (if shown then 1 else 0) }

/-- The code point of a character in bytes. -/
def codePoint (unit : Bytes) : Nat :=
  ((pieces unit).map fun p => p.shown.toNat).headD 0

/-- Reads a character that belongs to no open cluster. -/
def readFresh (l : LineCells) (k : BreakClass) (unit : Bytes) : LineCells :=
  if unit.length ≤ 1 || l.control.takesText then unit.foldl readByte l
  else { l with control := .ground, cluster? := some (.start k (codePoint unit)) }

/-- Reads a character. -/
def read (l : LineCells) (k : BreakClass) (unit : Bytes) : LineCells :=
  match l.cluster? with
  | none => l.readFresh k unit
  | some o =>
    if o.state.keeps k then { l with cluster? := some (o.add k (codePoint unit)) }
    else { l with cluster? := none, cells := l.total }.readFresh k unit

end LineCells

/-- The cells a line takes on a terminal. -/
def terminalWidth (s : Bytes) : Nat :=
  ((units s).foldl (fun (l : LineCells) u => l.read u.1 u.2) {}).total

end CallResolution.Text
