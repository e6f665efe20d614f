import CallResolution.Diagnostic.Bag
import CallResolution.Source.FileSet

/-!
# Listings with one line for each diagnostic

Short listings keep the order of the bag and show a place in front of each message.

Golden lines are sorted by what the lines show, so that the text does not depend on the order
of reports. Notes can be given lines of their own. Findings inside the predefined universe can
be left out.
-/

namespace CallResolution

open Source Text

/-! ## Short listings -/

/-- A place as path, line and column; a span of a file that does not exist has no place. -/
def shownPlace (fs : FileSet) (mode : PathMode) (s : Span) : String :=
  match fs.get? s.file with
  | none => "<unknown>"
  | some f =>
    let pos := f.positionAt s.start
    s!"{fs.shownPath f mode}:{pos.line.toNat}:{pos.col.toNat}"

/-- The indented line of a note. -/
def Note.listed (fs : FileSet) (mode : PathMode) (n : Note) : String :=
  s!"  {n.kind.label}: {shownPlace fs mode n.span}: {n.message}\n"

/-- The line of a diagnostic, followed by those of its notes. -/
def Diagnostic.listed (fs : FileSet) (mode : PathMode) (notes : Bool) (d : Diagnostic) : String :=
  s!"{shownPlace fs mode d.primary}: {d.severity.label} {d.code.id}: {d.message}\n"
    ++ if notes then String.join (d.notes.map (·.listed fs mode)) else ""

/-- The short listing of a bag. -/
def Bag.listing (fs : FileSet) (mode : PathMode) (notes : Bool) (b : Bag) : String :=
  String.join (b.items.map (·.listed fs mode notes))

/-! ## Golden lines -/

/-- The name of the file that stands for the predefined universe. -/
def builtinPath : String := "<builtin>"

/-- What a line shows. -/
structure GoldenLine where
  /-- The shown path. -/
  path : String
  /-- The line of the place. -/
  line : Nat
  /-- The column of the place. -/
  column : Nat
  /-- The label of the severity, or of the note. -/
  severity : String
  /-- The identifier of the code. -/
  code : String
  /-- The message on one line. -/
  message : String
  deriving DecidableEq, Repr, Inhabited

namespace GoldenLine

/-- Whether one line is printed no later than another. -/
def printedBefore (a b : GoldenLine) : Bool :=
  if a.path ≠ b.path then a.path < b.path
  else if a.line ≠ b.line then a.line < b.line
  else if a.column ≠ b.column then a.column < b.column
  else if a.severity ≠ b.severity then a.severity < b.severity
  else if a.code ≠ b.code then a.code < b.code
  else !(b.message < a.message)

/-- A line of output. -/
def text (l : GoldenLine) : String :=
  s!"{l.severity} {l.code} {l.path}:{l.line}:{l.column} {l.message}"

end GoldenLine

/-- Turns every line end, a carriage return with or without a newline or a newline alone, into
a space. -/
def spaceLineEnds : List Char → List Char
  | [] => []
  | [c] => if c = '\n' || c = '\r' then [' '] else [c]
  | c :: d :: r =>
    if c = '\r' && d = '\n' then ' ' :: spaceLineEnds r
    else if c = '\n' || c = '\r' then ' ' :: spaceLineEnds (d :: r)
    else c :: spaceLineEnds (d :: r)
termination_by s => s.length

/-- A message on one line, without white space at its ends. -/
def oneLine (message : String) : String :=
  trimBlanks (String.ofList (spaceLineEnds message.toList))

/-- Drops every leading `./`. -/
def dropDotSlash : List Char → List Char
  | '.' :: '/' :: r => dropDotSlash r
  | s => s

/-- The shown path and start of a span, when its file exists and it starts inside the file. -/
def goldenPlace? (fs : FileSet) (s : Span) : Option (String × Position) := do
  let f ← fs.get? s.file
  if f.content.length < s.start.toNat then none
  else
    let path :=
      if f.path = builtinPath then f.path
      else String.ofList (dropDotSlash (fs.shownPath f .relative).toList)
    some (path, f.positionAt s.start)

/-- The line for one place of a diagnostic, if it is shown. -/
def goldenLine? (fs : FileSet) (skipBuiltin : Bool) (severity : String) (code : Code) (s : Span)
    (message : String) : Option GoldenLine := do
  let (path, pos) ← goldenPlace? fs s
  let line : GoldenLine :=
    { path, line := pos.line.toNat, column := pos.col.toNat, severity, code := code.id,
      message := oneLine message }
  if skipBuiltin && path = builtinPath then none else some line

/-- The lines of one diagnostic. -/
def Diagnostic.goldenLines (fs : FileSet) (notes skipBuiltin : Bool) (d : Diagnostic) :
    List GoldenLine :=
  (goldenLine? fs skipBuiltin d.severity.label d.code d.primary d.message).toList
    ++ if notes then
        d.notes.filterMap fun n => goldenLine? fs skipBuiltin n.kind.label d.code n.span n.message
      else []

/-- Writes sorted lines; with `skipBuiltin` findings inside the predefined universe are left
out. -/
def formatLines (fs : FileSet) (notes skipBuiltin : Bool) (ds : List Diagnostic) : String :=
  let lines := (ds.flatMap (·.goldenLines fs notes skipBuiltin)).mergeSort GoldenLine.printedBefore
  "\n".intercalate (lines.map GoldenLine.text)

/-- The lines for comparisons with a stored text. -/
def formatGolden (fs : FileSet) (notes : Bool) (ds : List Diagnostic) : String :=
  formatLines fs notes true ds

/-- The lines for a command line, which show findings inside the predefined universe too. -/
def formatListing (fs : FileSet) (notes : Bool) (ds : List Diagnostic) : String :=
  formatLines fs notes false ds

end CallResolution
