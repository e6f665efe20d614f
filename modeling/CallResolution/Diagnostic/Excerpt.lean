import CallResolution.Diagnostic.Golden
import CallResolution.Diagnostic.Preview
import CallResolution.Text.Quoted
import CallResolution.Text.Style
import CallResolution.Text.Width
import CallResolution.Text.Words

/-!
# Diagnostics with source excerpts

The form for people: the place and message, the source line with the span underlined, and on
request notes, fixes and previews of the fixes. Colours are terminal escape sequences around
parts of the text.
-/

namespace CallResolution

open Source Text

namespace Style

/-- The style of a severity. -/
def ofSeverity (s : Severity) : Style :=
  if s = .error then boldColor 31 else if s = .warning then boldColor 33 else boldColor 36

/-- The style of line numbers. -/
def gutter : Style := color 34

/-- The style of the word in front of a note. -/
def note : Style := color 36

/-- The style of the number of a fix. -/
def fix : Style := boldColor 32

/-- The style of added lines. -/
def added : Style := color 32

/-- The style of deleted lines. -/
def deleted : Style := color 31

end Style

/-- What the form for people shows. -/
structure ExcerptOptions where
  /-- Whether colours are on. -/
  color : Bool := false
  /-- How many lines around the place are shown. -/
  context : Int := 0
  /-- How paths are shown. -/
  pathMode : PathMode := .auto
  /-- The cells a source line may take, 0 for no limit. -/
  width : Nat := 0
  /-- Whether notes are shown. -/
  notes : Bool := false
  /-- Whether fixes are shown. -/
  fixes : Bool := false
  /-- Whether fixes are shown with a preview. -/
  preview : Bool := false
  deriving Repr, Inhabited

/-- Shows every tab as four spaces. -/
def expandTabs (s : Bytes) : Bytes :=
  s.flatMap fun b => if b = 9 then [32, 32, 32, 32] else [b]

/-- Moves a column into a line of a length; the column just after the line counts as inside.
-/
def clampColumn (length : Nat) (col : UInt32) : Nat :=
  if col < 1 then 1 else min col.toNat (length + 1)

/-- The padding and width of the underline of a span that starts on the line `raw`. A span
that goes on to further lines is underlined to the end of the line. -/
def underline (raw : Bytes) (start stop : Position) : Nat × Nat :=
  let col := clampColumn raw.length start.col
  let endCol := if stop.line = start.line then clampColumn raw.length stop.col else raw.length + 1
  let shown (s : Bytes) : Nat := displayWidth (expandTabs s)
  (shown (raw.take (col - 1)), max (shown ((raw.take (endCol - 1)).drop (col - 1))) 1)

/-- The line numbers of the excerpt. -/
def excerptLines (f : File) (context : Int) (line : Nat) : Nat × Nat :=
  let ctx := (max context 0).toNat
  (if ctx < line then line - ctx else 1, min (line + ctx) (f.newlines.length + 1))

/-- One line of the excerpt, with the underline below it when it is the line of the place. -/
def excerptLine (o : ExcerptOptions) (style : Style) (f : File) (start stop : Position)
    (gutterWidth line : Nat) : String :=
  let raw := f.line line.toUInt32
  let text := expandTabs raw
  if line ≠ start.line.toNat && text.isEmpty then ""
  else
    let shown := textOf (if 0 < o.width then truncate text o.width (bytesOf "...") else text)
    let number := Style.gutter.paint o.color (padLeft gutterWidth (toString line) ++ " |")
    let source := s!" {number} {shown}\n"
    if line ≠ start.line.toNat then source
    else
      let (pad, width) := underline raw start stop
      if 0 < o.width && o.width ≤ pad then source
      else
        let margin := Style.gutter.paint o.color (padLeft gutterWidth "" ++ " |")
        let marker := style.paint o.color ("^" ++ repeatText (width - 1) "~")
        let indent := repeatText pad " "
        source ++ s!" {margin} {indent}{marker}\n"

/-- The source lines around a span. -/
def excerpt (fs : FileSet) (o : ExcerptOptions) (style : Style) (s : Span) : String :=
  match fs.get? s.file with
  | none => ""
  | some f =>
    let (start, stop) := f.positionsOf s
    let (first, last) := excerptLines f o.context start.line.toNat
    let gutterWidth := (toString last).length
    String.join ((List.range' first (last + 1 - first)).map
      (excerptLine o style f start stop gutterWidth))

/-- The lines of an edit. -/
def Edit.shown (fs : FileSet) (o : ExcerptOptions) (e : Edit) : String :=
  let head := s!"    edit {shownPlace fs o.pathMode e.span} apply={quote e.newText}\n"
  match if o.preview then editPreview? fs e else none with
  | none => head
  | some p =>
    let line (style : Style) (mark : String) (l : Bytes) : String :=
      s!"      {style.paint o.color (mark ++ textOf l)}\n"
    head ++ "    preview:\n" ++ String.join (p.before.map (line .deleted "- "))
      ++ String.join (p.after.map (line .added "+ "))

/-- The lines of a fix, which is the `i`-th one counted from 0. -/
def Fix.shown (fs : FileSet) (o : ExcerptOptions) (fx : Fix) (i : Nat) : String :=
  let label := Style.fix.paint o.color s!"fix #{i + 1}:"
  s!"  {label} {fx.title}\n" ++ String.join (fx.edits.map (·.shown fs o))

/-- A diagnostic in the form for people. Notes of timings are always shown. -/
def Diagnostic.shown (fs : FileSet) (o : ExcerptOptions) (d : Diagnostic) : String :=
  let style := Style.ofSeverity d.severity
  let place := Style.bold.paint o.color (shownPlace fs o.pathMode d.primary)
  let sev := style.paint o.color d.severity.name
  let code := style.paint o.color d.code.id
  let head := s!"{place}: {sev} {code}: {d.message}\n"
  let source :=
    if d.severity = .info && d.primary.isEmpty then "" else excerpt fs o style d.primary
  let notes :=
    if o.notes || d.code = .timings then
      String.join (d.notes.map fun n =>
        let label := Style.note.paint o.color (n.kind.label ++ ":")
        s!"  {label} {shownPlace fs o.pathMode n.span}: {n.message}\n")
    else ""
  let fixes :=
    if o.fixes then String.join (d.fixes.mapIdx fun i fx => fx.shown fs o i) else ""
  head ++ source ++ notes ++ fixes

/-- A bag in the form for people, with a blank line between diagnostics. -/
def Bag.excerpts (fs : FileSet) (o : ExcerptOptions) (b : Bag) : String :=
  "\n".intercalate (b.items.map (·.shown fs o))

/-- Whether a span ends before its start on the same line, which cannot be underlined. -/
def isReversed (f : File) (s : Span) : Bool :=
  let (start, stop) := f.positionsOf s
  let length := (f.line start.line).length
  stop.line = start.line && clampColumn length stop.col < clampColumn length start.col

/-- Whether the place of a diagnostic can be underlined, or need not be. -/
def Diagnostic.canUnderline (fs : FileSet) (d : Diagnostic) : Bool :=
  (d.severity = .info && d.primary.isEmpty) || (fs.get? d.primary.file).all fun f => !isReversed f d.primary

/-- A bag in the form for people, when every place can be underlined. -/
def Bag.excerpts? (fs : FileSet) (o : ExcerptOptions) (b : Bag) : Option String :=
  if b.items.all (·.canUnderline fs) then some (b.excerpts fs o) else none

end CallResolution
