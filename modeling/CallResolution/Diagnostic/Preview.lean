import CallResolution.Diagnostic.Basic
import CallResolution.Source.FileSet

/-!
# Previews of edits

The lines that an edit touches, before and after it is applied. The block of touched lines
reaches from the start of the line the edit starts on to the end of the line it ends on.
-/

namespace CallResolution

open Source Text

/-- The touched lines before and after an edit. -/
structure EditPreview where
  /-- The lines as they are. -/
  before : List Bytes
  /-- The lines after the edit. -/
  after : List Bytes
  deriving DecidableEq, Repr, Inhabited

/-- Cuts a byte string at its newlines. -/
def splitLines : Bytes → List Bytes
  | [] => [[]]
  | b :: r =>
    if b = newline then [] :: splitLines r
    else match splitLines r with
      | [] => [[b]]
      | l :: ls => (b :: l) :: ls

/-- The lines of a block. Newlines at the end of the block do not open further lines. -/
def blockLines (block : Bytes) : List Bytes :=
  if block.isEmpty then []
  else splitLines (block.reverse.dropWhile (· = newline)).reverse

/-- The offset at which a line starts, lines counting from 1. -/
def Source.File.lineStartOffset (f : File) (line : Nat) : Nat :=
  if line ≤ 1 then 0
  else match f.newlines[line - 2]? with
    | some n => n + 1
    | none => f.content.length

/-- The offset just after the newline that ends a line. -/
def Source.File.lineStopOffset (f : File) (line : Nat) : Nat :=
  if line = 0 then 0
  else match f.newlines[line - 1]? with
    | some n => n + 1
    | none => f.content.length

/-- The bounds of the block of lines that a span touches. -/
def Source.File.touchedBlock (f : File) (s : Span) : Nat × Nat :=
  let first := (f.positionAt s.start).line.toNat
  let last := max (f.positionAt s.stop).line.toNat first
  let start := f.lineStartOffset first
  (start, min (max (f.lineStopOffset last) start) f.content.length)

/-- The preview of an edit in a file, unless the span of the edit is not a range inside the
file. -/
def Source.File.previewOf? (f : File) (e : Edit) : Option EditPreview :=
  let (start, stop) := f.touchedBlock e.span
  let block := f.slice start stop
  let relStart : Int := (e.span.start.toNat : Int) - start
  let relStop : Int := (e.span.stop.toNat : Int) - start
  if relStart < 0 ∨ (block.length : Int) < relStart then none
  else if relStop < relStart ∨ (block.length : Int) < relStop then none
  else
    let after := block.take relStart.toNat ++ bytesOf e.newText ++ block.drop relStop.toNat
    some ⟨blockLines block, blockLines after⟩

/-- The preview of an edit in a file set. -/
def editPreview? (fs : FileSet) (e : Edit) : Option EditPreview := do
  (← fs.get? e.span.file).previewOf? e

end CallResolution
