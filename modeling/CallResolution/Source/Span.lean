/-!
# Spans

A place in a file is a half-open range of byte offsets. Offsets, lines and columns are 32-bit
words, so the length of a range whose end lies before its start wraps around.
-/

namespace CallResolution.Source

/-- The number of a file inside its file set. -/
abbrev FileId := Nat

/-- A half-open byte range inside one file. -/
structure Span where
  /-- The file the range lies in. -/
  file : FileId
  /-- The first offset of the range. -/
  start : UInt32
  /-- The offset just after the range. -/
  stop : UInt32
  deriving DecidableEq, Repr, Inhabited

/-- A line and column, both counted from 1; columns count bytes. -/
structure Position where
  /-- The line. -/
  line : UInt32
  /-- The column. -/
  col : UInt32
  deriving DecidableEq, Repr, Inhabited

namespace Span

/-- The place of something that has none: the empty range at the start of the first file. -/
def none : Span := ⟨0, 0, 0⟩

/-- Whether the range holds no byte. -/
def isEmpty (s : Span) : Bool :=
  s.start == s.stop

/-- The number of bytes in the range. -/
def length (s : Span) : UInt32 :=
  s.stop - s.start

/-- A range as text, such as `0:4-9`. -/
def text (s : Span) : String :=
  s!"{s.file}:{s.start.toNat}-{s.stop.toNat}"

/-- The least range that holds both ranges; a range of another file adds nothing. -/
def cover (s t : Span) : Span :=
  if s.file = t.file then
    { s with
      start := if t.start < s.start then t.start else s.start
      stop := if s.stop < t.stop then t.stop else s.stop }
  else s

end Span

end CallResolution.Source
