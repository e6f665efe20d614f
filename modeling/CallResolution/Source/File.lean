import CallResolution.Source.Path
import CallResolution.Source.Span
import CallResolution.Text.Utf8

/-!
# Files

A file is its content together with the path it is known by. The newlines of the content
divide it into lines, and through them byte offsets and line and column positions are turned
into each other.
-/

namespace CallResolution.Source

open Text

/-- How a file came into its file set. -/
structure FileFlags where
  /-- The flag bits: 1 for a file from memory, 2 for a dropped byte order mark, 4 for changed
  line ends. -/
  bits : UInt8
  deriving DecidableEq, Repr, Inhabited

namespace FileFlags

/-- The file never was on disk. -/
def fromMemory : FileFlags := ⟨1⟩

/-- The flags of a file read from disk. -/
def ofLoading (hadMark hadCrLf : Bool) : FileFlags :=
  ⟨(if hadMark then 2 else 0) + (if hadCrLf then 4 else 0)⟩

end FileFlags

/-- A file of a file set. -/
structure File where
  /-- Its number. -/
  id : FileId
  /-- The cleaned path. -/
  path : String
  /-- The bytes. -/
  content : Bytes
  /-- How it came in. -/
  flags : FileFlags
  deriving Repr, Inhabited

/-- The newline byte. -/
def newline : UInt8 := 10

/-- The carriage return byte. -/
def carriageReturn : UInt8 := 13

/-- The offsets of the newlines of `s`, when `s` starts at offset `i`. -/
def newlinesFrom (i : Nat) : Bytes → List Nat
  | [] => []
  | b :: r => if b = newline then i :: newlinesFrom (i + 1) r else newlinesFrom (i + 1) r

/-- The offset at which the line after `k` newlines starts. -/
def lineStart (newlines : List Nat) (k : Nat) : Nat :=
  if k = 0 then 0 else newlines.getD (k - 1) 0 + 1

namespace File

/-- The offsets of the newlines. -/
def newlines (f : File) : List Nat :=
  newlinesFrom 0 f.content

/-- The number of bytes. -/
def size (f : File) : UInt32 :=
  f.content.length.toUInt32

/-- The line and column of an offset. An offset on a newline still belongs to the line that
the newline ends. -/
def positionAt (f : File) (off : UInt32) : Position :=
  let newlines := f.newlines
  let k := newlines.countP (· < off.toNat)
  ⟨(k + 1).toUInt32, off - (lineStart newlines k).toUInt32 + 1⟩

/-- The offset of a position. A position outside the file is the end of the file. -/
def offsetAt (f : File) (p : Position) : UInt32 :=
  let newlines := f.newlines
  let off :=
    if 1 ≤ p.line.toNat ∧ p.line.toNat ≤ newlines.length + 1 then
      (lineStart newlines (p.line.toNat - 1)).toUInt32 + (if 1 < p.col then p.col - 1 else 0)
    else f.size
  if f.size < off then f.size else off

/-- The span of `n` bytes from a position on, cut off at the end of the file. -/
def spanAt (f : File) (p : Position) (n : UInt32) : Span :=
  let start := f.offsetAt p
  let stop := start + n
  ⟨f.id, start, if f.size < stop then f.size else stop⟩

/-- The bytes from one offset up to another. -/
def slice (f : File) (start stop : Nat) : Bytes :=
  (f.content.drop start).take (stop - start)

/-- A line without its newline; lines count from 1, and a line the file does not have is
blank. -/
def line (f : File) (n : UInt32) : Bytes :=
  let newlines := f.newlines
  if n.toNat = 0 ∨ newlines.length + 1 < n.toNat then []
  else
    f.slice (lineStart newlines (n.toNat - 1)) (newlines.getD (n.toNat - 1) f.content.length)

/-- The positions of both ends of a span of this file. -/
def positionsOf (f : File) (s : Span) : Position × Position :=
  (f.positionAt s.start, f.positionAt s.stop)

end File

/-- Replaces every carriage return that a newline follows, and tells whether there was one. -/
def joinLineEnds : Bytes → Bytes × Bool
  | [] => ([], false)
  | [b] => ([b], false)
  | a :: b :: r =>
    if a = carriageReturn ∧ b = newline then (newline :: (joinLineEnds r).1, true)
    else
      let rest := joinLineEnds (b :: r)
      (a :: rest.1, rest.2)
termination_by s => s.length

/-- Drops a leading byte order mark, and tells whether there was one. -/
def dropByteOrderMark : Bytes → Bytes × Bool
  | 0xEF :: 0xBB :: 0xBF :: r => (r, true)
  | s => (s, false)

end CallResolution.Source
