import CallResolution.Source.File

/-!
# File sets

The files of one run. Adding a path twice keeps both versions, and the newest one answers for
the path. Paths are shown in one of four modes.
-/

namespace CallResolution.Source

open Text

/-- How the path of a file is shown. -/
inductive PathMode where
  /-- The path, or its last element when the path is long. -/
  | auto
  /-- The path as it is kept. -/
  | absolute
  /-- The path seen from the base directory. -/
  | relative
  /-- The last element. -/
  | basename
  deriving DecidableEq, Repr, Inhabited

namespace PathMode

/-- Reads the name of a mode; a blank name means `auto`. -/
def ofName? : String → Option PathMode
  | "" | "auto" => some .auto
  | "absolute" => some .absolute
  | "relative" => some .relative
  | "basename" => some .basename
  | _ => none

end PathMode

/-- The files of a run, with the directory that relative paths are read from and the directory
that they are shown against (blank for the former). -/
structure FileSet where
  /-- The directory of the run. -/
  workDir : String
  /-- The files in the order they were added. -/
  files : Array File := #[]
  /-- Where shown paths start, blank for the directory of the run. -/
  base : String := ""
  deriving Repr, Inhabited

/-- Paths of more bytes than this are cut to their last element in the mode `auto`. -/
def longPath : Nat := 60

namespace File

/-- The path of a file in one of the modes, seen from `base` (the directory of the run when
blank). -/
def shownPath (f : File) (workDir : String) (mode : PathMode) (base : String) : String :=
  match mode with
  | .absolute => f.path
  | .relative => Path.clean (Path.relativeTo workDir f.path (if base = "" then workDir else base))
  | .basename => Path.baseName f.path
  | .auto => if longPath < f.path.utf8ByteSize then Path.baseName f.path else f.path

end File

namespace FileSet

/-- The number of files. -/
def size (fs : FileSet) : Nat :=
  fs.files.size

/-- The file with a number. -/
def get? (fs : FileSet) (id : FileId) : Option File :=
  fs.files[id]?

/-- Adds a file and answers with it. -/
def add (fs : FileSet) (path : String) (content : Bytes) (flags : FileFlags) : File × FileSet :=
  let f : File := ⟨fs.files.size, Path.clean path, content, flags⟩
  (f, { fs with files := fs.files.push f })

/-- Adds a file from memory. -/
def addFromMemory (fs : FileSet) (path : String) (content : Bytes) : File × FileSet :=
  fs.add path content .fromMemory

/-- Adds the content of a file on disk, without byte order mark and with plain newlines. -/
def addLoaded (fs : FileSet) (path : String) (content : Bytes) : File × FileSet :=
  let (content, hadMark) := dropByteOrderMark content
  let (content, hadCrLf) := joinLineEnds content
  fs.add path content (.ofLoading hadMark hadCrLf)

/-- The newest file that was added under a path. -/
def latest? (fs : FileSet) (path : String) : Option File :=
  fs.files.toList.reverse.find? (·.path = Path.clean path)

/-- The directory that paths are shown against. -/
def baseDir (fs : FileSet) : String :=
  if fs.base = "" then fs.workDir else fs.base

/-- The shown path of a file. -/
def shownPath (fs : FileSet) (f : File) (mode : PathMode) : String :=
  f.shownPath fs.workDir mode fs.baseDir

/-- The positions of the ends of a span, when its file exists. -/
def positionsOf? (fs : FileSet) (s : Span) : Option (Position × Position) :=
  (fs.get? s.file).map (·.positionsOf s)

end FileSet

end CallResolution.Source
