import CallResolution.Files.Tree
import CallResolution.Source.FileSet
import CallResolution.Text.Quoted
import CallResolution.Text.Words

/-!
# Named files and their loading

Arguments name files, or directories in which all documents are meant. The files are given in
order and each once. Files of a tree become files of a file set.
-/

namespace CallResolution.Files

open Source Text

/-! ## Loading -/

/-- A file that could not be loaded. -/
structure LoadFault where
  /-- Its path. -/
  path : String
  /-- What went wrong. -/
  cause : FileFault
  deriving DecidableEq, Repr, Inhabited

/-- What a fault says. -/
def LoadFault.message (f : LoadFault) : String :=
  s!"load {f.path}: {f.cause.message}"

/-- Adds a file of a tree to a file set. -/
def load (t : FileTree) (fs : FileSet) (path : String) : Except LoadFault (File × FileSet) :=
  match t.read path with
  | .error cause => .error { path, cause }
  | .ok content => .ok (fs.addLoaded path content)

/-- Adds files of a tree to a file set, up to the first that cannot be read. -/
def loadAll (t : FileTree) : FileSet → List String → Except LoadFault (List File × FileSet)
  | fs, [] => .ok ([], fs)
  | fs, p :: ps => do
    let (f, fs) ← load t fs p
    let (l, fs) ← loadAll t fs ps
    return (f :: l, fs)

/-! ## Files named by arguments -/

/-- Whether a path has the name of a document. -/
def isDocument (p : String) : Bool :=
  let ext := (Path.extension p).map lowerForWord
  ext = ".yaml" || ext = ".yml"

/-- Why arguments name no files. -/
inductive NamedFault where
  /-- An argument does not lead anywhere. -/
  | missing (arg : String) (f : FileFault)
  /-- There is no document. -/
  | none
  deriving DecidableEq, Repr, Inhabited

/-- What a fault says. -/
def NamedFault.message : NamedFault → String
  | .missing arg f => s!"fixture {quote arg}: {f.message}"
  | .none => "no fixture files found"

/-- The documents below a directory. Hidden directories are not entered. -/
def documentsBelow (t : FileTree) (dir : String) : List String :=
  match t.locate dir with
  | .error _ => []
  | .ok place =>
    ((t.walk (fun name => !name.startsWith ".") (t.entries.length + 1) place).map fun names =>
      Path.join dir ("/".intercalate names)).filter isDocument

/-- The files that an argument names. -/
def namedBy (t : FileTree) (arg : String) : Except NamedFault (List String) :=
  match t.stat arg with
  | .error f => .error (.missing arg f)
  | .ok (.file _) => .ok [Path.clean arg]
  | .ok .directory => .ok (documentsBelow t arg)

/-- Drops repeats of neighbours. -/
def dropRepeats : List String → List String
  | a :: b :: r => if a = b then dropRepeats (b :: r) else a :: dropRepeats (b :: r)
  | l => l

/-- The files that arguments name, in order and each once. -/
def namedFiles (t : FileTree) (args : List String) : Except NamedFault (List String) := do
  let files := (← args.mapM (namedBy t)).flatten
  match dropRepeats (files.mergeSort fun a b => !(b < a)) with
  | [] => throw .none
  | l => return l

end CallResolution.Files
