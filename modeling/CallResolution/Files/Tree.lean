import CallResolution.Source.Path
import CallResolution.Text.Utf8

/-!
# File trees

The files and directories that a program sees, as a value: what is read and written is a
function of the tree. Paths are followed component by component, so a file in the middle of a
path and a missing component are told apart.
-/

namespace CallResolution.Files

open Text Source

/-- What a path leads to. -/
inductive Entry where
  /-- A file with its content. -/
  | file (content : Bytes)
  /-- A directory. -/
  | directory
  deriving DecidableEq, Repr, Inhabited

/-- Why a path leads nowhere, or not to what is wanted. -/
inductive PathFault where
  /-- A component does not exist. -/
  | missing
  /-- A component that should be a directory is a file. -/
  | notDirectory
  /-- The path leads to a directory. -/
  | isDirectory
  /-- The path holds a NUL character. -/
  | invalid
  /-- A component or the whole path is too long. -/
  | tooLong
  /-- There is something at the path already. -/
  | taken
  /-- A name holds a slash. -/
  | slash
  deriving DecidableEq, Repr, Inhabited

/-- What a fault says. -/
def PathFault.words : PathFault → String
  | .missing => "no such file or directory"
  | .notDirectory => "not a directory"
  | .isDirectory => "is a directory"
  | .invalid => "invalid argument"
  | .tooLong => "file name too long"
  | .taken => "file exists"
  | .slash => "pattern contains path separator"

/-- The bytes that a component of a path may have. -/
def maxNameLength : Nat := 255

/-- The bytes that a path may have. -/
def maxPathLength : Nat := 4095

/-- An operation that failed. -/
structure FileFault where
  /-- The operation. -/
  operation : String
  /-- The path, as it was given. -/
  path : String
  /-- Why it failed. -/
  cause : PathFault
  deriving DecidableEq, Repr, Inhabited

/-- What a fault says. -/
def FileFault.message (f : FileFault) : String :=
  s!"{f.operation} {f.path}: {f.cause.words}"

/-- Files and directories by the components of their paths. The root is always there. -/
structure FileTree where
  /-- The directory from which relative paths start. -/
  workDir : String
  /-- What there is, each path once. -/
  entries : List (List String × Entry) := []
  deriving Repr, Inhabited

namespace FileTree

/-- What stands at a place. -/
def entryAt? (t : FileTree) (place : List String) : Option Entry :=
  if place.isEmpty then some .directory else t.entries.lookup place

/-- Follows one component of a path. -/
def follow (t : FileTree) (place : List String) (c : String) : Except PathFault (List String) :=
  match t.entryAt? place with
  | none => .error .missing
  | some (.file _) => .error .notDirectory
  | some .directory =>
    if maxNameLength < c.utf8ByteSize then .error .tooLong
    else .ok (if c = "" || c = "." then place else if c = ".." then place.dropLast else place ++ [c])

/-- The place a path leads to; there need not be anything at it. -/
def locate (t : FileTree) (p : String) : Except PathFault (List String) :=
  if '\x00' ∈ p.toList then .error .invalid
  else if p = "" then .error .missing
  else if maxPathLength < p.utf8ByteSize then .error .tooLong
  else (Path.components p).foldlM t.follow (if Path.isAbsolute p then [] else Path.cleanComponents t.workDir)

/-- What a path leads to. -/
def find (t : FileTree) (p : String) : Except PathFault Entry := do
  match t.entryAt? (← t.locate p) with
  | some e => return e
  | none => throw .missing

/-- What a path leads to, for a report that asks only this. -/
def stat (t : FileTree) (p : String) : Except FileFault Entry :=
  (t.find p).mapError fun cause => { operation := "stat", path := p, cause }

/-- Reads a file. -/
def read (t : FileTree) (p : String) : Except FileFault Bytes :=
  match t.find p with
  | .error cause => .error { operation := "open", path := p, cause }
  | .ok .directory => .error { operation := "read", path := p, cause := .isDirectory }
  | .ok (.file content) => .ok content

/-- Puts something at a place. -/
def put (t : FileTree) (place : List String) (e : Entry) : FileTree :=
  { t with entries := (place, e) :: t.entries.filter (·.1 ≠ place) }

/-- The place of a file that is to be written. What ends in a slash can only be a directory.
-/
def locateFile (t : FileTree) (p : String) : Except PathFault (List String) :=
  if p.endsWith "/" then do
    let around := Path.upToLast p
    if around ≠ "" then let _ ← t.locate around
    throw .isDirectory
  else do
    let place ← t.locate p
    if t.entryAt? place = some .directory then throw .isDirectory
    return place

/-- Writes a file; the directory has to exist. -/
def write (t : FileTree) (p : String) (content : Bytes) : Except FileFault FileTree :=
  match t.locateFile p with
  | .error cause => .error { operation := "open", path := p, cause }
  | .ok place => .ok (t.put place (.file content))

/-- Makes one directory; slashes at the end of the path do not count. -/
def makeDir (t : FileTree) (p : String) : Except FileFault FileTree :=
  let fault (cause : PathFault) : FileFault := { operation := "mkdir", path := p, cause }
  match t.locate (Path.dropSlashes p) with
  | .error cause => .error (fault cause)
  | .ok place => if (t.entryAt? place).isSome then .error (fault .taken) else .ok (t.put place .directory)

/-- Makes a directory and those around it, at most a number of them. The directories made
before a fault stay. -/
def makeDirsWithin (t : FileTree) : Nat → String → Option FileFault × FileTree
  | 0, _ => (none, t)
  | fuel + 1, p =>
    match t.find p with
    | .ok .directory => (none, t)
    | .ok (.file _) => (some { operation := "mkdir", path := p, cause := .notDirectory }, t)
    | .error _ =>
      let around := Path.upToLast p
      match if around = "" then (none, t) else t.makeDirsWithin fuel around with
      | (some f, t) => (some f, t)
      | (none, t) =>
        match t.makeDir p, t.find p with
        | .ok t, _ => (none, t)
        | .error _, .ok .directory => (none, t)
        | .error f, _ => (some f, t)

/-- Makes a directory and those around it. -/
def makeDirs (t : FileTree) (p : String) : Option FileFault × FileTree :=
  t.makeDirsWithin (p.length + 1) p

/-- Removes what stands at a place and below it. -/
def dropAt (t : FileTree) (place : List String) : FileTree :=
  { t with entries := t.entries.filter fun e => !place.isPrefixOf e.1 }

/-- Removes what a path leads to; a path that leads nowhere changes nothing. -/
def remove (t : FileTree) (p : String) : FileTree :=
  match t.locate p with
  | .ok place => t.dropAt place
  | .error _ => t

/-- The entries of the directory at a place, by name. -/
def children (t : FileTree) (place : List String) : List (String × Entry) :=
  (t.entries.filterMap fun (path, e) =>
    if path.dropLast = place then path.getLast?.map (·, e) else none).mergeSort
    fun a b => !(b.1 < a.1)

/-- The files below a place with the names on the way, in the order in which a walk meets
them: names in order, and a directory is entered where its name stands. Directories that a
test rejects are not entered. -/
def walk (t : FileTree) (enter : String → Bool) : Nat → List String → List (List String)
  | 0, _ => []
  | depth + 1, place =>
    (t.children place).flatMap fun (name, e) =>
      match e with
      | .file _ => [[name]]
      | .directory => if enter name then (t.walk enter depth (place ++ [name])).map (name :: ·) else []

end FileTree

end CallResolution.Files
