import CallResolution.Digest.Sha256
import CallResolution.Files.Tree
import CallResolution.Run.Entry

/-!
# The result cache

Results are kept in files of a directory. The name of such a file is a digest of the content
of the document, the options, and the layout of entries. How the entries are written is up to
a format; a file that cannot be read, or that has an entry of another layout, is as good as
none.
-/

namespace CallResolution

open Files Source Text

/-- The number of the layout of entries. -/
def entryLayout : Nat := 2

/-- The key of a result: the digests of the content, of the options and of the layout in one.
-/
def cacheKey (content options : Bytes) : Bytes :=
  Digest.combine [content, options, Digest.sha256 (bytesOf s!"jopa-results/{entryLayout}")]

/-- A cache in a directory. -/
structure Cache where
  /-- The directory. -/
  dir : String
  deriving DecidableEq, Repr, Inhabited

/-- A cache that could not be opened. -/
structure CacheFault where
  /-- The directory. -/
  dir : String
  /-- What went wrong. -/
  cause : FileFault
  deriving DecidableEq, Repr, Inhabited

/-- What a fault says. -/
def CacheFault.message (f : CacheFault) : String :=
  s!"open cache {f.dir}: {f.cause.message}"

namespace Cache

/-- Opens the cache in a directory, which is made when it does not exist. -/
def openIn (t : FileTree) (dir : String) : Except CacheFault Cache × FileTree :=
  match t.makeDirs dir with
  | (some cause, t) => (.error { dir, cause }, t)
  | (none, t) => (.ok { dir }, t)

/-- The directory of the results. -/
def results (c : Cache) : String :=
  Path.join c.dir "results"

/-- The extension of the files with results. -/
def extension : String := ".mp"

/-- The file for a key. -/
def pathOf (c : Cache) (key : Bytes) : String :=
  Path.join c.results (hexOf key ++ extension)

/-- The bytes of an entry. -/
def encode (format : EntryFormat) (e : Entry) : Bytes :=
  format.write (entryLayout, e)

/-- Reads an entry; one of another layout counts as none. -/
def decode (format : EntryFormat) (s : Bytes) : Option Entry :=
  match format.read s with
  | some (layout, e) => if layout = entryLayout then some e else none
  | none => none

/-- The entry kept under a key. -/
def get? (c : Cache) (format : EntryFormat) (t : FileTree) (key : Bytes) : Option Entry :=
  match t.read (c.pathOf key) with
  | .error _ => none
  | .ok s => decode format s

/-- Keeps an entry under a key. -/
def put (c : Cache) (format : EntryFormat) (t : FileTree) (key : Bytes) (e : Entry) : Except FileFault FileTree :=
  match t.makeDirs c.results with
  | (some f, _) => .error f
  | (none, t) => t.write (c.pathOf key) (encode format e)

/-- Forgets all results. -/
def clear (c : Cache) (t : FileTree) : FileTree :=
  t.remove c.results

/-- The names of the files with results, in order. -/
def names (c : Cache) (t : FileTree) : List String :=
  match t.locate c.results with
  | .error _ => []
  | .ok place => (t.children place).map (·.1)

/-- Writes a content over every file with a result, and tells how many there are. -/
def overwrite (c : Cache) (t : FileTree) (content : Bytes) : Nat × FileTree :=
  let names := (c.names t).filter (·.endsWith extension)
  (names.length, names.foldl (fun t n => (t.write (Path.join c.results n) content).toOption.getD t) t)

end Cache

end CallResolution
