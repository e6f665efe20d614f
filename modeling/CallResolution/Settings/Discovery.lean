import CallResolution.Files.Tree
import CallResolution.Settings.Config

/-!
# Finding configurations

The settings file that counts for a directory is the nearest one at or above it. The search
does not leave the repository that the directory lies in.
-/

namespace CallResolution.Settings

open Files Source Text

/-- The name of settings files. -/
def configName : String := "jopa.toml"

/-- What a directory holds when it is the top of a repository. -/
def boundaryMarkers : List String := [".git", ".hg"]

/-- A search that could not go on. -/
structure SearchFault where
  /-- What could not be looked at. -/
  cause : FileFault
  deriving DecidableEq, Repr, Inhabited

/-- What a fault says. -/
def SearchFault.message (f : SearchFault) : String :=
  s!"failed to stat {quote f.cause.path}: {f.cause.message}"

/-- Whether there is anything at a path. -/
def exists? (t : FileTree) (p : String) : Except SearchFault Bool :=
  match t.stat p with
  | .ok _ => .ok true
  | .error f => if f.cause = .missing then .ok false else .error ⟨f⟩

/-- Whether one of some names exists in a directory. -/
def anyExists? (t : FileTree) (dir : String) : List String → Except SearchFault Bool
  | [] => .ok false
  | name :: names => do
    if ← exists? t (Path.join dir name) then return true
    anyExists? t dir names

/-- Searches a directory and those above it, at most a number of them. -/
def findFrom (t : FileTree) : Nat → String → Except SearchFault (Option String)
  | 0, _ => .ok none
  | n + 1, dir => do
    let candidate := Path.join dir configName
    if ← exists? t candidate then return some candidate
    if ← anyExists? t dir boundaryMarkers then return none
    findFrom t n (Path.directory dir)

/-- The settings file for a directory; a blank name is the working directory. -/
def findConfig (t : FileTree) (start : String) : Except SearchFault (Option String) :=
  let dir := Path.absolute t.workDir (if start = "" then "." else start)
  findFrom t ((Path.cleanComponents dir).length + 1) dir

/-- The directory of the settings file. -/
def findRoot (t : FileTree) (start : String) : Except SearchFault (Option String) := do
  return (← findConfig t start).map Path.directory

/-- Reads a settings file. -/
def load (read : String → Option Toml.Settings) (t : FileTree) (path : String) : Except ConfigFault Config :=
  match t.read path with
  | .error _ => .error (.unreadable path)
  | .ok content => Config.ofContent read path content

/-- Why no configuration was found. -/
inductive DiscoveryFault where
  /-- The search could not go on. -/
  | search (f : SearchFault)
  /-- The settings file is no good. -/
  | config (f : ConfigFault)
  deriving DecidableEq, Repr, Inhabited

/-- What a fault says. -/
def DiscoveryFault.message : DiscoveryFault → String
  | .search f => f.message
  | .config f => f.message

/-- The configuration for a directory, the defaults when there is no settings file. -/
def discover (read : String → Option Toml.Settings) (t : FileTree) (start : String) : Except DiscoveryFault Config :=
  match findConfig t start with
  | .error f => .error (.search f)
  | .ok none => .ok {}
  | .ok (some path) => (load read t path).mapError .config

end CallResolution.Settings
