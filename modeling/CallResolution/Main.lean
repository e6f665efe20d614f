import CallResolution.Command.Execute

/-!
# The command line

The files that a command line can reach are read, the command line is executed on them, and
what it changed is written back: the working directory with everything below it, the settings
files above it, and what the arguments name.
-/

namespace CallResolution.Command

open Files Settings Source Text

/-- The name of a run, made of sixteen random bytes. -/
def runName (random : Bytes) : String :=
  let fixed := random.mapIdx fun i b =>
    if i = 6 then b &&& 0x0f ||| 0x40 else if i = 8 then b &&& 0x3f ||| 0x80 else b
  let part (start count : Nat) : String := hexOf ((fixed.drop start).take count)
  "-".intercalate [part 0 4, part 4 2, part 6 2, part 8 2, part 10 6]

/-- Adds a directory to a tree, with those above it. -/
def withDirectory (t : FileTree) (path : String) : FileTree :=
  (t.makeDirs path).2

/-- Adds what stands at a path, with everything below it. The directories that mark the top of
a repository are not entered. -/
partial def readBelow (t : FileTree) (path : String) : IO FileTree := do
  let here := (← IO.currentDir) / path
  if ← here.isDir then
    let t := withDirectory t path
    if boundaryMarkers.contains (Path.baseName path) then return t
    (← here.readDir).foldlM (fun t e => readBelow t (Path.join path e.fileName)) t
  else if ← here.pathExists then
    let content ← IO.FS.readBinFile here
    let t := withDirectory t (Path.directory path)
    return (t.write path content.toList).toOption.getD t
  else return t

/-- Adds what a search for settings looks at in a directory and those above it. -/
def readAbove (t : FileTree) (dir : String) : IO FileTree :=
  let tops := (List.range ((Path.cleanComponents dir).length + 1)).map fun n =>
    "/" ++ "/".intercalate ((Path.cleanComponents dir).take n)
  tops.foldlM (fun t top => (configName :: boundaryMarkers).foldlM (fun t name => readBelow t (Path.join top name)) t) t

/-- Adds what an argument may name: a path, or a flag with a path behind an equals sign. -/
def readNamed (t : FileTree) (arg : String) : IO FileTree :=
  (arg.splitOn "=").foldlM (fun t word => do
    if word = "" || word.startsWith "-" then return t
    let dir := Path.directory word
    let t := if ← ((← IO.currentDir) / dir).isDir then withDirectory t dir else t
    readBelow t word) t

/-- The files that a command line can reach. -/
def readTree (args : List String) : IO FileTree := do
  let workDir := (← IO.currentDir).toString
  let t ← readBelow { workDir } workDir
  args.foldlM readNamed (← readAbove t workDir)

/-- Writes back what was changed. -/
def writeTree (before after : FileTree) : IO Unit := do
  let pathOf (place : List String) : String := "/" ++ "/".intercalate place
  for (place, _) in before.entries do
    if (after.entryAt? place).isNone then IO.FS.removeFile (pathOf place)
  for (place, entry) in after.entries do
    if before.entryAt? place ≠ some entry then
      match entry with
      | .directory => IO.FS.createDirAll (pathOf place)
      | .file content =>
        IO.FS.createDirAll (pathOf place.dropLast)
        IO.FS.writeBinFile (pathOf place) ⟨content.toArray⟩

/-- Executes a command line on the files that there are. The exit code tells whether it
failed. -/
def runIn (args : List String) : IO UInt32 := do
  let before ← readTree args
  let runId := runName (← IO.getRandomBytes 16).toList
  let start ← IO.monoNanosNow
  let (_, trial) := execute { runId } before args
  let printed := trial.stdout.length
  let stop ← IO.monoNanosNow
  let elapsed : Duration := if printed = 0 then .zero else ⟨stop - start⟩
  let (fault?, out) := execute { runId, elapsed } before args
  writeTree before out.tree
  IO.print (out.view ++ out.stdout)
  IO.eprint (out.traced ++ out.stderr)
  match fault? with
  | none => return 0
  | some .errors => return 1
  | some f =>
    IO.eprintln (toolName ++ ": " ++ f.message)
    return 1

end CallResolution.Command

/-- Runs the tool on the arguments of the process. -/
def main (args : List String) : IO UInt32 :=
  CallResolution.Command.runIn args
