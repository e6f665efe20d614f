import CallResolution.Files.Loading
import CallResolution.Run.Cache
import CallResolution.Run.FileRun
import CallResolution.Run.Metrics
import CallResolution.Run.Progress
import CallResolution.Run.Timer
import CallResolution.Settings.Config

/-!
# Runs over files

A run loads its files one after another and then runs the document of each, or takes the
result from the cache. It changes the files of the cache and the metrics, and leaves a trace.
How documents are read and entries of the cache are written is the business of libraries, and
given with the plan of a run.
-/

namespace CallResolution

open Files Source Text

/-- How libraries read documents, and write and read entries of the cache. -/
structure Formats where
  /-- The document that the content of a file stands for. -/
  document : Bytes → Except DocumentFault Document := Document.ofContent
  /-- The format of entries. -/
  entry : EntryFormat := .working
  deriving Inhabited

/-- Reads and loads the document of a file. -/
def Formats.load (formats : Formats) (f : File) : Except DocumentFault Loaded :=
  (formats.document f.content).map (·.load f)

/-- What is asked of a run. -/
structure RunPlan where
  /-- The options where documents do not set their own. -/
  options : Options := {}
  /-- How many files are worked on at a time; blank in the account of the run when it is not
  positive. -/
  jobs : Int := 0
  /-- How many diagnostics of a file are kept; the default when it is not positive. -/
  limit : Int := 0
  /-- The cache, if one is used. -/
  cache? : Option Cache := none
  /-- Whether the times of every file are reported. -/
  timings : Bool := false
  /-- What the run is called. -/
  runId : String := ""
  /-- How documents are read and entries of the cache are written. -/
  formats : Formats := {}
  deriving Inhabited

/-- What came of a file. -/
structure FileResult where
  /-- The path. -/
  path : String
  /-- The number in the file set. -/
  file : FileId
  /-- How the sites ended. -/
  stats : Stats := {}
  /-- The reports on the sites. -/
  sites : List SiteReport := []
  /-- The diagnostics. -/
  bag : Bag
  /-- Whether the result came from the cache. -/
  cached : Bool := false
  /-- Why there is no document. -/
  fault? : Option DocumentFault := none
  /-- The document and its run, unless the result came from the cache. -/
  fresh? : Option (Loaded × FileRun) := none
  deriving Repr, Inhabited

/-- Whether the file has no document or an error. -/
def FileResult.hasErrors (r : FileResult) : Bool :=
  r.fault?.isSome || r.bag.hasErrors

/-- What is said of a file without a document. -/
def FileResult.faultText? (r : FileResult) : Option String :=
  r.fault?.map fun f => s!"parse {r.path}: {f.message}"

/-- What a run changes. -/
structure RunState where
  /-- The files, with those of the cache. -/
  tree : FileTree
  /-- What was counted. -/
  metrics : Metrics := {}
  /-- What happened, newest last. -/
  trace : Array Trace.Event := #[]
  deriving Repr, Inhabited

/-- Steps of a run. -/
abbrev RunM := StateM RunState

namespace RunM

/-- Notes events. -/
def note (es : List Trace.Event) : RunM Unit :=
  modify fun st => { st with trace := st.trace ++ es.toArray }

/-- Counts something. -/
def count (f : Metrics → Metrics) : RunM Unit :=
  modify fun st => { st with metrics := f st.metrics }

end RunM

open RunM

/-! ## One file -/

/-- The result that an entry of the cache stands for. -/
def restore (limit : Nat) (f : File) (e : Entry) : FileResult :=
  { path := f.path
    file := f.id
    stats := e.stats
    sites := e.sites
    bag := (e.diagnosticsIn f.id).foldl Bag.report { limit }
    cached := true }

/-- What is counted of an entry. -/
def countEntry (e : Entry) (m : Metrics) : Metrics :=
  ((e.diagnostics.foldl (fun m d => m.diagnostic d.code) m).accessor e.accessors).reports e.sites

/-- The report of the times of a file. -/
def timingDiagnostic (f : File) (timer : Timer) : Diagnostic :=
  let start : Span := ⟨f.id, 0, 0⟩
  { severity := .info
    code := .timings
    message := s!"timings (fixture): total {timer.total.millis} ms in {f.path}"
    primary := start
    notes := [{ span := start, message := timer.document f.path }] }

/-- The events after the program of a file was run. -/
def repeatEvents (filter : OnceFilter) : List Trace.Event :=
  if filter.suppressed = 0 then []
  else [{ kind := .point, scope := .driver, name := "dedup",
          detail := s!"{filter.suppressed} repeated diagnostics dropped" }]

/-- Keeps a result in the cache, if one is used. A result that cannot be kept is not missed.
-/
def store (p : RunPlan) (key : Bytes) (e : Entry) : RunM Unit := do
  match p.cache? with
  | none => return
  | some cache =>
    match cache.put p.formats.entry (← get).tree key e with
    | .ok tree => modify fun st => { st with tree }
    | .error f => note [{ kind := .point, scope := .driver, name := "cache", detail := "store failed: " ++ f.message }]

/-- The key of the result for a file. -/
def RunPlan.key (p : RunPlan) (f : File) : Bytes :=
  cacheKey (Digest.sha256 f.content) (Settings.fingerprint p.options)

/-- Runs the document of a file. -/
def runFresh (p : RunPlan) (f : File) (loaded : Loaded) : RunM FileResult := do
  let run := loaded.run p.options (diagnosticLimit p.limit)
  note (run.session.trace.toList ++ repeatEvents run.filter)
  let entry := Entry.ofResult run.stats run.sites run.bag.items run.accessors
  count fun m => ((run.filter.seen.reverse.foldl (fun m d => m.diagnostic d.code) m).accessor run.accessors).reports
    run.sites
  store p (p.key f) entry
  let timer := (({} : Timer).phase "load" "").phase "resolve" s!"{run.stats.sites} sites"
  return { path := f.path
           file := f.id
           stats := run.stats
           sites := run.sites
           bag := if p.timings then run.bag.force (timingDiagnostic f timer) else run.bag
           fresh? := some (loaded, run) }

/-- The result for a file, from the cache or from its document. -/
def resultFor (p : RunPlan) (f : File) : RunM FileResult := do
  let limit := diagnosticLimit p.limit
  let tree := (← get).tree
  match p.cache? >>= fun c => c.get? p.formats.entry tree (p.key f) with
  | some e =>
    count (countEntry e)
    return restore limit f e
  | none =>
    match p.formats.load f with
    | .error fault => return { path := f.path, file := f.id, bag := { limit }, fault? := some fault }
    | .ok loaded => runFresh p f loaded

/-- Works on a file. -/
def resolveFile (p : RunPlan) (f : File) : RunM FileResult := do
  let name := "file:" ++ f.path
  note [{ kind := .begin_, scope := .driver, name }]
  let r ← resultFor p f
  note [{ kind := .end_, scope := .driver, name,
          extra := [("cached", toString r.cached), ("sites", toString r.stats.sites)] }]
  count fun m => m.file 0
  return r

/-! ## All files -/

/-- Why a run has no result. -/
inductive RunFault where
  /-- A file could not be loaded. -/
  | load (f : LoadFault)
  /-- The run was called off. -/
  | cancelled
  deriving DecidableEq, Repr, Inhabited

/-- What a fault says. -/
def RunFault.message : RunFault → String
  | .load f => f.message
  | .cancelled => RequestFault.cancelled.message

/-- What came of a run. -/
structure RunResult where
  /-- What the run is called. -/
  runId : String
  /-- The files. -/
  files : FileSet
  /-- What came of them, in the order of the paths. -/
  results : List FileResult
  /-- The phases. -/
  timer : Timer
  /-- What an observer saw. -/
  events : List PhaseEvent
  deriving Repr, Inhabited

namespace RunResult

/-- Whether a file has errors. -/
def hasErrors (r : RunResult) : Bool :=
  r.results.any FileResult.hasErrors

/-- How the sites of all files ended. -/
def totals (r : RunResult) : Stats :=
  r.results.foldl (fun t f =>
    { sites := t.sites + f.stats.sites
      resolved := t.resolved + f.stats.resolved
      failed := t.failed + f.stats.failed
      deferred := t.deferred + f.stats.deferred }) {}

/-- How many files came from the cache. -/
def cachedCount (r : RunResult) : Nat :=
  r.results.countP (·.cached)

/-- How many files have no document. -/
def brokenCount (r : RunResult) : Nat :=
  r.results.countP (·.fault?.isSome)

/-- The diagnostics of all files. -/
def diagnostics (r : RunResult) : List Diagnostic :=
  r.results.flatMap (·.bag.items)

end RunResult

/-- What an observer sees of a file. -/
def fileEvents (path : String) (r : FileResult) : List PhaseEvent :=
  [{ name := "resolve", file := path },
   { name := "resolve", file := path, ended := true, cached := r.cached, errors := r.hasErrors }]

/-- What an observer sees of a run. -/
def runEvents (paths : List String) (rs : List FileResult) : List PhaseEvent :=
  [{ name := "load" }, { name := "load", ended := true }, { name := "resolve" }]
    ++ (List.zipWith fileEvents paths rs).flatten ++ [{ name := "resolve", ended := true }]

/-- Loads files and works on them, unless the run was called off by then. -/
def loadAndResolve (p : RunPlan) (cancelled : Bool) (paths : List String) : RunM (Except RunFault RunResult) := do
  let tree := (← get).tree
  match loadAll tree { workDir := tree.workDir } paths with
  | .error f => return .error (.load f)
  | .ok (loaded, files) =>
    if cancelled && !paths.isEmpty then return .error .cancelled
    let results ← loaded.mapM (resolveFile p)
    let jobs := if 0 < p.jobs then s!"{p.jobs} jobs" else ""
    return .ok {
      runId := p.runId
      files
      results
      timer := (({} : Timer).phase "load" s!"{paths.length} files").phase "resolve" jobs
      events := runEvents paths results }

/-- Runs over files. -/
def resolveFiles (p : RunPlan) (cancelled : Bool) (paths : List String) : RunM (Except RunFault RunResult) := do
  note [{ kind := .begin_, scope := .driver, name := "resolve" }]
  let r ← loadAndResolve p cancelled paths
  note [{ kind := .end_, scope := .driver, name := "resolve",
          extra := [("run", p.runId), ("files", toString paths.length)] }]
  return r

/-- The trace of a run with its numbers. -/
def RunState.events (st : RunState) : List Trace.Event :=
  Trace.renumber (Trace.numberSpans 0 [] st.trace.toList)

end CallResolution
