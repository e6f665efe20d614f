import CallResolution.Command.Dump
import CallResolution.Command.Help
import CallResolution.Command.Invocation
import CallResolution.Command.Listing
import CallResolution.Files.Loading
import CallResolution.Settings.Discovery
import CallResolution.Trace.Tracer
import CallResolution.Version

/-!
# Executing command lines

A command line reads and writes files and prints text. Both are values here: execution takes
the files that there are and gives the files and texts that it leaves. What went wrong does
not undo what was done before.

Command lines, settings files, documents and the entries of the cache are taken apart by
libraries. These belong to the surroundings of a command, which have working ones where
nothing else is given.
-/

namespace CallResolution.Command

open Files Settings Source Text

/-! ## Faults -/

/-- Why a command failed. -/
inductive CommandFault where
  /-- The command line is wrong. -/
  | usage (f : UsageFault)
  /-- There is no configuration. -/
  | config (f : DiscoveryFault)
  /-- A flag has a value that the setting cannot have. -/
  | setting (f : ValueFault)
  /-- A flag is none of `auto`, `on` and `off`. -/
  | mode (flag value : String)
  /-- There is no such way to keep a trace. -/
  | traceMode (value : String)
  /-- The trace cannot be written. -/
  | trace (f : FileFault)
  /-- The arguments name no files. -/
  | named (f : NamedFault)
  /-- The cache cannot be opened. -/
  | cache (f : CacheFault)
  /-- The run has no result. -/
  | run (f : RunFault)
  /-- A file has no document. -/
  | document (text : String)
  /-- The metrics cannot be written. -/
  | metrics (path : String) (f : FileFault)
  /-- There is no such form of the version. -/
  | versionFormat (value : String)
  /-- Errors were reported. -/
  | errors
  deriving Repr, Inhabited

/-- What a fault says. -/
def CommandFault.message : CommandFault → String
  | .usage f => f.message
  | .config f => f.message
  | .setting f => "invalid flags: " ++ f.message
  | .mode flag value => s!"invalid --{flag} value {quote value} (expected auto|on|off)"
  | .traceMode value => "invalid trace mode: " ++ Trace.StorageMode.fault value
  | .trace f => "failed to create tracer: failed to open trace output: " ++ f.message
  | .named f => f.message
  | .cache f => "failed to open cache: " ++ f.message
  | .run f => f.message
  | .document text => text
  | .metrics path f => s!"failed to write metrics: write metrics {path}: {f.message}"
  | .versionFormat value => s!"unsupported format {quote value} (must be pretty or json)"
  | .errors => "resolution reported errors"

/-! ## What a command does -/

/-- What a command cannot know by itself, and the libraries that read its texts. -/
structure Surroundings where
  /-- The name of a new run. -/
  runId : String
  /-- How long the run took. -/
  elapsed : Duration := .zero
  /-- What makes the names of scratch files unique. -/
  scratch : String := ".tmp"
  /-- What a command line asks for. -/
  commandLine : List String → Except UsageFault Invocation := Invocation.ofArgs
  /-- The settings that the text of a settings file stands for. -/
  settings : String → Option Toml.Settings := Toml.Settings.ofText?
  /-- How documents are read and entries of the cache are written. -/
  formats : Formats := {}
  deriving Inhabited

/-- What a command leaves. -/
structure Output where
  /-- The files. -/
  tree : FileTree
  /-- What was printed. -/
  stdout : String := ""
  /-- What was printed for errors. -/
  stderr : String := ""
  /-- What was traced to the terminal. -/
  traced : String := ""
  /-- The last view of the progress of a run. -/
  view : String := ""
  deriving Repr, Inhabited

/-- Steps of a command. -/
abbrev CommandM := ExceptT CommandFault (StateM Output)

/-- Prints a text. -/
def print (s : String) : CommandM Unit :=
  modify fun o => { o with stdout := o.stdout ++ s }

/-- Prints a text for errors. -/
def printError (s : String) : CommandM Unit :=
  modify fun o => { o with stderr := o.stderr ++ s }

/-- Goes on with a value, or fails. -/
def orFail {ε α : Type} (wrap : ε → CommandFault) : Except ε α → CommandM α
  | .ok a => pure a
  | .error e => throw (wrap e)

/-- The files. -/
def getTree : CommandM FileTree :=
  return (← get).tree

/-- Sets the files. -/
def setTree (tree : FileTree) : CommandM Unit :=
  modify fun o => { o with tree }

/-! ## Configuration -/

/-- Lays the flags of a command line over a configuration. -/
def override (l : Line) (c : Config) : Config :=
  let text (name : String) (old : String) : String := if l.isGiven name then l.text name else old
  let truth (name : String) (old : Bool) : Bool := if l.isGiven name then l.truth name else old
  { c with
    resolve :=
      { source := text "source" c.resolve.source
        deprecation := truth "deprecation" c.resolve.deprecation
        pedantic := truth "pedantic" c.resolve.pedantic }
    run :=
      { jobs := if l.isGiven "jobs" then l.number "jobs" else c.run.jobs
        cacheDir := if l.truth "no-cache" then "" else text "cache" c.run.cacheDir
        metricsOut := text "metrics-out" c.run.metricsOut }
    output := { format := text "format" c.output.format, color := text "color" c.output.color }
    trace :=
      { level := text "trace-level" c.trace.level
        output := text "trace" c.trace.output
        format := text "trace-format" c.trace.format } }

/-- The configuration for a command line. -/
def configFor (s : Surroundings) (l : Line) : CommandM Config := do
  let t ← getTree
  let path := l.text "config"
  let found ←
    if path = "" then orFail .config (discover s.settings t t.workDir)
    else orFail (CommandFault.config ∘ DiscoveryFault.config) (load s.settings t path)
  let c := override l found
  match c.fault? with
  | some f => throw (.setting f)
  | none => return c

/-- Whether something is done always, never, or when it suits. -/
inductive Choice where
  /-- When it suits. -/
  | auto
  /-- Always. -/
  | on
  /-- Never. -/
  | off
  deriving DecidableEq, Repr, Inhabited

/-- Reads a choice. -/
def Choice.ofFlag (flag value : String) : CommandM Choice :=
  match normalWord value with
  | "" | "auto" => return .auto
  | "on" => return .on
  | "off" => return .off
  | _ => throw (.mode flag value)

/-! ## Traces -/

/-- A tracer and the file that it writes to; without one it writes to the terminal. -/
structure Tracing where
  /-- The tracer. -/
  tracer : Trace.Tracer := {}
  /-- The file. -/
  path? : Option String := none
  deriving Repr, Inhabited

/-- The tracer for a command line. -/
def tracingFor (l : Line) (c : Config) : CommandM Tracing := do
  let level := (Trace.Level.ofName? c.trace.level).getD .off
  if level = .off then return {}
  let value := l.text "trace-mode"
  let some mode := Trace.StorageMode.ofName? value | throw (.traceMode value)
  let path := c.trace.output
  let format := ((Trace.Format.ofName? c.trace.format).getD .auto).forPath path
  let tracer := Trace.Tracer.ofMode level mode (l.number "trace-ring-size") {} format
  if tracer.stream?.isNone || path = "" || path = "-" then return { tracer }
  setTree (← orFail .trace ((← getTree).write path []))
  return { tracer, path? := some path }

/-- Passes the events of a run to the tracer, and writes what it has written. -/
def Tracing.finish (t : Tracing) (events : List Trace.Event) : CommandM Tracing := do
  let tracer := t.tracer.emitAll events
  let text := (tracer.stream?.map (·.sink.text)).getD ""
  match t.path? with
  | none => modify fun o => { o with traced := o.traced ++ text }
  | some path => setTree (← orFail .trace ((← getTree).write path (bytesOf text)))
  return { t with tracer }

/-- Shows the newest events after a failure, when they are kept. -/
def Tracing.showLast (t : Tracing) : CommandM Unit := do
  match t.tracer.ring? with
  | none => return
  | some ring => printError ("trace: last events before failure:\n" ++ (ring.dump {} .text).2.text)

/-! ## Commands -/

/-- The plan of a run, with the cache opened. -/
def planFor (s : Surroundings) (c : Config) : CommandM RunPlan := do
  let plan : RunPlan := { options := c.options, jobs := c.run.jobs, runId := s.runId, formats := s.formats }
  if c.run.cacheDir = "" then return plan
  let (opened, tree) := Cache.openIn (← getTree) c.run.cacheDir
  setTree tree
  return { plan with cache? := some (← orFail .cache opened) }

/-- Runs over files and finishes the trace. -/
def runOver (plan : RunPlan) (paths : List String) (tracing : Tracing) :
    CommandM (Except RunFault RunResult × Metrics × Tracing) := do
  let (r, st) := (resolveFiles plan false paths).run { tree := ← getTree }
  setTree st.tree
  return (r, st.metrics, ← tracing.finish st.events)

/-- Writes the metrics into a scratch file that then takes the place of the file for them. -/
def writeMetrics (s : Surroundings) (path : String) (m : Metrics) : CommandM Unit := do
  let t ← getTree
  let fail (f : FileFault) : CommandM Unit := throw (.metrics path f)
  let name := Path.baseName path
  let dir := Path.directory path
  let scratch := (if dir = "/" then dir else dir ++ "/") ++ name ++ s.scratch
  let content := bytesOf m.text
  if name.contains '/' then fail { operation := "createtemp", path := name, cause := .slash }
  match t.write scratch content, t.find path, t.write path content with
  | .error f, _, _ => fail f
  | .ok _, .ok .directory, _ => fail { operation := "rename " ++ scratch, path, cause := .taken }
  | .ok _, _, .error f => fail { f with operation := "rename " ++ scratch }
  | .ok _, _, .ok t => setTree t

/-- Whether the progress of a run is shown, which only the form for people leaves room for. -/
def showsProgress (ui : Choice) (format : String) : Bool :=
  ui = .on && format ≠ "json" && format ≠ "short"

/-- The last view of the progress of a run. -/
def lastView (paths : List String) (r : RunResult) (summary : String) : String :=
  let board := Progress.Board.ofFiles "jopa resolve" paths (some summary)
  ((r.events.foldl (fun b e => (b.update (.event e)).1) board).update .finished).1.view

/-- Prints the results of a run. -/
def printResult (s : Surroundings) (l : Line) (format : String) (color : Choice) (ui : Choice) (paths : List String)
    (r : RunResult) : CommandM Unit := do
  let detail : Detail := { notes := l.truth "notes", fixes := l.truth "fixes" }
  match format with
  | "json" => print (document r detail)
  | "short" => print (short r detail)
  | _ =>
    print (pretty r detail (color = .on))
    let text := summary r s.elapsed
    if showsProgress ui format then modify fun o => { o with view := lastView paths r text }
    else print ("\n" ++ text ++ "\n")

/-- What a command has found out before it runs over the files. -/
structure Job where
  /-- The configuration. -/
  config : Settings.Config
  /-- Whether the progress is shown. -/
  ui : Choice
  /-- Whether colours are used. -/
  color : Choice
  /-- The tracer. -/
  tracing : Tracing
  /-- The files. -/
  paths : List String
  /-- The plan. -/
  plan : RunPlan
  deriving Inhabited

/-- Finds out what is to be done. -/
def prepare (s : Surroundings) (l : Line) : CommandM Job := do
  let config ← configFor s l
  let ui ← Choice.ofFlag "ui" (l.text "ui")
  let color ← Choice.ofFlag "color" config.output.color
  let tracing ← tracingFor l config
  let paths ← orFail .named (namedFiles (← getTree) l.args)
  let plan := { ← planFor s config with timings := l.truth "timings", limit := l.number "max-diagnostics" }
  return { config, ui, color, tracing, paths, plan }

/-- Shows what came of a run, and fails when there are errors. -/
def conclude (s : Surroundings) (l : Line) (job : Job) (outcome : Except RunFault RunResult) (metrics : Metrics)
    (tracing : Tracing) : CommandM Unit := do
  match outcome with
  | .error f =>
    tracing.showLast
    throw (.run f)
  | .ok r =>
    printResult s l job.config.output.format job.color job.ui job.paths r
    if job.config.run.metricsOut ≠ "" then writeMetrics s job.config.run.metricsOut metrics
    if r.hasErrors then
      tracing.showLast
      throw .errors

/-- Binds the calls of documents. -/
def resolve (s : Surroundings) (l : Line) : CommandM Unit := do
  let job ← prepare s l
  let (outcome, metrics, tracing) ← runOver job.plan job.paths job.tracing
  conclude s l job outcome metrics tracing

/-- Shows the classes of a document and what became of its calls. The cache is opened but not
used. -/
def dump (s : Surroundings) (l : Line) : CommandM Unit := do
  let c ← configFor s l
  let tracing ← tracingFor l c
  let plan := { ← planFor s c with cache? := none, jobs := 1 }
  let (outcome, _, _) ← runOver plan l.args tracing
  let r ← orFail .run outcome
  r.results.forM fun f =>
    match f.faultText? with
    | some text => throw (.document text)
    | none => print (dumpText f)

/-- Shows the version. Colours need a terminal. -/
def version (l : Line) : CommandM Unit := do
  let _ ← Choice.ofFlag "color" (l.text "color")
  let format := l.text "format"
  match String.ofList (format.toList.map lowerForWord) with
  | "json" => print Build.current.document
  | "pretty" => print (Build.current.banner false ++ "\n")
  | _ => throw (.versionFormat format)

/-- Does what a command line asks for. -/
def perform (s : Surroundings) : Invocation → CommandM Unit
  | .help topic? => print (helpText topic?)
  | .noTopic words => print (noTopicText words)
  | .version => print s!"{toolName} version {Build.current.version}\n"
  | .run .resolve l => resolve s l
  | .run .dump l => dump s l
  | .run .version l => version l
  | .run .help l => print (helpText (l.args.head?.bind Verb.ofName?))
  | .run .completion _ => print (helpText (some .completion))

/-- Executes a command line. -/
def execute (s : Surroundings) (tree : FileTree) (args : List String) : Option CommandFault × Output :=
  match s.commandLine args with
  | .error f => (some (.usage f), { tree })
  | .ok i =>
    match (perform s i).run { tree } with
    | (.ok _, o) => (none, o)
    | (.error f, o) => (some f, o)

end CallResolution.Command
