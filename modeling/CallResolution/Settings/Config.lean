import CallResolution.Digest.Sha256
import CallResolution.Resolve.Options
import CallResolution.Text.CaseFold
import CallResolution.Toml.Table
import CallResolution.Trace.Event

/-!
# Configurations

What a settings file says about binding, running, output and traces. A file is laid over the
defaults, must not name anything that nothing reads, and the result is checked.
-/

namespace CallResolution.Settings

open Text

/-- How calls are bound. -/
structure ResolveSettings where
  /-- The language level. -/
  source : String := "1.5"
  /-- Whether the use of deprecated callables is reported. -/
  deprecation : Bool := true
  /-- Whether legal but confusing calls are reported. -/
  pedantic : Bool := false
  deriving DecidableEq, Repr, Inhabited

/-- How files are processed. -/
structure RunSettings where
  /-- How many files are processed at a time, 0 for as many as suit the machine. -/
  jobs : Int := 0
  /-- The directory of the result cache; blank for none. -/
  cacheDir : String := ""
  /-- The file that gets the metrics; blank for none. -/
  metricsOut : String := ""
  deriving DecidableEq, Repr, Inhabited

/-- How results are shown. -/
structure OutputSettings where
  /-- The form of the output. -/
  format : String := "pretty"
  /-- Whether colours are used. -/
  color : String := "auto"
  deriving DecidableEq, Repr, Inhabited

/-- What is traced. -/
structure TraceSettings where
  /-- The level. -/
  level : String := "off"
  /-- Where the trace goes. -/
  output : String := ""
  /-- The form of the trace. -/
  format : String := "text"
  deriving DecidableEq, Repr, Inhabited

/-- A configuration. -/
structure Config where
  /-- The file it was read from; blank for the defaults. -/
  path : String := ""
  /-- How calls are bound. -/
  resolve : ResolveSettings := {}
  /-- How files are processed. -/
  run : RunSettings := {}
  /-- How results are shown. -/
  output : OutputSettings := {}
  /-- What is traced. -/
  trace : TraceSettings := {}
  deriving DecidableEq, Repr, Inhabited

/-! ## Reading -/

/-- How a setting takes its value. -/
inductive Setting where
  /-- A text. -/
  | text (set : String → Config → Config)
  /-- A truth value. -/
  | flag (set : Bool → Config → Config)
  /-- A whole number. -/
  | number (set : Int → Config → Config)

/-- Applies a value of the right kind. -/
def Setting.apply? (s : Setting) (n : Toml.Node) (c : Config) : Option Config :=
  match s, n with
  | .text set, .scalar (.text v) => some (set v c)
  | .flag set, .scalar (.boolean v) => some (set v c)
  | .number set, .scalar (.integer v) => some (set v c)
  | _, _ => none

/-- The settings of every table. -/
def tables : List (String × List (String × Setting)) :=
  [("resolve",
    [("source", .text fun v c => { c with resolve := { c.resolve with source := v } }),
     ("deprecation", .flag fun v c => { c with resolve := { c.resolve with deprecation := v } }),
     ("pedantic", .flag fun v c => { c with resolve := { c.resolve with pedantic := v } })]),
   ("run",
    [("jobs", .number fun v c => { c with run := { c.run with jobs := v } }),
     ("cache_dir", .text fun v c => { c with run := { c.run with cacheDir := v } }),
     ("metrics_out", .text fun v c => { c with run := { c.run with metricsOut := v } })]),
   ("output",
    [("format", .text fun v c => { c with output := { c.output with format := v } }),
     ("color", .text fun v c => { c with output := { c.output with color := v } })]),
   ("trace",
    [("level", .text fun v c => { c with trace := { c.trace with level := v } }),
     ("output", .text fun v c => { c with trace := { c.trace with output := v } }),
     ("format", .text fun v c => { c with trace := { c.trace with format := v } })])]

/-- What stands under a name, or failing that under one that differs from it in case only. -/
def named? {α : Type} (names : List (String × α)) (k : String) : Option α :=
  names.lookup k <|> (names.find? fun n => foldCase n.1 = foldCase k).map (·.2)

/-- Applies the entries of a table, and gives the keys that were read. -/
def applyTable (settings : List (String × Setting)) (name : String) :
    Toml.Table → Config → Option (Config × List Toml.Key)
  | [], c => some (c, [])
  | (k, n) :: rest, c =>
    match named? settings k with
    | none => applyTable settings name rest c
    | some s => do
      let (c, keys) ← applyTable settings name rest (← s.apply? n c)
      some (c, [name, k] :: keys)

/-- Applies the tables of a settings file, and gives the keys that were read. -/
def applyTables : Toml.Table → Config → Option (Config × List Toml.Key)
  | [], c => some (c, [])
  | (k, n) :: rest, c =>
    match named? tables k with
    | none => applyTables rest c
    | some settings =>
      match n with
      | .table t => do
        let (c, inner) ← applyTable settings k t c
        let (c, keys) ← applyTables rest c
        some (c, [k] :: inner ++ keys)
      | _ => none

/-! ## Checking -/

/-- The forms of output. -/
def outputFormats : List String := ["pretty", "json", "short"]

/-- The ways to use colours. -/
def colorModes : List String := ["auto", "on", "off"]

/-- A setting with a value that it cannot have. -/
inductive ValueFault where
  /-- No such language level. -/
  | source (s : String)
  /-- A negative number of jobs. -/
  | jobs (n : Int)
  /-- No such form of output. -/
  | format (s : String)
  /-- No such way to use colours. -/
  | color (s : String)
  /-- No such level of traces. -/
  | traceLevel (s : String)
  /-- No such form of traces. -/
  | traceFormat (s : String)
  deriving DecidableEq, Repr, Inhabited

/-- What a fault says. -/
def ValueFault.message : ValueFault → String
  | .source s => "[resolve].source: " ++ SourceLevel.fault s
  | .jobs n => s!"[run].jobs must not be negative, got {n}"
  | .format s => "[output].format must be one of " ++ "|".intercalate outputFormats ++ ", got " ++ quote s
  | .color s => "[output].color must be one of " ++ "|".intercalate colorModes ++ ", got " ++ quote s
  | .traceLevel s => "[trace].level: " ++ Trace.Level.fault s
  | .traceFormat s => "[trace].format: " ++ Trace.Format.fault s

/-- Why there is no configuration. -/
inductive ConfigFault where
  /-- The file cannot be read, is not well formed, or has a value of the wrong kind. -/
  | unreadable (path : String)
  /-- The file names what nothing reads. -/
  | unknownKeys (path : String) (keys : List Toml.Key)
  /-- The language level is blank. -/
  | blankSource (path : String)
  /-- A setting of the file has a value that it cannot have. -/
  | invalid (path : String) (f : ValueFault)
  deriving DecidableEq, Repr, Inhabited

/-- What a fault says. -/
def ConfigFault.message : ConfigFault → String
  | .unreadable path => path ++ ": failed to parse TOML"
  | .unknownKeys path keys =>
    path ++ ": unknown configuration key: " ++ ", ".intercalate (keys.map Toml.shownKey)
  | .blankSource path => path ++ ": [resolve].source must not be empty"
  | .invalid path f => path ++ ": " ++ f.message

namespace Config

/-- The first setting with a value that it cannot have. -/
def fault? (c : Config) : Option ValueFault :=
  if (SourceLevel.ofName? c.resolve.source).isNone then some (.source c.resolve.source)
  else if c.run.jobs < 0 then some (.jobs c.run.jobs)
  else if c.output.format ∉ outputFormats then some (.format c.output.format)
  else if c.output.color ∉ colorModes then some (.color c.output.color)
  else if (Trace.Level.ofName? c.trace.level).isNone then some (.traceLevel c.trace.level)
  else if (Trace.Format.ofName? c.trace.format).isNone then some (.traceFormat c.trace.format)
  else none

/-- The configuration that a settings file lays over the defaults. -/
def ofSettings (path : String) (s : Toml.Settings) : Except ConfigFault Config :=
  match applyTables s.root {} with
  | none => .error (.unreadable path)
  | some (c, read) =>
    let unknown := s.keys.filter fun k => !read.contains k
    if !unknown.isEmpty then .error (.unknownKeys path unknown)
    else if s.defines "resolve" "source" && trimBlanks c.resolve.source = "" then .error (.blankSource path)
    else match c.fault? with
      | some f => .error (.invalid path f)
      | none => .ok { c with path }

/-- Reads a configuration from the content of a file, whose text a library takes apart. -/
def ofContent (read : String → Option Toml.Settings) (path : String) (content : Bytes) : Except ConfigFault Config :=
  match text? content >>= read with
  | none => .error (.unreadable path)
  | some s => ofSettings path s

/-- The options for binding calls. -/
def options (c : Config) : Options :=
  { source := (SourceLevel.ofName? c.resolve.source).getD .v15
    deprecation := c.resolve.deprecation
    pedantic := c.resolve.pedantic }

end Config

/-- What stands for options in the keys of the result cache: a digest of all that changes what
is found. -/
def fingerprint (o : Options) : Bytes :=
  Digest.sha256 (bytesOf s!"source={o.source.name};deprecation={o.deprecation};pedantic={o.pedantic}")

end CallResolution.Settings
