import CallResolution.Command.Flag
import CallResolution.Run.FileRun
import CallResolution.Text.Words

/-!
# Invocations

The tool has a few commands, each with flags of its own besides those that all share. The
first argument that belongs to no flag names the command.
-/

namespace CallResolution.Command

open Text

/-- What the tool can be asked to do. -/
inductive Verb where
  /-- Bind the calls of documents. -/
  | resolve
  /-- Show the classes of a document and what became of its calls. -/
  | dump
  /-- Show the version. -/
  | version
  /-- Explain a command. -/
  | help
  /-- Help a shell to complete command lines. -/
  | completion
  deriving DecidableEq, Repr, Inhabited

namespace Verb

/-- The commands. -/
def all : List Verb := [.resolve, .dump, .version, .help, .completion]

/-- The name of a command. -/
def name : Verb → String
  | .resolve => "resolve"
  | .dump => "dump"
  | .version => "version"
  | .help => "help"
  | .completion => "completion"

/-- The command with a name. -/
def ofName? (s : String) : Option Verb :=
  all.find? (·.name = s)

end Verb

/-- The name of the tool. -/
def toolName : String := "jopa"

/-- The flags of all commands. -/
def sharedFlags : List Flag :=
  [{ name := "config", default := .text "", about := "path to jopa.toml (default: discovered from the working directory)" },
   { name := "source", default := .text "", about := "source level (1.3 .. 1.8)" },
   { name := "deprecation", default := .truth false, about := "warn on calls to deprecated methods" },
   { name := "pedantic", default := .truth false, about := "enable pedantic warnings" },
   { name := "jobs", default := .number 0, about := "max parallel fixture files (0=auto)" },
   { name := "cache", default := .text "", about := "result cache directory" },
   { name := "no-cache", default := .truth false, about := "disable the result cache" },
   { name := "metrics-out", default := .text "", about := "write Prometheus metrics to this text file" },
   { name := "color", default := .text "auto", about := "colorize output (auto|on|off)" },
   { name := "trace", default := .text "", about := "trace output file (- for stderr)" },
   { name := "trace-level", default := .text "off", about := "trace level (off|error|phase|detail|debug)" },
   { name := "trace-mode", default := .text "stream", about := "trace storage (stream|ring|both)" },
   { name := "trace-format", default := .text "auto", about := "trace format (auto|text|ndjson)" },
   { name := "trace-ring-size", default := .number 0, about := "ring buffer capacity in events" },
   { name := "trace-otel", default := .truth false, about := "also forward spans to the global OpenTelemetry tracer" }]

/-- The flag that asks for an explanation. -/
def helpFlag (command : String) : Flag :=
  { name := "help", default := .truth false, letter? := some 'h', about := "help for " ++ command }

/-- The flag that asks for the version, where no command is named. -/
def versionFlag : Flag :=
  { name := "version", default := .truth false, letter? := some 'v', about := "version for " ++ toolName }

/-- The flags of a command besides the shared ones. -/
def Verb.ownFlags : Verb → List Flag
  | .resolve =>
    [{ name := "format", default := .text "pretty", about := "output format (pretty|json|short)" },
     { name := "ui", default := .text "auto", about := "live progress view (auto|on|off)" },
     { name := "timings", default := .truth false, about := "append a timing diagnostic per fixture" },
     { name := "notes", default := .truth false, about := "show diagnostic notes" },
     { name := "fixes", default := .truth false, about := "show suggested fixes with previews" },
     { name := "max-diagnostics", default := .number defaultDiagnosticLimit, about := "maximum diagnostics kept per fixture" }]
  | .version => [{ name := "format", default := .text "pretty", about := "output format (pretty|json)" }]
  | .dump | .help | .completion => []

/-! ## Finding the command -/

/-- Whether the argument after one is taken to be its value, as far as the shared flags tell.
-/
def takesNext (arg : String) : Bool :=
  !arg.contains '=' &&
    (if arg.startsWith "--" then
      !(sharedFlags.any fun f => f.name = (arg.drop 2).toString && f.default.isTruth)
     else arg.startsWith "-" && arg.utf8ByteSize = 2)

/-- The arguments that belong to no flag. A flag at the end that takes a value ends the
search. -/
def plainWords : List String → List String
  | [] => []
  | "--" :: _ => []
  | arg :: rest =>
    if takesNext arg then
      match rest with
      | _ :: next :: more => plainWords (next :: more)
      | _ => []
    else if arg ≠ "" && !arg.startsWith "-" then arg :: plainWords rest
    else plainWords rest

/-- Removes the first argument that is a word and belongs to no flag. -/
def removeWord (word : String) : List String → List String
  | [] => []
  | "--" :: rest => "--" :: rest
  | arg :: rest =>
    if takesNext arg then
      match rest with
      | value :: more => arg :: value :: removeWord word more
      | [] => [arg]
    else if arg = word then rest
    else arg :: removeWord word rest

/-! ## Suggestions -/

/-- The next row of the table of distances, from the row above it: `above` starts left of the
first entry, and `left` is the entry to the left. -/
def nextRow (x : UInt8) : Nat → List Nat → Bytes → List Nat
  | left, corner :: above :: row, y :: ys =>
    let cell := min (min (left + 1) (above + 1)) (corner + if x = y then 0 else 1)
    cell :: nextRow x cell (above :: row) ys
  | _, _, _ => []

/-- How many bytes must be added, removed or changed to turn one text into another. -/
def distance (a b : Bytes) : Nat :=
  let rows := a.foldl (fun row x => (row.headD 0 + 1) :: nextRow x (row.headD 0 + 1) row b) (List.range (b.length + 1))
  rows.getLastD 0

/-- The commands that a mistyped name may mean. -/
def suggestions (typed : String) : List String :=
  let low (s : String) : String := String.ofList (s.toList.map lowerForBytes)
  ([Verb.resolve, .dump, .version, .completion].map Verb.name).filter fun name =>
    distance (bytesOf (low typed)) (bytesOf (low name)) ≤ 2 || (low name).startsWith (low typed)

/-! ## Reading a command line -/

/-- What is wrong with a command line. -/
inductive UsageFault where
  /-- There is no such command. -/
  | command (name : String)
  /-- A flag is wrong. -/
  | flag (f : FlagFault)
  /-- There are too few arguments. -/
  | tooFew (least given : Nat)
  /-- There are too few or too many arguments. -/
  | notExactly (wanted given : Nat)
  deriving DecidableEq, Repr, Inhabited

/-- What a fault says. -/
def UsageFault.message : UsageFault → String
  | .command name =>
    let meant := suggestions name
    s!"unknown command {quote name} for {quote toolName}"
      ++ (if meant.isEmpty then "" else "\n\nDid you mean this?\n" ++ String.join (meant.map fun s => "\t" ++ s ++ "\n"))
  | .flag f => f.message
  | .tooFew least given => s!"requires at least {least} arg(s), only received {given}"
  | .notExactly wanted given => s!"accepts {wanted} arg(s), received {given}"

/-- What the tool is asked to do. -/
inductive Invocation where
  /-- Run a command. -/
  | run (verb : Verb) (line : Line)
  /-- Show the version. -/
  | version
  /-- Explain the tool, or one of its commands. -/
  | help (topic? : Option Verb)
  /-- Explain something that is no command. -/
  | noTopic (words : List String)
  deriving Repr, Inhabited

/-- Checks the number of arguments of a command. -/
def Verb.checkArgs (v : Verb) (args : List String) : Except UsageFault Unit :=
  match v with
  | .resolve => if args.isEmpty then .error (.tooFew 1 0) else .ok ()
  | .dump => if args.length ≠ 1 then .error (.notExactly 1 args.length) else .ok ()
  | .version | .help | .completion => .ok ()

/-- The explanation that words ask for. -/
def Invocation.helpOn (words : List String) : Invocation :=
  match plainWords words with
  | [] => .help none
  | word :: _ =>
    match Verb.ofName? word with
    | some v => .help (some v)
    | none => .noTopic words

/-- All flags of a command. -/
def Verb.flags (v : Verb) : List Flag :=
  helpFlag v.name :: v.ownFlags ++ sharedFlags

/-- Reads the arguments of a command. -/
def Verb.invocation (v : Verb) (args : List String) : Except UsageFault Invocation :=
  match ({ flags := v.flags } : Line).take args with
  | .error f => .error (.flag f)
  | .ok line =>
    if line.truth "help" || v = .completion then .ok (.help (some v))
    else if v = .help then .ok (.helpOn line.args)
    else (v.checkArgs line.args).map fun _ => .run v line

/-- The flags that need no command. -/
def plainFlags : List Flag :=
  helpFlag toolName :: versionFlag :: sharedFlags

/-- Reads arguments without a command. -/
def plainInvocation (args : List String) : Except UsageFault Invocation :=
  match ({ flags := plainFlags } : Line).take args with
  | .error f => .error (.flag f)
  | .ok line => .ok (if line.truth "help" then .help none else if line.truth "version" then .version else .help none)

/-- Reads a command line. -/
def Invocation.ofArgs (args : List String) : Except UsageFault Invocation :=
  match plainWords args with
  | [] => plainInvocation args
  | word :: _ =>
    match Verb.ofName? word with
    | some v => v.invocation (removeWord word args)
    | none => .error (.command word)

end CallResolution.Command
