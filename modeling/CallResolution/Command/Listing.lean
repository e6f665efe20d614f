import CallResolution.Diagnostic.Document
import CallResolution.Diagnostic.Excerpt
import CallResolution.Diagnostic.Golden
import CallResolution.Run.Result

/-!
# Results of a run as text

Results are shown in three forms: for people, with excerpts of the files; one line per fact;
and as a document.
-/

namespace CallResolution.Command

open Source Text

/-- What is shown of diagnostics. -/
structure Detail where
  /-- Whether notes are shown. -/
  notes : Bool := false
  /-- Whether fixes are shown. -/
  fixes : Bool := false
  deriving Repr, Inhabited

/-- The line for a file without a document. -/
def faultLine (f : FileResult) (fault : String) : String :=
  s!"{f.path}: error: {fault}\n"

/-- A file in the form for people. -/
def prettyFile (fs : FileSet) (o : ExcerptOptions) (f : FileResult) : String :=
  s!"== {f.path}" ++ (if f.cached then " (cached)" else "") ++ "\n"
    ++ match f.faultText? with
      | some fault => faultLine f fault
      | none =>
        String.join (f.sites.map fun s => "  " ++ s.line ++ "\n")
          ++ (if f.bag.items.isEmpty then "" else "\n" ++ f.bag.excerpts fs o)

/-- Results in the form for people. -/
def pretty (r : RunResult) (d : Detail) (color : Bool) : String :=
  let o : ExcerptOptions := { color, context := 1, notes := d.notes, fixes := d.fixes, preview := d.fixes }
  "\n".intercalate (r.results.map (prettyFile r.files o))

/-- Results with a line for every fact. -/
def short (r : RunResult) (d : Detail) : String :=
  String.join (r.results.map fun f =>
    match f.faultText? with
    | some fault => faultLine f fault
    | none =>
      String.join (f.sites.map fun s => s!"{f.path}: {s.line}\n") ++ f.bag.listing r.files .auto d.notes)

/-- How sites ended, in a document. -/
def statsValue (s : Stats) : JsonValue :=
  .object [("sites", .int s.sites), ("resolved", .int s.resolved), ("failed", .int s.failed),
    ("deferred", .int s.deferred)]

/-- A file in a document. -/
def fileValue (fs : FileSet) (o : DocumentOptions) (f : FileResult) : JsonValue :=
  .object ([("path", .text f.path)]
    ++ (if f.cached then [("cached", .bool true)] else [])
    ++ (f.faultText?.elim [] fun fault => [("error", .text fault)])
    ++ [("stats", statsValue f.stats), ("sites", .list (f.sites.map fun s => .object s.fields)),
        ("diagnostics", f.bag.document fs o)])

/-- Results as a document. -/
def document (r : RunResult) (d : Detail) : String :=
  let o : DocumentOptions := { positions := true, notes := d.notes, fixes := d.fixes, previews := d.fixes }
  (JsonValue.object [("run_id", .text r.runId), ("totals", statsValue r.totals),
    ("files", .list (r.results.map (fileValue r.files o)))]).indented 0 ++ "\n"

/-- The totals of a run, one fact per line. -/
def summary (r : RunResult) (elapsed : Duration) : String :=
  let t := r.totals
  let count (s : Severity) : Nat := r.diagnostics.countP (·.severity = s)
  "\n".intercalate
    [s!"{r.results.length} files ({r.cachedCount} cached, {r.brokenCount} broken) in {elapsed.short}",
     s!"{t.sites} sites: {t.resolved} resolved, {t.failed} failed, {t.deferred} deferred",
     s!"diagnostics: {count .error} errors, {count .warning} warnings",
     "run " ++ r.runId]

end CallResolution.Command
