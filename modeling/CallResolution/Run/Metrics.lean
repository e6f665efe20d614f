import CallResolution.Assoc
import CallResolution.Diagnostic.Code
import CallResolution.Resolve.Report
import CallResolution.Text.Shortest
import CallResolution.Text.Words

/-!
# Metrics

What a run counts: call sites by how they ended, bound sites by the phase that bound them,
diagnostics by code, accessors, and the files with the time each took. The counts are written
as the text that monitoring reads: per metric a line that explains it, a line with its kind,
and a line per value.
-/

namespace CallResolution

open Text

/-- A count for every label. -/
abbrev Counts := List (String × Nat)

/-- Counts one more under a label. -/
def Counts.add (c : Counts) (label : String) : Counts :=
  Assoc.put label ((c.lookup label).getD 0 + 1) c

/-- The counts in the order of their labels. -/
def Counts.sorted (c : Counts) : Counts :=
  c.mergeSort fun a b => !textLt b.1 a.1

/-- What was counted. -/
structure Metrics where
  /-- Call sites by how they ended. -/
  sites : Counts := []
  /-- Bound call sites by phase. -/
  phases : Counts := []
  /-- Diagnostics by code. -/
  diagnostics : Counts := []
  /-- How many accessors were made, as a word of 64 bits. -/
  accessors : Nat := 0
  /-- The time of every file, in nanoseconds. -/
  files : List Int := []
  deriving Repr, Inhabited

namespace Metrics

/-- Counts a call site; the phase of one that is not bound is blank. -/
def site (m : Metrics) (outcome phase : String) : Metrics :=
  { m with
    sites := m.sites.add outcome
    phases := if phase = "" then m.phases else m.phases.add phase }

/-- Counts the call sites of reports. -/
def reports (m : Metrics) (rs : List SiteReport) : Metrics :=
  rs.foldl (fun m r => m.site r.state (if r.state = ResolutionState.resolved.name then r.phase else "")) m

/-- Counts a diagnostic. -/
def diagnostic (m : Metrics) (code : Code) : Metrics :=
  { m with diagnostics := m.diagnostics.add code.id }

/-- A whole number with 53 significant bits, the form in which numbers are added and shown. -/
def kept (n : Nat) : Nat :=
  let b := Binary.ofQuotient n 1
  if 0 ≤ b.exponent then b.significand * Nat.pow 2 b.exponent.toNat
  else b.significand / Nat.pow 2 (-b.exponent).toNat

/-- Counts accessors; a number that is not positive counts nothing. -/
def accessor (m : Metrics) (n : Int) : Metrics :=
  if n ≤ 0 then m else { m with accessors := (m.accessors + kept n.toNat) % 0x10000000000000000 }

/-- Counts a file and its time in nanoseconds. -/
def file (m : Metrics) (nanos : Int) : Metrics :=
  { m with files := m.files ++ [nanos] }

/-! ## Samples -/

/-- The value of a metric, or how many values were observed. -/
inductive Measure where
  /-- A value. -/
  | value (n : Nat)
  /-- A number of observations. -/
  | count (n : Nat)
  deriving DecidableEq, Repr, Inhabited

/-- One value of a metric. -/
structure Sample where
  /-- The name of the metric. -/
  name : String
  /-- The label and its value, if there is one. -/
  label? : Option (String × String) := none
  /-- The value. -/
  measure : Measure
  deriving DecidableEq, Repr, Inhabited

/-- The name of the metric for accessors. -/
def accessorsName : String := "jopa_accessors_total"

/-- The name of the metric for call sites. -/
def sitesName : String := "jopa_call_sites_total"

/-- The name of the metric for diagnostics. -/
def diagnosticsName : String := "jopa_diagnostics_total"

/-- The name of the metric for files. -/
def filesName : String := "jopa_fixture_seconds"

/-- The name of the metric for phases. -/
def phasesName : String := "jopa_phase_total"

/-- The samples of a metric with a label. -/
def samplesOf (name label : String) (c : Counts) : List Sample :=
  c.sorted.map fun (v, n) => { name, label? := some (label, v), measure := .value n }

/-- All samples, by name and label. -/
def samples (m : Metrics) : List Sample :=
  { name := accessorsName, measure := .value (kept m.accessors) }
    :: samplesOf sitesName "outcome" m.sites
    ++ samplesOf diagnosticsName "code" m.diagnostics
    ++ { name := filesName, measure := .count m.files.length }
    :: samplesOf phasesName "phase" m.phases

/-! ## The text form -/

/-- A label value between quotes. -/
def labelText (s : String) : String :=
  "\"" ++ replaceChar '"' "\\\"" (replaceChar '\n' "\\n" (replaceChar '\\' "\\\\" s)) ++ "\""

/-- The lines above the values of a metric. -/
def headLines (name help kind : String) : List String :=
  [s!"# HELP {name} {help}", s!"# TYPE {name} {kind}"]

/-- The lines of a metric with a label; there are none when nothing was counted. -/
def labelledLines (name help label : String) (c : Counts) : List String :=
  if c.isEmpty then []
  else headLines name help "counter" ++ c.sorted.map fun (v, n) =>
    name ++ "\x7b" ++ label ++ "=" ++ labelText v ++ "\x7d " ++ quotientText n 1

/-- The bounds of the classes of times, in nanoseconds and as text in seconds. -/
def timeBounds : List (Int × String) :=
  [(1000000, "0.001"), (5000000, "0.005"), (10000000, "0.01"), (50000000, "0.05"), (100000000, "0.1"),
   (500000000, "0.5"), (1000000000, "1"), (5000000000, "5")]

/-- The lines of the times of files. -/
def fileLines (m : Metrics) : List String :=
  let bucket (le : String) (n : Nat) : String := filesName ++ "_bucket\x7ble=\"" ++ le ++ "\"\x7d " ++ quotientText n 1
  let total := m.files.foldl (· + ·) 0
  headLines filesName "Wall time spent loading and resolving one fixture file" "histogram"
    ++ (timeBounds.map fun (bound, le) => bucket le (m.files.countP (· ≤ bound)))
    ++ [bucket "+Inf" m.files.length,
        filesName ++ "_sum " ++ (if total < 0 then "-" else "") ++ quotientText total.natAbs 1000000000,
        filesName ++ "_count " ++ toString m.files.length]

/-- The counts as text. -/
def text (m : Metrics) : String :=
  String.join ((headLines accessorsName "Accessor methods synthesized for private and protected members" "counter"
    ++ [accessorsName ++ " " ++ quotientText m.accessors 1]
    ++ labelledLines sitesName "Call sites processed, by final state" "outcome" m.sites
    ++ labelledLines diagnosticsName "Diagnostics reported, by code" "code" m.diagnostics
    ++ m.fileLines
    ++ labelledLines phasesName "Resolved call sites, by the applicability phase that bound them" "phase" m.phases).map
      (· ++ "\n"))

end Metrics

end CallResolution
