import CallResolution.Text.Words

/-!
# Severities

How important a diagnostic is. Severities are ordered by rank; the three with a name are the
only ones this library reports, and a collection may hold others.
-/

namespace CallResolution

open Text

/-- The importance of a diagnostic, by rank. -/
structure Severity where
  /-- Higher ranks are worse. -/
  rank : UInt8
  deriving DecidableEq, Repr, Inhabited

namespace Severity

/-- Something worth knowing. -/
def info : Severity := ⟨0⟩

/-- Something suspicious. -/
def warning : Severity := ⟨1⟩

/-- Something wrong. -/
def error : Severity := ⟨2⟩

/-- The name in capitals. -/
def name (s : Severity) : String :=
  if s = info then "INFO" else if s = warning then "WARNING" else if s = error then "ERROR"
  else "UNKNOWN"

/-- The word used in line-oriented output. -/
def label (s : Severity) : String :=
  if s = error then "error" else if s = warning then "warning" else "info"

/-- Reads a severity from its name or label in any case. -/
def ofName? (s : String) : Option Severity :=
  match normalWord s with
  | "info" => some info
  | "warning" | "warn" => some warning
  | "error" => some error
  | _ => none

/-- Whether this severity is that of an error or worse. -/
def isError (s : Severity) : Bool :=
  error.rank ≤ s.rank

end Severity

end CallResolution
