import CallResolution.Diagnostic.Code
import CallResolution.Diagnostic.Severity
import CallResolution.Source.Span

/-!
# Diagnostics

One finding about a call site or a document: a severity, a code, a message and the place it is
about, with notes that point at further places and fixes that would remove the cause.
-/

namespace CallResolution

open Source

/-- What a note is for. -/
inductive NoteKind where
  /-- A remark. -/
  | info
  /-- An overload that was weighed for the call. -/
  | candidate
  deriving DecidableEq, Repr, Inhabited

/-- The word printed in front of a note. -/
def NoteKind.label : NoteKind → String
  | .info => "note"
  | .candidate => "candidate"

/-- A secondary place with a message. -/
structure Note where
  /-- The place. -/
  span : Span
  /-- The message. -/
  message : String
  /-- What the note is for. -/
  kind : NoteKind := .info
  deriving DecidableEq, Repr, Inhabited

/-- The replacement of a span by a text. -/
structure Edit where
  /-- What is replaced. -/
  span : Span
  /-- What it is replaced by. -/
  newText : String
  deriving DecidableEq, Repr, Inhabited

/-- A suggested change. -/
structure Fix where
  /-- What the change does. -/
  title : String
  /-- The edits it consists of. -/
  edits : List Edit
  deriving DecidableEq, Repr, Inhabited

/-- One finding. -/
structure Diagnostic where
  /-- How important it is. -/
  severity : Severity
  /-- The kind of finding. -/
  code : Code
  /-- The message. -/
  message : String
  /-- The place it is about. -/
  primary : Span
  /-- Further places. -/
  notes : List Note := []
  /-- Suggested changes. -/
  fixes : List Fix := []
  deriving DecidableEq, Repr, Inhabited

namespace Diagnostic

/-- An error without notes. -/
def error (code : Code) (primary : Span) (message : String) : Diagnostic :=
  { severity := .error, code, message, primary }

/-- A warning without notes. -/
def warning (code : Code) (primary : Span) (message : String) : Diagnostic :=
  { severity := .warning, code, message, primary }

/-- Adds a remark. -/
def withNote (d : Diagnostic) (span : Span) (message : String) : Diagnostic :=
  { d with notes := d.notes ++ [{ span, message }] }

/-- Points at the declaration of an overload. An overload without a place, such as a
predefined one, adds nothing. -/
def withCandidate (d : Diagnostic) (decl : Span) (header : String) : Diagnostic :=
  if decl.isEmpty then d
  else { d with notes := d.notes ++ [{ span := decl, message := header, kind := .candidate }] }

/-- Suggests a change. -/
def withFix (d : Diagnostic) (title : String) (edits : List Edit) : Diagnostic :=
  { d with fixes := d.fixes ++ [{ title, edits }] }

/-- The headers of the overloads a diagnostic points at. -/
def candidates (d : Diagnostic) : List String :=
  (d.notes.filter (·.kind = .candidate)).map (·.message)

end Diagnostic

end CallResolution
