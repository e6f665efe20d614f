import CallResolution.Diagnostic.Bag
import CallResolution.Diagnostic.Preview
import CallResolution.Text.JsonText

/-!
# Diagnostics as a JSON document

The diagnostics of a bag as one object, with positions, notes, fixes and previews on request.
-/

namespace CallResolution

open Source Text

/-- What the document holds. -/
structure DocumentOptions where
  /-- Whether places have lines and columns. -/
  positions : Bool := false
  /-- How paths are shown. -/
  pathMode : PathMode := .auto
  /-- The greatest number of diagnostics, 0 for all. -/
  max : Int := 0
  /-- Whether notes are included. -/
  notes : Bool := false
  /-- Whether fixes are included. -/
  fixes : Bool := false
  /-- Whether fixes have previews. -/
  previews : Bool := false
  deriving Repr, Inhabited

/-- A place in the document. Numbers that are 0 are left out of the positions. -/
def locationValue (fs : FileSet) (o : DocumentOptions) (s : Span) : JsonValue :=
  let path := (fs.get? s.file).elim "" (fs.shownPath · o.pathMode)
  let positions :=
    match if o.positions then fs.positionsOf? s else none with
    | none => []
    | some (a, b) =>
      ([("start_line", a.line), ("start_col", a.col), ("end_line", b.line), ("end_col", b.col)].filter
        (·.2 ≠ 0)).map fun (k, n) => (k, JsonValue.int n.toNat)
  .object (("file", .text path) :: ("start_byte", .int s.start.toNat) :: ("end_byte", .int s.stop.toNat)
    :: positions)

/-- A member that is left out when its list is empty. -/
def listMember (name : String) (items : List JsonValue) : List (String × JsonValue) :=
  if items.isEmpty then [] else [(name, .list items)]

/-- An edit in the document. -/
def Edit.value (fs : FileSet) (o : DocumentOptions) (e : Edit) : JsonValue :=
  let preview :=
    match if o.previews then editPreview? fs e else none with
    | none => []
    | some p =>
      listMember "before_lines" (p.before.map .bytes) ++ listMember "after_lines" (p.after.map .bytes)
  .object (("location", locationValue fs o e.span) :: ("new_text", .text e.newText) :: preview)

/-- A fix in the document. -/
def Fix.value (fs : FileSet) (o : DocumentOptions) (fx : Fix) : JsonValue :=
  .object (("title", .text fx.title) :: listMember "edits" (fx.edits.map (·.value fs o)))

/-- A note in the document. -/
def Note.value (fs : FileSet) (o : DocumentOptions) (n : Note) : JsonValue :=
  .object [("kind", .text n.kind.label), ("message", .text n.message),
    ("location", locationValue fs o n.span)]

/-- A diagnostic in the document. Notes of timings are always included. -/
def Diagnostic.value (fs : FileSet) (o : DocumentOptions) (d : Diagnostic) : JsonValue :=
  .object
    ([("severity", .text d.severity.name), ("code", .text d.code.id), ("title", .text d.code.title),
      ("message", .text d.message), ("location", locationValue fs o d.primary)]
      ++ listMember "notes" (if o.notes || d.code = .timings then d.notes.map (·.value fs o) else [])
      ++ listMember "fixes" (if o.fixes then d.fixes.map (·.value fs o) else []))

/-- The diagnostics that the document holds. -/
def Bag.included (o : DocumentOptions) (b : Bag) : List Diagnostic :=
  if 0 < o.max then b.items.take o.max.toNat else b.items

/-- The document of a bag. -/
def Bag.document (fs : FileSet) (o : DocumentOptions) (b : Bag) : JsonValue :=
  let items := b.included o
  .object [("diagnostics", .list (items.map (·.value fs o))), ("count", .int items.length)]

/-- The spans of a diagnostic that the document names. -/
def Diagnostic.namedSpans (o : DocumentOptions) (d : Diagnostic) : List Span :=
  d.primary :: (if o.notes || d.code = .timings then d.notes.map (·.span) else [])
    ++ if o.fixes then d.fixes.flatMap fun fx => fx.edits.map (·.span) else []

/-- The text of the document, when the files of all the spans that it names exist. -/
def Bag.documentText? (fs : FileSet) (o : DocumentOptions) (b : Bag) : Option String :=
  if (b.included o).all fun d => (d.namedSpans o).all fun s => (fs.get? s.file).isSome then
    some ((b.document fs o).indented 0 ++ "\n")
  else none

end CallResolution
