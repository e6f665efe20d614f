import CallResolution.Resolve.Report
import CallResolution.Run.Codec
import CallResolution.Diagnostic.Basic

/-!
# Kept results

What the result cache keeps of a file: how its sites ended, the reports on them, the
diagnostics, and how many accessors were made. The number of the file does not belong to it,
since the same content may come under another number later.
-/

namespace CallResolution

open Source Text

/-! ## Diagnostics of another file -/

/-- The same place in another file. -/
def Source.Span.inFile (s : Span) (file : FileId) : Span :=
  { s with file }

/-- The same note in another file. -/
def Note.inFile (n : Note) (file : FileId) : Note :=
  { n with span := n.span.inFile file }

/-- The same edit in another file. -/
def Edit.inFile (e : Edit) (file : FileId) : Edit :=
  { e with span := e.span.inFile file }

/-- The same change in another file. -/
def Fix.inFile (f : Fix) (file : FileId) : Fix :=
  { f with edits := f.edits.map (·.inFile file) }

/-- The same finding in another file. -/
def Diagnostic.inFile (d : Diagnostic) (file : FileId) : Diagnostic :=
  { d with
    primary := d.primary.inFile file
    notes := d.notes.map (·.inFile file)
    fixes := d.fixes.map (·.inFile file) }

/-! ## Entries -/

/-- What is kept of the result for a file. -/
structure Entry where
  /-- How the sites ended. -/
  stats : Stats
  /-- The reports on the sites. -/
  sites : List SiteReport
  /-- The diagnostics, as those of the first file. -/
  diagnostics : List Diagnostic
  /-- How many accessors were made. -/
  accessors : Nat
  deriving DecidableEq, Repr, Inhabited

namespace Entry

/-- The entry for what was found in some file. -/
def ofResult (stats : Stats) (sites : List SiteReport) (ds : List Diagnostic) (accessors : Nat) : Entry :=
  { stats, sites, diagnostics := ds.map (·.inFile 0), accessors }

/-- The diagnostics for a file with the same content. -/
def diagnosticsIn (e : Entry) (file : FileId) : List Diagnostic :=
  e.diagnostics.map (·.inFile file)

/-! ## Writing and reading -/

/-- How the sites ended. -/
def statsCodec : Codec Stats :=
  (Codec.nat.pair (Codec.nat.pair (Codec.nat.pair Codec.nat))).via
    (fun s => (s.sites, s.resolved, s.failed, s.deferred)) (fun (a, b, c, d) => ⟨a, b, c, d⟩) (fun _ => rfl)

/-- Reports on sites. -/
def siteCodec : Codec SiteReport :=
  let t := Codec.text
  (t.pair (t.pair (t.pair (t.pair (t.pair (t.pair (Codec.bool.pair (t.pair (t.pair (t.pair
    (t.list.pair t.list))))))))))).via
    (fun r => (r.label, r.call, r.state, r.callable, r.type, r.phase, r.wrapped, r.lowered, r.anonymous, r.super,
      r.localArgs, r.throws))
    (fun (a, b, c, d, e, f, g, h, i, j, k, l) => ⟨a, b, c, d, e, f, g, h, i, j, k, l⟩) (fun _ => rfl)

/-- Places. -/
def spanCodec : Codec Span :=
  (Codec.nat.pair (Codec.word32.pair Codec.word32)).via
    (fun s => (s.file, s.start, s.stop)) (fun (a, b, c) => ⟨a, b, c⟩) (fun _ => rfl)

/-- Kinds of notes. -/
def noteKindCodec : Codec NoteKind :=
  Codec.bool.via (· = .candidate) (fun b => if b then .candidate else .info) (by intro k; cases k <;> rfl)

/-- Notes. -/
def noteCodec : Codec Note :=
  (spanCodec.pair (Codec.text.pair noteKindCodec)).via
    (fun n => (n.span, n.message, n.kind)) (fun (a, b, c) => ⟨a, b, c⟩) (fun _ => rfl)

/-- Edits. -/
def editCodec : Codec Edit :=
  (spanCodec.pair Codec.text).via (fun e => (e.span, e.newText)) (fun (a, b) => ⟨a, b⟩) (fun _ => rfl)

/-- Changes. -/
def fixCodec : Codec Fix :=
  (Codec.text.pair editCodec.list).via (fun f => (f.title, f.edits)) (fun (a, b) => ⟨a, b⟩) (fun _ => rfl)

/-- Findings. -/
def diagnosticCodec : Codec Diagnostic :=
  (Codec.byte.pair (Codec.word16.pair (Codec.text.pair (spanCodec.pair (noteCodec.list.pair fixCodec.list))))).via
    (fun d => (d.severity.rank, d.code.number, d.message, d.primary, d.notes, d.fixes))
    (fun (a, b, c, d, e, f) => ⟨⟨a⟩, ⟨b⟩, c, d, e, f⟩) (fun _ => rfl)

/-- Entries. -/
def codec : Codec Entry :=
  (statsCodec.pair (siteCodec.list.pair (diagnosticCodec.list.pair Codec.nat))).via
    (fun e => (e.stats, e.sites, e.diagnostics, e.accessors)) (fun (a, b, c, d) => ⟨a, b, c, d⟩) (fun _ => rfl)

end Entry

/-! ## Formats of entries -/

/-- How a library writes entries as bytes, each with the number of its layout, and reads them.
-/
structure EntryFormat where
  /-- The bytes of an entry. -/
  write : Nat × Entry → Bytes
  /-- The entry that bytes stand for, if they stand for one. -/
  read : Bytes → Option (Nat × Entry)

namespace EntryFormat

/-- The first byte of a file with an entry. No text starts with it, so a text is never taken
for an entry. -/
def mark : UInt8 := 0x86

/-- A format that can be evaluated. -/
def working : EntryFormat where
  write e := mark :: (Codec.nat.pair Entry.codec).encode e
  read
    | [] => none
    | first :: s => if first = mark then (Codec.nat.pair Entry.codec).decode s else none

instance : Inhabited EntryFormat := ⟨working⟩

end EntryFormat

end CallResolution
