import CallResolution.Diagnostic.Bag
import CallResolution.Document.Program
import CallResolution.Resolve.Report

/-!
# Running the document of a file

The calls of a document are bound in order, and what is reported on the way, while loading as
well as while binding, goes through one filter for repeats into one bag. A file has a limit on
its diagnostics; what is reported beyond it is lost. The classes that there are after a run
are listed with their members by name.
-/

namespace CallResolution

open Source

/-! ## Runs -/

/-- How many diagnostics of a file are kept when nothing else is said. -/
def defaultDiagnosticLimit : Nat := 512

/-- The number of diagnostics kept for a requested limit; one that is not positive means the
default. -/
def diagnosticLimit (requested : Int) : Nat :=
  if 0 < requested then requested.toNat else defaultDiagnosticLimit

/-- Passes reports through a filter for repeats into a bag. -/
def collectReports (limit : Nat) (ds : List Diagnostic) : OnceFilter × Bag :=
  ds.foldl (fun (r, b) d => r.report b d) ({}, { limit })

/-- What came of running the document of a file. -/
structure FileRun where
  /-- The session after the last step. -/
  session : Session
  /-- How the sites ended. -/
  stats : Stats
  /-- The filter that the reports passed. -/
  filter : OnceFilter
  /-- The diagnostics. -/
  bag : Bag
  deriving Repr, Inhabited

namespace FileRun

/-- The reports on the sites, in program order. -/
def sites (r : FileRun) : List SiteReport :=
  r.session.program.sites.toList.map r.session.world.siteReport

/-- How many accessors were made. -/
def accessors (r : FileRun) : Nat :=
  r.session.world.accessorCount

end FileRun

/-- Runs a loaded document. -/
def Loaded.run (l : Loaded) (base : Options) (limit : Nat) : FileRun :=
  let (stats, session) := Session.run (l.session base)
  let (filter, bag) := collectReports limit session.world.reports.toList
  { session, stats, filter, bag }

/-! ## Listings of classes -/

/-- A class with its members by name. -/
structure ClassListing where
  /-- The qualified name. -/
  name : String
  /-- Whether it is a class, an interface or an enumeration. -/
  kind : String := "class"
  /-- Who may use it. -/
  access : String := ""
  /-- The superclass. -/
  super : String := ""
  /-- The interfaces. -/
  interfaces : List String := []
  /-- The type parameters. -/
  typeParams : List String := []
  /-- The fields with access and type. -/
  fields : List String := []
  /-- The headers of the methods. -/
  methods : List String := []
  /-- The headers of the constructors. -/
  ctors : List String := []
  /-- The headers of the accessors. -/
  accessors : List String := []
  /-- The captured variables with their types. -/
  captures : List String := []
  deriving DecidableEq, Repr, Inhabited

/-- The word for a kind of class. -/
def ClassInfo.kindWord (c : ClassInfo) : String :=
  if c.flags.isInterface then "interface" else if c.flags.isEnum then "enum" else "class"

namespace Universe

/-- A field with access and type. -/
def fieldText (u : Universe) (id : FieldId) : String :=
  match u.field? id with
  | none => ""
  | some f => f.access.name ++ " " ++ u.types.name f.type ++ " " ++ f.name

/-- The listing of a class. -/
def classListing (u : Universe) (id : TypeId) : ClassListing :=
  let s := u.types
  let name := s.qualifiedName id
  match s.classInfo? id with
  | none => { name }
  | some info =>
    let m := u.membersOf id
    { name
      kind := info.kindWord
      access := info.access.name
      super := if info.super.isSome then s.name info.super else ""
      interfaces := info.interfaces.map s.name
      typeParams := info.typeParams.map s.name
      fields := m.fields.map u.fieldText
      methods := m.methods.map u.header
      ctors := m.ctors.map u.header
      accessors := m.accessors.map u.header
      captures := (u.captures id).map fun c => c.name ++ " " ++ s.name c.type }

/-- The classes that neither are predefined nor were declared: anonymous classes and
placeholders. -/
def madeClasses (u : Universe) (declared : List TypeId) : List TypeId :=
  u.types.classIds.filter fun t => !TypeStore.initial.contains t && !declared.contains t

end Universe

end CallResolution
