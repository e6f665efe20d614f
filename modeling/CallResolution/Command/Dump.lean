import CallResolution.Run.FileRun
import CallResolution.Run.Result

/-!
# Dumps of documents

All that is known of a document after its run, as a tree in which every value has its type in
front.
-/

namespace CallResolution.Command

open Text

/-- A value of a dump. -/
inductive DumpValue where
  /-- A text. -/
  | text (s : String)
  /-- A truth value. -/
  | truth (b : Bool)
  /-- A list, with the type of its items; one that was never made is not the same as one
  without items. -/
  | list (type : String) (items? : Option (List DumpValue))
  /-- A record with its type. -/
  | record (type : String) (fields : List (String × DumpValue))
  deriving Repr, Inhabited

namespace DumpValue

/-- The length of something that is not empty. -/
def lengthText (n : Nat) : String :=
  if n = 0 then "" else s!"(len={n}) "

/-- Items between braces, one per line. -/
def braced (depth : Nat) (items : List String) : String :=
  let pad := repeatText (depth + 1) "  "
  "\x7b\n" ++ ",\n".intercalate (items.map (pad ++ ·)) ++ (if items.isEmpty then "" else "\n") ++ repeatText depth "  "
    ++ "\x7d"

mutual

/-- A value as text, at a depth. -/
def render (depth : Nat) : DumpValue → String
  | .text s => "(string) " ++ lengthText s.utf8ByteSize ++ quote s
  | .truth b => s!"(bool) {b}"
  | .list type none => "([]" ++ type ++ ") <nil>"
  | .list type (some items) =>
    "([]" ++ type ++ ") " ++ lengthText items.length ++ braced depth (renderItems (depth + 1) items)
  | .record type fields => "(" ++ type ++ ") " ++ braced depth (renderFields (depth + 1) fields)

/-- The items of a list as text. -/
def renderItems (depth : Nat) : List DumpValue → List String
  | [] => []
  | v :: vs => v.render depth :: renderItems depth vs

/-- The fields of a record as text. -/
def renderFields (depth : Nat) : List (String × DumpValue) → List String
  | [] => []
  | (k, v) :: fs => (k ++ ": " ++ v.render depth) :: renderFields depth fs

end

/-- A list that is not made before its first item. -/
def grown (type : String) (items : List DumpValue) : DumpValue :=
  .list type (if items.isEmpty then none else some items)

/-- A list of texts. -/
def texts (l : List String) : DumpValue :=
  grown "string" (l.map .text)

end DumpValue

/-- A class in a dump. -/
def classDump (c : ClassListing) : DumpValue :=
  .record "main.classDump"
    [("Name", .text c.name), ("Kind", .text c.kind), ("Access", .text c.access), ("Super", .text c.super),
     ("Interfaces", .texts c.interfaces), ("TypeParams", .texts c.typeParams), ("Fields", .texts c.fields),
     ("Methods", .texts c.methods), ("Constructors", .texts c.ctors), ("Accessors", .texts c.accessors),
     ("Captures", .texts c.captures)]

/-- A call site in a dump. -/
def siteDump (s : SiteReport) : DumpValue :=
  .record "driver.SiteReport"
    [("Label", .text s.label), ("Call", .text s.call), ("State", .text s.state), ("Callable", .text s.callable),
     ("Type", .text s.type), ("Phase", .text s.phase), ("Wrapped", .truth s.wrapped), ("Rewrite", .text s.lowered),
     ("Anonymous", .text s.anonymous), ("Super", .text s.super), ("LocalArgs", .texts s.localArgs),
     ("Throws", .texts s.throws)]

/-- The dump of a file. -/
def fileDump (r : FileResult) (options : String) (classes : List ClassListing) : DumpValue :=
  .record "main.fixtureDump"
    [("Path", .text r.path), ("Options", .text options),
     ("Classes", .grown "main.classDump" (classes.map classDump)),
     ("Sites", .list "driver.SiteReport" (some (r.sites.map siteDump))),
     ("Diagnostics", .texts (r.bag.items.map fun d => s!"{d.severity.label} {d.code.id}: {d.message}"))]

/-- The dump of a file whose document was run. -/
def dumpText (r : FileResult) : String :=
  match r.fresh? with
  | none => (fileDump r "" []).render 0 ++ "\n"
  | some (loaded, run) =>
    let u := run.session.world
    (fileDump r run.session.options.text (loaded.classes.map u.classListing)).render 0 ++ "\n"

end CallResolution.Command
