import CallResolution.Resolve.Run
import CallResolution.Text.JsonText

/-!
# Reports on call sites

What became of a call site, in names only, so that it can be printed and kept without the
universe it refers to.
-/

namespace CallResolution

open Text

/-- What became of a call site, in names. -/
structure SiteReport where
  /-- The name of the site, or its number after a hash sign. -/
  label : String
  /-- What is called. -/
  call : String
  /-- How far the site got. -/
  state : String
  /-- The bound callable. -/
  callable : String := ""
  /-- The type of the call. -/
  type : String := ""
  /-- The phase in which the callable applied. -/
  phase : String := ""
  /-- Whether trailing arguments are packed. -/
  wrapped : Bool := false
  /-- The callable that takes the place of the bound one. -/
  lowered : String := ""
  /-- The anonymous class. -/
  anonymous : String := ""
  /-- The superclass constructor that the anonymous class calls. -/
  super : String := ""
  /-- The arguments for captured variables. -/
  localArgs : List String := []
  /-- The exceptions. -/
  throws : List String := []
  deriving DecidableEq, Repr, Inhabited

namespace Universe

/-- The header of a callable behind the name of its class. -/
def qualifiedHeader (u : Universe) (id : MethodId) : String :=
  match u.method? id with
  | none => "<none>"
  | some m => u.types.qualifiedName m.owner ++ "." ++ u.header id

/-- An argument for a captured variable, in short. -/
def shortExpr (u : Universe) (e : Expr) : String :=
  match e.form with
  | .localVar name _ => name
  | .this _ => u.types.name e.type ++ ".this"
  | .null | .placeholder => "null"
  | form => form.name ++ ":" ++ u.types.name e.type

/-- A call in short. -/
def callText (u : Universe) : Call → String
  | .method name _ => name
  | .new cls _ _ => "new " ++ u.types.name cls
  | .this => "this"
  | .super _ => "super"

/-- The report on a call site. -/
def siteReport (u : Universe) (site : Site) : SiteReport :=
  let r := site.result
  let bound := r.callable.isSome
  { label := if site.label = "" then s!"#{site.id}" else site.label
    call := u.callText site.call
    state := r.state.name
    callable := if bound then u.qualifiedHeader r.callable else ""
    type := if r.type.isSome && r.state ≠ .unresolved then u.types.name r.type else ""
    phase := if bound then r.phase.name else ""
    wrapped := bound && r.wrapped
    lowered := r.lowered.elim "" fun rw => u.qualifiedHeader rw.callable
    anonymous := if r.anonymous.isSome then u.types.qualifiedName r.anonymous else ""
    super := r.superInvocation.elim "" fun si => u.qualifiedHeader si.callable
    localArgs := r.localArgs.map u.shortExpr
    throws := r.throws.map u.types.name }

end Universe

namespace SiteReport

/-- A part of the line that is left out when it is blank. -/
def optional (lead value : String) : String :=
  if value = "" then "" else lead ++ value

/-- The report on one line. -/
def line (r : SiteReport) : String :=
  s!"{r.label}: {r.call} -> {r.state}"
    ++ optional " " r.callable
    ++ optional " : " r.type
    ++ (if r.phase = "" then "" else s!" [{r.phase}]")
    ++ (if r.wrapped then " wrapped" else "")
    ++ optional " via " r.lowered
    ++ optional " anonymous " r.anonymous
    ++ optional " super " r.super
    ++ (if r.localArgs.isEmpty then "" else " captures(" ++ ", ".intercalate r.localArgs ++ ")")
    ++ (if r.throws.isEmpty then "" else " throws " ++ ", ".intercalate r.throws)

/-- The report as named values, where blank ones are left out. -/
def fields (r : SiteReport) : List (String × JsonValue) :=
  let text (k v : String) : List (String × JsonValue) := if v = "" then [] else [(k, .text v)]
  let texts (k : String) (vs : List String) : List (String × JsonValue) :=
    if vs.isEmpty then [] else [(k, .list (vs.map .text))]
  [("label", .text r.label), ("call", .text r.call), ("state", .text r.state)]
    ++ text "callable" r.callable ++ text "type" r.type ++ text "phase" r.phase
    ++ (if r.wrapped then [("wrapped", .bool true)] else [])
    ++ text "rewrite" r.lowered ++ text "anonymous" r.anonymous ++ text "super" r.super
    ++ texts "local_args" r.localArgs ++ texts "throws" r.throws

end SiteReport

end CallResolution
