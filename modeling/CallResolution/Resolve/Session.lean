import CallResolution.Members.Expanded
import CallResolution.Resolve.Options
import CallResolution.Trace.Event

/-!
# Sessions

A session binds the calls of one program: it holds the universe, the program with what became
of its call sites, the constructor calls that wait for a local class, and the trace.
-/

namespace CallResolution

open Source

/-- A constructor call of a local class whose body was still open. -/
structure WaitingSite where
  /-- The call site. -/
  site : SiteId
  /-- The classes around the call. -/
  env : Env
  /-- Whether it is the superclass constructor call of an anonymous class that waits. -/
  isSuper : Bool := false
  deriving DecidableEq, Repr, Inhabited

/-- The state of binding the calls of a program. -/
structure Session where
  /-- The types and members, and what was reported. -/
  world : Universe
  /-- The program. -/
  program : Program
  /-- The options. -/
  options : Options := {}
  /-- The calls that wait for each local class. -/
  waiting : List (TypeId × List WaitingSite) := []
  /-- What was done, in full. -/
  trace : Array Trace.Event := #[]
  deriving Repr, Inhabited

/-- Why a call was not bound. -/
inductive FailureKind where
  /-- Nothing applies. -/
  | notFound
  /-- What was found cannot be used here. -/
  | rejected
  /-- The receiver, or the created class, is bad. -/
  | badReceiver
  /-- An argument is bad. -/
  | badArgument
  /-- There is no member table to search. -/
  | noTable
  deriving DecidableEq, Repr, Inhabited

/-- The name of a kind. -/
def FailureKind.name : FailureKind → String
  | .notFound => "not-found"
  | .rejected => "rejected"
  | .badReceiver => "bad-receiver"
  | .badArgument => "bad-argument"
  | .noTable => "cycle"

/-- The failure of a call site. -/
structure Failure where
  /-- Why it was not bound. -/
  kind : FailureKind
  /-- The code under which it was reported; none for a failure that follows from another one.
  -/
  code : Option Code := none
  /-- The call site. -/
  site : SiteId
  /-- What went wrong underneath. -/
  cause : Option String := none
  deriving DecidableEq, Repr, Inhabited

namespace Failure

/-- Whether nothing was reported. -/
def isSilent (f : Failure) : Bool :=
  f.code.isNone

/-- What a failure says. -/
def message (f : Failure) : String :=
  s!"call site {f.site}: {f.kind.name}"
    ++ f.code.elim "" (fun c => " (" ++ c.id ++ ")")
    ++ f.cause.elim "" (": " ++ ·)

end Failure

/-- A step of a session. -/
abbrev SessionM := StateM Session

/-- A step that may fail to bind a call. -/
abbrev ResolveM := ExceptT Failure SessionM

namespace Session

/-- Runs a step on the universe. -/
def onUniverse {α : Type} (x : UniverseM α) : SessionM α := fun st =>
  let (a, u) := x st.world
  (a, { st with world := u })

/-- Runs a step on the types. -/
def onTypes {α : Type} (x : TypeM α) : SessionM α :=
  onUniverse (Universe.onTypes x)

/-- Runs a step on the universe while a call is bound. -/
def inUniverse {α : Type} (x : UniverseM α) : ResolveM α :=
  ExceptT.lift (onUniverse x)

/-- Runs a step on the types while a call is bound. -/
def inTypes {α : Type} (x : TypeM α) : ResolveM α :=
  ExceptT.lift (onTypes x)

/-- The universe. -/
def getUniverse : SessionM Universe :=
  return (← get).world

/-- The types. -/
def getTypes : SessionM TypeStore :=
  return (← get).world.types

/-- Adds an event to the trace. -/
def note (e : Trace.Event) : SessionM Unit :=
  modify fun st => { st with trace := st.trace.push e }

/-- Reports a diagnostic. -/
def report (d : Diagnostic) : SessionM Unit :=
  onUniverse (Universe.report d)

/-- Reports an error at a call site. -/
def reportError (code : Code) (site : Site) (msg : String) : SessionM Unit :=
  report (.error code site.span msg)

/-- Reports a warning at a call site. -/
def reportWarning (code : Code) (site : Site) (msg : String) : SessionM Unit :=
  report (.warning code site.span msg)

/-- Fails without a report. -/
def failSilently {α : Type} (site : Site) (kind : FailureKind) : ResolveM α :=
  throw { kind, site := site.id }

/-- Fails after a report under a code. -/
def failReported {α : Type} (site : Site) (kind : FailureKind) (code : Code) : ResolveM α :=
  throw { kind, code := some code, site := site.id }

/-- Reports an error and fails. -/
def reject {α : Type} (site : Site) (kind : FailureKind) (code : Code) (msg : String) : ResolveM α := do
  reportError code site msg
  failReported site kind code

/-- The static type of an expression. The value of another call site has the type that site
was bound with. -/
def exprType (st : Session) (e : Expr) : TypeId :=
  match e.form with
  | .null | .placeholder => .null
  | .call id =>
    if id = 0 then e.type
    else match st.program.site? id with
      | none => .bad
      | some s =>
        match s.result.state with
        | .unresolved | .failed => .bad
        | _ => s.result.type
  | _ => if e.type.isSome then e.type else .bad

/-- The types of the arguments. A bad argument fails the call silently, because its own
problem was reported already; an argument without a value is reported. -/
def argTypes (site : Site) : ResolveM (List TypeId) := do
  let st ← get
  let s := st.world.types
  let args := site.args.map st.exprType
  if args.any s.isBad then failSilently site .badArgument
  match args.findIdx? fun t => s.shape t = .void with
  | some i =>
    reject site .badArgument .voidArgument s!"argument {i + 1} of {site.calledName} has type void"
  | none => return args

/-- A name with argument types, as messages show it. -/
def callHeader (s : TypeStore) (name : String) (args : List TypeId) : String :=
  Universe.headerOf s name args false

/-- The name of a class without its package and surrounding classes. -/
def simpleName (s : TypeStore) (t : TypeId) : String :=
  (s.classInfo? t).elim (s.name t) (·.name)

end Session

end CallResolution
