import CallResolution.Resolve.Creation

/-!
# Running programs

A program is run step by step: a call is bound and the outcome recorded at its site, and the
completion of a local class releases the constructor calls that wait for it. A call that fails
does not stop the run.
-/

namespace CallResolution

/-- What a request to bind a call may lack. -/
inductive RequestFault where
  /-- There is no call site. -/
  | noSite
  /-- There is no class around the call. -/
  | noFrame (site : SiteId)
  /-- The site does not say what is called. -/
  | noCall (site : SiteId)
  /-- There is no program to run. -/
  | noProgram
  /-- The program of a path has no site of a number. -/
  | unknownSite (path : String) (site : SiteId)
  /-- The run was called off. -/
  | cancelled
  deriving DecidableEq, Repr, Inhabited

/-- What a fault says. -/
def RequestFault.message : RequestFault → String
  | .noSite => "resolve: nil call site"
  | .noFrame site => s!"call site {site}: empty lexical environment"
  | .noCall site => s!"call site {site}: unsupported call kind <nil>"
  | .noProgram => "run: resolver has no unit"
  | .unknownSite path site => s!"run {path}: unknown call site {site}"
  | .cancelled => "context canceled"

/-- How the sites of a program ended. -/
structure Stats where
  /-- How many were looked at. -/
  sites : Nat := 0
  /-- How many are bound. -/
  resolved : Nat := 0
  /-- How many failed. -/
  failed : Nat := 0
  /-- How many still wait. -/
  deferred : Nat := 0
  deriving DecidableEq, Repr, Inhabited

/-- How the sites of a program ended when a number of them was looked at. -/
def Stats.ofSites (looked : Nat) (sites : List Site) : Stats :=
  { sites := looked
    resolved := sites.countP (·.result.state = .resolved)
    failed := sites.countP (·.result.state = .failed)
    deferred := sites.countP (·.result.state = .deferred) }

namespace Session

/-- Binds a call without recording the outcome. -/
def resolveCall (env : Env) (site : Site) : ResolveM Resolution :=
  match site.call with
  | .method name recv => resolveMethod env site name recv
  | .new cls outer body => resolveNew env site cls outer body
  | .this => resolveThis env site
  | .super outer => resolveSuper env site outer

/-- The event at the end of binding a site. -/
def siteEnd (u : Universe) (site : Site) (r : Resolution) : Trace.Event :=
  { kind := .end_, scope := .site, name := "site:" ++ site.shownLabel
    detail := if r.callable.isSome then u.header r.callable else ""
    extra := [("site", site.shownLabel), ("phase", r.phase.name), ("outcome", r.state.name)] }

/-- Records what became of a site. -/
def setResult (id : SiteId) (r : Resolution) : SessionM Unit :=
  modify fun st => { st with program := st.program.setResult id r }

/-- Binds a call and records the outcome at its site. -/
def resolve (env : Env) (site : Site) : SessionM (Option Failure) := do
  note { kind := .begin_, scope := .site, name := "site:" ++ site.shownLabel }
  let outcome ← (resolveCall env site).run
  let (r, failure) := match outcome with
    | .ok r => (r, none)
    | .error f => (Resolution.ofFailure, some f)
  setResult site.id r
  note (siteEnd (← getUniverse) site r)
  return failure

/-- What a waiting call becomes when it gets its arguments. -/
def released (w : WaitingSite) (args : List Expr) (r : Resolution) : Resolution :=
  if w.isSuper then
    { r with superInvocation := r.superInvocation.map fun si => { si with args := si.args ++ args } }
  else
    { r with localArgs := args, state := if r.state = .deferred then .resolved else r.state }

/-- Gives a waiting call the arguments for the captures of a class. -/
def release (cls : TypeId) (w : WaitingSite) : SessionM Unit := do
  match (← get).program.site? w.site with
  | none => return
  | some site =>
    let args ← captureArgs w.env site cls
    setResult w.site (released w args site.result)

/-- Finishes the body of a local class and releases the calls that wait for it. -/
def complete (cls : TypeId) : SessionM Unit := do
  let name := "complete:" ++ (← getUniverse).className cls
  note { kind := .begin_, scope := .site, name }
  let _ ← onUniverse (Universe.completeClass cls)
  let waiting := ((← get).waiting.lookup cls).getD []
  modify fun st => { st with waiting := st.waiting.filter (·.1 ≠ cls) }
  waiting.forM (release cls)
  note { kind := .end_, scope := .site, name, extra := [("released", toString waiting.length)] }

/-- Performs one step of a program. A call may fail. -/
def runStep : Step → SessionM (Option Failure)
  | .call id env => do
    match (← get).program.site? id with
    | some site => resolve env site
    | none => return none
  | .complete cls _ => do
    complete cls
    return none

/-- Warns of the calls that wait for a class that was never completed. -/
def reportWaiting : SessionM Unit := do
  let st ← get
  let sorted := st.waiting.mergeSort fun a b => a.1.index ≤ b.1.index
  sorted.forM fun (cls, ws) => ws.forM fun w =>
    match st.program.site? w.site with
    | none => pure ()
    | some site =>
      reportWarning .pendingLocalConstructor site
        (s!"the body of local class {st.world.className cls} was never completed;"
          ++ " capture arguments are missing")

/-- How many steps are calls. -/
def callCount (steps : List Step) : Nat :=
  steps.countP fun
    | .call _ _ => true
    | .complete _ _ => false

/-- Runs the whole program. -/
def run : SessionM Stats := do
  let p := (← get).program
  let name := "unit:" ++ p.path
  note { kind := .begin_, scope := .unit, name }
  p.steps.forM fun step => do
    let _ ← runStep step
  reportWaiting
  let stats := Stats.ofSites (callCount p.steps) (← get).program.sites.toList
  note { kind := .end_, scope := .unit, name,
         extra := [("sites", toString stats.sites), ("failed", toString stats.failed)] }
  return stats

/-- What a step lacks in a program: its call site, or a class around it. -/
def lacking? (p : Program) : Step → Option RequestFault
  | .call id env =>
    if (p.site? id).isNone then some (.unknownSite p.path id)
    else if env.frames.isEmpty then some (.noFrame id)
    else none
  | .complete _ _ => none

/-- Performs steps in order until one lacks something. -/
def firstFault? : List Step → SessionM (Option RequestFault)
  | [] => return none
  | step :: rest => do
    match lacking? (← get).program step with
    | some fault => return some fault
    | none =>
      let _ ← runStep step
      firstFault? rest

/-- Runs the whole program, unless some step lacks something. -/
def tryRun (st : Session) : Except RequestFault (Stats × Session) :=
  match (firstFault? st.program.steps st).1 with
  | some fault => .error fault
  | none => .ok (run st)

/-- Tries to run a program after the run was called off: a program without steps has nothing
to stop. -/
def runCancelled (p : Program) : Except RequestFault Unit :=
  if p.steps.isEmpty then .ok () else .error .cancelled

end Session

end CallResolution
