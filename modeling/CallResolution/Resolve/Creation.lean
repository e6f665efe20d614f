import CallResolution.Resolve.Captured
import CallResolution.Resolve.MethodCall

/-!
# Constructor calls

Creations of instances, with or without the body of an anonymous class, and explicit calls of
other constructors. An anonymous class gets a constructor that takes the arguments of the
creation and passes them on to the superclass.
-/

namespace CallResolution.Session

/-- Whether an instance of a class is at hand in some frame: static code and classes without
an enclosing instance end the search. -/
def enclosingInstance (s : TypeStore) (outer : TypeId) : List Frame → Bool
  | [] => false
  | f :: rest =>
    if f.isStatic then false
    else if s.isSubclass f.type outer then true
    else (s.classInfo? f.type).any (·.isInner) && enclosingInstance s outer rest

/-- Lets the constructors of a class compete, and gives the selected one with its selection.
-/
def chooseCtor (env : Env) (site : Site) (cls : TypeId) (args : List TypeId) (isExplicit : Bool) :
    ResolveM (MethodId × Selection) := do
  match ← selectCtor env cls args isExplicit with
  | none =>
    let code ← ctorNotFound { env, site, cls, args, isExplicit }
    failReported site .notFound code
  | some sel =>
    let id ← pick site sel .ambiguousConstructor
    checkCallable env site id
    return (id, sel)

/-- Binds a constructor call from the code of a class to a constructor of another one, the
call having a type. -/
def resolveCtor (env : Env) (site : Site) (cls caller type : TypeId) (args : List TypeId) (isExplicit : Bool) :
    ResolveM Resolution := do
  let (id, sel) ← chooseCtor env site cls args isExplicit
  let lowered ← inUniverse (Universe.forwardCtor caller id site.args)
  let throws ← callThrows env site [] id args
  let r : Resolution :=
    { state := .resolved, callable := id, type, phase := sel.phase, wrapped := sel.wrapped, lowered, throws }
  let s ← getTypes
  if s.isLocalClass cls then attachLocalArgs env site (s.classOf cls) r else return r

/-! ## Anonymous classes -/

/-- The parameters of a constructor that takes arguments and passes them on: the declared
types for fixed parameters, and the types of the arguments for packed ones. -/
def forwardingParams (target : Method) (wrapped : Bool) (args : List TypeId) : TypeM (List TypeId) := do
  let fixed := if wrapped then target.params.length - 1 else target.params.length
  let element ← TypeStore.component (target.params.getLastD .none)
  let s ← get
  return target.params.take (min fixed args.length)
    ++ (args.drop fixed).map fun a => if s.isNull a then element else a

/-- The enclosing instance for a creation that names none. -/
def implicitOuter (s : TypeStore) (env : Env) (outer : TypeId) (site : Site) : Expr :=
  match env.frames.findIdx? fun f => s.isSubclass f.type outer with
  | some j => { form := .this (env.via j), type := (env.frame j).type, span := site.span }
  | none => { form := .this [], type := env.this, span := site.span }

/-- Passes the captures of a complete local superclass through an anonymous class, which
captures them too and reads them from its own fields. -/
def forwardCaptures (site : Site) (anon : TypeId) : List Capture → UniverseM (List Expr)
  | [] => return []
  | c :: rest => do
    match ← Universe.addCapture anon c.name c.type with
    | some made =>
      return captureRead site c.name c.type made.field [anon] :: (← forwardCaptures site anon rest)
    | none => forwardCaptures site anon rest

/-- The arguments that an anonymous class passes for the captures of a local superclass; while
that is open the creation waits for it. -/
def forwardSuperCaptures (env : Env) (site : Site) (anon super : TypeId) : SessionM (List Expr) := do
  let u ← getUniverse
  let cls := u.types.classOf super
  if !u.types.isLocalClass super then return []
  else if u.isComplete cls then onUniverse (forwardCaptures site anon (u.captures cls))
  else
    wait cls { site := site.id, env, isSuper := true }
    return []

/-- Makes an anonymous class capture the local variables that its body uses. -/
def captureBody (env : Env) (site : Site) (anon : TypeId) : List String → ResolveM Unit
  | [] => return
  | name :: names => do
    let u ← getUniverse
    match localType? u env name with
    | none =>
      reject site .rejected .unknownLocal
        s!"local variable {name} captured by {u.className anon} is not in scope"
    | some t =>
      match ← inUniverse (Universe.addCapture anon name t) with
      | some _ => captureBody env site anon names
      | none =>
        throw { kind := .rejected, site := site.id,
                cause := some s!"capture {name}: {Universe.captureFault}" }

/-- The superclass and the interfaces of an anonymous class. -/
def anonymousParents (s : TypeStore) (cls : TypeId) : TypeId × List TypeId :=
  if s.isInterface cls then (.object, [cls]) else (cls, [])

/-- Checks that an enclosing instance for the creation of a class is at hand. -/
def checkEnclosing (env : Env) (site : Site) (cls : TypeId) (outer : Option Expr) : ResolveM Unit := do
  let u ← getUniverse
  match u.types.classInfo? cls with
  | none => return
  | some info =>
    if info.isInner && outer.isNone && !enclosingInstance u.types info.outer env.frames then
      reject site .rejected .missingEnclosingInstance
        s!"an enclosing instance of {u.className info.outer} is required to create {u.className cls}"

/-- The class that the constructor of an anonymous class passes an enclosing instance of to
the superclass. -/
def outerOfSuper? (s : TypeStore) (super : TypeId) : Option TypeId :=
  match s.classInfo? super with
  | some info => if info.isInner then some info.outer else none
  | none => none

/-- The constructor of an anonymous class. -/
structure AnonymousCtor where
  /-- The parameters. -/
  params : List TypeId
  /-- What it passes on to the superclass. -/
  forward : List Expr
  /-- The arguments of the creation. -/
  creation : List Expr
  deriving DecidableEq, Repr, Inhabited

/-- Plans the constructor of an anonymous class with given parameters for the arguments. -/
def planCtor (s : TypeStore) (env : Env) (site : Site) (span : Source.Span) (super : TypeId)
    (outer : Option Expr) (params : List TypeId) : AnonymousCtor :=
  let forward : List Expr := params.zipIdx.map fun (p, k) =>
    { form := .localVar s!"arg{k}" [], type := p, span }
  match outerOfSuper? s super with
  | none => { params, forward, creation := site.args }
  | some cls =>
    { params := cls :: params
      forward := { form := .localVar "this$0" [], type := cls, span } :: forward
      creation := outer.getD (implicitOuter s env cls site) :: site.args }

/-- Binds the creation of an anonymous class. -/
def resolveAnonymous (env : Env) (site : Site) (cls : TypeId) (outer : Option Expr) (body : AnonymousBody)
    (args : List TypeId) : ResolveM Resolution := do
  let u ← getUniverse
  if u.types.isInterface cls && !args.isEmpty then
    reject site .rejected .anonymousInterfaceArgs
      (s!"an anonymous implementation of interface {u.className cls}"
        ++ " cannot take constructor arguments")
  let (super, interfaces) := anonymousParents u.types cls
  checkEnclosing env site super outer
  let (superCtor, sel) ← chooseCtor env site super args true
  let span := if body.span.isEmpty then site.span else body.span
  let anon ← inTypes <| TypeStore.registerAnonymous env.this
    { name := "", package := "", flags := { isLocal := true }, super, interfaces, decl := span }
  let sm := (← getUniverse).method superCtor
  let params ← inTypes (forwardingParams sm sel.wrapped args)
  let plan := planCtor (← getTypes) env site span super outer params
  let ctor ← inUniverse <| Universe.addMethod
    { name := constructorName, owner := anon, kind := .constructor, params := plan.params,
      returns := .void, throws := sm.throws, decl := span }
  let forwarded ← inUniverse (Universe.forwardCtor anon superCtor plan.forward)
  let s ← getTypes
  let extra ← forwardSuperCaptures env site anon super
  let superCall := forwarded.getD ⟨superCtor, plan.forward⟩
  captureBody env site anon body.captures
  let _ ← inUniverse (Universe.completeClass anon)
  let localArgs ← captureArgs env site anon
  let throws ← callThrows env site [] ctor args
  return {
    state := .resolved, callable := ctor, type := anon, phase := sel.phase, wrapped := sel.wrapped
    lowered := if (outerOfSuper? s super).isSome then some ⟨ctor, plan.creation⟩ else none
    anonymous := anon
    superInvocation := some { superCall with args := superCall.args ++ extra }
    localArgs, throws }

/-! ## Creations and explicit constructor calls -/

/-- Checks that an enclosing instance that is given is not bad. -/
def checkOuter (site : Site) (outer : Option Expr) : ResolveM Unit := do
  let st ← get
  if outer.any fun e => st.world.types.isBad (st.exprType e) then failSilently site .badReceiver

/-- Binds a creation. -/
def resolveNew (env : Env) (site : Site) (cls : TypeId) (outer : Option Expr) (body : Option AnonymousBody) :
    ResolveM Resolution := do
  let args ← argTypes site
  let u ← getUniverse
  if u.types.isBad cls then failSilently site .badReceiver
  match u.types.classInfo? cls with
  | none =>
    reject site .rejected .primitiveInstantiation s!"{u.types.name cls} cannot be instantiated"
  | some info =>
    checkOuter site outer
    match body with
    | some body => resolveAnonymous env site cls outer body args
    | none =>
      if info.flags.isInterface || info.flags.isAbstract then
        reject site .rejected .abstractInstantiation
          s!"{u.className cls} is abstract; cannot be instantiated"
      checkEnclosing env site cls outer
      resolveCtor env site cls env.this cls args false

/-- Binds the call of another constructor of the same class. -/
def resolveThis (env : Env) (site : Site) : ResolveM Resolution := do
  let cls := (← getTypes).classOf env.this
  let args ← argTypes site
  resolveCtor env site cls cls .void args true

/-- Checks that an enclosing instance for the constructor of a superclass is at hand outside
the calling class. -/
def checkSuperEnclosing (env : Env) (site : Site) (super : TypeId) (outer : Option Expr) : ResolveM Unit := do
  let u ← getUniverse
  match outerOfSuper? u.types super with
  | none => return
  | some cls =>
    if outer.isNone && !enclosingInstance u.types cls (env.frames.drop 1) then
      reject site .rejected .missingEnclosingInstance
        (s!"an enclosing instance of {u.className cls} is required to invoke the constructor of"
          ++ s!" {u.className super}")

/-- Binds the call of a constructor of the superclass. -/
def resolveSuper (env : Env) (site : Site) (outer : Option Expr) : ResolveM Resolution := do
  let u ← getUniverse
  let this := u.types.classOf env.this
  match u.types.classInfo? this with
  | none => failSilently site .badReceiver
  | some info =>
    if info.flags.isInterface then
      reject site .rejected .interfaceSuperCall
        s!"interface {u.className this} has no constructor to invoke super from"
    if !info.super.isSome then
      reject site .rejected .objectSuperCall
        s!"{u.className this} has no superclass constructor to invoke"
    checkOuter site outer
    checkSuperEnclosing env site info.super outer
    let args ← argTypes site
    resolveCtor env site info.super this .void args true

end CallResolution.Session
