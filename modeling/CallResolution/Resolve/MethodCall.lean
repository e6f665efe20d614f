import CallResolution.Resolve.Forwarded
import CallResolution.Resolve.NotFound
import CallResolution.Resolve.Thrown

/-!
# Method calls

A call by name alone is searched outward through the classes around it: the first class that
has methods of the name decides, whether one applies or not, and static imports are looked at
only when there is no such class. A call with a receiver is searched in the type of the
receiver.
-/

namespace CallResolution.Session

/-- Reports the direct call of a generated callable, and the call of a deprecated one of
another outermost class. -/
def checkCallable (env : Env) (site : Site) (id : MethodId) : SessionM Unit := do
  let st ← get
  let u := st.world
  let m := u.method id
  let shown := s!"{u.header id} in {u.className m.owner}"
  if m.flags.isSynthetic && !m.flags.isBridge && !m.flags.isEnumSupport && !m.flags.isAccessor then
    reportError (if m.isConstructor then .syntheticConstructorInvoke else .syntheticMethodInvocation) site
      s!"{shown} is compiler-generated and cannot be invoked directly"
  if st.options.deprecation && m.flags.isDeprecated && !env.isDeprecated
      && !env.sharesOutermost u.types m.owner then
    reportWarning (if m.isConstructor then .deprecatedConstructor else .deprecatedMethod) site
      s!"{shown} has been deprecated"

/-- The static type of a call of a method on a receiver type. -/
def callType (id : MethodId) (recv : TypeId) (qualified : Bool) (site : Site) (args : List TypeId) :
    SessionM TypeId := do
  let u ← getUniverse
  onTypes ((u.method id).callType (id.isSome && id = u.arrayClone) recv qualified site args)

/-- Whether an instance of the class of a frame is at hand: no code up to it is static, and
every class crossed has an enclosing instance. -/
def instanceReachable (s : TypeStore) : List Frame → Nat → Bool
  | [], _ => false
  | f :: _, 0 => !f.isStatic
  | f :: rest, i + 1 => !f.isStatic && (s.classInfo? f.type).any (·.isInner) && instanceReachable s rest i

/-- Checks that an instance method found in a frame can be called there. -/
def checkInstance (env : Env) (site : Site) (id : MethodId) (frame : Nat) : ResolveM Unit := do
  let u ← getUniverse
  if (u.method id).flags.isStatic then return
  if frame = 0 && (env.frame 0).inExplicitCtor then
    reject site .rejected .instanceMethodInExplicitCtor
      (s!"cannot invoke instance method {u.header id} of the object under construction"
        ++ " in an explicit constructor invocation")
  if !instanceReachable u.types env.frames frame then
    reject site .rejected .instanceMethodInStatic
      s!"cannot invoke instance method {u.header id} from a static context"

/-- Warns, when that is wanted, of an inherited method that hides one declared further out. -/
def checkScopingConflict (env : Env) (site : Site) (name : String) (id : MethodId) (frame : Nat) :
    SessionM Unit := do
  let st ← get
  let u := st.world
  let owner := (u.method id).owner
  if st.options.pedantic && owner ≠ u.types.classOf (env.frame frame).type then
    match (env.frames.drop (frame + 1)).find? fun f => !(u.overloads f.type name).isEmpty with
    | none => return
    | some f =>
      reportWarning .inheritanceScopingConflict site
        (s!"method {u.header id} is inherited from {u.className owner} and hides the method {name}"
          ++ s!" declared in enclosing {u.className f.type}")

/-! ## Static imports -/

/-- A method that a static import offers. -/
structure Imported where
  /-- The method. -/
  shadow : Shadow
  /-- The imported class. -/
  owner : TypeId
  deriving DecidableEq, Repr, Inhabited

/-- What was found among static imports. -/
structure ImportSearch where
  /-- The methods that take the number of arguments, one for each import at most. -/
  found : List Imported := []
  /-- The first imported class that has a static method of the name at all. -/
  named : TypeId := .none
  deriving DecidableEq, Repr, Inhabited

/-- Whether a method takes a number of arguments. -/
def arityFits (m : Method) (argc : Nat) : Bool :=
  if m.flags.isVariadic then m.params.length ≤ argc + 1 else argc = m.params.length

/-- Adds what an imported class offers: the first static method of the name that takes the
number of arguments. -/
def addImported (u : Universe) (argc : Nat) (acc : ImportSearch) (cls : TypeId) (shadows : List Shadow) :
    ImportSearch :=
  let statics := shadows.filter fun s =>
    (u.method s.method).isResolved && (u.method s.method).flags.isStatic
  let named := if acc.named.isSome || statics.isEmpty then acc.named else cls
  match statics.find? fun s => arityFits (u.method s.method) argc with
  | none => { acc with named }
  | some s =>
    if acc.found.any (·.shadow.method = s.method) then { acc with named }
    else { found := acc.found ++ [⟨s, cls⟩], named }

/-- Searches imported classes in order. -/
def searchImports (name : String) (argc : Nat) : ImportSearch → List StaticImport → UniverseM ImportSearch
  | acc, [] => return acc
  | acc, imp :: rest => do
    let shadows ← Universe.overloadsIn imp.type name
    let _ ← Universe.withSignature (shadows.map (·.method))
    searchImports name argc (addImported (← get) argc acc imp.type shadows) rest

/-- The methods that static imports offer. Imports of whole classes are searched only when
no import of a single member offers one. -/
def importedMethods (name : String) (argc : Nat) : SessionM ImportSearch := do
  let p := (← get).program
  let single ← onUniverse (searchImports name argc {} (p.singleImports.filter (·.name = name)))
  if single.found.isEmpty then onUniverse (searchImports name argc single p.classImports)
  else return single

/-- Reports the imported methods that stand beside the bound one. -/
def reportOtherImports (site : Site) (name : String) (first : Imported) (others : List Imported) :
    SessionM Unit :=
  others.forM fun other => do
    let u ← getUniverse
    let head := u.header other.shadow.method
    let d := Diagnostic.error .ambiguousMethod site.span
      (s!"reference to {name} is ambiguous: both {u.header first.shadow.method} in {u.className first.owner}"
        ++ s!" and {head} in {u.className other.owner} match")
    report (d.withCandidate (u.method other.shadow.method).decl head)

/-- The first phase in which a method applies, and whether it packs trailing arguments. -/
def firstPhase? (s : TypeStore) (f : Formals) (args : List TypeId) (phases : List Phase) :
    Option (Phase × Bool) :=
  phases.findSome? fun ph => (f.applicable s args ph).map (ph, ·)

/-- The phase in which an imported method within reach applies. -/
def importedPhase? (env : Env) (site : Site) (first : Imported) (args : List TypeId) :
    SessionM (Option (Phase × Bool)) := do
  let st ← get
  let m := st.world.method first.shadow.method
  if memberAccessible st.world.types env m first.owner none then
    let f ← onTypes (m.formals site.typeArgs)
    return firstPhase? (← getTypes) f args st.options.source.phases
  else return none

/-- Binds a call to the first method that static imports offer; the offered methods do not
compete. -/
def resolveImported (env : Env) (site : Site) (name : String) (args : List TypeId) : ResolveM Resolution := do
  let search ← importedMethods name args.length
  match search.found with
  | [] =>
    let code ← methodNotFound { env, site, name, args, search := search.named }
    failReported site .notFound code
  | first :: others =>
    match ← importedPhase? env site first args with
    | none =>
      let code ← methodNotFound { env, site, name, args, search := first.owner }
      failReported site .notFound code
    | some (phase, wrapped) =>
      let id := first.shadow.method
      reportOtherImports site name first others
      checkCallable env site id
      let type ← callType id first.owner true site args
      let throws ← callThrows env site first.shadow.conflicts id args
      return { state := .resolved, callable := id, type, phase, wrapped, throws }

/-! ## Calls by name alone -/

/-- Binds a call to what was selected in the frame that sees the name. -/
def bindLexical (env : Env) (site : Site) (name : String) (args : List TypeId) (frame : Nat) (f : Frame)
    (shadows : List Shadow) (sel : Selection) : ResolveM Resolution := do
  let id ← pick site sel .ambiguousMethod
  checkInstance env site id frame
  checkScopingConflict env site name id frame
  let target := bindTarget (← getUniverse) env shadows id f.type none
  checkCallable env site target
  let type ← callType target f.type false site args
  let lowered ← inUniverse (Universe.forwardUnqualified env site target frame)
  let throws ← callThrows env site (conflictsOf shadows id) target args
  return { state := .resolved, callable := target, type, phase := sel.phase, wrapped := sel.wrapped,
           lowered, throws }

/-- Binds a call after the frames around it were searched. -/
def bindSearched (env : Env) (site : Site) (name : String) (args : List TypeId) :
    Except TableFault (Option (Nat × Frame × List Shadow × Option Selection)) → ResolveM Resolution
  | .error e => throw { kind := .noTable, site := site.id, cause := some e.message }
  | .ok none => resolveImported env site name args
  | .ok (some (_, _, _, none)) => do
    let code ← methodNotFound { env, site, name, args }
    failReported site .notFound code
  | .ok (some (frame, f, shadows, some sel)) => bindLexical env site name args frame f shadows sel

/-- Binds a call by name alone. -/
def resolveUnqualified (env : Env) (site : Site) (name : String) (args : List TypeId) :
    ResolveM Resolution := do
  bindSearched env site name args (← selectLexically env site name args env.frames.zipIdx)

/-! ## Calls with a receiver -/

/-- The type that a call with a receiver searches. -/
def receiverType (st : Session) (recv : Expr) : TypeId :=
  match recv.form with
  | .typeName t => if t.isSome then t else st.exprType recv
  | _ => st.exprType recv

/-- Checks that the receiver has members. -/
def checkReceiver (site : Site) (name : String) (t : TypeId) : ResolveM Unit := do
  let s ← getTypes
  match s.shape t with
  | .bad | .absent => failSilently site .badReceiver
  | .null =>
    reject site .badReceiver .typeNotReference s!"cannot invoke method {name} on the null type"
  | .primitive _ | .void =>
    reject site .badReceiver .typeNotReference
      s!"cannot invoke method {name} on a value of primitive type {s.name t}"
  | _ => return

/-- Checks that a selected method fits the form of the receiver. -/
def checkReceiverForm (site : Site) (id : MethodId) (recv : Expr) (t : TypeId) : ResolveM Unit := do
  let u ← getUniverse
  let m := u.method id
  if recv.form.isTypeName && !m.flags.isStatic then
    reject site .rejected .instanceMethodViaType
      s!"instance method {u.header id} cannot be invoked through the type name {u.types.name t}"
  else if recv.form.isSuper && m.flags.isAbstract then
    reportError .abstractMethodViaSuper site
      s!"abstract method {u.header id} in {u.className m.owner} cannot be invoked through super"
  else if !recv.form.isTypeName && m.flags.isStatic then
    reportWarning .staticMethodViaInstance site
      (s!"static method {u.header id} should be invoked through the type {u.className m.owner},"
        ++ " not an instance")

/-- The type whose members a receiver has: a type variable stands for its erasure. -/
def searchedType (recvType : TypeId) : SessionM TypeId := do
  if ((← getTypes).shape recvType).isVariable then onTypes (TypeStore.erasure recvType)
  else return recvType

/-- Binds a call with a receiver. -/
def resolveQualified (env : Env) (site : Site) (name : String) (recv : Expr) (args : List TypeId) :
    ResolveM Resolution := do
  let st ← get
  let recvType := st.receiverType recv
  checkReceiver site name recvType
  let search ← searchedType recvType
  let q : Option Qualifier := some ⟨st.exprType recv, recv.form.isSuper⟩
  match ← inUniverse (Universe.memberTable search) with
  | .error e => throw { kind := .noTable, site := site.id, cause := some e.message }
  | .ok table =>
    let shadows := table.overloads name
    match ← selectMethod env site search q shadows args with
    | none =>
      let code ← methodNotFound { env, site, name, args, qualifier := q, receiver := recvType, search }
      failReported site .notFound code
    | some sel =>
      let id ← pick site sel .ambiguousMethod
      checkReceiverForm site id recv recvType
      let target := bindTarget (← getUniverse) env shadows id search q
      checkCallable env site target
      let type ← callType target recvType true site args
      let lowered ← inUniverse (Universe.forwardQualified env site target recv recvType)
      let throws ← callThrows env site (conflictsOf shadows id) target args
      return { state := .resolved, callable := target, type, phase := sel.phase, wrapped := sel.wrapped,
               lowered, throws }

/-- Binds a method call. -/
def resolveMethod (env : Env) (site : Site) (name : String) (recv : Option Expr) : ResolveM Resolution := do
  let args ← argTypes site
  match recv with
  | none => resolveUnqualified env site name args
  | some recv => resolveQualified env site name recv args

end CallResolution.Session
