import CallResolution.Resolve.Competing
import CallResolution.Text.Spelling

/-!
# Explaining calls that nothing matches

A call that nothing matches gets one diagnostic. The explanations are tried in a fixed order,
and the first one that fits is reported.
-/

namespace CallResolution.Session

open Text

/-- A call for which no method was found. -/
structure Unmatched where
  /-- The classes around the call. -/
  env : Env
  /-- The call site. -/
  site : Site
  /-- The name of the method. -/
  name : String
  /-- The argument types. -/
  args : List TypeId
  /-- The receiver as far as access is concerned, none for a call by name alone. -/
  qualifier : Option Qualifier := none
  /-- The type that the receiver denotes. -/
  receiver : TypeId := .none
  /-- The type that was searched; none when the classes around the call were. -/
  search : TypeId := .none
  deriving Repr, Inhabited

namespace Unmatched

/-- The types that were searched. -/
def scopes (x : Unmatched) : List TypeId :=
  if x.search.isSome then [x.search] else x.env.frames.map (·.type)

/-- The call in messages. -/
def header (x : Unmatched) (s : TypeStore) : String :=
  callHeader s x.name x.args

end Unmatched

/-- How far two numbers are apart. -/
def distance (a b : Nat) : Nat :=
  (a - b) + (b - a)

/-- The callable whose number of parameters is nearest to a number, the first of several. -/
def nearestArity (u : Universe) (argc : Nat) : List MethodId → Option MethodId
  | [] => none
  | id :: ids =>
    match nearestArity u argc ids with
    | none => some id
    | some best =>
      if distance argc (u.method best).params.length < distance argc (u.method id).params.length then some best
      else some id

/-- The first frame from a place on whose class has methods of a name, with its place and
these methods. -/
def seeing (name : String) : List (Frame × Nat) →
    UniverseM (Except TableFault (Option (Nat × Frame × List Shadow)))
  | [] => return .ok none
  | (f, i) :: rest => do
    match ← Universe.memberTable f.type with
    | .error e => return .error e
    | .ok table =>
      match table.overloads name with
      | [] => seeing name rest
      | shadows => return .ok (some (i, f, shadows))

/-- The innermost frame whose class has methods of a name, tables that are missing counting as
empty. -/
def innermostSeeing (name : String) : List (Frame × Nat) → UniverseM (Option (Frame × Nat))
  | [] => return none
  | (f, i) :: rest => do
    match ← Universe.overloadsIn f.type name with
    | [] => innermostSeeing name rest
    | _ => return some (f, i)

/-- Lets the methods of the first frame that sees the name compete, and gives the frame with
what is selected. -/
def selectLexically (env : Env) (site : Site) (name : String) (args : List TypeId)
    (frames : List (Frame × Nat)) :
    SessionM (Except TableFault (Option (Nat × Frame × List Shadow × Option Selection))) := do
  match ← onUniverse (seeing name frames) with
  | .error e => return .error e
  | .ok none => return .ok none
  | .ok (some (i, f, shadows)) =>
    return .ok (some (i, f, shadows, ← selectMethod env site f.type none shadows args))

/-- Searches outside the frame that sees the name for a method that would apply. -/
def hiddenBehind (x : Unmatched) : List (Frame × Nat) → SessionM (Option (Frame × MethodId))
  | [] => return none
  | frames@(_ :: rest) => do
    match ← selectLexically x.env x.site x.name x.args frames with
    | .ok (some (_, f, _, some sel)) => return some (f, sel.first)
    | _ => hiddenBehind x rest

/-- A method of a class further out applies, but an inner class has methods of the same name.
-/
def explainHidden (x : Unmatched) : SessionM (Option Code) := do
  if x.search.isSome then return none
  match ← onUniverse (innermostSeeing x.name x.env.frames.zipIdx) with
  | none => return none
  | some (inner, i) =>
    match ← hiddenBehind x (x.env.frames.zipIdx.drop (i + 1)) with
    | none => return none
    | some (f, id) =>
      let u ← getUniverse
      reportError .hiddenByEnclosing x.site
        (s!"method {u.header id} of the enclosing type {u.className f.type} is hidden by the method {x.name}"
          ++ s!" declared in {u.className inner.type}")
      return some .hiddenByEnclosing

/-- The searched type has methods of the name within reach, but none applies. -/
def explainOverload (x : Unmatched) (scope : TypeId) : SessionM (Option Code) := do
  let shadows ← onUniverse (Universe.overloadsIn scope x.name)
  let shadows ← onUniverse (Universe.competingMethods x.env scope x.qualifier shadows)
  let u ← getUniverse
  match nearestArity u x.args.length (shadows.map (·.method)) with
  | none => return none
  | some best =>
    let m := u.method best
    let head := u.header best
    let d := Diagnostic.error .methodOverloadNotFound x.site.span
      s!"method {head} in {u.className m.owner} cannot be applied to {x.header u.types}"
    report (d.withCandidate m.decl head)
    return some .methodOverloadNotFound

/-- The searched type has a field of the name, and the call has no arguments. -/
def explainField (x : Unmatched) (scope : TypeId) : SessionM (Option Code) := do
  if !x.args.isEmpty then return none
  match ← onUniverse (Universe.memberTable scope) with
  | .error _ => return none
  | .ok table =>
    let u ← getUniverse
    match (table.field? x.name).bind u.field? with
    | none => return none
    | some f =>
      if fieldAccessible u.types x.env f then
        reportError .fieldNotMethod x.site s!"{x.name} is a field of {u.className f.owner}, not a method"
        return some .fieldNotMethod
      else return none

/-- A type and its superclasses, up to a number of them. -/
def superChain (s : TypeStore) : Nat → TypeId → List TypeId
  | 0, _ => []
  | n + 1, t => if t.isSome then t :: superChain s n (s.superClass t) else []

/-- The first method of a name that accepts the arguments, among the tables of several
classes. -/
def firstAccepting (name : String) (args : List TypeId) : List TypeId → UniverseM (Option MethodId)
  | [] => return none
  | t :: ts => do
    let ids := (← Universe.overloadsIn t name).map (·.method)
    let _ ← Universe.withSignature ids
    let u ← get
    match ids.find? fun id => (u.method id).isResolved && u.types.convertsAll args (u.method id).params with
    | some id => return some id
    | none => firstAccepting name args ts

/-- The searched type or a superclass has a method that accepts the arguments, but it is out
of reach. -/
def explainInaccessible (x : Unmatched) (scope : TypeId) : SessionM (Option Code) := do
  let chain := superChain (← getTypes) 32 scope
  match ← onUniverse (firstAccepting x.name x.args chain) with
  | none => return none
  | some id =>
    let u ← getUniverse
    let m := u.method id
    let head := u.header id
    let owner := u.className m.owner
    if x.qualifier.isSome && m.access = .prot && u.types.isInterface x.receiver then
      reportError .protectedInterfaceMethod x.site
        s!"protected method {head} of {owner} cannot be invoked through the interface {u.types.name x.receiver}"
      return some .protectedInterfaceMethod
    else if m.access = .prot && !m.flags.isStatic && x.env.inherits u.types m.owner then
      reportError .protectedWrongQualifier x.site
        s!"protected method {head} of {owner} cannot be invoked through a qualifier of type {u.types.name scope}"
      return some .protectedWrongQualifier
    else
      reportError .methodNotAccessible x.site
        s!"method {head} in {owner} is {m.access.name} and not accessible from {u.className x.env.this}"
      return some .methodNotAccessible

/-- The first of the scored methods that has the highest score. -/
def bestScored : List (MethodId × Nat) → Option (MethodId × Nat)
  | [] => none
  | (id, n) :: rest =>
    match bestScored rest with
    | some (best, m) => if n < m then some (best, m) else some (id, n)
    | none => some (id, n)

/-- The methods of a type that accept the arguments, each with the closeness of its name to
the called one. -/
def scoredMethods (x : Unmatched) (scope : TypeId) : List (String × List Shadow) →
    UniverseM (List (MethodId × Nat))
  | [] => return []
  | (cand, shadows) :: rest => do
    let shadows ← Universe.competingMethods x.env scope x.qualifier shadows
    let u ← get
    let fits := shadows.filter fun s => u.types.convertsAll x.args (u.method s.method).params
    let score := closeness x.name cand
    return fits.map (fun s => (s.method, score)) ++ (← scoredMethods x scope rest)

/-- The searched type has a method with a similar name that accepts the arguments. -/
def explainMisspelling (x : Unmatched) (scope : TypeId) : SessionM (Option Code) := do
  match ← onUniverse (Universe.memberTable scope) with
  | .error _ => return none
  | .ok table =>
    let scored ← onUniverse (scoredMethods x scope table.methods)
    match bestScored scored with
    | none => return none
    | some (id, score) =>
      if isMisspelling x.name score x.args.length then
        let u ← getUniverse
        reportError .methodNameMisspelled x.site
          (s!"method {x.header u.types} was not found in {u.types.name scope};"
            ++ s!" did you mean {u.header id}?")
        return some .methodNameMisspelled
      else return none

/-- The class around a call, or a member class of what it inherits from, with a simple name.
-/
def frameType? (s : TypeStore) (name : String) (f : Frame) : Option TypeId :=
  let cls := s.classOf f.type
  if simpleName s cls = name then some cls
  else s.classIds.find? fun c =>
    (s.classInfo? c).any fun info =>
      info.name = name && info.outer.isSome && !info.flags.isAnonymous && s.isSubclass cls info.outer

/-- The type that a simple name denotes in the code around a call. -/
def typeInScope? (s : TypeStore) (env : Env) (name : String) : Option TypeId :=
  let pkg := s.packageOf env.this
  (env.frames.findSome? (frameType? s name))
    <|> s.classNamed? (if pkg = "" then name else pkg ++ "." ++ name)
    <|> s.classNamed? (langPackage ++ "." ++ name)

/-- The name denotes a type. -/
def explainType (x : Unmatched) : SessionM (Option Code) := do
  let s ← getTypes
  match typeInScope? s x.env x.name with
  | none => return none
  | some t =>
    reportError .typeNotMethod x.site s!"{s.name t} is a type, not a method"
    return some .typeNotMethod

/-- There is no method of the name at all. -/
def explainMissing (x : Unmatched) : SessionM Code := do
  let s ← getTypes
  let place := if x.search.isSome then x.search else x.env.this
  reportError .methodNotFound x.site s!"no method named {x.header s} was found in type {s.name place}"
  return .methodNotFound

/-- The first explanation that fits. -/
def firstFitting : List (SessionM (Option Code)) → SessionM Code → SessionM Code
  | [], last => last
  | x :: xs, last => do
    match ← x with
    | some code => return code
    | none => firstFitting xs last

/-- Reports why no method was found and gives the code of the report. -/
def methodNotFound (x : Unmatched) : SessionM Code :=
  firstFitting
    ([explainHidden x]
      ++ x.scopes.map (explainOverload x)
      ++ x.scopes.map (explainField x)
      ++ x.scopes.map (explainInaccessible x)
      ++ x.scopes.map (explainMisspelling x)
      ++ [explainType x])
    (explainMissing x)

/-- A constructor call for which no constructor was found. -/
structure UnmatchedCtor where
  /-- The classes around the call. -/
  env : Env
  /-- The call site. -/
  site : Site
  /-- The class. -/
  cls : TypeId
  /-- The argument types. -/
  args : List TypeId
  /-- Whether it is an explicit constructor call or the creation of an anonymous class. -/
  isExplicit : Bool
  deriving Repr, Inhabited

/-- The call in messages. -/
def UnmatchedCtor.header (x : UnmatchedCtor) (s : TypeStore) : String :=
  callHeader s (simpleName s x.cls) x.args

/-- The class has constructors within reach, but none applies. -/
def explainCtorOverload (x : UnmatchedCtor) : SessionM (Option Code) := do
  let ctors ← onUniverse (Universe.competingCtors x.env x.cls x.isExplicit)
  let u ← getUniverse
  match nearestArity u x.args.length ctors with
  | none => return none
  | some best =>
    let head := u.header best
    let d := Diagnostic.error .constructorOverloadNotFound x.site.span
      s!"constructor {head} in {u.className x.cls} cannot be applied to {x.header u.types}"
    report (d.withCandidate (u.method best).decl head)
    return some .constructorOverloadNotFound

/-- The class has a constructor that accepts the arguments, but it is out of reach. -/
def explainCtorInaccessible (x : UnmatchedCtor) : SessionM (Option Code) := do
  let ctors := (← getUniverse).constructors x.cls
  let _ ← onUniverse (Universe.withSignature ctors)
  let u ← getUniverse
  match ctors.find? fun id => (u.method id).isResolved && u.types.convertsAll x.args (u.method id).params with
  | none => return none
  | some id =>
    reportError .constructorNotAccessible x.site
      (s!"constructor {u.header id} in {u.className x.cls} is {(u.method id).access.name}"
        ++ s!" and not accessible from {u.className x.env.this}")
    return some .constructorNotAccessible

/-- The first of some callables with a sound signature that accepts the arguments, where
signatures are processed one after the other. -/
def firstFit (args : List TypeId) : List MethodId → UniverseM (Option MethodId)
  | [] => return none
  | id :: ids => do
    if ← Universe.signature id then
      let u ← get
      if u.types.convertsAll args (u.method id).params then return some id else firstFit args ids
    else firstFit args ids

/-- The class has a method with its own name that accepts the arguments. -/
def explainCtorMethod (x : UnmatchedCtor) : SessionM (Option Code) := do
  let u ← getUniverse
  match ← onUniverse (firstFit x.args (u.overloads x.cls (simpleName u.types x.cls))) with
  | none => return none
  | some id =>
    let u ← getUniverse
    reportError .methodFoundForConstructor x.site
      s!"{u.header id} in {u.className x.cls} is a method, not a constructor"
    return some .methodFoundForConstructor

/-- The class has no constructor that could be meant. -/
def explainCtorMissing (x : UnmatchedCtor) : SessionM Code := do
  let u ← getUniverse
  reportError .constructorNotFound x.site
    s!"no constructor {x.header u.types} was found in type {u.className x.cls}"
  return .constructorNotFound

/-- Reports why no constructor was found and gives the code of the report. -/
def ctorNotFound (x : UnmatchedCtor) : SessionM Code :=
  firstFitting [explainCtorOverload x, explainCtorInaccessible x, explainCtorMethod x] (explainCtorMissing x)

end CallResolution.Session
