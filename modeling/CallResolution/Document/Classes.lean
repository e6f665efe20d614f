import CallResolution.Document.Loader
import CallResolution.Text.Words

/-!
# Class declarations

All classes are registered first, so that headers and members can refer to classes that are
declared later. Then come type variables, headers, and members. A class that inherits from
itself is reported, and its header is cut back.
-/

namespace CallResolution.Loader

open Source Text

/-! ## Registering -/

/-- The marks that a kind of class brings. -/
def kindFlags? : String → Option ClassFlags
  | "" | "class" => some {}
  | "interface" => some { isInterface := true, isAbstract := true }
  | "enum" => some { isEnum := true, isFinal := true }
  | _ => none

/-- Sets the mark with a name. -/
def addClassFlag? (f : ClassFlags) : String → Option ClassFlags
  | "abstract" => some { f with isAbstract := true }
  | "final" => some { f with isFinal := true }
  | "static" => some { f with isStatic := true }
  | "deprecated" => some { f with isDeprecated := true }
  | "synthetic" => some { f with isSynthetic := true }
  | "local" => some { f with isLocal := true }
  | "anonymous" => some { f with isAnonymous := true }
  | _ => none

/-- Splits a text at the last occurrence of a character. -/
def splitLast? (c : Char) (s : String) : Option (String × String) :=
  let cs := s.toList
  let tail := (cs.reverse.takeWhile (· ≠ c)).reverse
  if tail.length = cs.length then none
  else some (String.ofList (cs.take (cs.length - tail.length - 1)), String.ofList tail)

/-- What a declared class name says. -/
structure ClassName where
  /-- The package. -/
  package : String
  /-- The simple name. -/
  name : String
  /-- The class around it. -/
  outer : TypeId := .none
  /-- Whether the class is local. -/
  isLocal : Bool := false
  deriving DecidableEq, Repr, Inhabited

/-- The ways to split a name at one of its points, from the right to the left, with something
before the point. -/
def splitsAt (c : Char) : Nat → String → List (String × String)
  | 0, _ => []
  | fuel + 1, s =>
    match splitLast? c s with
    | none => []
    | some (head, tail) =>
      if head = "" then []
      else (head, tail) :: (splitsAt c fuel head).map fun (h, t) => (h, t ++ String.singleton c ++ tail)

/-- What the name of a class that is not a member class says. A dollar sign names a local
class of a declared class; a point behind the name of a declared class names a member class of
it, and any other point ends the name of a package. -/
def className? (s : TypeStore) (name : String) : Option ClassName :=
  match (splitLast? '$' name).filter (·.1 ≠ "") with
  | some (host, simple) => do
    let outer ← s.classNamed? host
    return ⟨s.packageOf outer, simple, outer, true⟩
  | none =>
    let splits := splitsAt '.' name.length name
    let nested := splits.findSome? fun (host, simple) => (s.classNamed? host).map (·, simple)
    match nested, splits with
    | some (outer, simple), _ => some ⟨s.packageOf outer, simple, outer, false⟩
    | none, (package, simple) :: _ => some { package, name := simple }
    | none, [] => some { package := "", name }

/-- What the name of a declared class says, with problems reported. -/
def nameOf (d : ClassBody) (outer : TypeId) : LoadM (Option ClassName) := do
  let s ← getTypes
  if outer.isSome then
    if d.name.toList.any fun c => c = '.' || c = '$' then
      fault .badMember d.place d.name s!"member class {d.name} must use a simple name"
      return none
    else return some { package := s.packageOf outer, name := d.name, outer }
  else
    match className? s d.name with
    | some n => return some n
    | none =>
      fault .unknownType d.place d.name s!"enclosing class of {d.name} is not declared"
      return none

/-- Sets the named marks of a class, with unknown ones reported. -/
def classFlags (d : ClassBody) : ClassFlags → List String → LoadM ClassFlags
  | f, [] => return f
  | f, name :: names => do
    match addClassFlag? f name with
    | some f => classFlags d f names
    | none =>
      fault .badMember d.place d.name s!"unknown class flag {quote name} on {d.name}"
      classFlags d f names

/-- The marks of a kind of class, with an unknown kind reported. -/
def kindOf (d : ClassBody) : LoadM ClassFlags := do
  match kindFlags? d.kind with
  | some f => return f
  | none =>
    fault .badMember d.place d.name s!"unknown class kind {quote d.kind}"
    return {}

/-- Registers one class. -/
def registerOne (d : ClassBody) (outer : TypeId) : LoadM (Option TypeId) := do
  if d.name = "" then
    fault .badMember d.place "" "class declaration needs a name"
    return none
  let decl ← span d.place d.name
  match ← nameOf d outer with
  | none => return none
  | some n =>
    let kind ← kindOf d
    let flags ← classFlags d { kind with isLocal := n.isLocal } d.flags
    let access ← accessOf d.access d.place d.name s!"unknown access {quote d.access} on {d.name}"
    let info : ClassInfo := { name := n.name, package := n.package, outer := n.outer, flags, access, decl }
    match ← onTypes (TypeStore.registerClass info) with
    | .ok id =>
      modify fun l => { l with classes := l.classes ++ [{ id, decl := d }] }
      return some id
    | .error prev =>
      let s ← getTypes
      let taken := Diagnostic.error .duplicateClass decl s!"class {s.qualifiedOf info} already declared"
      let prevDecl := (s.classInfo? prev).elim Span.none (·.decl)
      onUniverse (Universe.report (taken.withNote prevDecl "previous declaration"))
      return none

mutual

/-- Registers a class and its member classes. -/
def register (outer : TypeId) : ClassDecl → LoadM Unit
  | .mk body classes => do
    match ← registerOne body outer with
    | some id => registerAll id classes
    | none => return

/-- Registers classes in order. -/
def registerAll (outer : TypeId) : List ClassDecl → LoadM Unit
  | [] => return
  | c :: cs => do
    register outer c
    registerAll outer cs

end

/-! ## Type variables -/

/-- Registers the type variables of a class from the `index`-th one on. -/
def declareParams (c : DeclaredClass) : (index : Nat) → List String → LoadM (List (TypeId × TypeParamExpr))
  | _, [] => return []
  | index, src :: rest => do
    match TypeExpr.parseParam src with
    | .error f =>
      typeFault (.malformed src f) src c.decl.place
      declareParams c (index + 1) rest
    | .ok decl =>
      let v ← onTypes do
        let v ← TypeStore.registerVariable { name := decl.name, index, owner := c.id }
        modify (·.modifyClass c.id fun info => { info with typeParams := info.typeParams ++ [v] })
        return v
      return (v, decl) :: (← declareParams c (index + 1) rest)

/-- Registers the type variables of classes. -/
def declareAllParams : List DeclaredClass → LoadM (List DeclaredClass)
  | [] => return []
  | c :: cs => do
    let params ← declareParams c 0 c.decl.typeParams
    return { c with params } :: (← declareAllParams cs)

/-! ## Headers -/

/-- Resolves bounds, leaving out those with a problem. -/
def boundsOf (sc : Scope) (p : Place) : List TypeExpr → LoadM (List TypeId)
  | [] => return []
  | b :: bs => do
    match ← typeOfExpr b sc b.text p with
    | some id => return id :: (← boundsOf sc p bs)
    | none => boundsOf sc p bs

/-- Sets the bounds of the type variables of a class. -/
def setBounds (sc : Scope) (p : Place) : List (TypeId × TypeParamExpr) → LoadM Unit
  | [] => return
  | (v, decl) :: rest => do
    if !decl.bounds.isEmpty then
      let bounds ← boundsOf sc p decl.bounds
      onTypes (modify (·.setBounds v bounds))
    setBounds sc p rest

/-- The superclass of a class that names none. -/
def defaultSuper (c : DeclaredClass) (info : ClassInfo) : TypeM TypeId :=
  if info.flags.isInterface then pure .none
  else if info.flags.isEnum then TypeStore.apply .enum [.exact c.id]
  else pure .object

/-- The superclass of a class. One that cannot be a superclass is reported. -/
def superOf (c : DeclaredClass) (info : ClassInfo) (sc : Scope) : LoadM TypeId := do
  let d := c.decl
  let fallback ← onTypes (defaultSuper c info)
  if d.super = "" then return fallback
  match ← classOf? d.super sc d.place with
  | none => return fallback
  | some id =>
    let flags := ((← getTypes).classInfo? id).elim {} (·.flags)
    let refuse (msg : String) : LoadM TypeId := do
      fault .badMember d.place d.name msg
      return fallback
    if info.flags.isInterface then
      refuse s!"interface {d.name} cannot extend class {d.super}; list it under interfaces"
    else if flags.isInterface then refuse s!"{d.name} cannot extend interface {d.super}"
    else if flags.isFinal then refuse s!"{d.name} cannot extend final class {d.super}"
    else return id

/-- The interfaces of a class, without what is no interface. -/
def interfacesOf (d : ClassBody) (sc : Scope) : List String → LoadM (List TypeId)
  | [] => return []
  | src :: rest => do
    match ← classOf? src sc d.place with
    | none => interfacesOf d sc rest
    | some id =>
      if ((← getTypes).classInfo? id).any (·.flags.isInterface) then
        return id :: (← interfacesOf d sc rest)
      else
        fault .badMember d.place d.name s!"{src} is not an interface"
        interfacesOf d sc rest

/-- Resolves the header of a class. -/
def resolveHeader (c : DeclaredClass) : LoadM Unit := do
  let sc : Scope := { cls := c.id }
  setBounds sc c.decl.place c.params
  match (← getTypes).classInfo? c.id with
  | none => return
  | some info =>
    let super ← superOf c info sc
    onTypes (modify (·.modifyClass c.id ({ · with super })))
    let interfaces ← interfacesOf c.decl sc c.decl.interfaces
    onTypes (modify (·.modifyClass c.id ({ · with interfaces })))

/-- Whether a class inherits from itself. -/
def isCyclic (s : TypeStore) (cls : TypeId) : Bool :=
  s.searchUp cls (s.shapes.size + 1) [cls] [cls]

/-- The header of a class in a cycle: the root class alone, or nothing for an interface. -/
def cutHeader (info : ClassInfo) : ClassInfo :=
  { info with super := if info.flags.isInterface then .none else .object, interfaces := [] }

/-- Reports the classes that inherit from themselves and cuts their headers back. -/
def breakCycles (classes : List DeclaredClass) : LoadM Unit := do
  let s ← getTypes
  (classes.filter fun c => isCyclic s c.id).forM fun c => do
    fault .cyclicHierarchy c.decl.place c.decl.name
      s!"cyclic inheritance involving {(← getTypes).qualifiedName c.id}"
    onTypes (modify (·.modifyClass c.id cutHeader))

/-! ## Members -/

/-- Adds a field. -/
def declareField (cls : TypeId) (info : ClassInfo) (d : FieldDecl) : LoadM Unit := do
  if d.name = "" || d.type = "" then
    fault .badMember d.place "" "field needs a name and a type"
  else
    let access ← accessOf d.access d.place d.name s!"unknown access {quote d.access} on field {d.name}"
    let type ← typeOf d.type { cls } d.place
    let fixed := info.flags.isInterface
    let _ ← onUniverse <| Universe.addField
      { name := d.name, owner := cls, type, access := if fixed then .pub else access,
        flags := { isStatic := d.isStatic || fixed, isFinal := d.isFinal || fixed } }

/-- Sets the mark with a name. Constructors are neither static nor abstract. -/
def addMethodFlag? (kind : CallableKind) (f : MethodFlags) : String → Option MethodFlags
  | "static" => if kind = .constructor then none else some { f with isStatic := true }
  | "abstract" => if kind = .constructor then none else some { f with isAbstract := true }
  | "final" => some { f with isFinal := true }
  | "synthetic" => some { f with isSynthetic := true }
  | "bridge" => some { f with isBridge := true, isSynthetic := true }
  | "deprecated" => some { f with isDeprecated := true }
  | "default" => some { f with isDefault := true }
  | _ => none

/-- Sets the named marks of a callable, with those that are not allowed reported. -/
def methodFlags (kind : CallableKind) (p : Place) (shown : String) : MethodFlags → List String → LoadM MethodFlags
  | f, [] => return f
  | f, name :: names => do
    match addMethodFlag? kind f name with
    | some f => methodFlags kind p shown f names
    | none =>
      fault .badMember p shown s!"flag {quote name} not allowed on {shown}"
      methodFlags kind p shown f names

/-- Whether the last of some parameter texts ends in three dots. -/
def endsVariadic (params : List String) : Bool :=
  match params.getLast? with
  | some p => (trimBlanks p).endsWith "..."
  | none => false

/-- The access of a callable: everything in an interface is public, and constructors of
enumerations are private unless an access is given. -/
def memberAccess (info : ClassInfo) (kind : CallableKind) (modifier : String) (given : Access) : Access :=
  if info.flags.isInterface then .pub
  else if kind = .constructor && info.flags.isEnum && modifier = "" then .priv
  else given

/-- The marks of a callable, with those that its class and its parameters bring. -/
def memberFlags (info : ClassInfo) (params : List String) (f : MethodFlags) : MethodFlags :=
  { f with
    isVariadic := endsVariadic params
    isAbstract := f.isAbstract || (info.flags.isInterface && !f.isStatic && !f.isDefault)
    isDeprecated := f.isDeprecated || info.flags.isDeprecated }

/-- Adds a method or constructor whose signature is processed later. -/
def declareMethod (cls : TypeId) (info : ClassInfo) (kind : CallableKind) (d : MethodDecl) : LoadM Unit := do
  let shown := if kind = .constructor then info.name else d.name
  if shown = "" && kind = .method then
    fault .badMember d.place "" "method needs a name"
  else
    let given ← accessOf d.access d.place shown s!"unknown access {quote d.access} on {shown}"
    let flags ← methodFlags kind d.place shown {} d.flags
    let decl ← span d.place shown
    let _ ← onUniverse <| Universe.addMethod
      { name := d.name, owner := cls, kind, access := memberAccess info kind d.access given
        flags := memberFlags info d.params flags, decl
        signature := .pending
          { name := d.name, typeParams := d.typeParams, params := d.params, returns := d.returns,
            throws := d.throws } }

/-- Adds the constructor that a class without declared ones has. -/
def addDefaultCtor (cls : TypeId) (info : ClassInfo) : LoadM Unit := do
  let _ ← onUniverse <| Universe.addMethod
    { name := constructorName, owner := cls, kind := .constructor
      access := if info.flags.isEnum then .priv else info.access
      returns := .void, decl := info.decl }

/-- Adds the constructors of a class. -/
def declareCtors (cls : TypeId) (info : ClassInfo) (d : ClassBody) : LoadM Unit := do
  if info.flags.isInterface then
    if !d.constructors.isEmpty then
      fault .badMember d.place d.name s!"interface {d.name} cannot declare constructors"
  else if d.constructors.isEmpty then addDefaultCtor cls info
  else d.constructors.forM (declareMethod cls info .constructor)

/-- Adds one declared capture of a local class. -/
def declareCapture (cls : TypeId) (d : ClassBody) (src : String) : LoadM Unit := do
  match ← localOf src { cls } d.place with
  | none => return
  | some (name, type) =>
    if ((← get).world.captureOf? cls name).isSome then
      let s ← span d.place d.name
      let shown := (← getTypes).qualifiedName cls
      onUniverse (Universe.report (.warning .duplicateCapture s
        s!"local variable {name} is already captured by {shown}"))
    else
      match ← onUniverse (Universe.addCapture cls name type) with
      | some _ => return
      | none => fault .badMember d.place d.name s!"capture {name}: {Universe.captureFault}"

/-- Adds the declared captures of a class. -/
def declareCaptures (cls : TypeId) (info : ClassInfo) (d : ClassBody) : LoadM Unit := do
  if d.captures.isEmpty then return
  if info.flags.isLocal then d.captures.forM (declareCapture cls d)
  else fault .badMember d.place d.name s!"{d.name} is not a local class and cannot capture locals"

/-- Adds the members of a class. -/
def declareMembers (c : DeclaredClass) : LoadM Unit := do
  match (← getTypes).classInfo? c.id with
  | none => return
  | some info =>
    c.decl.fields.forM (declareField c.id info)
    c.decl.methods.forM (declareMethod c.id info .method)
    declareCtors c.id info c.decl
    if info.flags.isEnum then onUniverse (Universe.addEnumSupport c.id)
    declareCaptures c.id info c.decl

/-- Declares the classes of a document with their headers. -/
def declareHeaders (decls : List ClassDecl) : LoadM (List DeclaredClass) := do
  registerAll .none decls
  let classes ← declareAllParams (← get).classes
  modify ({ · with classes })
  classes.forM resolveHeader
  breakCycles classes
  return classes

/-- Builds the universe of a document. -/
def buildUniverse (decls : List ClassDecl) : LoadM Unit := do
  let classes ← declareHeaders decls
  classes.forM declareMembers

end CallResolution.Loader
