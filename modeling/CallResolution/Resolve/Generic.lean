import CallResolution.Resolve.Applicable

/-!
# Types of generic calls

The static type of a call. The type variables of a generic method are replaced by explicit
type arguments, or by what the arguments of the call suggest; a result that is a type variable
of the declaring class is replaced by what the receiver supplies for it.
-/

namespace CallResolution

/-- What a type argument supplies for a variable: a type, or the upper bound of a wildcard. -/
def TypeArg.supplied? (a : TypeArg) : Option TypeId :=
  match a.wildcard with
  | .none | .extends => if a.type.isSome then some a.type else none
  | _ => none

namespace TypeStore

/-- How many supertypes are followed in the search for a parameterization. -/
def supertypeDepth : Nat := 33

/-- A primitive type as its wrapper class, and any other type as it is. -/
def boxed (s : TypeStore) (t : TypeId) : TypeId :=
  if s.isPrimitive t && (s.box t).isSome then s.box t else t

/-- Searches a type and its supertypes for a parameterization of a class, with type arguments
carried along. The class without arguments is no parameterization. -/
def parameterizationWithin (owner : TypeId) : Nat → TypeId → TypeM (Option TypeId)
  | 0, _ => return none
  | depth + 1, t => do
    let s ← get
    match s.shape t with
    | .typeVar _ =>
      match ((s.typeVariable? t).elim [] (·.bounds)).head? with
      | some b => parameterizationWithin owner depth b
      | none => return none
    | shape =>
      let cls := s.classOf t
      if !cls.isSome then return none
      else if cls = owner then return if shape.isDeclared then none else some t
      else
        let params := (s.classInfo? cls).elim [] (·.typeParams)
        (s.directSupertypes cls).findSomeM? fun up => do
          parameterizationWithin owner depth (← subst up params (s.argsOf t))

/-- The parameterization of a class that a type is or inherits from. -/
def parameterizationOf (t owner : TypeId) : TypeM (Option TypeId) :=
  parameterizationWithin owner supertypeDepth t

/-- Reads what the type of an argument supplies for a variable that stands inside a
parameterized formal type, with formal type arguments followed to a depth. -/
def matchWithin (var : TypeId) : Nat → (formal arg : TypeId) → TypeM (Option TypeId)
  | 0, _, _ => return none
  | depth + 1, formal, arg => do
    match (← get).shape formal with
    | .applied base want =>
      match ← parameterizationOf arg base with
      | none => return none
      | some p =>
        (want.zip ((← get).argsOf p)).findSomeM? fun (w, g) => do
          if w.wildcard ≠ .none && w.wildcard ≠ .extends then return none
          else if w.type = var then return g.supplied?
          else if (← get).mentions w.type var && g.type.isSome then matchWithin var depth w.type g.type
          else return none
    | _ => return none

/-- Reads what the type of an argument supplies for a variable inside a formal type. The type
arguments of a type have smaller numbers than the type, so its number bounds their depth. -/
def matchArg (var formal arg : TypeId) : TypeM (Option TypeId) :=
  matchWithin var (formal.index + 1) formal arg

/-- Reads what the type of an argument supplies for a variable that is the formal type, or its
element type. -/
def matchDirect (var formal arg : TypeId) : TypeM (Option TypeId) := do
  let s ← get
  if s.baseElem formal ≠ var then return none
  match ← stripDims arg (s.dimsOf formal) with
  | none => return none
  | some t => if s.isNull t || s.isBad t then return none else return some (s.boxed t)

/-- The type that stands for a type variable of the declaring class in the view of a receiver.
-/
def ownerArgument (var : TypeId) (index : Nat) (p : TypeId) : TypeM (Option TypeId) := do
  let s ← get
  match (s.argsOf p)[index]? with
  | none => return none
  | some a =>
    match a.supplied? with
    | none => return some (← erasure var)
    | some t => if (s.shape t).isVariable then return some (← erasure t) else return some t

/-- Replaces a result that is a type variable of the declaring class, possibly with array
dimensions, by what the receiver supplies for it. Other results stay. A receiver that supplies
nothing leaves the erasure, and in a call without a receiver the variable itself. -/
def substOwner (ret owner recv : TypeId) (qualified : Bool) : TypeM TypeId := do
  let s ← get
  let var := s.baseElem ret
  match s.typeVariable? var with
  | none => return ret
  | some v =>
    if v.method ≠ 0 || v.owner ≠ owner then return ret
    match ← parameterizationOf recv owner with
    | none => if qualified then erasure ret else return ret
    | some p =>
      match ← ownerArgument var v.index p with
      | none => erasure ret
      | some t => array t (s.dimsOf ret)

end TypeStore

/-- An argument that may say something about a type variable. -/
structure Evidence where
  /-- The declared type of the parameter, which mentions the variable. -/
  formal : TypeId
  /-- The argument. -/
  expr : Expr
  /-- The type of the argument. -/
  type : TypeId
  deriving DecidableEq, Repr, Inhabited

namespace Formals

/-- The declared type of the parameter that an argument is bound to in a call with `argc`
arguments: the element type for packed trailing arguments. -/
def formalAt? (f : Formals) (k argc : Nat) : Option TypeId :=
  let n := f.params.length
  if f.isVariadic && 0 < n && n - 1 ≤ k && !(argc = n && k = n - 1) then some f.element
  else f.params[k]?

/-- The arguments whose parameters mention a type variable. -/
def evidence (s : TypeStore) (f : Formals) (var : TypeId) (exprs : List Expr) (args : List TypeId) :
    List Evidence :=
  ((exprs.zip args).zipIdx).filterMap fun ((expr, type), k) =>
    match f.formalAt? k args.length with
    | some formal => if s.mentions formal var then some ⟨formal, expr, type⟩ else none
    | none => none

end Formals

namespace Evidence

/-- What a class literal supplies. -/
def ofClassLiteral (var : TypeId) (e : Evidence) : TypeM (Option TypeId) := do
  match e.expr.form with
  | .classLiteral t =>
    if t.isSome then
      let cls ← TypeStore.apply .class_ [.exact ((← get).boxed t)]
      TypeStore.matchArg var e.formal cls
    else return none
  | _ => return none

/-- What the class of a creation supplies. -/
def ofCreation (var : TypeId) (e : Evidence) : TypeM (Option TypeId) :=
  match e.expr.form with
  | .creation t => if t.isSome then TypeStore.matchArg var e.formal t else return none
  | _ => return none

end Evidence

namespace Method

/-- The type that the arguments of a call suggest for a type variable. Class literals come
first, then creations, then plain argument types, and last what the supertypes of argument
types supply. -/
def infer (m : Method) (var : TypeId) (exprs : List Expr) (args : List TypeId) : TypeM (Option TypeId) := do
  let f ← m.declaredFormals
  let ev := f.evidence (← get) var exprs args
  match ← ev.findSomeM? (·.ofClassLiteral var) with
  | some t => return some t
  | none =>
    match ← ev.findSomeM? (·.ofCreation var) with
    | some t => return some t
    | none =>
      match ← ev.findSomeM? fun e => TypeStore.matchDirect var e.formal e.type with
      | some t => return some t
      | none => ev.findSomeM? fun e => TypeStore.matchArg var e.formal e.type

/-- The type that stands for a type variable of the method in a call without explicit type
arguments: what is inferred, or else the erasure. -/
def inferOrErase (m : Method) (exprs : List Expr) (args : List TypeId) (var : TypeId) : TypeM TypeId := do
  match ← m.infer var exprs args with
  | some t => return t
  | none => TypeStore.erasure var

/-- The result type with the type variables of the method replaced. -/
def instantiatedReturn (m : Method) (site : Site) (args : List TypeId) : TypeM TypeId := do
  let s ← get
  if !m.typeParams.any (s.mentions m.returns) then return m.returns
  let actual ←
    if site.typeArgs.length = m.typeParams.length then pure site.typeArgs
    else m.typeParams.mapM (m.inferOrErase site.args args)
  TypeStore.subst m.returns m.typeParams (actual.map .exact)

/-- The class type of a receiver, as the method of the root class that asks for it gives it.
-/
def classTypeOf (recv : TypeId) : TypeM TypeId := do
  let erased ← TypeStore.erasure recv
  TypeStore.apply .class_ [⟨.extends, if erased.isSome then erased else .object⟩]

/-- Whether a method is the one of the root class that gives the class of its receiver. -/
def isGetClass (m : Method) : Bool :=
  m.name = "getClass" && m.params.isEmpty && m.owner = .object

/-- The static type of a call of the method on a receiver type. -/
def callType (m : Method) (isArrayClone : Bool) (recv : TypeId) (qualified : Bool) (site : Site)
    (args : List TypeId) : TypeM TypeId := do
  if m.isConstructor then return .void
  else if isArrayClone && (← get).isArray recv then return recv
  else if m.isGetClass then classTypeOf recv
  else
    let ret ← m.instantiatedReturn site args
    TypeStore.substOwner ret m.owner recv qualified

/-- The exception that a call raises for a declared one; a type variable of the method stands
for what the arguments suggest, and any other one for its erasure. -/
def thrownType (m : Method) (site : Site) (args : List TypeId) (ex : TypeId) : TypeM TypeId := do
  match (← get).typeVariable? ex with
  | none => return ex
  | some v => if v.method ≠ 0 then m.inferOrErase site.args args ex else TypeStore.erasure ex

end Method

end CallResolution
