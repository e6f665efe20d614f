import CallResolution.Members.Basic
import CallResolution.TypeExpr.Parser

/-!
# Names in scope

What the names of a type expression denote. A simple name is looked up among the type
variables of the method, those of the enclosing classes, the member classes of the enclosing
classes, the package and the predefined package, in this order. A dotted name is tried as a
qualified name, and then as a member class of what its first part denotes.
-/

namespace CallResolution

open Source

/-- Where a type expression stands: the enclosing class, and the type variables of the method
it belongs to, the latest first. -/
structure Scope where
  /-- The enclosing class. -/
  cls : TypeId := .none
  /-- The type variables of the method. -/
  params : List (String × TypeId) := []
  deriving Repr, Inhabited

/-- Why a type expression denotes no type. -/
inductive TypeFault where
  /-- It is not a type expression. -/
  | malformed (src : String) (f : TypeExpr.Failure)
  /-- A name denotes nothing. -/
  | unknown (name : String)
  /-- A primitive type has arguments. -/
  | primitiveArgs (name : String)
  /-- An array of `void`. -/
  | voidArray
  /-- Something other than a class has arguments. -/
  | notGeneric (name : String)
  /-- A class has the wrong number of arguments. -/
  | argCount (cls : String) (expected got : Nat)
  /-- An argument is not a reference type. -/
  | notReference (text : String)
  deriving DecidableEq, Repr, Inhabited

/-- What a fault says. -/
def TypeFault.message : TypeFault → String
  | .malformed src f => f.message src
  | .unknown name => "cannot find type " ++ name
  | .primitiveArgs name => s!"primitive type {name} cannot take type arguments"
  | .voidArray => "void cannot be an array element"
  | .notGeneric name => s!"{name} cannot take type arguments"
  | .argCount cls expected got => s!"{cls} takes {expected} type arguments, got {got}"
  | .notReference text => s!"type argument {text} is not a reference type"

/-- The code under which a fault is reported. -/
def TypeFault.code : TypeFault → Code
  | .unknown _ => .unknownType
  | _ => .badTypeExpr

/-- The primitive type, or `void`, with a keyword. -/
def primitiveNamed? : String → Option TypeId
  | "boolean" => some (.ofPrimitive .boolean)
  | "byte" => some (.ofPrimitive .byte)
  | "short" => some (.ofPrimitive .short)
  | "char" => some (.ofPrimitive .char)
  | "int" => some (.ofPrimitive .int)
  | "long" => some (.ofPrimitive .long)
  | "float" => some (.ofPrimitive .float)
  | "double" => some (.ofPrimitive .double)
  | "void" => some .void
  | _ => none

namespace TypeStore

/-- The class and the classes around it, from the inside out. -/
def enclosingChain (s : TypeStore) : Nat → TypeId → List TypeId
  | 0, _ => []
  | fuel + 1, t =>
    if t.isSome then
      t :: match s.classInfo? t with
        | some info => s.enclosingChain fuel info.outer
        | none => []
    else []

/-- The class and all classes around it, from the inside out. -/
def enclosing (s : TypeStore) (t : TypeId) : List TypeId :=
  s.enclosingChain (s.shapes.size + 1) t

/-- The type variable of a class with a name. -/
def classVariable? (s : TypeStore) (name : String) (t : TypeId) : Option TypeId :=
  ((s.classInfo? t).elim [] (·.typeParams)).find? fun v => (s.typeVariable? v).any (·.name = name)

/-- What a simple name denotes. -/
def lookupSimple? (s : TypeStore) (name : String) (sc : Scope) : Option TypeId :=
  let chain := s.enclosing sc.cls
  (sc.params.lookup name)
    <|> chain.findSome? (s.classVariable? name)
    <|> chain.findSome? (fun c => s.classNamed? (s.qualifiedName c ++ "." ++ name))
    <|> (if sc.cls.isSome && s.packageOf sc.cls ≠ "" then
          s.classNamed? (s.packageOf sc.cls ++ "." ++ name) else none)
    <|> s.classNamed? name
    <|> s.classNamed? (langPackage ++ "." ++ name)

/-- What a name denotes. -/
def lookupName? (s : TypeStore) (name : String) (sc : Scope) : Option TypeId :=
  match (name.toList.splitOn '.').map String.ofList with
  | [] | [_] => s.lookupSimple? name sc
  | first :: rest =>
    match s.classNamed? name with
    | some t => some t
    | none => do
      let head ← s.lookupSimple? first sc
      if (s.shape head).isDeclared then
        s.classNamed? (s.qualifiedName head ++ "." ++ ".".intercalate rest)
      else none

/-- What the name of a type expression denotes. -/
def resolveName (sc : Scope) (name : String) : ExceptT TypeFault TypeM TypeId := do
  match primitiveNamed? name with
  | some t => return t
  | none =>
    match (← getThe TypeStore).lookupName? name sc with
    | some t => return t
    | none => throw (.unknown name)

/-- Checks that a class can take a number of arguments. -/
def checkArgs (name : String) (base : TypeId) (count : Nat) : ExceptT TypeFault TypeM Unit := do
  let s ← getThe TypeStore
  match s.classInfo? base with
  | some info =>
    if !(s.shape base).isDeclared then throw (.notGeneric name)
    if info.typeParams.length ≠ count then
      throw (.argCount (s.qualifiedName base) info.typeParams.length count)
  | none => throw (.notGeneric name)

/-- A type argument with a bound, which has to be a reference type; problems are reported for
the expression of the bound. -/
def boundedArg (w : Wildcard) (t : TypeExpr) (bound : TypeId) : ExceptT TypeFault TypeM TypeArg := do
  if (← getThe TypeStore).isReference bound then return ⟨w, bound⟩
  else throw (.notReference t.text)

mutual

/-- The type that an expression denotes. The three dots of variable arity add a dimension. -/
def resolveType (sc : Scope) : TypeExpr → ExceptT TypeFault TypeM TypeId
  | .mk name args dims variadic => do
    let primitive := (primitiveNamed? name).isSome
    if primitive && args.isSome then throw (.primitiveArgs name)
    if name = "void" && (0 < dims || variadic) then throw .voidArray
    let base ← resolveName sc name
    let base ← match args with
      | none => pure base
      | some as => do
        checkArgs name base as.length
        let as ← resolveArgs sc as
        liftM (apply base as)
    let dims := dims + if variadic then 1 else 0
    if 0 < dims then liftM (array base dims.toUInt32) else return base

/-- The type arguments that expressions denote. -/
def resolveArgs (sc : Scope) : List TypeArgExpr → ExceptT TypeFault TypeM (List TypeArg)
  | [] => return []
  | a :: as => do
    let arg ← resolveArg sc a
    return arg :: (← resolveArgs sc as)

/-- The type argument that an expression denotes. -/
def resolveArg (sc : Scope) : TypeArgExpr → ExceptT TypeFault TypeM TypeArg
  | .unbounded => return ⟨.unbounded, .none⟩
  | .exact t => do boundedArg .none t (← resolveType sc t)
  | .extends t => do boundedArg .extends t (← resolveType sc t)
  | .super t => do boundedArg .super t (← resolveType sc t)

end

/-- The type that a text denotes. -/
def typeOfText (sc : Scope) (src : String) : ExceptT TypeFault TypeM TypeId :=
  match TypeExpr.parse src with
  | .error f => throw (.malformed src f)
  | .ok t => resolveType sc t

end TypeStore

end CallResolution
