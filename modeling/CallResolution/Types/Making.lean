import CallResolution.Types.Naming
import CallResolution.Types.Subtype

/-!
# Making types

Registering classes and type variables, and the types that are made from others: arrays,
parameterized types, erasures and instantiations. A shape that the store already has keeps its
number.
-/

namespace CallResolution

/-- A step that may add types to a store. -/
abbrev TypeM := StateM TypeStore

namespace TypeStore

/-- The store with one more shape, which is entered into the maps under its keys. -/
def pushed (s : TypeStore) (shape : TypeShape) : TypeStore :=
  { s with
    shapes := s.shapes.push shape
    index := enterKey shape.structureKey? ⟨s.shapes.size⟩ s.index
    argsIndex := enterKey shape.argsKey? ⟨s.shapes.size⟩ s.argsIndex
    index_inStep := s.index_inStep.push shape
    argsIndex_inStep := s.argsIndex_inStep.push shape }

@[simp]
theorem pushed_shapes (s : TypeStore) (shape : TypeShape) : (s.pushed shape).shapes = s.shapes.push shape :=
  rfl

@[simp]
theorem pushed_classes (s : TypeStore) (shape : TypeShape) : (s.pushed shape).classes = s.classes :=
  rfl

@[simp]
theorem pushed_typeVars (s : TypeStore) (shape : TypeShape) : (s.pushed shape).typeVars = s.typeVars :=
  rfl

/-- Adds a shape under the next number. -/
def push (shape : TypeShape) : TypeM TypeId := fun s =>
  (⟨s.shapes.size⟩, s.pushed shape)

/-- The number of a shape, which is added unless it is found. -/
def intern (shape : TypeShape) : TypeM TypeId := fun s =>
  match s.index.lookup shape with
  | some t => (t, s)
  | none => push shape s

/-- The array of a type with further dimensions. The dimensions of an array add up, and the
array of the bad type is the bad type. -/
def array (elem : TypeId) (dims : UInt32) : TypeM TypeId := do
  if dims = 0 then return elem
  match (← get).shape elem with
  | .bad => return elem
  | .array e d => intern (.array e (dims + d))
  | _ => intern (.array elem dims)

/-- An array without its outermost dimension; no type for other types. -/
def component (t : TypeId) : TypeM TypeId := do
  match (← get).shape t with
  | .array e d => if d = 1 then return e else array e (d - 1)
  | _ => return .none

/-- An array without `n` dimensions, when it has as many. -/
def stripDims (t : TypeId) (n : UInt32) : TypeM (Option TypeId) := do
  if n = 0 then return some t
  match (← get).shape t with
  | .array e d =>
    if d < n then return none
    else if d = n then return some e
    else return some (← array e (d - n))
  | _ => return none

/-- A generic class with arguments, which is added unless its text is found; without arguments
the class itself. -/
def apply (base : TypeId) (args : List TypeArg) : TypeM TypeId := fun s =>
  if args.isEmpty then (base, s)
  else
    match s.argsIndex.lookup (argsKey base args) with
    | some t => (t, s)
    | none => push (.applied base args) s

/-- The number of the erasure of a type, where bounds of type variables are followed at most
`fuel` times. The erasures of array elements on the way get numbers, too. -/
def erasureWithin : Nat → TypeId → TypeM TypeId
  | fuel, t => do
    let s ← get
    match s.shape t with
    | .applied base _ => return base
    | .array e d =>
      let e' ← match fuel with
        | 0 => pure (s.erasedElem e)
        | fuel + 1 => erasureWithin fuel e
      if e' = e then return t else array e' d
    | .typeVar _ =>
      match fuel with
      | 0 => return .object
      | fuel + 1 =>
        match ((s.typeVariable? t).elim [] (·.bounds)).head? with
        | some b => erasureWithin fuel b
        | none => return .object
    | _ => return t

/-- The number of the erasure of a type. -/
def erasure (t : TypeId) : TypeM TypeId :=
  erasureWithin boundLimit t

/-- Gives numbers to the types that a comparison of two types goes through: their erasures
and, as long as both are arrays, their components. -/
def numberCompared : Nat → TypeId → TypeId → TypeM Unit
  | 0, _, _ => return
  | fuel + 1, a, b => do
    let s ← get
    if s.isComparedErased a b then
      let a ← erasure a
      let b ← erasure b
      let s ← get
      if a ≠ b && s.isArray a && s.isArray b then numberCompared fuel (← component a) (← component b)

/-- Whether a type is a subtype of another one, with numbers for the types that the comparison
goes through. -/
def checkSubtype (a b : TypeId) : TypeM Bool := do
  let s ← get
  let depth := match s.erased a with
    | .array _ d => arrayDepth d
    | .plain _ => 0
  numberCompared (depth + 1) a b
  return s.isSubtype a b

/-- The type that a type variable stands for under an argument: the argument or its upper
bound, and without either the erasure of the variable. -/
def argUpper (a : TypeArg) (param : TypeId) : TypeM TypeId :=
  match a.wildcard with
  | .none | .extends => if a.type.isSome then pure a.type else erasure param
  | _ => erasure param

/-- Instantiates one argument of a parameterized type, with `inner` for the types in it. A
bare type variable takes over the whole argument it is mapped to. -/
def substArg (inner : TypeId → TypeM TypeId) (map : List (TypeId × TypeArg)) (a : TypeArg) :
    TypeM TypeArg := do
  match a.wildcard with
  | .unbounded => return a
  | .none =>
    if ((← get).shape a.type).isVariable then
      match map.lookup a.type with
      | some b => return b
      | none => return { a with type := ← inner a.type }
    else return { a with type := ← inner a.type }
  | _ => return { a with type := ← inner a.type }

/-- Instantiates type variables inside a type, down to a depth. -/
def substWithin (map : List (TypeId × TypeArg)) : Nat → TypeId → TypeM TypeId
  | 0, t => pure t
  | depth + 1, t => do
    match (← get).shape t with
    | .typeVar _ =>
      match map.lookup t with
      | some a => argUpper a t
      | none => return t
    | .array e d =>
      let e' ← substWithin map depth e
      if e' = e then return t else array e' d
    | .applied base args =>
      let args' ← args.mapM (substArg (substWithin map depth) map)
      if args' = args then return t else apply base args'
    | _ => return t

/-- Replaces type variables by the arguments at the same places. -/
def subst (t : TypeId) (params : List TypeId) (args : List TypeArg) : TypeM TypeId :=
  if params.isEmpty || args.isEmpty then pure t
  else substWithin (params.zip args) termDepth t

/-- Adds the declaration of a class. -/
def pushClass (info : ClassInfo) : TypeM TypeId := do
  let slot := (← get).classes.size
  modify fun s => { s with classes := s.classes.push info }
  push (.declared slot)

/-- Registers a class under its qualified name; a name that is taken gives the class that has
it. -/
def registerClass (info : ClassInfo) : TypeM (Except TypeId TypeId) := do
  let name := (← get).qualifiedOf info
  match (← get).classNamed? name with
  | some prev => return .error prev
  | none =>
    let id ← pushClass info
    modify fun s => { s with names := (name, id) :: s.names }
    return .ok id

/-- Registers the next anonymous class of the outermost class around `outer`. -/
def registerAnonymous (outer : TypeId) (info : ClassInfo) : TypeM TypeId := do
  let s ← get
  let top := s.outermost outer
  let n := (s.anonymous.lookup top).getD 0 + 1
  set { s with anonymous := (top, n) :: s.anonymous.filter (·.1 ≠ top) }
  let id ← pushClass
    { info with
      name := toString n
      outer
      flags := { info.flags with isAnonymous := true, isFinal := true }
      package := (s.classInfo? top).elim info.package (·.package) }
  modify fun s => { s with names := (s.qualifiedName id, id) :: s.names }
  return id

/-- Registers a type variable. -/
def registerVariable (v : TypeVariable) : TypeM TypeId := do
  let slot := (← get).typeVars.size
  modify fun s => { s with typeVars := s.typeVars.push v }
  push (.typeVar slot)

end TypeStore

end CallResolution
