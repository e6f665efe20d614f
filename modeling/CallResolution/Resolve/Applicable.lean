import CallResolution.Call.Basic
import CallResolution.Types.Subtype

/-!
# Applicability

Whether a callable accepts arguments of given types in a phase. In the first two phases
arities have to agree; in the last one the trailing arguments of a callable of variable arity
may be packed into an array.

An argument is passed to a parameter by subtyping and primitive widening, or, in the looser
form, also by boxing and unboxing. The bad type converts to everything, and nothing converts
to it.
-/

namespace CallResolution

/-! ## Conversions of arguments -/

namespace TypeStore

/-- Identity, primitive widening and reference widening. -/
def subtypeConverts (s : TypeStore) (src dst : TypeId) : Bool :=
  if s.isBad dst then false
  else if s.isBad src then true
  else if src = dst then true
  else match s.isPrimitive src, s.isPrimitive dst with
    | true, true => s.isWidening src dst
    | false, false => s.isSubtype src dst
    | _, _ => false

/-- The primitive type that a reference type unboxes to. -/
def unboxed (s : TypeStore) (t : TypeId) : TypeId :=
  match s.erased t with
  | .plain u => s.unbox u
  | .array _ _ => .none

/-- Boxing of a primitive value, or unboxing of a reference, with the widening that may
follow. -/
def boxingConverts (s : TypeStore) (src dst : TypeId) : Bool :=
  match s.isPrimitive src, s.isPrimitive dst with
  | true, false => (s.box src).isSome && s.isSubtype (s.box src) dst
  | false, true => s.isReference src && (s.unboxed src).isSome && s.isWidening (s.unboxed src) dst
  | _, _ => false

/-- Conversion by widening, boxing or unboxing. -/
def invocationConverts (s : TypeStore) (src dst : TypeId) : Bool :=
  s.subtypeConverts src dst || s.boxingConverts src dst

/-- Whether there are as many arguments as parameters and each argument converts. -/
def allConvert (converts : TypeId → TypeId → Bool) : List TypeId → List TypeId → Bool
  | [], [] => true
  | a :: as, p :: ps => converts a p && allConvert converts as ps
  | _, _ => false

/-- Whether each argument converts by widening, boxing or unboxing to the parameter at its
place. -/
def convertsAll (s : TypeStore) (args params : List TypeId) : Bool :=
  allConvert s.invocationConverts args params

end TypeStore

/-! ## Formals -/

/-- The parameters that a callable offers. -/
structure Formals where
  /-- The parameter types. -/
  params : List TypeId
  /-- Whether the last parameter has variable arity. -/
  isVariadic : Bool := false
  /-- The element type of the last parameter, no type when it is not an array. -/
  element : TypeId := .none
  deriving DecidableEq, Repr, Inhabited

namespace Formals

/-- The formals with given parameter types. -/
def ofParams (params : List TypeId) (isVariadic : Bool) : TypeM Formals := do
  match isVariadic, params.getLast? with
  | true, some last => return { params, isVariadic, element := ← TypeStore.component last }
  | _, _ => return { params, isVariadic }

/-- Applicability with exact arity; a callable of variable arity takes no part. -/
def fixedArity (f : Formals) (converts : TypeId → TypeId → Bool) (args : List TypeId) : Option Bool :=
  if !f.isVariadic && TypeStore.allConvert converts args f.params then some false else none

/-- Whether the arguments after the fixed parameters are passed, and if so whether they are
packed: a single one may be the array itself. -/
def variableTail (f : Formals) (converts : TypeId → TypeId → Bool) (last : TypeId)
    (tail : List TypeId) : Option Bool :=
  if TypeStore.allConvert converts tail [last] then some false
  else if f.element.isSome && tail.all (converts · f.element) then some true
  else none

/-- Applicability with variable arity. -/
def variableArity (f : Formals) (converts : TypeId → TypeId → Bool) (args : List TypeId) : Option Bool :=
  match f.isVariadic, f.params.getLast? with
  | true, some last =>
    let fixed := f.params.dropLast
    if TypeStore.allConvert converts (args.take fixed.length) fixed then
      f.variableTail converts last (args.drop fixed.length)
    else none
  | _, _ => none

/-- Whether arguments can be passed in a phase, and if so whether trailing ones are packed
into an array. -/
def applicable (s : TypeStore) (f : Formals) (args : List TypeId) : Phase → Option Bool
  | .none => none
  | .strict => f.fixedArity s.subtypeConverts args
  | .loose => f.fixedArity s.invocationConverts args
  | .variadic => f.variableArity s.invocationConverts args

/-- The type that is offered to the argument at a place: the element type past the fixed
parameters of a callable of variable arity. -/
def paramAt? (f : Formals) (k : Nat) : Option TypeId :=
  if !f.isVariadic then f.params[k]?
  else if f.params.isEmpty then none
  else if k < f.params.length - 1 then f.params[k]?
  else if f.element.isSome then some f.element
  else none

end Formals

namespace Method

/-- The parameters as they are declared. -/
def declaredFormals (m : Method) : TypeM Formals :=
  Formals.ofParams m.params m.flags.isVariadic

/-- The parameters as a call with explicit type arguments sees them. Type arguments of another
number than the type variables are ignored. -/
def formals (m : Method) (typeArgs : List TypeId) : TypeM Formals := do
  if typeArgs.isEmpty || typeArgs.length ≠ m.typeParams.length then m.declaredFormals
  else
    let params ← m.params.mapM fun p => TypeStore.subst p m.typeParams (typeArgs.map .exact)
    Formals.ofParams params m.flags.isVariadic

end Method

end CallResolution
