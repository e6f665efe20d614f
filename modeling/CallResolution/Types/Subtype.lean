import CallResolution.Types.Hierarchy

/-!
# Erasure and subtyping

Erasure drops type arguments and replaces a type variable by its first bound. Subtyping
compares erased types: classes by inheritance, arrays by their elements, with the null type
below every reference type and the bad type below and above everything.
-/

namespace CallResolution

/-- A type without type arguments and type variables. -/
inductive Erased where
  /-- A type that is not an array. -/
  | plain (t : TypeId)
  /-- An array type. -/
  | array (elem : TypeId) (dims : UInt32)
  deriving DecidableEq, Repr, Inhabited

/-- The array of an erased type with further dimensions. The array of the bad type is the bad
type. -/
def Erased.arrayOf (s : TypeStore) (dims : UInt32) : Erased → Erased
  | .plain t => if s.isBad t then .plain t else .array t dims
  | .array e d => .array e (dims + d)

namespace TypeStore

/-- How many type variables are followed at most. -/
def boundLimit : Nat := 17

/-- The erasure of a type that is not an array, where a type variable stands for the root
class. -/
def erasedElem (s : TypeStore) (t : TypeId) : TypeId :=
  match s.shape t with
  | .applied base _ => base
  | .typeVar _ => .object
  | _ => t

/-- The erasure of a type, where bounds of type variables are followed at most `fuel` times.
-/
def erasedWithin (s : TypeStore) : Nat → TypeId → Erased
  | fuel, t =>
    match s.shape t with
    | .applied base _ => .plain base
    | .array e d =>
      match fuel with
      | 0 => .array (s.erasedElem e) d
      | fuel + 1 => (s.erasedWithin fuel e).arrayOf s d
    | .typeVar _ =>
      match fuel with
      | 0 => .plain .object
      | fuel + 1 =>
        match ((s.typeVariable? t).elim [] (·.bounds)).head? with
        | some b => s.erasedWithin fuel b
        | none => .plain .object
    | _ => .plain t

/-- The erasure of a type. -/
def erased (s : TypeStore) (t : TypeId) : Erased :=
  s.erasedWithin boundLimit t

/-- How many times a dimension can be taken off an array. The count is a word that wraps
around. -/
def arrayDepth (dims : UInt32) : Nat :=
  if dims = 0 then 0x100000000 else dims.toNat

/-- The classes that every array is a subtype of. -/
def isArraySupertype (t : TypeId) : Bool :=
  t = .object || t = .cloneable || t = .serializable

/-- Subtyping of different element types. -/
def elementSubtype (s : TypeStore) (a b : TypeId) : Bool :=
  if s.isNull a then s.isReference b else s.isSubclass a b

/-- Subtyping of erased types. -/
def erasedSubtype (s : TypeStore) (x y : Erased) : Bool :=
  x = y ||
    match x, y with
    | .plain a, .plain b => s.isSubclass a b
    | .plain _, .array _ _ => false
    | .array _ _, .plain b => isArraySupertype b
    | .array a d, .array b d' =>
      if arrayDepth d = arrayDepth d' then a = b || s.elementSubtype a b
      else if arrayDepth d < arrayDepth d' then s.isNull a
      else isArraySupertype b

/-- Whether a shape tells alone how its types compare to others. -/
def isPlainlyCompared (k : TypeShape) : Bool :=
  k = .bad || k.isPrimitive || k = .void

/-- Whether two types are compared by their erasures. -/
def isComparedErased (s : TypeStore) (a b : TypeId) : Bool :=
  a ≠ b && !(isPlainlyCompared (s.shape a) || isPlainlyCompared (s.shape b) || s.isNull a)

/-- Whether a type is a subtype of another one. -/
def isSubtype (s : TypeStore) (a b : TypeId) : Bool :=
  if s.isComparedErased a b then s.erasedSubtype (s.erased a) (s.erased b)
  else
    let ka := s.shape a
    let kb := s.shape b
    a = b || ka = .bad || kb = .bad || (ka = .null && kb.isReference)

/-- Whether a value of one primitive type widens to another one. -/
def primitiveWidens : Primitive → Primitive → Bool
  | .byte, t => t = .short || t = .int || t = .long || t = .float || t = .double
  | .short, t | .char, t => t = .int || t = .long || t = .float || t = .double
  | .int, t => t = .long || t = .float || t = .double
  | .long, t => t = .float || t = .double
  | .float, t => t = .double
  | _, _ => false

/-- Whether a primitive value converts by widening, or by not changing at all. -/
def isWidening (s : TypeStore) (a b : TypeId) : Bool :=
  if a = b then s.isPrimitive a
  else match s.shape a, s.shape b with
    | .primitive p, .primitive q => primitiveWidens p q
    | _, _ => false

/-- Whether a type variable occurs in a type, down to a depth. -/
def mentionsWithin (s : TypeStore) (p : TypeId) : Nat → TypeId → Bool
  | 0, t => t = p
  | depth + 1, t =>
    t = p ||
      match s.shape t with
      | .array e _ => s.mentionsWithin p depth e
      | .applied _ args => args.any fun a => a.type.isSome && s.mentionsWithin p depth a.type
      | _ => false

/-- Whether a type variable occurs in a type. -/
def mentions (s : TypeStore) (t p : TypeId) : Bool :=
  s.mentionsWithin p termDepth t

end TypeStore

end CallResolution
