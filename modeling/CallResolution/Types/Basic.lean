import CallResolution.Source.Span
import CallResolution.TypeExpr.Basic

/-!
# Types and their store

Types are numbered. A store keeps the shape of every number it has handed out, and what is
declared of classes and type variables. The number 0 is no type at all. Equal array and
parameterized types are to have equal numbers: two maps lead from shapes back to numbers, and
a store cannot be built unless they are in step with its shapes.
-/

namespace CallResolution

open Source

/-- The number of a type in its store. -/
structure TypeId where
  /-- The number. -/
  index : Nat
  deriving DecidableEq, Repr, Inhabited, Hashable

namespace TypeId

/-- The absence of a type: no superclass, no result yet. -/
def none : TypeId := ⟨0⟩

/-- Whether there is a type. -/
def isSome (t : TypeId) : Bool :=
  t != none

end TypeId

/-- The primitive types. -/
inductive Primitive where
  | boolean
  | byte
  | short
  | char
  | int
  | long
  | float
  | double
  deriving DecidableEq, Repr, Inhabited

/-- The keyword of a primitive type. -/
def Primitive.name : Primitive → String
  | .boolean => "boolean"
  | .byte => "byte"
  | .short => "short"
  | .char => "char"
  | .int => "int"
  | .long => "long"
  | .float => "float"
  | .double => "double"

/-- An actual argument of a parameterized type. -/
structure TypeArg where
  /-- Whether it is a type or a wildcard. -/
  wildcard : Wildcard
  /-- The type, or the bound of a wildcard; no type when there is no bound. -/
  type : TypeId
  deriving DecidableEq, Repr, Inhabited

/-- An argument that is a type. -/
def TypeArg.exact (t : TypeId) : TypeArg :=
  ⟨.none, t⟩

/-- What a type is. -/
inductive TypeShape where
  /-- No type. -/
  | absent
  /-- The type of what failed to resolve. Every check against it succeeds, so that one failure
  does not cause others. -/
  | bad
  /-- The type of the null literal. -/
  | null
  /-- The result of a method without one. -/
  | void
  /-- A primitive type. -/
  | primitive (p : Primitive)
  /-- A declared class or interface, by the place of its declaration in the store. -/
  | declared (slot : Nat)
  /-- An array of a non-array element type. -/
  | array (elem : TypeId) (dims : UInt32)
  /-- A type variable, by the place of its declaration in the store. -/
  | typeVar (slot : Nat)
  /-- A generic class with arguments. -/
  | applied (base : TypeId) (args : List TypeArg)
  deriving DecidableEq, Repr, Inhabited

namespace TypeShape

/-- The name of a kind of type. -/
def kindName : TypeShape → String
  | .absent => "invalid"
  | .bad => "<bad>"
  | .null => "null"
  | .void => "void"
  | .primitive p => p.name
  | .declared _ => "class"
  | .array _ _ => "array"
  | .typeVar _ => "type-param"
  | .applied _ _ => "parameterized"

/-- Whether this is a primitive type. -/
def isPrimitive : TypeShape → Bool
  | .primitive _ => true
  | _ => false

/-- Whether this is a primitive type other than `boolean`. -/
def isNumeric : TypeShape → Bool
  | .primitive p => p ≠ .boolean
  | _ => false

/-- Whether this is a declared, array, variable or parameterized type. The null type does not
count. -/
def isReference : TypeShape → Bool
  | .declared _ | .array _ _ | .typeVar _ | .applied _ _ => true
  | _ => false

/-- Whether this is an array type. -/
def isArray : TypeShape → Bool
  | .array _ _ => true
  | _ => false

/-- Whether this is a declared class without arguments. -/
def isDeclared : TypeShape → Bool
  | .declared _ => true
  | _ => false

/-- Whether this is a type variable. -/
def isVariable : TypeShape → Bool
  | .typeVar _ => true
  | _ => false

end TypeShape

/-- The kinds of types in the order of their numbers. -/
def kindNames : List String :=
  ["invalid", "<bad>", "null", "void", "boolean", "byte", "short", "char", "int", "long", "float", "double", "class",
   "array", "type-param", "parameterized"]

/-- The name of the kind with a number. -/
def kindNameOf (n : Nat) : String :=
  kindNames.getD n s!"Kind({n})"

/-- Who may use a class or member. -/
inductive Access where
  /-- The classes of the same package. -/
  | pkg
  /-- The classes with the same outermost class. -/
  | priv
  /-- The package, and subclasses elsewhere. -/
  | prot
  /-- Everyone. -/
  | pub
  deriving DecidableEq, Repr, Inhabited

namespace Access

/-- The modifier of an access. -/
def name : Access → String
  | .pkg => "package"
  | .priv => "private"
  | .prot => "protected"
  | .pub => "public"

/-- Reads a modifier; a blank one means the package. -/
def ofName? : String → Option Access
  | "" | "package" => some .pkg
  | "private" => some .priv
  | "protected" => some .prot
  | "public" => some .pub
  | _ => none

end Access

/-- The sum of the numbers whose mark is set. -/
def flagSum (marks : List (Bool × Nat)) : Nat :=
  marks.foldr (fun (b, n) total => (if b then n else 0) + total) 0

/-- The marks of a declared class. -/
structure ClassFlags where
  /-- An interface. -/
  isInterface : Bool := false
  /-- Abstract. -/
  isAbstract : Bool := false
  /-- Final. -/
  isFinal : Bool := false
  /-- Static, for a member class. -/
  isStatic : Bool := false
  /-- An enumeration. -/
  isEnum : Bool := false
  /-- Declared in a creation expression. -/
  isAnonymous : Bool := false
  /-- Declared inside a body. -/
  isLocal : Bool := false
  /-- Made by the resolver. -/
  isSynthetic : Bool := false
  /-- Deprecated. -/
  isDeprecated : Bool := false
  deriving DecidableEq, Repr, Inhabited

/-- The marks as one number. -/
def ClassFlags.bits (f : ClassFlags) : Nat :=
  flagSum [(f.isInterface, 1), (f.isAbstract, 2), (f.isFinal, 4), (f.isStatic, 8), (f.isEnum, 16),
    (f.isAnonymous, 32), (f.isLocal, 64), (f.isSynthetic, 128), (f.isDeprecated, 256)]

/-- What is declared of a class or interface. -/
structure ClassInfo where
  /-- The simple name: a number for an anonymous class, and a number and a name for a local
  one. -/
  name : String
  /-- The package, blank for the default one. -/
  package : String
  /-- The class it is declared in. -/
  outer : TypeId := .none
  /-- The marks. -/
  flags : ClassFlags := {}
  /-- Who may use it. -/
  access : Access := .pkg
  /-- The superclass, possibly parameterized; none for the root class and for interfaces. -/
  super : TypeId := .none
  /-- The direct interfaces, possibly parameterized. -/
  interfaces : List TypeId := []
  /-- The type variables. -/
  typeParams : List TypeId := []
  /-- Where it is declared. -/
  decl : Span := .none
  deriving DecidableEq, Repr, Inhabited

/-- Whether instances of the class carry an enclosing instance. -/
def ClassInfo.isInner (c : ClassInfo) : Bool :=
  c.outer.isSome && !c.flags.isStatic && !c.flags.isInterface && !c.flags.isEnum

/-- What is declared of a type variable. -/
structure TypeVariable where
  /-- The name. -/
  name : String
  /-- Its place among the variables of its declaration. -/
  index : Nat := 0
  /-- The bounds. -/
  bounds : List TypeId := []
  /-- The declaring class, or the class that declares the generic method. -/
  owner : TypeId := .none
  /-- The number of the generic method, 0 for a variable of a class. -/
  method : Nat := 0
  deriving DecidableEq, Repr, Inhabited

/-! ## Keys of types

A type that is not declared is found by what it is, so that it gets no second number. Two maps
serve this. One goes from shapes to numbers. The other one is for types with arguments, and
goes from texts, in which the numbers of the class and of the arguments are listed, to
numbers.
-/

/-- The number of a kind of argument. -/
def Wildcard.code : Wildcard → Nat
  | .none => 0
  | .unbounded => 1
  | .extends => 2
  | .super => 3

/-- The text of an argument: the number of its kind and that of its type. -/
def TypeArg.key (a : TypeArg) : String :=
  toString a.wildcard.code ++ ":" ++ toString a.type.index ++ ","

/-- The text of a class with arguments. -/
def argsKey (base : TypeId) (args : List TypeArg) : String :=
  toString base.index ++ "<" ++ String.join (args.map TypeArg.key)

namespace TypeShape

/-- The shape itself as a key. Classes and type variables are declared and have none. -/
def structureKey? : TypeShape → Option TypeShape
  | .absent | .declared _ | .typeVar _ => none
  | shape => some shape

/-- The text of a type with arguments as a key. -/
def argsKey? : TypeShape → Option String
  | .applied base args => some (argsKey base args)
  | _ => none

end TypeShape

/-- Enters a number into a map, unless it has no key. -/
def enterKey {κ : Type} (key? : Option κ) (t : TypeId) (map : List (κ × TypeId)) : List (κ × TypeId) :=
  match key? with
  | some k => map ++ [(k, t)]
  | none => map

/-- A map is in step with shapes: under every key it has the first number whose shape has this
key, and nothing else. -/
def InStep {κ : Type} [DecidableEq κ] (key? : TypeShape → Option κ) (shapes : Array TypeShape) (map : List (κ × TypeId)) : Prop :=
  ∀ k, map.lookup k = (shapes.findIdx? fun shape => key? shape = some k).map TypeId.mk

/-- A map stays in step when a shape is added and its number is entered under its key. -/
theorem InStep.push {κ : Type} [DecidableEq κ] {key? : TypeShape → Option κ} {shapes : Array TypeShape} {map : List (κ × TypeId)}
    (h : InStep key? shapes map) (shape : TypeShape) :
    InStep key? (shapes.push shape) (enterKey (key? shape) ⟨shapes.size⟩ map) := by
  intro k
  rw [Array.findIdx?_push, Option.map_or, ← h k]
  unfold enterKey
  cases hkey : key? shape with
  | none => simp
  | some k' =>
    rw [List.lookup_append]
    by_cases hk : k' = k
    · simp [hk]
    · have hne : (k == k') = false := by simpa using Ne.symm hk
      simp [List.lookup_cons, hk, hne]

/-- The types of one universe. -/
structure TypeStore where
  /-- The shapes by number; the number 0 is taken. -/
  shapes : Array TypeShape
  /-- The numbers of types that are not declared, by shape. -/
  index : List (TypeShape × TypeId)
  /-- The numbers of types with arguments, by text. -/
  argsIndex : List (String × TypeId)
  /-- What is declared of the classes. -/
  classes : Array ClassInfo
  /-- What is declared of the type variables. -/
  typeVars : Array TypeVariable
  /-- The classes by qualified name, the newest first. -/
  names : List (String × TypeId)
  /-- How many anonymous classes each outermost class has. -/
  anonymous : List (TypeId × Nat) := []
  /-- The numbers by shape are in step with the shapes. -/
  index_inStep : InStep TypeShape.structureKey? shapes index
  /-- The numbers by text are in step with the shapes. -/
  argsIndex_inStep : InStep TypeShape.argsKey? shapes argsIndex
  deriving Repr

instance : Inhabited TypeStore where
  default :=
    { shapes := #[], index := [], argsIndex := [], classes := #[], typeVars := #[], names := []
      index_inStep := fun _ => by simp
      argsIndex_inStep := fun _ => by simp }

namespace TypeStore

/-- The depth to which the arguments of a type are followed when it is named, searched or
instantiated. -/
def termDepth : Nat := 33

/-- The shape of a type; a number that was never handed out is no type. -/
def shape (s : TypeStore) (t : TypeId) : TypeShape :=
  if t = .none then .absent else s.shapes.getD t.index .absent

/-- Whether a number denotes a type. -/
def contains (s : TypeStore) (t : TypeId) : Bool :=
  s.shape t ≠ .absent

/-- Whether a type is the type of what failed to resolve. -/
def isBad (s : TypeStore) (t : TypeId) : Bool :=
  s.shape t = .bad

/-- Whether a type is the type of the null literal. -/
def isNull (s : TypeStore) (t : TypeId) : Bool :=
  s.shape t = .null

/-- Whether a type is primitive. -/
def isPrimitive (s : TypeStore) (t : TypeId) : Bool :=
  (s.shape t).isPrimitive

/-- Whether a type is a reference type. -/
def isReference (s : TypeStore) (t : TypeId) : Bool :=
  (s.shape t).isReference

/-- Whether a type is an array. -/
def isArray (s : TypeStore) (t : TypeId) : Bool :=
  (s.shape t).isArray

/-- The declared class behind a class or parameterized type. -/
def classOf (s : TypeStore) (t : TypeId) : TypeId :=
  match s.shape t with
  | .declared _ => t
  | .applied base _ => base
  | _ => .none

/-- The place in the store of the class behind a type. -/
def classSlot? (s : TypeStore) (t : TypeId) : Option Nat :=
  match s.shape t with
  | .declared slot => some slot
  | .applied base _ =>
    match s.shape base with
    | .declared slot => some slot
    | _ => none
  | _ => none

/-- What is declared of the class behind a class or parameterized type. -/
def classInfo? (s : TypeStore) (t : TypeId) : Option ClassInfo := do
  s.classes[← s.classSlot? t]?

/-- What is declared of a type variable. -/
def typeVariable? (s : TypeStore) (t : TypeId) : Option TypeVariable :=
  match s.shape t with
  | .typeVar slot => s.typeVars[slot]?
  | _ => none

/-- The arguments of a parameterized type. -/
def argsOf (s : TypeStore) (t : TypeId) : List TypeArg :=
  match s.shape t with
  | .applied _ args => args
  | _ => []

/-- The number of array dimensions. -/
def dimsOf (s : TypeStore) (t : TypeId) : UInt32 :=
  match s.shape t with
  | .array _ d => d
  | _ => 0

/-- The element type of an array, or the type itself. -/
def baseElem (s : TypeStore) (t : TypeId) : TypeId :=
  match s.shape t with
  | .array e _ => e
  | _ => t

/-- The class with a qualified name. -/
def classNamed? (s : TypeStore) (name : String) : Option TypeId :=
  s.names.lookup name

/-- The classes in the order they were registered. -/
def classIds (s : TypeStore) : List TypeId :=
  ((List.range s.shapes.size).filter fun i => (s.shapes.getD i .absent).isDeclared).map TypeId.mk

/-- Changes what is declared of the class behind a type. -/
def modifyClass (s : TypeStore) (t : TypeId) (f : ClassInfo → ClassInfo) : TypeStore :=
  match s.classSlot? t with
  | some slot => { s with classes := s.classes.modify slot f }
  | none => s

/-- Records the bounds of a type variable. -/
def setBounds (s : TypeStore) (t : TypeId) (bounds : List TypeId) : TypeStore :=
  match s.shape t with
  | .typeVar slot => { s with typeVars := s.typeVars.modify slot ({ · with bounds }) }
  | _ => s

end TypeStore

end CallResolution
