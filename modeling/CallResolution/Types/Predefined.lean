import CallResolution.Types.Basic

/-!
# The predefined types

Every universe starts with the primitive types and the core of `java.lang`. Their numbers are
fixed.
-/

namespace CallResolution

namespace TypeId

/-- The type of what failed to resolve. -/
def bad : TypeId := ⟨1⟩

/-- The type of the null literal. -/
def null : TypeId := ⟨2⟩

/-- The result of a method without one. -/
def void : TypeId := ⟨3⟩

/-- The number of a primitive type. -/
def ofPrimitive : Primitive → TypeId
  | .boolean => ⟨4⟩
  | .byte => ⟨5⟩
  | .short => ⟨6⟩
  | .char => ⟨7⟩
  | .int => ⟨8⟩
  | .long => ⟨9⟩
  | .float => ⟨10⟩
  | .double => ⟨11⟩

/-- The root of the class hierarchy. -/
def object : TypeId := ⟨12⟩

/-- The interface of serializable classes, a supertype of arrays. -/
def serializable : TypeId := ⟨13⟩

/-- The interface of cloneable classes, a supertype of arrays. -/
def cloneable : TypeId := ⟨14⟩

/-- The interface of readable character sequences. -/
def charSequence : TypeId := ⟨15⟩

/-- The generic interface of ordered classes. -/
def comparable : TypeId := ⟨16⟩

/-- The class of texts. -/
def string : TypeId := ⟨18⟩

/-- The generic class of class objects. -/
def class_ : TypeId := ⟨20⟩

/-- The superclass of numeric wrappers. -/
def number : TypeId := ⟨22⟩

/-- The generic superclass of enumerations. -/
def enum : TypeId := ⟨40⟩

/-- What can be thrown. -/
def throwable : TypeId := ⟨44⟩

/-- The superclass of checked exceptions. -/
def exception : TypeId := ⟨45⟩

/-- The superclass of unchecked exceptions. -/
def runtimeException : TypeId := ⟨46⟩

/-- The superclass of unchecked errors. -/
def error : TypeId := ⟨47⟩

/-- The exception of cloning. -/
def cloneNotSupported : TypeId := ⟨48⟩

/-- The exception of waiting. -/
def interrupted : TypeId := ⟨49⟩

/-- The wrapper class of a primitive type. -/
def boxOf : Primitive → TypeId
  | .boolean => ⟨23⟩
  | .char => ⟨25⟩
  | .byte => ⟨27⟩
  | .short => ⟨29⟩
  | .int => ⟨31⟩
  | .long => ⟨33⟩
  | .float => ⟨35⟩
  | .double => ⟨37⟩

end TypeId

/-- The primitive types in the order of their wrapper classes. -/
def Primitive.all : List Primitive :=
  [.boolean, .char, .byte, .short, .int, .long, .float, .double]

/-- The package of the predefined classes. -/
def langPackage : String := "java.lang"

namespace TypeStore

/-- A predefined class. -/
def predefinedClass (name : String) (flags : ClassFlags) (super : TypeId)
    (interfaces : List TypeId) : ClassInfo :=
  { name, package := langPackage, flags, access := .pub, super, interfaces }

/-- The marks of a predefined interface. -/
def interfaceFlags : ClassFlags :=
  { isInterface := true, isAbstract := true }

/-- The marks of a predefined final class. -/
def finalFlags : ClassFlags :=
  { isFinal := true }

/-- The marks of a predefined abstract class. -/
def abstractFlags : ClassFlags :=
  { isAbstract := true }

/-- A wrapper class, whose comparable type has the number just after it. -/
def wrapperClass (name : String) (super self : TypeId) : ClassInfo :=
  predefinedClass name finalFlags super [.serializable, ⟨self.index + 1⟩]

/-- The predefined classes. -/
def predefinedClasses : List ClassInfo :=
  [predefinedClass "Object" {} .none [],
   { predefinedClass "Serializable" interfaceFlags .none [] with package := "java.io" },
   predefinedClass "Cloneable" interfaceFlags .none [],
   predefinedClass "CharSequence" interfaceFlags .none [],
   { predefinedClass "Comparable" interfaceFlags .none [] with typeParams := [⟨17⟩] },
   predefinedClass "String" finalFlags .object [.serializable, .charSequence, ⟨19⟩],
   { predefinedClass "Class" finalFlags .object [.serializable] with typeParams := [⟨21⟩] },
   predefinedClass "Number" abstractFlags .object [.serializable],
   wrapperClass "Boolean" .object ⟨23⟩,
   wrapperClass "Character" .object ⟨25⟩,
   wrapperClass "Byte" .number ⟨27⟩,
   wrapperClass "Short" .number ⟨29⟩,
   wrapperClass "Integer" .number ⟨31⟩,
   wrapperClass "Long" .number ⟨33⟩,
   wrapperClass "Float" .number ⟨35⟩,
   wrapperClass "Double" .number ⟨37⟩,
   predefinedClass "Void" finalFlags .object [],
   { predefinedClass "Enum" abstractFlags .object [.serializable, ⟨43⟩] with typeParams := [⟨41⟩] },
   predefinedClass "Throwable" {} .object [.serializable],
   predefinedClass "Exception" {} .throwable [],
   predefinedClass "RuntimeException" {} .exception [],
   predefinedClass "Error" {} .throwable [],
   predefinedClass "CloneNotSupportedException" {} .exception [],
   predefinedClass "InterruptedException" {} .exception []]

/-- The predefined type variables. -/
def predefinedVariables : List TypeVariable :=
  [{ name := "T", owner := .comparable },
   { name := "T", owner := .class_ },
   { name := "E", owner := .enum, bounds := [⟨42⟩] }]

/-- A type as the argument of `Comparable`. -/
def comparableShape (t : TypeId) : TypeShape :=
  .applied .comparable [.exact t]

/-- The predefined shapes, by number. -/
def predefinedShapes : List TypeShape :=
  [.absent, .bad, .null, .void, .primitive .boolean, .primitive .byte, .primitive .short,
   .primitive .char, .primitive .int, .primitive .long, .primitive .float, .primitive .double,
   .declared 0, .declared 1, .declared 2, .declared 3, .declared 4, .typeVar 0, .declared 5,
   comparableShape .string, .declared 6, .typeVar 1, .declared 7,
   .declared 8, comparableShape ⟨23⟩, .declared 9, comparableShape ⟨25⟩,
   .declared 10, comparableShape ⟨27⟩, .declared 11, comparableShape ⟨29⟩,
   .declared 12, comparableShape ⟨31⟩, .declared 13, comparableShape ⟨33⟩,
   .declared 14, comparableShape ⟨35⟩, .declared 15, comparableShape ⟨37⟩,
   .declared 16, .declared 17, .typeVar 2, .applied .enum [.exact ⟨41⟩], comparableShape ⟨41⟩,
   .declared 18, .declared 19, .declared 20, .declared 21, .declared 22, .declared 23]

/-- The predefined classes by qualified name. -/
def predefinedNames : List (String × TypeId) :=
  let ids := (List.range predefinedShapes.length).filter fun i =>
    (predefinedShapes.getD i .absent).isDeclared
  List.zipWith (fun info i => (info.package ++ "." ++ info.name, TypeId.mk i)) predefinedClasses ids

/-- The numbers of shapes under their keys, of which the first one has the number `i`. -/
def numbersFrom {κ : Type} (key? : TypeShape → Option κ) (i : Nat) : List TypeShape → List (κ × TypeId)
  | [] => []
  | shape :: shapes => (key? shape).toList.map (·, ⟨i⟩) ++ numbersFrom key? (i + 1) shapes

/-- Under a key there is the first number whose shape has this key. -/
theorem lookup_numbersFrom {κ : Type} [DecidableEq κ] (key? : TypeShape → Option κ) (i : Nat) (shapes : List TypeShape) (k : κ) :
    (numbersFrom key? i shapes).lookup k = (shapes.findIdx? fun shape => key? shape = some k).map fun n => ⟨i + n⟩ := by
  induction shapes generalizing i with
  | nil => rfl
  | cons shape shapes ih =>
    rw [numbersFrom, List.lookup_append, ih, List.findIdx?_cons]
    cases hkey : key? shape with
    | none => simp [Function.comp_def, Nat.add_assoc, Nat.add_comm 1]
    | some k' =>
      by_cases hk : k' = k
      · simp [hk]
      · have hne : (k == k') = false := by simpa using Ne.symm hk
        simp [List.lookup_cons, hk, hne, Function.comp_def, Nat.add_assoc, Nat.add_comm 1]

/-- The numbers of shapes under their keys are in step with the shapes. -/
theorem numbersFrom_inStep {κ : Type} [DecidableEq κ] (key? : TypeShape → Option κ) (shapes : List TypeShape) :
    InStep key? shapes.toArray (numbersFrom key? 0 shapes) := by
  intro k
  rw [List.findIdx?_toArray, lookup_numbersFrom]
  simp

/-- The universe before anything is declared. -/
def initial : TypeStore :=
  { shapes := predefinedShapes.toArray
    index := numbersFrom TypeShape.structureKey? 0 predefinedShapes
    argsIndex := numbersFrom TypeShape.argsKey? 0 predefinedShapes
    classes := predefinedClasses.toArray
    typeVars := predefinedVariables.toArray
    names := predefinedNames
    index_inStep := numbersFrom_inStep TypeShape.structureKey? predefinedShapes
    argsIndex_inStep := numbersFrom_inStep TypeShape.argsKey? predefinedShapes }

/-- The wrapper class of a primitive type. -/
def box (s : TypeStore) (t : TypeId) : TypeId :=
  match s.shape t with
  | .primitive p => .boxOf p
  | _ => .none

/-- The primitive type behind a wrapper class. -/
def unbox (s : TypeStore) (t : TypeId) : TypeId :=
  match Primitive.all.find? (TypeId.boxOf · = s.classOf t) with
  | some p => .ofPrimitive p
  | none => .none

end TypeStore

end CallResolution
