import CallResolution.Members.Basic

/-!
# Predefined members

The members of the predefined classes, and the two methods that every enumeration gets.
-/

namespace CallResolution.Universe

/-- A predefined method with a processed signature. -/
def predefinedMethod (owner : TypeId) (name : String) (returns : TypeId) (params : List TypeId)
    (flags : MethodFlags) : UniverseM Unit := do
  let _ ← addMethod { name, owner, access := .pub, flags, params, returns }

/-- A predefined method of limited access. -/
def protectedMethod (owner : TypeId) (name : String) (returns thrown : TypeId) : UniverseM Unit := do
  let _ ← addMethod { name, owner, access := .prot, returns, throws := [thrown] }

/-- A predefined constructor. -/
def predefinedCtor (owner : TypeId) (access : Access) (params : List TypeId) : UniverseM Unit := do
  let _ ← addMethod
    { name := constructorName, owner, kind := .constructor, access, params, returns := .void }

/-- The first type variable of a class. -/
def firstVariable (t : TypeId) : UniverseM TypeId :=
  return (((← getTypes).classInfo? t).elim [] (·.typeParams)).headD .none

/-- The marks of a static method. -/
def staticFlags : MethodFlags := { isStatic := true }

/-- The marks of an abstract method. -/
def abstractMethod : MethodFlags := { isAbstract := true }

/-- The marks of a final method. -/
def finalMethod : MethodFlags := { isFinal := true }

/-- A primitive type. -/
abbrev prim (p : Primitive) : TypeId := .ofPrimitive p

/-- The members of the root class. -/
def predefineObject (unknownClass : TypeId) : UniverseM Unit := do
  predefinedCtor .object .pub []
  predefinedMethod .object "equals" (prim .boolean) [.object] {}
  predefinedMethod .object "hashCode" (prim .int) [] {}
  predefinedMethod .object "toString" .string [] {}
  predefinedMethod .object "getClass" unknownClass [] finalMethod
  protectedMethod .object "clone" .object .cloneNotSupported
  protectedMethod .object "finalize" .void .throwable
  predefinedMethod .object "notify" .void [] finalMethod
  predefinedMethod .object "notifyAll" .void [] finalMethod
  for params in [[], [prim .long]] do
    let _ ← addMethod
      { name := "wait", owner := .object, access := .pub, flags := finalMethod, params,
        returns := .void, throws := [.interrupted] }

/-- The members of texts and of what texts implement. -/
def predefineString (strings objects : TypeId) : UniverseM Unit := do
  predefinedMethod .charSequence "length" (prim .int) [] abstractMethod
  predefinedMethod .charSequence "charAt" (prim .char) [prim .int] abstractMethod
  predefinedMethod .comparable "compareTo" (prim .int) [← firstVariable .comparable] abstractMethod
  predefinedCtor .string .pub []
  predefinedCtor .string .pub [.string]
  predefinedCtor .string .pub [← onTypes (TypeStore.array (prim .char) 1)]
  predefinedMethod .string "length" (prim .int) [] {}
  predefinedMethod .string "charAt" (prim .char) [prim .int] {}
  predefinedMethod .string "concat" .string [.string] {}
  predefinedMethod .string "substring" .string [prim .int] {}
  predefinedMethod .string "substring" .string [prim .int, prim .int] {}
  predefinedMethod .string "indexOf" (prim .int) [prim .int] {}
  predefinedMethod .string "indexOf" (prim .int) [.string] {}
  predefinedMethod .string "compareTo" (prim .int) [.string] {}
  predefinedMethod .string "split" strings [.string] {}
  for p in [.object, prim .boolean, prim .char, prim .int, prim .long, prim .float, prim .double] do
    predefinedMethod .string "valueOf" .string [p] staticFlags
  predefinedMethod .string "format" .string [.string, objects] { isStatic := true, isVariadic := true }

/-- The members of one wrapper class. -/
def predefineWrapper (p : Primitive) : UniverseM Unit := do
  let boxed := TypeId.boxOf p
  predefinedCtor boxed .pub [prim p]
  predefinedMethod boxed "valueOf" boxed [prim p] staticFlags
  predefinedMethod boxed (p.name ++ "Value") (prim p) [] {}
  predefinedMethod boxed "compareTo" (prim .int) [boxed] {}
  predefinedMethod boxed "toString" .string [prim p] staticFlags

/-- The members of numbers. -/
def predefineNumbers : UniverseM Unit := do
  predefinedCtor .number .pub []
  predefinedMethod .number "intValue" (prim .int) [] abstractMethod
  predefinedMethod .number "longValue" (prim .long) [] abstractMethod
  predefinedMethod .number "doubleValue" (prim .double) [] abstractMethod
  for p in Primitive.all do
    predefineWrapper p
  let integer := TypeId.boxOf .int
  predefinedMethod integer "valueOf" integer [.string] staticFlags
  predefinedMethod integer "parseInt" (prim .int) [.string] staticFlags

/-- The members of class objects. -/
def predefineClass : UniverseM Unit := do
  let v ← firstVariable .class_
  predefinedMethod .class_ "getName" .string [] {}
  predefinedMethod .class_ "newInstance" v [] {}
  predefinedMethod .class_ "cast" v [.object] {}
  predefinedMethod .class_ "isInstance" (prim .boolean) [.object] {}

/-- The members of the superclass of enumerations, with a generic look-up by name. -/
def predefineEnum : UniverseM Unit := do
  predefinedCtor .enum .prot [.string, prim .int]
  predefinedMethod .enum "name" .string [] finalMethod
  predefinedMethod .enum "ordinal" (prim .int) [] finalMethod
  predefinedMethod .enum "compareTo" (prim .int) [← firstVariable .enum] finalMethod
  let id ← addMethod { name := "valueOf", owner := .enum, access := .pub, flags := staticFlags }
  let v ← onTypes (TypeStore.registerVariable { name := "T", owner := .enum, method := id.index })
  let bound ← onTypes (TypeStore.apply .enum [.exact v])
  onTypes (modify (·.setBounds v [bound]))
  let classOfV ← onTypes (TypeStore.apply .class_ [.exact v])
  modifyMethod id ({ · with typeParams := [v], params := [classOfV, .string], returns := v })

/-- The members of what can be thrown. -/
def predefineThrowables : UniverseM Unit := do
  for t in [TypeId.throwable, .exception, .runtimeException, .error] do
    predefinedCtor t .pub []
    predefinedCtor t .pub [.string]
  predefinedMethod .throwable "getMessage" .string [] {}
  predefinedCtor .cloneNotSupported .pub []
  predefinedCtor .interrupted .pub []

/-- Gives the predefined classes their members. -/
def predefine : UniverseM Unit := do
  let strings ← onTypes (TypeStore.array .string 1)
  let objects ← onTypes (TypeStore.array .object 1)
  let unknownClass ← onTypes (TypeStore.apply .class_ [⟨.unbounded, .none⟩])
  predefineObject unknownClass
  predefineString strings objects
  predefineNumbers
  predefineClass
  predefineEnum
  predefineThrowables

/-- The universe before anything is declared. -/
def initial : Universe :=
  (predefine { types := .initial }).2

/-- The marks of the methods that every enumeration has. -/
def enumSupport : MethodFlags := { isStatic := true, isSynthetic := true, isEnumSupport := true }

/-- The method that gives the values of an enumeration in an array. -/
def enumValues (t array : TypeId) : Method :=
  { name := "values", owner := t, access := .pub, flags := enumSupport, returns := array }

/-- The method that finds the value of an enumeration with a name. -/
def enumValueOf (t : TypeId) : Method :=
  { name := "valueOf", owner := t, access := .pub, flags := enumSupport, params := [.string], returns := t }

/-- Declares the two methods that every enumeration has. -/
def addEnumSupport (t : TypeId) : UniverseM Unit := do
  let array ← onTypes (TypeStore.array t 1)
  let _ ← addMethod (enumValues t array)
  let _ ← addMethod (enumValueOf t)

end CallResolution.Universe
