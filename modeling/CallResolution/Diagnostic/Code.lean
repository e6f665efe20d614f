/-!
# Diagnostic codes

Every diagnostic carries a code with a stable identifier such as `RES3001`. The number tells
the area: 3000 to 3999 for call resolution, 4000 to 4999 for input and output, 5000 to 5999
for documents and configuration and 6000 to 6999 for timings.
-/

namespace CallResolution

/-- The code of a diagnostic. -/
structure Code where
  /-- The number. -/
  number : UInt16
  deriving DecidableEq, Repr, Inhabited

namespace Code

/-- Unknown error. -/
def unknown : Code := ⟨0⟩

/-- Call resolution information. -/
def resolutionInfo : Code := ⟨3000⟩

/-- Method not found. -/
def methodNotFound : Code := ⟨3001⟩

/-- No applicable method overload. -/
def methodOverloadNotFound : Code := ⟨3002⟩

/-- Constructor not found. -/
def constructorNotFound : Code := ⟨3003⟩

/-- No applicable constructor overload. -/
def constructorOverloadNotFound : Code := ⟨3004⟩

/-- Method not accessible. -/
def methodNotAccessible : Code := ⟨3005⟩

/-- Protected method accessed through an interface. -/
def protectedInterfaceMethod : Code := ⟨3006⟩

/-- Protected method accessed through a wrong qualifier. -/
def protectedWrongQualifier : Code := ⟨3007⟩

/-- Constructor not accessible. -/
def constructorNotAccessible : Code := ⟨3008⟩

/-- Ambiguous method invocation. -/
def ambiguousMethod : Code := ⟨3009⟩

/-- Ambiguous constructor invocation. -/
def ambiguousConstructor : Code := ⟨3010⟩

/-- Method hidden by an inner scope. -/
def hiddenByEnclosing : Code := ⟨3011⟩

/-- Field used as a method. -/
def fieldNotMethod : Code := ⟨3012⟩

/-- Type used as a method. -/
def typeNotMethod : Code := ⟨3013⟩

/-- Misspelled method name. -/
def methodNameMisspelled : Code := ⟨3014⟩

/-- Method found where a constructor was expected. -/
def methodFoundForConstructor : Code := ⟨3015⟩

/-- Invocation of a synthetic method. -/
def syntheticMethodInvocation : Code := ⟨3016⟩

/-- Invocation of a synthetic constructor. -/
def syntheticConstructorInvoke : Code := ⟨3017⟩

/-- Abstract method invoked through super. -/
def abstractMethodViaSuper : Code := ⟨3018⟩

/-- Unhandled checked exception. -/
def uncaughtCheckedException : Code := ⟨3019⟩

/-- Use of a deprecated method. -/
def deprecatedMethod : Code := ⟨3020⟩

/-- Use of a deprecated constructor. -/
def deprecatedConstructor : Code := ⟨3021⟩

/-- Method invoked on a non-reference type. -/
def typeNotReference : Code := ⟨3022⟩

/-- Instance method invoked through a type name. -/
def instanceMethodViaType : Code := ⟨3023⟩

/-- Instance method invoked from a static context. -/
def instanceMethodInStatic : Code := ⟨3024⟩

/-- Static method invoked through an instance. -/
def staticMethodViaInstance : Code := ⟨3025⟩

/-- Instance method invoked from an explicit constructor call. -/
def instanceMethodInExplicitCtor : Code := ⟨3026⟩

/-- Inherited method shadows an enclosing method. -/
def inheritanceScopingConflict : Code := ⟨3027⟩

/-- Abstract type instantiated. -/
def abstractInstantiation : Code := ⟨3028⟩

/-- Anonymous interface implementation takes no arguments. -/
def anonymousInterfaceArgs : Code := ⟨3029⟩

/-- Argument of type void. -/
def voidArgument : Code := ⟨3030⟩

/-- No enclosing instance available. -/
def missingEnclosingInstance : Code := ⟨3031⟩

/-- Non-class type instantiated. -/
def primitiveInstantiation : Code := ⟨3032⟩

/-- Interface has no superclass constructor. -/
def interfaceSuperCall : Code := ⟨3033⟩

/-- Callable signature could not be resolved. -/
def unresolvedSignature : Code := ⟨3034⟩

/-- Local class constructor call still pending. -/
def pendingLocalConstructor : Code := ⟨3035⟩

/-- Local variable captured twice. -/
def duplicateCapture : Code := ⟨3036⟩

/-- Captured local variable not in scope. -/
def unknownLocal : Code := ⟨3037⟩

/-- java.lang.Object has no superclass constructor. -/
def objectSuperCall : Code := ⟨3038⟩

/-- I/O load file error. -/
def loadFile : Code := ⟨4001⟩

/-- Project information. -/
def projectInfo : Code := ⟨5000⟩

/-- Unknown type in fixture. -/
def unknownType : Code := ⟨5001⟩

/-- Malformed type expression. -/
def badTypeExpr : Code := ⟨5002⟩

/-- Duplicate class declaration. -/
def duplicateClass : Code := ⟨5003⟩

/-- Malformed program step. -/
def badStep : Code := ⟨5004⟩

/-- Reference to an unknown call site. -/
def unknownSite : Code := ⟨5005⟩

/-- Invalid option value. -/
def badOption : Code := ⟨5006⟩

/-- Cyclic class hierarchy. -/
def cyclicHierarchy : Code := ⟨5007⟩

/-- Malformed class or member declaration. -/
def badMember : Code := ⟨5008⟩

/-- Observability information. -/
def observationInfo : Code := ⟨6000⟩

/-- Pipeline timings. -/
def timings : Code := ⟨6001⟩

/-- The known codes with their titles. -/
def titles : List (Code × String) :=
  [(unknown, "Unknown error"),
   (resolutionInfo, "Call resolution information"),
   (methodNotFound, "Method not found"),
   (methodOverloadNotFound, "No applicable method overload"),
   (constructorNotFound, "Constructor not found"),
   (constructorOverloadNotFound, "No applicable constructor overload"),
   (methodNotAccessible, "Method not accessible"),
   (protectedInterfaceMethod, "Protected method accessed through an interface"),
   (protectedWrongQualifier, "Protected method accessed through a wrong qualifier"),
   (constructorNotAccessible, "Constructor not accessible"),
   (ambiguousMethod, "Ambiguous method invocation"),
   (ambiguousConstructor, "Ambiguous constructor invocation"),
   (hiddenByEnclosing, "Method hidden by an inner scope"),
   (fieldNotMethod, "Field used as a method"),
   (typeNotMethod, "Type used as a method"),
   (methodNameMisspelled, "Misspelled method name"),
   (methodFoundForConstructor, "Method found where a constructor was expected"),
   (syntheticMethodInvocation, "Invocation of a synthetic method"),
   (syntheticConstructorInvoke, "Invocation of a synthetic constructor"),
   (abstractMethodViaSuper, "Abstract method invoked through super"),
   (uncaughtCheckedException, "Unhandled checked exception"),
   (deprecatedMethod, "Use of a deprecated method"),
   (deprecatedConstructor, "Use of a deprecated constructor"),
   (typeNotReference, "Method invoked on a non-reference type"),
   (instanceMethodViaType, "Instance method invoked through a type name"),
   (instanceMethodInStatic, "Instance method invoked from a static context"),
   (staticMethodViaInstance, "Static method invoked through an instance"),
   (instanceMethodInExplicitCtor, "Instance method invoked from an explicit constructor call"),
   (inheritanceScopingConflict, "Inherited method shadows an enclosing method"),
   (abstractInstantiation, "Abstract type instantiated"),
   (anonymousInterfaceArgs, "Anonymous interface implementation takes no arguments"),
   (voidArgument, "Argument of type void"),
   (missingEnclosingInstance, "No enclosing instance available"),
   (primitiveInstantiation, "Non-class type instantiated"),
   (interfaceSuperCall, "Interface has no superclass constructor"),
   (unresolvedSignature, "Callable signature could not be resolved"),
   (pendingLocalConstructor, "Local class constructor call still pending"),
   (duplicateCapture, "Local variable captured twice"),
   (unknownLocal, "Captured local variable not in scope"),
   (objectSuperCall, "java.lang.Object has no superclass constructor"),
   (loadFile, "I/O load file error"),
   (projectInfo, "Project information"),
   (unknownType, "Unknown type in fixture"),
   (badTypeExpr, "Malformed type expression"),
   (duplicateClass, "Duplicate class declaration"),
   (badStep, "Malformed program step"),
   (unknownSite, "Reference to an unknown call site"),
   (badOption, "Invalid option value"),
   (cyclicHierarchy, "Cyclic class hierarchy"),
   (badMember, "Malformed class or member declaration"),
   (observationInfo, "Observability information"),
   (timings, "Pipeline timings")]

/-- A number in at least four digits. -/
def fourDigits (n : Nat) : String :=
  let s := toString n
  String.ofList (List.replicate (4 - s.length) '0') ++ s

/-- The stable identifier of a code. -/
def id (c : Code) : String :=
  let n := c.number.toNat
  if 3000 ≤ n ∧ n < 4000 then "RES" ++ fourDigits n
  else if 4000 ≤ n ∧ n < 5000 then "IO" ++ fourDigits n
  else if 5000 ≤ n ∧ n < 6000 then "PRJ" ++ fourDigits n
  else if 6000 ≤ n ∧ n < 7000 then "OBS" ++ fourDigits n
  else "E0000"

/-- The title of a code; a code that is not known is an unknown error. -/
def title (c : Code) : String :=
  (titles.lookup c).getD "Unknown error"

/-- A code as text. -/
def text (c : Code) : String :=
  "[" ++ c.id ++ "]: " ++ c.title

/-- The known code with an identifier. -/
def ofId? (s : String) : Option Code :=
  (titles.find? (·.1.id = s)).map (·.1)

end Code

end CallResolution
