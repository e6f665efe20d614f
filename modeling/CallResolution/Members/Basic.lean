import CallResolution.Assoc
import CallResolution.Diagnostic.Basic
import CallResolution.Types.Making

/-!
# Members

Methods, constructors and fields, the members that each class declares, and the universe that
holds them together with the types. Signatures are kept as text until they are first needed.
-/

namespace CallResolution

open Source

/-- The number of a method or constructor. -/
structure MethodId where
  /-- The number. -/
  index : Nat
  deriving DecidableEq, Repr, Inhabited

/-- No method. -/
def MethodId.none : MethodId := ⟨0⟩

/-- Whether there is a method. -/
def MethodId.isSome (m : MethodId) : Bool :=
  m != none

/-- The number of a field. -/
structure FieldId where
  /-- The number. -/
  index : Nat
  deriving DecidableEq, Repr, Inhabited

/-- No field. -/
def FieldId.none : FieldId := ⟨0⟩

/-- Whether there is a field. -/
def FieldId.isSome (f : FieldId) : Bool :=
  f != none

/-- The marks of a method or constructor. -/
structure MethodFlags where
  /-- Static. -/
  isStatic : Bool := false
  /-- Abstract. -/
  isAbstract : Bool := false
  /-- Final. -/
  isFinal : Bool := false
  /-- Of variable arity. -/
  isVariadic : Bool := false
  /-- Made by a compiler. -/
  isSynthetic : Bool := false
  /-- A bridge made by a compiler. -/
  isBridge : Bool := false
  /-- Deprecated. -/
  isDeprecated : Bool := false
  /-- The default body of an interface method. -/
  isDefault : Bool := false
  /-- One of the two methods that every enumeration has. -/
  isEnumSupport : Bool := false
  /-- An accessor that forwards to a member out of reach. -/
  isAccessor : Bool := false
  deriving DecidableEq, Repr, Inhabited

/-- The marks as one number. -/
def MethodFlags.bits (f : MethodFlags) : Nat :=
  flagSum [(f.isStatic, 1), (f.isAbstract, 2), (f.isFinal, 4), (f.isVariadic, 8), (f.isSynthetic, 16), (f.isBridge, 32),
    (f.isDeprecated, 64), (f.isDefault, 128), (f.isEnumSupport, 256), (f.isAccessor, 512)]

/-- The marks of a field. -/
structure FieldFlags where
  /-- Static. -/
  isStatic : Bool := false
  /-- Final. -/
  isFinal : Bool := false
  /-- Made by a compiler. -/
  isSynthetic : Bool := false
  /-- Deprecated. -/
  isDeprecated : Bool := false
  deriving DecidableEq, Repr, Inhabited

/-- The marks as one number. -/
def FieldFlags.bits (f : FieldFlags) : Nat :=
  flagSum [(f.isStatic, 1), (f.isFinal, 2), (f.isSynthetic, 4), (f.isDeprecated, 8)]

/-- Methods and constructors. -/
inductive CallableKind where
  /-- A method. -/
  | method
  /-- A constructor. -/
  | constructor
  deriving DecidableEq, Repr, Inhabited

/-- The name that every constructor carries. -/
def constructorName : String := "<init>"

/-- The signature of a callable as it is written. -/
structure SignatureText where
  /-- The written name. -/
  name : String
  /-- The declarations of type parameters. -/
  typeParams : List String
  /-- The parameter types. -/
  params : List String
  /-- The result type, blank for none. -/
  returns : String
  /-- The exceptions. -/
  throws : List String
  deriving DecidableEq, Repr, Inhabited

/-- How far a signature has been processed. -/
inductive SignatureState where
  /-- Only the text is known. -/
  | pending (text : SignatureText)
  /-- The text is being processed. -/
  | resolving
  /-- The types are known. -/
  | resolved
  /-- Some type could not be resolved; the callable never applies. -/
  | broken
  deriving DecidableEq, Repr, Inhabited

/-- The name of a state. -/
def SignatureState.name : SignatureState → String
  | .pending _ => "pending"
  | .resolving => "resolving"
  | .resolved => "resolved"
  | .broken => "broken"

/-- A method or constructor of one declaring class. -/
structure Method where
  /-- The name. -/
  name : String
  /-- The declaring class. -/
  owner : TypeId
  /-- Method or constructor. -/
  kind : CallableKind := .method
  /-- Who may call it. -/
  access : Access := .pkg
  /-- The marks. -/
  flags : MethodFlags := {}
  /-- The parameter types. -/
  params : List TypeId := []
  /-- The result type. -/
  returns : TypeId := .none
  /-- The exceptions. -/
  throws : List TypeId := []
  /-- The type variables of a generic method. -/
  typeParams : List TypeId := []
  /-- Where it is declared. -/
  decl : Span := .none
  /-- How far the signature has been processed. -/
  signature : SignatureState := .resolved
  /-- The parameters that a constructor of a local class gains when the class is complete. -/
  captureParams : List TypeId := []
  /-- The member that an accessor forwards to. -/
  target : MethodId := .none
  deriving DecidableEq, Repr, Inhabited

namespace Method

/-- Whether this is a constructor. -/
def isConstructor (m : Method) : Bool :=
  m.kind = .constructor

/-- Whether the method has type variables of its own. -/
def isGeneric (m : Method) : Bool :=
  !m.typeParams.isEmpty

/-- Whether the signature has been processed without a fault. -/
def isResolved (m : Method) : Bool :=
  m.signature = .resolved

end Method

/-- A field of one declaring class. -/
structure Field where
  /-- The name. -/
  name : String
  /-- The declaring class. -/
  owner : TypeId
  /-- The type. -/
  type : TypeId
  /-- Who may use it. -/
  access : Access := .pkg
  /-- The marks. -/
  flags : FieldFlags := {}
  deriving DecidableEq, Repr, Inhabited

/-- A method as a class sees it, with the abstract methods of the same signature that it meets
on other paths and whose exceptions have to be merged. -/
structure Shadow where
  /-- The method. -/
  method : MethodId
  /-- The abstract methods in conflict with it. -/
  conflicts : List MethodId := []
  deriving DecidableEq, Repr, Inhabited

/-- All members that a class has, declared and inherited. Names are in the order in which they
were met. -/
structure MemberTable where
  /-- The class, or array type. -/
  owner : TypeId
  /-- The overloads of each name. -/
  methods : List (String × List Shadow) := []
  /-- The field of each name. -/
  fields : List (String × FieldId) := []
  deriving DecidableEq, Repr, Inhabited

/-- The overloads of a name. -/
def MemberTable.overloads (t : MemberTable) (name : String) : List Shadow :=
  (t.methods.lookup name).getD []

/-- The field with a name. -/
def MemberTable.field? (t : MemberTable) (name : String) : Option FieldId :=
  t.fields.lookup name

/-- Whether the member table of a class has been made. -/
inductive TableState where
  /-- Not yet. -/
  | unbuilt
  /-- It is being made. -/
  | building
  /-- It has been made. -/
  | built (t : MemberTable)
  deriving DecidableEq, Repr, Inhabited

/-- The name of a state. -/
def TableState.name : TableState → String
  | .unbuilt => "unbuilt"
  | .building => "building"
  | .built _ => "built"

/-- A local variable that a local class copies. -/
structure Capture where
  /-- The name of the variable. -/
  name : String
  /-- Its type. -/
  type : TypeId
  /-- The field that holds the copy. -/
  field : FieldId
  deriving DecidableEq, Repr, Inhabited

/-- What a universe knows of the members of one class. -/
structure ClassMembers where
  /-- The methods in the order of declaration. -/
  methods : List MethodId := []
  /-- The constructors in the order of declaration. -/
  ctors : List MethodId := []
  /-- The fields in the order of declaration. -/
  fields : List FieldId := []
  /-- The accessors; they never compete with declared members. -/
  accessors : List MethodId := []
  /-- The method that was declared first of each name. -/
  heads : List (String × MethodId) := []
  /-- The method that was declared last of each name. -/
  tails : List (String × MethodId) := []
  /-- The table of all members. -/
  table : TableState := .unbuilt
  /-- The captured local variables. -/
  captures : List Capture := []
  /-- Whether the body of the class is finished. -/
  complete : Bool := true
  deriving DecidableEq, Repr, Inhabited

/-- What an accessor is made for: the class that hosts it, the member it forwards to, and the
type that an instance member is called on. -/
structure AccessorKey where
  /-- The class that hosts the accessor. -/
  host : TypeId
  /-- The member. -/
  member : MethodId
  /-- The receiver type, none for static members and constructors. -/
  base : TypeId
  /-- Whether the member is a method or a constructor. -/
  kind : CallableKind
  deriving DecidableEq, Repr, Inhabited

/-- The types and members of one document, and what has been reported about them. -/
structure Universe where
  /-- The types. -/
  types : TypeStore
  /-- The methods and constructors; the first one has the number 1. -/
  methods : Array Method := #[]
  /-- The fields; the first one has the number 1. -/
  fields : Array Field := #[]
  /-- The links between callables: behind a method the next one that its class declared under
  the same name, and behind a constructor the next one of its class. -/
  links : List (MethodId × MethodId) := []
  /-- The members of each class. -/
  members : List (TypeId × ClassMembers) := []
  /-- The accessors made so far. -/
  accessors : List (AccessorKey × MethodId) := []
  /-- The placeholder class of each outermost class. -/
  placeholders : List (TypeId × TypeId) := []
  /-- The member tables of array types. -/
  arrayTables : List (TypeId × MemberTable) := []
  /-- The cloning method of arrays. -/
  arrayClone : MethodId := .none
  /-- The length field of arrays. -/
  arrayLength : FieldId := .none
  /-- The diagnostics reported so far, in order. -/
  reports : Array Diagnostic := #[]
  deriving Repr, Inhabited

/-- A step that may change a universe. -/
abbrev UniverseM := StateM Universe

namespace Universe

/-- Runs a step on the types of a universe. -/
def onTypes {α : Type} (x : TypeM α) : UniverseM α := fun u =>
  let (a, types) := x u.types
  (a, { u with types })

/-- The types of the universe. -/
def getTypes : UniverseM TypeStore :=
  return (← get).types

/-- Reports a diagnostic. -/
def report (d : Diagnostic) : UniverseM Unit :=
  modify fun u => { u with reports := u.reports.push d }

/-- The method with a number. -/
def method? (u : Universe) (id : MethodId) : Option Method :=
  if id = .none then none else u.methods[id.index - 1]?

/-- The method with a number; a number without a method gives a method that nothing can call.
-/
def method (u : Universe) (id : MethodId) : Method :=
  (u.method? id).getD { name := "", owner := .none, signature := .broken }

/-- The field with a number. -/
def field? (u : Universe) (id : FieldId) : Option Field :=
  if id = .none then none else u.fields[id.index - 1]?

/-- Changes a method. -/
def modifyMethod (id : MethodId) (f : Method → Method) : UniverseM Unit :=
  modify fun u => { u with methods := u.methods.modify (id.index - 1) f }

/-- Adds a method without giving it to a class. -/
def allocMethod (m : Method) : UniverseM MethodId := fun u =>
  (⟨u.methods.size + 1⟩, { u with methods := u.methods.push m })

/-- Adds a field without giving it to a class. -/
def allocField (f : Field) : UniverseM FieldId := fun u =>
  (⟨u.fields.size + 1⟩, { u with fields := u.fields.push f })

/-- The members of a class of which nothing is known yet. Only local classes start incomplete.
-/
def freshMembers (u : Universe) (cls : TypeId) : ClassMembers :=
  { complete := !(u.types.classInfo? cls).any (·.flags.isLocal) }

/-- The members of the class behind a type. -/
def membersOf (u : Universe) (t : TypeId) : ClassMembers :=
  let cls := u.types.classOf t
  (u.members.lookup cls).getD (u.freshMembers cls)

/-- Changes the members of the class behind a type. -/
def modifyMembers (t : TypeId) (f : ClassMembers → ClassMembers) : UniverseM Unit :=
  modify fun u => { u with members := Assoc.put (u.types.classOf t) (f (u.membersOf t)) u.members }

/-- The callable that is linked behind another one. -/
def next (u : Universe) (id : MethodId) : MethodId :=
  (u.links.lookup id).getD .none

/-- Links a callable behind the last one of a chain, if the chain has one. -/
def linkBehind (last : Option MethodId) (id : MethodId) : UniverseM Unit :=
  modify fun u => { u with links := last.elim u.links (Assoc.put · id u.links) }

/-- The last callable of the chain that a new one joins: the constructors of the class, or its
methods of the same name. An accessor joins none. -/
def lastBefore (m : Method) (c : ClassMembers) : Option MethodId :=
  if m.isConstructor then c.ctors.getLast?
  else if m.flags.isAccessor then none
  else c.tails.lookup m.name

/-- The members of a class with one more callable. -/
def withMember (m : Method) (id : MethodId) (c : ClassMembers) : ClassMembers :=
  if m.isConstructor then { c with ctors := c.ctors ++ [id] }
  else if m.flags.isAccessor then { c with accessors := c.accessors ++ [id] }
  else
    { c with
      methods := c.methods ++ [id]
      heads := if (c.tails.lookup m.name).isSome then c.heads else Assoc.put m.name id c.heads
      tails := Assoc.put m.name id c.tails }

@[simp] theorem withMember_table (m : Method) (id : MethodId) (c : ClassMembers) : (withMember m id c).table = c.table := by
  unfold withMember
  split
  · rfl
  · split <;> rfl

@[simp] theorem withMember_complete (m : Method) (id : MethodId) (c : ClassMembers) :
    (withMember m id c).complete = c.complete := by
  unfold withMember
  split
  · rfl
  · split <;> rfl

/-- Only a method that is no accessor comes to the methods of its class. -/
theorem withMember_methods (m : Method) (id : MethodId) (c : ClassMembers) : (withMember m id c).methods =
    if m.isConstructor || m.flags.isAccessor then c.methods else c.methods ++ [id] := by
  unfold withMember
  cases m.isConstructor <;> cases m.flags.isAccessor <;> rfl

/-- Adds a method or constructor to its class, at the end of its chain. -/
def addMethod (m : Method) : UniverseM MethodId := do
  let m := if m.isConstructor then { m with name := constructorName } else m
  let id ← allocMethod m
  linkBehind (lastBefore m ((← get).membersOf m.owner)) id
  modifyMembers m.owner (withMember m id)
  return id

/-- Adds a field to its class. -/
def addField (f : Field) : UniverseM FieldId := do
  let id ← allocField f
  modifyMembers f.owner fun c => { c with fields := c.fields ++ [id] }
  return id

/-- The callables of a chain from one of them on, of which at most `fuel` are followed. -/
def chainWithin (u : Universe) : Nat → MethodId → List MethodId
  | 0, _ => []
  | fuel + 1, id => if id.isSome then id :: u.chainWithin fuel (u.next id) else []

/-- The declared methods of a name, as they are linked. Following as many links as there are
callables goes through every chain. -/
def overloads (u : Universe) (t : TypeId) (name : String) : List MethodId :=
  u.chainWithin u.methods.size (((u.membersOf t).heads.lookup name).getD .none)

/-- The declared constructors, in the order of declaration. -/
def constructors (u : Universe) (t : TypeId) : List MethodId :=
  (u.membersOf t).ctors

/-- The first declared field of a name. -/
def declaredField? (u : Universe) (t : TypeId) (name : String) : Option FieldId :=
  (u.membersOf t).fields.find? fun id => (u.field? id).any (·.name = name)

/-- The name of the element type of a variable-arity parameter. An element that is an array
again takes a level of the depth to which types are named. -/
def componentName (s : TypeStore) (t : TypeId) : String :=
  match s.shape t with
  | .array e d =>
    if d.toNat ≤ 1 then s.name e
    else s.nameWith s.qualifiedName (TypeStore.termDepth - 1) e ++ TypeExpr.brackets (d.toNat - 1)
  | _ => s.name t

/-- The parameter types of a header; the last one may be of variable arity. -/
def paramNames (s : TypeStore) (variadic : Bool) : List TypeId → List String
  | [] => []
  | [p] => [if variadic && s.isArray p then componentName s p ++ "..." else s.name p]
  | p :: ps => s.name p :: paramNames s variadic ps

/-- A name with parameter types, as messages show it. -/
def headerOf (s : TypeStore) (name : String) (params : List TypeId) (variadic : Bool) : String :=
  name ++ "(" ++ ", ".intercalate (paramNames s variadic params) ++ ")"

/-- The header of a callable, which for a constructor has the name of the class. -/
def header (u : Universe) (id : MethodId) : String :=
  match u.method? id with
  | none => "<none>"
  | some m =>
    let name :=
      if m.isConstructor then (u.types.classInfo? m.owner).elim m.name (·.name) else m.name
    headerOf u.types name m.params m.flags.isVariadic

/-- The qualified name of the class behind a type. -/
def className (u : Universe) (t : TypeId) : String :=
  u.types.qualifiedName (u.types.classOf t)

end Universe

end CallResolution
