import CallResolution.Members.Signature

/-!
# Member tables

The table of a class holds its declared members and what it inherits. Inherited methods are
merged in one supertype at a time: a method of a signature that the table has already is
dropped, unless the one in the table is abstract and inherited itself; then a concrete method
takes its place, and a further abstract one is kept as a conflict. Tables are made once and
kept.
-/

namespace CallResolution

/-- Why there is no member table. -/
inductive TableFault where
  /-- The table is being made right now. -/
  | building
  /-- The type is neither a class nor an array. -/
  | notClass
  deriving DecidableEq, Repr, Inhabited

/-- What a fault says. -/
def TableFault.message : TableFault → String
  | .building => "expanded member table is being built"
  | .notClass => "expanded table of a non-class type"

namespace MemberTable

/-- Adds an overload behind those the table has. -/
def addMethod (t : MemberTable) (name : String) (s : Shadow) : MemberTable :=
  { t with methods := Assoc.put name (t.overloads name ++ [s]) t.methods }

/-- Adds a field unless the table has one of this name. -/
def addField (t : MemberTable) (name : String) (f : FieldId) : MemberTable :=
  if (t.field? name).isSome then t else { t with fields := t.fields ++ [(name, f)] }

/-- Replaces the first overload of a name that satisfies a test. -/
def updateFirst (p : Shadow → Bool) (f : Shadow → Shadow) : List Shadow → List Shadow
  | [] => []
  | s :: ss => if p s then f s :: ss else s :: updateFirst p f ss

end MemberTable

namespace Universe

/-- Whether a method becomes a member of a subclass: private methods do not, and methods of a
package only inside it. -/
def inheritable (u : Universe) (m : Method) (into : TypeId) : Bool :=
  match m.access with
  | .priv => false
  | .pkg => u.types.samePackage m.owner into
  | _ => true

/-- Whether two callables have processed signatures with the same erased parameter types. -/
def sameSignature (u : Universe) (a b : MethodId) : Bool :=
  let ma := u.method a
  let mb := u.method b
  ma.isResolved && mb.isResolved && ma.params.map u.types.erased = mb.params.map u.types.erased

/-- The shadows of the conflicts of two abstract methods of one signature. -/
def addConflicts (existing : Shadow) : List MethodId → Shadow
  | [] => existing
  | c :: cs =>
    if c = existing.method || c ∈ existing.conflicts then addConflicts existing cs
    else addConflicts { existing with conflicts := existing.conflicts ++ [c] } cs

/-- Merges an inherited method into the one of the same signature that the table of `owner`
has. -/
def mergeShadow (u : Universe) (owner : TypeId) (incoming existing : Shadow) : Shadow :=
  let cur := u.method existing.method
  if cur.owner = owner || existing.method = incoming.method then existing
  else if !cur.flags.isAbstract then existing
  else if !(u.method incoming.method).flags.isAbstract then ⟨incoming.method, []⟩
  else addConflicts existing (incoming.method :: incoming.conflicts)

/-- Merges one inherited method into a table. -/
def inheritMethod (u : Universe) (name : String) (t : MemberTable) (s : Shadow) : MemberTable :=
  if u.inheritable (u.method s.method) t.owner then
    let same (x : Shadow) : Bool := u.sameSignature x.method s.method
    if (t.overloads name).any same then
      { t with
        methods := Assoc.put name
          (MemberTable.updateFirst same (u.mergeShadow t.owner s) (t.overloads name)) t.methods }
    else t.addMethod name s
  else t

/-- Adds an inherited field to a table; private fields are not inherited. -/
def inheritField (u : Universe) (t : MemberTable) (name : String) (f : FieldId) : MemberTable :=
  if (u.field? f).any (·.access ≠ .priv) then t.addField name f else t

/-- Merges the table of a supertype into a table. -/
def inherit (u : Universe) (t «from» : MemberTable) : MemberTable :=
  let t := «from».methods.foldl (fun t (name, ss) => ss.foldl (u.inheritMethod name) t) t
  «from».fields.foldl (fun t (name, f) => u.inheritField t name f) t

/-- The table of what a class declares. -/
def declaredTable (u : Universe) (cls : TypeId) : MemberTable :=
  let c := u.membersOf cls
  let t := c.methods.foldl (fun t id => t.addMethod (u.method id).name ⟨id, []⟩) { owner := cls }
  c.fields.foldl (fun t id => t.addField ((u.field? id).elim "" (·.name)) id) t

/-- The classes whose tables are merged into that of a class. An interface has the members of
the root class too. -/
def tableParents (u : Universe) (cls : TypeId) : List TypeId :=
  let up := u.types.parents cls
  let up := if (u.types.classInfo? cls).any (·.flags.isInterface) then up ++ [.object] else up
  up.filter (· ≠ cls)

/-- Sets the state of the table of a class. -/
def setTable (cls : TypeId) (st : TableState) : UniverseM Unit :=
  modifyMembers cls ({ · with table := st })

/-- Merges the tables of supertypes into a table; a supertype without a table adds nothing. -/
def mergeTables (tableOf : TypeId → UniverseM (Except TableFault MemberTable)) :
    MemberTable → List TypeId → UniverseM MemberTable
  | t, [] => return t
  | t, p :: ps => do
    match ← tableOf p with
    | .ok up => mergeTables tableOf ((← get).inherit t up) ps
    | .error _ => mergeTables tableOf t ps

/-- Gathers the members that a class declares and inherits. -/
def gatherTable (tableOf : TypeId → UniverseM (Except TableFault MemberTable)) (cls : TypeId) :
    UniverseM MemberTable := do
  let _ ← withSignature ((← get).membersOf cls).methods
  let u ← get
  mergeTables tableOf (u.declaredTable cls) (u.tableParents cls)

/-- The table of a class, where supertypes are followed at most `fuel` times. -/
def classTable : Nat → TypeId → UniverseM (Except TableFault MemberTable)
  | 0, _ => return .error .building
  | fuel + 1, cls => do
    match ((← get).membersOf cls).table with
    | .built t => return .ok t
    | .building => return .error .building
    | .unbuilt =>
      setTable cls .building
      let t ← gatherTable (classTable fuel) cls
      setTable cls (.built t)
      return .ok t

/-- The cloning method and the length field of arrays, which are made on first use. -/
def arrayMembers : UniverseM (MethodId × FieldId) := do
  let u ← get
  if u.arrayClone.isSome then return (u.arrayClone, u.arrayLength)
  let clone ← allocMethod
    { name := "clone", owner := .object, access := .pub, flags := { isFinal := true }, returns := .object }
  let length ← allocField
    { name := "length", owner := .object, type := .ofPrimitive .int, access := .pub,
      flags := { isFinal := true } }
  modify ({ · with arrayClone := clone, arrayLength := length })
  return (clone, length)

/-- The table of an array: a public cloning method, a length field, and the methods of the
root class without its own cloning method. -/
def arrayTableFrom (u : Universe) (arr : TypeId) (clone : MethodId) (length : FieldId)
    (root : MemberTable) : MemberTable :=
  let t : MemberTable := { owner := arr, methods := [("clone", [⟨clone, []⟩])], fields := [("length", length)] }
  root.methods.foldl (fun t (name, ss) => ss.foldl (fun t s =>
    if name = "clone" && (u.method s.method).params.isEmpty then t
    else t.addMethod name ⟨s.method, []⟩) t) t

/-- Following as many supertypes as there are types visits every class. -/
def tableFuel (u : Universe) : Nat :=
  u.types.shapes.size + 1

/-- The member table of a class, interface or array type, made on first use. -/
def memberTable (t : TypeId) : UniverseM (Except TableFault MemberTable) := do
  let u ← get
  if u.types.isArray t then
    match u.arrayTables.lookup t with
    | some table => return .ok table
    | none =>
      match ← classTable u.tableFuel .object with
      | .error f => return .error f
      | .ok root =>
        let (clone, length) ← arrayMembers
        let table := (← get).arrayTableFrom t clone length root
        modify fun u => { u with arrayTables := u.arrayTables ++ [(t, table)] }
        return .ok table
  else
    let cls := u.types.classOf t
    if cls.isSome then classTable u.tableFuel cls else return .error .notClass

/-- The overloads of a name in the member table of a type; without a table there are none. -/
def overloadsIn (t : TypeId) (name : String) : UniverseM (List Shadow) := do
  match ← memberTable t with
  | .ok table => return table.overloads name
  | .error _ => return []

end Universe

end CallResolution
