import CallResolution.Members.Signature
import CallResolution.Text.Words

/-!
# Accessors

A member that is out of reach of a nested class is called through an accessor. One accessor is
made for each key: a static method of the host that takes the receiver first, or a constructor
with one more parameter of a placeholder class, which tells it apart from the constructor it
forwards to.
-/

namespace CallResolution.Universe

open Text

/-- The placeholder class of the outermost class around a class. A declared class that already
has the name of the placeholder takes its part. -/
def placeholder (of : TypeId) : UniverseM TypeId := do
  let u ← get
  let top := u.types.outermost of
  match u.placeholders.lookup top with
  | some t => return t
  | none =>
    let info := u.types.classInfo? top
    let made ← onTypes <| TypeStore.registerClass
      { name := info.elim "$" (·.name ++ "$")
        package := info.elim "" (·.package)
        flags := { isSynthetic := true, isFinal := true }
        super := .object }
    let s ← getTypes
    let id := match made with
      | .ok id => id
      | .error _ => (s.classNamed? (s.qualifiedName top ++ "$")).getD .none
    modify fun u => { u with placeholders := Assoc.put top id u.placeholders }
    return id

/-- The `n`-th accessor of a host is named after its number. -/
def accessorName (n : Nat) : String :=
  "access$" ++ padZeros 3 (toString n)

/-- The accessor that forwards to a method of a processed signature. -/
def methodAccessor (u : Universe) (key : AccessorKey) (member : Method) : Method :=
  { name := accessorName (u.membersOf key.host).accessors.length
    owner := key.host
    flags := { isSynthetic := true, isAccessor := true, isStatic := true }
    params := (if member.flags.isStatic then [] else [key.base]) ++ member.params
    returns := member.returns
    throws := member.throws
    target := key.member
    decl := member.decl }

/-- The accessor that forwards to a constructor. -/
def ctorAccessor (key : AccessorKey) (member : Method) (placeholder : TypeId) : Method :=
  { name := constructorName
    owner := member.owner
    kind := .constructor
    flags := { isSynthetic := true, isAccessor := true, isVariadic := member.flags.isVariadic }
    params := member.params ++ [placeholder]
    returns := member.returns
    throws := member.throws
    target := key.member
    decl := member.decl }

/-- The accessor of a key, and whether it was made just now. A member with a broken signature
has none. -/
def accessor (key : AccessorKey) : UniverseM (MethodId × Bool) := do
  match (← get).accessors.lookup key with
  | some id => return (id, false)
  | none =>
    if ← signature key.member then
      let member := (← get).method key.member
      let acc ← match key.kind with
        | .constructor => pure (ctorAccessor key member (← placeholder member.owner))
        | .method => pure ((← get).methodAccessor key member)
      let id ← allocMethod acc
      modifyMembers acc.owner fun c => { c with accessors := c.accessors ++ [id] }
      modify fun u => { u with accessors := Assoc.put key id u.accessors }
      return (id, true)
    else return (.none, false)

/-- How many accessors were made. -/
def accessorCount (u : Universe) : Nat :=
  u.accessors.length

end CallResolution.Universe
