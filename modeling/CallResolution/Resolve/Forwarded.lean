import CallResolution.Members.Accessor
import CallResolution.Resolve.Access

/-!
# Calls through accessors

A private member of another class with the same outermost class, and a protected member that
only a class around the call inherits, are called through accessors. A lowered call passes the
receiver first.
-/

namespace CallResolution.Universe

/-- The call of the accessor of a key. -/
def forwarded (key : AccessorKey) (args : List Expr) : UniverseM (Option LoweredCall) := do
  let (acc, _) ← accessor key
  return if acc.isSome then some ⟨acc, args⟩ else none

/-- The class that hosts the accessor for an unqualified call of a member found in a frame
around the call. A direct call has none. -/
def lexicalHost? (u : Universe) (env : Env) (m : Method) (frame : Nat) : Option TypeId :=
  if frame = 0 then none
  else match m.access with
    | .priv => some (env.frame frame).type
    | .prot => if protectedDirect u.types env.this m.owner then none else some (env.frame frame).type
    | _ => none

/-- The lowered form of an unqualified call. -/
def forwardUnqualified (env : Env) (site : Site) (id : MethodId) (frame : Nat) : UniverseM (Option LoweredCall) := do
  let u ← get
  let m := u.method id
  match u.lexicalHost? env m frame with
  | none => return none
  | some host =>
    if m.flags.isStatic then
      forwarded { host, member := id, base := .none, kind := .method } site.args
    else
      forwarded { host, member := id, base := host, kind := .method }
        ({ form := .this (env.via frame), type := host, span := site.span } :: site.args)

/-- The class that hosts the accessor for a call with a receiver. A direct call has none. -/
def qualifiedHost? (u : Universe) (env : Env) (m : Method) (recv : Expr) : Option TypeId :=
  let this := u.types.classOf env.this
  if this = m.owner || recv.form.isSuper then none
  else match m.access with
    | .priv => if m.owner.isSome then some m.owner else none
    | .prot =>
      if protectedDirect u.types this m.owner then none
      else (env.frames.find? fun f => u.types.isSubclass f.type m.owner).map (·.type)
    | _ => none

/-- The lowered form of a call with a receiver. -/
def forwardQualified (env : Env) (site : Site) (id : MethodId) (recv : Expr) (recvType : TypeId) :
    UniverseM (Option LoweredCall) := do
  let u ← get
  let m := u.method id
  match u.qualifiedHost? env m recv with
  | none => return none
  | some host =>
    if m.flags.isStatic then
      forwarded { host, member := id, base := .none, kind := .method } site.args
    else
      let base ← onTypes (TypeStore.erasure recvType)
      forwarded { host, member := id, base, kind := .method } (recv :: site.args)

/-- The lowered form of a constructor call from the code of a class: a private constructor of
another class takes one more argument, of the placeholder class. -/
def forwardCtor (cls : TypeId) (id : MethodId) (args : List Expr) : UniverseM (Option LoweredCall) := do
  let u ← get
  let m := u.method id
  if m.access ≠ .priv || u.types.classOf cls = m.owner then return none
  match ← forwarded { host := m.owner, member := id, base := .none, kind := .constructor } args with
  | none => return none
  | some rw =>
    let mark : Expr := { form := .placeholder, type := ← placeholder m.owner }
    return some { rw with args := rw.args ++ [mark] }

end CallResolution.Universe
