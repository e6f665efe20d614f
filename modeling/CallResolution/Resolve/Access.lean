import CallResolution.Call.Basic

/-!
# Access

Which members a call may use. Classes with the same outermost class share everything; beyond
that the access of a member decides.
-/

namespace CallResolution

namespace Env

/-- Whether some class around the call inherits from a class. -/
def inherits (env : Env) (s : TypeStore) (owner : TypeId) : Bool :=
  env.frames.any fun f => s.isSubclass f.type owner

/-- Whether the call shares its outermost class with a class. -/
def sharesOutermost (env : Env) (s : TypeStore) (owner : TypeId) : Bool :=
  s.outermost env.this = s.outermost owner

end Env

/-- Whether a type is an interface, where a type variable stands for its erasure. -/
def TypeStore.isInterface (s : TypeStore) (t : TypeId) : Bool :=
  match s.erased t, s.shape t with
  | .plain u, .typeVar _ => (s.classInfo? u).any (·.flags.isInterface)
  | .array _ _, .typeVar _ => false
  | _, _ => (s.classInfo? t).any (·.flags.isInterface)

/-- A receiver as far as access is concerned. -/
structure Qualifier where
  /-- Its static type. -/
  type : TypeId
  /-- Whether it is the current instance as one of its superclass. -/
  isSuper : Bool
  deriving DecidableEq, Repr, Inhabited

/-- Whether a protected method of another outermost class may be called. An instance method of
another package is in reach of subclasses only, and through a type that some class around the
call is a superclass of. -/
def protectedAccessible (s : TypeStore) (env : Env) (m : Method) (search : TypeId) (q : Option Qualifier) : Bool :=
  if q.any fun q => s.isInterface q.type then false
  else if s.samePackage env.this m.owner || q.any (·.isSuper) then true
  else if !env.inherits s m.owner then false
  else m.flags.isStatic || env.frames.any fun f => s.isSubclass search f.type

/-- Whether a method that was found by searching a type may be called. -/
def memberAccessible (s : TypeStore) (env : Env) (m : Method) (search : TypeId) (q : Option Qualifier) : Bool :=
  env.sharesOutermost s m.owner ||
    match m.access with
    | .priv => false
    | .pkg => s.samePackage env.this m.owner
    | .prot => protectedAccessible s env m search q
    | .pub => true

/-- Whether a constructor may be called. An explicit constructor call, or the creation of an
anonymous class, reaches the protected constructors of other packages. -/
def ctorAccessible (s : TypeStore) (env : Env) (m : Method) (isExplicit : Bool) : Bool :=
  env.sharesOutermost s m.owner ||
    match m.access with
    | .priv => false
    | .pub => true
    | .prot => s.samePackage env.this m.owner || isExplicit
    | .pkg => s.samePackage env.this m.owner

/-- Whether a field may be used. -/
def fieldAccessible (s : TypeStore) (env : Env) (f : Field) : Bool :=
  env.sharesOutermost s f.owner ||
    match f.access with
    | .priv => false
    | .pkg => s.samePackage env.this f.owner
    | .prot => s.samePackage env.this f.owner || env.inherits s f.owner
    | .pub => true

/-- Whether code of a class reaches the protected members of another class directly. -/
def protectedDirect (s : TypeStore) (cls owner : TypeId) : Bool :=
  s.isSubclass cls owner || s.samePackage cls owner

end CallResolution
