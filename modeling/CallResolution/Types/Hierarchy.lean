import CallResolution.Types.Predefined

/-!
# Class hierarchies

Which classes a class lies in, and which it inherits from. The supertype relation may have
cycles, so the search for a superclass remembers what it has seen; it stops because every
class is looked at once at most.
-/

namespace CallResolution.TypeStore

/-- How many surrounding classes are followed at most. -/
def nestingLimit : Nat := 256

/-- Follows the surrounding classes of a class to the last one. -/
def outermostWithin (s : TypeStore) : Nat → TypeId → TypeId
  | 0, t => t
  | fuel + 1, t =>
    match s.classInfo? t with
    | some info => if info.outer.isSome then s.outermostWithin fuel info.outer else t
    | none => t

/-- The top-level class around the class of a type. -/
def outermost (s : TypeStore) (t : TypeId) : TypeId :=
  s.outermostWithin nestingLimit (s.classOf t)

/-- The package of a class, or of the element class of an array; blank for other types. -/
def packageOf (s : TypeStore) (t : TypeId) : String :=
  (s.classInfo? (s.baseElem t)).elim "" (·.package)

/-- Whether two types lie in the same package. -/
def samePackage (s : TypeStore) (a b : TypeId) : Bool :=
  s.packageOf a = s.packageOf b

/-- Whether a class is met on the way from another one outwards. -/
def enclosesWithin (s : TypeStore) (outer : TypeId) : Nat → TypeId → Bool
  | 0, _ => false
  | fuel + 1, inner =>
    if inner.isSome then
      inner = outer ||
        match s.classInfo? inner with
        | some info => s.enclosesWithin outer fuel info.outer
        | none => false
    else false

/-- Whether a class is, or lies around, another one. -/
def encloses (s : TypeStore) (outer inner : TypeId) : Bool :=
  s.enclosesWithin (s.classOf outer) nestingLimit (s.classOf inner)

/-- The superclass followed by the interfaces, each possibly parameterized. -/
def directSupertypes (s : TypeStore) (t : TypeId) : List TypeId :=
  match s.classInfo? t with
  | some info => (if info.super.isSome then [info.super] else []) ++ info.interfaces
  | none => []

/-- The superclass without type arguments. -/
def superClass (s : TypeStore) (t : TypeId) : TypeId :=
  (s.classInfo? t).elim .none fun info => s.classOf info.super

/-- The classes of the direct supertypes. -/
def parents (s : TypeStore) (t : TypeId) : List TypeId :=
  ((s.directSupertypes t).map s.classOf).filter TypeId.isSome

/-- Searches for a class among those that the classes of `work` inherit from, `seen` being all
that were ever put there. -/
def searchUp (s : TypeStore) (goal : TypeId) : Nat → (seen work : List TypeId) → Bool
  | 0, _, _ => false
  | _ + 1, _, [] => false
  | fuel + 1, seen, c :: work =>
    let up := s.parents c
    if goal ∈ up then true
    else
      let fresh := (up.filter (· ∉ seen)).eraseDups
      s.searchUp goal fuel (fresh ++ seen) (fresh ++ work)

/-- Whether a class is another one or inherits from it. Every class and interface inherits
from the root class. -/
def isSubclass (s : TypeStore) (sub sup : TypeId) : Bool :=
  let sub := s.classOf sub
  let sup := s.classOf sup
  sub.isSome && sup.isSome &&
    (sub = sup || sup = .object || s.searchUp sup (s.shapes.size + 1) [sub] [sub])

/-- Whether an exception has to be declared or caught. -/
def isChecked (s : TypeStore) (t : TypeId) : Bool :=
  !s.isBad t && !s.isSubclass t .runtimeException && !s.isSubclass t .error

end CallResolution.TypeStore
