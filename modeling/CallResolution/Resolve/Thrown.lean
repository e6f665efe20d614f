import CallResolution.Resolve.Generic
import CallResolution.Resolve.Session

/-!
# Exceptions of calls

Which exceptions a call raises. When the bound method has conflicts, only those count that
every conflict allows. A checked exception that the code around the call neither catches nor
declares is reported.
-/

namespace CallResolution

/-- Whether an exception is an instance of one of several classes. -/
def TypeStore.coveredBy (s : TypeStore) (classes : List TypeId) (ex : TypeId) : Bool :=
  classes.any (s.isSubclass ex)

/-- Adds an exception that narrows one of those met so far. -/
def TypeStore.addNarrower (s : TypeStore) (met : List TypeId) (ex : TypeId) : List TypeId :=
  if ex ∉ met && s.coveredBy met ex then met ++ [ex] else met

/-- The exceptions that a method and all its conflicts allow: those of the method and the
narrower ones of the conflicts, as far as each conflict declares them. -/
def TypeStore.mergeThrown (s : TypeStore) (thrown : List TypeId) (conflicts : List (List TypeId)) : List TypeId :=
  let met := conflicts.foldl (fun met exs => exs.foldl s.addNarrower met) thrown
  met.filter fun ex => conflicts.all (s.coveredBy · ex)

namespace Session

/-- Reports the checked exceptions that are neither caught nor declared. -/
def checkHandled (env : Env) (site : Site) (thrown : List TypeId) : SessionM Unit := do
  let s ← getTypes
  let handled := (env.frame 0).handled
  let unhandled := thrown.filter fun ex => s.isChecked ex && !s.coveredBy handled ex
  unhandled.forM fun ex =>
    reportError .uncaughtCheckedException site
      s!"unreported exception {s.name ex}; it must be caught or declared to be thrown"

/-- The exceptions of a call of a method that meets the listed conflicts. -/
def callThrows (env : Env) (site : Site) (conflicts : List MethodId) (target : MethodId)
    (args : List TypeId) : SessionM (List TypeId) := do
  let m := (← getUniverse).method target
  let thrown ← onTypes (m.throws.mapM (m.thrownType site args))
  let _ ← onUniverse (Universe.withSignature conflicts)
  let u ← getUniverse
  let thrown :=
    if conflicts.isEmpty then thrown
    else u.types.mergeThrown thrown (conflicts.map fun c => (u.method c).throws)
  checkHandled env site thrown
  return thrown

end Session

end CallResolution
