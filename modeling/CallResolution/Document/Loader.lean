import CallResolution.Document.Schema
import CallResolution.Members.Capture
import CallResolution.Members.Predefined
import CallResolution.Members.Scope
import CallResolution.Resolve.Options
import CallResolution.Source.File

/-!
# Loading documents

What all parts of loading a document share: the universe that is built, the places at which
problems are reported, and the types that texts denote. A problem is reported and loading goes
on, with the bad type where a type is needed.
-/

namespace CallResolution

open Source Text

/-- A class that a document declares. -/
structure DeclaredClass where
  /-- The class. -/
  id : TypeId
  /-- Its declaration. -/
  decl : ClassBody
  /-- Its type variables with their declarations. -/
  params : List (TypeId × TypeParamExpr) := []
  deriving Repr, Inhabited

/-- The state of loading a document. -/
structure Loader where
  /-- The file that holds the document. -/
  file : File
  /-- The universe so far, with what was reported. -/
  world : Universe
  /-- The declared classes, in the order of declaration. -/
  classes : List DeclaredClass := []
  deriving Repr, Inhabited

/-- A step of loading a document. -/
abbrev LoadM := StateM Loader

namespace Loader

/-- Runs a step on the universe. -/
def onUniverse {α : Type} (x : UniverseM α) : LoadM α := fun l =>
  let (a, u) := x l.world
  (a, { l with world := u })

/-- Runs a step on the types. -/
def onTypes {α : Type} (x : TypeM α) : LoadM α :=
  onUniverse (Universe.onTypes x)

/-- The types. -/
def getTypes : LoadM TypeStore :=
  return (← get).world.types

/-- The span of as many bytes as a text has, at least one, from a place on. Something without
a place has the empty span at the start of the file. -/
def spanAt (f : File) (p : Place) (about : String) : Span :=
  if p.line = 0 then ⟨f.id, 0, 0⟩
  else f.spanAt ⟨p.line.toUInt32, p.col.toUInt32⟩ (max 1 about.utf8ByteSize).toUInt32

/-- The span of as many bytes as a text has, from a place on. -/
def span (p : Place) (about : String) : LoadM Span :=
  return spanAt (← get).file p about

/-- Reports an error about a text at a place. -/
def fault (code : Code) (p : Place) (about msg : String) : LoadM Unit := do
  let s ← span p about
  onUniverse (Universe.report (.error code s msg))

/-- Reports that a text denotes no type. -/
def typeFault (f : TypeFault) (src : String) (p : Place) : LoadM Unit :=
  fault f.code p src f.message

/-- The type that an expression denotes, with problems reported for a text. -/
def typeOfExpr (t : TypeExpr) (sc : Scope) (src : String) (p : Place) : LoadM (Option TypeId) := do
  match ← onTypes (TypeStore.resolveType sc t).run with
  | .ok id => return some id
  | .error f =>
    typeFault f src p
    return none

/-- The type that a text denotes, the bad type for a text that denotes none. -/
def typeOf (src : String) (sc : Scope) (p : Place) : LoadM TypeId := do
  match ← onTypes (TypeStore.typeOfText sc src).run with
  | .ok id => return id
  | .error f =>
    typeFault f src p
    return .bad

/-- The class or parameterized class that a text denotes. -/
def classOf? (src : String) (sc : Scope) (p : Place) : LoadM (Option TypeId) := do
  let id ← typeOf src sc p
  let s ← getTypes
  if s.isBad id then return none
  else if (s.classInfo? id).isSome then return some id
  else
    fault .badTypeExpr p src s!"{src} is not a class or interface type"
    return none

/-- The access that a modifier gives; an unknown one is reported and gives that of the
package. -/
def accessOf (modifier : String) (p : Place) (about msg : String) : LoadM Access := do
  match Access.ofName? modifier with
  | some a => return a
  | none =>
    fault .badMember p about msg
    return .pkg

/-- Reads a declaration of a local variable; one whose type denotes nothing has the bad type.
-/
def localOf (src : String) (sc : Scope) (p : Place) : LoadM (Option (String × TypeId)) := do
  match TypeExpr.parseLocal src with
  | .error f =>
    typeFault (.malformed src f) src p
    return none
  | .ok decl => return some (decl.name, (← typeOfExpr decl.type sc src p).getD .bad)

end Loader

/-- The options that a document sets. -/
structure OptionOverrides where
  /-- The language level. -/
  source : Option SourceLevel := none
  /-- Whether the use of deprecated callables is reported. -/
  deprecation : Option Bool := none
  /-- Whether confusing calls are reported. -/
  pedantic : Option Bool := none
  deriving DecidableEq, Repr, Inhabited

/-- The options with some of them set. -/
def OptionOverrides.apply (o : OptionOverrides) (base : Options) : Options :=
  { source := o.source.getD base.source
    deprecation := o.deprecation.getD base.deprecation
    pedantic := o.pedantic.getD base.pedantic }

namespace Loader

/-- Reads the language level of a document. -/
def sourceLevel (src : Option String) (p : Place) : LoadM (Option SourceLevel) := do
  match src with
  | none => return none
  | some src =>
    match SourceLevel.ofName? src with
    | some level => return some level
    | none =>
      fault .badOption p src (SourceLevel.fault src)
      return none

/-- Reads the options of a document. -/
def options : Option OptionsDecl → LoadM OptionOverrides
  | none => return {}
  | some d => do
    let source ← sourceLevel d.source d.place
    return { source, deprecation := d.deprecation, pedantic := d.pedantic }

end Loader

end CallResolution
