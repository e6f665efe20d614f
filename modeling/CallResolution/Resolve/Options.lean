import CallResolution.Call.Basic
import CallResolution.Text.Quoted

/-!
# Options

The language level at which calls are bound, and the warnings that are wanted.
-/

namespace CallResolution

open Text

/-- A language level. -/
inductive SourceLevel where
  /-- Without boxing and variable arity. -/
  | v14
  /-- With boxing and variable arity. -/
  | v15
  deriving DecidableEq, Repr, Inhabited

namespace SourceLevel

/-- The name of a level. -/
def name : SourceLevel → String
  | .v14 => "1.4"
  | .v15 => "1.5"

/-- Reads the name of a level; later levels bind calls as the first one with boxing does, and
a blank name means that. -/
def ofName? : String → Option SourceLevel
  | "1.3" | "1.4" => some .v14
  | "1.5" | "1.6" | "1.7" | "1.8" | "5" | "6" | "7" | "8" | "" => some .v15
  | _ => none

/-- What is said of a name that is no level. -/
def fault (s : String) : String :=
  "unsupported source level " ++ quote s

/-- The phases that a level tries, in order. -/
def phases : SourceLevel → List Phase
  | .v14 => [.strict]
  | .v15 => [.strict, .loose, .variadic]

end SourceLevel

/-- What is consulted while calls are bound. -/
structure Options where
  /-- The language level. -/
  source : SourceLevel := .v15
  /-- Whether the use of deprecated callables is reported. -/
  deprecation : Bool := true
  /-- Whether legal but confusing calls are reported. -/
  pedantic : Bool := false
  deriving DecidableEq, Repr, Inhabited

/-- The options on one line. -/
def Options.text (o : Options) : String :=
  s!"source={o.source.name} deprecation={o.deprecation} pedantic={o.pedantic}"

end CallResolution
