import CallResolution.Types.Basic

/-!
# Names of types

The qualified name of a class joins the names of the classes around it: with a dot for a
member class, with a dollar sign for an anonymous or local one. The name of any type adds type
arguments and array brackets.
-/

namespace CallResolution.TypeStore

/-- The qualified name of a class whose surrounding class, if any, has the qualified name
`outer`. -/
def joinName (info : ClassInfo) (outer : String) : String :=
  if info.outer.isSome then
    outer ++ (if info.flags.isAnonymous || info.flags.isLocal then "$" else ".") ++ info.name
  else if info.package = "" then info.name
  else info.package ++ "." ++ info.name

/-- A type argument, with `name` for the type in it. -/
def argText (name : TypeId → String) (a : TypeArg) : String :=
  match a.wildcard with
  | .none => name a.type
  | .unbounded => "?"
  | .extends => "? extends " ++ name a.type
  | .super => "? super " ++ name a.type

/-- The name of a type, with `qualified` for the classes in it. Below a depth, three dots
stand for what is left out. -/
def nameWith (s : TypeStore) (qualified : TypeId → String) : Nat → TypeId → String
  | 0, t => if s.contains t then "..." else "<none>"
  | depth + 1, t =>
    match s.shape t with
    | .absent => "<none>"
    | .declared _ => qualified t
    | .array e d => s.nameWith qualified depth e ++ TypeExpr.brackets d.toNat
    | .typeVar _ => (s.typeVariable? t).elim "" (·.name)
    | .applied base args =>
      s.nameWith qualified depth base ++ "<"
        ++ ",".intercalate (args.map (argText (s.nameWith qualified depth))) ++ ">"
    | shape => shape.kindName

/-- The qualified name of the class behind a type, where surrounding classes are followed at
most `fuel` times; a type without a class has its name. -/
def qualifiedWithin (s : TypeStore) : Nat → TypeId → String
  | 0, _ => ""
  | fuel + 1, t =>
    match s.classInfo? t with
    | some info => joinName info (s.qualifiedWithin fuel info.outer)
    | none => s.nameWith (s.qualifiedWithin fuel) termDepth t

/-- The qualified name of a class, or the name of a type that has none. A class is registered
after the class around it, so following as many surrounding classes as there are types reaches
the outermost one. -/
def qualifiedName (s : TypeStore) (t : TypeId) : String :=
  s.qualifiedWithin (s.shapes.size + 1) t

/-- The qualified name of a class that is about to be registered. -/
def qualifiedOf (s : TypeStore) (info : ClassInfo) : String :=
  joinName info (s.qualifiedName info.outer)

/-- The name of a type, as messages show it. -/
def name (s : TypeStore) (t : TypeId) : String :=
  s.nameWith s.qualifiedName termDepth t

/-- A type argument, as messages show it. -/
def argName (s : TypeStore) (a : TypeArg) : String :=
  argText s.name a

end CallResolution.TypeStore
