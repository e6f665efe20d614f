import CallResolution.Members.Capture
import CallResolution.Resolve.Session

/-!
# Arguments for captured variables

A constructor call of a local class passes the local variables that the class captures. A call
that stands inside other local classes reads a variable from their capture fields, and open
classes on the way capture it themselves. When the body of the class is still open the call
waits for its end.
-/

namespace CallResolution

/-- Whether a type is a class declared inside a body. -/
def TypeStore.isLocalClass (s : TypeStore) (t : TypeId) : Bool :=
  (s.classInfo? t).any (·.flags.isLocal)

namespace Session

/-- The variable itself, reached through the listed classes. -/
def localRead (site : Site) (name : String) (type : TypeId) (via : List TypeId) : Expr :=
  { form := .localVar name via, type, span := site.span }

/-- The field that holds the copy of a variable, reached through the listed classes. -/
def captureRead (site : Site) (name : String) (type : TypeId) (field : FieldId) (via : List TypeId) : Expr :=
  { form := .field (captureFieldName name) field via, type, span := site.span }

/-- Makes the local classes among some frames capture a variable, and gives the place and
field of each that does. -/
def captureAlong (c : Capture) : List (Frame × Nat) → UniverseM (List (Nat × FieldId))
  | [] => return []
  | (f, k) :: rest => do
    if (← get).types.isLocalClass f.type then
      match ← Universe.addCapture f.type c.name c.type with
      | some made => return (k, made.field) :: (← captureAlong c rest)
      | none => captureAlong c rest
    else captureAlong c rest

/-- Reads a variable that the `j`-th frame declares. -/
def readDeclared (env : Env) (site : Site) (c : Capture) (j : Nat) : UniverseM Expr := do
  if j = 0 then return localRead site c.name c.type []
  match ← captureAlong c (env.frames.zipIdx.take j) with
  | (k, field) :: _ => return captureRead site c.name c.type field (env.via k)
  | [] => return localRead site c.name c.type (env.via (j - 1))

/-- The nearest capture of a variable by the classes around a call. -/
def nearestCapture? (u : Universe) (env : Env) (name : String) : Option (Nat × Capture) :=
  env.frames.zipIdx.findSome? fun (f, k) => (u.captureOf? f.type name).map (k, ·)

/-- The argument that passes a captured variable. -/
def captureArg (env : Env) (site : Site) (c : Capture) : SessionM Expr := do
  match env.frames.findIdx? (·.hasLocal c.name) with
  | some j => onUniverse (readDeclared env site c j)
  | none =>
    match nearestCapture? (← getUniverse) env c.name with
    | some (k, made) => return captureRead site c.name c.type made.field (env.via k)
    | none =>
      reportError .unknownLocal site s!"local variable {c.name} captured by the constructor call is not in scope"
      return localRead site c.name .bad []

/-- The arguments for the captures of a class. -/
def captureArgs (env : Env) (site : Site) (cls : TypeId) : SessionM (List Expr) := do
  ((← getUniverse).captures cls).mapM (captureArg env site)

/-- Makes a call wait for a local class. -/
def wait (cls : TypeId) (w : WaitingSite) : SessionM Unit :=
  modify fun st =>
    { st with waiting := Assoc.put cls ((st.waiting.lookup cls).getD [] ++ [w]) st.waiting }

/-- Adds the arguments for captures to a bound constructor call of a local class, which waits
while the class is open. -/
def attachLocalArgs (env : Env) (site : Site) (cls : TypeId) (r : Resolution) : SessionM Resolution := do
  if (← getUniverse).isComplete cls then
    return { r with localArgs := ← captureArgs env site cls }
  else
    wait cls { site := site.id, env }
    return { r with state := .deferred }

/-- The type of a local variable in view, or of one that a class around the call has captured.
-/
def localType? (u : Universe) (env : Env) (name : String) : Option TypeId :=
  env.frames.findSome? fun f =>
    ((f.locals.find? (·.name = name)).map (·.type)) <|> ((u.captureOf? f.type name).map (·.type))

end Session

end CallResolution
