import CallResolution.Members.Basic

/-!
# Captured local variables

A local class copies the local variables it uses into fields of its own. Captures can be added
until the body of the class is complete; then every constructor gains one parameter for each
capture.
-/

namespace CallResolution

/-- The field that holds the copy of a local variable. -/
def captureFieldName (name : String) : String :=
  "val$" ++ name

namespace Universe

/-- The captures of a class. -/
def captures (u : Universe) (t : TypeId) : List Capture :=
  (u.membersOf t).captures

/-- The capture of a local variable. -/
def captureOf? (u : Universe) (t : TypeId) (name : String) : Option Capture :=
  (u.captures t).find? (·.name = name)

/-- Whether the body of a class is finished. -/
def isComplete (u : Universe) (t : TypeId) : Bool :=
  (u.membersOf t).complete

/-- Adds a capture to a class whose body is not finished; a capture that is there already is
given back, and a finished class takes no further one. -/
def addCapture (t : TypeId) (name : String) (type : TypeId) : UniverseM (Option Capture) := do
  let u ← get
  match u.captureOf? t name with
  | some c => return some c
  | none =>
    if u.isComplete t then return none
    let field ← addField
      { name := captureFieldName name, owner := t, type, access := .priv,
        flags := { isSynthetic := true, isFinal := true } }
    let c : Capture := { name, type, field }
    modifyMembers t fun m => { m with captures := m.captures ++ [c] }
    return some c

/-- What is said when a finished class should take a capture. -/
def captureFault : String :=
  "local class already complete"

/-- Finishes the body of a class and gives its constructors the parameters for the captures. A
class that is finished already stays as it is. -/
def completeClass (t : TypeId) : UniverseM Bool := do
  let c := (← get).membersOf t
  if c.complete then return false
  modifyMembers t ({ · with complete := true })
  let captureParams := c.captures.map (·.type)
  modify fun u =>
    { u with
      methods := c.ctors.foldl
        (fun ms id => ms.modify (id.index - 1) ({ · with captureParams })) u.methods }
  return true

end Universe

end CallResolution
