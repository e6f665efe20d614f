import CallResolution.Members.Scope

/-!
# Signatures

The signature of a declared callable is processed when it is first needed: its type variables
are registered and its types looked up in the scope of its class. A signature with a fault is
reported once, with a note for each fault, and its callable never applies afterwards.
-/

namespace CallResolution

open Source

/-- Something wrong with one text of a signature. -/
inductive SignatureFault where
  /-- The text denotes no type. -/
  | type (f : TypeFault)
  /-- A parameter before the last one has variable arity. -/
  | variadicBeforeLast
  /-- A parameter has the type `void`. -/
  | voidParam
  /-- An exception cannot be thrown. -/
  | notThrowable
  deriving DecidableEq, Repr, Inhabited

/-- What a fault says. -/
def SignatureFault.message : SignatureFault → String
  | .type f => f.message
  | .variadicBeforeLast => "only the last parameter can be variable arity"
  | .voidParam => "void is not a parameter type"
  | .notThrowable => "not a subclass of java.lang.Throwable"

/-- The processed parts of a signature, and the faults met so far with the texts they are in.
-/
structure SignatureDraft where
  /-- The scope with the type variables of the callable. -/
  scope : Scope
  /-- The type variables with their declarations. -/
  typeVars : List (TypeId × TypeParamExpr) := []
  /-- The parameter types. -/
  params : List TypeId := []
  /-- The result type. -/
  returns : TypeId := .void
  /-- The exceptions. -/
  throws : List TypeId := []
  /-- The faults. -/
  faults : List (String × SignatureFault) := []
  deriving Repr, Inhabited

namespace SignatureDraft

/-- Adds a fault. -/
def fault (d : SignatureDraft) (src : String) (f : SignatureFault) : SignatureDraft :=
  { d with faults := d.faults ++ [(src, f)] }

/-- Registers the `index`-th type variable. -/
def declareVariable (method : MethodId) (d : SignatureDraft) (src : String) (index : Nat) :
    TypeM SignatureDraft :=
  match TypeExpr.parseParam src with
  | .error f => pure (d.fault src (.type (.malformed src f)))
  | .ok decl => do
    let v ← TypeStore.registerVariable
      { name := decl.name, index, owner := d.scope.cls, method := method.index }
    return { d with
      scope := { d.scope with params := (decl.name, v) :: d.scope.params }
      typeVars := d.typeVars ++ [(v, decl)] }

/-- Registers the type variables from the `index`-th one on. -/
def declareVariables (method : MethodId) :
    SignatureDraft → (index : Nat) → List String → TypeM SignatureDraft
  | d, _, [] => pure d
  | d, index, src :: rest => do
    declareVariables method (← d.declareVariable method src index) (index + 1) rest

/-- Resolves bounds, leaving out those with a fault. -/
def resolveBounds : SignatureDraft → List TypeExpr → TypeM (List TypeId × SignatureDraft)
  | d, [] => pure ([], d)
  | d, b :: bs => do
    match ← (TypeStore.resolveType d.scope b).run with
    | .ok t =>
      let (ts, d) ← resolveBounds d bs
      return (t :: ts, d)
    | .error f => resolveBounds (d.fault b.text (.type f)) bs

/-- Sets the bounds of the type variables. -/
def setBounds : SignatureDraft → List (TypeId × TypeParamExpr) → TypeM SignatureDraft
  | d, [] => pure d
  | d, (v, decl) :: rest => do
    let (bounds, d) ← d.resolveBounds decl.bounds
    modify (·.setBounds v bounds)
    d.setBounds rest

/-- Processes one parameter type. -/
def addParam (d : SignatureDraft) (src : String) (isLast : Bool) : TypeM SignatureDraft :=
  match TypeExpr.parse src with
  | .error f => pure (d.fault src (.type (.malformed src f)))
  | .ok t =>
    if t.isVariadic && !isLast then pure (d.fault src .variadicBeforeLast)
    else do
      match ← (TypeStore.resolveType d.scope t).run with
      | .error f => return d.fault src (.type f)
      | .ok p =>
        if p = .void then return d.fault src .voidParam
        else return { d with params := d.params ++ [p] }

/-- Processes the parameter types. -/
def addParams : SignatureDraft → List String → TypeM SignatureDraft
  | d, [] => pure d
  | d, src :: rest => do
    addParams (← d.addParam src rest.isEmpty) rest

/-- Processes the result type; a constructor has none. -/
def setReturns (d : SignatureDraft) (kind : CallableKind) (src : String) : TypeM SignatureDraft :=
  if src = "" || kind = .constructor then pure d
  else do
    match ← (TypeStore.typeOfText d.scope src).run with
    | .ok t => return { d with returns := t }
    | .error f => return d.fault src (.type f)

/-- Processes one exception. -/
def addThrown (d : SignatureDraft) (src : String) : TypeM SignatureDraft := do
  match ← (TypeStore.typeOfText d.scope src).run with
  | .error f => return d.fault src (.type f)
  | .ok t =>
    if (← get).isSubtype t .throwable then return { d with throws := d.throws ++ [t] }
    else return d.fault src .notThrowable

/-- Processes a whole signature of a callable of the class `owner`. -/
def ofText (id : MethodId) (kind : CallableKind) (owner : TypeId) (text : SignatureText) :
    TypeM SignatureDraft := do
  let d ← declareVariables id { scope := { cls := owner } } 0 text.typeParams
  let d ← d.setBounds d.typeVars
  let d ← d.addParams text.params
  let d ← d.setReturns kind text.returns
  text.throws.foldlM addThrown d

end SignatureDraft

namespace Universe

/-- Reports the faults of a signature. -/
def reportBroken (m : Method) (text : SignatureText) (faults : List (String × SignatureFault)) :
    UniverseM Unit := do
  let s ← getTypes
  let name :=
    if m.isConstructor then
      (s.classInfo? m.owner).elim text.name fun info => "constructor " ++ info.name
    else text.name
  let d := Diagnostic.error .unresolvedSignature m.decl
    s!"cannot resolve the signature of {name} in {s.qualifiedName m.owner}"
  report (faults.foldl (fun d (src, f) => d.withNote m.decl (src ++ ": " ++ f.message)) d)

/-- Processes the signature of a callable unless that was done before, and tells whether it
has no fault. -/
def signature (id : MethodId) : UniverseM Bool := do
  match (← get).method? id with
  | none => return false
  | some m =>
    match m.signature with
    | .resolved => return true
    | .resolving | .broken => return false
    | .pending text =>
      modifyMethod id ({ · with signature := .resolving })
      let d ← onTypes (SignatureDraft.ofText id m.kind m.owner text)
      if d.faults.isEmpty then
        modifyMethod id fun m =>
          { m with
            typeParams := d.typeVars.map (·.1)
            params := d.params
            returns := d.returns
            throws := d.throws
            signature := .resolved }
        return true
      else
        reportBroken m text d.faults
        modifyMethod id ({ · with signature := .broken })
        return false

/-- Processes signatures in order and keeps the callables whose signature has no fault. -/
def withSignature : List MethodId → UniverseM (List MethodId)
  | [] => return []
  | id :: ids => do
    let ok ← signature id
    let rest ← withSignature ids
    return if ok then id :: rest else rest

end Universe

end CallResolution
