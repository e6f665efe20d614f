import CallResolution.Resolve.Access
import CallResolution.Resolve.Select
import CallResolution.Resolve.Session

/-!
# Competing callables

The callables that compete for a call, and the selection among them. A method out of reach
takes part only when it has conflicts, one of which is then bound in its place.
-/

namespace CallResolution

namespace Universe

/-- A callable as a candidate for a call with explicit type arguments. -/
def candidate (u : Universe) (typeArgs : List TypeId) (id : MethodId) : TypeM Candidate := do
  let m := u.method id
  return { method := id, declared := ← m.declaredFormals, formals := ← m.formals typeArgs }

/-- Whether a method found by searching a type competes for a call. -/
def competes (u : Universe) (env : Env) (search : TypeId) (q : Option Qualifier) (s : Shadow) : Bool :=
  let m := u.method s.method
  m.isResolved && (memberAccessible u.types env m search q || !s.conflicts.isEmpty)

/-- Whether a constructor competes for a call. -/
def ctorCompetes (u : Universe) (env : Env) (isExplicit : Bool) (id : MethodId) : Bool :=
  let m := u.method id
  m.isResolved && ctorAccessible u.types env m isExplicit

/-- The methods that compete for a call, after their signatures are processed. -/
def competingMethods (env : Env) (search : TypeId) (q : Option Qualifier) (shadows : List Shadow) :
    UniverseM (List Shadow) := do
  let _ ← withSignature (shadows.map (·.method))
  return shadows.filter ((← get).competes env search q)

/-- The constructors that compete for a call, after their signatures are processed. -/
def competingCtors (env : Env) (cls : TypeId) (isExplicit : Bool) : UniverseM (List MethodId) := do
  let ctors := (← get).constructors cls
  let _ ← withSignature ctors
  return ctors.filter ((← get).ctorCompetes env isExplicit)

/-- Callables as candidates. -/
def candidates (typeArgs : List TypeId) (ids : List MethodId) : UniverseM (List Candidate) := do
  let u ← get
  onTypes (ids.mapM (u.candidate typeArgs))

/-- Whether a callable accepts arguments in a phase, and if so whether trailing ones are
packed. One with a broken signature accepts nothing. -/
def isApplicable (id : MethodId) (args : List TypeId) (ph : Phase) : UniverseM (Option Bool) := do
  if ← signature id then
    let f ← onTypes ((← get).method id).declaredFormals
    return f.applicable (← getTypes) args ph
  else return none

/-- Whether one candidate is more specific than another one, which no callable with a broken
signature is or is compared with. -/
def candidateBeats (u : Universe) (argc : Nat) (a b : Candidate) : Bool :=
  (u.method a.method).isResolved && (u.method b.method).isResolved && a.beats u.types argc b

/-- Whether a callable is more specific than another one. -/
def isMoreSpecific (a b : MethodId) (argc : Nat) : UniverseM Bool := do
  let _ ← withSignature [a, b]
  match ← candidates [] [a, b] with
  | [ca, cb] => return (← get).candidateBeats argc ca cb
  | _ => return false

/-- The order in which the signatures of callables are needed when they are compared one after
the other: the second one is compared with the first, and a single one with nothing. -/
def comparisonOrder : List MethodId → List MethodId
  | a :: b :: rest => b :: a :: rest
  | _ => []

/-- The most specific of some callables. -/
def mostSpecificOf (ids : List MethodId) (argc : Nat) : UniverseM (List MethodId) := do
  let _ ← withSignature (comparisonOrder ids)
  let cs ← candidates [] ids
  return (mostSpecific ((← get).candidateBeats argc) cs).map (·.method)

end Universe

namespace Session

/-- Notes the phases that were tried. -/
def notePhases : List (Phase × Nat) → SessionM Unit
  | [] => return
  | (ph, n) :: rest => do
    note { kind := .point, scope := .site, name := "phase:" ++ ph.name, detail := s!"{n} applicable" }
    notePhases rest

/-- Lets candidates compete in the phases of the language level. -/
def selectAmong (cands : List Candidate) (args : List TypeId) : SessionM (Option Selection) := do
  let st ← get
  let phases := st.options.source.phases
  notePhases (tried st.world.types cands args phases)
  return select st.world.types cands args phases

/-- Lets the overloads of a name compete. -/
def selectMethod (env : Env) (site : Site) (search : TypeId) (q : Option Qualifier) (shadows : List Shadow)
    (args : List TypeId) : SessionM (Option Selection) := do
  let shadows ← onUniverse (Universe.competingMethods env search q shadows)
  let cands ← onUniverse (Universe.candidates site.typeArgs (shadows.map (·.method)))
  selectAmong cands args

/-- Lets the constructors of a class compete. -/
def selectCtor (env : Env) (cls : TypeId) (args : List TypeId) (isExplicit : Bool) :
    SessionM (Option Selection) := do
  let ctors ← onUniverse (Universe.competingCtors env cls isExplicit)
  let cands ← onUniverse (Universe.candidates [] ctors)
  selectAmong cands args

/-- The selected callable to go on with. When there are others the first two are reported as
ambiguous. -/
def pick (site : Site) (sel : Selection) (code : Code) : SessionM MethodId := do
  match sel.others with
  | [] => return sel.first
  | other :: _ =>
    let u ← getUniverse
    let a := u.method sel.first
    let b := u.method other
    let headA := u.header sel.first
    let headB := u.header other
    let d := Diagnostic.error code site.span
      (s!"reference to {site.calledName} is ambiguous: both {headA} in {u.className a.owner}"
        ++ s!" and {headB} in {u.className b.owner} match")
    report ((d.withCandidate a.decl headA).withCandidate b.decl headB)
    return sel.first

end Session

/-- The conflicts that a method meets in an overload list. -/
def conflictsOf (shadows : List Shadow) (id : MethodId) : List MethodId :=
  ((shadows.find? (·.method = id)).map (·.conflicts)).getD []

/-- The method that a call is bound to: a selected method out of reach gives way to its first
conflict. -/
def bindTarget (u : Universe) (env : Env) (shadows : List Shadow) (id : MethodId) (search : TypeId)
    (q : Option Qualifier) : MethodId :=
  match conflictsOf shadows id with
  | [] => id
  | c :: _ => if memberAccessible u.types env (u.method id) search q then id else c

end CallResolution
