import CallResolution.Proofs.Members.Tables
import CallResolution.Resolve.Run

/-!
# What outlasts a failed call

Looking for a callable processes signatures, makes member tables, and gives numbers to arrays
and parameterized types. None of this adds a class, a member, an accessor or a capture, and
nothing starts to wait for a local class. That is shown of each function as it stands, of
whatever state it starts in, so nothing is asked of the state. A call is bound in two parts:
the first one looks and may fail, the second one changes what lasts and cannot fail any more.
The creation of an anonymous class is the exception: the names that its body captures are
looked up after the class was made.

What lasts of a state is a function of it (`TypeStore.registered`, `Universe.lasting`,
`Session.lasting`), and `Leaves` says that a step does not change its value. This composes
without any condition, so the statements about the parts of a search are equations that follow
the text of the functions: each takes the statements about the functions that it calls, and
most need no words. Only where a function recurs, or makes a table within a table, is there an
induction. The three functions agree where one state is part of another (`lasting_types`,
`onTypes_lasts`, `onUniverse_lasts`), so each part is treated in the smallest state that it
works on.

A call that fails is `FailsClean` when its failure leaves what lasts. `FailsClean` is stronger
than what holds of its parts: it passes along a sequence as long as the steps in front leave
what lasts, and asks nothing of steps that cannot fail.

Main statements: `memberTable_lasts`, `selectMethod_lasts` and `methodNotFound_lasts` for the
parts of a search, and `resolveMethod_failsClean` and `resolveCtor_failsClean` for calls.
-/

namespace CallResolution

/-! ## Types

Arrays, parameterized types and variables get numbers of their own, and none of them is a
registered class. So the functions of the interner leave what is registered as it is, whatever
else they do.
-/

namespace TypeStore

/-- What is declared of a class, and nothing of a type that is no class. -/
def declaration? (s : TypeStore) (t : TypeId) : Option ClassInfo :=
  match s.shape t with
  | .declared slot => s.classes[slot]?
  | _ => none

/-- The registered classes: what is declared of each, their names, and how many of them are
anonymous. -/
structure Registered where
  /-- What is declared of each class. -/
  classes : TypeId → Option ClassInfo
  /-- The classes by qualified name. -/
  names : List (String × TypeId)
  /-- How many anonymous classes each outermost class has. -/
  anonymous : List (TypeId × Nat)

/-- The classes that a store has registered. -/
def registered (s : TypeStore) : Registered :=
  ⟨s.declaration?, s.names, s.anonymous⟩

/-- Nothing is declared under a new number of another shape. -/
theorem registered_push (s : TypeStore) {shape : TypeShape} (h : shape.isDeclared = false) :
    (s.pushed shape).registered = s.registered := by
  unfold registered
  congr 1
  funext t
  unfold declaration? TypeStore.shape
  by_cases ht : t = .none
  · rw [if_pos ht, if_pos ht]
  · rw [if_neg ht, if_neg ht]
    simp only [Array.getD_eq_getD_getElem?, pushed_shapes, pushed_classes, Array.getElem?_push]
    by_cases hi : t.index = s.shapes.size
    · rw [if_pos hi, hi, Array.getElem?_eq_none (Nat.le_refl _)]
      cases shape <;> first | rfl | cases h
    · rw [if_neg hi]

theorem intern_lasts {shape : TypeShape} (h : shape.isDeclared = false) : Leaves registered (intern shape) := by
  intro s
  unfold intern
  split
  · rfl
  · exact registered_push s h

theorem array_lasts (elem : TypeId) (dims : UInt32) : Leaves registered (array elem dims) := by
  unfold array
  split
  · exact .ret _
  · refine .read fun s => ?_
    split
    · exact .ret _
    · exact intern_lasts rfl
    · exact intern_lasts rfl

theorem apply_lasts (base : TypeId) (args : List TypeArg) : Leaves registered (apply base args) := by
  rw [apply_eq]
  split
  · exact .ret _
  · exact intern_lasts rfl

/-- Components, erasures and instantiations register no class. -/
theorem substitutive_registered : Substitutive (leaving registered) fun _ _ => True where
  keeps _ _ := trivial
  none _ := trivial
  object _ := trivial
  elem _ _ := trivial
  base _ _ := trivial
  bound _ _ := trivial
  array d _ := fun _ => ⟨array_lasts _ d _, trivial⟩
  args _ _ _ _ := trivial
  apply _ _ _ _ := fun _ => ⟨apply_lasts _ _ _, trivial⟩

theorem component_lasts (t : TypeId) : Leaves registered (component t) :=
  fun _ => (substitutive_registered.component t trivial).1

theorem erasure_lasts (t : TypeId) : Leaves registered (erasure t) :=
  fun _ => (substitutive_registered.erasureWithin boundLimit trivial trivial).1

theorem subst_lasts (t : TypeId) (params : List TypeId) (args : List TypeArg) : Leaves registered (subst t params args) :=
  fun _ => (substitutive_registered.subst (fun _ _ => trivial) trivial trivial).1

theorem registerVariable_lasts (v : TypeVariable) : Leaves registered (registerVariable v) := by
  intro s
  exact registered_push { s with typeVars := s.typeVars.push v } rfl

/-! ## Type expressions

Reading a type expression looks classes up and makes arrays and parameterized types. An
expression, its arguments and a single argument are read by functions that call one another,
and so do the statements about them.
-/

theorem resolveName_lasts (sc : Scope) (name : String) : Leaves registered (resolveName sc name).run := by
  unfold resolveName
  split
  · exact .ret _
  · refine .tryRead fun s => ?_
    split
    · exact .ret _
    · exact .fail _

theorem checkArgs_lasts (name : String) (base : TypeId) (count : Nat) : Leaves registered (checkArgs name base count).run := by
  refine .tryRead fun s => ?_
  split
  · dsimp only
    split
    · exact .stop _
    · split
      · exact .fail _
      · exact .ret _
  · exact .fail _

theorem boundedArg_lasts (w : Wildcard) (t : TypeExpr) (bound : TypeId) : Leaves registered (boundedArg w t bound).run := by
  refine .tryRead fun s => ?_
  split
  · exact .ret _
  · exact .fail _

mutual

theorem resolveType_lasts (sc : Scope) : (e : TypeExpr) → Leaves registered (resolveType sc e).run
  | .mk name args dims variadic => by
    unfold resolveType
    dsimp only
    split
    · exact .stop _
    split
    · exact .stop _
    have dimensions (t : TypeId) : Leaves registered (if 0 < dims + (if variadic then 1 else 0) then
        liftM (array t (dims + if variadic then 1 else 0).toUInt32) else pure t : ExceptT TypeFault TypeM TypeId).run := by
      by_cases hsome : 0 < dims + if variadic then 1 else 0
      · rw [if_pos hsome]
        exact .lifted (array_lasts _ _)
      · rw [if_neg hsome]
        exact .ret _
    refine (resolveName_lasts sc name).tryBind fun base => ?_
    cases args with
    | none => exact dimensions base
    | some as =>
      refine (checkArgs_lasts name base as.length).tryBind fun _ => ?_
      refine (resolveArgs_lasts sc as).tryBind fun as' => ?_
      exact .lift (apply_lasts base as') dimensions

theorem resolveArgs_lasts (sc : Scope) : (as : List TypeArgExpr) → Leaves registered (resolveArgs sc as).run
  | [] => by
    unfold resolveArgs
    exact .ret _
  | a :: as => by
    unfold resolveArgs
    exact (resolveArg_lasts sc a).tryBind fun _ => (resolveArgs_lasts sc as).tryBind fun _ => .ret _

theorem resolveArg_lasts (sc : Scope) : (a : TypeArgExpr) → Leaves registered (resolveArg sc a).run
  | .unbounded => by
    unfold resolveArg
    exact .ret _
  | .exact t => by
    unfold resolveArg
    exact (resolveType_lasts sc t).tryBind fun _ => boundedArg_lasts .none t _
  | .extends t => by
    unfold resolveArg
    exact (resolveType_lasts sc t).tryBind fun _ => boundedArg_lasts .extends t _
  | .super t => by
    unfold resolveArg
    exact (resolveType_lasts sc t).tryBind fun _ => boundedArg_lasts .super t _

end

theorem typeOfText_lasts (sc : Scope) (src : String) : Leaves registered (typeOfText sc src).run := by
  unfold typeOfText
  split
  · exact .fail _
  · exact resolveType_lasts sc _

end TypeStore

/-! ## Signatures

Type variables are registered, and parameters, results and exceptions are read from type
expressions.
-/

namespace SignatureDraft

open TypeStore

theorem declareVariable_lasts (method : MethodId) (d : SignatureDraft) (src : String) (index : Nat) :
    Leaves registered (d.declareVariable method src index) := by
  unfold declareVariable
  split
  · exact .ret _
  · exact (registerVariable_lasts _).bind fun _ => .ret _

theorem declareVariables_lasts (method : MethodId) (d : SignatureDraft) (index : Nat) (srcs : List String) :
    Leaves registered (declareVariables method d index srcs) := by
  induction srcs generalizing d index with
  | nil => exact .ret _
  | cons src srcs ih =>
    unfold declareVariables
    exact (declareVariable_lasts method d src index).bind fun d => ih d _

theorem resolveBounds_lasts (d : SignatureDraft) (bs : List TypeExpr) : Leaves registered (d.resolveBounds bs) := by
  induction bs generalizing d with
  | nil => exact .ret _
  | cons b bs ih =>
    unfold resolveBounds
    refine (resolveType_lasts d.scope b).bind fun r => ?_
    cases r with
    | ok t => exact (ih d).bind fun _ => .ret _
    | error f => exact ih _

theorem setBounds_lasts (d : SignatureDraft) (vs : List (TypeId × TypeParamExpr)) : Leaves registered (d.setBounds vs) := by
  induction vs generalizing d with
  | nil => exact .ret _
  | cons v vs ih =>
    unfold setBounds
    refine (resolveBounds_lasts d _).bind fun r => Leaves.bind (x := modify _) (fun s => ?_) fun _ => ih _
    show (s.setBounds v.1 r.1).registered = s.registered
    unfold TypeStore.setBounds
    split <;> rfl

theorem addParam_lasts (d : SignatureDraft) (src : String) (isLast : Bool) : Leaves registered (d.addParam src isLast) := by
  unfold addParam
  split
  · exact .ret _
  · split
    · exact .ret _
    · refine (resolveType_lasts d.scope _).bind fun r => ?_
      cases r with
      | error f => exact .ret _
      | ok p =>
        dsimp only
        split <;> exact .ret _

theorem addParams_lasts (d : SignatureDraft) (srcs : List String) : Leaves registered (d.addParams srcs) := by
  induction srcs generalizing d with
  | nil => exact .ret _
  | cons src srcs ih =>
    unfold addParams
    exact (addParam_lasts d src _).bind ih

theorem setReturns_lasts (d : SignatureDraft) (kind : CallableKind) (src : String) : Leaves registered (d.setReturns kind src) := by
  unfold setReturns
  split
  · exact .ret _
  · refine (typeOfText_lasts d.scope src).bind fun r => ?_
    cases r with
    | ok t => exact .ret _
    | error f => exact .ret _

theorem addThrown_lasts (d : SignatureDraft) (src : String) : Leaves registered (d.addThrown src) := by
  refine (typeOfText_lasts d.scope src).bind fun r => ?_
  cases r with
  | error f => exact .ret _
  | ok t =>
    refine .read fun s => ?_
    split <;> exact .ret _

theorem ofText_lasts (id : MethodId) (kind : CallableKind) (owner : TypeId) (text : SignatureText) :
    Leaves registered (ofText id kind owner text) :=
  (declareVariables_lasts id _ 0 _).bind fun d => (setBounds_lasts d _).bind fun d => (addParams_lasts d _).bind fun d =>
    (setReturns_lasts d kind _).bind fun d => .foldlM _ d addThrown_lasts

end SignatureDraft

theorem Formals.ofParams_lasts (params : List TypeId) (isVariadic : Bool) :
    Leaves TypeStore.registered (ofParams params isVariadic) := by
  unfold ofParams
  split
  · exact (TypeStore.component_lasts _).bind fun _ => .ret _
  · exact .ret _

theorem Method.formals_lasts (m : Method) (typeArgs : List TypeId) : Leaves TypeStore.registered (m.formals typeArgs) := by
  unfold formals
  split
  · exact Formals.ofParams_lasts _ _
  · exact (Leaves.mapM _ fun _ => TypeStore.subst_lasts _ _ _).bind fun _ => Formals.ofParams_lasts _ _

/-! ## Universes

A class is declared with a list of members, what it captures, and later a member table. The
table is the part that searching makes, so what lasts of a class is all of it but the table.
-/

namespace Universe

/-- What a class declares and captures, whatever its member table. -/
def declarations (u : Universe) (cls : TypeId) : Option ClassMembers :=
  (u.types.declaration? cls).map fun _ => { u.membersOf cls with table := .unbuilt }

/-- What of a universe no search for a callable adds to. -/
structure Lasting where
  /-- The classes. -/
  types : TypeStore.Registered
  /-- What each class declares and captures, and whether its body is complete. -/
  members : TypeId → Option ClassMembers
  /-- The links between callables. -/
  links : List (MethodId × MethodId)
  /-- The accessors. -/
  accessors : List (AccessorKey × MethodId)
  /-- The placeholder classes. -/
  placeholders : List (TypeId × TypeId)

/-- What of a universe lasts. -/
def lasting (u : Universe) : Lasting :=
  ⟨u.types.registered, u.declarations, u.links, u.accessors, u.placeholders⟩

variable {u : Universe}

/-- A class is the class behind itself, with what is declared of it. -/
theorem classOf_of_declaration {s : TypeStore} {cls : TypeId} {info : ClassInfo} (h : s.declaration? cls = some info) :
    s.classOf cls = cls ∧ s.classInfo? cls = some info := by
  unfold TypeStore.declaration? at h
  split at h
  · rename_i slot hshape
    simp [TypeStore.classOf, TypeStore.classInfo?, TypeStore.classSlot?, hshape, h]
  · cases h

/-- The members of a class. -/
theorem membersOf_of_declaration {cls : TypeId} {info : ClassInfo} (h : u.types.declaration? cls = some info) :
    u.membersOf cls = (u.members.lookup cls).getD { complete := !info.flags.isLocal } := by
  obtain ⟨hcls, hinfo⟩ := classOf_of_declaration h
  simp [membersOf, freshMembers, hcls, hinfo]

/-- Types that are no classes do not last. -/
theorem lasting_types (u : Universe) {s : TypeStore} (h : s.registered = u.types.registered) :
    { u with types := s }.lasting = u.lasting := by
  have hclasses : s.declaration? = u.types.declaration? := congrArg TypeStore.Registered.classes h
  have hmembers : { u with types := s }.declarations = u.declarations := by
    funext cls
    unfold declarations
    rw [hclasses]
    cases hdecl : u.types.declaration? cls with
    | none => rfl
    | some info =>
      have hdecl' : { u with types := s }.types.declaration? cls = some info := by rw [← hdecl, ← hclasses]
      rw [Option.map_some, Option.map_some, membersOf_of_declaration hdecl, membersOf_of_declaration hdecl']
  unfold lasting
  rw [hmembers, h]

/-- What types do to what lasts is what they do to the classes. -/
theorem onTypes_lasts {α : Type} {x : TypeM α} (h : Leaves TypeStore.registered x) : Leaves lasting (onTypes x) :=
  fun u => lasting_types u (h u.types)

/-- Member tables do not last. -/
theorem setTable_lasts (cls : TypeId) (st : TableState) : Leaves lasting (setTable cls st) := by
  intro u
  have hmembers : (setTable cls st u).2.declarations = u.declarations := by
    funext c
    cases hdecl : u.types.declaration? c with
    | none =>
      have hdecl' : (setTable cls st u).2.types.declaration? c = none := hdecl
      rw [declarations, declarations, hdecl, hdecl', Option.map_none, Option.map_none]
    | some info =>
      have hdecl' : (setTable cls st u).2.types.declaration? c = some info := hdecl
      have hset : (setTable cls st u).2.members = Assoc.put (u.types.classOf cls) { u.membersOf cls with table := st } u.members := rfl
      rw [declarations, declarations, hdecl, hdecl', Option.map_some, Option.map_some, membersOf_of_declaration hdecl', hset]
      by_cases hc : c = u.types.classOf cls
      · have hsame : u.membersOf cls = u.membersOf c := by
          rw [membersOf, membersOf, (classOf_of_declaration hdecl).1, hc]
        rw [← hc, Assoc.lookup_put_self, hsame, Option.getD_some]
      · rw [Assoc.lookup_put_of_ne hc, membersOf_of_declaration hdecl]
  unfold lasting
  rw [hmembers]
  rfl

theorem signature_lasts (id : MethodId) : Leaves lasting (signature id) :=
  signature_leaves (fun _ _ _ => rfl) (fun id kind owner text => onTypes_lasts (SignatureDraft.ofText_lasts id kind owner text)) id

theorem withSignature_lasts (ids : List MethodId) : Leaves lasting (withSignature ids) :=
  withSignature_leaves signature_lasts ids

/-- The member table of a type is made and kept, which is all. -/
theorem memberTable_lasts (t : TypeId) : Leaves lasting (memberTable t) := by
  refine .read fun u => ?_
  have classes := classTable_leaves signature_lasts setTable_lasts
  dsimp only
  split
  · split
    · exact .ret _
    · refine (classes _ _).bind fun r => ?_
      cases r with
      | error f => exact .ret _
      | ok root =>
        refine (arrayMembers_leaves fun _ _ _ _ _ => rfl).bind fun _ => .read fun u => ?_
        exact fun _ => rfl
  · split
    · exact classes _ _
    · exact .ret _

theorem overloadsIn_lasts (t : TypeId) (name : String) : Leaves lasting (overloadsIn t name) := by
  refine (memberTable_lasts t).bind fun r => ?_
  cases r <;> exact .ret _

/-! ### Competing callables -/

theorem competingMethods_lasts (env : Env) (search : TypeId) (q : Option Qualifier) (shadows : List Shadow) :
    Leaves lasting (competingMethods env search q shadows) :=
  (withSignature_lasts _).bind fun _ => .read fun _ => .ret _

theorem competingCtors_lasts (env : Env) (cls : TypeId) (isExplicit : Bool) : Leaves lasting (competingCtors env cls isExplicit) :=
  .read fun _ => (withSignature_lasts _).bind fun _ => .read fun _ => .ret _

theorem candidates_lasts (typeArgs : List TypeId) (ids : List MethodId) : Leaves lasting (candidates typeArgs ids) := by
  refine .read fun u => onTypes_lasts (.mapM _ fun id => ?_)
  exact (Formals.ofParams_lasts _ _).bind fun _ => (Method.formals_lasts _ _).bind fun _ => .ret _

end Universe

/-! ### Searches -/

namespace Session

open Universe (memberTable_lasts overloadsIn_lasts withSignature_lasts signature_lasts competingMethods_lasts competingCtors_lasts
  candidates_lasts)

theorem seeing_lasts (name : String) (frames : List (Frame × Nat)) : Leaves Universe.lasting (seeing name frames) := by
  induction frames with
  | nil => exact .ret _
  | cons f rest ih =>
    unfold seeing
    refine (memberTable_lasts _).bind fun r => ?_
    cases r with
    | error e => exact .ret _
    | ok table =>
      dsimp only
      split
      · exact ih
      · exact .ret _

theorem innermostSeeing_lasts (name : String) (frames : List (Frame × Nat)) :
    Leaves Universe.lasting (innermostSeeing name frames) := by
  induction frames with
  | nil => exact .ret _
  | cons f rest ih =>
    unfold innermostSeeing
    refine (overloadsIn_lasts _ _).bind fun shadows => ?_
    split
    · exact ih
    · exact .ret _

theorem firstAccepting_lasts (name : String) (args ts : List TypeId) : Leaves Universe.lasting (firstAccepting name args ts) := by
  induction ts with
  | nil => exact .ret _
  | cons t ts ih =>
    unfold firstAccepting
    refine (overloadsIn_lasts _ _).bind fun _ => (withSignature_lasts _).bind fun _ => .read fun u => ?_
    split
    · exact .ret _
    · exact ih

theorem scoredMethods_lasts (x : Unmatched) (scope : TypeId) (methods : List (String × List Shadow)) :
    Leaves Universe.lasting (scoredMethods x scope methods) := by
  induction methods with
  | nil => exact .ret _
  | cons p rest ih =>
    unfold scoredMethods
    exact (competingMethods_lasts _ _ _ _).bind fun _ => .read fun _ => ih.bind fun _ => .ret _

theorem firstFit_lasts (args : List TypeId) (ids : List MethodId) : Leaves Universe.lasting (firstFit args ids) := by
  induction ids with
  | nil => exact .ret _
  | cons id ids ih =>
    unfold firstFit
    refine (signature_lasts id).bind fun ok => ?_
    split
    · refine .read fun u => ?_
      split
      · exact .ret _
      · exact ih
    · exact ih

theorem searchImports_lasts (name : String) (argc : Nat) (acc : ImportSearch) (imports : List StaticImport) :
    Leaves Universe.lasting (searchImports name argc acc imports) := by
  induction imports generalizing acc with
  | nil => exact .ret _
  | cons imp rest ih =>
    unfold searchImports
    exact (overloadsIn_lasts _ _).bind fun _ => (withSignature_lasts _).bind fun _ => .read fun _ => ih _

/-! ## Sessions

Reports and events of the trace are not counted among what lasts: a call that fails leaves its
report behind, after all.
-/

/-- What of a session lasts: what its universe has, and the calls that wait for local classes.
-/
def lasting (st : Session) : Universe.Lasting × List (TypeId × List WaitingSite) :=
  (st.world.lasting, st.waiting)

theorem onUniverse_lasts {α : Type} {x : UniverseM α} (h : Leaves Universe.lasting x) : Leaves lasting (onUniverse x) :=
  fun st => congrArg (·, st.waiting) (h st.world)

theorem onTypes_lasts {α : Type} {x : TypeM α} (h : Leaves TypeStore.registered x) : Leaves lasting (onTypes x) :=
  onUniverse_lasts (Universe.onTypes_lasts h)

theorem report_lasts (d : Diagnostic) : Leaves lasting (report d) :=
  fun _ => rfl

theorem reportError_lasts (code : Code) (site : Site) (msg : String) : Leaves lasting (reportError code site msg) :=
  fun _ => rfl

theorem reportWarning_lasts (code : Code) (site : Site) (msg : String) : Leaves lasting (reportWarning code site msg) :=
  fun _ => rfl

theorem notePhases_lasts (phases : List (Phase × Nat)) : Leaves lasting (notePhases phases) := by
  induction phases with
  | nil => exact .ret _
  | cons p rest ih =>
    unfold notePhases
    exact Leaves.bind (fun _ => rfl) fun _ => ih

theorem selectAmong_lasts (cands : List Candidate) (args : List TypeId) : Leaves lasting (selectAmong cands args) :=
  .read fun _ => (notePhases_lasts _).bind fun _ => .ret _

theorem selectMethod_lasts (env : Env) (site : Site) (search : TypeId) (q : Option Qualifier) (shadows : List Shadow)
    (args : List TypeId) : Leaves lasting (selectMethod env site search q shadows args) :=
  (onUniverse_lasts (competingMethods_lasts _ _ _ _)).bind fun _ =>
    (onUniverse_lasts (candidates_lasts _ _)).bind fun _ => selectAmong_lasts _ _

theorem selectCtor_lasts (env : Env) (cls : TypeId) (args : List TypeId) (isExplicit : Bool) :
    Leaves lasting (selectCtor env cls args isExplicit) :=
  (onUniverse_lasts (competingCtors_lasts _ _ _)).bind fun _ =>
    (onUniverse_lasts (candidates_lasts _ _)).bind fun _ => selectAmong_lasts _ _

theorem selectLexically_lasts (env : Env) (site : Site) (name : String) (args : List TypeId) (frames : List (Frame × Nat)) :
    Leaves lasting (selectLexically env site name args frames) := by
  refine (onUniverse_lasts (seeing_lasts name frames)).bind fun r => ?_
  rcases r with e | _ | ⟨i, f, shadows⟩
  · exact .ret _
  · exact .ret _
  · exact (selectMethod_lasts _ _ _ _ _ _).bind fun _ => .ret _

theorem pick_lasts (site : Site) (sel : Selection) (code : Code) : Leaves lasting (pick site sel code) := by
  unfold pick
  split
  · exact .ret _
  · exact .read fun _ => (report_lasts _).bind fun _ => .ret _

/-! ### Explanations -/

theorem hiddenBehind_lasts (x : Unmatched) (frames : List (Frame × Nat)) : Leaves lasting (hiddenBehind x frames) := by
  induction frames with
  | nil => exact .ret _
  | cons f rest ih =>
    unfold hiddenBehind
    refine (selectLexically_lasts _ _ _ _ _).bind fun r => ?_
    split
    · exact .ret _
    · exact ih

theorem explainHidden_lasts (x : Unmatched) : Leaves lasting (explainHidden x) := by
  unfold explainHidden
  split
  · exact .ret _
  · refine (onUniverse_lasts (innermostSeeing_lasts _ _)).bind fun r => ?_
    cases r with
    | none => exact .ret _
    | some p =>
      refine (hiddenBehind_lasts x _).bind fun found => ?_
      cases found with
      | none => exact .ret _
      | some q => exact .read fun _ => (reportError_lasts _ _ _).bind fun _ => .ret _

theorem explainOverload_lasts (x : Unmatched) (scope : TypeId) : Leaves lasting (explainOverload x scope) := by
  refine (onUniverse_lasts (overloadsIn_lasts _ _)).bind fun shadows => ?_
  refine (onUniverse_lasts (competingMethods_lasts _ _ _ _)).bind fun shadows => .read fun st => ?_
  split
  · exact .ret _
  · exact (report_lasts _).bind fun _ => .ret _

theorem explainField_lasts (x : Unmatched) (scope : TypeId) : Leaves lasting (explainField x scope) := by
  unfold explainField
  split
  · exact .ret _
  · refine (onUniverse_lasts (memberTable_lasts _)).bind fun r => ?_
    cases r with
    | error e => exact .ret _
    | ok table =>
      refine .read fun st => ?_
      split
      · exact .ret _
      · split
        · exact (reportError_lasts _ _ _).bind fun _ => .ret _
        · exact .ret _

theorem explainInaccessible_lasts (x : Unmatched) (scope : TypeId) : Leaves lasting (explainInaccessible x scope) := by
  refine .read fun st => (onUniverse_lasts (firstAccepting_lasts _ _ _)).bind fun found => ?_
  cases found with
  | none => exact .ret _
  | some id =>
    refine .read fun st => ?_
    split
    · exact (reportError_lasts _ _ _).bind fun _ => .ret _
    · split
      · exact (reportError_lasts _ _ _).bind fun _ => .ret _
      · exact (reportError_lasts _ _ _).bind fun _ => .ret _

theorem explainMisspelling_lasts (x : Unmatched) (scope : TypeId) : Leaves lasting (explainMisspelling x scope) := by
  refine (onUniverse_lasts (memberTable_lasts _)).bind fun r => ?_
  cases r with
  | error e => exact .ret _
  | ok table =>
    refine (onUniverse_lasts (scoredMethods_lasts _ _ _)).bind fun scored => ?_
    split
    · exact .ret _
    · split
      · exact .read fun _ => (reportError_lasts _ _ _).bind fun _ => .ret _
      · exact .ret _

theorem explainType_lasts (x : Unmatched) : Leaves lasting (explainType x) := by
  refine .read fun st => ?_
  split
  · exact .ret _
  · exact (reportError_lasts _ _ _).bind fun _ => .ret _

theorem firstFitting_lasts {last : SessionM Code} (hlast : Leaves lasting last) {xs : List (SessionM (Option Code))}
    (h : ∀ x ∈ xs, Leaves lasting x) : Leaves lasting (firstFitting xs last) := by
  induction xs with
  | nil => exact hlast
  | cons x xs ih =>
    unfold firstFitting
    refine (h x (by simp)).bind fun found => ?_
    cases found with
    | some code => exact .ret _
    | none => exact ih fun y hy => h y (by simp [hy])

/-- Explaining why no method was found changes nothing that lasts. -/
theorem methodNotFound_lasts (x : Unmatched) : Leaves lasting (methodNotFound x) := by
  refine firstFitting_lasts (.read fun _ => (reportError_lasts _ _ _).bind fun _ => .ret _) fun y hy => ?_
  simp only [List.mem_append, List.mem_cons, List.mem_map, List.not_mem_nil, or_false] at hy
  rcases hy with ((((rfl | ⟨scope, -, rfl⟩) | ⟨scope, -, rfl⟩) | ⟨scope, -, rfl⟩) | ⟨scope, -, rfl⟩) | rfl
  · exact explainHidden_lasts x
  · exact explainOverload_lasts x scope
  · exact explainField_lasts x scope
  · exact explainInaccessible_lasts x scope
  · exact explainMisspelling_lasts x scope
  · exact explainType_lasts x

theorem explainCtorOverload_lasts (x : UnmatchedCtor) : Leaves lasting (explainCtorOverload x) := by
  refine (onUniverse_lasts (competingCtors_lasts _ _ _)).bind fun ctors => .read fun st => ?_
  split
  · exact .ret _
  · exact (report_lasts _).bind fun _ => .ret _

theorem explainCtorInaccessible_lasts (x : UnmatchedCtor) : Leaves lasting (explainCtorInaccessible x) := by
  refine .read fun st => (onUniverse_lasts (withSignature_lasts _)).bind fun _ => .read fun st => ?_
  split
  · exact .ret _
  · exact (reportError_lasts _ _ _).bind fun _ => .ret _

theorem explainCtorMethod_lasts (x : UnmatchedCtor) : Leaves lasting (explainCtorMethod x) := by
  refine .read fun st => (onUniverse_lasts (firstFit_lasts _ _)).bind fun found => ?_
  cases found with
  | none => exact .ret _
  | some id => exact .read fun _ => (reportError_lasts _ _ _).bind fun _ => .ret _

/-- Explaining why no constructor was found changes nothing that lasts. -/
theorem ctorNotFound_lasts (x : UnmatchedCtor) : Leaves lasting (ctorNotFound x) := by
  refine firstFitting_lasts (.read fun _ => (reportError_lasts _ _ _).bind fun _ => .ret _) fun y hy => ?_
  simp only [List.mem_cons, List.not_mem_nil, or_false] at hy
  rcases hy with rfl | rfl | rfl
  · exact explainCtorOverload_lasts x
  · exact explainCtorInaccessible_lasts x
  · exact explainCtorMethod_lasts x

/-! ### Checks -/

theorem failSilently_lasts {α : Type} (site : Site) (kind : FailureKind) : Leaves lasting (failSilently site kind : ResolveM α).run :=
  .fail _

theorem reject_lasts {α : Type} (site : Site) (kind : FailureKind) (code : Code) (msg : String) :
    Leaves lasting (reject site kind code msg : ResolveM α).run :=
  .lift (reportError_lasts _ _ _) fun _ => .fail _

/-- A check refuses a call under a condition, and else lets it pass. -/
theorem rejectWhen_lasts {c : Prop} [Decidable c] (site : Site) (kind : FailureKind) (code : Code) (msg : String) :
    Leaves lasting (if c then reject site kind code msg else pure () : ResolveM Unit).run := by
  split
  · exact reject_lasts _ _ _ _
  · exact .ret _

/-- What comes after a rejection is not done. -/
theorem reject_failsClean {α β : Type} (site : Site) (kind : FailureKind) (code : Code) (msg : String) (f : α → ResolveM β) :
    FailsClean lasting (reject site kind code msg >>= f) :=
  fun _ _ _ => rfl

theorem argTypes_lasts (site : Site) : Leaves lasting (argTypes site).run := by
  refine .tryRead fun st => ?_
  dsimp only
  split
  · exact .stop _
  · split
    · exact reject_lasts _ _ _ _
    · exact .ret _

theorem checkCallable_lasts (env : Env) (site : Site) (id : MethodId) : Leaves lasting (checkCallable env site id) := by
  refine .read fun st => ?_
  dsimp only
  split
  · refine (reportError_lasts _ _ _).bind fun _ => ?_
    split
    · exact reportWarning_lasts _ _ _
    · exact .ret _
  · split
    · exact reportWarning_lasts _ _ _
    · exact .ret _

theorem checkInstance_lasts (env : Env) (site : Site) (id : MethodId) (frame : Nat) :
    Leaves lasting (checkInstance env site id frame).run := by
  refine .tryRead fun st => ?_
  split
  · exact .ret _
  · dsimp only
    split
    · exact (reject_lasts _ _ _ _).tryBind fun _ => rejectWhen_lasts _ _ _ _
    · exact rejectWhen_lasts _ _ _ _

theorem checkReceiver_lasts (site : Site) (name : String) (t : TypeId) : Leaves lasting (checkReceiver site name t).run := by
  refine .tryRead fun st => ?_
  split
  · exact .fail _
  · exact .fail _
  · exact reject_lasts _ _ _ _
  · exact reject_lasts _ _ _ _
  · exact reject_lasts _ _ _ _
  · exact .ret _

theorem searchedType_lasts (t : TypeId) : Leaves lasting (searchedType t) := by
  refine .read fun st => ?_
  split
  · exact onTypes_lasts (TypeStore.erasure_lasts t)
  · exact .ret _

theorem checkReceiverForm_lasts (site : Site) (id : MethodId) (recv : Expr) (t : TypeId) :
    Leaves lasting (checkReceiverForm site id recv t).run := by
  refine .tryRead fun st => ?_
  split
  · exact reject_lasts _ _ _ _
  · split
    · exact .lifted (reportError_lasts _ _ _)
    · split
      · exact .lifted (reportWarning_lasts _ _ _)
      · exact .ret _

theorem checkOuter_lasts (site : Site) (outer : Option Expr) : Leaves lasting (checkOuter site outer).run := by
  refine .tryRead fun st => ?_
  split
  · exact .fail _
  · exact .ret _

theorem checkEnclosing_lasts (env : Env) (site : Site) (cls : TypeId) (outer : Option Expr) :
    Leaves lasting (checkEnclosing env site cls outer).run := by
  refine .tryRead fun st => ?_
  split
  · exact .ret _
  · exact rejectWhen_lasts _ _ _ _

theorem checkSuperEnclosing_lasts (env : Env) (site : Site) (super : TypeId) (outer : Option Expr) :
    Leaves lasting (checkSuperEnclosing env site super outer).run := by
  refine .tryRead fun st => ?_
  split
  · exact .ret _
  · exact rejectWhen_lasts _ _ _ _

theorem importedMethods_lasts (name : String) (argc : Nat) : Leaves lasting (importedMethods name argc) := by
  refine .read fun st => (onUniverse_lasts (searchImports_lasts _ _ _ _)).bind fun single => ?_
  split
  · exact onUniverse_lasts (searchImports_lasts _ _ _ _)
  · exact .ret _

theorem importedPhase?_lasts (env : Env) (site : Site) (first : Imported) (args : List TypeId) :
    Leaves lasting (importedPhase? env site first args) := by
  refine .read fun st => ?_
  dsimp only
  split
  · exact (onTypes_lasts (Method.formals_lasts _ _)).bind fun _ => .read fun _ => .ret _
  · exact .ret _

theorem chooseCtor_lasts (env : Env) (site : Site) (cls : TypeId) (args : List TypeId) (isExplicit : Bool) :
    Leaves lasting (chooseCtor env site cls args isExplicit).run := by
  refine .lift (selectCtor_lasts _ _ _ _) fun r => ?_
  cases r with
  | none => exact .lift (ctorNotFound_lasts _) fun _ => .fail _
  | some sel => exact .lift (pick_lasts _ _ _) fun _ => .lift (checkCallable_lasts _ _ _) fun _ => .ret _

/-! ## Calls

The calls themselves. Each proof walks through the function up to the place from which it
cannot fail any more.
-/

/-- A call of an imported method fails before anything that lasts is changed. -/
theorem resolveImported_failsClean (env : Env) (site : Site) (name : String) (args : List TypeId) :
    FailsClean lasting (resolveImported env site name args) := by
  refine .lift (importedMethods_lasts _ _) fun search => ?_
  split
  · exact .lift (methodNotFound_lasts _) fun _ => .fail _
  · refine .lift (importedPhase?_lasts _ _ _ _) fun r => ?_
    split
    · exact .lift (methodNotFound_lasts _) fun _ => .fail _
    · exact .of_succeeds (.lift fun _ => .lift fun _ => .lift fun _ => .lift fun _ => .ret _)

theorem bindLexical_failsClean (env : Env) (site : Site) (name : String) (args : List TypeId) (frame : Nat) (f : Frame)
    (shadows : List Shadow) (sel : Selection) : FailsClean lasting (bindLexical env site name args frame f shadows sel) := by
  refine .lift (pick_lasts _ _ _) fun id => .bind (checkInstance_lasts _ _ _ _) fun _ => .of_succeeds ?_
  -- the accessor of the call is made from here on, where nothing fails any more
  exact .lift fun _ => .lift fun _ => .lift fun _ => .lift fun _ => .lift fun _ => .lift fun _ => .ret _

/-- A call by name alone fails before anything that lasts is changed. -/
theorem resolveUnqualified_failsClean (env : Env) (site : Site) (name : String) (args : List TypeId) :
    FailsClean lasting (resolveUnqualified env site name args) := by
  refine .lift (selectLexically_lasts _ _ _ _ _) fun r => ?_
  unfold bindSearched
  split
  · exact .fail _
  · exact resolveImported_failsClean _ _ _ _
  · exact .lift (methodNotFound_lasts _) fun _ => .fail _
  · exact bindLexical_failsClean _ _ _ _ _ _ _ _

/-- A call with a receiver fails before anything that lasts is changed. -/
theorem resolveQualified_failsClean (env : Env) (site : Site) (name : String) (recv : Expr) (args : List TypeId) :
    FailsClean lasting (resolveQualified env site name recv args) := by
  refine .read fun st => .bind (checkReceiver_lasts _ _ _) fun _ => .lift (searchedType_lasts _) fun search => ?_
  refine .lift (onUniverse_lasts (Universe.memberTable_lasts _)) fun r => ?_
  cases r with
  | error e => exact .fail _
  | ok table =>
    refine .lift (selectMethod_lasts _ _ _ _ _ _) fun sel => ?_
    cases sel with
    | none => exact .lift (methodNotFound_lasts _) fun _ => .fail _
    | some sel =>
      refine .lift (pick_lasts _ _ _) fun id => .bind (checkReceiverForm_lasts _ _ _ _) fun _ => .of_succeeds ?_
      exact .lift fun _ => .lift fun _ => .lift fun _ => .lift fun _ => .lift fun _ => .ret _

theorem resolveCtor_failsClean (env : Env) (site : Site) (cls caller type : TypeId) (args : List TypeId) (isExplicit : Bool) :
    FailsClean lasting (resolveCtor env site cls caller type args isExplicit) := by
  refine .bind (chooseCtor_lasts _ _ _ _ _) fun r => .of_succeeds (.lift fun _ => .lift fun _ => .lift fun s => ?_)
  split
  · exact .lifted _
  · exact .ret _

/-- A method call that fails changes nothing that lasts. -/
theorem resolveMethod_failsClean (env : Env) (site : Site) (name : String) (recv : Option Expr) :
    FailsClean lasting (resolveMethod env site name recv) := by
  refine .bind (argTypes_lasts site) fun args => ?_
  cases recv with
  | none => exact resolveUnqualified_failsClean _ _ _ _
  | some recv => exact resolveQualified_failsClean _ _ _ _ _

/-- The call of another constructor of the class that fails changes nothing that lasts. -/
theorem resolveThis_failsClean (env : Env) (site : Site) : FailsClean lasting (resolveThis env site) :=
  .read fun _ => .bind (argTypes_lasts site) fun _ => resolveCtor_failsClean _ _ _ _ _ _ _

/-- The call of a constructor of the superclass that fails changes nothing that lasts. -/
theorem resolveSuper_failsClean (env : Env) (site : Site) (outer : Option Expr) :
    FailsClean lasting (resolveSuper env site outer) := by
  refine .read fun st => ?_
  dsimp only
  split
  · exact .fail _
  · split
    · exact reject_failsClean _ _ _ _ _
    split
    · exact reject_failsClean _ _ _ _ _
    refine .bind (checkOuter_lasts _ _) fun _ => .bind (checkSuperEnclosing_lasts _ _ _ _) fun _ => ?_
    exact .bind (argTypes_lasts site) fun _ => resolveCtor_failsClean _ _ _ _ _ _ _

end Session

end CallResolution
