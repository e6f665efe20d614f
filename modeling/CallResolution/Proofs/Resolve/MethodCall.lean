import CallResolution.Proofs.Resolve.NotFound
import CallResolution.Resolve.MethodCall

/-!
# What method calls are bound to

A method call that is bound has a type that is known and a callable with a processed
signature: the one that was selected, which accepts the arguments in the recorded phase, or
one that stands in for it. A call that is refused is reported under the code of its failure;
what may have been reported before that is that the selection was ambiguous.

The binding of a method call has three parts, and the statements follow them.

* The search. A call by name alone looks through the frames around it, and through static
  imports when no frame sees its name; a call with a receiver looks at the type of that.
  `CalledOn` says which type is searched in the end, and `importedMethods_works` what imports
  offer. What no part finds is reported by `notFound_tries`; `Justified` says that the report
  is right about the methods that it names.
* The checks. They are stated by what they may report and by whether a failure is early or
  late: before anything was reported, or behind the report of an ambiguous selection.
  `Refuses` combines the two, so the reports of a refused call are known exactly.
* What is left. `finishMethod_tries` is shared by the three ways to a callable and cannot
  fail: the type of the call, its exceptions and what takes its place are worked out.
  `BoundMethod` is what holds of the result; `TypesCall` says in which universe the type and
  the exceptions were worked out, since that is not the last one.

`resolveUnqualified_tries` and `resolveQualified_tries` assemble these, and
`resolveMethod_tries` is what the next modules use. The session moves on between the parts, so
what an early part says is carried to the last session: `CalledOn.keeps`, `TypesCall.later`.
-/

namespace CallResolution.Session

open Universe

variable {st st' st'' : Session} {id : SiteId} {env : Env} {site : Site} {args : List TypeId}

/-! ## Outcomes

What is said of a call after its turn. Every predicate here compares two sessions, that in
which the call is looked at and the one that binding it ends in, and comes with the statement
that it stays so: the call is bound in the middle of a step, and is spoken of at its end.
-/

/-- A call that is bound: unless an anonymous class was made for it, some callable accepts the
arguments in the recorded phase, and the call is bound to this callable or, when it is a
method call, to its stand-in. The constructor of an anonymous class takes what is passed on to
that of the superclass, and is judged where it is made. -/
structure Bound (env : Env) (isMethod : Bool) (typeArgs args : List TypeId) (r : Resolution) (u : Universe) : Prop where
  /-- The call is bound, and perhaps waits. -/
  state : r.state = .resolved ∨ r.state = .deferred
  /-- The type of the call is known. -/
  type : u.types.Knows r.type
  /-- The signature of the callable has been processed. -/
  resolved : (u.method r.callable).isResolved
  /-- The selected callable. -/
  selected : r.anonymous = .none → ∃ id, u.Accepts typeArgs args r.phase r.wrapped id ∧
    (r.callable = id ∨ isMethod ∧ u.Replaces env id r.callable)

/-- What takes the place of a bound call is the accessor of its callable, or the constructor
of an anonymous class that gets an enclosing instance; what that constructor calls reaches a
constructor of the superclass. -/
structure Lowers (u : Universe) (r : Resolution) : Prop where
  /-- The call that takes its place. -/
  call : ∀ call ∈ r.lowered, u.Forwards call.callable r.callable ∨
    call.callable = r.callable ∧ u.types.Knows r.anonymous ∧ r.callable ∈ u.constructors r.anonymous
  /-- The superclass constructor call. -/
  super : ∀ call ∈ r.superInvocation, ∃ info target, u.types.classInfo? r.anonymous = some info ∧
    target ∈ u.constructors info.super ∧ u.Reaches call.callable target

/-- What is called in place of a bound call stays so. -/
theorem Lowers.moves {u u' : Universe} {mayFinish : Universe → TypeId → Prop} (h : Moves mayFinish u u') (hu : u.WellFormed)
    {r : Resolution} (hr : Lowers u r) : Lowers u' r where
  call call hcall := by
    refine (hr.call call hcall).imp (·.moves h) fun hcreates => ?_
    exact ⟨hcreates.1, h.types_extends.knows hcreates.2.1, h.mem_constructors hcreates.2.1 hcreates.2.2⟩
  super call hcall := by
    obtain ⟨info, target, hinfo, htarget, hreaches⟩ := hr.super call hcall
    have hknown := TypeStore.knows_of_classInfo (Option.isSome_iff_exists.mpr ⟨info, hinfo⟩)
    refine ⟨info, target, (h.types_extends.classInfo hu.types hknown).trans hinfo, ?_, hreaches.moves h⟩
    exact h.mem_constructors (hu.types.knows_classInfo hinfo).super.1 htarget

/-- A method call that is bound, where expressions have given types: it waits for nothing, and
its callable is listed among the methods of some type. The types of expressions are a
parameter, because later sessions give others to the values of calls. -/
structure BoundMethod (env : Env) (site : Site) (typeOf : Expr → TypeId) (args : List TypeId) (r : Resolution) (u : Universe) :
    Prop extends Bound env true site.typeArgs args r u where
  /-- The call does not wait. -/
  settled : r.state = .resolved
  /-- The callable is listed. -/
  listed : u.Listed r.callable
  /-- What takes the place of the call. -/
  lowers : Lowers u r
  /-- What takes its place passes the arguments on. -/
  standsIn : ∀ call ∈ r.lowered, u.StandsIn typeOf .method site.args r.callable call
  /-- No class is made for it. -/
  notAnonymous : r.anonymous = .none

/-- What takes the place of a bound call is the constructor of the anonymous class that is
made for it, or hands the arguments on. The two are told apart because the constructor of an
anonymous class is itself what the call is bound to. -/
def HandsOn (u : Universe) (typeOf : Expr → TypeId) (kind : CallableKind) (args : List Expr) (r : Resolution) : Prop :=
  ∀ call ∈ r.lowered, r.anonymous = .none ∧ u.StandsIn typeOf kind args r.callable call ∨
    call.callable = r.callable ∧ r.callable ∈ u.constructors r.anonymous

/-- A class lists a method of a name as one that meets the conflicts. The method is the listed
one or one of its conflicts, and the list of conflicts is empty where there are none. -/
def MeetsConflicts (u : Universe) (cls : TypeId) (name : String) (id : MethodId) (conflicts : List MethodId) : Prop :=
  u.types.Knows cls ∧ ∃ shadows, u.listed cls name = some shadows ∧ ∃ s ∈ shadows, s.Names id ∧ s.conflicts = conflicts

/-- What conflicts a listed method meets stays. -/
theorem MeetsConflicts.keeps {u u' : Universe} {cls : TypeId} {name : String} {id : MethodId} {conflicts : List MethodId}
    (h : MeetsConflicts u cls name id conflicts) (hkeeps : u.Keeps u') : MeetsConflicts u' cls name id conflicts := by
  obtain ⟨hcls, shadows, hlisted, h⟩ := h
  exact ⟨hkeeps.types.knows hcls, shadows, hkeeps.listed hcls hlisted, h⟩

/-- How the exceptions of a call come about when there are no conflicts: in an earlier
universe, from what the callable declares. With conflicts they are intersected first, which
other modules speak of. -/
structure ThrowsCall (u₁ u : Universe) (site : Site) (args : List TypeId) (r : Resolution) : Prop where
  /-- The universe is an earlier one. -/
  keeps : u₁.Keeps u
  /-- It is well formed. -/
  wellFormed : u₁.WellFormed
  /-- The exceptions of the call. -/
  throws : r.throws = ((u₁.method r.callable).throws.mapM ((u₁.method r.callable).thrownType site args) u₁.types).1

/-- How the type of a method call comes about: in an earlier universe, from the callable, the
type that it is called on, and the arguments. Its exceptions come about after that, from the
callable and the conflicts that it meets in the type that is searched. The functions are
applied to the universe of that time: applied to a later one they might make other types, so a
statement about the last session alone would say less. -/
structure TypesCall (u₀ u : Universe) (site : Site) (args : List TypeId) (r : Resolution) (name : String) (search recv : TypeId)
    (qualified : Bool) : Prop where
  /-- The universe is an earlier one. -/
  keeps : u₀.Keeps u
  /-- The moves in between. -/
  moves : Moves anything u₀ u
  /-- It is well formed. -/
  wellFormed : u₀.WellFormed
  /-- The signature of the callable is processed. -/
  resolved : (u₀.method r.callable).isResolved
  /-- The type that the callable is called on is known. -/
  knows : u₀.types.Knows recv
  /-- The types of the arguments are known. -/
  knowsArgs : ∀ t ∈ args, u₀.types.Knows t
  /-- What the site mentions is known. -/
  knowsSite : KnowsArgs u₀.types site
  /-- The type of the call. -/
  type : r.type = ((u₀.method r.callable).callType (r.callable.isSome && r.callable = u₀.arrayClone) recv qualified site args
    u₀.types).1
  /-- The conflicts that the callable meets, and the exceptions of the call without any. -/
  raises : ∃ conflicts, MeetsConflicts u search name r.callable conflicts ∧ (conflicts = [] → ∃ u₁ : Universe,
    ((u₀.method r.callable).callType (r.callable.isSome && r.callable = u₀.arrayClone) recv qualified site args
      u₀.types).2.Extends u₁.types ∧ u₀.Keeps u₁ ∧ ThrowsCall u₁ u site args r)

/-- How the type of a method call comes about does not change, whatever is recorded at its
site. -/
theorem TypesCall.later {u₀ u u' : Universe} {site : Site} {args : List TypeId} {r r' : Resolution} {name : String}
    {search recv : TypeId} {qualified : Bool} (h : TypesCall u₀ u site args r name search recv qualified) (hkeeps : u.Keeps u')
    {mayFinish : Universe → TypeId → Prop} (hmoves : Moves mayFinish u u') (callable : r'.callable = r.callable)
    (type : r'.type = r.type) (throws : r'.throws = r.throws) (result : Resolution) :
    TypesCall u₀ u' { site with result } args r' name search recv qualified where
  keeps := h.keeps.trans hkeeps
  moves := h.moves.trans hmoves.toAnything
  wellFormed := h.wellFormed
  resolved := callable ▸ h.resolved
  knows := h.knows
  knowsArgs := h.knowsArgs
  knowsSite := ⟨h.knowsSite.typeArgs, h.knowsSite.args⟩
  type := by
    rw [type, callable]
    exact h.type
  raises := by
    obtain ⟨conflicts, hmeets, hraises⟩ := h.raises
    rw [callable]
    refine ⟨conflicts, hmeets.keeps hkeeps, fun hnone => ?_⟩
    obtain ⟨u₁, hlater, hbetween, hthrows⟩ := hraises hnone
    refine ⟨u₁, hlater, hbetween, hthrows.keeps.trans hkeeps, hthrows.wellFormed, ?_⟩
    rw [throws, callable]
    exact hthrows.throws

/-- The type that a call with a receiver searches. It is worked out in the session before the
call, where the erasure of a type variable may have to be made. -/
def searchOf (st : Session) (recv : Expr) : TypeId :=
  (searchedType (st.receiverType recv) st).1

/-- The classes that static imports name. -/
def importedClasses (st : Session) : List TypeId :=
  (st.program.singleImports ++ st.program.classImports).map (·.type)

/-- The type that a method call is called on, and the type that is searched for it: the
receiver, or the class of the frame that sees its name, or the class of a static import if no
frame does. -/
inductive CalledOn (st : Session) (u : Universe) (env : Env) (name : String) :
    Option Expr → (search recv : TypeId) → (qualified : Bool) → Prop
  | receiver (e : Expr) : CalledOn st u env name (some e) (st.searchOf e) (st.receiverType e) true
  | frame {i : Nat} {f : Frame} {shadows : List Shadow} (sees : u.Sees name env.frames.zipIdx i f shadows) :
      CalledOn st u env name none f.type f.type false
  | imported {cls : TypeId} (blank : ∀ f ∈ env.frames, u.listed f.type name = some []) (imported : cls ∈ st.importedClasses) :
      CalledOn st u env name none cls cls true

/-- What a method call is called on does not change. -/
theorem CalledOn.keeps {u u' : Universe} {name : String} {recv : Option Expr} {search t : TypeId} {qualified : Bool}
    (h : CalledOn st u env name recv search t qualified) (hkeeps : u.Keeps u') (henv : KnowsEnv u.types env) :
    CalledOn st u' env name recv search t qualified := by
  cases h with
  | receiver e => exact .receiver e
  | frame hsees => exact .frame (hkeeps.sees (knowsFrames_zipIdx henv) hsees)
  | imported hblank himported => exact .imported (fun f hf => hkeeps.listed (henv f hf) (hblank f hf)) himported

/-- Types of expressions under which the current instance has the class that it is taken as.
This is so of the types in every session. -/
def ReadsThis (typeOf : Expr → TypeId) : Prop :=
  ∀ (via : List TypeId) (t : TypeId) (span : Source.Span), t.isSome → typeOf { form := .this via, type := t, span } = t

/-- The current instance has the class that it is taken as. -/
theorem readsThis_receiverType (st : Session) : ReadsThis st.receiverType := by
  intro via t span ht
  simp [receiverType, exprType, ht]

/-- A call that nothing takes the place of. -/
theorem Lowers.of_none {u : Universe} {r : Resolution} (lowered : r.lowered = none) (super : r.superInvocation = none) :
    Lowers u r :=
  ⟨by simp [lowered], by simp [super]⟩

/-- A call that is refused: the code of the failure is reported, and before it the earlier
ones when it is given late. A failure without a code is silent: something bad was reported
already when it was made. -/
def Refuses (earlier : List Code) (st : Session) (f : Failure) (st' : Session) : Prop :=
  Reports ((if f.code.any Code.isLate then earlier else []) ++ f.code.toList) st st'

/-- A failure under an early code. -/
theorem Fails.refuses {f : Failure} (h : Fails false st f st') (earlier : List Code) : Refuses earlier st f st' := by
  unfold Refuses
  rw [h.late]
  exact h.reports

/-- A failure under a late code after earlier reports. -/
theorem Fails.refuses_late {f : Failure} {earlier : List Code} (h : Reports earlier st st') (h' : Fails true st' f st'') :
    Refuses earlier st f st'' := by
  unfold Refuses
  rw [h'.late]
  exact h.trans h'.reports

/-- What comes before a refusal without reporting anything may be counted in. -/
theorem Refuses.after {f : Failure} {earlier : List Code} (h' : Refuses earlier st' f st'') (h : Quiet st st') :
    Refuses earlier st f st'' :=
  Reports.after h h'

/-- A failure whose report names no other method than the called one. There is nothing to
justify about such a report. -/
def NamesNone (f : Failure) : Prop :=
  ∀ c ∈ f.code, c ∉ namingCodes

/-- A failure under a late code names no other method. -/
theorem Fails.namesNone {f : Failure} (h : Fails true st f st') : NamesNone f := by
  intro c hc hnaming
  have hlate : c.isLate = true := by simpa [Option.mem_def.mp hc] using h.late
  have hearly : ∀ c ∈ namingCodes, c.isLate = false := by decide
  rw [hearly c hnaming] at hlate
  cases hlate

theorem failSilently_namesNone {α : Type} (site : Site) (kind : FailureKind) {P : α → Session → Prop} :
    Tries (resolving id) (failSilently site kind : ResolveM α) st P fun f _ => NamesNone f :=
  Tries.throw (by simp [NamesNone])

theorem reject_namesNone {α : Type} (site : Site) (kind : FailureKind) {code : Code} (hcode : code ≠ .unresolvedSignature)
    (hnone : code ∉ namingCodes) (msg : String) {P : α → Session → Prop} :
    Tries (resolving id) (reject site kind code msg : ResolveM α) st P fun f _ => NamesNone f :=
  Tries.lift (reportError_works hcode site msg) fun _ _ _ _ _ => Tries.throw (by simpa [NamesNone] using hnone)

/-- A failure for a bad argument names no other method. -/
theorem argTypes_namesNone : Tries (resolving id) (argTypes site) st (fun _ _ => True) fun f _ => NamesNone f := by
  refine Tries.read ?_
  dsimp only
  split
  · exact Tries.stop (failSilently_namesNone site .badArgument)
  · split
    · exact reject_namesNone site .badArgument (by decide) (by decide) _
    · exact Tries.ret trivial

/-- A call that nothing matches is looked for where its receiver says, or in the classes
around it, or in a class that a static import names. Without a receiver no place is given in
the second case. -/
def Unmatched.Placed (st : Session) (x : Unmatched) : Prop :=
  x.qualifier = none → x.search = .none ∨ x.search ∈ st.importedClasses

/-- When the report about a failure names another method, what it says is so; the place that
was searched may be any of some. A call by name alone has no receiver that would name the
place: it is a class around the call, or one that is imported. -/
def Justified (x : TypeId → Unmatched) (f : Failure) (st : Session) : Prop :=
  ∀ c ∈ f.code, c ∈ namingCodes → ∃ place, (x place).Placed st ∧ (x place).Justifies c st

theorem NamesNone.justified {f : Failure} (h : NamesNone f) (x : TypeId → Unmatched) : Justified x f st :=
  fun c hc hnaming => absurd hnaming (h c hc)

/-- What a report says is judged by the universe and the imports. -/
theorem Justified.congr {x : TypeId → Unmatched} {f : Failure} (h : Justified x f st) (hworld : st'.world = st.world)
    (himports : st'.importedClasses = st.importedClasses) : Justified x f st' := by
  intro c hc hnaming
  obtain ⟨place, hplaced, hjustifies⟩ := h c hc hnaming
  refine ⟨place, fun hq => ?_, hjustifies.congr hworld⟩
  rw [himports]
  exact hplaced hq

/-- A method call that nothing matches fails. -/
theorem notFound_tries {α : Type} (x : TypeId → Unmatched) (place : TypeId) (hx : (x place).Known st.world.types)
    (hplaced : (x place).Placed st) (site : Site) {P : α → Session → Prop} :
    Tries (resolving id) (do
      let code ← methodNotFound (x place)
      failReported site .notFound code : ResolveM α) st P fun f st' => Fails false st f st' ∧ Justified x f st' := by
  refine Tries.lift (methodNotFound_works hx) fun code st' _ hl h => Tries.throw ⟨⟨h.1, h.2.1⟩, fun c hc _ => ?_⟩
  cases hc
  refine ⟨place, fun hq => (hplaced hq).imp_right fun himported => ?_, h.2.2⟩
  rwa [importedClasses, hl.2.program]

/-! ## Checks

The functions that a selected method is handed to. None of them fails but `checkInstance`, so
the others are stated by what they report, and the type and the exceptions of a call are known
and made without anything starting to wait.
-/

/-- The code under which the direct call of a generated callable is reported. Bridges, the
methods of enumerations and accessors are generated, too, and are not reported. -/
def directCode (m : Method) : List Code :=
  if m.flags.isSynthetic && !m.flags.isBridge && !m.flags.isEnumSupport && !m.flags.isAccessor then
    [if m.isConstructor then .syntheticConstructorInvoke else .syntheticMethodInvocation]
  else []

/-- The checks of a callable report at most that it is generated. -/
theorem checkCallable_works (m : MethodId) : Works (resolving id) (checkCallable env site m) st fun _ st' =>
    Reports (directCode (st.world.method m)) st st' := by
  refine Works.read ?_
  dsimp only
  have warn (c : Prop) [Decidable c] {code : Code} (hcode : code ≠ .unresolvedSignature) (msg : String) (st₁ : Session) :
      Works (resolving id) (if c then reportWarning code site msg else pure ()) st₁ fun _ st' => Reports [] st₁ st' := by
    split
    · exact reportWarning_works hcode _ _
    · exact Works.ret (Quiet.refl st₁).reports
  have hdeprecated : (if (st.world.method m).isConstructor then Code.deprecatedConstructor else .deprecatedMethod) ≠
      .unresolvedSignature := by
    split <;> decide
  unfold directCode
  split
  · refine Works.bind (reportError_works ?_ site _) fun _ st₁ _ _ h₁ => ?_
    · split <;> decide
    · exact (warn _ hdeprecated _ st₁).mono fun _ _ _ _ h => by simpa using h₁.trans h
  · exact warn _ hdeprecated _ st

/-- The static type of a call is known. -/
theorem callType_works (m : MethodId) {recv : TypeId} (hrecv : st.world.types.Knows recv) (qualified : Bool)
    (hsite : KnowsArgs st.world.types site) (hargs : ∀ t ∈ args, st.world.types.Knows t) :
    Works quietly (callType m recv qualified site args) st fun t st' => st'.world.types.Knows t := by
  refine Works.of_sound fun hst => works_getUniverse ?_
  exact (onTypes_works fun _ => Method.callType_works (hst.world.method m) _ hrecv qualified hsite hargs).mono
    fun _ _ _ _ h => h.1

/-- The static type of a call is worked out from the types that there are. -/
theorem callType_fst (m : MethodId) (recv : TypeId) (qualified : Bool) (site : Site) (args : List TypeId) (st : Session) :
    (callType m recv qualified site args st).1 =
      ((st.world.method m).callType (m.isSome && m = st.world.arrayClone) recv qualified site args st.world.types).1 :=
  rfl

/-- The types that are made for the static type of a call. -/
theorem callType_snd (m : MethodId) (recv : TypeId) (qualified : Bool) (site : Site) (args : List TypeId) (st : Session) :
    (callType m recv qualified site args st).2.world.types =
      ((st.world.method m).callType (m.isSome && m = st.world.arrayClone) recv qualified site args st.world.types).2 :=
  rfl

/-- Without conflicts, the exceptions of a call are those that the method declares. -/
theorem callThrows_fst (env : Env) (site : Site) (target : MethodId) (args : List TypeId) (st : Session) :
    (callThrows env site [] target args st).1 =
      ((st.world.method target).throws.mapM ((st.world.method target).thrownType site args) st.world.types).1 :=
  rfl

/-- Unhandled exceptions are reported, and no call itself starts to wait. -/
theorem checkHandled_works (thrown : List TypeId) :
    Works (resolving id) (checkHandled env site thrown) st fun _ st' => OnlySuperWaits st st' := by
  refine works_getTypes ?_
  exact Works.forM _ (.of_same rfl) fun ex _ st₁ _ _ h => (reportError_works (by decide) site _).mono
    fun _ _ _ _ h' => h.trans h'.waiting

/-- The exceptions of a call are worked out. -/
theorem callThrows_works (conflicts : List MethodId) (target : MethodId) (hsite : KnowsArgs st.world.types site)
    (hargs : ∀ t ∈ args, st.world.types.Knows t) :
    Works (resolving id) (callThrows env site conflicts target args) st fun _ st' => OnlySuperWaits st st' := by
  refine Works.of_sound fun hst => works_getUniverse ?_
  have hm := hst.world.method target
  have hthrown : Works quietly (onTypes _) st _ := onTypes_works fun hs => Works.mapM (e := TypeStore.growth hs.guard) (P := fun t s => s.Knows t)
    (st.world.method target).throws (fun _ _ _ hl => (TypeStore.growth_grows hl).knows) fun ex hex s _ hl => by
      have hg := TypeStore.growth_grows hl
      exact Method.thrownType_works (hm.grows hg) (hsite.grows hg) (fun t ht => hg.knows (hargs t ht))
        (hg.knows (hm.throws ex hex))
  refine (works_of_quietly hthrown).bind fun thrown st₁ _ _ h₁ => ?_
  refine (works_of_quietly (onUniverse_works (withSignature_works conflicts))).bind fun _ st₂ _ _ h₂ => ?_
  refine works_getUniverse ?_
  exact (checkHandled_works _).bind fun _ _ _ _ h₃ => Works.ret ((h₁.2.trans h₂.2).onlySuperWaits.trans h₃)

/-- The calls that wait are not looked at for it. -/
theorem callThrows_waiting (conflicts : List MethodId) (target : MethodId) :
    Leaves Session.waiting (callThrows env site conflicts target args) := by
  unfold callThrows
  refine .read fun st => Leaves.bind (fun _ => rfl) fun thrown => Leaves.bind (fun _ => rfl) fun _ => .read fun st => ?_
  refine Leaves.bind ?_ fun _ => .ret _
  exact .read fun st => .forM _ fun ex _ => rfl

/-- An instance method is refused late, or nothing happens. -/
theorem checkInstance_tries (m : MethodId) (frame : Nat) :
    Tries (resolving id) (checkInstance env site m frame) st (fun _ st' => st' = st) (Fails true st) := by
  refine tries_getUniverse ?_
  split
  · exact Tries.ret rfl
  · dsimp only
    split
    · exact Tries.stop (reject_tries site .rejected (by decide) _)
    · split
      · exact reject_tries site .rejected (by decide) _
      · exact Tries.ret rfl

/-- The warning about an inherited method that hides another one is no fault. -/
theorem checkScopingConflict_works (name : String) (m : MethodId) (frame : Nat) :
    Works (resolving id) (checkScopingConflict env site name m frame) st fun _ st' => OnlySuperWaits st st' := by
  refine Works.read ?_
  dsimp only
  split
  · split
    · exact Works.ret (.of_same rfl)
    · exact (reportWarning_works (by decide) _ _).mono fun _ _ _ _ h => h.waiting
  · exact Works.ret (.of_same rfl)

/-! ## Static imports

Each imported class is asked for one method, and the phase is looked for afterwards: for
an imported method the search among overloads and the choice of the phase are two steps, where a
frame or a receiver has one.
-/

/-- What was found of a name among static imports has processed signatures and is listed by
imported classes. The first class with a method of the name is kept for the report, in case
none of them fits. -/
structure ImportSearch.Known (u : Universe) (name : String) (classes : List TypeId) (x : ImportSearch) : Prop where
  /-- The methods. -/
  found : ∀ i ∈ x.found, (u.method i.shadow.method).isResolved ∧ u.types.Knows i.owner
  /-- They are listed by the classes. -/
  listed : ∀ i ∈ x.found, i.owner ∈ classes ∧ ∃ shadows, u.listed i.owner name = some shadows ∧ i.shadow ∈ shadows
  /-- The first class with a method of the name. -/
  named : u.types.Knows x.named ∧ (x.named = .none ∨ x.named ∈ classes)

theorem ImportSearch.Known.binds {u u' : Universe} {name : String} {classes : List TypeId} {x : ImportSearch}
    (hx : x.Known u name classes) (h : u.Binds u') : x.Known u' name classes where
  found i hi := ⟨h.isResolved (hx.found i hi).1, h.types.knows (hx.found i hi).2⟩
  listed i hi := by
    obtain ⟨howner, shadows, hlisted, hmem⟩ := hx.listed i hi
    exact ⟨howner, shadows, h.listed (hx.found i hi).2 hlisted, hmem⟩
  named := hx.named.imp_left fun hnamed => h.types.knows hnamed

/-- One more class adds a method with a processed signature at most. -/
theorem addImported_known {u : Universe} {name : String} {classes : List TypeId} {acc : ImportSearch}
    (hacc : acc.Known u name classes) (argc : Nat) {cls : TypeId} (hcls : u.types.Knows cls) (hmem : cls ∈ classes)
    {shadows : List Shadow} (hlisted : shadows ≠ [] → u.listed cls name = some shadows) :
    (addImported u argc acc cls shadows).Known u name classes := by
  have hnamed (c : Prop) [Decidable c] : u.types.Knows (if c then acc.named else cls) ∧
      ((if c then acc.named else cls) = .none ∨ (if c then acc.named else cls) ∈ classes) := by
    split
    · exact hacc.named
    · exact ⟨hcls, .inr hmem⟩
  unfold addImported
  dsimp only
  split
  · exact ⟨hacc.found, hacc.listed, hnamed _⟩
  · rename_i s hs
    obtain ⟨hshadow, hstatic⟩ := List.mem_filter.mp (List.mem_of_find?_eq_some hs)
    split
    · exact ⟨hacc.found, hacc.listed, hnamed _⟩
    · refine ⟨fun i hi => ?_, fun i hi => ?_, hnamed _⟩
      · rcases List.mem_append.mp hi with hi | hi
        · exact hacc.found i hi
        · rw [List.mem_singleton.mp hi]
          exact ⟨(Bool.and_eq_true_iff.mp hstatic).1, hcls⟩
      · rcases List.mem_append.mp hi with hi | hi
        · exact hacc.listed i hi
        · rw [List.mem_singleton.mp hi]
          exact ⟨hmem, shadows, hlisted (List.ne_nil_of_mem hshadow), hshadow⟩

/-- Searching imported classes. -/
theorem searchImports_works {u : Universe} (name : String) (argc : Nat) {classes : List TypeId} {acc : ImportSearch}
    (hacc : acc.Known u name classes) {imports : List StaticImport}
    (himports : ∀ i ∈ imports, u.types.Knows i.type ∧ i.type ∈ classes) :
    Works binding (searchImports name argc acc imports) u fun x u' => x.Known u' name classes := by
  induction imports generalizing u acc with
  | nil => exact Works.ret hacc
  | cons imp rest ih =>
    unfold searchImports
    obtain ⟨hknows, hmem⟩ := himports imp (by simp)
    refine (overloadsIn_works hknows name).bind fun shadows u₁ _ hl₁ h₁ => ?_
    refine (withSignature_works _).bind fun _ u₂ _ hl₂ _ => Works.read ?_
    have hbinds := (binding.trans hl₁ hl₂).2
    have hlisted : shadows ≠ [] → u₂.listed imp.type name = some shadows := fun hne =>
      hl₂.2.listed (hl₁.2.types.knows hknows) (h₁.2.resolve_right fun h => hne h.1)
    refine ih (addImported_known (hacc.binds hbinds) argc (hbinds.types.knows hknows) hmem hlisted) fun i hi => ?_
    obtain ⟨hknows, hmem⟩ := himports i (List.mem_cons_of_mem _ hi)
    exact ⟨hbinds.types.knows hknows, hmem⟩

/-- The methods that static imports offer. -/
theorem importedMethods_works (name : String) (argc : Nat) :
    Works quietly (importedMethods name argc) st fun x st' => x.Known st'.world name st.importedClasses := by
  refine Works.of_sound fun hst => Works.read ?_
  have hempty : ImportSearch.Known st.world name st.importedClasses {} := ⟨by simp, by simp, hst.world.types.knows_none, .inl rfl⟩
  refine (onUniverse_works (searchImports_works name argc hempty fun i hi => ?_)).bind fun single st₁ _ hl₁ h₁ => ?_
  · have hsingle := (List.mem_filter.mp hi).1
    exact ⟨hst.program.singleImports i hsingle, List.mem_map_of_mem (List.mem_append_left _ hsingle)⟩
  · split
    · refine (onUniverse_works (searchImports_works name argc h₁.1 fun i hi => ⟨?_, ?_⟩)).mono fun _ _ _ _ h => h.1
      · exact hl₁.2.world.types.knows (hst.program.classImports i hi)
      · exact List.mem_map_of_mem (List.mem_append_right _ hi)
    · exact Works.ret h₁.1

/-- Other imported methods are reported. -/
theorem reportOtherImports_works (name : String) (first : Imported) (others : List Imported) :
    Works (resolving id) (reportOtherImports site name first others) st fun _ st' => OnlySuperWaits st st' := by
  refine Works.forM others (.of_same rfl) fun other _ st₁ _ _ h => works_getUniverse ?_
  refine (report_works ?_).mono fun _ _ _ _ h' => h.trans h'.waiting
  rw [withCandidate_code]
  show Code.ambiguousMethod ≠ .unresolvedSignature
  decide

/-- An imported method is within reach and accepts the arguments in the phase that is found
for it. -/
theorem importedPhase?_works {first : Imported} (hfirst : (st.world.method first.shadow.method).isResolved)
    (htypes : ∀ t ∈ site.typeArgs, st.world.types.Knows t) :
    Works quietly (importedPhase? env site first args) st fun r st' =>
      ∀ ph w, r = some (ph, w) → st'.world.Accepts site.typeArgs args ph w first.shadow.method ∧
        memberAccessible st.world.types env (st.world.method first.shadow.method) first.owner none := by
  refine Works.of_sound fun hst => Works.read ?_
  dsimp only
  split
  · rename_i hreach
    have hparams := (hst.world.method first.shadow.method).params
    refine (onUniverse_works <| Universe.onTypes_works <| TypeStore.Settles.works
      (fun hs => Method.formals_settles hs hparams htypes) fun g => Method.formals_works hparams htypes).bind
        fun f st₁ _ hl₁ h₁ => works_getTypes (Works.ret fun ph w hr => ?_)
    obtain ⟨⟨⟨-, hsame⟩, hworld⟩, -⟩ := h₁
    have hmade : (st₁.world.method first.shadow.method).formals site.typeArgs st₁.world.types = (f, st₁.world.types) := by
      rw [hl₁.2.world.formals hfirst]
      exact hsame _ (.refl _)
    have hacceptance (ph' : Phase) : st₁.world.acceptance site.typeArgs args ph' first.shadow.method
        = f.applicable st₁.world.types args ph' := by
      simp only [acceptance, hmade]
    obtain ⟨before, ph', after, hphases, hph', hnone⟩ := List.findSome?_eq_some_iff.mp hr
    obtain ⟨w', hw', heq⟩ := Option.map_eq_some_iff.mp hph'
    cases heq
    refine ⟨⟨hl₁.2.world.isResolved hfirst, by simp [Settled, hmade], (hacceptance ph).trans hw', fun ph' hph' => ?_⟩, hreach⟩
    rw [← SourceLevel.eq_earlier hphases] at hph'
    rw [hacceptance]
    simpa using hnone ph' hph'
  · exact Works.ret (by simp)

/-- A call by name alone that nothing matches, as it is looked at: the classes around it are
searched, or a place that is given, the class of a static import. -/
def unmatchedAlone (env : Env) (site : Site) (name : String) (args : List TypeId) (place : TypeId) : Unmatched :=
  { env, site, name, args, search := place }

/-- A call by name alone that no static import settles fails. Nothing was changed since the
search began that the report could notice. -/
theorem notImported_tries {α : Type} {st₀ : Session} (hquiet : Quiet st₀ st) (henv : KnowsEnv st₀.world.types env)
    (hsite : KnowsArgs st₀.world.types site) (name : String) (hargs : ∀ t ∈ args, st₀.world.types.Knows t) {place : TypeId}
    (hplace : st.world.types.Knows place) (himported : place = .none ∨ place ∈ st₀.importedClasses) {P : α → Session → Prop} :
    Tries (resolving id) (do
      let code ← methodNotFound (unmatchedAlone env site name args place)
      failReported site .notFound code : ResolveM α) st P
      fun f st' => Fails false st₀ f st' ∧ Justified (unmatchedAlone env site name args) f st' := by
  have hg := hquiet.world.types.toGrows
  have hknown : (unmatchedAlone env site name args place).Known st.world.types := by
    refine ⟨henv.grows hg, fun t ht => hg.knows (hsite.typeArgs t ht), fun t ht => hg.knows (hargs t ht), fun x hx => ?_, hplace⟩
    simp [unmatchedAlone] at hx
  have hplaced : (unmatchedAlone env site name args place).Placed st := by
    intro _
    rw [importedClasses, hquiet.program]
    exact himported
  exact (notFound_tries _ place hknown hplaced site).mono (fun _ _ _ _ h => h) fun f st' _ _ h => ⟨h.1.after hquiet, h.2⟩

/-- A call is bound to a method that static imports offer, or nothing is found. -/
theorem resolveImported_tries (henv : KnowsEnv st.world.types env) (hsite : KnowsArgs st.world.types site) (name : String)
    (hargs : ∀ t ∈ args, st.world.types.Knows t) (hblank : ∀ f ∈ env.frames, st.world.listed f.type name = some [])
    (typeOf : Expr → TypeId) :
    Tries (resolving id) (resolveImported env site name args) st
      (fun r st' => BoundMethod env site typeOf args r st'.world ∧ OnlySuperWaits st st' ∧
        ∃ u₀, ∃ cls ∈ st.importedClasses, TypesCall u₀ st'.world site args r name cls cls true ∧
          st'.world.Picks env site.typeArgs args cls none name r)
      (fun f st' => Fails false st f st' ∧ Justified (unmatchedAlone env site name args) f st') := by
  unfold resolveImported
  refine Tries.lift (works_of_quietly (importedMethods_works name args.length)) fun search st₁ hst₁ hl₁ h₁ => ?_
  have hg₁ := hl₁.2.world.types.toGrows
  split
  · exact notImported_tries h₁.2 henv hsite name hargs h₁.1.named.1 h₁.1.named.2
  · rename_i first others hfound
    have hfirst := h₁.1.found first (by simp [hfound])
    refine Tries.lift (works_of_quietly (importedPhase?_works hfirst.1 fun t ht => hg₁.knows (hsite.typeArgs t ht)))
      fun r st₂ hst₂ hl₂ h₂ => ?_
    match r with
    | none =>
      exact notImported_tries (h₁.2.trans h₂.2) henv hsite name hargs (hl₂.2.world.types.knows hfirst.2)
        (.inr (h₁.1.listed first (by simp [hfound])).1)
    | some (ph, w) =>
      obtain ⟨hacc, hreach⟩ := h₂.1 ph w rfl
      have hg₂ := hg₁.trans hl₂.2.world.types.toGrows
      have hargs₂ : ∀ t ∈ args, st₂.world.types.Knows t := fun t ht => hg₂.knows (hargs t ht)
      have htypes₂ : ∀ t ∈ site.typeArgs, st₂.world.types.Knows t := fun t ht => hg₂.knows (hsite.typeArgs t ht)
      refine Tries.lift (reportOtherImports_works name first others) fun _ st₃ _ hl₃ h₃ => ?_
      refine Tries.lift (checkCallable_works _) fun _ st₄ hst₄ hl₄ h₄ => ?_
      have hk₄ := hl₃.2.world.trans hl₄.2.world
      have hsite₄ := hsite.grows (hg₂.trans hk₄.types.toGrows)
      have hargs₄ : ∀ t ∈ args, st₄.world.types.Knows t := fun t ht => hk₄.types.knows (hargs₂ t ht)
      have howner₄ := hk₄.types.knows (hl₂.2.world.types.knows hfirst.2)
      refine Tries.lift (works_of_quietly (callType_works _ howner₄ true hsite₄ hargs₄).self) fun type st₅ hst₅ hl₅ h₅ => ?_
      obtain ⟨⟨htype, hcall⟩, hquiet₅⟩ := h₅
      rw [Prod.ext_iff, callType_fst] at hcall
      have htypes₅ := congrArg (fun st : Session => st.world.types) hcall.2
      rw [callType_snd] at htypes₅
      refine Tries.lift (callThrows_works _ _ (hsite₄.grows hl₅.2.world.types.toGrows)
        fun t ht => hl₅.2.world.types.knows (hargs₄ t ht)).self fun throws st₆ _ hl₆ h₆ => Tries.ret ?_
      obtain ⟨h₆, hthrows⟩ := h₆
      have hfinal := (hk₄.trans (hl₅.2.world.trans hl₆.2.world)).accepts hst₂.world htypes₂ hargs₂ hacc
      obtain ⟨hcls, shadows, hlisted, hmem⟩ := h₁.1.listed first (by simp [hfound])
      have hmeets : MeetsConflicts st₁.world first.owner name first.shadow.method first.shadow.conflicts :=
        ⟨hfirst.2, shadows, hlisted, first.shadow, hmem, .inl rfl, rfl⟩
      have hk₆ := hl₂.2.world.trans (hk₄.trans (hl₅.2.world.trans hl₆.2.world))
      have hfree {u : Universe} : KnowsQualifier u.types none := by simp [KnowsQualifier]
      have hreach₆ := (hk₆.memberAccessible hst₁.world (henv.grows hg₁) hfirst.2 hfree hfirst.1).trans hreach
      have hselected₆ : st₆.world.SelectedFrom env site.typeArgs args first.owner none name shadows ph w first.shadow.method := {
        listed := hk₆.listed hfirst.2 hlisted
        competes := ⟨first.shadow, hmem, rfl, by simp [competes, hfinal.resolved, hreach₆]⟩
        accepts := hfinal
        first := fun hwhere => by
          -- no class around the call lists methods of the name
          obtain ⟨f, hf, hnonempty⟩ := hwhere.resolve_left Bool.false_ne_true
          exact absurd ((hl₁.2.world.trans hk₆).listed (henv f hf) (hblank f hf)) hnonempty }
      have hmoves := hl₂.2.moves.trans (hl₃.2.moves.trans (hl₄.2.moves.trans (hl₅.2.moves.trans hl₆.2.moves)))
      have hmoves₆ : Moves isAnonymous st₄.world st₆.world := hl₅.2.moves.trans hl₆.2.moves
      refine ⟨⟨⟨.inl rfl, hl₆.2.world.types.knows htype, hfinal.resolved, fun _ => ⟨_, hfinal, .inl rfl⟩⟩, rfl,
        Moves.listed hmoves (.of_overloads hlisted hmem (.inl rfl)), .of_none rfl rfl, by simp, rfl⟩,
        (h₁.2.trans h₂.2).onlySuperWaits.trans (h₃.trans ?_), st₄.world, first.owner, hcls, ⟨hl₅.2.world.trans hl₆.2.world,
          hmoves₆.toAnything, hst₄.world, ?_, howner₄, hargs₄, hsite₄, hcall.1.symm, _, hmeets.keeps hk₆, fun hnone => ?_⟩,
        shadows, _, hselected₆, .self (.inr hreach₆)⟩
      · exact OnlySuperWaits.trans h₄.waiting (hquiet₅.onlySuperWaits.trans h₆)
      · exact (hk₄.accepts hst₂.world htypes₂ hargs₂ hacc).resolved
      · rw [hnone] at hthrows
        exact ⟨st₅.world, htypes₅ ▸ .refl _, hl₅.2.world, hl₆.2.world, hst₅.world,
          (congrArg Prod.fst hthrows).symm.trans (callThrows_fst env site _ args st₅)⟩

/-! ## Calls by name alone and calls with a receiver

Both have the same shape: a selection, what is reported when it is empty, and the checks of
what it found. `unmatchedAlone` and `unmatchedThrough` are the call as the report sees it;
they are definitions because the statements about reports speak of the same call.
-/

/-- What is left to do once a method was selected and checked cannot fail. It is told what the
selection and the checks have shown, so that it can be used for the frames around a call, for
imports and for receivers alike. -/
theorem finishMethod_tries (henv : KnowsEnv st.world.types env) (hsite : KnowsArgs st.world.types site)
    (hargs : ∀ t ∈ args, st.world.types.Knows t) {ph : Phase} {wrapped : Bool} {m target : MethodId}
    (hacc : st.world.Accepts site.typeArgs args ph wrapped m)
    (htarget : target = m ∨ st.world.Replaces env m target) (hlisted : st.world.Listed target) {recv : TypeId}
    (hrecv : st.world.types.Knows recv) (qualified : Bool) {name : String} {search : TypeId} {conflicts : List MethodId}
    (hmeets : MeetsConflicts st.world search name target conflicts) {forward : UniverseM (Option LoweredCall)}
    {typeOf : Expr → TypeId} (hforward : ∀ u, st.world.Keeps u → (u.method target).isResolved →
      Works binding forward u fun r u' => ∀ call ∈ r, u'.StandsIn typeOf .method site.args target call)
    {E : Failure → Session → Prop} :
    Tries (resolving id) (do
      checkCallable env site target
      let type ← callType target recv qualified site args
      let lowered ← inUniverse forward
      let throws ← callThrows env site conflicts target args
      return ({ state := .resolved, callable := target, type, phase := ph, wrapped, lowered, throws } : Resolution)) st
      (fun r st' => BoundMethod env site typeOf args r st'.world ∧ OnlySuperWaits st st' ∧
        (r.callable = target ∧ r.phase = ph ∧ r.wrapped = wrapped) ∧
        ∃ u₀, TypesCall u₀ st'.world site args r name search recv qualified) E := by
  have resolved {u : Universe} (hacc : u.Accepts site.typeArgs args ph wrapped m) (htarget : target = m ∨ u.Replaces env m target) :
      (u.method target).isResolved := by
    rcases htarget with rfl | hreplaces
    · exact hacc.resolved
    · exact (isResolved_of_sameSignature hreplaces.same).2
  -- each step keeps what the one before it has left, so all of it holds in the last state
  refine Tries.of_sound fun hst => Tries.lift (checkCallable_works target) fun _ st₁ hst₁ hl₁ h₁ => ?_
  have hg₁ := hl₁.2.world.types.toGrows
  have hargs₁ : ∀ t ∈ args, st₁.world.types.Knows t := fun t ht => hg₁.knows (hargs t ht)
  refine Tries.lift (works_of_quietly (callType_works target (hg₁.knows hrecv) qualified (hsite.grows hg₁) hargs₁).self)
    fun type st₂ _ hl₂ h₂ => ?_
  obtain ⟨⟨htype, hcall⟩, hquiet₂⟩ := h₂
  rw [Prod.ext_iff, callType_fst] at hcall
  have htypes₂ := congrArg (fun st : Session => st.world.types) hcall.2
  rw [callType_snd] at htypes₂
  have hresolved₁ := hl₁.2.world.isResolved (resolved hacc htarget)
  have hk₂ := hl₁.2.world.trans hl₂.2.world
  have hresolved₂ := hl₂.2.world.isResolved hresolved₁
  refine Tries.lift (works_of_quietly (onUniverse_works (hforward _ hk₂ hresolved₂))) fun lowered st₃ hst₃ hl₃ h₃ => ?_
  have hk₃ := hk₂.trans hl₃.2.world
  refine Tries.lift (callThrows_works conflicts target (hsite.grows hk₃.types.toGrows)
    fun t ht => hk₃.types.knows (hargs t ht)).self fun throws st₄ _ hl₄ h₄ => Tries.ret ?_
  obtain ⟨h₄, hthrows⟩ := h₄
  have hk₄ := hk₃.trans hl₄.2.world
  have hacc' := hk₄.accepts hst.world hsite.typeArgs hargs hacc
  have htarget' := htarget.imp_right (hk₄.replaces hst.world henv)
  have hmoves := hl₁.2.moves.trans (hl₂.2.moves.trans (hl₃.2.moves.trans hl₄.2.moves))
  have hstands : ∀ call ∈ lowered, st₄.world.StandsIn typeOf .method site.args target call := fun call hcall =>
    (h₃.1.1 call hcall).moves hst₃.world hl₄.2.world hl₄.2.moves (hl₃.2.world.isResolved hresolved₂)
  have hmoves₄ : Moves isAnonymous st₁.world st₄.world := hl₂.2.moves.trans (hl₃.2.moves.trans hl₄.2.moves)
  refine ⟨⟨⟨.inl rfl, hl₄.2.world.types.knows (hl₃.2.world.types.knows htype), resolved hacc' htarget',
    fun _ => ⟨m, hacc', htarget'.imp_right fun h => ⟨rfl, h⟩⟩⟩, rfl, Moves.listed hmoves hlisted,
      ⟨fun call hcall => .inl (hstands call hcall).forwards, by simp⟩, hstands, rfl⟩,
    OnlySuperWaits.trans h₁.waiting ((hquiet₂.trans h₃.2).onlySuperWaits.trans h₄), ⟨rfl, rfl, rfl⟩, st₁.world, ?_⟩
  -- the type was made in the state behind the check, the exceptions in the one before the last
  refine ⟨hl₂.2.world.trans (hl₃.2.world.trans hl₄.2.world), hmoves₄.toAnything, hst₁.world, hresolved₁, hg₁.knows hrecv, hargs₁,
    hsite.grows hg₁, hcall.1.symm, conflicts, hmeets.keeps hk₄, fun hnone => ?_⟩
  subst hnone
  exact ⟨st₃.world, htypes₂ ▸ hl₃.2.world.types, hl₂.2.world.trans hl₃.2.world, hl₄.2.world, hst₃.world,
    (congrArg Prod.fst hthrows).symm.trans (callThrows_fst env site _ args st₃)⟩

/-- What is selected for a call by name alone. It is the selection of the call without what
comes of it, so that the report about an ambiguity can be told in advance. -/
def lexicalSelection (env : Env) (site : Site) (name : String) (args : List TypeId) : SessionM (Option Selection) := do
  match ← selectLexically env site name args env.frames.zipIdx with
  | .ok (some (_, _, _, sel)) => return sel
  | _ => return none

/-- The codes that are reported about what is selected. -/
def selectionCodes (code : Code) (sel : Option Selection) : List Code :=
  sel.elim [] (ambiguity code)

/-- A method call is refused: the reports are known, and when the last one names another
method, what it says is so. -/
def RefusesMethod (x : TypeId → Unmatched) (earlier : List Code) (st : Session) (f : Failure) (st' : Session) : Prop :=
  Refuses earlier st f st' ∧ Justified x f st'

/-- A call is bound to a method that the frame lists, or to a conflict of one, or it is
refused late. -/
theorem bindLexical_tries (henv : KnowsEnv st.world.types env) (hsite : KnowsArgs st.world.types site) (name : String)
    (hargs : ∀ t ∈ args, st.world.types.Knows t) (frame : Nat) {f : Frame}
    (hf : st.world.types.Genuine f.type ∧ env.frame frame = f) (hsome : f.type.isSome) {shadows : List Shadow}
    (hsees : st.world.listed f.type name = some shadows) (hshadows : ∀ s ∈ shadows, st.world.ListedShadow s)
    (hprocessed : ∀ s ∈ shadows, st.world.Processed s.method) {level : SourceLevel} {sel : Selection}
    (hdecides : st.world.Decides level.phases site.typeArgs args (st.world.rivals env f.type shadows) (some sel))
    {typeOf : Expr → TypeId} (hthis : ReadsThis typeOf) :
    Tries (resolving id) (bindLexical env site name args frame f shadows sel) st
      (fun r st' => BoundMethod env site typeOf args r st'.world ∧ OnlySuperWaits st st' ∧
        (∃ s ∈ shadows, r.callable = s.method ∨ r.callable ∈ s.conflicts) ∧
          ∃ u₀, TypesCall u₀ st'.world site args r name f.type f.type false ∧
            st'.world.Picks env site.typeArgs args f.type none name r)
      (fun f st' => Refuses (ambiguity .ambiguousMethod sel) st f st' ∧ NamesNone f) := by
  obtain ⟨hmem, hacc⟩ := hdecides.accepts
  have hlisted : ∃ s ∈ shadows, s.method = sel.first := by
    obtain ⟨s, hs, heq⟩ := List.mem_map.mp hmem
    exact ⟨s, (List.mem_filter.mp hs).1, heq⟩
  unfold bindLexical
  refine Tries.of_sound fun hst => Tries.lift (pick_works site sel (by decide)) fun m st₁ _ hl₁ h₁ => ?_
  obtain ⟨rfl, hreports⟩ := h₁
  refine Tries.bind ((checkInstance_tries sel.first frame).mono (fun _ _ _ _ h => h) fun _ _ _ _ h => ?_)
    fun _ st₂ _ _ h₂ => ?_
  · exact ⟨Fails.refuses_late hreports h, h.namesNone⟩
  subst h₂
  refine Tries.lift (checkScopingConflict_works name sel.first frame) fun _ st₃ hst₃ hl₃ h₃ => ?_
  have hk := hl₁.2.world.trans hl₃.2.world
  have hg := hk.types.toGrows
  have hfree {u : Universe} : KnowsQualifier u.types none := by simp [KnowsQualifier]
  -- the selected method, and what is bound in its place
  have hselected : st.world.SelectedFrom env site.typeArgs args f.type none name shadows sel.phase sel.wrapped sel.first :=
    hdecides.selectedFrom hsees hprocessed
  have hbound := bindTarget_boundFor env (fun s hs => hk.soundShadow hst.world (hshadows s hs).toSoundShadow) sel.first f.type none
  have htarget := hbound.replaces (hg.knows hf.1.1) hfree
  have hfound (u : Universe) := bindTarget_listed (u := u) env hlisted f.type none
  have hmeets : MeetsConflicts st₃.world f.type name (bindTarget st₃.world env shadows sel.first f.type none)
      (conflictsOf shadows sel.first) :=
    ⟨hg.knows hf.1.1, shadows, hk.listed hf.1.1 hsees, hfound st₃.world⟩
  refine tries_getUniverse ?_
  refine (finishMethod_tries (henv.grows hg) (hsite.grows hg) (fun t ht => hg.knows (hargs t ht))
    (hk.accepts hst.world hsite.typeArgs hargs hacc) htarget ?_ (hg.knows hf.1.1) false hmeets
    fun u hu hid => forwardUnqualified_works ((henv.grows hg).grows hu.types.toGrows) site
      (hf.2 ▸ (hu.types.toGrows.genuine (hg.genuine hf.1)).2) hid (hf.2 ▸ hthis _ _ _ hsome)).mono
      (fun r _ _ hl h => ⟨h.1, OnlySuperWaits.trans hreports.waiting (h₃.trans h.2.1), ?_, ?_⟩) fun _ _ _ _ h => h
  · obtain ⟨s, hs, hnames, -⟩ := hfound st₃.world
    exact hl₃.2.moves.listed (hl₁.2.moves.listed ((hshadows s hs).listed _ hnames))
  · rw [h.2.2.1.1]
    exact (hfound _).imp fun s hs => ⟨hs.1, hs.2.1⟩
  · refine h.2.2.2.imp fun u₀ htypes => ⟨htypes, shadows, sel.first, ?_⟩
    obtain ⟨hcallable, hphase, hwrapped⟩ := h.2.2.1
    rw [hcallable, hphase, hwrapped]
    exact ⟨(hk.trans hl.2.world).selectedFrom hst.world henv hsite.typeArgs hargs hfree hselected,
      hl.2.world.boundFor hst₃.world (henv.grows hg) (hg.knows hf.1.1) hfree (hk.isResolved hacc.resolved) hbound⟩

/-- What holds of the frames with their places holds of the frames. -/
theorem forall_frame {P : Frame → Prop} (h : ∀ p ∈ env.frames.zipIdx, P p.1) : ∀ f ∈ env.frames, P f := by
  intro f hf
  obtain ⟨i, hi⟩ := List.getElem?_of_mem hf
  exact h (f, i) (List.mem_zipIdx_iff_getElem?.mpr hi)

/-- A call by name alone is bound or refused. Which frame or import it is bound through is
left open here: whatever the place, the type and the exceptions come about in the same way,
and the callable was picked from what the place lists. -/
theorem resolveUnqualified_tries (henv : KnowsEnv st.world.types env) (hsite : KnowsArgs st.world.types site)
    (name : String) (hargs : ∀ t ∈ args, st.world.types.Knows t) {typeOf : Expr → TypeId} (hthis : ReadsThis typeOf) :
    Tries (resolving id) (resolveUnqualified env site name args) st
      (fun r st' => BoundMethod env site typeOf args r st'.world ∧ OnlySuperWaits st st' ∧
        ∃ u₀ x t q, TypesCall u₀ st'.world site args r name x t q ∧ CalledOn st st'.world env name none x t q ∧
          st'.world.Picks env site.typeArgs args x none name r)
      (RefusesMethod (unmatchedAlone env site name args)
        (selectionCodes .ambiguousMethod (lexicalSelection env site name args st).1) st) := by
  unfold resolveUnqualified
  refine Tries.lift (works_of_quietly (selectLexically_works henv hsite.typeArgs name (knowsFrames_zipIdx henv)).self)
    fun r st₁ hst₁ hl₁ h₁ => ?_
  obtain ⟨⟨hr, heq⟩, hquiet⟩ := h₁
  have hg₁ := hl₁.2.world.types.toGrows
  match r with
  | .error e => exact Tries.throw ⟨hquiet.reports, NamesNone.justified (by simp [NamesNone]) _⟩
  | .ok none =>
    have hblank : ∀ f ∈ env.frames, st₁.world.listed f.type name = some [] := forall_frame hr
    refine (resolveImported_tries (henv.grows hg₁) (hsite.grows hg₁) name (fun t ht => hg₁.knows (hargs t ht)) hblank typeOf).mono
      (fun r st₂ _ hl₂ h => ?_) fun f st₂ _ _ h => ⟨(h.1.after hquiet).refuses _, h.2⟩
    obtain ⟨hbound, hwaits, u₀, cls, hcls, htypes, hpicks⟩ := h
    have hcalled : CalledOn st st₁.world env name none cls cls true :=
      .imported hblank (by rwa [importedClasses, ← hquiet.program])
    exact ⟨hbound, hquiet.onlySuperWaits.trans hwaits, u₀, cls, cls, true, htypes, hcalled.keeps hl₂.2.world (henv.grows hg₁), hpicks⟩
  | .ok (some (_, _, _, none)) =>
    have hknown : (unmatchedAlone env site name args .none).Known st₁.world.types :=
      ⟨henv.grows hg₁, fun t ht => hg₁.knows (hsite.typeArgs t ht), fun t ht => hg₁.knows (hargs t ht),
        fun x hx => by simp [unmatchedAlone] at hx, hst₁.world.types.knows_none⟩
    exact (notFound_tries _ _ hknown (fun _ => .inl rfl) site).mono (fun _ _ _ _ h => h)
      fun f st₂ _ _ h => ⟨(h.1.after hquiet).refuses _, h.2⟩
  | .ok (some (frame, f, shadows, some sel)) =>
    obtain ⟨hsees, hsound, hprocessed, hdecides⟩ := hr
    have hsel : (lexicalSelection env site name args st).1 = some sel := by
      unfold lexicalSelection
      simp only [bind, StateT.bind, heq]
      rfl
    rw [hsel]
    refine (bindLexical_tries (henv.grows hg₁) (hsite.grows hg₁) name (fun t ht => hg₁.knows (hargs t ht)) frame
      (hsees.frame (henv.grows hg₁)) hsees.isSome hsees.listed (hsees.listedShadow hsound) hprocessed hdecides hthis).mono
        (fun r st₂ _ hl₂ h => ?_) fun _ _ _ _ h => ⟨h.1.after hquiet, h.2.justified _⟩
    obtain ⟨hbound, hwaits, -, u₀, htypes, hpicks⟩ := h
    have hcalled : CalledOn st st₁.world env name none f.type f.type false := .frame hsees
    exact ⟨hbound, hquiet.onlySuperWaits.trans hwaits, u₀, _, _, _, htypes, hcalled.keeps hl₂.2.world (henv.grows hg₁), hpicks⟩

/-- A receiver without members, a bad one among them, is refused early, or nothing happens. -/
theorem checkReceiver_tries (name : String) (t : TypeId) :
    Tries (resolving id) (checkReceiver site name t) st (fun _ st' => st' = st ∧ ¬ st.world.types.isBad t) (Fails false st) := by
  refine tries_getTypes ?_
  split
  · exact failSilently_tries site .badReceiver
  · exact failSilently_tries site .badReceiver
  · exact reject_tries site .badReceiver (by decide) _
  · exact reject_tries site .badReceiver (by decide) _
  · exact reject_tries site .badReceiver (by decide) _
  · rename_i hbad _ _ _ _
    exact Tries.ret ⟨rfl, by simpa [TypeStore.isBad] using hbad⟩

/-- A failure for a receiver without members names no other method. -/
theorem checkReceiver_namesNone (name : String) (t : TypeId) :
    Tries (resolving id) (checkReceiver site name t) st (fun _ _ => True) fun f _ => NamesNone f := by
  refine tries_getTypes ?_
  split
  · exact failSilently_namesNone site .badReceiver
  · exact failSilently_namesNone site .badReceiver
  · exact reject_namesNone site .badReceiver (by decide) (by decide) _
  · exact reject_namesNone site .badReceiver (by decide) (by decide) _
  · exact reject_namesNone site .badReceiver (by decide) (by decide) _
  · exact Tries.ret trivial

/-- A method that does not fit the receiver is refused late, or something is reported. -/
theorem checkReceiverForm_tries (m : MethodId) (recv : Expr) (t : TypeId) :
    Tries (resolving id) (checkReceiverForm site m recv t) st (fun _ st' => OnlySuperWaits st st') (Fails true st) := by
  refine tries_getUniverse ?_
  dsimp only
  split
  · exact reject_tries site .rejected (by decide) _
  · split
    · exact (Tries.lifted (reportError_works (by decide) site _)).mono (fun _ _ _ _ h => h.waiting) fun _ _ _ _ h => h
    · split
      · exact (Tries.lifted (reportWarning_works (by decide) site _)).mono (fun _ _ _ _ h => h.waiting) fun _ _ _ _ h => h
      · exact Tries.ret (.of_same rfl)

/-- A receiver as far as access is concerned. -/
def qualifierOf (st : Session) (recv : Expr) : Qualifier :=
  ⟨st.exprType recv, recv.form.isSuper⟩

/-- A type variable as a receiver is searched as its erasure. -/
theorem searchOf_eq (st : Session) (recv : Expr) : st.searchOf recv =
    if (st.world.types.shape (st.receiverType recv)).isVariable then (TypeStore.erasure (st.receiverType recv) st.world.types).1
    else st.receiverType recv := by
  have hrun : searchedType (st.receiverType recv) st = (if (st.world.types.shape (st.receiverType recv)).isVariable
    then onTypes (TypeStore.erasure (st.receiverType recv)) else pure (st.receiverType recv)) st := rfl
  unfold searchOf
  rw [hrun]
  split <;> rfl

/-- The type that is searched depends on types, and on the types of expressions. -/
theorem searchOf_congr (hworld : st'.world = st.world) (htypes : st'.exprType = st.exprType) (recv : Expr) :
    st'.searchOf recv = st.searchOf recv := by
  have hrecv : st'.receiverType recv = st.receiverType recv := by
    unfold receiverType
    rw [htypes]
  rw [searchOf_eq, searchOf_eq, hrecv, hworld]

/-- What is selected for a call with a receiver, among the methods that the table of the
searched type lists. Without a table nothing is selected. -/
def receiverSelection (env : Env) (site : Site) (name : String) (recv : Expr) (args : List TypeId) :
    SessionM (Option Selection) := do
  let st ← get
  let search ← searchedType (st.receiverType recv)
  match ← onUniverse (memberTable search) with
  | .error _ => return none
  | .ok table =>
    selectMethod env site search (some ⟨st.exprType recv, recv.form.isSuper⟩) (table.overloads name) args

/-- A call with a receiver that nothing matches, as it is looked at. -/
def unmatchedThrough (st : Session) (env : Env) (site : Site) (name : String) (recv : Expr) (args : List TypeId) : Unmatched :=
  { env, site, name, args, qualifier := some (st.qualifierOf recv), receiver := st.receiverType recv, search := st.searchOf recv }

/-- The type that a receiver denotes is known. -/
theorem WellFormed.knows_receiverType (hst : st.WellFormed) {recv : Expr} (hrecv : KnowsExpr st.world.types recv) :
    st.world.types.Knows (st.receiverType recv) := by
  unfold receiverType
  split
  · rename_i t ht
    split
    · have hdenoted := hrecv.2
      rw [ht] at hdenoted
      exact hdenoted
    · exact hst.knows_exprType hrecv
  · exact hst.knows_exprType hrecv

/-- The type that is searched is known. -/
theorem searchedType_works {t : TypeId} (ht : st.world.types.Knows t) :
    Works quietly (searchedType t) st fun t' st' => st'.world.types.Knows t' := by
  refine works_getTypes ?_
  split
  · exact (onTypes_works fun _ => TypeStore.erasure_works ht).mono fun _ _ _ _ h => h.1
  · exact Works.ret ht

/-- A call with a receiver is bound to what it finds among the listed methods, or it is
refused late. -/
theorem bindSelected_tries (henv : KnowsEnv st.world.types env) (hsite : KnowsArgs st.world.types site) (name : String)
    (hargs : ∀ t ∈ args, st.world.types.Knows t) (recv : Expr) {recvType search : TypeId} {q : Option Qualifier}
    (hrecv : st.world.types.Genuine recvType) (hsearch : st.world.types.Knows search) (hq : KnowsQualifier st.world.types q)
    {shadows : List Shadow} (hlisted : st.world.listed search name = some shadows) (hsound : ∀ s ∈ shadows, st.world.SoundShadow s)
    (hprocessed : ∀ s ∈ shadows, st.world.Processed s.method) {level : SourceLevel} {sel : Selection}
    (hdecides : st.world.Decides level.phases site.typeArgs args
      ((shadows.filter (st.world.competes env search q)).map (·.method)) (some sel))
    {typeOf : Expr → TypeId} (htype : typeOf recv = recvType) :
    Tries (resolving id) (do
      let id ← pick site sel .ambiguousMethod
      checkReceiverForm site id recv recvType
      let target := bindTarget (← getUniverse) env shadows id search q
      checkCallable env site target
      let type ← callType target recvType true site args
      let lowered ← inUniverse (Universe.forwardQualified env site target recv recvType)
      let throws ← callThrows env site (conflictsOf shadows id) target args
      return ({ state := .resolved, callable := target, type, phase := sel.phase, wrapped := sel.wrapped,
                lowered, throws } : Resolution)) st
      (fun r st' => BoundMethod env site typeOf args r st'.world ∧ OnlySuperWaits st st' ∧
        st'.world.Picks env site.typeArgs args search q name r ∧
          ∃ u₀, TypesCall u₀ st'.world site args r name search recvType true)
      (fun f st' => Refuses (ambiguity .ambiguousMethod sel) st f st' ∧ NamesNone f) := by
  obtain ⟨hmem, hacc⟩ := hdecides.accepts
  refine Tries.of_sound fun hst => Tries.lift (pick_works site sel (by decide)) fun m st₁ _ hl₁ h₁ => ?_
  obtain ⟨rfl, hreports⟩ := h₁
  refine Tries.bind ((checkReceiverForm_tries sel.first recv _).mono (fun _ _ _ _ h => h) fun f st₂ _ _ h => ?_)
    fun _ st₂ hst₂ hl₂ h₂ => tries_getUniverse ?_
  · exact ⟨Fails.refuses_late hreports h, h.namesNone⟩
  have hk := hl₁.2.world.trans hl₂.2.world
  have hg := hk.types.toGrows
  have hq₂ : KnowsQualifier st₂.world.types q := fun x hx => hg.knows (hq x hx)
  -- the selected method, and what is bound in its place
  have hselected : st.world.SelectedFrom env site.typeArgs args search q name shadows sel.phase sel.wrapped sel.first :=
    hdecides.selectedFrom hlisted hprocessed
  have hbound := bindTarget_boundFor env (fun s hs => hk.soundShadow hst.world (hsound s hs)) sel.first search q
  have htarget := hbound.replaces (hg.knows hsearch) hq₂
  obtain ⟨s, hs, hnames, hconflicts⟩ := bindTarget_listed (u := st₂.world) env
    (by obtain ⟨s, hs, heq⟩ := List.mem_map.mp hmem; exact ⟨s, (List.mem_filter.mp hs).1, heq⟩) search q
  have hlists : st₂.world.Listed (bindTarget st₂.world env shadows sel.first search q) :=
    .of_overloads (hk.listed hsearch hlisted) hs hnames
  have hmeets : MeetsConflicts st₂.world search name (bindTarget st₂.world env shadows sel.first search q)
      (conflictsOf shadows sel.first) :=
    ⟨hg.knows hsearch, shadows, hk.listed hsearch hlisted, s, hs, hnames, hconflicts⟩
  refine (finishMethod_tries (henv.grows hg) (hsite.grows hg) (fun t ht => hg.knows (hargs t ht))
    (hk.accepts hst.world hsite.typeArgs hargs hacc) htarget hlists (hg.genuine hrecv).1 true hmeets
    fun u hu hid => forwardQualified_works ((henv.grows hg).grows hu.types.toGrows) site recv
      (hu.types.toGrows.genuine (hg.genuine hrecv)) hid htype).mono (fun r st₃ _ hl₃ h => ?_) fun _ _ _ _ h => h
  refine ⟨h.1, OnlySuperWaits.trans hreports.waiting (h₂.trans h.2.1), ⟨shadows, sel.first, ?_⟩, h.2.2.2⟩
  obtain ⟨hcallable, hphase, hwrapped⟩ := h.2.2.1
  rw [hcallable, hphase, hwrapped]
  exact ⟨(hk.trans hl₃.2.world).selectedFrom hst.world henv hsite.typeArgs hargs hq hselected,
    hl₃.2.world.boundFor hst₂.world (henv.grows hg) (hg.knows hsearch) hq₂ (hk.isResolved hacc.resolved) hbound⟩

/-- A call with a receiver is bound or refused. The type that it searches is a function of the
session before the call, so the statement names it. -/
theorem resolveQualified_tries (henv : KnowsEnv st.world.types env) (hsite : KnowsArgs st.world.types site)
    (name : String) {recv : Expr} (hrecv : KnowsExpr st.world.types recv) (hargs : ∀ t ∈ args, st.world.types.Knows t) :
    Tries (resolving id) (resolveQualified env site name recv args) st
      (fun r st' => BoundMethod env site st.receiverType args r st'.world ∧ OnlySuperWaits st st' ∧
        st'.world.Picks env site.typeArgs args (st.searchOf recv) (some (st.qualifierOf recv)) name r ∧
          ∃ u₀, TypesCall u₀ st'.world site args r name (st.searchOf recv) (st.receiverType recv) true)
      (RefusesMethod (fun _ => unmatchedThrough st env site name recv args)
        (selectionCodes .ambiguousMethod (receiverSelection env site name recv args st).1) st) := by
  refine Tries.of_sound fun hst => Tries.read ?_
  have hrecvType := hst.knows_receiverType hrecv
  dsimp only
  -- a bad receiver fails the call before anything is searched
  refine Tries.bind (((checkReceiver_tries name _).and (checkReceiver_namesNone name _)).mono (fun _ _ _ _ h => h.1)
    fun _ _ _ _ h => ⟨h.1.refuses _, h.2.justified _⟩) fun _ st' _ _ ⟨heq, hgood⟩ => ?_
  subst heq
  -- the table of the searched type
  refine Tries.lift (works_of_quietly (searchedType_works hrecvType).self) fun search st₁ _ _ h₁ => ?_
  obtain ⟨⟨hsearch, heq₁⟩, hquiet₁⟩ := h₁
  obtain rfl : st'.searchOf recv = search := congrArg Prod.fst heq₁
  refine Tries.lift (works_of_quietly (onUniverse_works (memberTable_works hsearch)).self) fun r st₂ hst₂ _ h₂ => ?_
  obtain ⟨⟨⟨htable, -⟩, heq₂⟩, hquiet₂⟩ := h₂
  have hq₂ := hquiet₁.trans hquiet₂
  cases r with
  | error e => exact Tries.throw ⟨hq₂.reports, NamesNone.justified (by simp [NamesNone]) _⟩
  | ok table =>
    have hg₂ := hq₂.world.types.toGrows
    have hsearch₂ := hquiet₂.world.types.knows hsearch
    have hqual₂ : KnowsQualifier st₂.world.types (some (st'.qualifierOf recv)) := by
      intro x hx
      cases hx
      exact hg₂.knows (hst.knows_exprType hrecv)
    have hsound : ∀ s ∈ table.overloads name, st₂.world.SoundShadow s := fun s hs => htable.1.overloads hs
    have hlisted : st₂.world.listed (st'.searchOf recv) name = some (table.overloads name) := congrArg (Option.map _) htable.2
    -- the selection among what the table lists of the name
    refine Tries.lift (works_of_quietly (selectMethod_works (henv.grows hg₂) (fun t ht => hg₂.knows (hsite.typeArgs t ht))
      hsearch₂ hqual₂ (table.overloads name)).self) fun sel st₃ hst₃ hl₃ h₃ => ?_
    obtain ⟨⟨⟨hprocessed, hdecides⟩, heq₃⟩, hquiet₃⟩ := h₃
    have hq₃ := hq₂.trans hquiet₃
    have hg₃ := hq₃.world.types.toGrows
    have hsel : (receiverSelection env site name recv args st').1 = sel := by
      unfold receiverSelection
      unfold qualifierOf at heq₃
      simp only [bind, StateT.bind, get, getThe, MonadStateOf.get, StateT.get, pure, heq₁, heq₂, heq₃]
    rw [hsel]
    have hargs₃ : ∀ t ∈ args, st₃.world.types.Knows t := fun t ht => hg₃.knows (hargs t ht)
    have hqual₃ : KnowsQualifier st₃.world.types (some (st'.qualifierOf recv)) :=
      fun x hx => hquiet₃.world.types.knows (hqual₂ x hx)
    have hsearch₃ := hquiet₃.world.types.knows hsearch₂
    cases sel with
    | none =>
      have hknown : (unmatchedThrough st' env site name recv args).Known st₃.world.types :=
        ⟨henv.grows hg₃, fun t ht => hg₃.knows (hsite.typeArgs t ht), hargs₃, hqual₃, hsearch₃⟩
      exact (notFound_tries (fun _ => unmatchedThrough st' env site name recv args) .none hknown (fun h => nomatch h) site).mono
        (fun _ _ _ _ h => h) fun f st₄ _ _ h => ⟨(h.1.after hq₃).refuses _, h.2⟩
    | some sel =>
      exact (bindSelected_tries (henv.grows hg₃) (hsite.grows hg₃) name hargs₃ recv (hg₃.genuine ⟨hrecvType, hgood⟩)
        hsearch₃ hqual₃ (hquiet₃.world.toKeeps.listed hsearch₂ hlisted)
        (fun s hs => hquiet₃.world.soundShadow hst₂.world (hsound s hs)) (fun s hs => hprocessed s hs (hsound s hs).has)
        hdecides rfl).mono (fun _ _ _ _ h => ⟨h.1, hq₃.onlySuperWaits.trans h.2.1, h.2.2⟩)
          fun _ _ _ _ h => ⟨h.1.after hq₃, h.2.justified _⟩

/-- What is selected for a method call. -/
def methodSelection (env : Env) (site : Site) (name : String) (recv : Option Expr) (args : List TypeId) :
    SessionM (Option Selection) :=
  match recv with
  | none => lexicalSelection env site name args
  | some recv => receiverSelection env site name recv args

/-- A method call that nothing matches, as it is looked at. -/
def unmatchedMethod (st : Session) (env : Env) (site : Site) (name : String) (recv : Option Expr) (place : TypeId) : Unmatched :=
  match recv with
  | none => unmatchedAlone env site name (site.args.map st.exprType) place
  | some recv => unmatchedThrough st env site name recv (site.args.map st.exprType)

/-- A call that nothing matches depends on types, and on the types of expressions. -/
theorem unmatchedMethod_congr (hworld : st'.world = st.world) (htypes : st'.exprType = st.exprType) (env : Env) (site : Site)
    (name : String) (recv : Option Expr) : unmatchedMethod st' env site name recv = unmatchedMethod st env site name recv := by
  funext place
  cases recv with
  | none => simp only [unmatchedMethod, htypes]
  | some recv =>
    simp only [unmatchedMethod, unmatchedThrough, qualifierOf, receiverType, htypes, searchOf_congr hworld htypes]

/-- A method call is bound or refused. This is the only statement about method calls that the
runs of programs are built on. -/
theorem resolveMethod_tries (henv : KnowsEnv st.world.types env) (hsite : KnowsArgs st.world.types site) (name : String)
    {recv : Option Expr} (hrecv : ∀ e ∈ recv, KnowsExpr st.world.types e) :
    Tries (resolving id) (resolveMethod env site name recv) st
      (fun r st' => BoundMethod env site st.receiverType (site.args.map st.exprType) r st'.world ∧ OnlySuperWaits st st' ∧
        ∃ u₀ x t q, TypesCall u₀ st'.world site (site.args.map st.exprType) r name x t q ∧
          CalledOn st st'.world env name recv x t q ∧
          st'.world.Picks env site.typeArgs (site.args.map st.exprType) x (recv.map st.qualifierOf) name r)
      (RefusesMethod (unmatchedMethod st env site name recv) (selectionCodes .ambiguousMethod
        (methodSelection env site name recv (site.args.map st.exprType) st).1) st) := by
  refine Tries.of_sound fun hst => ?_
  have hargs := hst.knows_args hsite
  refine Tries.bind (((argTypes_tries site).and argTypes_namesNone).mono (fun _ _ _ _ h => h.1)
    fun _ _ _ _ h => ⟨h.1.refuses _, h.2.justified _⟩) fun args st' _ _ h => ?_
  obtain ⟨rfl, rfl, -⟩ := h
  cases recv with
  | none =>
    exact (resolveUnqualified_tries henv hsite name hargs (readsThis_receiverType _)).mono
      (fun _ _ _ _ h => h) fun _ _ _ _ h => h
  | some recv =>
    exact (resolveQualified_tries henv hsite name (hrecv recv rfl) hargs).mono
      (fun _ _ _ _ h => ⟨h.1, h.2.1, h.2.2.2.imp fun _ htypes => ⟨_, _, true, htypes, .receiver recv, h.2.2.1⟩⟩) fun _ _ _ _ h => h

end CallResolution.Session
