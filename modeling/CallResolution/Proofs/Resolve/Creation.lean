import CallResolution.Proofs.Resolve.Enclosing
import CallResolution.Proofs.Resolve.Lasting

/-!
# What constructor calls are bound to

A constructor call that is bound has a constructor that accepts the arguments in the recorded
phase, or the constructor of the anonymous class that was made for it. An anonymous class is
new, so its body is open and takes every capture: making one fails only for a local variable
that is not in view, and by then the choice of the superclass constructor may have been
reported. The class stays in that case; every other failure changes nothing that lasts, as
`Remains` says.

What the anonymous class passes to the constructor of its superclass is said in three parts,
which `MakesClass` collects. `PassesOn` is about the arguments of the creation: the parameters
of the two constructors line up, so what the choice of the superclass constructor accepted is
accepted of what is passed on. `PassesInstance` is about the enclosing instance in front of
them, and `PassesCaptures` about what comes behind them for a local superclass. Each is proved
where the step is made that brings it about and told of the last session afterwards, since no
step in between takes back what it speaks of.

Main statements: `resolveAnonymous_tries` makes the anonymous class; `resolveNew_tries`,
`resolveThis_tries` and `resolveSuper_tries` say what each kind of constructor call is bound
to, or what refusing it leaves.
-/

namespace CallResolution.Session

open Universe

variable {st : Session} {env : Env} {site : Site} {args : List TypeId}

/-! ## Choosing a constructor

Constructors are not searched in supertypes, so the choice is a selection among those of one
class. What is bound is the chosen constructor itself: constructors have no conflicts.
-/

/-- The codes that are reported about the choice of a constructor: that it is ambiguous, and
that a generated constructor is called. -/
def ctorCodes (env : Env) (cls : TypeId) (args : List TypeId) (isExplicit : Bool) : SessionM (List Code) := do
  match ← selectCtor env cls args isExplicit with
  | none => return []
  | some sel => return ambiguity .ambiguousConstructor sel ++ directCode ((← getUniverse).method sel.first)

/-- Whether a call of a callable is reported as direct is judged by what never changes of it.
-/
theorem directCode_later {m m' : Method} (h : m.Later m') : directCode m' = directCode m := by
  unfold directCode Method.isConstructor
  rw [h.flags, h.kind]

/-- The chosen constructor accepts the arguments; when there is none the call fails early. -/
theorem chooseCtor_tries {id : SiteId} (henv : KnowsEnv st.world.types env) (cls : TypeId)
    (hargs : ∀ t ∈ args, st.world.types.Knows t) (isExplicit : Bool) :
    Tries (resolving id) (chooseCtor env site cls args isExplicit) st
      (fun p st' => st'.world.Accepts [] args p.2.phase p.2.wrapped p.1 ∧
        Reports (ctorCodes env cls args isExplicit st).1 st st' ∧ p.1 ∈ st.world.constructors cls)
      (Fails false st) := by
  unfold chooseCtor
  refine Tries.lift (works_of_quietly (selectCtor_works henv cls isExplicit).self) fun sel st₁ hst₁ hl₁ h₁ => ?_
  obtain ⟨⟨⟨-, hdecides⟩, heq⟩, hquiet⟩ := h₁
  cases sel with
  | none =>
    refine Tries.lift (ctorNotFound_works _) fun code st₂ _ _ h₂ => ?_
    exact h₂.2 ▸ failReported_tries site .notFound (h₂.1.after hquiet)
  | some sel =>
    obtain ⟨hmem, hacc⟩ := hdecides.accepts
    have hargs₁ : ∀ t ∈ args, st₁.world.types.Knows t := fun t ht => hl₁.2.world.types.knows (hargs t ht)
    have hcodes : (ctorCodes env cls args isExplicit st).1
        = ambiguity .ambiguousConstructor sel ++ directCode (st₁.world.method sel.first) := by
      unfold ctorCodes
      simp only [bind, StateT.bind, heq]
      rfl
    refine Tries.lift (pick_works site sel (by decide)) fun m st₂ _ hl₂ h₂ => ?_
    obtain ⟨rfl, hreports⟩ := h₂
    refine Tries.lift (checkCallable_works _) fun _ st₃ _ hl₃ h₃ => Tries.ret ?_
    rw [hcodes, ← directCode_later (hl₂.2.world.later hacc.resolved)]
    exact ⟨(hl₂.2.world.trans hl₃.2.world).accepts hst₁.world (by simp) hargs₁ hacc, (hreports.trans h₃).after hquiet,
      (List.mem_filter.mp hmem).1⟩

/-- What is supplied is so from an earlier state on, when only superclass constructor calls
started to wait in between. -/
theorem Supplied.after {id : SiteId} {r : Resolution} {st' st'' : Session} (h : OnlySuperWaits st st')
    (h' : Supplied id r st' st'') : Supplied id r st st'' where
  resolved := h'.resolved
  deferred := h'.deferred
  waiting p hp w hw := by
    rcases h'.waiting p hp w hw with ⟨p', hp', hkey, hw'⟩ | hnew
    · rcases h p' hp' w hw' with ⟨q, hq, hqkey, hqw⟩ | hsuper
      · exact .inl ⟨q, hq, hqkey.trans hkey, hqw⟩
      · exact .inr (.inl hsuper)
    · exact .inr hnew
  lowers := h'.lowers

/-- A call that is resolved without waiting is supplied when it passes what it has to. -/
theorem Supplied.of_passes {id : SiteId} {r : Resolution} (hstate : r.state = .resolved) (h : Passes st.world r)
    (lowers : Lowers st.world r) : Supplied id r st st :=
  ⟨fun _ => h, fun hd => absurd (hstate.symm.trans hd) (by decide), fun p hp _ hw => .inl ⟨p, hp, rfl, hw⟩, lowers⟩

/-- A constructor call is bound to the chosen constructor of the class. -/
theorem resolveCtor_tries (henv : KnowsEnv st.world.types env) (hsite : KnowsArgs st.world.types site) {cls type : TypeId}
    (hcls : st.world.types.Knows cls) (caller : TypeId) (htype : st.world.types.Knows type)
    (hargs : ∀ t ∈ args, st.world.types.Knows t) (isExplicit : Bool) (typeOf : Expr → TypeId) :
    Tries (resolving site.id) (resolveCtor env site cls caller type args isExplicit) st
      (fun r st' => Bound env false [] args r st'.world ∧ (st.world.SoundBodies → Supplied site.id r st st') ∧
        HandsOn st'.world typeOf .constructor site.args r ∧ r.callable ∈ st'.world.constructors cls)
      (Fails false st) := by
  unfold resolveCtor
  refine Tries.of_sound fun hst => Tries.bind (chooseCtor_tries henv cls hargs isExplicit) fun p st₁ hst₁ hl₁ h₁ => ?_
  obtain ⟨m, sel⟩ := p
  obtain ⟨hacc, hreports, hmem⟩ := h₁
  refine Tries.lift (works_of_quietly (onUniverse_works (forwardCtor_works caller site.args typeOf)))
    fun lowered st₂ hst₂ hl₂ h₂ => ?_
  have hg₂ := hl₁.2.world.types.toGrows.trans hl₂.2.world.types.toGrows
  refine Tries.lift (callThrows_works [] m (hsite.grows hg₂) fun t ht => hg₂.knows (hargs t ht))
    fun throws st₃ hst₃ hl₃ h₃ => tries_getTypes ?_
  have hk₃ := hl₂.2.world.trans hl₃.2.world
  have hargs₁ : ∀ t ∈ args, st₁.world.types.Knows t := fun t ht => hl₁.2.world.types.knows (hargs t ht)
  have hacc₃ := hk₃.accepts hst₁.world (by simp) hargs₁ hacc
  have hg₃ := hg₂.trans hl₃.2.world.types.toGrows
  have hmoves₃ : Moves isAnonymous st.world st₃.world := hl₁.2.moves.trans (hl₂.2.moves.trans hl₃.2.moves)
  have hstands : ∀ call ∈ lowered, st₃.world.StandsIn typeOf .constructor site.args m call := fun call hcall =>
    (h₂.1.1 call hcall).moves hst₂.world hl₃.2.world hl₃.2.moves (hl₂.2.world.isResolved hacc.resolved)
  have hwaits₃ : OnlySuperWaits st st₃ := OnlySuperWaits.trans hreports.waiting (h₂.2.onlySuperWaits.trans h₃)
  have hconstructs (hs : st.world.SoundBodies) : st₃.world.Constructs (st₃.world.types.classOf cls) m := by
    rw [hmoves₃.types_extends.classOf hcls]
    exact (hmoves₃.sameKinds hs).constructs hst.world hmoves₃.types_extends (hs.constructs hmem)
  have hlocal : st₃.world.types.isLocalClass (st₃.world.types.classOf cls) = st₃.world.types.isLocalClass cls := by
    rw [TypeStore.isLocalClass, hst₃.world.types.classInfo?_classOf, TypeStore.isLocalClass]
  split
  · rename_i hlocal₃
    refine (Tries.lifted (attachLocalArgs_works (henv.grows hg₃)
      (hst₃.world.types.knows_classOf (hg₃.knows hcls)) _)).mono (fun r st₄ _ hl₄ h₄ => ?_) fun _ _ _ _ h => h
    obtain ⟨⟨state, localArgs, rfl, hstate⟩, hsupplied⟩ := h₄
    have hargs₃ : ∀ t ∈ args, st₃.world.types.Knows t := fun t ht => hg₃.knows (hargs t ht)
    have hacc₄ := hl₄.2.world.accepts hst₃.world (by simp) hargs₃ hacc₃
    refine ⟨⟨hstate, hl₄.2.world.types.knows (hg₃.knows htype), hacc₄.resolved, fun _ => ⟨m, hacc₄, .inl rfl⟩⟩, fun hs => ?_,
      fun call hcall => .inl ⟨rfl, (hstands call hcall).moves hst₃.world hl₄.2.world hl₄.2.moves hacc₃.resolved⟩,
      Moves.mem_constructors (hmoves₃.trans hl₄.2.moves) hcls hmem⟩
    exact (hsupplied (hmoves₃.soundBodies hs) (hconstructs hs) (hlocal.trans hlocal₃) rfl
      ⟨fun call hcall => .inl (hstands call hcall).forwards, by simp⟩).after hwaits₃
  · rename_i hforeign
    refine Tries.ret ⟨⟨.inl rfl, hg₃.knows htype, hacc₃.resolved, fun _ => ⟨m, hacc₃, .inl rfl⟩⟩, fun hs => ?_,
      fun call hcall => .inl ⟨rfl, hstands call hcall⟩, hmoves₃.mem_constructors hcls hmem⟩
    obtain ⟨hdone, hnone⟩ := (hmoves₃.soundBodies hs).foreign_class hst₃.world.types (hlocal.trans (by simpa using hforeign))
    exact (Supplied.of_passes rfl (.captured (hconstructs hs) hdone (hnone ▸ .nil))
      ⟨fun call hcall => .inl (hstands call hcall).forwards, by simp⟩).after hwaits₃

/-! ## Anonymous classes

The class is registered in the middle of the creation, after the superclass constructor was
chosen and its parameters were turned into those of the new class. What is known before that
moment is carried over by `registerAnonymous_quiet`, and what holds of the new class is said
by `OpenAnonymous` until the body is read.
-/

/-- A class without a number in a universe has no members there, and one that is local starts
open. -/
theorem isComplete_of_unknown {u : Universe} (hu : u.WellFormed) {types : TypeStore} {t : TypeId} (ht : ¬ u.types.Knows t)
    (hcls : types.classOf t = t) {info : ClassInfo} (hinfo : types.classInfo? t = some info) (hlocal : info.flags.isLocal) :
    Universe.isComplete { u with types } t = false := by
  have hnone : u.members.lookup t = none := by
    cases h : u.members.lookup t with
    | none => rfl
    | some c => exact absurd (hu.keys _ (TypeStore.mem_of_lookup h)) ht
  unfold Universe.isComplete membersOf freshMembers
  simp [hcls, hnone, hinfo, hlocal]

/-- The parameters of a constructor that passes arguments on are those of its target, or types
that are not bad. -/
theorem forwardingParams_works {g : Guard} {s : TypeStore} (m : Method) (wrapped : Bool)
    (hargs : ∀ t ∈ args, s.Genuine t) :
    Works (TypeStore.growth g) (forwardingParams m wrapped args) s fun ts s' => ∀ t ∈ ts, t ∈ m.params ∨ s'.Genuine t := by
  unfold forwardingParams
  refine TypeStore.component_works.bind fun element s₁ _ hl₁ h₁ => Works.read (Works.ret fun t ht => ?_)
  rcases List.mem_append.mp ht with ht | ht
  · exact .inl (List.mem_of_mem_take ht)
  · obtain ⟨a, ha, rfl⟩ := List.mem_map.mp ht
    refine .inr ?_
    split
    · exact h₁
    · exact (TypeStore.growth_grows hl₁).genuine (hargs a (List.mem_of_mem_drop ha))

/-- The parameters of the constructor of an anonymous class are those that pass arguments on,
behind the class around the superclass. -/
theorem planCtor_params {s : TypeStore} (span : Source.Span) {super : TypeId} (outer : Option Expr) {params : List TypeId}
    {P : TypeId → Prop} (hparams : ∀ t ∈ params, P t) (houter : ∀ info, s.classInfo? super = some info → P info.outer) :
    ∀ t ∈ (planCtor s env site span super outer params).params, P t := by
  unfold planCtor
  dsimp only
  split
  · exact hparams
  · rename_i cls hcls
    intro t ht
    rcases List.mem_cons.mp ht with rfl | ht
    · obtain ⟨info, hinfo, rfl⟩ := exists_of_outerOfSuper hcls
      exact houter info hinfo
    · exact hparams t ht

/-- Expressions that read the copies which a class has of captured variables, one for each and
in the same order. The class may have further copies for what its own body captures. -/
def ReadsCopies (u : Universe) (site : Site) (cls : TypeId) (cs : List Capture) (es : List Expr) : Prop :=
  List.Forall₂ (fun c e => ∃ made ∈ u.captures cls, made.name = c.name ∧ e = captureRead site c.name c.type made.field [cls]) cs es

/-- A class keeps the copies that it has. -/
theorem ReadsCopies.moves {mayFinish : Universe → TypeId → Prop} {u u' : Universe} {cls : TypeId} {cs : List Capture} {es : List Expr}
    (h : ReadsCopies u site cls cs es) (hmoves : Moves mayFinish u u') (hcls : u.types.Knows cls) : ReadsCopies u' site cls cs es :=
  h.imp fun _ _ ⟨made, hmade, hread⟩ => ⟨made, hmoves.mem_captures hcls hmade, hread⟩

/-- An open anonymous class captures what its superclass does, and reads its own copies. -/
theorem forwardCaptures_works {u : Universe} {anon : TypeId} (hanon : u.types.Knows anon) (hopen : u.isComplete anon = false)
    (cs : List Capture) :
    Works binding (forwardCaptures site anon cs) u fun es u' => ReadsCopies u' site anon cs es := by
  induction cs generalizing u with
  | nil => exact Works.ret .nil
  | cons c cs ih =>
    unfold forwardCaptures
    refine (addCapture_works hanon c.name c.type).bind fun made u₁ _ hl₁ h₁ => ?_
    obtain ⟨made, rfl⟩ := Option.isSome_iff_exists.mp (h₁.1 hopen)
    obtain ⟨hmade, hname⟩ := h₁.2 made rfl
    have hknown := hl₁.2.types.knows hanon
    refine (ih hknown ((hl₁.2.complete anon hanon).trans hopen)).bind fun es u₂ _ hl₂ h₂ => Works.ret (.cons ?_ h₂)
    exact ⟨made, hl₂.2.moves.mem_captures hknown hmade, hname, rfl⟩

/-- What a creation passes for the captures of a local superclass: reads of the copies that
the anonymous class makes, when the superclass is finished. When it is open nothing is passed
yet, and the superclass constructor call starts to wait with the scopes of the creation, in
which the anonymous class is none. -/
structure PassesCaptures (env : Env) (site : Site) (anon super : TypeId) (u : Universe) (es : List Expr) (st' : Session) :
    Prop where
  /-- The superclass is finished. -/
  finished : u.types.isLocalClass super → u.isComplete super → ReadsCopies st'.world site anon (u.captures super) es
  /-- The superclass is open. -/
  waits : u.types.isLocalClass super → st'.world.isComplete super = false →
    es = [] ∧ { site := site.id, env, isSuper := true } ∈ (st'.waiting.lookup (u.types.classOf super)).getD []

/-- What is passed for captures may be told from the state before the call and from that
behind it. -/
theorem PassesCaptures.between {mayFinish mayFinish' : Universe → TypeId → Prop} {anon super : TypeId} {u u' : Universe}
    {es : List Expr} {st' st'' : Session} (h : PassesCaptures env site anon super u' es st') (hu : u.WellFormed)
    (hbefore : Moves mayFinish u u') (hafter : Moves mayFinish' st'.world st''.world) (hwaiting : st''.waiting = st'.waiting)
    (hsuper : u.types.Knows super) (hsuper' : st'.world.types.Knows super) (hanon : st'.world.types.Knows anon) :
    PassesCaptures env site anon super u es st'' := by
  have hlocal := isLocalClass_extends hu.types hbefore.types_extends hsuper
  refine ⟨fun hl hdone => ?_, fun hl hopen => ?_⟩
  · obtain ⟨hdone', hsame⟩ := hbefore.finished hsuper hdone
    rw [← hsame]
    exact (h.finished (hlocal.trans hl) hdone').moves hafter hanon
  · rw [hwaiting, ← hbefore.types_extends.classOf hsuper]
    refine h.waits (hlocal.trans hl) (Bool.eq_false_iff.mpr fun hdone => ?_)
    rw [(hafter.finished hsuper' hdone).1] at hopen
    cases hopen

/-- The captures of a local superclass are passed on, or the superclass constructor call
starts to wait. -/
theorem forwardSuperCaptures_works (henv : KnowsEnv st.world.types env) {anon super : TypeId}
    (hanon : st.world.types.Knows anon) (hopen : st.world.isComplete anon = false) (hsuper : st.world.types.Knows super) :
    Works (resolving site.id) (forwardSuperCaptures env site anon super) st fun es st' =>
      Reports [] st st' ∧ st.world.Extends st'.world ∧ PassesCaptures env site anon super st.world es st' := by
  refine Works.of_sound fun hst => works_getUniverse ?_
  have hmembers : st.world.membersOf (st.world.types.classOf super) = st.world.membersOf super :=
    membersOf_congr (hst.world.types.classOf_classOf super)
  have hcomplete : st.world.isComplete (st.world.types.classOf super) = st.world.isComplete super :=
    congrArg ClassMembers.complete hmembers
  have hcaptures : st.world.captures (st.world.types.classOf super) = st.world.captures super :=
    congrArg ClassMembers.captures hmembers
  dsimp only
  rw [hcomplete, hcaptures]
  split
  · rename_i hforeign
    have hnot : st.world.types.isLocalClass super ≠ true := by simpa using hforeign
    exact Works.ret ⟨(Quiet.refl st).reports, .refl _, fun h => absurd h hnot, fun h => absurd h hnot⟩
  · split
    · rename_i hdone
      refine (works_of_quietly (onUniverse_works (forwardCaptures_works hanon hopen _))).mono
        fun _ st₁ _ _ h => ⟨h.2.reports, h.2.world, fun _ _ => h.1.1, fun _ hopen₁ => ?_⟩
      rw [h.2.world.complete super hsuper, hdone] at hopen₁
      cases hopen₁
    · rename_i hdone
      refine (wait_works (w := { site := site.id, env, isSuper := true }) (hst.world.types.knows_classOf hsuper)
        (by simpa [hcomplete] using hdone) rfl henv).bind fun _ st₁ _ _ h =>
          Works.ret ⟨⟨⟨[], by simp [h.1], rfl⟩, fun p hp v hv => ?_⟩, h.1 ▸ .refl _, fun _ h => absurd h hdone, fun _ _ => ?_⟩
      · refine (h.2.2 p hp v hv).imp_right ?_
        rintro ⟨rfl, -⟩
        rfl
      · exact ⟨rfl, h.2.1⟩

/-- An open anonymous class captures the variables of its body, or there is one that is not in
view. -/
theorem captureBody_tries {id : SiteId} {anon : TypeId} (hanon : st.world.types.Knows anon)
    (hopen : st.world.isComplete anon = false) (names : List String) :
    Tries (resolving id) (captureBody env site anon names) st (fun _ st' => Quiet st st')
      fun f st' => Fails true st f st' ∧ f.code = some .unknownLocal ∧ names ≠ [] := by
  induction names generalizing st with
  | nil => exact Tries.ret (.refl st)
  | cons name names ih =>
    unfold captureBody
    refine tries_getUniverse ?_
    split
    · exact Tries.lift (reportError_works (by decide) site _) fun _ _ _ _ h => Tries.throw ⟨⟨h, rfl⟩, rfl, by simp⟩
    · rename_i t _
      refine Tries.lift (works_of_quietly (onUniverse_works (addCapture_works hanon name t))) fun made st₁ _ hl₁ h₁ => ?_
      obtain ⟨⟨⟨hmade, -⟩, -⟩, hquiet⟩ := h₁
      obtain ⟨c, rfl⟩ := Option.isSome_iff_exists.mp (hmade hopen)
      have hopen₁ : st₁.world.isComplete anon = false := by
        rw [hquiet.world.complete anon hanon, hopen]
      exact (ih (hl₁.2.world.types.knows hanon) hopen₁).mono (fun _ _ _ _ h => hquiet.trans h) fun _ _ _ _ h => ⟨h.1.after hquiet, h.2.1, by simp⟩

/-- A missing enclosing instance is refused early, or nothing happens. -/
theorem checkEnclosing_tries {id : SiteId} (cls : TypeId) (outer : Option Expr) :
    Tries (resolving id) (checkEnclosing env site cls outer) st
      (fun _ st' => st' = st ∧
        (outer = none → ∀ t ∈ outerOfSuper? st.world.types cls, enclosingInstance st.world.types t env.frames))
      (Fails false st) := by
  refine tries_getUniverse ?_
  unfold outerOfSuper?
  split
  · rename_i hnone
    exact Tries.ret ⟨rfl, fun _ t ht => by simp [hnone] at ht⟩
  · rename_i info hinfo
    split
    · exact reject_tries site .rejected (by decide) _
    · rename_i hchecked
      refine Tries.ret ⟨rfl, fun hnone t ht => ?_⟩
      subst hnone
      rw [hinfo] at ht
      obtain ⟨hinner, ht⟩ := Option.ite_none_right_eq_some.mp ht
      obtain rfl := Option.some.inj ht
      simpa [hinner] using hchecked

/-- An anonymous class may inherit from its parents. -/
theorem inheritable_anonymousParents {s : TypeStore} (hs : s.WellFormed) {cls : TypeId} (hcls : s.Inheritable cls) :
    s.Inheritable (anonymousParents s cls).1 ∧ ∀ t ∈ (anonymousParents s cls).2, s.Inheritable t := by
  unfold anonymousParents
  split
  · exact ⟨hs.inheritable_object, by simpa using hcls⟩
  · exact ⟨hcls, by simp⟩

/-- An anonymous class inherits from a class, or from the root class and an interface. -/
theorem fitsKind_anonymousParents {s : TypeStore} {cls : TypeId} (hcls : s.Inheritable cls) {info : ClassInfo}
    (hsuper : info.super = (anonymousParents s cls).1) (hinterfaces : info.interfaces = (anonymousParents s cls).2)
    (hkind : info.flags.isInterface = false) : s.FitsKind info := by
  refine ⟨fun t ht => ?_, by simp [hkind]⟩
  rw [hinterfaces] at ht
  unfold anonymousParents at ht
  split at ht
  · rename_i hinterface
    obtain rfl := List.mem_singleton.mp ht
    unfold TypeStore.isInterface at hinterface
    split at hinterface
    · rename_i hvariable
      exact absurd (by rw [hvariable]; rfl) hcls.2.1
    · rename_i hvariable
      exact absurd (by rw [hvariable]; rfl) hcls.2.1
    · exact hinterface
  · exact absurd ht (by simp)

/-- An anonymous class whose body is open. It holds from the registration of the class to the
end of its body, and is what lets every capture be added to it. -/
structure OpenAnonymous (u : Universe) (anon : TypeId) : Prop where
  /-- The class is known. -/
  known : u.types.Knows anon
  /-- It has a number. -/
  ne_none : anon ≠ .none
  /-- It is no parameterized type. -/
  own : u.types.classOf anon = anon
  /-- It is declared as a local class without a name. -/
  info : ∃ info, u.types.classInfo? anon = some info ∧ info.flags.isLocal ∧ info.flags.isAnonymous
  /-- Its body is open. -/
  isOpen : u.isComplete anon = false

namespace OpenAnonymous

variable {u u' : Universe} {anon : TypeId}

/-- The class stays open while no body is finished. -/
theorem later (h : OpenAnonymous u anon) (hu : u.types.WellFormed) (he : u.Extends u') : OpenAnonymous u' anon where
  known := he.types.knows h.known
  ne_none := h.ne_none
  own := (he.types.classOf h.known).trans h.own
  info := he.types.classInfo hu h.known ▸ h.info
  isOpen := (he.complete anon h.known).trans h.isOpen

/-- The class is anonymous. -/
theorem isAnonymous (h : OpenAnonymous u anon) : u.isAnonymous anon :=
  h.info.imp fun _ h => ⟨h.1, h.2.2⟩

/-- Its body starts open, as that of every local class does. -/
theorem complete_eq_fresh (h : OpenAnonymous u anon) :
    u.isComplete anon = (u.freshMembers (u.types.classOf anon)).complete := by
  obtain ⟨info, hinfo, hlocal, -⟩ := h.info
  rw [h.isOpen, freshMembers_complete]
  simp [TypeStore.isLocalClass, h.own, hinfo, hlocal]

end OpenAnonymous

/-- A new anonymous class has a number of its own and the superclass that it is declared with,
and its body is open. -/
theorem registerAnonymous_quiet {outer : TypeId} (houter : (st.world.types.shape outer).isDeclared) {info : ClassInfo}
    (hinfo : st.world.types.KnowsClass info) (hfits : st.world.types.FitsKind info) (hlocal : info.flags.isLocal) :
    Works quietly (onTypes (TypeStore.registerAnonymous outer info)) st fun anon st' => OpenAnonymous st'.world anon ∧
      ¬ st.world.types.Knows anon ∧ ∃ made, st'.world.types.classInfo? anon = some made ∧ made.super = info.super := by
  refine Works.of_sound fun hst => ?_
  refine (onTypes_works fun _ => TypeStore.registerAnonymous_works trivial houter hinfo hfits).mono fun anon st' _ _ h => ?_
  obtain ⟨⟨hanon, hknows, hcls, hinfo'⟩, heq⟩ := h
  have hnew : ¬ st.world.types.Knows anon := by
    rw [hanon]
    exact Nat.lt_irrefl _
  refine ⟨⟨hknows, ?_, hcls, ⟨_, hinfo', hlocal, rfl⟩, ?_⟩, hnew, _, hinfo', rfl⟩
  · rintro rfl
    exact hnew hst.world.types.knows_none
  · rw [heq]
    exact isComplete_of_unknown hst.world hnew hcls hinfo' hlocal

/-- What is made of a creation with the body of an anonymous class. Its three parts are
independent of each other, and each is told of the session in which the call ends. -/
structure MakesClass (env : Env) (site : Site) (super : TypeId) (outer : Option Expr) (args : List TypeId) (st : Session)
    (r : Resolution) (st' : Session) : Prop where
  /-- The class passes the arguments on. -/
  passesOn : st.world.Genuine → ∃ made target passed, PassesOn st'.world args r made target passed
  /-- It gets an enclosing instance when its superclass is inner. -/
  instances : ∀ t ∈ outerOfSuper? st.world.types super, ∃ e,
    PassesInstance st.world.types env site t outer e ∧ r.lowered = some ⟨r.callable, e :: site.args⟩
  /-- It passes the captures of its superclass behind the arguments. -/
  captures : ∃ call front reads, r.superInvocation = some call ∧ call.args = front ++ reads ∧
    PassesCaptures env site r.anonymous super st.world reads st'

/-- What a failed call leaves, with the body that it may have: all that lasts is as it was, or
a variable that the body captures is not in view. That is found out after the anonymous class
was made, which stays. -/
def Remains (body : Option AnonymousBody) (st : Session) (f : Failure) (st' : Session) : Prop :=
  st'.lasting = st.lasting ∨ f.code = some .unknownLocal ∧ (∃ b ∈ body, b.captures ≠ []) ∧
    ∃ anon, ¬ st.world.types.Knows anon ∧ st'.world.isAnonymous anon

/-- What is left depends on universes and on the calls that wait. -/
theorem Remains.congr {body : Option AnonymousBody} {f : Failure} {st₁ st₂ st₃ : Session} (h : Remains body st₁ f st₂)
    (hworld : st₁.world = st.world) (hwaiting : st₁.waiting = st.waiting) (hworld' : st₃.world = st₂.world)
    (hwaiting' : st₃.waiting = st₂.waiting) : Remains body st f st₃ := by
  have hlasting : st.lasting = st₁.lasting := by rw [lasting, lasting, hworld, hwaiting]
  have hlasting' : st₃.lasting = st₂.lasting := by rw [lasting, lasting, hworld', hwaiting']
  unfold Remains
  rw [hlasting, hlasting', ← hworld, hworld']
  exact h

/-- A failure under an early code that changed nothing that lasts. -/
theorem Fails.refuses_clean {st' : Session} {f : Failure} {body : Option AnonymousBody}
    (h : Fails false st f st' ∧ st'.lasting = st.lasting) (earlier : List Code) :
    Refuses earlier st f st' ∧ Remains body st f st' :=
  ⟨h.1.refuses earlier, .inl h.2⟩

/-- A creation that is rejected under an early code changes nothing that lasts. -/
theorem reject_refuses {id : SiteId} {α : Type} {body : Option AnonymousBody} (site : Site) (kind : FailureKind) {code : Code} (hcode : code ≠ .unresolvedSignature)
    (early : code.isLate = false) (msg : String) (earlier : List Code) {P : α → Session → Prop} :
    Tries (resolving id) (reject site kind code msg : ResolveM α) st P fun f st' => Refuses earlier st f st' ∧ Remains body st f st' :=
  ((reject_tries site kind hcode msg).leaving (reject_lasts _ _ _ _)).mono (fun _ _ _ _ h => h.1)
    fun _ _ _ _ h => Fails.refuses_clean (early ▸ h) earlier

/-- The parameters of the planned constructor are known, and none of them is bad as long as no
callable has a bad one. -/
theorem planCtor_genuine {u : Universe} (hu : u.WellFormed) {target : MethodId} {params : List TypeId}
    (hparams : ∀ t ∈ params, t ∈ (u.method target).params ∨ u.types.Genuine t) (env : Env) (site : Site) (span : Source.Span)
    (super : TypeId) (outer : Option Expr) :
    (∀ t ∈ (planCtor u.types env site span super outer params).params, u.types.Knows t) ∧
      (u.Genuine → ∀ t ∈ (planCtor u.types env site span super outer params).params, u.types.Genuine t) := by
  refine ⟨planCtor_params _ outer (fun t ht => ?_) fun info hinfo => (hu.types.knows_classInfo hinfo).outer,
    fun hgenuine => planCtor_params _ outer (fun t ht => ?_) fun info hinfo => hgenuine.outer hinfo⟩
  · exact (hparams t ht).elim ((hu.method target).params t) (·.1)
  · exact (hparams t ht).elim (hgenuine.method target t) id

/-- What was made of a creation when its anonymous class has been registered and the
constructor of that been declared, but nothing captured yet. -/
structure DeclaresAnonymous (superCtor : MethodId) (st : Session) (anon : TypeId) (params : List TypeId) (ctor : MethodId)
    (call : LoweredCall) (st' : Session) : Prop where
  /-- The class is new. -/
  isNew : ¬ st.world.types.Knows anon
  /-- Its body is open. -/
  isOpen : OpenAnonymous st'.world anon
  /-- Its constructor calls that of the superclass. -/
  declares : ∃ made, DeclaresCtor st'.world made anon ctor superCtor params call

/-- Registering an anonymous class and declaring its constructor, before what is done with
them. The class and the constructor are made of what the call has found so far, and none of it
can fail. -/
theorem anonymous_then {α : Type} {P : α → Session → Prop} {E : Failure → Session → Prop} (info : ClassInfo)
    {superCtor : MethodId} {ph : Phase} {wrapped : Bool}
    (hthis : (st.world.types.shape env.this).isDeclared) (hinfo : st.world.types.KnowsClass info)
    (hfits : st.world.types.FitsKind info) (hlocal : info.flags.isLocal) (hargs : ∀ t ∈ args, st.world.types.Genuine t)
    (hacc : st.world.Accepts [] args ph wrapped superCtor) (hchosen : superCtor ∈ st.world.constructors info.super)
    (outer : Option Expr) (typeOf : Expr → TypeId)
    {k : TypeId → List TypeId → TypeStore → MethodId → Option LoweredCall → ResolveM α}
    (hk : ∀ anon params s ctor forwarded st', st'.WellFormed → Quiet st st' → Moves Universe.isAnonymous st.world st'.world →
      st.world.types.Extends s → DeclaresAnonymous superCtor st anon params ctor
        (forwarded.getD ⟨superCtor, (planCtor s env site info.decl info.super outer params).forward⟩) st' →
      (st.world.Genuine → st'.world.AcceptsPassed args ph wrapped superCtor params) →
      Tries (resolving site.id) (k anon params s ctor forwarded) st' P E) :
    Tries (resolving site.id) (do
      let anon ← inTypes (TypeStore.registerAnonymous env.this info)
      let u ← getUniverse
      let params ← inTypes (forwardingParams (u.method superCtor) wrapped args)
      let s ← getTypes
      let ctor ← inUniverse <| Universe.addMethod
        { name := constructorName, owner := anon, kind := .constructor
          params := (planCtor s env site info.decl info.super outer params).params
          returns := .void, throws := (u.method superCtor).throws, decl := info.decl }
      let forwarded ← inUniverse
        (Universe.forwardCtor anon superCtor (planCtor s env site info.decl info.super outer params).forward)
      k anon params s ctor forwarded) st P E := by
  refine Tries.of_sound fun hst => ?_
  have hsuper : st.world.types.Knows info.super := hinfo.super.1
  refine Tries.lift (works_of_quietly (registerAnonymous_quiet hthis hinfo hfits hlocal)) fun anon st₂ hst₂ hl₂ h₂ =>
    tries_getUniverse ?_
  obtain ⟨⟨hanon, hnew, made, hmade, hmadeSuper⟩, hquiet₂⟩ := h₂
  have hg₂ := hquiet₂.world.types.toGrows
  -- the parameters of its constructor
  refine Tries.lift (works_of_quietly (onTypes_works fun _ => (forwardingParams_works (st₂.world.method superCtor) wrapped
    fun t ht => hg₂.genuine (hargs t ht)).self)) fun params st₃ hst₃ hl₃ h₃ => tries_getTypes ?_
  obtain ⟨⟨⟨hparams, hrun₃⟩, heq₃⟩, hquiet₃⟩ := h₃
  have hanon₃ := hanon.later hst₂.world.types hquiet₃.world
  have hsame : st₃.world.method superCtor = st₂.world.method superCtor := by
    rw [heq₃]
    rfl
  obtain ⟨hplanned, hgenuine⟩ := planCtor_genuine hst₃.world (hsame.symm ▸ hparams) env site info.decl info.super outer
  have hm : Method.Known st₃.world.types
      { name := constructorName, owner := anon, kind := .constructor,
        params := (planCtor st₃.world.types env site info.decl info.super outer params).params,
        returns := .void, throws := (st₂.world.method superCtor).throws, decl := info.decl } :=
    ⟨hanon₃.known, hplanned, hst₃.world.types.knows_predefined (t := .void) (by decide),
      fun t ht => hquiet₃.world.types.knows ((hst₂.world.method superCtor).throws t ht), by simp⟩
  -- the constructor
  refine Tries.lift (works_of_quietly (onUniverse_works (addConstructor_works (fun _ => hm) hgenuine (fun _ => hanon₃.complete_eq_fresh)
    ⟨rfl, rfl, rfl, .inr ⟨rfl, rfl⟩⟩ hanon₃.own rfl (by simp)).self)) fun ctor st₄ hst₄ hl₄ h₄ => ?_
  obtain ⟨⟨⟨⟨htypes₄, name, hctor⟩, hadd⟩, -⟩, hquiet₄⟩ := h₄
  have hmem₄ : ctor ∈ st₄.world.constructors anon := mem_constructors_of_addMethod hadd rfl
  have hresolved : (st₄.world.method ctor).isResolved := by
    rw [method_eq hctor]
    rfl
  -- the call of the superclass constructor
  refine Tries.lift (works_of_quietly (onUniverse_works (forwardCtor_works anon _ typeOf).self)) fun forwarded st₅ hst₅ hl₅ h₅ => ?_
  have hquiet₄' := hquiet₃.trans (hquiet₄.trans h₅.2)
  have hmoves₅ : Moves Universe.isAnonymous st₂.world st₅.world := hl₃.2.moves.trans (hl₄.2.moves.trans hl₅.2.moves)
  refine hk anon params st₃.world.types ctor forwarded st₅ hst₅ (hquiet₂.trans hquiet₄') (hl₂.2.moves.trans hmoves₅)
    (hquiet₂.world.types.trans hquiet₃.world.types) {
      isNew := hnew
      isOpen := hanon.later hst₂.world.types hquiet₄'.world
      declares := ⟨made, ?_⟩ } fun hgenuine => ?_
  · obtain ⟨hplanned, hforward⟩ := planCtor_eq st₃.world.types env site info.decl info.super outer params
    have houter : outerOfSuper? st₅.world.types made.super = outerOfSuper? st₃.world.types info.super := by
      rw [hmadeSuper]
      exact outerOfSuper_keeps hst₃.world.types (hquiet₄.trans h₅.2).world.types (hquiet₃.world.types.knows (hg₂.knows hsuper))
    exact {
      info := (hquiet₄'.world.types.classInfo hst₂.world.types hanon.known).trans hmade
      listed := hl₅.2.moves.mem_constructors (hquiet₄.world.types.knows hanon₃.known) hmem₄
      resolved := h₅.2.world.toKeeps.isResolved hresolved
      params := by
        rw [((h₅.2.world.toKeeps.later hresolved).resolved hresolved).2.1, method_eq hctor, houter]
        exact hplanned
      chosen := by
        rw [hmadeSuper]
        exact hmoves₅.mem_constructors (hg₂.knows hsuper) (hl₂.2.moves.mem_constructors hsuper hchosen)
      reaches := by
        cases forwarded with
        | none => exact .inl rfl
        | some call => exact .inr (h₅.1.1.1 call rfl).forwards
      passes := by
        rw [houter]
        cases forwarded with
        | none => exact ⟨info.decl, [], hforward.trans (List.append_nil _).symm⟩
        | some call =>
          obtain ⟨mark, hmark⟩ := prefix_of_forwardCtor (congrArg Prod.fst h₅.1.1.2)
          exact ⟨info.decl, mark, by rw [← hforward, hmark]; rfl⟩ }
  · have hpassed := (hquiet₂.world.accepts hst.world (by simp) (fun t ht => (hargs t ht).1) hacc).passedOn hst₂.world
      (hquiet₂.world.genuine hgenuine) fun t ht => hg₂.genuine (hargs t ht)
    rw [hrun₃] at hpassed
    exact hpassed.keeps hquiet₄'.world.toKeeps hst₂.world fun t ht => hg₂.knows (hargs t ht).1

/-- The creation of an anonymous class is bound to the constructor that is made for it. It
fails early before the class is made, and late for a variable of the body that is not in view.
-/
theorem resolveAnonymous_tries (henv : KnowsEnv st.world.types env) (hsite : KnowsArgs st.world.types site) {cls : TypeId}
    (hcls : st.world.types.Inheritable cls) (outer : Option Expr) (body : AnonymousBody)
    (hthis : (st.world.types.shape env.this).isDeclared) (hargs : ∀ t ∈ args, st.world.types.Genuine t) (typeOf : Expr → TypeId) :
    Tries (resolving site.id) (resolveAnonymous env site cls outer body args) st
      (fun r st' => Bound env false [] args r st'.world ∧ (st.world.SoundBodies → Supplied site.id r st st') ∧
        (outer = none → ∀ t ∈ outerOfSuper? st.world.types (anonymousParents st.world.types cls).1,
          enclosingInstance st.world.types t env.frames) ∧
        MakesClass env site (anonymousParents st.world.types cls).1 outer args st r st' ∧ HandsOn st'.world typeOf .constructor site.args r)
      (fun f st' => Refuses (ctorCodes env (anonymousParents st.world.types cls).1 args true st).1 st f st' ∧
        Remains (some body) st f st') := by
  refine Tries.of_sound fun hst => tries_getUniverse ?_
  obtain ⟨hheritable, hinterfaces⟩ := inheritable_anonymousParents hst.world.types hcls
  have hsuper := hheritable.1
  have hfits {s : TypeStore} (hs : st.world.types.Grows s) {info : ClassInfo}
      (hinfo : info.super = (anonymousParents st.world.types cls).1 ∧ info.interfaces = (anonymousParents st.world.types cls).2)
      (hkind : info.flags.isInterface = false) : s.FitsKind info := by
    have h := fitsKind_anonymousParents hcls hinfo.1 hinfo.2 hkind
    exact ⟨fun t ht => hs.isInterface (h.interfaces t ht), h.super⟩
  generalize anonymousParents st.world.types cls = parents at *
  obtain ⟨super, interfaces⟩ := parents
  dsimp only at *
  generalize (if body.span.isEmpty then site.span else body.span) = span
  split
  · exact Tries.stop (reject_refuses site .rejected (by decide) rfl _ _)
  refine Tries.bind (((checkEnclosing_tries super outer).leaving (checkEnclosing_lasts env site super outer)).mono
    (fun _ _ _ _ h => h.1) fun _ _ _ _ h => Fails.refuses_clean h _) fun _ st' _ _ h => ?_
  obtain ⟨rfl, hpicked⟩ := h
  have hknown : ∀ t ∈ args, st'.world.types.Knows t := fun t ht => (hargs t ht).1
  refine Tries.bind (((chooseCtor_tries henv super hknown true).leaving (chooseCtor_lasts env site super args true)).mono
    (fun _ _ _ _ h => h.1) fun _ _ _ _ h => Fails.refuses_clean h _) fun p st₁ hst₁ hl₁ h₁ => ?_
  obtain ⟨superCtor, sel⟩ := p
  obtain ⟨hacc, hreports, hsuperCtor⟩ := h₁
  have hg₁ := hl₁.2.world.types.toGrows
  -- the anonymous class and its constructor
  refine anonymous_then { name := "", package := "", flags := { isLocal := true }, super, interfaces, decl := span }
    (hg₁.isDeclared hthis)
    ⟨hst₁.world.types.knows_none, hg₁.inheritable hheritable, fun t ht => hg₁.inheritable (hinterfaces t ht), by simp, by simp⟩
    (hfits hg₁ ⟨rfl, rfl⟩ rfl) rfl (fun t ht => hg₁.genuine (hargs t ht)) hacc (hl₁.2.moves.mem_constructors hsuper hsuperCtor)
    outer typeOf fun anon params s ctor forwarded st₂ hst₂ hquiet₂ hmoves₂ hs hmade hpassed => tries_getTypes ?_
  obtain ⟨hnew, hanon, made, hdeclares⟩ := hmade
  have hg₂ := hg₁.trans hquiet₂.world.types.toGrows
  have hmoves₂' : Moves Universe.isAnonymous st'.world st₂.world := hl₁.2.moves.trans hmoves₂
  -- what it passes for the captures of its superclass
  refine Tries.lift (forwardSuperCaptures_works (henv.grows hg₂) hanon.known hanon.isOpen (hg₂.knows hsuper))
    fun extra st₃ hst₃ hl₃ h₃ => ?_
  have hanon₃ := hanon.later hst₂.world.types h₃.2.1
  -- its body
  refine Tries.bind ((captureBody_tries hanon₃.known hanon₃.isOpen body.captures).mono (fun _ _ _ _ h => h)
    fun f st₄ _ hl₄ h => ?_) fun _ st₄ _ hl₄ h₄ => ?_
  · have hbefore := hreports.trans (hquiet₂.reports.trans h₃.1)
    simp only [List.append_nil] at hbefore
    obtain ⟨info, hinfo, hmark⟩ := hanon₃.isAnonymous
    have hstays := (hl₄.2.moves.types_extends.classInfo hst₃.world.types hanon₃.known).trans hinfo
    exact ⟨Fails.refuses_late hbefore h.1,
      .inr ⟨h.2.1, ⟨body, rfl, h.2.2⟩, anon, fun hknows => hnew (hg₁.knows hknows), info, hstays, hmark⟩⟩
  have hanon₄ := hanon₃.later hst₃.world.types h₄.world
  refine Tries.lift (onUniverse_finishing (completeClass_works hanon₄.known hanon₄.isAnonymous))
    fun _ st₅ hst₅ hl₅ h₅ => ?_
  -- the arguments for its captures
  have hk₅ : st₂.world.Keeps st₅.world := (h₃.2.1.trans h₄.world).toKeeps.trans hl₅.2.world
  refine Tries.lift (captureArgs_works (henv.grows (hg₂.trans hk₅.types.toGrows)) anon) fun localArgs st₆ hst₆ hl₆ h₆ => ?_
  have hk₆ := hk₅.trans hl₆.2.world
  have hmoves₆ : Moves Universe.isAnonymous st₂.world st₆.world :=
    hl₃.2.moves.trans (hl₄.2.moves.trans (hl₅.2.moves.trans hl₆.2.moves))
  have hg₆ := hg₂.trans hk₆.types.toGrows
  refine Tries.lift (callThrows_works [] ctor (hsite.grows hg₆) fun t ht => hg₆.knows (hknown t ht)).self
    fun throws st₇ _ hl₇ h₇ => Tries.ret ?_
  obtain ⟨h₇, hrun₇⟩ := h₇
  have hk₇ := hk₆.trans hl₇.2.world
  have hmoves₇ : Moves Universe.isAnonymous st₂.world st₇.world := hmoves₆.trans hl₇.2.moves
  have hdeclares₇ := (hdeclares.moves hk₇ hmoves₇ hst₂.world).append extra
  refine ⟨⟨.inl rfl, hk₇.types.knows hanon.known, hdeclares₇.resolved, fun h => absurd h hanon.ne_none⟩, fun hs => ?_, hpicked,
    ⟨fun hgenuine => ⟨made, superCtor, params, hdeclares₇.passesOn ?_ rfl⟩, fun t ht => ?_, ?_⟩, fun call hcall => ?_⟩
  · -- the arguments for its captures
    have hs₆ := hmoves₆.soundBodies (hmoves₂'.soundBodies hs)
    obtain ⟨hfinished, hsame⟩ := hl₆.2.moves.finished (hk₅.types.knows hanon.known) h₅.1
    have hconstructs : st₆.world.Constructs anon ctor := by
      have h := hs₆.constructs (hmoves₆.mem_constructors hanon.known hdeclares.listed)
      rwa [hk₆.types.classOf hanon.known, hanon.own] at h
    have hwaits₃ : OnlySuperWaits st' st₃ :=
      OnlySuperWaits.trans hreports.waiting (hquiet₂.onlySuperWaits.trans h₃.1.waiting)
    have hwaits₆ : OnlySuperWaits st₃ st₆ := .of_same (h₆.1.trans ((congrArg Session.waiting h₅.2).trans h₄.waiting))
    refine Supplied.after (hwaits₃.trans (hwaits₆.trans h₇)) (.of_passes rfl ?_ ⟨fun call hcall => ?_, fun call hcall => ?_⟩)
    · exact Passes.moves hl₇.2.moves hst₆.world hs₆ (.captured hconstructs hfinished (hsame ▸ h₆.2))
    · obtain ⟨-, hcall⟩ := Option.ite_none_right_eq_some.mp hcall
      cases hcall
      exact .inr ⟨rfl, hdeclares₇.known, hdeclares₇.listed⟩
    · cases hcall
      exact ⟨made, superCtor, hdeclares₇.info, hdeclares₇.chosen, hdeclares₇.reaches⟩
  · -- what its constructor passes on
    exact (hpassed (hl₁.2.world.genuine hgenuine)).keeps hk₇ hst₂.world fun t ht => hg₂.knows (hknown t ht)
  · -- the enclosing instance that its creation passes
    have hextends₂ := hl₁.2.world.types.trans hquiet₂.world.types
    obtain ⟨e, he, hcreation⟩ := planCtor_creation hst.world.types (hl₁.2.world.types.trans hs) henv hsuper ht
      (fun hnone => hpicked hnone t ht) site span params
    refine ⟨e, he, ?_⟩
    rw [← hcreation]
    exact if_pos (by rw [(outerOfSuper_keeps hst.world.types hextends₂ hsuper).trans ht]; rfl)
  · -- what it passes for the captures of its superclass
    have hwaiting₇ : st₇.waiting = st₆.waiting := by
      have hleaves : Leaves Session.waiting (callThrows env site [] ctor args) := callThrows_waiting [] ctor
      have hkept := hleaves st₆
      rwa [hrun₇] at hkept
    have hwaiting : st₇.waiting = st₃.waiting :=
      hwaiting₇.trans (h₆.1.trans ((congrArg Session.waiting h₅.2).trans h₄.waiting))
    have hmoves₃ : Moves Universe.isAnonymous st₃.world st₇.world :=
      hl₄.2.moves.trans (hl₅.2.moves.trans (hl₆.2.moves.trans hl₇.2.moves))
    refine ⟨_, _, extra, rfl, rfl, h₃.2.2.between hst.world hmoves₂' hmoves₃ hwaiting hsuper ?_ hanon₃.known⟩
    exact h₃.2.1.types.knows (hg₂.knows hsuper)
  · -- what takes its place
    obtain ⟨-, hcall⟩ := Option.ite_none_right_eq_some.mp hcall
    cases hcall
    exact .inr ⟨rfl, hdeclares₇.listed⟩

/-! ## Creations and explicit constructor calls

The three functions that a constructor call is dispatched to. They look at their parts in
different orders, so the early failures of each are listed here, and what follows the choice
of the constructor is shared.
-/

/-- A bad enclosing instance fails the call silently, or nothing happens. -/
theorem checkOuter_tries {id : SiteId} (outer : Option Expr) :
    Tries (resolving id) (checkOuter site outer) st
      (fun _ st' => st' = st ∧ ∀ e ∈ outer, st.world.types.isBad (st.exprType e) = false) (Fails false st) := by
  refine Tries.read ?_
  split
  · exact failSilently_tries site .badReceiver
  · rename_i hgood
    refine Tries.ret ⟨rfl, fun e he => ?_⟩
    rw [Option.mem_def.mp he] at hgood
    simpa using hgood

/-- What is reported about the choice of a constructor before a creation may still be refused.
Without a body nothing is refused after the choice. -/
def creationCodes (env : Env) (cls : TypeId) (body : Option AnonymousBody) (args : List TypeId) : SessionM (List Code) := do
  let u ← getUniverse
  match body with
  | some _ => ctorCodes env (anonymousParents u.types cls).1 args true
  | none => return []

/-- The class that a creation makes an instance of, leaving out the anonymous class that is
made for a body: its superclass, which is the root class for an interface. -/
def constructedClass (s : TypeStore) (cls : TypeId) (body : Option AnonymousBody) : TypeId :=
  match body with
  | some _ => (anonymousParents s cls).1
  | none => cls

/-- What a creation needs and makes: an enclosing instance for an inner class, and an
anonymous class for a body. -/
structure Creates (env : Env) (site : Site) (cls : TypeId) (outer : Option Expr) (body : Option AnonymousBody) (st : Session)
    (r : Resolution) (st' : Session) : Prop where
  /-- It has an enclosing instance. -/
  hasInstance : HasInstance st (constructedClass st.world.types cls body) env.frames outer
  /-- A body makes an anonymous class. -/
  makes : body.isSome → MakesClass env site (constructedClass st.world.types cls body) outer (site.args.map st.exprType) st r st'

/-- What a creation needs and makes depends on universes, on the types of expressions and on
what waits. -/
theorem Creates.congr {cls : TypeId} {outer : Option Expr} {body : Option AnonymousBody} {r : Resolution} {st₁ st' st'' : Session}
    (h : Creates env site cls outer body st₁ r st') (hworld : st.world = st₁.world) (htypes : st.exprType = st₁.exprType)
    (hworld' : st''.world = st'.world) (hwaiting' : st''.waiting = st'.waiting) : Creates env site cls outer body st r st'' where
  hasInstance := by
    rw [hworld]
    exact h.hasInstance.congr hworld htypes
  makes hbody := by
    have hmakes := h.makes hbody
    rw [hworld, htypes]
    obtain ⟨call, front, reads, hcall, hargs, hpasses⟩ := hmakes.captures
    refine ⟨hworld ▸ hworld' ▸ hmakes.passesOn, hworld ▸ hmakes.instances, call, front, reads, hcall, hargs, ?_⟩
    rw [hworld]
    exact ⟨fun hl hdone => hworld' ▸ hpasses.finished hl hdone, fun hl hopen => hwaiting' ▸ hpasses.waits hl (hworld' ▸ hopen)⟩

/-- The class whose constructor a call is bound to, unless an anonymous class is made for it.
It is known before the call is looked at, since constructors are not searched for. -/
inductive Constructed (s : TypeStore) (env : Env) : Call → TypeId → Prop
  /-- A creation names a class. -/
  | new {cls : TypeId} {outer : Option Expr} {body : Option AnonymousBody} (found : (s.classInfo? cls).isSome) :
      Constructed s env (.new cls outer body) cls
  /-- A constructor may call another one of its class. -/
  | this : Constructed s env .this (s.classOf env.this)
  /-- It may call one of the superclass. -/
  | super {outer : Option Expr} {info : ClassInfo} (found : s.classInfo? (s.classOf env.this) = some info)
      (isSome : info.super.isSome) : Constructed s env (.super outer) info.super

/-- A creation is bound or refused. What a body adds is left to the creation of the anonymous
class. -/
theorem resolveNew_tries (henv : KnowsEnv st.world.types env) (hsite : KnowsArgs st.world.types site) {cls : TypeId}
    (hcls : st.world.types.Knows cls) (outer : Option Expr) (body : Option AnonymousBody)
    (hthis : (st.world.types.shape env.this).isDeclared) (typeOf : Expr → TypeId) :
    Tries (resolving site.id) (resolveNew env site cls outer body) st
      (fun r st' => Bound env false [] (site.args.map st.exprType) r st'.world ∧
        (st.world.SoundBodies → Supplied site.id r st st') ∧ Creates env site cls outer body st r st' ∧
          HandsOn st'.world typeOf .constructor site.args r ∧ (st.world.Genuine → r.anonymous = .none →
            (st.world.types.classInfo? cls).isSome ∧ r.callable ∈ st'.world.constructors cls))
      (fun f st' => Refuses (creationCodes env cls body (site.args.map st.exprType) st).1 st f st' ∧ Remains body st f st') := by
  refine Tries.of_sound fun hst => ?_
  have hargs := hst.knows_args hsite
  refine Tries.bind (((argTypes_tries site).leaving (argTypes_lasts site)).mono (fun _ _ _ _ h => h.1)
    fun _ _ _ _ h => Fails.refuses_clean h _) fun args st' _ _ h => ?_
  obtain ⟨rfl, rfl, hgood⟩ := h
  refine tries_getUniverse ?_
  dsimp only
  split
  · refine Tries.stop (((failSilently_tries site .badReceiver).leaving (failSilently_lasts _ _)).mono (fun _ _ _ _ h => h.1)
      fun _ _ _ _ h => Fails.refuses_clean h _)
  split
  · exact reject_refuses site .rejected (by decide) rfl _ _
  rename_i hinfo
  have hheritable := TypeStore.inheritable_of_classInfo (Option.isSome_of_eq_some hinfo)
  refine Tries.bind (((checkOuter_tries outer).leaving (checkOuter_lasts site outer)).mono (fun _ _ _ _ h => h.1)
    fun _ _ _ _ h => Fails.refuses_clean h _) fun _ st'' _ _ h => ?_
  obtain ⟨rfl, hgiven⟩ := h
  have hasInstance {cls : TypeId}
      (hpicked : outer = none → ∀ t ∈ outerOfSuper? st''.world.types cls, enclosingInstance st''.world.types t env.frames) :
      HasInstance st'' cls env.frames outer :=
    ⟨hgiven, fun hnone t ht => enclosingInstance_iff.mp (hpicked hnone t ht)⟩
  cases body with
  | some body =>
    refine (resolveAnonymous_tries henv hsite hheritable outer body hthis (fun t ht => ⟨hargs t ht, hgood t ht⟩) typeOf).mono
      (fun _ _ _ _ h => ?_) fun _ _ _ _ h => h
    refine ⟨h.1, h.2.1, ⟨hasInstance h.2.2.1, fun _ => h.2.2.2.1⟩, h.2.2.2.2, fun hgenuine hnone => ?_⟩
    obtain ⟨made, target, passed, hpasses⟩ := h.2.2.2.1.passesOn hgenuine
    have hclass := hpasses.info
    simp [hnone, TypeStore.classInfo?, TypeStore.classSlot?, TypeStore.shape] at hclass
  | none =>
    dsimp only
    split
    · exact Tries.stop (reject_refuses site .rejected (by decide) rfl _ _)
    refine Tries.bind (((checkEnclosing_tries cls outer).leaving (checkEnclosing_lasts env site cls outer)).mono
      (fun _ _ _ _ h => h.1) fun _ _ _ _ h => Fails.refuses_clean h _) fun _ st' _ _ h => ?_
    obtain ⟨rfl, hpicked⟩ := h
    exact ((resolveCtor_tries henv hsite hcls env.this hcls hargs false typeOf).failing (resolveCtor_failsClean _ _ _ _ _ _ _)).mono
      (fun _ _ _ _ h => ⟨h.1, h.2.1, ⟨hasInstance hpicked, by simp⟩, h.2.2.1, fun _ _ => ⟨Option.isSome_of_eq_some hinfo, h.2.2.2⟩⟩)
      fun _ _ _ _ h => Fails.refuses_clean h _

/-- A call of another constructor of the same class is bound or refused. It needs no enclosing
instance and is refused early only. -/
theorem resolveThis_tries (henv : KnowsEnv st.world.types env) (hsite : KnowsArgs st.world.types site)
    (typeOf : Expr → TypeId) : Tries (resolving site.id) (resolveThis env site) st
      (fun r st' => Bound env false [] (site.args.map st.exprType) r st'.world ∧
        (st.world.SoundBodies → Supplied site.id r st st') ∧ HandsOn st'.world typeOf .constructor site.args r ∧
          r.callable ∈ st'.world.constructors (st.world.types.classOf env.this)) (Fails false st) := by
  refine Tries.of_sound fun hst => tries_getTypes ?_
  have hargs := hst.knows_args hsite
  have hthis := hst.world.types.knows_classOf (henv.this hst.world.types)
  refine Tries.bind (argTypes_tries site) fun args st' _ _ h => ?_
  obtain ⟨rfl, rfl, -⟩ := h
  exact resolveCtor_tries henv hsite hthis _ (hst.world.types.knows_predefined (t := .void) (by decide)) hargs true typeOf

/-- A missing enclosing instance for the superclass is refused early, or nothing happens. -/
theorem checkSuperEnclosing_tries {id : SiteId} (super : TypeId) (outer : Option Expr) :
    Tries (resolving id) (checkSuperEnclosing env site super outer) st
      (fun _ st' => st' = st ∧
        (outer = none → ∀ t ∈ outerOfSuper? st.world.types super, enclosingInstance st.world.types t (env.frames.drop 1)))
      (Fails false st) := by
  refine tries_getUniverse ?_
  split
  · rename_i hnone
    exact Tries.ret ⟨rfl, fun _ t ht => by simp [hnone] at ht⟩
  · rename_i cls hcls
    split
    · exact reject_tries site .rejected (by decide) _
    · rename_i hchecked
      refine Tries.ret ⟨rfl, fun hnone t ht => ?_⟩
      obtain rfl : cls = t := Option.some.inj (hcls.symm.trans ht)
      simpa [hnone] using hchecked

/-- A call of a constructor of the superclass is bound or refused. The enclosing instance is
looked for among the frames outside the class that the call stands in. -/
theorem resolveSuper_tries (henv : KnowsEnv st.world.types env) (hsite : KnowsArgs st.world.types site)
    (outer : Option Expr) (typeOf : Expr → TypeId) : Tries (resolving site.id) (resolveSuper env site outer) st
      (fun r st' => Bound env false [] (site.args.map st.exprType) r st'.world ∧
        (st.world.SoundBodies → Supplied site.id r st st') ∧ HandsOn st'.world typeOf .constructor site.args r ∧
        ∃ info, st.world.types.classInfo? (st.world.types.classOf env.this) = some info ∧ info.super.isSome ∧
          HasInstance st info.super (env.frames.drop 1) outer ∧ r.callable ∈ st'.world.constructors info.super)
      (Fails false st) := by
  refine Tries.of_sound fun hst => tries_getUniverse ?_
  have hargs := hst.knows_args hsite
  dsimp only
  split
  · exact failSilently_tries site .badReceiver
  rename_i info hinfo
  split
  · exact Tries.stop (reject_tries site .rejected (by decide) _)
  split
  · exact Tries.stop (reject_tries site .rejected (by decide) _)
  rename_i hsuper
  refine Tries.bind (checkOuter_tries outer) fun _ st₁ _ _ h => ?_
  obtain ⟨rfl, hgiven⟩ := h
  refine Tries.bind (checkSuperEnclosing_tries info.super outer) fun _ st₂ _ _ h => ?_
  obtain ⟨rfl, hpicked⟩ := h
  refine Tries.bind (argTypes_tries site) fun args st' _ _ h => ?_
  obtain ⟨rfl, rfl, -⟩ := h
  refine (resolveCtor_tries henv hsite (hst.world.types.knows_classInfo hinfo).super.1 _
    (hst.world.types.knows_predefined (t := .void) (by decide)) hargs true typeOf).mono
      (fun _ _ _ _ h => ⟨h.1, h.2.1, h.2.2.1, info, hinfo, by simpa using hsuper, ⟨hgiven, fun hnone t ht => ?_⟩, h.2.2.2⟩)
      fun _ _ _ _ h => h
  exact enclosingInstance_iff.mp (hpicked hnone t ht)

end CallResolution.Session
