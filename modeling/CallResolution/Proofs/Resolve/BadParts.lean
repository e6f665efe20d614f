import CallResolution.Resolve.Run

/-!
# Calls with bad parts

A part of a call that has the bad type was reported where it arose, and a call that has such a
part always fails: when the part is looked at, the call fails without a report. Of what is
looked at before that, an argument without a value, a type that is no class and the place of a
superclass constructor call may still be reported. `faultBesides?` is what is reported then.
Type arguments are no parts in this sense: they are never looked at by themselves.

Main statement: `resolveCall_failsWith`.
-/

namespace CallResolution.Session

variable {st : Session} {env : Env} {site : Site}

/-! ## Bad parts

These are functions of a session and a site, so which report is expected can be computed when
it is the turn of the call. The tests in `superFault?` and `creationFault?` stand in the order
in which the parts are looked at.
-/

/-- Whether an argument is bad. -/
def hasBadArg (st : Session) (site : Site) : Bool :=
  (site.args.map st.exprType).any st.world.types.isBad

/-- Whether an argument has no value. -/
def hasVoidArg (st : Session) (site : Site) : Bool :=
  (site.args.map st.exprType).any fun t => st.world.types.shape t = .void

/-- Whether an enclosing instance is given and bad. -/
def hasBadOuter (st : Session) (outer : Option Expr) : Bool :=
  outer.any fun e => st.world.types.isBad (st.exprType e)

/-- Whether a part of a call is bad: an argument, the receiver, the created class or the
enclosing instance. Explicit type arguments are left out, since a call does not look at them.
-/
def hasBadPart (st : Session) (site : Site) : Bool :=
  st.hasBadArg site ||
    match site.call with
    | .method _ recv => recv.any fun e => st.world.types.isBad (st.receiverType e)
    | .new cls outer _ => st.world.types.isBad cls || st.hasBadOuter outer
    | .this => false
    | .super outer => st.hasBadOuter outer

/-- What is reported of the arguments. -/
def argFault? (st : Session) (site : Site) : Option Code :=
  if !st.hasBadArg site && st.hasVoidArg site then some .voidArgument else none

/-- What is reported of a creation before the enclosing instance is looked at. The arguments
come first, and a bad one ends the call before the class is looked at. -/
def creationFault? (st : Session) (site : Site) (cls : TypeId) : Option Code :=
  if st.hasBadArg site then none
  else if st.hasVoidArg site then some .voidArgument
  else if st.world.types.isBad cls || (st.world.types.classInfo? cls).isSome then none
  else some .primitiveInstantiation

/-- Whether no enclosing instance for the constructor of a superclass is given or at hand. -/
def lacksEnclosing (s : TypeStore) (env : Env) (super : TypeId) (outer : Option Expr) : Bool :=
  outer.isNone && (outerOfSuper? s super).any (!enclosingInstance s · (env.frames.drop 1))

/-- What is reported of a superclass constructor call before the arguments are looked at: that
the class is an interface or has no superclass, or that no enclosing instance is at hand. -/
def superFault? (st : Session) (env : Env) (outer : Option Expr) : Option Code :=
  let s := st.world.types
  match s.classInfo? (s.classOf env.this) with
  | none => none
  | some info =>
    if info.flags.isInterface then some .interfaceSuperCall
    else if !info.super.isSome then some .objectSuperCall
    else if lacksEnclosing s env info.super outer then some .missingEnclosingInstance
    else none

/-- What is reported of a call that has a bad part, if anything. It is a function of the
session before the call and does not bind it. -/
def faultBesides? (st : Session) (env : Env) (site : Site) : Option Code :=
  match site.call with
  | .method _ _ | .this => st.argFault? site
  | .new cls _ _ => st.creationFault? site cls
  | .super outer => st.superFault? env outer

/-- The codes under which a call that has a bad part may be reported. -/
def codesBesides : List Code :=
  [.voidArgument, .primitiveInstantiation, .interfaceSuperCall, .objectSuperCall, .missingEnclosingInstance]

theorem faultBesides?_mem {code : Code} (h : st.faultBesides? env site = some code) : code ∈ codesBesides := by
  have harg {o : Option Code} (ho : o ∈ none :: codesBesides.map some) (heq : o = some code) : code ∈ codesBesides := by
    simpa [heq] using ho
  refine harg ?_ h
  unfold faultBesides? argFault? creationFault? superFault?
  dsimp only
  repeat' split
  all_goals decide

/-! ## Failing steps

How a failure passes through a sequence of steps. The steps in front of it give values and
leave the session alone, so equations are enough.
-/

/-- A step fails under a code, or silently. What it leaves of the session is not said; for a
call with a bad part another module does. -/
def FailsWith {α : Type} (x : ResolveM α) (st : Session) (code : Option Code) : Prop :=
  ∃ e, (x.run st).1 = .error e ∧ e.code = code

section

variable {α β : Type} {x : ResolveM α} {f : α → ResolveM β} {code : Option Code}

/-- One step after another: the second one goes on from what the first one gives and where it
ends. -/
theorem run_bind_apply : (x >>= f).run st = ExceptT.bindCont f (x.run st).1 (x.run st).2 := rfl

/-- What comes after a failure does not matter. -/
theorem FailsWith.bind (h : FailsWith x st code) : FailsWith (x >>= f) st code := by
  obtain ⟨e, he, hcode⟩ := h
  refine ⟨e, ?_, hcode⟩
  rw [run_bind_apply, he]
  rfl

/-- A step that gives a value and leaves the session alone, before another one. -/
theorem run_bind_of_ok {a : α} (hx : x.run st = (.ok a, st)) : (x >>= f).run st = (f a).run st := by
  rw [run_bind_apply, hx]
  rfl

/-- Reading the session. -/
theorem run_get_bind {f : Session → ResolveM β} : (get >>= f).run st = (f st).run st := rfl

/-- Reading the universe. -/
theorem run_getUniverse_bind {f : Universe → ResolveM β} :
    (ExceptT.lift getUniverse >>= f).run st = (f st.world).run st := rfl

/-- A step that gives a value and leaves the session alone, before one that fails. -/
theorem FailsWith.after {a : α} (hx : x.run st = (.ok a, st)) (h : FailsWith (f a) st code) : FailsWith (x >>= f) st code := by
  unfold FailsWith
  rw [run_bind_of_ok hx]
  exact h

theorem failsWith_failSilently (site : Site) (kind : FailureKind) : FailsWith (failSilently site kind : ResolveM α) st none :=
  ⟨_, rfl, rfl⟩

theorem failsWith_reject (site : Site) (kind : FailureKind) (code : Code) (msg : String) :
    FailsWith (reject site kind code msg : ResolveM α) st (some code) :=
  ⟨_, rfl, rfl⟩

end

/-! ## Checks

The checks that come before the bad part, and the one that fails for it.
-/

/-- Bad arguments fail the call silently, and arguments without a value under their code. -/
theorem argTypes_failsWith (h : st.hasBadArg site ∨ st.hasVoidArg site) :
    FailsWith (argTypes site) st (st.argFault? site) := by
  unfold argTypes argFault?
  refine FailsWith.after rfl ?_
  dsimp only
  rw [← hasBadArg]
  cases hbad : st.hasBadArg site with
  | true => exact (failsWith_failSilently site _).bind
  | false =>
    refine FailsWith.after rfl ?_
    obtain hvoid : st.hasVoidArg site = true := h.resolve_left (by simp [hbad])
    obtain ⟨i, hi⟩ : ∃ i, (site.args.map st.exprType).findIdx? (fun t => st.world.types.shape t = .void) = some i :=
      Option.isSome_iff_exists.mp (List.findIdx?_isSome.trans hvoid)
    rw [hi, hvoid]
    exact failsWith_reject site _ _ _

/-- Arguments with good values are given as they are. -/
theorem argTypes_run (hbad : st.hasBadArg site = false) (hvoid : st.hasVoidArg site = false) :
    (argTypes site).run st = (.ok (site.args.map st.exprType), st) := by
  have hnone : (site.args.map st.exprType).findIdx? (fun t => st.world.types.shape t = .void) = none :=
    Option.isNone_iff_eq_none.mp (Option.isSome_eq_false_iff.mp (List.findIdx?_isSome.trans hvoid))
  unfold argTypes
  refine run_get_bind.trans ?_
  dsimp only
  rw [← hasBadArg, hbad, if_neg (by simp), hnone]
  rfl

/-- A bad receiver fails the call silently. -/
theorem checkReceiver_failsWith {name : String} {t : TypeId} (h : st.world.types.isBad t) :
    FailsWith (checkReceiver site name t) st none := by
  have hshape : st.world.types.shape t = .bad := of_decide_eq_true h
  unfold checkReceiver
  refine FailsWith.after rfl ?_
  rw [hshape]
  exact failsWith_failSilently site _

/-- A bad enclosing instance fails the call silently. -/
theorem checkOuter_failsWith {outer : Option Expr} (h : st.hasBadOuter outer) : FailsWith (checkOuter site outer) st none := by
  unfold checkOuter
  refine FailsWith.after rfl ?_
  rw [← hasBadOuter, h]
  exact failsWith_failSilently site _

/-- A superclass constructor call without an enclosing instance is reported. -/
theorem checkSuperEnclosing_failsWith {super : TypeId} {outer : Option Expr}
    (h : lacksEnclosing st.world.types env super outer) :
    FailsWith (checkSuperEnclosing env site super outer) st (some .missingEnclosingInstance) := by
  obtain ⟨hnone, hlacks⟩ := (Bool.and_eq_true _ _).mp h
  obtain ⟨cls, hcls, hmissing⟩ := (Option.any_eq_true _ _).mp hlacks
  unfold checkSuperEnclosing
  refine .after rfl ?_
  rw [hcls]
  dsimp only
  rw [hnone, hmissing]
  exact failsWith_reject site _ _ _

theorem checkSuperEnclosing_run {super : TypeId} {outer : Option Expr}
    (h : lacksEnclosing st.world.types env super outer = false) :
    (checkSuperEnclosing env site super outer).run st = (.ok (), st) := by
  unfold lacksEnclosing at h
  unfold checkSuperEnclosing
  refine run_getUniverse_bind.trans ?_
  cases hcls : outerOfSuper? st.world.types super with
  | none => rfl
  | some cls =>
    rw [hcls, Option.any_some] at h
    dsimp only
    rw [if_neg (Bool.eq_false_iff.mp h)]
    rfl

/-! ## Calls

One statement for each kind of call, and the dispatch over them.
-/

theorem resolveQualified_failsWith {name : String} {recv : Expr} {args : List TypeId}
    (h : st.world.types.isBad (st.receiverType recv)) : FailsWith (resolveQualified env site name recv args) st none := by
  unfold resolveQualified
  exact FailsWith.after rfl (checkReceiver_failsWith h).bind

/-- A call that looks at its arguments first. -/
theorem argTypes_then {α : Type} {f : List TypeId → ResolveM α} {code : Option Code}
    (hargs : st.hasBadArg site ∨ st.hasVoidArg site → code = st.argFault? site)
    (h : st.hasBadArg site = false → st.hasVoidArg site = false → FailsWith (f (site.args.map st.exprType)) st code) :
    FailsWith (argTypes site >>= f) st code := by
  by_cases hfault : st.hasBadArg site ∨ st.hasVoidArg site
  · rw [hargs hfault]
    exact (argTypes_failsWith hfault).bind
  · obtain ⟨hbad, hvoid⟩ : st.hasBadArg site = false ∧ st.hasVoidArg site = false := by simpa using hfault
    exact .after (argTypes_run hbad hvoid) (h hbad hvoid)

/-- A creation of a bad class, or with a bad enclosing instance, after good arguments. -/
theorem resolveNew_failsWith {cls : TypeId} {outer : Option Expr} {body : Option AnonymousBody}
    (h : st.hasBadArg site ∨ st.world.types.isBad cls ∨ st.hasBadOuter outer) :
    FailsWith (resolveNew env site cls outer body) st (st.creationFault? site cls) := by
  unfold resolveNew creationFault?
  refine argTypes_then (fun hargs => ?_) fun hbad hvoid => .after rfl ?_
  · unfold argFault?
    cases hbad : st.hasBadArg site <;> simp_all
  · rw [hbad, hvoid]
    cases hcls : st.world.types.isBad cls with
    | true => exact (failsWith_failSilently site _).bind
    | false =>
      refine .after rfl ?_
      cases hinfo : st.world.types.classInfo? cls with
      | none => exact failsWith_reject site _ _ _
      | some info => exact (checkOuter_failsWith (by simpa [hbad, hcls] using h)).bind

/-- A call of another constructor with bad arguments. -/
theorem resolveThis_failsWith (h : st.hasBadArg site) : FailsWith (resolveThis env site) st (st.argFault? site) := by
  unfold resolveThis
  exact .after rfl (argTypes_failsWith (.inl h)).bind

/-- A superclass constructor call that looks at the enclosing instance and then at the
arguments. -/
theorem checkOuter_then {α : Type} {f : List TypeId → ResolveM α} {super : TypeId} {outer : Option Expr}
    (h : st.hasBadArg site ∨ st.hasBadOuter outer) :
    FailsWith (do
      checkOuter site outer
      checkSuperEnclosing env site super outer
      f (← argTypes site)) st
      (if lacksEnclosing st.world.types env super outer then some .missingEnclosingInstance else none) := by
  cases houter : st.hasBadOuter outer with
  | true =>
    obtain ⟨e, rfl, -⟩ := (Option.any_eq_true _ _).mp houter
    exact (checkOuter_failsWith houter).bind
  | false =>
    have hbad : st.hasBadArg site := by simpa [houter] using h
    have hnone : st.argFault? site = none := by simp [argFault?, hbad]
    have hargs : FailsWith (argTypes site >>= f) st none := hnone ▸ (argTypes_failsWith (.inl hbad)).bind
    have hchecked : (checkOuter site outer).run st = (.ok (), st) := by
      unfold checkOuter
      refine run_get_bind.trans ?_
      rw [← hasBadOuter, houter]
      rfl
    refine .after hchecked ?_
    cases hlacks : lacksEnclosing st.world.types env super outer with
    | true => exact (checkSuperEnclosing_failsWith hlacks).bind
    | false => exact .after (checkSuperEnclosing_run hlacks) hargs

/-- A call of a constructor of the superclass with a bad enclosing instance or bad arguments:
where it stands is looked at first. -/
theorem resolveSuper_failsWith {outer : Option Expr} (h : st.hasBadArg site ∨ st.hasBadOuter outer) :
    FailsWith (resolveSuper env site outer) st (st.superFault? env outer) := by
  unfold resolveSuper superFault?
  refine .after rfl ?_
  dsimp only
  cases hinfo : st.world.types.classInfo? (st.world.types.classOf env.this) with
  | none => exact failsWith_failSilently site _
  | some info =>
    dsimp only
    by_cases hinterface : info.flags.isInterface
    · rw [if_pos hinterface, if_pos hinterface]
      exact (failsWith_reject site _ _ _).bind
    · rw [if_neg hinterface, if_neg hinterface]
      by_cases hsuper : (!info.super.isSome) = true
      · rw [if_pos hsuper, if_pos hsuper]
        exact (failsWith_reject site _ _ _).bind
      · rw [if_neg hsuper, if_neg hsuper]
        exact checkOuter_then h

/-- A call with a bad part fails, and all that it is reported for is found before that part is
looked at. Since this is an equation, a call with a bad part is reported at most once. -/
theorem resolveCall_failsWith (h : st.hasBadPart site) :
    FailsWith (resolveCall env site) st (st.faultBesides? env site) := by
  unfold hasBadPart at h
  unfold resolveCall faultBesides?
  cases hcall : site.call with
  | method name recv =>
    rw [hcall] at h
    refine argTypes_then (fun _ => rfl) fun hbad hvoid => ?_
    simp only [hbad, Bool.false_or] at h
    obtain ⟨e, rfl, he⟩ := (Option.any_eq_true _ _).mp h
    have hnone : st.argFault? site = none := by simp [argFault?, hvoid]
    rw [hnone]
    exact resolveQualified_failsWith he
  | new cls outer body =>
    rw [hcall] at h
    exact resolveNew_failsWith (by simpa [or_assoc] using h)
  | this =>
    rw [hcall] at h
    exact resolveThis_failsWith (by simpa using h)
  | super outer =>
    rw [hcall] at h
    exact resolveSuper_failsWith (by simpa using h)

end CallResolution.Session
