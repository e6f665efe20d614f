import CallResolution.Proofs.Document.Program
import CallResolution.Proofs.Resolve.Stages

/-!
# Creations of documents

A creation with the body of an anonymous class is bound to a constructor that is made for it.
That takes the arguments of the creation, in front of them an enclosing instance of an inner
superclass, and passes all of them on to the constructor of the superclass that was chosen for
the arguments: what it passes is accepted just as these were.

A creation of an instance of an inner class that names no enclosing instance has one at hand,
and a creation with a body passes that one on. The call of a superclass constructor looks for
it outside the class that it stands in, and whether that class has an enclosing instance
itself does not matter. An enclosing instance that is named may be of any type.

When the superclass is a local class, its constructor needs arguments for what that class
captures. A superclass that is finished at the turn of the creation gets them at once: the
anonymous class captures the same variables and passes its own copies on. For an open one the
constructor call waits, with the scopes of the creation, in which the anonymous class is none.
So the arguments that it gets later do not read from the anonymous class, and that captures
nothing for it: the order of the two steps makes a difference.

Main statements: `anonymous_passes_on`, `instances_at_hand` and `instances_unchecked`;
`super_captures_passed` and `completion_order_matters`. What they say of a creation at its
turn is read off `MakesClass`, which the creation of the anonymous class establishes;
`anonymous_passes_on` carries it on to the end of the run.
-/

namespace CallResolution

open Session

namespace Session

variable {st : Session}

/-- The sessions of a run bring in no callable with a parameter of the bad type. -/
theorem Turn.genuine (t : Turn st) (h : Fresh st) (hloaded : st.world.Genuine) : t.start.world.Genuine := by
  have hleads := h.begun.leads (Nat.zero_le t.place)
  rw [before_zero] at hleads
  refine hleads.2.world.genuine ?_
  rwa [begun_world]

/-- From its turn on, the class that was made for a creation passes the arguments on. -/
theorem Turn.passesOn (t : Turn st) (h : Fresh st) (hloaded : st.world.Genuine) {m : Nat} (hm : t.place < m) {site : Site}
    (hsite : (st.begun.before m).program.site? t.id = some site) (hbound : site.result.IsBound) {cls : TypeId}
    {outer : Option Expr} {body : AnonymousBody} (hcall : site.call = .new cls outer (some body)) :
    ∃ made target passed,
      PassesOn (st.begun.before m).world (site.args.map t.start.exprType) site.result made target passed := by
  obtain ⟨hsame, hruns, r, hr, hlater⟩ := t.later h hm hsite
  obtain ⟨hsound, hleads⟩ := t.sound h
  have hknown := (t.knows h).2
  rw [hsame] at hcall
  have hcreates := (t.binds h hr hlater hbound).creates cls outer (some body) hcall
  obtain ⟨made, target, passed, hpasses⟩ := (hcreates.makes rfl).passesOn (t.genuine h hloaded)
  have hargs : ∀ a ∈ t.site.args.map t.start.exprType, t.outcome.2.world.types.Knows a := fun a ha =>
    hleads.2.world.types.knows (hsound.1.knows_args hknown.toKnowsArgs a ha)
  refine ⟨made, target, passed, ?_⟩
  rw [hsame]
  exact (hpasses.moves hruns.world (t.runsOn h hm).moves (running.sound hleads hsound).1.world hargs).later hlater

/-- The enclosing instances that a bound call needs, and the one that a creation with a body
passes on. -/
theorem Turn.instances (t : Turn st) (h : Fresh st) {m : Nat} (hm : t.place < m) {site : Site}
    (hsite : (st.begun.before m).program.site? t.id = some site) (hbound : site.result.IsBound) :
    (∀ cls outer body, site.call = .new cls outer body →
      HasInstance t.start (constructedClass t.start.world.types cls body) t.env.frames outer ∧
        (body.isSome → ∀ c ∈ outerOfSuper? t.start.world.types (constructedClass t.start.world.types cls body),
          ∃ e, PassesInstance t.start.world.types t.env site c outer e ∧
            site.result.lowered = some ⟨site.result.callable, e :: site.args⟩)) ∧
      ∀ outer, site.call = .super outer → ∀ info,
        t.start.world.types.classInfo? (t.start.world.types.classOf t.env.this) = some info →
          HasInstance t.start info.super (t.env.frames.drop 1) outer := by
  obtain ⟨hsame, hruns, r, hr, hlater⟩ := t.later h hm hsite
  have hbinds := t.binds h hr hlater hbound
  rw [hsame]
  refine ⟨fun cls outer body hcall => ?_, fun outer hcall => hbinds.chains outer hcall⟩
  have hcreates := hbinds.creates cls outer body hcall
  refine ⟨hcreates.hasInstance, fun hbody c hc => ?_⟩
  obtain ⟨e, he, hlowered⟩ := (hcreates.makes hbody).instances c hc
  refine ⟨e, he, ?_⟩
  rcases hlater with heq | ⟨-, -, hcallable, -, -, -, -, hlowered', -⟩
  · rw [heq]
    exact hlowered
  · rw [hcallable, hlowered']
    exact hlowered

end Session

/-- A resolved creation with the body of an anonymous class, from its turn to the end of the
run: the constructor that was made for it has a parameter for each argument, to which that
converts, behind one for an enclosing instance when the superclass is inner; it passes local
variables of these types on, in order, to the constructor of the superclass that was chosen;
and that accepts these types in the recorded phase, packing trailing ones or not, as it
accepts the arguments. -/
theorem anonymous_passes_on (d : Document) (f : Source.File) (base : Options) (t : Turn ((d.load f).session base)) {m : Nat}
    (hm : t.place < m) {site : Site} (hsite : (((d.load f).session base).begun.before m).program.site? t.id = some site)
    (hresolved : site.result.state = .resolved) {cls : TypeId} {outer : Option Expr} {body : AnonymousBody}
    (hcall : site.call = .new cls outer (some body)) :
    ∃ made target passed, PassesOn (((d.load f).session base).begun.before m).world (site.args.map t.start.exprType)
      site.result made target passed :=
  t.passesOn (Loaded.fresh d f base) (d.load_genuine f) hm hsite (.inl hresolved) hcall

/-- An inner class with a private constructor of variable arity, which is created with a body
and with null among the arguments that are packed. -/
def packingDocument : Document where
  classes := [
    .mk { name := "p.A" } [
      .mk { name := "B", constructors := [{ access := "private", params := ["String", "Object..."] }] } []]]
  program := [
    { id := "a", cls := "p.A", new := "p.A.B", args := [{ type := "String" }, { isNull := true }, { type := "int" }],
      body := some {} }]

/-- Whether a call is a creation with a body. -/
def Call.hasBody : Call → Bool
  | .new _ _ (some _) => true
  | _ => false

/-- A creation with a body. -/
theorem Call.exists_of_hasBody {c : Call} (h : c.hasBody) : ∃ cls outer body, c = .new cls outer (some body) := by
  unfold hasBody at h
  split at h
  · exact ⟨_, _, _, rfl⟩
  · cases h

/-- Whether the call of a turn is a resolved creation with a body, which packs arguments. -/
def Session.Turn.packs {st : Session} (t : Turn st) : Bool :=
  (t.outcome.2.program.site? t.id).any fun site =>
    site.result.state = .resolved ∧ site.call.hasBody ∧ site.result.wrapped ∧ site.args.length = 3

theorem packingDocument_packs : (((packingDocument.load blankFile).session {}).turnAt? 0).any (·.packs) = true := by
  decide +kernel

/-- The arguments are packed when they are passed on, too. -/
theorem packing_passes_on : ∃ (t : Turn ((packingDocument.load blankFile).session {})) (site : Site) (made : ClassInfo)
    (target : MethodId) (passed : List TypeId), t.outcome.2.program.site? t.id = some site ∧ site.result.wrapped ∧
      passed.length = 3 ∧ PassesOn t.outcome.2.world (site.args.map t.start.exprType) site.result made target passed := by
  obtain ⟨t, -, ht⟩ := (Option.any_eq_true _ _).mp packingDocument_packs
  obtain ⟨site, hsite, hpacks⟩ := (Option.any_eq_true _ _).mp ht
  obtain ⟨hstate, hbody, hwrapped, hlength⟩ := of_decide_eq_true hpacks
  obtain ⟨cls, outer, body, hcall⟩ := Call.exists_of_hasBody hbody
  have hlater := hsite
  rw [← t.before_succ] at hlater
  obtain ⟨made, target, passed, hpasses⟩ := anonymous_passes_on _ _ _ t (Nat.lt_succ_self _) hlater hstate hcall
  rw [t.before_succ] at hpasses
  refine ⟨t, site, made, target, passed, hsite, hwrapped, ?_, hpasses⟩
  rw [← hpasses.accepts.converts.length_eq, List.length_map, hlength]

/-! ## Enclosing instances

Two ways to an enclosing instance: one that is named, of which only its type being bad is
excluded, and one that is looked for in the classes around the call.
-/

/-- A creation that is bound has an enclosing instance when it makes an instance of an inner
class, or of a subclass without a name of one: one that is named and not bad, or that of the
innermost class around it that inherits from the class around the inner one, and no code on
the way there is static and no class without an enclosing instance. A creation with a body
passes on the one or the other. For the call of a superclass constructor the same holds from
the second class around it on. -/
theorem instances_at_hand (d : Document) (f : Source.File) (base : Options) (t : Turn ((d.load f).session base)) {m : Nat}
    (hm : t.place < m) {site : Site} (hsite : (((d.load f).session base).begun.before m).program.site? t.id = some site)
    (hbound : site.result.state = .resolved ∨ site.result.state = .deferred) :
    let s := t.start.world.types
    (∀ cls outer body, site.call = .new cls outer body →
      HasInstance t.start (constructedClass s cls body) t.env.frames outer ∧
        (body.isSome → ∀ c ∈ outerOfSuper? s (constructedClass s cls body), ∃ e, PassesInstance s t.env site c outer e ∧
          site.result.lowered = some ⟨site.result.callable, e :: site.args⟩)) ∧
      ∀ outer, site.call = .super outer → ∀ info, s.classInfo? (s.classOf t.env.this) = some info →
        HasInstance t.start info.super (t.env.frames.drop 1) outer :=
  t.instances (Loaded.fresh d f base) hm hsite hbound

/-- Whether the call of a turn is a resolved creation with a body and an inner superclass, and
names no enclosing instance. -/
def Session.Turn.picksInstance {st : Session} (t : Turn st) : Bool :=
  (t.outcome.2.program.site? t.id).any fun site => site.result.state = .resolved && match site.call with
    | .new cls none (some body) =>
      (outerOfSuper? t.start.world.types (constructedClass t.start.world.types cls (some body))).isSome
    | _ => false

theorem packingDocument_picks : (((packingDocument.load blankFile).session {}).turnAt? 0).any (·.picksInstance) = true := by
  decide +kernel

/-- An instance of the outer class is at hand where its inner class is created, and is passed
on. -/
theorem packing_passes_instance : ∃ (t : Turn ((packingDocument.load blankFile).session {})) (site : Site) (c : TypeId) (e : Expr),
    t.outcome.2.program.site? t.id = some site ∧ PassesInstance t.start.world.types t.env site c none e ∧
      site.result.lowered = some ⟨site.result.callable, e :: site.args⟩ := by
  obtain ⟨t, -, ht⟩ := (Option.any_eq_true _ _).mp packingDocument_picks
  obtain ⟨site, hsite, hpicks⟩ := (Option.any_eq_true _ _).mp ht
  obtain ⟨hstate, hcall⟩ := Bool.and_eq_true_iff.mp hpicks
  have hlater := hsite
  rw [← t.before_succ] at hlater
  obtain ⟨hnew, -⟩ := instances_at_hand _ _ _ t (Nat.lt_succ_self _) hlater (.inl (of_decide_eq_true hstate))
  split at hcall
  · rename_i cls body hsame
    obtain ⟨c, hc⟩ := Option.isSome_iff_exists.mp hcall
    obtain ⟨e, he, hlowered⟩ := (hnew cls none (some body) hsame).2 rfl c hc
    exact ⟨t, site, c, e, hsite, he, hlowered⟩
  · cases hcall

/-- A static member class that extends an inner class of the same outer class. -/
def staticSuperDocument : Document where
  classes := [
    .mk { name := "p.A" } [
      .mk { name := "In" } [],
      .mk { name := "S", flags := ["static"], super := "p.A.In" } []]]
  program := [{ id := "a", cls := "p.A.S", isSuper := true }]

/-- Whether the call of a turn is a resolved call of the constructor of an inner superclass,
names no enclosing instance, and stands in a class that has none. -/
def Session.Turn.leavesStatic {st : Session} (t : Turn st) : Bool :=
  (t.outcome.2.program.site? t.id).any fun site => site.result.state = .resolved ∧ site.call = .super none ∧
    (t.start.world.types.classInfo? (t.start.world.types.classOf t.env.this)).any fun info =>
      (outerOfSuper? t.start.world.types info.super).any fun c => t.env.frames.head?.any fun g =>
        t.start.world.types.isSubclass g.type c = false ∧ (t.start.world.types.classInfo? g.type).any (·.isInner) = false

theorem staticSuperDocument_leaves : (((staticSuperDocument.load blankFile).session {}).turnAt? 0).any (·.leavesStatic) = true := by
  decide +kernel

/-- A creation in the outer class of an inner class, which names a string as the enclosing
instance. -/
def foreignInstanceDocument : Document where
  classes := [.mk { name := "p.A" } [.mk { name := "In" } []]]
  program := [{ id := "a", cls := "p.A", new := "p.A.In", outer := some { type := "String" } }]

/-- Whether the call of a turn is a resolved creation of an instance of an inner class, and
the enclosing instance that it names is of another type. -/
def Session.Turn.namesForeign {st : Session} (t : Turn st) : Bool :=
  (t.outcome.2.program.site? t.id).any fun site => site.result.state = .resolved && match site.call with
    | .new cls (some e) none => (outerOfSuper? t.start.world.types cls).any fun c =>
      t.start.world.types.isSubclass (t.start.exprType e) c = false
    | _ => false

theorem foreignInstanceDocument_names :
    (((foreignInstanceDocument.load blankFile).session {}).turnAt? 0).any (·.namesForeign) = true := by
  decide +kernel

/-- The call of a superclass constructor may cross a class without an enclosing instance to
reach one, and the enclosing instance that a creation names may be of a type that does not
inherit from the class around the inner one. -/
theorem instances_unchecked :
    (¬ ∀ (d : Document) (f : Source.File) (base : Options) (t : Turn ((d.load f).session base)) (site : Site),
      t.outcome.2.program.site? t.id = some site → site.result.state = .resolved → site.call = .super none →
      ∀ info, t.start.world.types.classInfo? (t.start.world.types.classOf t.env.this) = some info →
        ∀ c ∈ outerOfSuper? t.start.world.types info.super, ∃ crossed g rest, t.env.frames = crossed ++ g :: rest ∧
          t.start.world.types.isSubclass g.type c ∧
          ∀ g' ∈ crossed, (t.start.world.types.classInfo? g'.type).any (·.isInner) = true) ∧
    ¬ ∀ (d : Document) (f : Source.File) (base : Options) (t : Turn ((d.load f).session base)) (site : Site),
      t.outcome.2.program.site? t.id = some site → site.result.state = .resolved →
      ∀ cls e, site.call = .new cls (some e) none → ∀ c ∈ outerOfSuper? t.start.world.types cls,
        t.start.world.types.isSubclass (t.start.exprType e) c := by
  refine ⟨fun h => ?_, fun h => ?_⟩
  · obtain ⟨t, -, ht⟩ := (Option.any_eq_true _ _).mp staticSuperDocument_leaves
    obtain ⟨site, hsite, hleaves⟩ := (Option.any_eq_true _ _).mp ht
    obtain ⟨hstate, hcall, hleaves⟩ := of_decide_eq_true hleaves
    obtain ⟨info, hinfo, hleaves⟩ := (Option.any_eq_true _ _).mp hleaves
    obtain ⟨c, hc, hleaves⟩ := (Option.any_eq_true _ _).mp hleaves
    obtain ⟨head, hhead, hleaves⟩ := (Option.any_eq_true _ _).mp hleaves
    obtain ⟨hforeign, hstatic⟩ := of_decide_eq_true hleaves
    obtain ⟨crossed, g, rest, hframes, hinherits, hinner⟩ := h _ _ _ t site hsite hstate hcall info hinfo c hc
    rw [hframes] at hhead
    cases crossed with
    | nil =>
      cases hhead
      exact absurd hinherits (by simp [hforeign])
    | cons g' crossed =>
      cases hhead
      exact absurd (hinner head (by simp)) (by simp [hstatic])
  · obtain ⟨t, -, ht⟩ := (Option.any_eq_true _ _).mp foreignInstanceDocument_names
    obtain ⟨site, hsite, hnames⟩ := (Option.any_eq_true _ _).mp ht
    obtain ⟨hstate, hcall⟩ := Bool.and_eq_true_iff.mp hnames
    split at hcall
    · rename_i cls e hsame
      obtain ⟨c, hc, hforeign⟩ := (Option.any_eq_true _ _).mp hcall
      have hinherits := h _ _ _ t site hsite (of_decide_eq_true hstate) cls e hsame c hc
      exact absurd hinherits (by simpa using of_decide_eq_true hforeign)
    · cases hcall

/-! ## Captures of the superclass

What a creation passes for the captures of its superclass is told right behind its turn.
Arguments that a later completion of the superclass adds are made as those of any call that
waited, in the scopes that are kept with it.
-/

/-- A resolved creation with the body of an anonymous class, whose superclass is a local
class. When that is finished at its turn, the superclass constructor call ends in one argument
for each of its captures, in order: it reads the field which the anonymous class has for its
own capture of the variable. When it is open, there are none of these arguments, and the
superclass constructor call waits for it. -/
theorem super_captures_passed (d : Document) (f : Source.File) (base : Options) (t : Turn ((d.load f).session base)) {site : Site}
    (hsite : t.outcome.2.program.site? t.id = some site) (hresolved : site.result.state = .resolved) {cls : TypeId}
    {outer : Option Expr} {body : AnonymousBody} (hcall : site.call = .new cls outer (some body)) :
    let u := t.start.world
    let u' := t.outcome.2.world
    let super := constructedClass u.types cls (some body)
    let anon := site.result.anonymous
    u.types.isLocalClass super → ∃ call front reads, site.result.superInvocation = some call ∧ call.args = front ++ reads ∧
      (u.isComplete super → List.Forall₂ (fun c e => ∃ made ∈ u'.captures anon, made.name = c.name ∧
        e = captureRead t.site c.name c.type made.field [anon] ∧ ∃ field, u'.field? made.field = some field ∧
          u'.types.classOf field.owner = u'.types.classOf anon ∧ field.name = captureFieldName c.name) (u.captures super) reads) ∧
      (u'.isComplete super = false → reads = [] ∧
        { site := t.id, env := t.env, isSuper := true } ∈ (t.outcome.2.waiting.lookup (u.types.classOf super)).getD []) := by
  intro u u' super anon hlocal
  have hfresh := Loaded.fresh d f base
  have hpopulated : u'.Populated := by
    rw [show u' = (((d.load f).session base).begun.before (t.place + 1)).world from congrArg Session.world t.before_succ.symm]
    exact (Loaded.populated d f base).moves (hfresh.begun.reached _).leads.2.moves
  obtain ⟨hsame, hbinds⟩ := t.recorded hfresh hsite (.inl hresolved)
  rw [hsame] at hcall
  obtain ⟨call, front, reads, hsuper, hargs, hpasses⟩ := ((hbinds.creates cls outer (some body) hcall).makes rfl).captures
  refine ⟨call, front, reads, hsuper, hargs, fun hdone => ?_, fun hopen => ?_⟩
  · refine (hpasses.finished hlocal hdone).imp fun c e hread => ?_
    obtain ⟨made, hmade, hname, he⟩ := hread
    obtain ⟨owner, -, howner, hfield⟩ := hpopulated.backed hmade
    exact ⟨made, hmade, hname, he, _, hfield, howner, congrArg captureFieldName hname⟩
  · have hwaits := hpasses.waits hlocal hopen
    rwa [t.site_id hfresh] at hwaits

/-- A local class that captures a variable, and a creation of an instance of a subclass
without a name. The class is completed before the creation or after it. -/
def localSuperDocument (early : Bool) : Document where
  classes := [.mk { name := "p.A" } [], .mk { name := "p.A$1L", captures := ["int x"] } []]
  program :=
    let creation : StepDecl := { id := "a", cls := "p.A", locals := .innermost ["int x"], new := "p.A$1L", body := some {} }
    if early then [{ complete := "p.A$1L" }, creation] else [creation, { complete := "p.A$1L" }]

/-- Whether the call of a turn is a resolved creation with a body whose superclass is a
finished local class with captures. -/
def Session.Turn.passesCaptures {st : Session} (t : Turn st) : Bool :=
  (t.outcome.2.program.site? t.id).any fun site => site.result.state = .resolved && match site.call with
    | .new cls _ (some body) =>
      let super := constructedClass t.start.world.types cls (some body)
      t.start.world.types.isLocalClass super && t.start.world.isComplete super && (t.start.world.captures super).length = 1
    | _ => false

theorem localSuperDocument_passes :
    ((((localSuperDocument true).load blankFile).session {}).turnAt? 1).any (·.passesCaptures) = true := by
  decide +kernel

/-- The superclass was completed before: the one argument for its capture reads the field of
the anonymous class. -/
theorem localSuper_passes_copy : ∃ (t : Turn (((localSuperDocument true).load blankFile).session {})) (site : Site) (call : LoweredCall)
    (front : List Expr) (made c : Capture) (field : Field), t.outcome.2.program.site? t.id = some site ∧
      site.result.superInvocation = some call ∧ made ∈ t.outcome.2.world.captures site.result.anonymous ∧
      call.args = front ++ [captureRead t.site c.name c.type made.field [site.result.anonymous]] ∧
      t.outcome.2.world.field? made.field = some field ∧ field.name = captureFieldName c.name := by
  obtain ⟨t, -, ht⟩ := (Option.any_eq_true _ _).mp localSuperDocument_passes
  obtain ⟨site, hsite, hpasses⟩ := (Option.any_eq_true _ _).mp ht
  obtain ⟨hstate, hcall⟩ := Bool.and_eq_true_iff.mp hpasses
  split at hcall
  · rename_i cls outer body hsame
    obtain ⟨hlocal, hlength⟩ := Bool.and_eq_true_iff.mp hcall
    obtain ⟨hlocal, hdone⟩ := Bool.and_eq_true_iff.mp hlocal
    obtain ⟨c, hc⟩ := List.length_eq_one_iff.mp (of_decide_eq_true hlength)
    obtain ⟨call, front, reads, hsuper, hargs, hfinished, -⟩ :=
      super_captures_passed _ _ _ t hsite (of_decide_eq_true hstate) hsame hlocal
    have hreads := hfinished hdone
    rw [hc] at hreads
    cases hreads with
    | cons hread hrest =>
      cases hrest
      obtain ⟨made, hmade, -, rfl, field, hfield, -, hname⟩ := hread
      exact ⟨t, site, call, front, made, c, field, hsite, hsuper, hmade, hargs, hfield, hname⟩
  · cases hcall

/-- What a creation with a body passes to the superclass constructor, and what its anonymous
class captures. -/
def Session.passedTo (st : Session) (id : SiteId) : Option (List Expr × List Capture) :=
  (st.program.site? id).map fun site =>
    ((site.result.superInvocation.map (·.args)).getD [], st.world.captures site.result.anonymous)

/-- Whether the first two steps of a program are a creation with a body and the completion of
its superclass, and come to something else when their order is changed. -/
def Session.orderMatters (st : Session) : Bool :=
  (st.program.steps[0]?).any fun
    | .complete _ _ => false
    | .call id env => (st.program.steps[1]?).any fun
      | .call _ _ => false
      | .complete cls span =>
        let early := (runStep (.call id env) (runStep (.complete cls span) st).2).2
        let late := (runStep (.complete cls span) (runStep (.call id env) st).2).2
        decide (early.passedTo id ≠ late.passedTo id) && st.world.types.isLocalClass cls &&
          (st.program.site? id).any fun site => match site.call with
            | .new super _ (some body) => constructedClass st.world.types super (some body) = cls
            | _ => false

theorem localSuperDocument_orderMatters :
    (((localSuperDocument false).load blankFile).session {}).begun.orderMatters = true := by
  decide +kernel

/-- What a creation passes for the captures of its superclass, and what its anonymous class
captures, may depend on whether the superclass was completed right before the creation or
right behind it. -/
theorem completion_order_matters : ¬ ∀ (d : Document) (f : Source.File) (base : Options) (n : Nat) (id : SiteId) (env : Env)
    (cls : TypeId) (span : Source.Span) (site : Site) (super : TypeId) (outer : Option Expr) (body : AnonymousBody),
    let st := ((d.load f).session base).begun.before n
    st.program.steps[n]? = some (.call id env) → st.program.steps[n + 1]? = some (.complete cls span) →
    st.program.site? id = some site → site.call = .new super outer (some body) →
    constructedClass st.world.types super (some body) = cls → st.world.types.isLocalClass cls →
    (runStep (.call id env) (runStep (.complete cls span) st).2).2.passedTo id =
      (runStep (.complete cls span) (runStep (.call id env) st).2).2.passedTo id := by
  intro h
  have h₀ := h (localSuperDocument false) blankFile {} 0
  have hmatters := localSuperDocument_orderMatters
  rw [before_zero] at h₀
  generalize (((localSuperDocument false).load blankFile).session {}).begun = st at h₀ hmatters
  obtain ⟨step, hcall, hmatters⟩ := (Option.any_eq_true _ _).mp hmatters
  cases step with
  | complete cls span => cases hmatters
  | call id env =>
    obtain ⟨step, hcomplete, hmatters⟩ := (Option.any_eq_true _ _).mp hmatters
    cases step with
    | call id env => cases hmatters
    | complete cls span =>
      obtain ⟨hdiffer, hsite⟩ := Bool.and_eq_true_iff.mp hmatters
      obtain ⟨hdiffer, hlocal⟩ := Bool.and_eq_true_iff.mp hdiffer
      obtain ⟨site, hsite, hsuper⟩ := (Option.any_eq_true _ _).mp hsite
      split at hsuper
      · rename_i super outer body hsame
        exact of_decide_eq_true hdiffer
          (h₀ id env cls span site super outer body hcall hcomplete hsite hsame (of_decide_eq_true hsuper) hlocal)
      · cases hsuper

end CallResolution
