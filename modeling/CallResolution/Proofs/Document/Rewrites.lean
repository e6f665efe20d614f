import CallResolution.Proofs.Document.Accessors
import CallResolution.Proofs.Members.Parameters
import CallResolution.Proofs.Types.Erasure

/-!
# What accessors are called with

A bound call that goes through an accessor passes its arguments on in their order. Before them
goes the receiver of an instance method, and behind them the mark of a constructor. An
accessor is made for the first call that needs it and shared by the later ones, which may have
receivers of other types; so it takes the erasure of the first one, and all arguments convert
to what it takes.

This needs that types with one erasure accept the same, which fails for a type variable with a
primitive bound. It also needs that the mark of a constructor is a class, since null is passed
for it; there is none when a class lies too deep for its outermost class to be found and the
name of the mark is taken. Whether either can happen can be told from the document before
anything is run (`Orderly`): the run makes further type variables, when it comes to the text
of a signature, but their bounds are what that text says; and it makes further classes, but
the constructor of an anonymous class is not called through an accessor, so what is marked
lies in a class of the document. What remains to be asked of the call itself is that its
receiver is no array whose dimensions wrapped around to none, since the dimensions of what a
type variable stands for are added to those of an array of it.

Main statements: `rewrites_typed` and `rewrite_untyped`. That orderly documents stay so is in
`TableSteps.proper`, and where the constructor comes from in `Turn.owner_topLevel`.
-/

namespace CallResolution

open Session Universe List

/-! ## Orderly documents

The conditions are about what is loaded alone, and can be checked.
-/

/-- The text of a signature that is not processed yet. -/
def SignatureState.text? : SignatureState → Option SignatureText
  | .pending text => some text
  | _ => none

namespace Universe

/-- What is asked of the universe of a document: bounds of type variables are written like
classes and type variables, no class lies too deep for its outermost class to be found, and
superclasses are classes. -/
structure Orderly (u : Universe) : Prop extends Universe.Bounded u where
  /-- The outermost class around every class is found. -/
  nesting : ∀ t, (u.types.classInfo? t).isSome → u.types.TopLevel (u.types.outermost t)
  /-- Superclasses are classes. -/
  supers : ∀ info ∈ u.types.classes, info.super.isSome → (u.types.classInfo? info.super).isSome

instance (e : TypeExpr) : Decidable e.IsBound :=
  match e with
  | .mk name _ dims variadic => inferInstanceAs (Decidable (primitiveNamed? name = none ∧ dims = 0 ∧ variadic = false))

instance (text : SignatureText) : Decidable text.Bounded :=
  inferInstanceAs (Decidable (∀ src ∈ text.typeParams, ∀ p ∈ (TypeExpr.parseParam src).toOption, ∀ b ∈ p.bounds, b.IsBound))

instance (s : TypeStore) : Decidable s.Bounded :=
  inferInstanceAs (Decidable (∀ v ∈ s.typeVars, ∀ b ∈ v.bounds, s.isReference b ∧ ¬ s.isArray b))

instance (u : Universe) : Decidable u.Orderly :=
  decidable_of_iff (u.types.Bounded ∧ (∀ m ∈ u.methods, ∀ text ∈ m.signature.text?, text.Bounded) ∧
      (∀ i ∈ List.range u.types.shapes.size, (u.types.classInfo? ⟨i⟩).isSome → u.types.TopLevel (u.types.outermost ⟨i⟩)) ∧
      ∀ info ∈ u.types.classes, info.super.isSome → (u.types.classInfo? info.super).isSome)
    ⟨fun ⟨types, texts, nesting, supers⟩ =>
      ⟨⟨types, fun m hm text hsig => texts m hm text (by simp [hsig, SignatureState.text?])⟩,
        fun t ht => nesting t.index (List.mem_range.mpr (TypeStore.knows_of_classInfo ht)) ht, supers⟩,
    fun h => ⟨h.types, fun m hm text htext => h.texts m hm text (by
      unfold SignatureState.text? at htext
      split at htext <;> simp_all), fun i _ => h.nesting ⟨i⟩, h.supers⟩⟩

end Universe

/-- There are no marks of constructors and no accessors yet, so the universe of an orderly
document is proper. -/
theorem Document.load_proper (d : Document) (f : Source.File) (h : (d.load f).world.Orderly) : (d.load f).world.Proper := by
  obtain ⟨hplaceholders, haccessors⟩ := d.load_unmarked f
  exact ⟨h.toBounded, ⟨by simp [hplaceholders], by simp [haccessors]⟩⟩

/-! ## The call of an accessor

An accessor takes erased types, and arguments were accepted for the member itself. So an
argument goes on from the type of a parameter to its erasure, and for a stand-in from there to
another type with the same erasure.
-/

namespace Universe

variable {u : Universe}

/-- What accessors of constructors take last is a class. Null is passed for it, which converts
to references only. -/
def MarksConstructors (u : Universe) : Prop :=
  ∀ p ∈ u.accessors, p.1.kind = .constructor → ∀ mark ∈ (u.method p.2).params.getLast?, u.types.isReference mark

/-- What takes the place of a call, where the session has given expressions types: the
arguments are passed on in order with what the accessor takes beside them, and all convert to
what it takes. -/
def PassesTyped (u : Universe) (st : Session) (args : List Expr) (call : LoweredCall) : Prop :=
  ∃ front back, call.args = front ++ args ++ back ∧
    Forall₂ (fun a p => u.types.invocationConverts a p = true)
      (front.map st.receiverType ++ args.map st.exprType ++ back.map st.exprType) (u.method call.callable).params

/-- The receiver of a method converts to what the accessor takes first. -/
theorem converts_base (hu : u.WellFormed) (hbounds : u.types.ErasableBounds) {t base : TypeId} (ht : u.types.Genuine t)
    (hdims : u.types.Dimensioned t) (hbase : base = t ∨ TypeStore.erasure t u.types = (base, u.types)) : u.types.invocationConverts t base := by
  rcases hbase with rfl | herasure
  · exact TypeStore.invocationConverts_self ht.2
  · exact hu.types.invocationConverts_erasure hbounds hdims ht herasure

/-- An accessor takes what it is called with in place of a call whose arguments convert to
what the member takes. -/
theorem StandsIn.passesTyped (hu : u.WellFormed) (hpopulated : u.Populated) (hbounds : u.types.ErasableBounds) {st : Session}
    {kind : CallableKind} {args : List Expr} {target : MethodId} {call : LoweredCall}
    (h : u.StandsIn st.receiverType kind args target call)
    (hreceiver : ∀ e ∈ call.args.head?, u.types.Dimensioned (st.receiverType e))
    (hmark : kind = .constructor → ∀ mark ∈ (u.method call.callable).params.getLast?, u.types.isReference mark)
    (hargs : Forall₂ (fun a p => u.types.invocationConverts a p = true) (args.map st.exprType) (u.method target).params) :
    u.PassesTyped st args call := by
  obtain ⟨key, front, back, hlookup, rfl, rfl, hcall, hpassing⟩ := h
  have htakes := hpopulated.accessorTakes _ (TypeStore.mem_of_lookup hlookup)
  refine ⟨front, back, hcall, ?_⟩
  cases hpassing with
  | plain kind static => simpa [htakes.method kind, static] using hargs
  | receiver kind static known base =>
    rw [htakes.method kind, static]
    exact .cons (converts_base hu hbounds known (hreceiver _ (by simp [hcall])) base) (by simpa using hargs)
  | @mark e kind form =>
    obtain ⟨mark, hparams⟩ := htakes.constructor kind
    have hnull : st.exprType e = .null := by simp [exprType, form]
    have hreference : u.types.isReference mark := hmark kind mark (by simp [hparams])
    rw [hparams]
    simpa [hnull] using List.rel_append hargs (.cons (hu.types.invocationConverts_null hreference) .nil)

/-- Arguments convert to what a stand-in takes when they convert to what the method takes that
it stands in for. -/
theorem Replaces.converts (hu : u.WellFormed) (hbounds : u.types.ReferenceBounds) {env : Env} {id c : MethodId} (h : u.Replaces env id c)
    {args : List TypeId} (hargs : Forall₂ (fun a p => u.types.invocationConverts a p = true) args (u.method id).params) :
    Forall₂ (fun a p => u.types.invocationConverts a p = true) args (u.method c).params := by
  have hsame : (u.method id).params.map u.types.erased = (u.method c).params.map u.types.erased := by
    have h := h.same
    simp only [sameSignature, Bool.and_eq_true, decide_eq_true_eq] at h
    exact h.2
  have hlength : (u.method id).params.length = (u.method c).params.length := by simpa using congrArg List.length hsame
  refine List.forall₂_iff_get.mpr ⟨hargs.length_eq.trans hlength, fun k hk hk' => ?_⟩
  have hk₁ : k < ((u.method id).params.map u.types.erased).length := by simpa [hlength] using hk'
  have herased := List.getElem_of_eq hsame hk₁
  rw [List.getElem_map, List.getElem_map] at herased
  exact hu.types.invocationConverts_of_sameErasure hbounds herased (hargs.get hk _)

end Universe

/-! ## Along a run

The accessor of a call is made at its turn or before it, and goes on to take what it took.
-/

namespace Session

variable {st : Session}

/-- The call of an accessor that takes the place of a bound call stands in for it in every
later session. -/
theorem Turn.standsIn (t : Turn st) (h : Fresh st) (hloaded : st.begun.world.Populated) {m : Nat} (hm : t.place < m) {site : Site}
    (hsite : (st.begun.before m).program.site? t.id = some site) (hbound : site.result.IsBound) {call : LoweredCall}
    (hcall : call ∈ site.result.lowered) (haccessor : ((st.begun.before m).world.method call.callable).flags.isAccessor) :
    site.result.anonymous = .none ∧
      (st.begun.before m).world.StandsIn t.start.receiverType site.call.kind site.args site.result.callable call := by
  obtain ⟨hsame, hruns, r, hr, hlater⟩ := t.later h hm hsite
  obtain ⟨hsound, hleads⟩ := t.sound h
  have hbinds := t.binds h hr hlater hbound
  have hmoves := (t.runsOn h hm).moves
  obtain ⟨hcallable, -, hanonymous, hlowered, -⟩ := hlater.kept
  rw [hsame]
  rw [hlowered] at hcall
  rw [hcallable, hanonymous]
  rcases hbinds.handsOn call hcall with ⟨hanonymous, hstands⟩ | ⟨heq, hctor⟩
  · exact ⟨hanonymous, hstands.moves (running.sound hleads hsound).1.world hruns.world hmoves hbinds.bound.resolved⟩
  · -- the constructor of an anonymous class is no accessor
    have hpopulated : t.outcome.2.world.Populated := by
      have hreached := (h.begun.reached (t.place + 1)).leads.2.moves
      rw [t.before_succ] at hreached
      exact hloaded.moves hreached
    have hdirect : (t.outcome.2.world.method r.callable).flags.isAccessor = false := hpopulated.listsDirect.constructors hctor
    rw [heq, (hruns.world.later hbinds.bound.resolved).flags, hdirect] at haccessor
    cases haccessor

/-- The class whose constructor is called is one of those that there were before the run: a
creation names one of these, and they inherit from these only. -/
theorem Turn.constructs_declared (t : Turn st) (h : Fresh st) (horderly : st.world.Orderly) {cls : TypeId}
    (hcls : Constructed t.start.world.types t.env t.site.call cls) : (st.world.types.classInfo? cls).isSome := by
  have hruns := (h.begun.reached t.place).leads.2
  have hs : st.world.types.WellFormed := h.wellFormed.world.types
  have kept {c : TypeId} (hc : st.world.types.Knows c) : t.start.world.types.classInfo? c = st.world.types.classInfo? c :=
    hruns.world.types.classInfo hs hc
  have hthis := h.this t.id t.env (List.mem_of_getElem? t.step)
  have hclass : t.start.world.types.classOf t.env.this = st.world.types.classOf t.env.this :=
    hruns.world.types.classOf (TypeStore.knows_of_isDeclared hthis)
  have hknown := hs.knows_classOf (TypeStore.knows_of_isDeclared hthis)
  cases hcall : t.site.call with
  | method name recv =>
    rw [hcall] at hcls
    cases hcls
  | new c outer body =>
    obtain ⟨site, hsite, hsame⟩ := hruns.program.of_site? t.found
    have hknows := (h.wellFormed.program.sites site (Program.mem_of_site? hsite)).call
    rw [show site.call = .new c outer body by rw [← hcall, hsame]] at hknows
    rw [hcall] at hcls
    cases hcls with
    | new found => rwa [kept hknows.1] at found
  | this =>
    rw [hcall] at hcls
    cases hcls
    rw [hclass, hs.classInfo?_classOf]
    exact Option.isSome_iff_exists.mpr (hs.exists_classInfo hthis)
  | super outer =>
    rw [hcall] at hcls
    cases hcls with
    | super found isSome =>
      rw [hclass, kept hknown] at found
      obtain ⟨slot, -, hslot⟩ := Option.bind_eq_some_iff.mp found
      exact horderly.supers _ (Array.mem_of_getElem? hslot) isSome

/-- A constructor that is called, and for which no anonymous class is made, lies below a
top-level class. So a class can be found that its accessors are marked with. -/
theorem Turn.owner_topLevel (t : Turn st) (h : Fresh st) (hloaded : st.begun.world.Populated) (hgenuine : st.world.Genuine)
    (horderly : st.world.Orderly) {m : Nat} (hm : t.place < m) {site : Site}
    (hsite : (st.begun.before m).program.site? t.id = some site) (hbound : site.result.IsBound)
    (hctor : site.call.isMethod = false) (hnone : site.result.anonymous = .none) :
    let u := (st.begun.before m).world
    u.types.TopLevel (u.types.outermost (u.method site.result.callable).owner) := by
  intro u
  obtain ⟨hsame, hruns, r, hr, hlater⟩ := t.later h hm hsite
  obtain ⟨hcallable, -, hanonymous, -⟩ := hlater.kept
  obtain ⟨hsound, hleads⟩ := t.sound h
  have hs : st.world.types.WellFormed := h.wellFormed.world.types
  rw [hsame] at hctor
  obtain ⟨cls, hcls, hmem⟩ := (t.binds h hr hlater hbound).constructs hctor
    ((h.begun.reached t.place).leads.2.world.genuine hgenuine) (hanonymous.symm.trans hnone)
  have hdeclared := t.constructs_declared h horderly hcls
  have hknows := TypeStore.knows_of_classInfo hdeclared
  -- What the class lists stays its constructor.
  have hbodies : t.outcome.2.world.SoundBodies := by
    have hmoves := (h.begun.reached (t.place + 1)).leads.2.moves
    rw [t.before_succ] at hmoves
    exact (hloaded.moves hmoves).soundBodies
  have hmoves := (t.runsOn h hm).moves
  have hconstructs := (hmoves.sameKinds hbodies).constructs (running.sound hleads hsound).1.world hmoves.types_extends
    (hbodies.constructs hmem)
  rw [← hcallable] at hconstructs
  -- The class was there from the beginning.
  have hloads (n : Nat) : st.world.types.Retains (st.begun.before n).world.types := (h.begun.reached n).leads.2.world.types.toRetains
  have hclass : u.types.classOf (u.method site.result.callable).owner = u.types.classOf cls := by
    rw [hconstructs.owner, ← t.before_succ, (hloads _).classOf hknows, (hloads m).classOf hknows]
  have houtermost : u.types.outermost (u.method site.result.callable).owner = u.types.outermost cls := by
    unfold TypeStore.outermost
    rw [hclass]
  rw [houtermost, (hloads m).outermost hs hknows, (hloads m).topLevel hs (hs.knows_outermost hknows)]
  exact horderly.nesting cls hdeclared

end Session

/-- In place of a resolved call whose arguments are accepted without type arguments and
without packing, an accessor is called with the arguments in order, and all that it is called
with converts to what it takes. This is so from the turn of the call on, whatever other calls
share the accessor, when the document is orderly and no array without dimensions is passed as
the receiver; and also when the universe that is reached has neither an odd bound nor such an
array at all, nor a constructor without a mark. -/
theorem rewrites_typed (d : Document) (f : Source.File) (base : Options) (t : Turn ((d.load f).session base)) {m : Nat}
    (hm : t.place < m) {site : Site} (hsite : (((d.load f).session base).begun.before m).program.site? t.id = some site)
    (hresolved : site.result.state = .resolved) (htypeArgs : appliedTypeArgs site = []) (hwrapped : site.result.wrapped = false)
    {call : LoweredCall} (hcall : site.result.lowered = some call) :
    let u := (((d.load f).session base).begun.before m).world
    (u.method call.callable).flags.isAccessor →
      (d.load f).world.Orderly ∧ (∀ e ∈ call.args.head?, u.types.Dimensioned (t.start.receiverType e)) ∨
        u.types.Regular ∧ u.MarksConstructors → u.PassesTyped t.start site.args call := by
  intro u haccessor hcases
  have hfresh := Loaded.fresh d f base
  have hloaded := Loaded.populated d f base
  have hleads := (hfresh.begun.reached m).leads
  have hu : u.WellFormed := (running.sound hleads ⟨hfresh.begun.wellFormed, hfresh.begun.numbered⟩).1.world
  have hpopulated : u.Populated := hloaded.moves hleads.2.moves
  obtain ⟨hanonymous, hstands⟩ := t.standsIn hfresh hloaded hm hsite (.inl hresolved) hcall haccessor
  -- In both cases nothing is odd about bounds, the receiver and the mark of this call.
  obtain ⟨hbounds, hreceiver, hmark⟩ : u.types.ErasableBounds ∧
      (∀ e ∈ call.args.head?, u.types.Dimensioned (t.start.receiverType e)) ∧
      (site.call.kind = .constructor → ∀ mark ∈ (u.method call.callable).params.getLast?, u.types.isReference mark) := by
    obtain ⟨key, front, back, hlookup, hkind, hmember, -⟩ := hstands
    have hmem := TypeStore.mem_of_lookup hlookup
    rcases hcases with ⟨horderly, hreceiver⟩ | ⟨hregular, hmarks⟩
    · have hproper : u.Proper := hleads.2.steps.proper (d.load_proper f horderly)
      refine ⟨hproper.types.erasableBounds, hreceiver, fun hctor => ?_⟩
      have hnone : site.call.isMethod = false := by simpa [Call.kind] using hctor
      refine (hproper.accessors _ hmem (hkind.trans hctor)).last ?_
      rw [hmember]
      exact t.owner_topLevel hfresh hloaded (d.load_genuine f) horderly hm hsite (.inl hresolved) hnone hanonymous
    · exact ⟨hregular.erasableBounds, fun _ _ => hregular.dimensioned _, fun hctor => hmarks _ hmem (hkind.trans hctor)⟩
  obtain ⟨id, hacc, htarget⟩ := (t.bound hfresh hm hsite (.inl hresolved)).selected hanonymous
  rw [htypeArgs, hwrapped] at hacc
  refine hstands.passesTyped hu hpopulated hbounds hreceiver hmark ?_
  rcases htarget with rfl | ⟨-, hreplaces⟩
  · exact hacc.converts
  · exact hreplaces.converts hu hbounds.reference hacc.converts

instance (s : TypeStore) (t : TypeId) : Decidable (s.Dimensioned t) :=
  decidable_of_iff ((match s.shape t with | .array _ 0 => false | _ => true) = true)
    ⟨fun h e he => by simp [he] at h, fun h => by
      split
      · exact absurd ‹_› (h _)
      · rfl⟩

/-- Whether an accessor is called in place of the call of a turn, resolved by then without
type arguments and without packing. -/
def Session.Turn.callsAccessor {st : Session} (t : Turn st) (m : Nat) (p : Universe → Site → LoweredCall → Bool) : Bool :=
  let u := (st.begun.before m).world
  ((st.begun.before m).program.site? t.id).any fun site =>
    decide (t.place < m ∧ site.result.state = .resolved ∧ appliedTypeArgs site = [] ∧ site.result.wrapped = false) &&
      site.result.lowered.any fun call => (u.method call.callable).flags.isAccessor && p u site call

/-- The accessor that is called in place of the call of such a turn. -/
theorem Session.Turn.exists_of_callsAccessor {st : Session} {t : Turn st} {m : Nat} {p : Universe → Site → LoweredCall → Bool}
    (h : t.callsAccessor m p) : ∃ site call, (st.begun.before m).program.site? t.id = some site ∧
      (t.place < m ∧ site.result.state = .resolved ∧ appliedTypeArgs site = [] ∧ site.result.wrapped = false) ∧
      site.result.lowered = some call ∧ ((st.begun.before m).world.method call.callable).flags.isAccessor ∧
      p (st.begun.before m).world site call := by
  obtain ⟨site, hsite, h⟩ := (Option.any_eq_true _ _).mp h
  obtain ⟨hbound, h⟩ := Bool.and_eq_true_iff.mp h
  obtain ⟨call, hcall, h⟩ := (Option.any_eq_true _ _).mp h
  obtain ⟨haccessor, h⟩ := Bool.and_eq_true_iff.mp h
  exact ⟨site, call, hsite, of_decide_eq_true hbound, hcall, haccessor, h⟩

theorem sharedAccessorsDocument_rewrites :
    let d := sharedAccessorsDocument.load blankFile
    let st := d.session {}
    d.world.Orderly ∧ (st.begun.before 4).world.accessorCount = 2 ∧
      ∀ place ∈ [0, 1, 2], (st.turnAt? place).any (fun t => decide (t.place = place) && t.callsAccessor 4 fun u _ call =>
        decide (∀ e ∈ call.args.head?, u.types.Dimensioned (t.start.receiverType e))) := by
  decide +kernel

/-- Two calls of a private method and the creation of an instance go through two accessors
that take what they are called with. -/
theorem sharedAccessors_typed :
    let st := (sharedAccessorsDocument.load blankFile).session {}
    (st.begun.before 4).world.accessorCount = 2 ∧
      ∀ place ∈ [0, 1, 2], ∃ (t : Turn st) (site : Site) (call : LoweredCall), t.place = place ∧
        (st.begun.before 4).program.site? t.id = some site ∧ site.result.lowered = some call ∧
          (st.begun.before 4).world.PassesTyped t.start site.args call := by
  intro st
  obtain ⟨horderly, hcount, hcalls⟩ := sharedAccessorsDocument_rewrites
  refine ⟨hcount, fun place hplace => ?_⟩
  obtain ⟨t, -, ht⟩ := (Option.any_eq_true _ _).mp (hcalls place hplace)
  obtain ⟨hsame, hcalls⟩ := Bool.and_eq_true_iff.mp ht
  obtain ⟨site, call, hsite, ⟨hm, hresolved, htypeArgs, hwrapped⟩, hcall, haccessor, hdims⟩ := Turn.exists_of_callsAccessor hcalls
  exact ⟨t, site, call, of_decide_eq_true hsame, hsite, hcall,
    rewrites_typed sharedAccessorsDocument blankFile {} t hm hsite hresolved htypeArgs hwrapped hcall haccessor
      (.inl ⟨horderly, of_decide_eq_true hdims⟩)⟩

/-- An abstract method for an `int`, a protected one of the same erasure for a type variable
that is bounded by `int`, and a call with an `int` that is bound to the second one in place of
the first. -/
def primitiveBoundDocument : Document where
  classes := [
    .mk { name := "p.A", access := "public", flags := ["abstract"], typeParams := ["T extends int"], methods := [
      { name := "m", params := ["int"], returns := "void", flags := ["abstract"] },
      { name := "m", params := ["T"], returns := "void", access := "protected", flags := ["abstract"] }] } [],
    .mk { name := "p.B", access := "public", flags := ["abstract"], super := "p.A" } [],
    .mk { name := "r.User", super := "p.B" } [.mk { name := "In" } []]]
  program := [{ id := "a", cls := "r.User.In", call := "m", receiver := some { type := "p.B" }, args := [{ type := "int" }] }]

theorem primitiveBoundDocument_rewrites :
    (((primitiveBoundDocument.load blankFile).session {}).turnAt? 0).any (fun t => t.callsAccessor 1 fun u site call =>
      site.args.any fun e => (u.method call.callable).params.all fun p =>
        !u.types.invocationConverts (t.start.exprType e) p) = true := by
  decide +kernel

/-- An accessor may be called with an argument that converts to none of its parameters. -/
theorem rewrite_untyped : ¬ ∀ (d : Document) (f : Source.File) (base : Options) (t : Turn ((d.load f).session base)) (m : Nat)
    (site : Site) (call : LoweredCall), t.place < m →
      (((d.load f).session base).begun.before m).program.site? t.id = some site → site.result.state = .resolved →
        appliedTypeArgs site = [] → site.result.wrapped = false → site.result.lowered = some call →
          let u := (((d.load f).session base).begun.before m).world
          (u.method call.callable).flags.isAccessor → u.PassesTyped t.start site.args call := by
  intro h
  obtain ⟨t, -, ht⟩ := (Option.any_eq_true _ _).mp primitiveBoundDocument_rewrites
  obtain ⟨site, call, hsite, ⟨hm, hresolved, htypeArgs, hwrapped⟩, hcall, haccessor, hrefused⟩ := Turn.exists_of_callsAccessor ht
  obtain ⟨front, back, -, hconverts⟩ := h _ _ _ t 1 site call hm hsite hresolved htypeArgs hwrapped hcall haccessor
  obtain ⟨e, he, hparams⟩ := List.any_eq_true.mp hrefused
  obtain ⟨k, hk, hplace⟩ := List.getElem_of_mem
    (show t.start.exprType e ∈ front.map t.start.receiverType ++ site.args.map t.start.exprType ++ back.map t.start.exprType by
      simpa using .inr (.inl ⟨e, he, rfl⟩))
  have hconverted := hconverts.get hk (hconverts.length_eq ▸ hk)
  have hnot := List.all_eq_true.mp hparams _ (List.getElem_mem (hconverts.length_eq ▸ hk))
  simp only [List.get_eq_getElem, hplace] at hconverted
  simp [hconverted] at hnot

/-- The bound is what the conditions on documents exclude. -/
example : ¬ (primitiveBoundDocument.load blankFile).world.types.Bounded := by
  decide +kernel

end CallResolution
