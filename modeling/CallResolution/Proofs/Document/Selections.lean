import CallResolution.Proofs.Document.Overloads
import CallResolution.Proofs.Members.Conflicts
import CallResolution.Proofs.Resolve.Masking

/-!
# What calls select

Both for methods and for constructors the enabled phases are tried in order. Something is
selected when and only when some callable that competes accepts the arguments in some enabled
phase; the first such phase is the recorded one, all that is selected accepts the arguments in
it, and a callable that is selected alone is more specific than every other one that does.

What competes is judged in the session that the selection leaves behind, where the signatures
of all callables have been processed. Which methods compete for a call by name alone is
decided by the innermost frame that sees the name, and by no other.

What a bound call was selected from is followed back to the universe that was loaded. The
steps before the call made tables and processed signatures, and both come out as they would
have at the start, unless a class was registered under a name that is tried for a text. What
the call is bound to is then recorded, and no later step takes it back.

Main statements: `selection_first_and_best` and `innermost_frame_decides`;
`later_call_searches_the_same` and `earlier_step_interferes`.
-/

namespace CallResolution

open Universe Session

/-- A selection among callables: it is made when and only when one of them accepts the
arguments in an enabled phase, and then in the first such phase and among the most specific.
-/
structure Universe.FirstAndBest (u : Universe) (phases : List Phase) (typeArgs args : List TypeId) (ids : List MethodId)
    (sel : Option Selection) : Prop where
  /-- Something is selected when and only when something accepts the arguments. -/
  found : sel.isSome ↔ ∃ ph ∈ phases, ∃ id ∈ ids, (u.acceptance typeArgs args ph id).isSome
  /-- What is selected. -/
  selects : ∀ s ∈ sel, u.Selects phases typeArgs args ids s

/-- What decides a selection makes it first and best. -/
theorem Universe.Decides.firstAndBest {u : Universe} {phases : List Phase} {typeArgs args : List TypeId} {ids : List MethodId}
    {sel : Option Selection} (h : u.Decides phases typeArgs args ids sel) : u.FirstAndBest phases typeArgs args ids sel where
  found := h.chooses.isSome_iff
  selects := by
    rintro s rfl
    exact h.chooses

/-- The overloads of a name, and the constructors of a class, compete after their signatures
were processed: methods when they are in reach or have conflicts, constructors when they are
in reach. What is selected among them is first and best. -/
theorem selection_first_and_best (st : Session) (hst : st.WellFormed) (env : Env) (henv : KnowsEnv st.world.types env)
    (site : Site) (htypes : ∀ t ∈ site.typeArgs, st.world.types.Knows t) (search : TypeId)
    (hsearch : st.world.types.Knows search) (q : Option Qualifier) (hq : KnowsQualifier st.world.types q)
    (shadows : List Shadow) (cls : TypeId) (isExplicit : Bool) (args : List TypeId) :
    (let r := selectMethod env site search q shadows args st;
      (∀ s ∈ shadows, (st.world.method? s.method).isSome → r.2.world.Processed s.method) ∧
        r.2.world.FirstAndBest st.options.source.phases site.typeArgs args
          ((shadows.filter (r.2.world.competes env search q)).map (·.method)) r.1) ∧
    (let r := selectCtor env cls args isExplicit st;
      (∀ id ∈ st.world.constructors cls, (st.world.method? id).isSome → r.2.world.Processed id) ∧
        r.2.world.FirstAndBest st.options.source.phases [] args
          ((st.world.constructors cls).filter (r.2.world.ctorCompetes env isExplicit)) r.1) := by
  constructor
  · obtain ⟨-, hmethods, hdecides⟩ := selectMethod_works henv htypes hsearch hq shadows hst
    exact ⟨hmethods, hdecides.firstAndBest⟩
  · obtain ⟨-, hctors, hdecides⟩ := selectCtor_works henv cls isExplicit hst
    exact ⟨hctors, hdecides.firstAndBest⟩

/-- A session on the predefined classes alone. -/
def predefinedSession : Session :=
  (({} : Document).load blankFile).session {}

/-- A call of `wait` for an `int` inside the root class, where the method has two overloads.
-/
def selectWait : SessionM (Option Selection) :=
  selectMethod ⟨[{ type := .object }]⟩ { id := 1, label := "", call := .method "wait" none } .object none
    [⟨⟨10⟩, []⟩, ⟨⟨11⟩, []⟩] [.ofPrimitive .int]

/-- Of the overloads of `wait` the one that takes a `long` is selected for an `int`, in the
first phase and as the best. -/
theorem selectWait_first_and_best : (selectWait predefinedSession).1 = some ⟨⟨11⟩, [], .strict, false⟩ ∧
    (selectWait predefinedSession).2.world.FirstAndBest predefinedSession.options.source.phases [] [.ofPrimitive .int]
      (([⟨⟨10⟩, []⟩, ⟨⟨11⟩, []⟩].filter ((selectWait predefinedSession).2.world.competes ⟨[{ type := .object }]⟩ .object none)).map
        (·.method)) (selectWait predefinedSession).1 := by
  have hst : predefinedSession.WellFormed := (Loaded.fresh _ _ _).wellFormed
  have hobject : predefinedSession.world.types.Knows .object := hst.world.types.knows_predefined (by decide)
  have henv : KnowsEnv predefinedSession.world.types ⟨[{ type := .object }]⟩ := by
    intro f hf
    rw [List.mem_singleton.mp hf]
    exact hobject
  have hbest := selection_first_and_best predefinedSession hst _ henv { id := 1, label := "", call := .method "wait" none }
    (fun t ht => nomatch ht) .object hobject none (fun q hq => nomatch hq) [⟨⟨10⟩, []⟩, ⟨⟨11⟩, []⟩] .object false
    [.ofPrimitive .int]
  refine ⟨by decide +kernel, ?_⟩
  unfold selectWait
  exact hbest.1.2

/-- No overload of `wait` takes a truth value. -/
example :
    (selectMethod ⟨[{ type := .object }]⟩ { id := 1, label := "", call := .method "wait" none } .object none
      [⟨⟨10⟩, []⟩, ⟨⟨11⟩, []⟩] [.ofPrimitive .boolean] predefinedSession).1 = none := by
  decide +kernel

/-! ## Calls by name alone

The frames around the call, of which the innermost that sees the name decides.
-/

/-- A call by name alone is decided by the innermost frame that sees the name, and static
imports are searched when no frame does. A frame whose type has no table from the start stops
the search, and the call fails without a report. -/
theorem innermost_frame_decides (st : Session) (hst : st.WellFormed) (env : Env) (henv : KnowsEnv st.world.types env)
    (site : Site) (hsite : KnowsArgs st.world.types site) (name : String) (args : List TypeId)
    (hargs : ∀ t ∈ args, st.world.types.Knows t) :
    let out := (resolveUnqualified env site name args).run st
    (∃ i f shadows, Masked st env site name args i f shadows out) ∨
    (out.2.world.Blank name env.frames env.frames.length ∧
      ∃ st₁, Quiet st st₁ ∧ out = (resolveImported env site name args).run st₁) ∨
    ∃ i f e, env.frames[i]? = some f ∧ out.2.world.Blank name env.frames i ∧ st.world.Tableless f.type ∧
      out.1 = .error e ∧ e.code = none ∧ IgnoresProgram st env site name args out := by
  have hf := knowsFrames_zipIdx henv
  obtain ⟨r, st₁, hsearch⟩ : ∃ r st₁, selectLexically env site name args env.frames.zipIdx st = (r, st₁) := ⟨_, _, rfl⟩
  obtain ⟨hst₁, hquiet, hfound⟩ := selectLexically_found hst henv hsite hsearch
  have hrun := resolveUnqualified_run hsearch
  dsimp only
  match r with
  | .ok (some (i, f, shadows, none)) => exact .inl ⟨i, f, shadows, masked_of_none hst henv hsite hargs hsearch⟩
  | .ok (some (i, f, shadows, some sel)) => exact .inl ⟨i, f, shadows, masked_of_some hst henv hsite hargs hsearch⟩
  | .ok none =>
    refine .inr (.inl ⟨fun i hi f hframe => ?_, st₁, hquiet, hrun⟩)
    have hg := hquiet.world.types.toGrows
    have hblank : ∀ f ∈ env.frames, st₁.world.listed f.type name = some [] := forall_frame hfound
    have himported : Tries (resolving site.id) (resolveImported env site name args) st₁ _ _ :=
      resolveImported_tries (henv.grows hg) (hsite.grows hg) name (fun t ht => hg.knows (hargs t ht)) hblank st.receiverType
    have hmem : (f, i) ∈ env.frames.zipIdx := List.mem_zipIdx_iff_getElem?.mpr hframe
    have hkeeps := (himported hst₁).1.2.world
    rw [hrun]
    exact hkeeps.listed (hg.knows (hf _ hmem)) (hfound _ hmem)
  | .error e =>
    have hignores := resolveUnqualified_ignores hsearch (by simp)
    obtain ⟨inner, p, outer, heq, hinner, hnone⟩ := hfound
    rw [hrun] at hignores ⊢
    refine .inr (.inr ⟨inner.length, p.1, _, (getElem?_of_zipIdx_eq heq).2, blank_of_zipIdx_eq heq hinner, ?_, rfl, rfl, hignores⟩)
    exact (hquiet.world.tableless_iff (hf p (by simp [heq]))).mp hnone

/-- A call of `valueOf` for a truth value, in the class of boxed integers inside the class of
strings. -/
def callValueOf : ResolveM Resolution :=
  resolveUnqualified ⟨[{ type := .boxOf .int }, { type := .string }]⟩ { id := 1, label := "", call := .method "valueOf" none }
    "valueOf" [.ofPrimitive .boolean]

/-- Boxed integers have methods of the name, so those of strings are masked although one of
them accepts the argument. -/
theorem callValueOf_masked :
    (callValueOf.run predefinedSession).1 = .error { kind := .notFound, code := some .hiddenByEnclosing, site := 1 } ∧
      ∃ i f shadows, Masked predefinedSession ⟨[{ type := .boxOf .int }, { type := .string }]⟩
        { id := 1, label := "", call := .method "valueOf" none } "valueOf" [.ofPrimitive .boolean] i f shadows
        (callValueOf.run predefinedSession) := by
  have hst : predefinedSession.WellFormed := (Loaded.fresh _ _ _).wellFormed
  have hknown {t : TypeId} (ht : t ∈ [.boxOf .int, .string, .ofPrimitive .boolean]) : predefinedSession.world.types.Knows t :=
    hst.world.types.knows_predefined (by revert t; decide)
  have henv : KnowsEnv predefinedSession.world.types ⟨[{ type := .boxOf .int }, { type := .string }]⟩ := by
    intro f hf
    rcases List.mem_cons.mp hf with rfl | hf
    · exact hknown (by simp)
    · rw [List.mem_singleton.mp hf]
      exact hknown (by simp)
  have hsite : KnowsArgs predefinedSession.world.types { id := 1, label := "", call := .method "valueOf" none } :=
    ⟨by simp, by simp⟩
  have hargs (t : TypeId) (ht : t ∈ [.ofPrimitive .boolean]) : predefinedSession.world.types.Knows t := by
    rw [List.mem_singleton.mp ht]
    exact hknown (by simp)
  have hdecides := innermost_frame_decides predefinedSession hst _ henv _ hsite "valueOf" _ hargs
  have hfailed : (callValueOf.run predefinedSession).1 =
      .error { kind := .notFound, code := some .hiddenByEnclosing, site := 1 } := by decide +kernel
  have hseen : (callValueOf.run predefinedSession).2.world.listed (.boxOf .int) "valueOf" ≠ some [] := by decide +kernel
  refine ⟨hfailed, ?_⟩
  unfold callValueOf at *
  rcases hdecides with h | ⟨hblank, -⟩ | ⟨-, -, e, -, -, -, herror, hcode, -⟩
  · exact h
  · exact absurd (hblank 0 (by decide) _ rfl) hseen
  · rw [← Except.error.inj (hfailed.symm.trans herror)] at hcode
    cases hcode

/-! ## Calls after other steps

A call is looked at after the steps in front of it, and asks for what was loaded.
-/

open Session Universe

/-- A method call that is bound after any steps selects among the overloads that the freshly
loaded universe lists for the class that it searches, when this was loaded, and they have the
signatures that they have there: unless a class was registered meanwhile under a qualified
name that is tried for a name in the text of a signature. What is recorded of the call then,
no later step takes back. -/
theorem later_call_searches_the_same (d : Document) (f : Source.File) (base : Options) (t : Turn ((d.load f).session base)) {m : Nat}
    (hm : t.place < m) {site : Site} (hsite : (((d.load f).session base).begun.before m).program.site? t.id = some site)
    (hbound : site.result.IsBound) {name : String} {recv : Option Expr} (hcall : site.call = .method name recv)
    (hfree : ∀ id, (d.load f).world.Has id → (d.load f).world.Undisturbed (((d.load f).session base).begun.before m).world id) :
    let loaded := (d.load f).world
    let u := (((d.load f).session base).begun.before m).world
    (∃ search on q shadows id, CalledOn t.start u t.env name recv search on q ∧
      u.SelectedFrom t.env site.typeArgs (site.args.map t.start.exprType) search (recv.map t.start.qualifierOf) name shadows
        site.result.phase site.result.wrapped id ∧
      u.BoundFor t.env search (recv.map t.start.qualifierOf) shadows id site.result.callable ∧
      ((loaded.types.shape (u.types.classOf search)).isDeclared → ¬ u.types.isArray search →
        let first := (memberTable (u.types.classOf search) loaded).2
        shadows = (first.inherited first.tableFuel (u.types.classOf search)).overloads name ∧
          ∀ s ∈ shadows, u.signatureOutcome s.method = loaded.signatureOutcome s.method)) ∧
      ∃ r, t.outcome.2.program.site? t.id = some { site with result := r } ∧ r.Later site.result := by
  intro loaded u
  obtain ⟨hloaded, hnested, -⟩ := d.load_drafted f
  have hfresh := Loaded.fresh d f base
  have hleads := (hfresh.begun.reached m).leads
  have hkeeps : loaded.Keeps u := hleads.2.world
  have hu : u.WellFormed := (running.sound hleads ⟨hfresh.begun.wellFormed, hfresh.begun.numbered⟩).1.world
  obtain ⟨hcomplete, hlists⟩ := hleads.2.steps.complete (d.load_complete f)
  obtain ⟨search, on, q, hcalled, shadows, id, hselected, hboundFor⟩ := t.picks hfresh hm hsite hbound hcall
  refine ⟨⟨search, on, q, shadows, id, hcalled, hselected, hboundFor, fun hcls hclass => ?_⟩, ?_⟩
  · obtain ⟨harray, -⟩ | ⟨-, table, hbuilt, rfl⟩ := cases_of_listed hu hselected.listed
    · exact absurd harray hclass
    · obtain ⟨halike, hhas⟩ := Document.inherited_alike hkeeps hu hcomplete hlists hfree hcls hbuilt
      refine ⟨halike.overloads name, fun s hs => ?_⟩
      have hid := hhas.overloads hs
      exact hkeeps.signatureOutcome hloaded hnested hu hid (hfree _ hid)
  · obtain ⟨hsame, -, r, hprogram, hlater⟩ := t.later hfresh hm hsite
    refine ⟨r, ?_, hlater⟩
    rw [t.site?_outcome hfresh hprogram, hsame]

/-- What the document comes to when the local class is not the first one: the anonymous class
disturbs no signature of the call of `m` that comes after it. -/
theorem orderDocument_calls :
    let loaded := ((orderDocument "p.A$2").load blankFile).world
    let st := ((orderDocument "p.A$2").load blankFile).session {}
    ((st.begun.before 3).world.types.names.filter fun p => ¬ loaded.types.Knows p.2).map (·.1) = ["p.A$1"] ∧
      (st.turnAt? 2).any fun t => t.place = 2 ∧ ((st.begun.before 3).program.site? t.id).any fun site =>
        site.result.state = .resolved ∧ site.call.isMethod := by
  decide +kernel

/-- The call after the creation of an anonymous class selects among the overloads that are
there without it. -/
theorem later_call_undisturbed :
    let st := ((orderDocument "p.A$2").load blankFile).session {}
    ∃ (t : Turn st) (site : Site) (name : String) (recv : Option Expr) (search : TypeId) (shadows : List Shadow) (id : MethodId),
      t.place = 2 ∧ (st.begun.before 3).program.site? t.id = some site ∧ site.call = .method name recv ∧
        (st.begun.before 3).world.SelectedFrom t.env site.typeArgs (site.args.map t.start.exprType) search
          (recv.map t.start.qualifierOf) name shadows site.result.phase site.result.wrapped id := by
  obtain ⟨hnames, hcall⟩ := orderDocument_calls
  obtain ⟨-, hfree, -⟩ := orderDocument_kept
  obtain ⟨t, -, h⟩ := (Option.any_eq_true _ _).mp hcall
  obtain ⟨hplace, h⟩ := of_decide_eq_true h
  obtain ⟨site, hsite, h⟩ := (Option.any_eq_true _ _).mp h
  obtain ⟨hstate, hmethod⟩ := of_decide_eq_true h
  obtain ⟨name, recv, hcall⟩ := Call.exists_of_isMethod hmethod
  obtain ⟨⟨search, -, -, shadows, id, -, hselected, -⟩, -⟩ :=
    later_call_searches_the_same (orderDocument "p.A$2") blankFile {} t (m := 3) (by omega) hsite (.inl hstate) hcall
      fun _ hid => undisturbed_of_names hnames hfree hid
  exact ⟨t, site, name, recv, search, shadows, id, hplace, hsite, hcall, hselected⟩

/-- The creation of an anonymous class, and then a call of a method whose parameter type is a
class with the name that the anonymous class gets. Alone the call finds the class of the
document under that name. -/
def interferingDocument : Document where
  classes := [
    .mk { name := "p.A" } [],
    .mk { name := "p.A$1" } [],
    .mk { name := "p.B", methods := [{ name := "m", params := ["p.A$1"], returns := "void" }] } []]
  program := [
    { id := "n", cls := "p.A", new := "Object", body := some {} },
    { id := "b", cls := "p.B", call := "m", receiver := some { type := "p.B" }, args := [{ type := "p.A$1" }] }]

/-- The session that a call of a program leads to when it is the first one to be resolved. The
other steps of the program are left out. -/
def Session.Turn.alone {st : Session} (t : Turn st) : Session :=
  (runStep (.call t.id t.env) st.begun).2

/-- Whether a call is a method call with no value of another call as its receiver or as an
argument. -/
def Site.standsAlone (site : Site) : Bool :=
  match site.call with
  | .method _ recv => (recv.toList ++ site.args).all fun e => match e.form with
    | .call _ => false
    | _ => true
  | _ => false

/-- Whether a method call fails at its turn that is resolved when it comes first. -/
def Session.Turn.interferedWith {st : Session} (t : Turn st) : Bool :=
  t.site.standsAlone && (t.outcome.2.program.site? t.id).any fun site => (t.alone.program.site? t.id).any fun site' =>
    site.result.state = .failed ∧ site'.result.state = .resolved

theorem interferingDocument_interferes :
    (((interferingDocument.load blankFile).session {}).turnAt? 1).any (·.interferedWith) = true := by
  decide +kernel

theorem interferingDocument_denotes :
    ∀ i ∈ List.range (interferingDocument.load blankFile).world.methods.size,
      ((interferingDocument.load blankFile).world.signatureOutcome ⟨i + 1⟩).isSome := by
  decide +kernel

/-- What becomes of a method call may depend on the steps before it, although the texts of all
signatures name classes that were loaded. The call fails at its turn and is resolved alone. -/
theorem earlier_step_interferes : ¬ ∀ (d : Document) (f : Source.File) (base : Options) (t : Turn ((d.load f).session base))
    (site site' : Site), (∀ id, (d.load f).world.Has id → ((d.load f).world.signatureOutcome id).isSome) → t.site.standsAlone →
      t.outcome.2.program.site? t.id = some site → t.alone.program.site? t.id = some site' →
        site.result.state = site'.result.state := by
  intro h
  obtain ⟨t, -, ht⟩ := (Option.any_eq_true _ _).mp interferingDocument_interferes
  obtain ⟨halone, ht⟩ := Bool.and_eq_true_iff.mp ht
  obtain ⟨site, hsite, ht⟩ := (Option.any_eq_true _ _).mp ht
  obtain ⟨site', hsite', ht⟩ := (Option.any_eq_true _ _).mp ht
  obtain ⟨hfailed, hresolved⟩ := of_decide_eq_true ht
  have hdenotes (id : MethodId) (hid : (interferingDocument.load blankFile).world.Has id) :=
    forall_has_of_range (P := fun id => ((interferingDocument.load blankFile).world.signatureOutcome id).isSome)
      interferingDocument_denotes hid
  have hstates := h _ _ _ t site site' hdenotes halone hsite hsite'
  rw [hfailed, hresolved] at hstates
  cases hstates

end CallResolution
