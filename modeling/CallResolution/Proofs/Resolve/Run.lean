import CallResolution.Proofs.Resolve.Creation
import CallResolution.Resolve.Run

/-!
# Runs of programs

A step of a program keeps what the universe has and changes nothing of the program but what
became of its sites. `running` is the evolution of whole runs; every session on the way is
well formed, and its sites are numbered by their places.

There are two kinds of step, and one statement about each, from which all that is known of a
step is derived.

* `resolve_works`: the step of a call `Resolves` it. `resolveCall_tries` puts together what is
  known of the four kinds of calls, so a call is bound (`Binds`: what it is bound to, how that
  was found, what it passes and waits for, what takes its place, and the enclosing instances
  that it needs) or refused (`Declines`: what is reported, why that is so, and what is left).
  Around it the outcome is recorded and noted in the trace, which touches nothing that these
  speak of: `Binds.congr` and its kind say what they depend on.
* `complete_works`: the step that completes a class `Completes` it. The calls that wait for it
  are released one after another, and `Refills` says what each gets; it composes although the
  universe moves on in between, because the captures of a finished class stay.

What a site holds is followed over later steps by `Later`: a bound call may stop waiting and
get arguments, and nothing else changes. `Orderly` is the invariant that carries this, since
only bound calls wait themselves. `Bound.keeps`, `Bound.later` and the statements beside them
say that what was known of a call at its turn stays so; the run itself is the subject of the
next module.
-/

namespace CallResolution

open Universe

/-! ## Sites and their results

The sites of a program are found by their numbers, and only what became of them changes in a
run. `SameCalls` says so of two programs. Everything that a statement reads of a call at its
turn is then read of the document as well.
-/

namespace Program

variable {p p' p'' : Program}

/-- Every site has the number of its place. So what is recorded under a number is recorded at
the site that has it. -/
def Numbered (p : Program) : Prop :=
  ∀ id site, p.site? id = some site → site.id = id

/-- Two programs that differ only in what became of their sites. A session that runs keeps its
program up to this, so the site of a step is the one that was loaded, however many steps came
before. -/
structure SameCalls (p p' : Program) : Prop where
  /-- The path stays. -/
  path : p'.path = p.path
  /-- The steps stay. -/
  steps : p'.steps = p.steps
  /-- The imports of single members stay. -/
  singleImports : p'.singleImports = p.singleImports
  /-- The imports of classes stay. -/
  classImports : p'.classImports = p.classImports
  /-- The number of sites stays. -/
  size : p'.sites.size = p.sites.size
  /-- The sites stay, apart from their results. -/
  sites : ∀ id site, p.site? id = some site → ∃ result, p'.site? id = some { site with result }

theorem SameCalls.refl (p : Program) : SameCalls p p :=
  ⟨rfl, rfl, rfl, rfl, rfl, fun _ site h => ⟨site.result, h⟩⟩

theorem SameCalls.trans (h : SameCalls p p') (h' : SameCalls p' p'') : SameCalls p p'' where
  path := h'.path.trans h.path
  steps := h'.steps.trans h.steps
  singleImports := h'.singleImports.trans h.singleImports
  classImports := h'.classImports.trans h.classImports
  size := h'.size.trans h.size
  sites id site hsite := by
    obtain ⟨r, hr⟩ := h.sites id site hsite
    obtain ⟨r', hr'⟩ := h'.sites id _ hr
    exact ⟨r', hr'⟩

/-- A number has a site in both programs or in neither. -/
theorem SameCalls.site?_isSome (h : SameCalls p p') (id : SiteId) : (p'.site? id).isSome = (p.site? id).isSome := by
  unfold site?
  split
  · rfl
  · rw [Bool.eq_iff_iff, Option.isSome_iff_ne_none, Option.isSome_iff_ne_none]
    simp [h.size]

/-- A site of the later program is one of the earlier, apart from its result. -/
theorem SameCalls.of_site? (h : SameCalls p p') {id : SiteId} {site' : Site} (hsite : p'.site? id = some site') :
    ∃ site, p.site? id = some site ∧ site' = { site with result := site'.result } := by
  have hsome : (p.site? id).isSome := by
    rw [← h.site?_isSome, hsite]
    rfl
  obtain ⟨site, hs⟩ := Option.isSome_iff_exists.mp hsome
  obtain ⟨r, hr⟩ := h.sites id site hs
  cases hsite.symm.trans hr
  exact ⟨site, hs, rfl⟩

/-- What became of one site is recorded, and that of the others stays. -/
theorem site?_setResult {id : Nat} (hid : id ≠ 0) (r : Resolution) (id' : Nat) :
    (p.setResult id r).site? id' = if id' = id then (p.site? id').map ({ · with result := r }) else p.site? id' := by
  unfold site? setResult
  by_cases h0 : id' = 0
  · simp [h0, hid.symm]
  · simp only [h0, if_false, Array.getElem?_modify]
    by_cases h : id' = id
    · simp [h]
    · have : id - 1 ≠ id' - 1 := by omega
      simp [h, this]

/-- A site that is there has a number. -/
theorem ne_zero_of_site? {id : SiteId} {site : Site} (h : p.site? id = some site) : id ≠ 0 := by
  rintro rfl
  simp [site?] at h

/-- Recording a result leaves the calls alone. -/
theorem sameCalls_setResult {id : SiteId} (hid : id ≠ 0) (r : Resolution) : SameCalls p (p.setResult id r) := by
  refine ⟨rfl, rfl, rfl, rfl, by simp [setResult], fun id' site h => ?_⟩
  rw [site?_setResult hid]
  split
  · exact ⟨r, by simp [h]⟩
  · exact ⟨site.result, h⟩

/-- Numbers stay. -/
theorem Numbered.sameCalls (hp : p.Numbered) (h : SameCalls p p') : p'.Numbered := by
  intro id site' hsite
  obtain ⟨site, hs, heq⟩ := h.of_site? hsite
  rw [heq]
  exact hp id site hs

/-- A site is found by its number when and only when it is one of the sites. -/
theorem exists_site? {site : Site} (h : site ∈ p.sites) : ∃ id, p.site? id = some site := by
  obtain ⟨i, hi, rfl⟩ := Array.mem_iff_getElem.mp h
  exact ⟨i + 1, by simp [site?, Array.getElem?_eq_getElem hi]⟩

end Program

/-- A program whose calls mention known types, with results of known types. -/
theorem KnowsProgram.sameCalls {s : TypeStore} {p p' : Program} (hp : KnowsProgram s p) (h : p.SameCalls p')
    (results : ∀ id site, p'.site? id = some site → s.Knows site.result.type) : KnowsProgram s p' where
  sites site' hmem := by
    obtain ⟨id, hid⟩ := Program.exists_site? hmem
    obtain ⟨site, hs, heq⟩ := h.of_site? hid
    have hknown := hp.sites site (Program.mem_of_site? hs)
    rw [heq]
    exact ⟨⟨hknown.typeArgs, hknown.args⟩, hknown.call⟩
  results site hmem := by
    obtain ⟨id, hid⟩ := Program.exists_site? hmem
    exact results id site hid
  steps := h.steps ▸ hp.steps
  singleImports := h.singleImports ▸ hp.singleImports
  classImports := h.classImports ▸ hp.classImports

/-- Whether a call is that of a method. -/
def Call.isMethod : Call → Bool
  | .method _ _ => true
  | _ => false

/-- The kind of callable that is called. -/
def Call.kind (c : Call) : CallableKind :=
  if c.isMethod then .method else .constructor

/-- The name and the receiver of a method call. -/
theorem Call.exists_of_isMethod {c : Call} (h : c.isMethod) : ∃ name recv, c = .method name recv := by
  cases c with
  | method name recv => exact ⟨name, recv, rfl⟩
  | _ => cases h

/-- The body of the anonymous class that a call makes. -/
def Call.body? : Call → Option AnonymousBody
  | .new _ _ body => body
  | _ => none

namespace Session

variable {st st' st'' : Session}

/-! ## The evolution of runs

A run is an evolution of sessions in the sense of `Evolution`, as the binding of a single call
is. The two differ in what they keep: a call that is being bound leaves the program alone, and
a run records outcomes in it.
-/

/-- The program of a session is run: the universe keeps what it has, and the program its
calls. The calls that wait are left open, since completing a class lets them go. -/
structure Runs (st st' : Session) : Prop where
  /-- The universe keeps what it has. -/
  world : st.world.Keeps st'.world
  /-- The options stay. -/
  options : st'.options = st.options
  /-- The calls stay. -/
  program : st.program.SameCalls st'.program

theorem Runs.trans (h : Runs st st') (h' : Runs st' st'') : Runs st st'' :=
  ⟨h.world.trans h'.world, h'.options.trans h.options, h.program.trans h'.program⟩

/-- The program of a session is run by moves of its universe. All bodies may be finished on
the way: those of local classes by completions, and those of anonymous classes when these are
made. -/
structure RunsOn (st st' : Session) : Prop extends Runs st st' where
  /-- The moves of the universe. -/
  moves : Moves anything st.world st'.world
  /-- Tables are made one after another. -/
  steps : TableSteps st.world st'.world

/-- Well-formed sessions whose sites are numbered, which run. The moves of the universe are
kept beside what the session keeps, because some invariants of universes are known for moves
only. -/
def running : Evolution Session where
  Sound st := st.WellFormed ∧ st.program.Numbered
  Leads st st' := (st.WellFormed ∧ st.program.Numbered → st'.WellFormed ∧ st'.program.Numbered) ∧ RunsOn st st'
  refl _ := ⟨id, ⟨.refl _, rfl, .refl _⟩, .refl, .refl⟩
  trans h h' := ⟨fun hs => h'.1 (h.1 hs), h.2.toRuns.trans h'.2.toRuns, h.2.moves.trans h'.2.moves, h.2.steps.trans h'.2.steps⟩
  sound h := h.1

/-- Binding a call is part of running a program. -/
theorem works_of_resolving {α : Type} {id : SiteId} {x : SessionM α} {P : α → Session → Prop}
    (h : Works (resolving id) x st P) : Works running x st fun a st' => P a st' ∧ MovesOn id st st' := by
  have hwide : Works running x st fun a st' => P a st' ∧ (resolving id).Leads st st' :=
    h.widen (fun hs => hs.1) fun hl =>
      ⟨fun hs => ⟨hl.1 hs.1, hl.2.program ▸ hs.2⟩, ⟨hl.2.world, hl.2.options, hl.2.program ▸ .refl _⟩, hl.2.moves.toAnything, hl.2.steps⟩
  exact hwide.mono fun _ _ _ _ h => ⟨h.1, h.2.2⟩

/-- A step on the universe that may finish bodies is part of running a program. -/
theorem onUniverse_runs {α : Type} {x : UniverseM α} {P : α → Universe → Prop}
    (h : Works (finishing anything) x st.world P) :
    Works running (onUniverse x) st fun a st' => P a st'.world ∧ st' = { st with world := st'.world } := by
  intro hst
  obtain ⟨⟨hw, hk⟩, hp⟩ := h hst.1.world
  refine ⟨⟨fun _ => ⟨?_, hst.2⟩, ⟨hk.toKeeps, rfl, .refl _⟩, hk.moves, hk.steps⟩, hp, rfl⟩
  exact hst.1.world_only hk.toKeeps (hw hst.1.world) rfl rfl

/-- What became of a site is recorded. -/
theorem setResult_works {id : SiteId} {site : Site} (hsite : st.program.site? id = some site) {r : Resolution}
    (hr : st.world.types.Knows r.type) :
    Works running (setResult id r) st fun _ st' => st' = { st with program := st.program.setResult id r } := by
  have hid := Program.ne_zero_of_site? hsite
  have hsame : st.program.SameCalls (st.program.setResult id r) := Program.sameCalls_setResult hid r
  refine Works.change ⟨fun hs => ⟨⟨hs.1.world, ?_, hs.1.waiting⟩, hs.2.sameCalls hsame⟩, ⟨.refl _, rfl, hsame⟩, .refl, .refl⟩ rfl
  refine hs.1.program.sameCalls hsame fun id' site' h => ?_
  rw [Program.site?_setResult hid] at h
  split at h
  · obtain ⟨site₀, -, rfl⟩ := Option.map_eq_some_iff.mp h
    exact hr
  · exact hs.1.program.results site' (Program.mem_of_site? h)

/-! ## Calls

The step of a call. The four kinds of calls have statements of their own, with different
conditions on the body of a class, the enclosing instance and what is passed on. `Binds` asks
each of them of the kinds that have it, so that later modules speak of one structure.
-/

/-- The explicit type arguments that the parameters of what is called are instantiated with:
constructors take none. -/
def appliedTypeArgs (site : Site) : List TypeId :=
  match site.call with
  | .method _ _ => site.typeArgs
  | _ => []

/-- Calls other than those of methods have no type arguments that count. -/
theorem appliedTypeArgs_of_not_isMethod {site : Site} (h : site.call.isMethod = false) : appliedTypeArgs site = [] := by
  unfold appliedTypeArgs
  split
  · rename_i name recv hcall
    rw [hcall] at h
    cases h
  · rfl

/-- What is reported about the selection for a call before the call may still be refused.
Explicit constructor calls are never refused after a selection, so there is nothing for them.
-/
def callCodes (env : Env) (site : Site) : SessionM (List Code) := do
  let args := site.args.map (← get).exprType
  match site.call with
  | .method name recv => return selectionCodes .ambiguousMethod (← methodSelection env site name recv args)
  | .new cls _ body => creationCodes env cls body args
  | _ => return []

/-- A bound method call passes nothing for captures, and does not wait. -/
theorem BoundMethod.supplied {env : Env} {site : Site} {typeOf : Expr → TypeId} {args : List TypeId} {r : Resolution} {id : SiteId}
    (h : BoundMethod env site typeOf args r st'.world) (hs : st'.world.SoundBodies) (hwaits : OnlySuperWaits st st') :
    Supplied id r st st' :=
  (Supplied.of_passes h.settled (.method (hs.methods _ h.listed)) h.lowers).after hwaits

/-- A call that is bound: what it is bound to and how it was found, what it passes, and the
enclosing instances that it needs. All of it compares the session before the call with that
right behind it, whichever kind of call it is; what only some kinds have is asked of those. -/
structure Binds (env : Env) (site : Site) (st : Session) (r : Resolution) (st' : Session) : Prop where
  /-- What the call is bound to. -/
  bound : Bound env site.call.isMethod (appliedTypeArgs site) (site.args.map st.exprType) r st'.world
  /-- What it passes for captures, or what it waits for. -/
  supplied : st.world.SoundBodies → Supplied site.id r st st'
  /-- How a method call gets its callable from what the type lists that is searched for it. -/
  picks : ∀ name recv, site.call = .method name recv → ∃ x t q, CalledOn st st'.world env name recv x t q ∧
    st'.world.Picks env site.typeArgs (site.args.map st.exprType) x (recv.map st.qualifierOf) name r
  /-- How the type of a method call comes about. -/
  typed : ∀ name recv, site.call = .method name recv → ∃ u₀ x t q,
    TypesCall u₀ st'.world site (site.args.map st.exprType) r name x t q ∧ CalledOn st st'.world env name recv x t q
  /-- What takes its place hands the arguments on. -/
  handsOn : HandsOn st'.world st.receiverType site.call.kind site.args r
  /-- What a creation needs and makes. -/
  creates : ∀ cls outer body, site.call = .new cls outer body → Creates env site cls outer body st r st'
  /-- The enclosing instance that the call of a superclass constructor needs. -/
  chains : ∀ outer, site.call = .super outer → ∀ info,
    st.world.types.classInfo? (st.world.types.classOf env.this) = some info →
      HasInstance st info.super (env.frames.drop 1) outer
  /-- The class whose constructor is called, unless an anonymous class is made for the call.
  -/
  constructs : site.call.isMethod = false → st.world.Genuine → r.anonymous = .none →
    ∃ cls, Constructed st.world.types env site.call cls ∧ r.callable ∈ st'.world.constructors cls

/-- A call that is refused: what is reported, what the report says of other methods, and what
is left. The earlier reports are a parameter; they count only where the failure is a late one.
-/
structure Declines (env : Env) (site : Site) (earlier : List Code) (st : Session) (f : Failure) (st' : Session) : Prop where
  /-- What is reported. -/
  refuses : Refuses earlier st f st'
  /-- What the report says of other methods is so. -/
  justified : ∀ name recv, site.call = .method name recv → Justified (unmatchedMethod st env site name recv) f st'
  /-- What it leaves. -/
  remains : Remains site.call.body? st f st'

/-- A constructor call is bound when it has what constructor calls have. What is said of
methods only is not asked of it. -/
theorem Binds.of_constructor {env : Env} {site : Site} {r : Resolution} (hctor : site.call.isMethod = false)
    (hbound : Bound env false [] (site.args.map st.exprType) r st'.world)
    (hsupplied : st.world.SoundBodies → Supplied site.id r st st')
    (hhands : HandsOn st'.world st.receiverType .constructor site.args r)
    (hcreates : ∀ cls outer body, site.call = .new cls outer body → Creates env site cls outer body st r st')
    (hchains : ∀ outer, site.call = .super outer → ∀ info,
      st.world.types.classInfo? (st.world.types.classOf env.this) = some info →
        HasInstance st info.super (env.frames.drop 1) outer)
    (hconstructs : st.world.Genuine → r.anonymous = .none →
      ∃ cls, Constructed st.world.types env site.call cls ∧ r.callable ∈ st'.world.constructors cls) :
    Binds env site st r st' := by
  have hmethod (name : String) (recv : Option Expr) : site.call ≠ .method name recv := by
    intro h
    rw [h] at hctor
    cases hctor
  have hkind : site.call.kind = .constructor := by
    unfold Call.kind
    rw [hctor]
    rfl
  exact {
    bound := by rwa [hctor, appliedTypeArgs_of_not_isMethod hctor]
    supplied := hsupplied
    picks := fun name recv h => absurd h (hmethod name recv)
    typed := fun name recv h => absurd h (hmethod name recv)
    handsOn := hkind ▸ hhands
    creates := hcreates
    chains := hchains
    constructs := fun _ => hconstructs }

/-- A constructor call is refused when what is reported and left is as it should be. Such a
report names no other methods. -/
theorem Declines.of_constructor {env : Env} {site : Site} {earlier : List Code} {f : Failure} (hctor : site.call.isMethod = false)
    (hrefuses : Refuses earlier st f st') (hremains : Remains site.call.body? st f st') : Declines env site earlier st f st' where
  refuses := hrefuses
  justified name recv h := by
    rw [h] at hctor
    cases hctor
  remains := hremains

/-- A call is bound or refused. It goes through the four kinds of calls and asks of each what
it has, so everything that is known of a call is read off this statement. -/
theorem resolveCall_tries {env : Env} {site : Site} (henv : KnowsEnv st.world.types env)
    (hthis : (st.world.types.shape env.this).isDeclared) (hsite : KnowsSite st.world.types site) :
    Tries (resolving site.id) (resolveCall env site) st (Binds env site st) (Declines env site (callCodes env site st).1 st) := by
  have hcall := hsite.call
  unfold resolveCall
  cases h : site.call with
  | method name recv =>
    rw [h] at hcall
    have hcodes : (callCodes env site st).1 = selectionCodes .ambiguousMethod
        (methodSelection env site name recv (site.args.map st.exprType) st).1 := by
      unfold callCodes
      rw [h]
      rfl
    have happlied : appliedTypeArgs site = site.typeArgs := by simp [appliedTypeArgs, h]
    rw [hcodes]
    refine ((resolveMethod_tries henv hsite.toKnowsArgs name hcall).failing (resolveMethod_failsClean env site name recv)).mono (fun _ _ _ hl hr => {
      bound := happlied ▸ h ▸ hr.1.toBound
      supplied := fun hs => hr.1.supplied (hl.2.moves.soundBodies hs) hr.2.1
      picks := fun name' recv' hmethod => ?_
      typed := fun name' recv' hmethod => ?_
      handsOn := fun call hc => .inl ⟨hr.1.notAnonymous, h ▸ hr.1.standsIn call hc⟩
      creates := fun _ _ _ hnew => by simp [h] at hnew
      chains := fun _ hsuper => by simp [h] at hsuper
      constructs := fun hctor => by simp [h, Call.isMethod] at hctor }) fun _ _ _ _ hr =>
        ⟨hr.1.1, fun name' recv' hmethod => ?_, .inl hr.2⟩
    · rw [h] at hmethod
      cases hmethod
      obtain ⟨-, x, t, q, -, hpicks⟩ := hr.2.2
      exact ⟨x, t, q, hpicks⟩
    · rw [h] at hmethod
      cases hmethod
      obtain ⟨u₀, x, t, q, htypes, hcalled, -⟩ := hr.2.2
      exact ⟨u₀, x, t, q, htypes, hcalled⟩
    · rw [h] at hmethod
      cases hmethod
      exact hr.1.2
  | new cls outer body =>
    rw [h] at hcall
    have hctor : site.call.isMethod = false := by rw [h]; rfl
    have hcodes : (callCodes env site st).1 = (creationCodes env cls body (site.args.map st.exprType) st).1 := by
      unfold callCodes
      rw [h]
      rfl
    rw [hcodes]
    refine (resolveNew_tries henv hsite.toKnowsArgs hcall.1 outer body hthis st.receiverType).mono
      (fun _ _ _ _ ⟨hbound, hsupplied, hcreates, hhands, hmade⟩ =>
        .of_constructor hctor hbound hsupplied hhands (fun cls' outer' body' hnew => ?_) (by simp [h]) fun hgenuine hnone => ?_)
      fun _ _ _ _ hr => .of_constructor hctor hr.1 (by rw [h]; exact hr.2)
    · rw [h] at hnew
      cases hnew
      exact hcreates
    · obtain ⟨hclass, hmem⟩ := hmade hgenuine hnone
      exact ⟨cls, h ▸ .new hclass, hmem⟩
  | this =>
    have hctor : site.call.isMethod = false := by rw [h]; rfl
    exact ((resolveThis_tries henv hsite.toKnowsArgs st.receiverType).failing (resolveThis_failsClean env site)).mono
      (fun _ _ _ _ ⟨hbound, hsupplied, hhands, hmem⟩ =>
        .of_constructor hctor hbound hsupplied hhands (by simp [h]) (by simp [h]) fun _ _ => ⟨_, h ▸ .this, hmem⟩)
      fun _ _ _ _ hr => .of_constructor hctor (hr.1.refuses _) (.inl hr.2)
  | super outer =>
    have hctor : site.call.isMethod = false := by rw [h]; rfl
    refine ((resolveSuper_tries henv hsite.toKnowsArgs outer st.receiverType).failing (resolveSuper_failsClean env site outer)).mono
      (fun _ _ _ _ ⟨hbound, hsupplied, hhands, info, hinfo, hsome, hinstance, hmem⟩ =>
        .of_constructor hctor hbound hsupplied hhands (by simp [h]) (fun outer' hsuper info' hinfo' => ?_) fun _ _ =>
          ⟨info.super, h ▸ .super hinfo hsome, hmem⟩)
      fun _ _ _ _ hr => .of_constructor hctor (hr.1.refuses _) (.inl hr.2)
    rw [h] at hsuper
    cases hsuper
    obtain rfl : info = info' := Option.some.inj (hinfo.symm.trans hinfo')
    exact hinstance

/-- What is reported about the selection for a call, from the beginning of its binding on. -/
def earlierCodes (env : Env) (site : Site) : SessionM (List Code) := do
  note { kind := .begin_, scope := .site, name := "site:" ++ site.shownLabel }
  callCodes env site

/-- What became of a call: the outcome is recorded at its site, and it may wait; a refused
call waits for nothing but the superclass constructor of an anonymous class. That one starts
to wait before the body of the class is looked at, and a variable of the body that is not in
view refuses the call after it. -/
structure Resolves (env : Env) (site : Site) (st : Session) (failure : Option Failure) (st' : Session) : Prop extends
    Proceeds st st' where
  /-- The outcome. -/
  result : ∃ r, st'.program = st.program.setResult site.id r ∧
    match failure with
    | none => Binds env site st r st'
    | some f => r = .ofFailure ∧ Declines env site (earlierCodes env site st).1 st f st'
  /-- The calls that wait. -/
  waiting : ∀ p ∈ st'.waiting, ∀ w ∈ p.2, (∃ p' ∈ st.waiting, p'.1 = p.1 ∧ w ∈ p'.2) ∨
    w.site = site.id ∧ (failure.isSome → w.isSuper)

/-- The types of expressions are read from the program. -/
theorem exprType_congr (h : st'.program = st.program) : st'.exprType = st.exprType := by
  funext e
  unfold exprType
  rw [h]

/-- So are the types of receivers. -/
theorem receiverType_congr (h : st'.program = st.program) : st'.receiverType = st.receiverType := by
  funext e
  unfold receiverType
  rw [exprType_congr h]

/-- What a method call is called on depends on types, on the types of expressions and on
imports. -/
theorem CalledOn.congr {u : Universe} {env : Env} {name : String} {recv : Option Expr} {search t : TypeId} {qualified : Bool}
    (h : CalledOn st u env name recv search t qualified) (hworld : st.world = st'.world) (hprogram : st.program = st'.program) :
    CalledOn st' u env name recv search t qualified := by
  cases h with
  | receiver e =>
    rw [searchOf_congr hworld (exprType_congr hprogram), receiverType_congr hprogram]
    exact .receiver e
  | frame hsees => exact .frame hsees
  | imported hblank himported => exact .imported hblank (by rwa [importedClasses, ← hprogram])

/-- A bound call stays bound while types and callables are kept. What the callable accepts has
been settled when it was selected, and an anonymous class goes on to pass its arguments on. -/
theorem Bound.keeps {env : Env} {isMethod : Bool} {typeArgs args : List TypeId} {r : Resolution} {u u' : Universe}
    (hb : Bound env isMethod typeArgs args r u) (h : u.Keeps u') (hu : u.WellFormed) (henv : KnowsEnv u.types env)
    (htypes : ∀ t ∈ typeArgs, u.types.Knows t) (hargs : ∀ t ∈ args, u.types.Knows t) : Bound env isMethod typeArgs args r u' where
  state := hb.state
  type := h.types.knows hb.type
  resolved := h.isResolved hb.resolved
  selected ha := by
    obtain ⟨id, hacc, htarget⟩ := hb.selected ha
    exact ⟨id, h.accepts hu htypes hargs hacc, htarget.imp_right fun hr => ⟨hr.1, h.replaces hu henv hr.2⟩⟩

/-- What a call is bound to and passes depends on universes, on the types of expressions and
on the calls that wait. So the events of the trace before and behind the binding do not
matter, and neither does the record of the outcome. -/
theorem Binds.congr {env : Env} {site : Site} {r : Resolution} {st₁ st₂ st₃ : Session} (h : Binds env site st₁ r st₂)
    (hworld : st₁.world = st.world) (hprogram : st₁.program = st.program) (hwaits : OnlySuperWaits st st₁)
    (hworld' : st₃.world = st₂.world) (hwaiting' : st₃.waiting = st₂.waiting) : Binds env site st r st₃ where
  bound := hworld' ▸ exprType_congr hprogram ▸ h.bound
  supplied hs := ((h.supplied (hworld ▸ hs)).after hwaits).congr hworld' hwaiting'
  picks name recv hcall := by
    obtain ⟨x, t, q, hcalled, hpicks⟩ := h.picks name recv hcall
    have hqualifier : st₁.qualifierOf = st.qualifierOf := by
      funext e
      rw [qualifierOf, exprType_congr hprogram, ← qualifierOf]
    rw [hqualifier, exprType_congr hprogram, ← hworld'] at hpicks
    exact ⟨x, t, q, (hworld' ▸ hcalled).congr hworld hprogram, hpicks⟩
  typed name recv hcall := by
    obtain ⟨u₀, x, t, q, htypes, hcalled⟩ := h.typed name recv hcall
    rw [exprType_congr hprogram, ← hworld'] at htypes
    exact ⟨u₀, x, t, q, htypes, (hworld' ▸ hcalled).congr hworld hprogram⟩
  handsOn := hworld' ▸ receiverType_congr hprogram ▸ h.handsOn
  creates cls outer body hcall :=
    (h.creates cls outer body hcall).congr hworld.symm (exprType_congr hprogram).symm hworld' hwaiting'
  chains outer hcall info hinfo :=
    (h.chains outer hcall info (hworld ▸ hinfo)).congr hworld.symm (exprType_congr hprogram).symm
  constructs hcall hgenuine hnone := by
    rw [hworld', ← hworld]
    exact h.constructs hcall (hworld ▸ hgenuine) hnone

/-- Reports are not changed by what follows without a report. -/
theorem Reports.then {codes : List Code} (h : Reports codes st st') (faults : st''.world.faults = st'.world.faults)
    (waiting : st''.waiting = st'.waiting) : Reports codes st st'' := by
  have hnone : Reports [] st' st'' := .of_faults [] (by simp [faults]) waiting
  simpa using h.trans hnone

/-- An event is added to the trace of a run. -/
theorem note_runs (e : Trace.Event) : Works running (note e) st fun _ st' => st'.world = st.world ∧ Quiet st st' := by
  have hbinding : Works (resolving 0) (note e) st fun _ st' => st'.world = st.world ∧ Quiet st st' :=
    works_of_quietly (note_works e)
  exact (works_of_resolving hbinding).mono fun _ _ _ _ h => h.1

/-- The outcome of a call is recorded, and its end is noted. -/
theorem record_works {site : Site} (hsite : st.program.site? site.id = some site) {r : Resolution}
    (hr : st.world.types.Knows r.type) (failure : Option Failure) :
    Works running (do
      setResult site.id r
      note (siteEnd (← getUniverse) site r)
      return failure) st fun f st' => f = failure ∧ st'.world = st.world ∧
        st'.program = st.program.setResult site.id r ∧ st'.waiting = st.waiting := by
  refine (setResult_works hsite hr).bind fun _ st₁ _ _ h₁ => works_getUniverse ?_
  subst h₁
  exact (note_runs _).bind fun _ st₂ _ _ h₂ => Works.ret ⟨rfl, h₂.1, h₂.2.program, h₂.2.waiting⟩

/-- The beginning of a call is noted. -/
theorem begin_works (env : Env) (site : Site) :
    Works running (note { kind := .begin_, scope := .site, name := "site:" ++ site.shownLabel }) st fun _ st' =>
      Quiet st st' ∧ st'.world = st.world ∧ (earlierCodes env site st).1 = (callCodes env site st').1 := by
  intro hst
  obtain ⟨hl, hworld, hquiet⟩ := note_runs _ hst
  exact ⟨hl, hquiet, hworld, rfl⟩

/-- Binding a call records the outcome at its site. A call that is refused is no failure of
the step. -/
theorem resolve_works {env : Env} {site : Site} (henv : KnowsEnv st.world.types env)
    (hthis : (st.world.types.shape env.this).isDeclared) (hsite : st.program.site? site.id = some site) :
    Works running (resolve env site) st (Resolves env site st) := by
  refine Works.of_sound fun hst => ?_
  have hknown := hst.1.program.sites site (Program.mem_of_site? hsite)
  unfold resolve
  refine (begin_works env site).bind fun _ st₁ _ _ h₁ => ?_
  obtain ⟨hquiet, hworld₁, hcodes⟩ := h₁
  have hg₁ := hquiet.world.types.toGrows
  have hcall := works_of_resolving (resolveCall_tries (henv.grows hg₁) (hg₁.isDeclared hthis) (hknown.grows hg₁))
  refine hcall.bind fun outcome st₂ hst₂ _ h₂ => ?_
  obtain ⟨houtcome, hcont⟩ := h₂
  have hprogram : st₂.program = st.program := hcont.program.trans hquiet.program
  have hsite₂ : st₂.program.site? site.id = some site := hprogram ▸ hsite
  have hproceeds : Proceeds st st₂ := .trans (.of_moves (hworld₁ ▸ .refl) (hworld₁ ▸ .refl) hquiet.waiting) hcont.toProceeds
  have hold {p : TypeId × List WaitingSite} {w : WaitingSite}
      (h : ∃ p' ∈ st₁.waiting, p'.1 = p.1 ∧ w ∈ p'.2) : ∃ p' ∈ st.waiting, p'.1 = p.1 ∧ w ∈ p'.2 :=
    hquiet.waiting ▸ h
  cases outcome with
  | ok r =>
    have hbinds : Binds env site st₁ r st₂ := houtcome
    refine (record_works hsite₂ hbinds.bound.type none).mono fun f st₃ _ _ h₃ => ?_
    obtain ⟨rfl, hworld, hprog, hwait⟩ := h₃
    refine ⟨hproceeds.trans (.of_moves (hworld ▸ .refl) (hworld ▸ .refl) hwait), ⟨r, hprogram ▸ hprog, ?_⟩, fun p hp w hw => ?_⟩
    · exact hbinds.congr hworld₁ hquiet.program hquiet.onlySuperWaits hworld hwait
    · exact (hcont.waiting p (hwait ▸ hp) w hw).imp hold fun h => ⟨h, by simp⟩
  | error f =>
    have hbad : st₂.world.types.Knows Resolution.ofFailure.type :=
      hst₂.1.world.types.knows_predefined (t := .bad) (by decide)
    refine (record_works hsite₂ hbad (some f)).mono fun f' st₃ _ _ h₃ => ?_
    obtain ⟨rfl, hworld, hprog, hwait⟩ := h₃
    refine ⟨hproceeds.trans (.of_moves (hworld ▸ .refl) (hworld ▸ .refl) hwait), ⟨.ofFailure, hprogram ▸ hprog, rfl, ?_⟩, fun p hp w hw => ?_⟩
    · have hdeclines : Declines env site (callCodes env site st₁).1 st₁ f st₂ := houtcome
      rw [hcodes]
      refine ⟨Reports.then (hdeclines.refuses.after hquiet) (congrArg Universe.faults hworld) hwait, fun name recv hcall => ?_,
        hdeclines.remains.congr hworld₁ hquiet.waiting hworld hwait⟩
      have hjustified := hdeclines.justified name recv hcall
      rw [unmatchedMethod_congr hworld₁ (exprType_congr hquiet.program)] at hjustified
      exact hjustified.congr hworld (by rw [importedClasses, hprog]; rfl)
    · rcases hcont.waiting p (hwait ▸ hp) w hw with h | h
      · exact .inl (hold h)
      · exact (Reports.waiting (Declines.refuses houtcome) p (hwait ▸ hp) w hw).imp hold fun hsuper => ⟨h, fun _ => hsuper⟩

end Session

/-! ## Outcomes

What is recorded at a site from its turn on. Only the completion of a class touches it again.
-/

namespace Resolution

/-- A call that is bound, whether it waits or not. -/
def IsBound (r : Resolution) : Prop :=
  r.state = .resolved ∨ r.state = .deferred

/-- What may have become of a site: nothing yet, a failure and nothing else, or a callable
with a processed signature. It is what every session of a run keeps, whatever the step. -/
def Fits (u : Universe) (r : Resolution) : Prop :=
  r = {} ∨ r = .ofFailure ∨ r.IsBound ∧ (u.method r.callable).isResolved

theorem Fits.keeps {u u' : Universe} {r : Resolution} (hr : r.Fits u) (h : u.Keeps u') : r.Fits u' :=
  hr.imp_right fun hr => hr.imp_right fun hr => ⟨hr.1, h.isResolved hr.2⟩

/-- What a recorded outcome may become: a bound call may stop waiting and get arguments, and
nothing else changes. In particular the callable, the phase and what takes the place of the
call are those of its turn. -/
def Later (r r' : Resolution) : Prop :=
  r' = r ∨ r.IsBound ∧ r'.IsBound ∧ r'.callable = r.callable ∧ r'.type = r.type ∧ r'.phase = r.phase ∧
    r'.wrapped = r.wrapped ∧ r'.anonymous = r.anonymous ∧ r'.lowered = r.lowered ∧ r'.throws = r.throws ∧
    ∃ extra, r'.superInvocation = r.superInvocation.map fun call => { call with args := call.args ++ extra }

theorem Later.trans {r r' r'' : Resolution} (h : Later r r') (h' : Later r' r'') : Later r r'' := by
  rcases h with rfl | ⟨hb, hb', h1, h2, h3, h4, h5, h6, h7, extra, h8⟩
  · exact h'
  · rcases h' with rfl | ⟨-, hb'', k1, k2, k3, k4, k5, k6, k7, extra', k8⟩
    · exact .inr ⟨hb, hb', h1, h2, h3, h4, h5, h6, h7, extra, h8⟩
    · refine .inr ⟨hb, hb'', k1.trans h1, k2.trans h2, k3.trans h3, k4.trans h4, k5.trans h5, k6.trans h6, k7.trans h7,
        extra ++ extra', ?_⟩
      simp [k8, h8, Function.comp_def]

/-- A bound call stays bound. -/
theorem Later.isBound {r r' : Resolution} (h : Later r r') (hr : r.IsBound) : r'.IsBound := by
  rcases h with rfl | ⟨-, hb, -⟩
  · exact hr
  · exact hb

/-- A call that is not bound stays what it is. -/
theorem Later.eq_of_not_isBound {r r' : Resolution} (h : Later r r') (hr : ¬ r.IsBound) : r' = r := by
  rcases h with rfl | ⟨hb, -⟩
  · rfl
  · exact absurd hb hr

/-- What fits still fits. -/
theorem Later.fits {u : Universe} {r r' : Resolution} (h : Later r r') (hr : r.Fits u) : r'.Fits u := by
  rcases h with rfl | ⟨hb, hb', hcallable, -⟩
  · exact hr
  · rcases hr with rfl | rfl | ⟨-, hres⟩
    · exact absurd hb (by simp [IsBound])
    · exact absurd hb (by simp [IsBound, ofFailure])
    · exact .inr (.inr ⟨hb', hcallable ▸ hres⟩)

end Resolution

namespace Session

variable {st st' st'' : Session}

/-- What holds of a bound call holds of what becomes of it. -/
theorem Bound.later {env : Env} {isMethod : Bool} {typeArgs args : List TypeId} {r r' : Resolution} {u : Universe}
    (hb : Bound env isMethod typeArgs args r u) (h : r.Later r') : Bound env isMethod typeArgs args r' u := by
  rcases h with rfl | ⟨-, hb', hcallable, htype, hphase, hwrapped, hanonymous, -⟩
  · exact hb
  · exact ⟨hb', htype ▸ hb.type, hcallable ▸ hb.resolved, by rw [hcallable, hphase, hwrapped, hanonymous]; exact hb.selected⟩

/-- What a call was bound to by a search is what becomes of it was bound to. -/
theorem Picks.later {u : Universe} {env : Env} {typeArgs args : List TypeId} {search : TypeId} {q : Option Qualifier} {name : String}
    {r r' : Resolution} (hpicks : u.Picks env typeArgs args search q name r) (h : r.Later r') :
    u.Picks env typeArgs args search q name r' := by
  rcases h with rfl | ⟨-, -, hcallable, -, hphase, hwrapped, -⟩
  · exact hpicks
  · rwa [Universe.Picks, hcallable, hphase, hwrapped]

/-- What is called in place of a bound call is called in place of what becomes of it. -/
theorem Lowers.later {r r' : Resolution} {u : Universe} (hr : Lowers u r) (h : r.Later r') : Lowers u r' := by
  rcases h with rfl | ⟨-, -, hcallable, -, -, -, hanonymous, hlowered, -, extra, hsuper⟩
  · exact hr
  · refine ⟨fun call hcall => ?_, fun call hcall => ?_⟩
    · rw [hcallable, hanonymous]
      exact hr.call call (hlowered ▸ hcall)
    · obtain ⟨old, hold, rfl⟩ := Option.map_eq_some_iff.mp (hsuper.symm.trans hcall)
      rw [hanonymous]
      exact hr.super old hold

/-- An anonymous class that passes arguments on still does so when it passes captures behind
them. -/
theorem PassesOn.later {u : Universe} {args : List TypeId} {r r' : Resolution} {made : ClassInfo} {target : MethodId}
    {passed : List TypeId} (hp : PassesOn u args r made target passed) (h : r.Later r') :
    PassesOn u args r' made target passed := by
  rcases h with rfl | ⟨-, -, hcallable, -, hphase, hwrapped, hanonymous, -, -, more, hsuper⟩
  · exact hp
  · obtain ⟨call, span, extra, hcall, hreaches, hargs⟩ := hp.call
    exact {
      info := hanonymous ▸ hp.info
      ctor := hanonymous ▸ hcallable ▸ hp.ctor
      resolved := hcallable ▸ hp.resolved
      params := hcallable ▸ hp.params
      chosen := hp.chosen
      accepts := hphase ▸ hwrapped ▸ hp.accepts
      call := ⟨{ call with args := call.args ++ more }, span, extra ++ more, by rw [hsuper, hcall]; rfl, hreaches,
        by simp [hargs]⟩ }

/-- A waiting call gets its arguments. Of a failure and of a call that was not looked at
nothing changes, unless the call itself waits. -/
theorem released_later {u : Universe} {w : WaitingSite} {r : Resolution} (hfits : r.Fits u)
    (hw : ¬ w.isSuper → r.IsBound) (args : List Expr) : r.Later (released w args r) := by
  unfold released
  split
  · rcases hfits with rfl | rfl | ⟨hb, -⟩
    · exact .inl rfl
    · exact .inl rfl
    · exact .inr ⟨hb, hb, rfl, rfl, rfl, rfl, rfl, rfl, rfl, args, rfl⟩
  · rename_i hsuper
    have hb := hw hsuper
    refine .inr ⟨hb, ?_, rfl, rfl, rfl, rfl, rfl, rfl, rfl, [], by simp⟩
    unfold Resolution.IsBound at hb ⊢
    rcases hb with hb | hb <;> simp [hb]

/-- The calls that wait themselves are bound, and what became of every site fits. This is what
a run has to keep for the completion of a class to be harmless: it records something at every
site that waits, and would else turn a failure into something else. -/
structure Orderly (st : Session) : Prop where
  /-- What became of the sites. -/
  results : ∀ id site, st.program.site? id = some site → site.result.Fits st.world
  /-- The calls that wait. -/
  waiting : ∀ p ∈ st.waiting, ∀ w ∈ p.2, ¬ w.isSuper → ∀ site, st.program.site? w.site = some site → site.result.IsBound

/-- What was recorded at a site stays, apart from what a bound call gets. The site itself is
the same in everything but its result. -/
def AdvancesAt (id : SiteId) (st st' : Session) : Prop :=
  ∀ site, st.program.site? id = some site →
    ∃ result, st'.program.site? id = some { site with result } ∧ site.result.Later result

/-- What was recorded at the sites stays, apart from what bound calls get. -/
def Advances (st st' : Session) : Prop :=
  ∀ id, AdvancesAt id st st'

theorem AdvancesAt.trans {id : SiteId} (h : AdvancesAt id st st') (h' : AdvancesAt id st' st'') : AdvancesAt id st st'' := by
  intro site hsite
  obtain ⟨r, hr, hl⟩ := h site hsite
  obtain ⟨r', hr', hl'⟩ := h' _ hr
  exact ⟨r', hr', hl.trans hl'⟩

theorem Advances.trans (h : Advances st st') (h' : Advances st' st'') : Advances st st'' :=
  fun id => (h id).trans (h' id)

/-- A session with the same program advances. -/
theorem Advances.of_program (h : st'.program = st.program) : Advances st st' :=
  fun _ site hsite => ⟨site.result, h ▸ hsite, .inl rfl⟩

theorem Advances.refl (st : Session) : Advances st st :=
  .of_program rfl

/-- What is recorded at a site of the later session is what became of it in the earlier one.
-/
theorem AdvancesAt.later {id : SiteId} (ha : AdvancesAt id st st') (hr : Runs st st') {site' : Site}
    (hsite' : st'.program.site? id = some site') :
    ∃ site, st.program.site? id = some site ∧ site.result.Later site'.result := by
  obtain ⟨site, hsite, -⟩ := hr.program.of_site? hsite'
  obtain ⟨r, hr', hl⟩ := ha site hsite
  cases hsite'.symm.trans hr'
  exact ⟨site, hsite, hl⟩

/-- A session stays orderly while nothing starts to wait. -/
theorem Orderly.advance (ho : Orderly st) (ha : Advances st st') (hr : Runs st st')
    (waiting : ∀ p ∈ st'.waiting, p ∈ st.waiting) : Orderly st' where
  results id site' hsite' := by
    obtain ⟨site, hsite, hl⟩ := (ha id).later hr hsite'
    exact (hl.fits (ho.results id site hsite)).keeps hr.world
  waiting p hp w hw hsuper site' hsite' := by
    obtain ⟨site, hsite, hl⟩ := (ha w.site).later hr hsite'
    exact hl.isBound (ho.waiting p (waiting p hp) w hw hsuper site hsite)

/-- Recording an outcome at one site leaves the others alone. -/
theorem advancesAt_setResult {id id' : SiteId} (hid : id ≠ 0) (hne : id' ≠ id) {r : Resolution}
    (h : st'.program = st.program.setResult id r) : AdvancesAt id' st st' := by
  intro site' hsite'
  rw [h, Program.site?_setResult hid, if_neg hne]
  exact ⟨site'.result, hsite', .inl rfl⟩

/-! ## Completions

The step that completes a class. The calls that wait for it are taken from the session first
and released then, so the list of those that wait is empty under this type while the arguments
are made; making them adds nothing to it.
-/

/-- A call that waits for a class gets arguments that read what the class captures, and
another one keeps its own. A call may stand several times among those that wait; it gets its
arguments anew each time, and the last ones are as good as the first. -/
structure Refills (u : Universe) (cls : TypeId) (waits : Prop) (r r' : Resolution) : Prop where
  /-- The callable stays. -/
  callable : r'.callable = r.callable
  /-- What a call gets that waits. -/
  given : waits → r'.state ≠ .deferred ∧ List.Forall₂ (Reads u) (u.captures cls) r'.localArgs
  /-- What a call keeps that does not wait. -/
  kept : ¬ waits → r'.state = r.state ∧ r'.localArgs = r.localArgs

/-- A call that does not wait keeps what it has. -/
theorem Refills.refl {u : Universe} {cls : TypeId} {waits : Prop} (h : ¬ waits) (r : Resolution) : Refills u cls waits r r :=
  ⟨rfl, fun hw => absurd hw h, fun _ => ⟨rfl, rfl⟩⟩

/-- Calls get their arguments one after another. -/
theorem Refills.trans {u u' : Universe} {cls : TypeId} {waits waits' : Prop} {r r' r'' : Resolution}
    (h : Refills u cls waits r r') (h' : Refills u' cls waits' r' r'') (hmoves : Moves anything u u')
    (hcls : u.types.Knows cls) (hdone : u.isComplete cls) : Refills u' cls (waits ∨ waits') r r'' where
  callable := h'.callable.trans h.callable
  given hwaits := by
    by_cases hlast : waits'
    · exact h'.given hlast
    · obtain ⟨hstate, hargs⟩ := h'.kept hlast
      obtain ⟨hsettled, hreads⟩ := h.given (hwaits.resolve_right hlast)
      rw [hstate, hargs, (hmoves.finished hcls hdone).2]
      exact ⟨hsettled, hreads.imp fun _ _ hr => hr.moves hmoves⟩
  kept hnot := by
    obtain ⟨hfirst, hlast⟩ := not_or.mp hnot
    exact ⟨(h'.kept hlast).1.trans (h.kept hfirst).1, (h'.kept hlast).2.trans (h.kept hfirst).2⟩

/-- The calls among some that wait get arguments for the captures of a class. It is said of
all sites at once, those that do not wait included, of which it says that they keep what they
have. -/
def Releases (cls : TypeId) (ws : List WaitingSite) (st st' : Session) : Prop :=
  ∀ id site, st.program.site? id = some site → ∃ result, st'.program.site? id = some { site with result } ∧
    site.result.Later result ∧ Refills st'.world cls (∃ w ∈ ws, w.site = id ∧ w.isSuper = false) site.result result

/-- Nothing is lost when calls get arguments. -/
theorem Releases.advances {cls : TypeId} {ws : List WaitingSite} (h : Releases cls ws st st') : Advances st st' := by
  intro id site hsite
  obtain ⟨result, hresult, hlater, -⟩ := h id site hsite
  exact ⟨result, hresult, hlater⟩

/-- A waiting call is released: it gets its arguments, and so does its superclass constructor
call when that is what waits. -/
theorem refills_released {u : Universe} {cls : TypeId} (w : WaitingSite) {args : List Expr} (r : Resolution)
    (hargs : List.Forall₂ (Reads u) (u.captures cls) args) : Refills u cls (w.isSuper = false) r (released w args r) := by
  unfold released
  cases w.isSuper with
  | true => exact ⟨rfl, fun h => absurd h (by decide), fun _ => ⟨rfl, rfl⟩⟩
  | false =>
    refine ⟨rfl, fun _ => ⟨?_, hargs⟩, fun h => absurd rfl h⟩
    by_cases hdeferred : r.state = .deferred <;> simp [hdeferred]

/-- A waiting call is released. -/
theorem release_works {cls : TypeId} (hcls : st.world.types.Knows cls) (hdone : st.world.isComplete cls) {w : WaitingSite}
    (henv : KnowsEnv st.world.types w.env) (ho : Orderly st)
    (hw : ¬ w.isSuper → ∀ site, st.program.site? w.site = some site → site.result.IsBound) :
    Works running (release cls w) st fun _ st' =>
      st'.waiting = st.waiting ∧ Moves isAnonymous st.world st'.world ∧ Releases cls [w] st st' := by
  refine Works.of_sound fun hst => Works.read ?_
  cases hsite : st.program.site? w.site with
  | none =>
    refine Works.ret ⟨rfl, .refl, fun id site hid => ⟨site.result, hid, .inl rfl, .refl (fun h => ?_) _⟩⟩
    obtain ⟨v, hv, rfl, -⟩ := h
    rw [List.mem_singleton.mp hv, hsite] at hid
    cases hid
  | some site =>
    have hargs : Works (resolving w.site) (captureArgs w.env site cls) st _ := captureArgs_works henv cls
    refine (works_of_resolving hargs).bind fun args st₁ hst₁ _ h₁ => ?_
    obtain ⟨⟨hwait, hreads⟩, hcont⟩ := h₁
    have hlater := released_later (ho.results w.site site hsite) (fun h => hw h site hsite) args
    have htype : st₁.world.types.Knows (released w args site.result).type := by
      have hknown := hcont.world.types.knows (hst.1.program.results site (Program.mem_of_site? hsite))
      unfold released
      split <;> exact hknown
    have hreads₁ : List.Forall₂ (Reads st₁.world) (st₁.world.captures cls) args := by
      rwa [(hcont.moves.finished hcls hdone).2]
    refine (setResult_works (hcont.program ▸ hsite) htype).mono fun _ st₂ _ _ h₂ => ⟨?_, ?_, fun id site' hsite' => ?_⟩
    · rw [h₂]
      exact hwait
    · rw [h₂]
      exact hcont.moves
    have hprogram : st₂.program = st.program.setResult w.site (released w args site.result) := by
      rw [h₂]
      exact congrArg (Program.setResult · _ _) hcont.program
    have hworld : st₂.world = st₁.world := by rw [h₂]
    rw [hprogram, Program.site?_setResult (Program.ne_zero_of_site? hsite), hworld]
    by_cases hid : id = w.site
    · subst hid
      cases hsite.symm.trans hsite'
      refine ⟨_, by simp [hsite], hlater, ?_⟩
      simpa using refills_released w site.result hreads₁
    · refine ⟨site'.result, by simp [hid, hsite'], .inl rfl, .refl (fun h => ?_) _⟩
      obtain ⟨v, hv, rfl, -⟩ := h
      exact absurd (congrArg WaitingSite.site (List.mem_singleton.mp hv)) hid

/-- The calls that wait are released one after another. -/
theorem releaseAll_works {cls : TypeId} (hcls : st.world.types.Knows cls) (hdone : st.world.isComplete cls)
    (ws : List WaitingSite) (henv : ∀ w ∈ ws, KnowsEnv st.world.types w.env) (ho : Orderly st)
    (hws : ∀ w ∈ ws, ¬ w.isSuper → ∀ site, st.program.site? w.site = some site → site.result.IsBound) :
    Works running (ws.forM (release cls)) st fun _ st' =>
      st'.waiting = st.waiting ∧ Moves isAnonymous st.world st'.world ∧ Releases cls ws st st' := by
  induction ws generalizing st with
  | nil => exact Works.ret ⟨rfl, .refl, fun id site h => ⟨site.result, h, .inl rfl, .refl (by simp) _⟩⟩
  | cons w ws ih =>
    refine (release_works hcls hdone (henv w (by simp)) ho (hws w (by simp))).bind fun _ st₁ _ hl₁ h₁ => ?_
    obtain ⟨hwait₁, hmoves₁, hrel₁⟩ := h₁
    have hruns := hl₁.2.toRuns
    have hdone₁ := (hl₁.2.moves.finished hcls hdone).1
    refine (ih (hruns.world.types.knows hcls) hdone₁ (fun v hv => (henv v (by simp [hv])).grows hruns.world.types.toGrows)
      (ho.advance hrel₁.advances hruns (hwait₁ ▸ fun _ hp => hp)) fun v hv hsuper site' hsite' => ?_).mono
        fun _ st₂ _ hl₂ h₂ => ⟨h₂.1.trans hwait₁, hmoves₁.trans h₂.2.1, fun id site hsite => ?_⟩
    · obtain ⟨site, hsite, hl⟩ := (hrel₁.advances v.site).later hruns hsite'
      exact hl.isBound (hws v (by simp [hv]) hsuper site hsite)
    · obtain ⟨r₁, hr₁, hlater₁, hrefill₁⟩ := hrel₁ id site hsite
      obtain ⟨r₂, hr₂, hlater₂, hrefill₂⟩ := h₂.2.2 id _ hr₁
      refine ⟨r₂, hr₂, hlater₁.trans hlater₂, ?_⟩
      simpa using hrefill₁.trans hrefill₂ hl₂.2.moves (hruns.world.types.knows hcls) hdone₁

/-- What the completion of a class does: the calls that wait for it get their arguments and
stop waiting. What is meant are the calls that wait under this very type: the key of a call
that waits is a class, and a type with arguments is none. -/
structure Completes (cls : TypeId) (st st' : Session) : Prop where
  /-- The class is finished. -/
  done : st'.world.isComplete cls
  /-- No other class is finished that has a name. -/
  moves : Moves isAnonymous (completeClass cls st.world).2 st'.world
  /-- The other calls still wait. -/
  waiting : st'.waiting = st.waiting.filter (·.1 ≠ cls)
  /-- What the calls get. -/
  releases : Releases cls ((st.waiting.lookup cls).getD []) st st'

/-- Completing a local class gives the calls that wait for it their arguments, and no call
starts to wait. This needs that what waits is bound: a failure that waited would be recorded
anew. -/
theorem complete_works {cls : TypeId} (hcls : st.world.types.Knows cls) (ho : Orderly st) :
    Works running (complete cls) st fun _ st' => Completes cls st st' := by
  refine Works.of_sound fun hst => works_getUniverse ?_
  refine (note_runs _).bind fun _ st₁ _ _ h₁ => ?_
  obtain ⟨hworld₁, hquiet₁⟩ := h₁
  have hfinish : Works (finishing anything) (completeClass cls) st₁.world _ := completeClass_works (hworld₁ ▸ hcls) trivial
  have hcomplete := onUniverse_runs hfinish.self
  refine hcomplete.bind fun _ st₂ _ hl₂ h₂ => Works.read ?_
  have hprogram₂ : st₂.program = st.program := (congrArg Session.program h₂.2).trans hquiet₁.program
  have hwaiting₂ : st₂.waiting = st.waiting := (congrArg Session.waiting h₂.2).trans hquiet₁.waiting
  have hkeeps₂ : st.world.Keeps st₂.world := hworld₁ ▸ hl₂.2.world
  have hfilter : Works running (modify fun st => { st with waiting := st.waiting.filter (·.1 ≠ cls) }) st₂
      fun _ st' => st' = { st₂ with waiting := st₂.waiting.filter (·.1 ≠ cls) } :=
    Works.change ⟨fun hs => ⟨⟨hs.1.world, hs.1.program, fun p hp => hs.1.waiting p (List.mem_filter.mp hp).1⟩, hs.2⟩,
      ⟨.refl _, rfl, .refl _⟩, .refl, .refl⟩ rfl
  refine hfilter.bind fun _ st₃ _ _ h₃ => ?_
  have hworld₃ : st₃.world = st₂.world := by rw [h₃]
  have hworld₂ : st₂.world = (completeClass cls st.world).2 := by
    rw [← hworld₁]
    exact (congrArg Prod.snd h₂.1.2).symm
  have hprogram₃ : st₃.program = st.program := by rw [h₃, hprogram₂]
  have hwaiting₃ : st₃.waiting = st.waiting.filter (·.1 ≠ cls) := by rw [h₃, hwaiting₂]
  have hoptions₃ : st₃.options = st.options := by
    rw [h₃]
    exact (congrArg Session.options h₂.2).trans hquiet₁.options
  have hruns₃ : Runs st st₃ := ⟨hworld₃ ▸ hkeeps₂, hoptions₃, hprogram₃ ▸ .refl _⟩
  -- What is released are the calls that waited for the class before it was completed.
  have hwaits : ∀ w ∈ (st₂.waiting.lookup cls).getD [], ∃ p ∈ st.waiting, w ∈ p.2 := by
    intro w hw
    cases hlookup : st₂.waiting.lookup cls with
    | none => simp [hlookup] at hw
    | some ws =>
      rw [hlookup] at hw
      exact ⟨(cls, ws), hwaiting₂ ▸ TypeStore.mem_of_lookup hlookup, hw⟩
  have ho₃ : Orderly st₃ := ho.advance (.of_program hprogram₃) hruns₃ fun p hp => (List.mem_filter.mp (hwaiting₃ ▸ hp)).1
  refine (releaseAll_works (hruns₃.world.types.knows hcls) (hworld₃ ▸ h₂.1.1) _ (fun w hw => ?_) ho₃
    fun w hw hsuper site hsite => ?_).bind fun _ st₄ _ hl₄ h₄ => (note_runs _).mono fun _ st₅ _ _ h₅ => ?_
  · obtain ⟨p, hp, hwp⟩ := hwaits w hw
    exact ((hst.1.waiting p hp).2 w hwp).grows hruns₃.world.types.toGrows
  · obtain ⟨p, hp, hwp⟩ := hwaits w hw
    exact ho.waiting p hp w hwp hsuper site (hprogram₃ ▸ hsite)
  · refine ⟨?_, ?_, h₅.2.waiting.trans (h₄.1.trans hwaiting₃), fun id site hsite => ?_⟩
    · rw [h₅.1]
      exact (hl₄.2.moves.finished (hruns₃.world.types.knows hcls) (hworld₃ ▸ h₂.1.1)).1
    · rw [h₅.1, ← hworld₂, ← hworld₃]
      exact h₄.2.1
    · rw [h₅.2.program, h₅.1, ← hwaiting₂]
      exact h₄.2.2 id site (hprogram₃ ▸ hsite)

end Session

end CallResolution
