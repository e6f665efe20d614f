import CallResolution.Proofs.Resolve.Generic
import CallResolution.Proofs.Resolve.Selection

/-!
# Growth of sessions

A session is well formed when its universe is, and when its program and the calls that wait
mention known types only. Most of what happens while a call is bound is `Quiet`: the universe
is extended without a fault, and nothing else is touched. The rest makes the session go on as
`Continues` says: faults may be reported, bodies of classes may be finished, and the call
itself may start to wait.

These are evolutions in the sense of `Evolution`: `quietly` and `resolving` say how
well-formed sessions may go on, and a step that `Works` keeps a session well formed, goes on
in this way, and has what is claimed of its value. A quiet step is one of either kind
(`works_of_quietly`), so what only looks something up is stated once. Steps that may fail are
stated with `Tries`, which says of a failure what is claimed of it; the two ways to fail are
`failSilently` and `reject`.

`Reports` says which faults were reported between two states of a session. It is additive:
what happens in sequence reports the codes of the one and then those of the other, so the
reports of a call are the sum of those of its parts.

Main statements: `onUniverse_works`, `reject_tries` and `argTypes_tries`.
-/

namespace CallResolution

open Universe

/-! ## Programs that mention known types

A program is loaded together with its classes and knows the types that were loaded. It knows
them in every later universe.
-/

/-- What is called mentions known types. -/
def KnowsCall (s : TypeStore) : Call → Prop
  | .method _ recv => ∀ e ∈ recv, KnowsExpr s e
  | .new cls outer _ => s.Knows cls ∧ ∀ e ∈ outer, KnowsExpr s e
  | .this => True
  | .super outer => ∀ e ∈ outer, KnowsExpr s e

/-- A call site mentions known types. -/
structure KnowsSite (s : TypeStore) (site : Site) : Prop extends KnowsArgs s site where
  /-- What is called. -/
  call : KnowsCall s site.call

/-- A step mentions known types. -/
def KnowsStep (s : TypeStore) : Step → Prop
  | .call _ env => KnowsEnv s env
  | .complete cls _ => s.Knows cls

/-- A program mentions known types. Results are included, because the type of a call may be
the type of an argument of a later one. -/
structure KnowsProgram (s : TypeStore) (p : Program) : Prop where
  /-- The call sites. -/
  sites : ∀ site ∈ p.sites, KnowsSite s site
  /-- The types that sites were bound with. -/
  results : ∀ site ∈ p.sites, s.Knows site.result.type
  /-- The steps. -/
  steps : ∀ step ∈ p.steps, KnowsStep s step
  /-- The imports of single members. -/
  singleImports : ∀ i ∈ p.singleImports, s.Knows i.type
  /-- The imports of classes. -/
  classImports : ∀ i ∈ p.classImports, s.Knows i.type

section Grows

variable {s s' : TypeStore} (h : s.Grows s')
include h

theorem KnowsCall.grows {c : Call} (hc : KnowsCall s c) : KnowsCall s' c := by
  cases c with
  | method _ recv => exact fun e he => (hc e he).grows h
  | new cls outer _ => exact ⟨h.knows hc.1, fun e he => (hc.2 e he).grows h⟩
  | this => trivial
  | super outer => exact fun e he => (hc e he).grows h

theorem KnowsSite.grows {site : Site} (hsite : KnowsSite s site) : KnowsSite s' site :=
  ⟨hsite.toKnowsArgs.grows h, hsite.call.grows h⟩

theorem KnowsStep.grows {step : Step} (hstep : KnowsStep s step) : KnowsStep s' step := by
  cases step with
  | call _ env => exact KnowsEnv.grows hstep h
  | complete cls _ => exact h.knows hstep

theorem KnowsProgram.grows {p : Program} (hp : KnowsProgram s p) : KnowsProgram s' p where
  sites site hmem := (hp.sites site hmem).grows h
  results site hmem := h.knows (hp.results site hmem)
  steps step hmem := (hp.steps step hmem).grows h
  singleImports i hi := h.knows (hp.singleImports i hi)
  classImports i hi := h.knows (hp.classImports i hi)

end Grows

/-- A site that is found by its number is one of the sites. -/
theorem Program.mem_of_site? {p : Program} {id : SiteId} {site : Site} (h : p.site? id = some site) : site ∈ p.sites := by
  unfold site? at h
  split at h
  · cases h
  · exact Array.mem_of_getElem? h

/-- Whether a call is refused under a code only after a callable was selected for it. These
are the codes under which more than one error may be reported for a call: what was wrong with
the selection comes first. -/
def Code.isLate : Code → Bool
  | .instanceMethodInExplicitCtor | .instanceMethodInStatic | .instanceMethodViaType | .unknownLocal => true
  | _ => false

namespace Session

/-! ## Well-formed sessions

What a step may rely on, and what it has to leave behind.
-/

/-- What holds of every session on the way. It is asked of the session in which a step starts
and shown of the one in which it ends; what else may be relied on is said where it is needed.
-/
structure WellFormed (st : Session) : Prop where
  /-- The universe is well formed. -/
  world : st.world.WellFormed
  /-- The program mentions known types. -/
  program : KnowsProgram st.world.types st.program
  /-- The calls that wait do so for known classes, and among known classes. -/
  waiting : ∀ p ∈ st.waiting, st.world.types.Knows p.1 ∧ ∀ w ∈ p.2, KnowsEnv st.world.types w.env

variable {st st' st'' : Session}

/-- A session whose universe keeps what it had is well formed when all that is new is in
order. -/
theorem WellFormed.evolve (h : st.WellFormed) (keeps : st.world.Keeps st'.world) (world : st'.world.WellFormed)
    (program : st'.program = st.program)
    (waiting : ∀ p ∈ st'.waiting, st'.world.types.Knows p.1 ∧ ∀ w ∈ p.2,
      (∃ p' ∈ st.waiting, p'.1 = p.1 ∧ w ∈ p'.2) ∨ KnowsEnv st'.world.types w.env) : st'.WellFormed where
  world := world
  program := program ▸ h.program.grows keeps.types.toGrows
  waiting p hp := by
    refine ⟨(waiting p hp).1, fun w hw => ?_⟩
    rcases (waiting p hp).2 w hw with ⟨p', hp', -, hw'⟩ | hw
    · exact ((h.waiting p' hp').2 w hw').grows keeps.types.toGrows
    · exact hw

/-- A session in which nothing starts to wait. -/
theorem WellFormed.world_only (h : st.WellFormed) (keeps : st.world.Keeps st'.world) (world : st'.world.WellFormed)
    (program : st'.program = st.program) (waiting : st'.waiting = st.waiting) : st'.WellFormed := by
  refine h.evolve keeps world program fun p hp => ?_
  rw [waiting] at hp
  exact ⟨keeps.types.knows (h.waiting p hp).1, fun w hw => .inl ⟨p, hp, rfl, hw⟩⟩

/-- The static type of an expression is known. -/
theorem WellFormed.knows_exprType (h : st.WellFormed) {e : Expr} (he : KnowsExpr st.world.types e) :
    st.world.types.Knows (st.exprType e) := by
  have hbad : st.world.types.Knows .bad := h.world.types.knows_predefined (by decide)
  unfold exprType
  split
  · exact h.world.types.knows_predefined (by decide)
  · exact h.world.types.knows_predefined (by decide)
  · split
    · exact he.1
    · split
      · exact hbad
      · rename_i site hsite
        split
        · exact hbad
        · exact hbad
        · exact h.program.results site (Program.mem_of_site? hsite)
  · split
    · exact he.1
    · exact hbad

/-- The types of the arguments of a site are known. -/
theorem WellFormed.knows_args (h : st.WellFormed) {site : Site} (hsite : KnowsArgs st.world.types site) :
    ∀ t ∈ site.args.map st.exprType, st.world.types.Knows t := by
  intro t ht
  obtain ⟨e, he, rfl⟩ := List.mem_map.mp ht
  exact h.knows_exprType (hsite.args e he)

/-! ## The ways in which sessions go on

The main ones are two relations between sessions that compose. `Quiet` is for steps that only
look something up; `Continues` names the call that is being bound, because this call alone may
start to wait.
-/

/-- The universe is extended without a fault, and nothing else is touched but the trace. So a
quiet step may be made at any time, and what comes out of it depends on the universe and the
options alone. -/
structure Quiet (st st' : Session) : Prop where
  /-- The universe is extended. -/
  world : st.world.Extends st'.world
  /-- The program stays. -/
  program : st'.program = st.program
  /-- The options stay. -/
  options : st'.options = st.options
  /-- Nothing starts to wait. -/
  waiting : st'.waiting = st.waiting

/-- Some call is being bound: the universe keeps what it has, and the call may start to wait.
Of the calls that wait nothing is said but that they waited before or are this one, so several
steps of one binding are one step of it. -/
structure Continues (id : SiteId) (st st' : Session) : Prop where
  /-- The universe keeps what it has. -/
  world : st.world.Keeps st'.world
  /-- The program stays. -/
  program : st'.program = st.program
  /-- The options stay. -/
  options : st'.options = st.options
  /-- No other call starts to wait. -/
  waiting : ∀ p ∈ st'.waiting, ∀ w ∈ p.2, (∃ p' ∈ st.waiting, p'.1 = p.1 ∧ w ∈ p'.2) ∨ w.site = id

theorem Quiet.refl (st : Session) : Quiet st st :=
  ⟨.refl _, rfl, rfl, rfl⟩

theorem Quiet.trans (h : Quiet st st') (h' : Quiet st' st'') : Quiet st st'' :=
  ⟨h.world.trans h'.world, h'.program.trans h.program, h'.options.trans h.options, h'.waiting.trans h.waiting⟩

/-- What is quiet continues the binding of any call. -/
theorem Quiet.continues (h : Quiet st st') (id : SiteId) : Continues id st st' :=
  ⟨h.world.toKeeps, h.program, h.options, fun p hp _ hw => .inl ⟨p, h.waiting ▸ hp, rfl, hw⟩⟩

theorem Continues.trans {id : SiteId} (h : Continues id st st') (h' : Continues id st' st'') :
    Continues id st st'' where
  world := h.world.trans h'.world
  program := h'.program.trans h.program
  options := h'.options.trans h.options
  waiting p hp w hw := by
    rcases h'.waiting p hp w hw with ⟨p', hp', hkey, hw'⟩ | hid
    · exact (h.waiting p' hp' w hw').imp_left fun ⟨q, hq, hqkey, hqw⟩ => ⟨q, hq, hqkey.trans hkey, hqw⟩
    · exact .inr hid

/-- A call itself waits for a class. A superclass constructor call that waits is kept under
the same number, and is not meant. -/
def Awaits (st : Session) (cls : TypeId) (id : SiteId) : Prop :=
  ∃ w ∈ (st.waiting.lookup cls).getD [], w.site = id ∧ w.isSuper = false

/-- Some call waits for a class, itself or with a superclass constructor call. -/
def IsAwaited (st : Session) (cls : TypeId) : Prop :=
  ∃ p ∈ st.waiting, p.1 = cls

/-- What the binding of a call does to classes and to the calls that wait for them. This is
more than what the session keeps: which bodies may be finished, that whatever waits goes on to
do so, and that nothing starts to wait for a finished class. -/
structure Proceeds (st st' : Session) : Prop where
  /-- The universe is moved, and bodies of anonymous classes may be finished. -/
  moves : Moves isAnonymous st.world st'.world
  /-- Tables are made one after another. -/
  steps : TableSteps st.world st'.world
  /-- What waited still waits. -/
  awaits : ∀ cls id, st.Awaits cls id → st'.Awaits cls id
  /-- Nothing starts to wait for a class that is finished. -/
  finished : ∀ cls, st.world.types.Knows cls → st.world.isComplete cls → st'.IsAwaited cls → st.IsAwaited cls

/-- Nothing starts or stops waiting. -/
theorem Proceeds.of_moves (moves : Moves isAnonymous st.world st'.world) (steps : TableSteps st.world st'.world)
    (waiting : st'.waiting = st.waiting) : Proceeds st st' := by
  refine ⟨moves, steps, fun cls id h => ?_, fun cls _ _ h => ?_⟩
  · unfold Awaits
    rwa [waiting]
  · unfold IsAwaited
    rwa [← waiting]

theorem Proceeds.trans (h : Proceeds st st') (h' : Proceeds st' st'') : Proceeds st st'' where
  moves := h.moves.trans h'.moves
  steps := h.steps.trans h'.steps
  awaits cls id hw := h'.awaits cls id (h.awaits cls id hw)
  finished cls hknown hdone hw :=
    h.finished cls hknown hdone (h'.finished cls (h.moves.types_extends.knows hknown) (h.moves.finished hknown hdone).1 hw)

/-- What goes on quietly does so by moves that finish no class. The moves are kept beside the
extension, since some invariants of universes are known to be kept by moves only. -/
structure MovesQuietly (st st' : Session) : Prop extends Quiet st st' where
  /-- The moves of the universe. -/
  moves : Moves nothing st.world st'.world
  /-- Tables are made one after another. -/
  steps : TableSteps st.world st'.world

/-- A call is bound. -/
structure MovesOn (id : SiteId) (st st' : Session) : Prop extends Continues id st st', Proceeds st st'

/-- Well-formed sessions, which go on quietly. That the end is well formed is a part of it
under the condition that the start is, so a step can be followed without looking at its start.
-/
def quietly : Evolution Session where
  Sound := WellFormed
  Leads st st' := (st.WellFormed → st'.WellFormed) ∧ MovesQuietly st st'
  refl st := ⟨id, .refl st, .refl, .refl⟩
  trans h h' := ⟨fun hs => h'.1 (h.1 hs), h.2.toQuiet.trans h'.2.toQuiet, h.2.moves.trans h'.2.moves, h.2.steps.trans h'.2.steps⟩
  sound h := h.1

/-- Well-formed sessions, which bind a call. Every quiet step is a step of this kind for any
call. -/
def resolving (id : SiteId) : Evolution Session where
  Sound := WellFormed
  Leads st st' := (st.WellFormed → st'.WellFormed) ∧ MovesOn id st st'
  refl st := ⟨fun h => h, (Quiet.refl st).continues id, .of_moves .refl .refl rfl⟩
  trans h h' := ⟨fun hs => h'.1 (h.1 hs), h.2.toContinues.trans h'.2.toContinues, h.2.toProceeds.trans h'.2.toProceeds⟩
  sound h := h.1

/-! ## Reports

Faults are the errors that are not about a signature. A broken signature is reported when it
is looked at for the first time, whichever call does so, and such a report is not counted
among those of a call.
-/

/-- Only superclass constructor calls start to wait. A call that fails may leave one of these
behind, but it never waits itself. -/
def OnlySuperWaits (st st' : Session) : Prop :=
  ∀ p ∈ st'.waiting, ∀ w ∈ p.2, (∃ p' ∈ st.waiting, p'.1 = p.1 ∧ w ∈ p'.2) ∨ w.isSuper

/-- Nothing starts to wait. -/
theorem OnlySuperWaits.of_same (waiting : st'.waiting = st.waiting) : OnlySuperWaits st st' :=
  fun p hp _ hw => .inl ⟨p, waiting ▸ hp, rfl, hw⟩

theorem OnlySuperWaits.trans (h : OnlySuperWaits st st') (h' : OnlySuperWaits st' st'') : OnlySuperWaits st st'' := by
  intro p hp w hw
  rcases h' p hp w hw with ⟨p', hp', hkey, hw'⟩ | hsuper
  · exact (h p' hp' w hw').imp_left fun ⟨q, hq, hqkey, hqw⟩ => ⟨q, hq, hqkey.trans hkey, hqw⟩
  · exact .inr hsuper

/-- What is quiet makes nothing wait. -/
theorem Quiet.onlySuperWaits (h : Quiet st st') : OnlySuperWaits st st' :=
  .of_same h.waiting

/-- Between two states faults with the given codes are reported, in this order, and only
superclass constructor calls start to wait. It is what is claimed of a step that may be
followed by a refusal. -/
structure Reports (codes : List Code) (st st' : Session) : Prop where
  /-- The faults. -/
  faults : ∃ ds, st'.world.faults = st.world.faults ++ ds ∧ ds.map (·.code) = codes
  /-- The calls that wait. -/
  waiting : ∀ p ∈ st'.waiting, ∀ w ∈ p.2, (∃ p' ∈ st.waiting, p'.1 = p.1 ∧ w ∈ p'.2) ∨ w.isSuper

theorem Reports.trans {codes codes' : List Code} (h : Reports codes st st') (h' : Reports codes' st' st'') :
    Reports (codes ++ codes') st st'' where
  faults := by
    obtain ⟨ds, hds, hcodes⟩ := h.faults
    obtain ⟨ds', hds', hcodes'⟩ := h'.faults
    refine ⟨ds ++ ds', ?_, ?_⟩
    · rw [hds', hds, List.append_assoc]
    · rw [List.map_append, hcodes, hcodes']
  waiting := OnlySuperWaits.trans h.waiting h'.waiting

/-- A session in which nothing starts to wait reports the faults that are new in its universe.
-/
theorem Reports.of_faults (ds : List Diagnostic) (faults : st'.world.faults = st.world.faults ++ ds)
    (waiting : st'.waiting = st.waiting) : Reports (ds.map (·.code)) st st' :=
  ⟨⟨ds, faults, rfl⟩, fun p hp _ hw => .inl ⟨p, waiting ▸ hp, rfl, hw⟩⟩

/-- What is quiet reports nothing. -/
theorem Quiet.reports (h : Quiet st st') : Reports [] st st' :=
  .of_faults [] (by simp [h.world.faults]) h.waiting

/-- What comes before a report without reporting anything may be counted in. -/
theorem Reports.after {codes : List Code} (h : Quiet st st') (h' : Reports codes st' st'') : Reports codes st st'' :=
  h.reports.trans h'

@[simp] theorem withCandidate_code (d : Diagnostic) (decl : Source.Span) (head : String) :
    (d.withCandidate decl head).code = d.code := by
  unfold Diagnostic.withCandidate
  split <;> rfl

@[simp] theorem isFault_withCandidate (d : Diagnostic) (decl : Source.Span) (head : String) :
    isFault (d.withCandidate decl head) = isFault d := by
  unfold Diagnostic.withCandidate
  split <;> rfl

/-! ## Steps

The operations of a session.
-/

variable {id : SiteId}

/-- Reading the universe. -/
theorem works_getUniverse {α : Type} {e : Evolution Session} {f : Universe → SessionM α} {P : α → Session → Prop}
    (h : Works e (f st.world) st P) : Works e (getUniverse >>= f) st P :=
  h

/-- Reading the types. -/
theorem works_getTypes {α : Type} {e : Evolution Session} {f : TypeStore → SessionM α} {P : α → Session → Prop}
    (h : Works e (f st.world.types) st P) : Works e (getTypes >>= f) st P :=
  h

/-- Reading the universe while a call is bound. -/
theorem tries_getUniverse {α : Type} {e : Evolution Session} {f : Universe → ResolveM α} {P : α → Session → Prop}
    {E : Failure → Session → Prop} (h : Tries e (f st.world) st P E) : Tries e (ExceptT.lift getUniverse >>= f) st P E :=
  h

/-- Reading the types while a call is bound. -/
theorem tries_getTypes {α : Type} {e : Evolution Session} {f : TypeStore → ResolveM α} {P : α → Session → Prop}
    {E : Failure → Session → Prop} (h : Tries e (f st.world.types) st P E) : Tries e (ExceptT.lift getTypes >>= f) st P E :=
  h

/-- A step that is quiet is a step of the binding of any call. So whatever only looks
something up is treated once, and may be used in the middle of every binding. -/
theorem works_of_quietly {α : Type} {x : SessionM α} {P : α → Session → Prop} (h : Works quietly x st P) :
    Works (resolving id) x st fun a st' => P a st' ∧ Quiet st st' := by
  have hwide : Works (resolving id) x st fun a st' => P a st' ∧ quietly.Leads st st' :=
    h.widen (fun hs => hs) fun hl => ⟨hl.1, hl.2.continues id, .of_moves hl.2.moves.of_nothing hl.2.steps hl.2.waiting⟩
  exact hwide.mono fun _ _ _ _ h => ⟨h.1, h.2.2.toQuiet⟩

/-- A step on the universe is quiet. Most of what a session does is of this form: what is
claimed of the universe is claimed of the session, and the rest stays. -/
theorem onUniverse_works {α : Type} {x : UniverseM α} {P : α → Universe → Prop} (h : Works binding x st.world P) :
    Works quietly (onUniverse x) st fun a st' => P a st'.world ∧ st' = { st with world := st'.world } := by
  intro hst
  obtain ⟨⟨hw, he⟩, hp⟩ := h hst.world
  refine ⟨⟨fun _ => ?_, ?_⟩, hp, rfl⟩
  · exact hst.world_only he.toKeeps (hw hst.world) rfl rfl
  · exact ⟨⟨he.toExtends, rfl, rfl, rfl⟩, he.moves, he.steps⟩

/-- A step on the types is quiet. -/
theorem onTypes_works {α : Type} {x : TypeM α} {P : α → TypeStore → Prop}
    (h : ∀ hs : st.world.types.WellFormed, Works (TypeStore.growth hs.guard) x st.world.types P) :
    Works quietly (onTypes x) st fun a st' =>
      P a st'.world.types ∧ st' = { st with world := { st.world with types := st'.world.types } } := by
  refine (onUniverse_works (Universe.onTypes_works (TypeStore.extending h))).mono fun a t _ _ ht => ?_
  obtain ⟨⟨hp, hworld⟩, heq⟩ := ht
  exact ⟨hp, heq.trans (congrArg (fun u => { st with world := u }) hworld)⟩

/-- An event is added to the trace. -/
theorem note_works (e : Trace.Event) : Works quietly (note e) st fun _ st' => st'.world = st.world := by
  refine Works.change ⟨fun h => ?_, ?_⟩ rfl
  · exact ⟨h.world, h.program, h.waiting⟩
  · exact ⟨⟨.refl _, rfl, rfl, rfl⟩, .refl, .refl⟩

/-- The universe with one more report keeps what it has. -/
theorem keeps_report (u : Universe) (d : Diagnostic) : u.Keeps { u with reports := u.reports.push d } :=
  .of_same rfl rfl rfl rfl rfl

/-- A well-formed universe stays so when something is reported. -/
theorem wellFormed_report {u : Universe} (h : u.WellFormed) (d : Diagnostic) :
    Universe.WellFormed { u with reports := u.reports.push d } :=
  h.evolve (keeps_report u d) h.types (fun _ _ h => .inl h) (fun _ h => .inl h) (fun _ h => .inl h) (.inl rfl) (fun _ h => .inl h)

/-- Something is reported. -/
theorem report_works {d : Diagnostic} (other : d.code ≠ .unresolvedSignature) : Works (resolving id) (report d) st fun _ st' =>
    Reports (([d].filter isFault).map (·.code)) st st' := by
  have hworld : (report d st).2 = { st with world := { st.world with reports := st.world.reports.push d } } := rfl
  intro hst
  rw [hworld]
  refine ⟨⟨fun _ => ?_, ⟨keeps_report _ d, rfl, rfl, fun p hp w hw => .inl ⟨p, hp, rfl, hw⟩⟩, .of_moves ?_ ?_ rfl⟩, ?_⟩
  · exact hst.world_only (keeps_report _ d) (wellFormed_report hst.world d) rfl rfl
  · exact .single ⟨hst.world, .report d other⟩
  · exact .single ⟨hst.world, .aside ⟨keeps_report _ d, .single ⟨hst.world, .report d other⟩, fun hp => hp.of_same rfl rfl rfl rfl, fun _ => rfl⟩⟩
  · refine .of_faults ([d].filter isFault) ?_ rfl
    simp [faults]

/-- A fault is reported. -/
theorem reportFault_works {d : Diagnostic} (hd : isFault d) :
    Works (resolving id) (report d) st fun _ st' => Reports [d.code] st st' := by
  refine (report_works (by simp [isFault] at hd; exact hd.2)).mono fun _ _ _ _ h => ?_
  rw [List.filter_cons_of_pos hd] at h
  exact h

/-- An error is a fault unless it is about a signature. -/
theorem isFault_error {code : Code} (hcode : code ≠ .unresolvedSignature) (span : Source.Span) (msg : String) :
    isFault (.error code span msg) := by
  simp [isFault, Diagnostic.error, hcode]

/-- An error other than one about a signature is reported. -/
theorem reportError_works {code : Code} (hcode : code ≠ .unresolvedSignature) (site : Site) (msg : String) :
    Works (resolving id) (reportError code site msg) st fun _ st' => Reports [code] st st' :=
  reportFault_works (isFault_error hcode site.span msg)

/-- A warning is no fault. -/
theorem reportWarning_works {code : Code} (hcode : code ≠ .unresolvedSignature) (site : Site) (msg : String) :
    Works (resolving id) (reportWarning code site msg) st fun _ st' => Reports [] st st' :=
  report_works hcode

/-! ## Failures

A failure under a code is the report of this code and nothing else; a silent one reports
nothing.
-/

/-- A call fails under a code that is given late or early, and its code is all that is
reported. A failure without a code is silent: nothing is reported, and it counts as early. -/
structure Fails (late : Bool) (st : Session) (f : Failure) (st' : Session) : Prop where
  /-- The code is reported. -/
  reports : Reports f.code.toList st st'
  /-- The code is given late or early. -/
  late : f.code.any Code.isLate = late

/-- What comes before a failure without reporting anything may be counted in. -/
theorem Fails.after {late : Bool} {f : Failure} (h : Quiet st st') (h' : Fails late st' f st'') : Fails late st f st'' :=
  ⟨h'.reports.after h, h'.late⟩

/-- A call fails without a report. -/
theorem failSilently_tries {α : Type} (site : Site) (kind : FailureKind) {P : α → Session → Prop} :
    Tries (resolving id) (failSilently site kind : ResolveM α) st P (Fails false st) :=
  Tries.throw ⟨(Quiet.refl st).reports, rfl⟩

/-- A call fails after the report of its code. -/
theorem failReported_tries {α : Type} (site : Site) (kind : FailureKind) {st₀ : Session} {code : Code}
    (h : Reports [code] st₀ st) {P : α → Session → Prop} :
    Tries (resolving id) (failReported site kind code : ResolveM α) st P (Fails code.isLate st₀) :=
  Tries.throw ⟨h, rfl⟩

/-- A call is reported and fails. It has no other outcome, so nothing need be shown of a
value. -/
theorem reject_tries {α : Type} (site : Site) (kind : FailureKind) {code : Code} (hcode : code ≠ .unresolvedSignature)
    (msg : String) {P : α → Session → Prop} :
    Tries (resolving id) (reject site kind code msg : ResolveM α) st P (Fails code.isLate st) :=
  Tries.lift (reportError_works hcode site msg) fun _ _ _ _ h => failReported_tries site kind h

/-- The types of the arguments are read from the session, unless one of them is bad or no
value. Then the call fails: silently for a bad argument, which was reported before, and under
a code for one without a value. -/
theorem argTypes_tries (site : Site) : Tries (resolving id) (argTypes site) st
    (fun args st' => args = site.args.map st.exprType ∧ st' = st ∧ ∀ t ∈ args, ¬ st.world.types.isBad t) (Fails false st) := by
  refine Tries.read ?_
  dsimp only
  split
  · exact Tries.stop (failSilently_tries site .badArgument)
  · rename_i hgood
    split
    · exact reject_tries site .badArgument (by decide) _
    · exact Tries.ret ⟨rfl, rfl, fun t ht hbad => hgood (List.any_eq_true.mpr ⟨t, ht, hbad⟩)⟩

end Session

end CallResolution
