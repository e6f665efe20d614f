import CallResolution.Proofs.Resolve.Run

/-!
# Progress of runs

A run performs the steps of a program in order. Every step binds at most one site, and what it
does not bind it leaves as it is, apart from calls that stop waiting. So when every site is
bound by one step, the outcomes that are recorded after some steps are those of the sites that
these steps bind, and each stays what it was when it was recorded.

The argument goes from one step to the run in the usual way. `runStep_works` says what a step
`Performs`, `Reached.runStep` that it keeps what is `Reached`, and `Fresh.reached` is the
induction over the steps. A session is written `st.before k`, before the `k`-th step of its
program; behind the last step it is the last session for every `k`, so a statement need not
ask whether there is a step. `Fresh.performs` and `Fresh.leads` are how later inductions over
a run are made: from one `before` to the next, and from one to any later.

What other modules say of a call, they say of its `Turn`: the step whose turn it is, with the
site as it stands then. `Turn.resolves` is what becomes of the call, `Turn.later` follows what
was recorded to any later session, and `Turn.binds` is what is known of a call whose site says
then that it is bound. A theorem about a bound call of a document comes from these and from a
lemma about `Binds`.

Main statements: `runStep_works` is what one step does, `Fresh.reached` what holds before
every step of a run, and `Fresh.recorded` what becomes of the outcome of a step until the end.
-/

namespace CallResolution

open Universe

/-- The site that a step binds. -/
def Step.site? : Step → Option SiteId
  | .call id _ => some id
  | .complete _ _ => none

/-- The sites that some steps bind, in order. -/
def called (steps : List Step) : List SiteId :=
  steps.filterMap Step.site?

theorem called_append (steps steps' : List Step) : called (steps ++ steps') = called steps ++ called steps' :=
  List.filterMap_append

/-- The steps that are calls are as many as the sites that they bind. -/
theorem callCount_eq_length_called (steps : List Step) : Session.callCount steps = (called steps).length := by
  rw [called, List.length_filterMap_eq_countP]
  refine List.countP_congr fun step _ => ?_
  cases step <;> simp [Step.site?]

/-- A bound call is not one that was not looked at. -/
theorem Resolution.IsBound.ne_empty {r : Resolution} (h : r.IsBound) : r ≠ {} := by
  rintro rfl
  simp [IsBound] at h

/-- Nothing is recorded at a site when and only when nothing was. -/
theorem Resolution.Later.eq_empty_iff {r r' : Resolution} (h : Later r r') : r' = {} ↔ r = {} := by
  rcases h with rfl | ⟨hb, hb', -⟩
  · rfl
  · exact iff_of_false hb'.ne_empty hb.ne_empty

/-- What is bound, its type, what takes the place of the call and what it raises stay as they
are. -/
theorem Resolution.Later.kept {r r' : Resolution} (h : Later r r') : r'.callable = r.callable ∧ r'.type = r.type ∧
    r'.anonymous = r.anonymous ∧ r'.lowered = r.lowered ∧ r'.throws = r.throws := by
  rcases h with rfl | ⟨-, -, hcallable, htype, -, -, hanonymous, hlowered, hthrows, -⟩
  · exact ⟨rfl, rfl, rfl, rfl, rfl⟩
  · exact ⟨hcallable, htype, hanonymous, hlowered, hthrows⟩

/-- What is recorded for a call that was refused or not: a failure and nothing else, or a
callable with a processed signature. -/
def Resolution.Records (u : Universe) (r : Resolution) : Option Failure → Prop
  | none => r.IsBound ∧ (u.method r.callable).isResolved
  | some _ => r = .ofFailure

namespace Resolution.Records

variable {u u' : Universe} {r r' : Resolution} {failure : Option Failure}

theorem fits (h : r.Records u failure) : r.Fits u := by
  cases failure with
  | none => exact .inr (.inr h)
  | some _ => exact .inr (.inl h)

theorem ne_empty (h : r.Records u failure) : r ≠ {} := by
  cases failure with
  | none => exact h.1.ne_empty
  | some _ =>
    rintro rfl
    cases h

/-- What was recorded says the same of the call later on. -/
theorem later (h : r.Records u failure) (hu : u.Keeps u') (hr : r.Later r') : r'.Records u' failure := by
  rcases hr with rfl | ⟨hb, hb', hcallable, -⟩
  · cases failure with
    | none => exact ⟨h.1, hu.isResolved h.2⟩
    | some _ => exact h
  · cases failure with
    | none => exact ⟨hb', hcallable ▸ hu.isResolved h.2⟩
    | some _ =>
      rw [show r = .ofFailure from h] at hb
      simp [IsBound, ofFailure] at hb

end Resolution.Records

namespace Session

variable {st st' : Session} {step : Step}

/-! ## One step

What a step does to the site that it binds, and that it leaves the others alone.
-/

/-- The outcome of a call, as it is recorded. -/
theorem Resolves.recorded {env : Env} {site : Site} {failure : Option Failure} (h : Resolves env site st failure st')
    (hsite : st.program.site? site.id = some site) : ∃ result, st'.program.site? site.id = some { site with result } ∧
      result.Records st'.world failure := by
  obtain ⟨r, hprogram, houtcome⟩ := h.result
  refine ⟨r, ?_, ?_⟩
  · simp [hprogram, Program.site?_setResult (Program.ne_zero_of_site? hsite), hsite]
  · cases failure with
    | none => exact ⟨houtcome.bound.state, houtcome.bound.resolved⟩
    | some f => exact houtcome.1

/-- The other sites stay as they are. -/
theorem Resolves.others {env : Env} {site : Site} {failure : Option Failure} (h : Resolves env site st failure st')
    (hsite : st.program.site? site.id = some site) {id : SiteId} (hid : id ≠ site.id) : AdvancesAt id st st' := by
  obtain ⟨r, hprogram, -⟩ := h.result
  exact advancesAt_setResult (Program.ne_zero_of_site? hsite) hid hprogram

/-- A session stays orderly when a site is bound for the first time. -/
theorem Resolves.orderly {env : Env} {site : Site} {failure : Option Failure} (h : Resolves env site st failure st')
    (ho : Orderly st) (hr : Runs st st') (hsite : st.program.site? site.id = some site) (hnew : site.result = {}) :
    Orderly st' where
  results id site' hsite' := by
    by_cases hid : id = site.id
    · subst hid
      obtain ⟨r, hr', houtcome⟩ := h.recorded hsite
      cases hsite'.symm.trans hr'
      exact houtcome.fits
    · obtain ⟨old, hold, hl⟩ := (h.others hsite hid).later hr hsite'
      exact (hl.fits (ho.results id old hold)).keeps hr.world
  waiting p hp w hw hsuper site' hsite' := by
    -- A call that waited before is bound, so it is not the call of the site, where nothing was recorded.
    rcases h.waiting p hp w hw with ⟨p', hp', -, hw'⟩ | ⟨hid, hfailure⟩
    · have hbound := ho.waiting p' hp' w hw' hsuper
      have hne : w.site ≠ site.id := fun heq => (hbound site (heq ▸ hsite)).ne_empty hnew
      obtain ⟨old, hold, hl⟩ := (h.others hsite hne).later hr hsite'
      exact hl.isBound (hbound old hold)
    · obtain ⟨r, hr', houtcome⟩ := h.recorded hsite
      rw [hid] at hsite'
      cases hsite'.symm.trans hr'
      cases failure with
      | none => exact houtcome.1
      | some f => exact absurd (hfailure rfl) hsuper

/-- What a step does: it binds its site, and leaves the others. Both kinds of steps are
covered by one structure, so the induction over the steps need not tell them apart. -/
structure Performs (step : Step) (st : Session) (failure : Option Failure) (st' : Session) : Prop where
  /-- The session stays orderly. -/
  orderly : Orderly st'
  /-- The other sites. -/
  others : ∀ id, step.site? ≠ some id → AdvancesAt id st st'
  /-- The site of a call. -/
  call : ∀ id env site, step = .call id env → st.program.site? id = some site → Resolves env site st failure st'
  /-- The class of a completion. -/
  complete : ∀ cls span, step = .complete cls span → Completes cls st st'

/-- A step whose site was not bound before. In a fresh session this is so of every step, since
each site is bound by one of them. -/
theorem runStep_works (hstep : KnowsStep st.world.types step)
    (hthis : ∀ id env, step = .call id env → (st.world.types.shape env.this).isDeclared) (ho : Orderly st)
    (hnew : ∀ id site, step.site? = some id → st.program.site? id = some site → site.result = {}) :
    Works running (runStep step) st (Performs step st) := by
  refine Works.of_sound fun hst => ?_
  cases step with
  | call id env =>
    refine Works.read ?_
    cases hsite : st.program.site? id with
    | none =>
      refine Works.ret ⟨ho, fun id' _ => Advances.refl st id', fun id' env' site h hsite' => ?_, nofun⟩
      cases h
      cases hsite.symm.trans hsite'
    | some site =>
      have hid : site.id = id := hst.2 id site hsite
      subst hid
      refine (resolve_works hstep (hthis _ env rfl) hsite).mono fun failure st' _ hl h => ⟨?_, fun id' hne => ?_, ?_, nofun⟩
      · exact h.orderly ho hl.2.toRuns hsite (hnew site.id site rfl hsite)
      · exact h.others hsite fun heq => hne (congrArg some heq.symm)
      · intro id' env' site' heq hsite'
        cases heq
        cases hsite.symm.trans hsite'
        exact h
  | complete cls span =>
    refine (complete_works hstep ho).bind fun _ st' _ hl h => Works.ret ⟨?_, fun id _ => h.releases.advances id, ?_, ?_⟩
    · exact ho.advance h.releases.advances hl.2.toRuns fun p hp => (List.mem_filter.mp (h.waiting ▸ hp)).1
    · intro id env site heq
      cases heq
    · intro cls' span' heq
      cases heq
      exact h

/-! ## The steps of a run

The induction over the steps. It is made once, in `Fresh.reached`; what is proved of single
steps from here on is said of the session before a step, about which `Reached` tells
everything that is kept.
-/

/-- The session after some steps. A call that fails does not end the run, so the steps are
followed whatever they come to. -/
def after (st : Session) (steps : List Step) : Session :=
  steps.foldl (fun st step => (runStep step st).2) st

/-- The session in which the run of its program starts: the beginning is noted. -/
def begun (st : Session) : Session :=
  (note { kind := .begin_, scope := .unit, name := "unit:" ++ st.program.path } st).2

/-- A run starts in the universe of the session. -/
theorem begun_world (st : Session) : st.begun.world = st.world :=
  rfl

/-- The session before the `k`-th step of its program, and the one behind the last step for
every larger `k`. -/
def before (st : Session) (k : Nat) : Session :=
  st.after (st.program.steps.take k)

@[simp] theorem before_zero (st : Session) : st.before 0 = st :=
  rfl

/-- The session before the step that follows a step. -/
theorem before_succ {k : Nat} (h : st.program.steps[k]? = some step) :
    st.before (k + 1) = (runStep step (st.before k)).2 := by
  simp [before, after, List.take_add_one, h]

/-- Nothing happens behind the last step. -/
theorem before_of_le {k : Nat} (h : st.program.steps.length ≤ k) :
    st.before k = st.before st.program.steps.length := by
  simp [before, List.take_of_length_le h]

/-- A session in which nothing was bound yet, with a program that binds every site once, in
the order of their numbers. This is what a run needs to start from, and all that is asked of a
session where runs are spoken of. -/
structure Fresh (st : Session) : Prop where
  /-- The session is well formed. -/
  wellFormed : st.WellFormed
  /-- The sites are numbered. -/
  numbered : st.program.Numbered
  /-- No call waits. -/
  waiting : st.waiting = []
  /-- Nothing is recorded. -/
  unbound : ∀ id site, st.program.site? id = some site → site.result = {}
  /-- Every site is bound by one step. -/
  called : called st.program.steps = List.range' 1 st.program.sites.size
  /-- There is a class around every call. -/
  frames : ∀ id env, .call id env ∈ st.program.steps → env.frames ≠ []
  /-- The innermost class around a call is declared. -/
  this : ∀ id env, .call id env ∈ st.program.steps → (st.world.types.shape env.this).isDeclared

/-- Noting the beginning of a run leaves a session fresh. -/
theorem Fresh.begun (h : Fresh st) : Fresh st.begun :=
  ⟨⟨h.wellFormed.world, h.wellFormed.program, h.wellFormed.waiting⟩, h.numbered, h.waiting, h.unbound, h.called, h.frames,
    h.this⟩

/-- What holds of a session that was reached from a fresh one by some steps. This is the
invariant of runs: that the program was run, that what waits is bound, and which sites
something is recorded at. -/
structure Reached (steps : List Step) (st st' : Session) : Prop where
  /-- The program was run. -/
  leads : running.Leads st st'
  /-- The session is orderly. -/
  orderly : Orderly st'
  /-- Outcomes are recorded at the sites that were bound. -/
  recorded : ∀ id site, st'.program.site? id = some site → (site.result = {} ↔ id ∉ CallResolution.called steps)

/-- The sites of two steps of a program differ. -/
theorem Fresh.site?_injective (h : Fresh st) {j k : Nat} {step' : Step} {id : SiteId}
    (hj : st.program.steps[j]? = some step) (hk : st.program.steps[k]? = some step') (hid : step.site? = some id)
    (hid' : step'.site? = some id) : j = k := by
  have hnodup : (CallResolution.called st.program.steps).Nodup := h.called ▸ List.nodup_range'
  obtain ⟨hj', rfl⟩ := List.getElem?_eq_some_iff.mp hj
  obtain ⟨hk', rfl⟩ := List.getElem?_eq_some_iff.mp hk
  have hpair := List.pairwise_iff_getElem.mp (List.pairwise_filterMap.mp hnodup)
  rcases Nat.lt_trichotomy j k with hlt | heq | hlt
  · exact absurd rfl (hpair j k hj' hk' hlt id hid id hid')
  · exact heq
  · exact absurd rfl (hpair k j hk' hj' hlt id hid' id hid)

/-- The site of a step is bound by no earlier one. -/
theorem Fresh.not_mem_called (h : Fresh st) {k : Nat} (hk : st.program.steps[k]? = some step) {id : SiteId}
    (hid : step.site? = some id) : id ∉ CallResolution.called (st.program.steps.take k) := by
  intro hmem
  obtain ⟨step', hstep', hid'⟩ := List.mem_filterMap.mp hmem
  obtain ⟨j, hj⟩ := List.mem_iff_getElem?.mp hstep'
  have hlt : j < k := by
    by_contra hge
    simp [hge] at hj
  rw [List.getElem?_take_of_lt hlt] at hj
  have := h.site?_injective hj hk hid' hid
  omega

/-- What a step does after the steps before it. -/
theorem Reached.performs {k : Nat} (hr : Reached (st.program.steps.take k) st st') (h : Fresh st)
    (hk : st.program.steps[k]? = some step) : running.Leads st' (runStep step st').2 ∧
      Performs step st' (runStep step st').1 (runStep step st').2 := by
  have hsound : running.Sound st' := running.sound hr.leads ⟨h.wellFormed, h.numbered⟩
  have hmem : step ∈ st'.program.steps := hr.leads.2.program.steps ▸ List.mem_of_getElem? hk
  have hthis (id : SiteId) (env : Env) (heq : step = .call id env) : (st'.world.types.shape env.this).isDeclared :=
    hr.leads.2.world.types.toGrows.isDeclared (h.this id env (heq ▸ List.mem_of_getElem? hk))
  refine runStep_works (hsound.1.program.steps step hmem) hthis hr.orderly (fun id site hid hsite => ?_) hsound
  exact (hr.recorded id site hsite).mpr (h.not_mem_called hk hid)

/-- One more step. -/
theorem Reached.runStep {k : Nat} (hr : Reached (st.program.steps.take k) st st') (h : Fresh st)
    (hk : st.program.steps[k]? = some step) : Reached (st.program.steps.take (k + 1)) st (runStep step st').2 := by
  obtain ⟨hl, hp⟩ := hr.performs h hk
  refine ⟨running.trans hr.leads hl, hp.orderly, fun id site' hsite' => ?_⟩
  have hcalled : CallResolution.called (st.program.steps.take (k + 1)) =
      CallResolution.called (st.program.steps.take k) ++ step.site?.toList := by
    rw [List.take_add_one, hk, called_append]
    cases step <;> rfl
  rw [hcalled, List.mem_append, Option.mem_toList]
  by_cases hid : step.site? = some id
  · refine iff_of_false ?_ (by simp [hid])
    cases step with
    | complete cls span => cases hid
    | call id' env =>
      cases hid
      obtain ⟨site, hsite, -⟩ := hl.2.program.of_site? hsite'
      have hnumber : site.id = id := (running.sound hr.leads ⟨h.wellFormed, h.numbered⟩).2 id site hsite
      subst hnumber
      obtain ⟨r, hr', houtcome⟩ := (hp.call site.id env site rfl hsite).recorded hsite
      cases hsite'.symm.trans hr'
      exact houtcome.ne_empty
  · obtain ⟨site, hsite, hlater⟩ := (hp.others id hid).later hl.2.toRuns hsite'
    rw [hlater.eq_empty_iff, hr.recorded id site hsite]
    simp [hid]

/-- What holds before every step of a program, by induction on the number of steps in front of
it. -/
theorem Fresh.reached (h : Fresh st) (k : Nat) : Reached (st.program.steps.take k) st (st.before k) := by
  induction k with
  | zero =>
    refine ⟨running.refl st, ⟨fun id site hsite => .inl (h.unbound id site hsite), fun p hp => ?_⟩, fun id site hsite => ?_⟩
    · rw [before_zero, h.waiting] at hp
      cases hp
    · simpa [CallResolution.called] using h.unbound id site hsite
  | succ k ih =>
    cases hk : st.program.steps[k]? with
    | some step =>
      rw [before_succ hk]
      exact ih.runStep h hk
    | none =>
      have hlen := List.getElem?_eq_none_iff.mp hk
      rw [before_of_le (Nat.le_succ_of_le hlen), ← before_of_le hlen, List.take_of_length_le (Nat.le_succ_of_le hlen),
        ← List.take_of_length_le hlen]
      exact ih

/-- What every step of a program does. Statements about calls start from this, with `Reached`
for what is known of the session before. -/
theorem Fresh.performs (h : Fresh st) {k : Nat} (hk : st.program.steps[k]? = some step) :
    running.Leads (st.before k) (st.before (k + 1)) ∧
      Performs step (st.before k) (runStep step (st.before k)).1 (st.before (k + 1)) := by
  rw [before_succ hk]
  exact (h.reached k).performs h hk

/-- What a step recorded stays until the end, apart from what bound calls get. -/
theorem Fresh.advancesAt (h : Fresh st) {k m : Nat} (hk : st.program.steps[k]? = some step) {id : SiteId}
    (hid : step.site? = some id) (hm : k + 1 ≤ m) :
    Runs (st.before (k + 1)) (st.before m) ∧ AdvancesAt id (st.before (k + 1)) (st.before m) := by
  induction m, hm using Nat.le_induction with
  | base => exact ⟨(running.refl _).2.toRuns, Advances.refl _ id⟩
  | succ m hm ih =>
    cases hstep : st.program.steps[m]? with
    | some step' =>
      obtain ⟨hl, hp⟩ := h.performs hstep
      have hne : step'.site? ≠ some id := fun hid' => by
        have := h.site?_injective hk hstep hid hid'
        omega
      exact ⟨ih.1.trans hl.2.toRuns, ih.2.trans (hp.others id hne)⟩
    | none =>
      have hlen := List.getElem?_eq_none_iff.mp hstep
      rw [before_of_le (Nat.le_succ_of_le hlen), ← before_of_le hlen]
      exact ih

/-- The outcome of a call, as it is recorded from then on: a failure stays a failure, and a
callable with a processed signature stays one. -/
theorem Fresh.recorded (h : Fresh st) {k m : Nat} {id : SiteId} {env : Env}
    (hk : st.program.steps[k]? = some (.call id env)) (hm : k + 1 ≤ m) {site : Site}
    (hsite : (st.before m).program.site? id = some site) :
    site.result.Records (st.before m).world (runStep (.call id env) (st.before k)).1 := by
  have hid : (Step.call id env).site? = some id := rfl
  obtain ⟨hruns, hadv⟩ := h.advancesAt hk hid hm
  obtain ⟨hl, hp⟩ := h.performs hk
  obtain ⟨made, hmade, hlater⟩ := hadv.later hruns hsite
  obtain ⟨old, hold, -⟩ := hl.2.program.of_site? hmade
  have hnumber : old.id = id := (running.sound (h.reached k).leads ⟨h.wellFormed, h.numbered⟩).2 id old hold
  subst hnumber
  obtain ⟨r, hr, houtcome⟩ := (hp.call old.id env old rfl hold).recorded hold
  cases hmade.symm.trans hr
  exact houtcome.later hruns.world hlater

/-! ## Whole runs

The program is run step by step, unless a step lacks something; nothing is lacking when the
session is fresh, so a run gives a result. Behind the last step the calls that still wait are
reported and the outcomes counted.
-/

/-- Warning of the calls that still wait leaves the program alone. -/
theorem reportWaiting_works : Works (resolving 0) reportWaiting st fun _ _ => True := by
  refine Works.read ?_
  refine Works.forM _ trivial fun p _ st₁ _ _ _ => Works.forM _ trivial fun w _ st₂ _ _ _ => ?_
  split
  · exact Works.ret trivial
  · exact (reportWarning_works (by decide) _ _).mono fun _ _ _ _ _ => trivial

/-- What a run does behind the last step: it warns of the calls that still wait, and counts.
-/
def close (p : Program) : SessionM Stats := do
  reportWaiting
  let stats := Stats.ofSites (callCount p.steps) (← get).program.sites.toList
  note { kind := .end_, scope := .unit, name := "unit:" ++ p.path,
         extra := [("sites", toString stats.sites), ("failed", toString stats.failed)] }
  return stats

/-- Performing steps one by one. -/
theorem forM_runStep (steps : List Step) (st : Session) :
    (steps.forM fun step => do let _ ← runStep step) st = ((), st.after steps) := by
  induction steps generalizing st with
  | nil => rfl
  | cons step steps ih => exact ih (runStep step st).2

/-- A run performs the steps from its beginning on, and closes. -/
theorem run_eq (st : Session) : run st = close st.program (st.begun.before st.program.steps.length) := by
  have hsteps : st.begun.before st.program.steps.length = st.begun.after st.program.steps := by
    unfold before
    rw [show st.begun.program.steps = st.program.steps from rfl, List.take_length]
  have hrun : run st = close st.program
      ((st.program.steps.forM fun step => do let _ ← runStep step : SessionM Unit) st.begun).2 := rfl
  rw [hrun, hsteps, forM_runStep]

/-- Closing a run leaves the program alone, and counts its sites. -/
theorem close_works (p : Program) : Works running (close p) st fun stats st' =>
    st'.program = st.program ∧ stats = Stats.ofSites (callCount p.steps) st.program.sites.toList := by
  refine (works_of_resolving reportWaiting_works).bind fun _ st₁ _ _ h₁ => Works.read ?_
  refine (note_runs _).bind fun _ st₂ _ _ h₂ => Works.ret ?_
  rw [h₂.2.program, h₁.2.program]
  exact ⟨rfl, rfl⟩

/-- A step that lacks nothing is performed, and the search goes on. -/
theorem firstFault?_cons {steps : List Step} (h : lacking? st.program step = none) :
    firstFault? (step :: steps) st = firstFault? steps (runStep step st).2 := by
  rw [firstFault?, get_bind_apply, h]
  rfl

/-- Steps that lack nothing when it is their turn. -/
theorem firstFault?_eq_none (steps : List Step) (st : Session)
    (h : ∀ k step, steps[k]? = some step → lacking? (st.after (steps.take k)).program step = none) :
    (firstFault? steps st).1 = none := by
  induction steps generalizing st with
  | nil => rfl
  | cons step steps ih =>
    have hfirst : lacking? st.program step = none := h 0 step rfl
    have hrest := ih (runStep step st).2 fun k step' hk => h (k + 1) step' hk
    rw [firstFault?_cons hfirst]
    exact hrest

/-- A number is that of a site when it is not greater than their number. -/
theorem site?_isSome_of_mem_called (h : Fresh st) {id : Nat} (hid : id ∈ CallResolution.called st.program.steps) :
    (st.program.site? id).isSome := by
  rw [h.called, List.mem_range'_1] at hid
  have hne : id ≠ 0 := by omega
  have hlt : id - 1 < st.program.sites.size := by omega
  simp [Program.site?, hne, hlt]

/-- Nothing is lacking in a fresh session. -/
theorem Fresh.tryRun_eq (h : Fresh st) : tryRun st = .ok (run st) := by
  have hnone : (firstFault? st.program.steps st).1 = none := by
    refine firstFault?_eq_none _ _ fun k step hk => ?_
    have hsame := (h.reached k).leads.2.program
    cases step with
    | complete cls span => rfl
    | call id env =>
      have hmem := List.mem_of_getElem? hk
      have hsome := site?_isSome_of_mem_called h (List.mem_filterMap.mpr ⟨_, hmem, rfl⟩)
      rw [← hsame.site?_isSome] at hsome
      have hframes := h.frames id env hmem
      unfold before at hsome
      simp [lacking?, Option.isNone_eq_false_iff.mpr hsome, hframes]
  unfold tryRun
  rw [hnone]

/-- What a run of a fresh session ends in. -/
theorem Fresh.run_leads (h : Fresh st) : Runs (st.begun.before st.program.steps.length) (run st).2 ∧
    (run st).2.program = (st.begun.before st.program.steps.length).program ∧
    (run st).1 = Stats.ofSites (callCount st.program.steps) (run st).2.program.sites.toList := by
  have hsound : running.Sound (st.begun.before st.program.steps.length) :=
    running.sound (h.begun.reached _).leads ⟨h.begun.wellFormed, h.begun.numbered⟩
  rw [run_eq]
  obtain ⟨hl, hprogram, hstats⟩ := close_works st.program hsound
  exact ⟨hl.2.toRuns, hprogram, hprogram ▸ hstats⟩

/-! ## Turns of calls

A `Turn` is how the other modules get hold of a call.
-/

/-- The turn of a call in the run of a program: the step whose turn it is, and the site that
it binds as it stands then. That the step is there and finds its site is part of a turn, so
statements about turns have no case for a step that is missing. -/
structure Turn (st : Session) where
  /-- The place of the step. -/
  place : Nat
  /-- The number of the site. -/
  id : SiteId
  /-- The classes around the call. -/
  env : Env
  /-- The site. -/
  site : Site
  /-- The step is one of the program. -/
  step : st.program.steps[place]? = some (.call id env)
  /-- The site is one of the program when it is its turn. -/
  found : (st.begun.before place).program.site? id = some site

namespace Turn

/-- The session in which the call is bound. All that the call may depend on is in it. -/
def start (t : Turn st) : Session :=
  st.begun.before t.place

/-- The failure of the call, if it fails, and the session that its binding ends in, before the
next step is taken. -/
def outcome (t : Turn st) : Option Failure × Session :=
  resolve t.env t.site t.start

end Turn

/-- A call step binds its site. -/
theorem runStep_call {id : SiteId} {env : Env} {site : Site} (h : st.program.site? id = some site) :
    runStep (.call id env) st = resolve env site st := by
  rw [runStep, get_bind_apply, h]

/-- The session before the next step is the one that the binding of the call ends in. -/
theorem Turn.before_succ (t : Turn st) : st.begun.before (t.place + 1) = t.outcome.2 := by
  have hk : st.begun.program.steps[t.place]? = some (.call t.id t.env) := t.step
  rw [Session.before_succ hk, runStep_call t.found]
  rfl

/-- The session in which a call is bound is well formed, and so is the one that its binding
ends in. -/
theorem Turn.sound (t : Turn st) (h : Fresh st) : running.Sound t.start ∧ running.Leads t.start t.outcome.2 := by
  refine ⟨running.sound (h.begun.reached t.place).leads ⟨h.begun.wellFormed, h.begun.numbered⟩, ?_⟩
  rw [← t.before_succ]
  exact (h.begun.performs t.step).1

/-- The number of the site is that of its place. -/
theorem Turn.site_id (t : Turn st) (h : Fresh st) : t.site.id = t.id :=
  (t.sound h).1.2 t.id t.site t.found

/-- What becomes of a call when it is its turn. All that is known of the binding of the call
follows from it. -/
theorem Turn.resolves (t : Turn st) (h : Fresh st) : Resolves t.env t.site t.start t.outcome.1 t.outcome.2 := by
  have hperforms := (h.begun.performs t.step).2
  rw [runStep_call t.found, t.before_succ] at hperforms
  exact hperforms.call t.id t.env t.site rfl t.found

/-- What the report about a method call that is refused says of other methods is so. -/
theorem Turn.justified (t : Turn st) (h : Fresh st) {name : String} {recv : Option Expr} (hcall : t.site.call = .method name recv)
    {e : Failure} (he : t.outcome.1 = some e) : Justified (unmatchedMethod t.start t.env t.site name recv) e t.outcome.2 := by
  obtain ⟨r, -, houtcome⟩ := (t.resolves h).result
  rw [he] at houtcome
  exact houtcome.2.justified name recv hcall

/-- The classes around the call and its site are known when it is its turn. -/
theorem Turn.knows (t : Turn st) (h : Fresh st) :
    KnowsEnv t.start.world.types t.env ∧ KnowsSite t.start.world.types t.site := by
  have hprogram := (t.sound h).1.1.program
  have hstep : Step.call t.id t.env ∈ t.start.program.steps := by
    rw [Turn.start, (h.begun.reached t.place).leads.2.program.steps]
    exact List.mem_of_getElem? t.step
  exact ⟨hprogram.steps _ hstep, hprogram.sites t.site (Program.mem_of_site? t.found)⟩

/-- The type arguments that a call is instantiated with are known. -/
theorem appliedTypeArgs_knows {s : TypeStore} {site : Site} (h : KnowsSite s site) :
    ∀ t ∈ appliedTypeArgs site, s.Knows t := by
  intro t ht
  unfold appliedTypeArgs at ht
  split at ht
  · exact h.typeArgs t ht
  · simp at ht

/-- What the site of a call holds right behind its turn. -/
theorem Turn.site?_outcome (t : Turn st) (h : Fresh st) {r : Resolution}
    (hr : t.outcome.2.program = t.start.program.setResult t.site.id r) :
    t.outcome.2.program.site? t.id = some { t.site with result := r } := by
  have hfound : t.start.program.site? t.site.id = some t.site := t.site_id h ▸ t.found
  rw [hr, ← t.site_id h, Program.site?_setResult (Program.ne_zero_of_site? hfound), if_pos rfl, hfound]
  rfl

/-- What is recorded at the site of a turn from then on: nothing of the site but its result
has changed, and that came from the outcome of the turn. -/
theorem Turn.later (t : Turn st) (h : Fresh st) {m : Nat} (hm : t.place < m) {site : Site}
    (hsite : (st.begun.before m).program.site? t.id = some site) :
    site = { t.site with result := site.result } ∧ Runs t.outcome.2 (st.begun.before m) ∧
      ∃ r, t.outcome.2.program = t.start.program.setResult t.site.id r ∧ r.Later site.result := by
  have hid : (Step.call t.id t.env).site? = some t.id := rfl
  obtain ⟨hruns, hadv⟩ := h.begun.advancesAt t.step hid hm
  rw [t.before_succ] at hruns hadv
  obtain ⟨r, hprogram, -⟩ := (t.resolves h).result
  obtain ⟨result, hresult, hlater⟩ := hadv _ (t.site?_outcome h hprogram)
  cases hsite.symm.trans hresult
  exact ⟨rfl, hruns, r, hprogram, hlater⟩

/-- A call that is bound at its turn, and what is recorded of it then. The condition is about
a later record, because it is the site at some stage of the run that statements about
documents look at. -/
theorem Turn.binds (t : Turn st) (h : Fresh st) {r r' : Resolution}
    (hr : t.outcome.2.program = t.start.program.setResult t.site.id r) (hlater : r.Later r') (hbound : r'.IsBound) :
    Binds t.env t.site t.start r t.outcome.2 := by
  obtain ⟨r₀, hprogram, houtcome⟩ := (t.resolves h).result
  have hsame : r₀ = r :=
    congrArg Site.result (Option.some.inj ((t.site?_outcome h hprogram).symm.trans (t.site?_outcome h hr)))
  subst hsame
  cases hfailure : t.outcome.1 with
  | none =>
    rw [hfailure] at houtcome
    exact houtcome
  | some f =>
    rw [hfailure] at houtcome
    have hfailed : ¬ r₀.IsBound := by simp [houtcome.1, Resolution.IsBound, Resolution.ofFailure]
    exact absurd (hlater.eq_of_not_isBound hfailed ▸ hbound) hfailed

/-- A call that its site shows to be bound right behind its turn is bound to what the site
holds. -/
theorem Turn.recorded (t : Turn st) (h : Fresh st) {site : Site} (hsite : t.outcome.2.program.site? t.id = some site)
    (hbound : site.result.IsBound) :
    site = { t.site with result := site.result } ∧ Binds t.env t.site t.start site.result t.outcome.2 := by
  obtain ⟨r, hprogram, -⟩ := (t.resolves h).result
  cases hsite.symm.trans (t.site?_outcome h hprogram)
  exact ⟨rfl, t.binds h hprogram (.inl rfl) hbound⟩

/-- The binding of a call holds of every later session. -/
theorem Turn.bound (t : Turn st) (h : Fresh st) {m : Nat} (hm : t.place < m) {site : Site}
    (hsite : (st.begun.before m).program.site? t.id = some site) (hbound : site.result.IsBound) :
    Bound t.env site.call.isMethod (appliedTypeArgs site) (site.args.map t.start.exprType) site.result (st.begun.before m).world := by
  obtain ⟨hsame, hruns, r, hr, hlater⟩ := t.later h hm hsite
  obtain ⟨hsound, hleads⟩ := t.sound h
  obtain ⟨henv, hknown⟩ := t.knows h
  have hg := hleads.2.world.types.toGrows
  have hb := (t.binds h hr hlater hbound).bound.keeps hruns.world (running.sound hleads hsound).1.world (henv.grows hg)
    (fun a ha => hg.knows (appliedTypeArgs_knows hknown a ha)) fun a ha => hg.knows (hsound.1.knows_args hknown.toKnowsArgs a ha)
  rw [hsame]
  exact hb.later hlater

/-- How a bound method call got its callable, from its turn on. -/
theorem Turn.picks (t : Turn st) (h : Fresh st) {m : Nat} (hm : t.place < m) {site : Site}
    (hsite : (st.begun.before m).program.site? t.id = some site) (hbound : site.result.IsBound) {name : String} {recv : Option Expr}
    (hcall : site.call = .method name recv) :
    ∃ x r q, CalledOn t.start (st.begun.before m).world t.env name recv x r q ∧
      (st.begun.before m).world.Picks t.env site.typeArgs (site.args.map t.start.exprType) x (recv.map t.start.qualifierOf) name
        site.result := by
  obtain ⟨hsame, hruns, r, hr, hlater⟩ := t.later h hm hsite
  obtain ⟨hsound, hleads⟩ := t.sound h
  obtain ⟨henv, hknown⟩ := t.knows h
  rw [hsame] at hcall
  obtain ⟨x, on, q, hcalled, hpicks⟩ := (t.binds h hr hlater hbound).picks name recv hcall
  have hg := hleads.2.world.types.toGrows
  have hqualifier : KnowsQualifier t.outcome.2.world.types (recv.map t.start.qualifierOf) := by
    intro q hq
    obtain ⟨e, he, rfl⟩ := Option.map_eq_some_iff.mp hq
    have hcalls := hknown.call
    rw [show t.site.call = .method name recv from hcall] at hcalls
    exact hg.knows (hsound.1.knows_exprType (hcalls e he))
  have hkept := hruns.world.picks (running.sound hleads hsound).1.world (henv.grows hg) (fun a ha => hg.knows (hknown.typeArgs a ha))
    (fun a ha => hg.knows (hsound.1.knows_args hknown.toKnowsArgs a ha)) hqualifier hpicks
  rw [hsame]
  exact ⟨x, on, q, hcalled.keeps hruns.world (henv.grows hg), Picks.later hkept hlater⟩

/-- The turn of the call that is the step at a place, if it is one. With it a turn of a given
document can be named and looked at. -/
def turnAt? (st : Session) (place : Nat) : Option (Turn st) :=
  match hstep : st.program.steps[place]? with
  | some (.call id env) =>
    match hfound : (st.begun.before place).program.site? id with
    | some site => some ⟨place, id, env, site, hstep, hfound⟩
    | none => none
  | _ => none

end Session

/-- When every site was looked at, the counts of the outcomes add up to the number of sites.
-/
theorem Stats.ofSites_sum {sites : List Site} (h : ∀ site ∈ sites, site.result.state ≠ .unresolved) (looked : Nat) :
    (ofSites looked sites).resolved + (ofSites looked sites).failed + (ofSites looked sites).deferred = sites.length := by
  induction sites with
  | nil => rfl
  | cons site sites ih =>
    have hrest := ih fun s hs => h s (by simp [hs])
    have hsite := h site (by simp)
    unfold ofSites at hrest ⊢
    cases hstate : site.result.state with
    | unresolved => exact absurd hstate hsite
    | resolved => simp [hstate] at hrest ⊢; omega
    | failed => simp [hstate] at hrest ⊢; omega
    | deferred => simp [hstate] at hrest ⊢; omega

end CallResolution
