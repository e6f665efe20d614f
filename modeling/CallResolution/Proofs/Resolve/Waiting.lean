import CallResolution.Proofs.Resolve.Progress

/-!
# Calls that wait

A deferred call constructs an open local class and waits for it; a resolved call passes an
argument for each capture of the class that it constructs. Binding a call and completing a
class both keep this, so it holds before every step of a run.

A call waits under the type that it was told to wait for, which is the class itself. The
completion of a type releases the calls that wait under this very type, and finishes the class
behind it. So what is written with type arguments finishes a class and releases nothing.

Main statements: `Fresh.supplies` is the invariant. `Turn.deferred_iff_open` says which calls
are deferred when they are bound, and `Fresh.deferred_iff` which ones still are later on;
`Fresh.isComplete_iff` says which classes are finished, and `Fresh.unawaited` that nothing
waits for a class that was completed by its own name. `Turn.deferred_iff` puts this together.
-/

namespace CallResolution

open Universe

/-- What a call passes for captures depends on its callable and on the arguments for captures.
-/
theorem Session.Passes.congr {u : Universe} {r r' : Resolution} (h : Session.Passes u r) (callable : r'.callable = r.callable)
    (localArgs : r'.localArgs = r.localArgs) : Session.Passes u r' := by
  cases h with
  | method hm => exact .method (callable ▸ hm)
  | captured hc hdone hr => exact .captured (callable ▸ hc) hdone (localArgs ▸ hr)

namespace Session

variable {st st' : Session}

/-- What bound calls pass for captures, what they wait for, and what takes their place. It is
the invariant of a run, and says in both directions how deferred calls and the calls that wait
go together. -/
structure Supplies (st : Session) : Prop where
  /-- The bodies of classes are in order. -/
  bodies : st.world.SoundBodies
  /-- A resolved call passes an argument for each capture. -/
  resolved : ∀ id site, st.program.site? id = some site → site.result.state = .resolved → Passes st.world site.result
  /-- A deferred call waits for the class that it constructs. -/
  deferred : ∀ id site, st.program.site? id = some site → site.result.state = .deferred →
    ∃ cls, st.world.Constructs cls site.result.callable ∧ st.Awaits cls id
  /-- What waits itself does so for the class that it constructs. -/
  waiting : ∀ p ∈ st.waiting, ∀ w ∈ p.2, w.isSuper = false → ∀ site, st.program.site? w.site = some site →
    st.world.Constructs p.1 site.result.callable
  /-- What takes the place of a call reaches what the call is bound to. -/
  lowers : ∀ id site, st.program.site? id = some site → Lowers st.world site.result

/-- A call that waits for a class constructs it. -/
theorem Supplies.constructs (hs : Supplies st) {cls : TypeId} {id : SiteId} (h : st.Awaits cls id) {site : Site}
    (hsite : st.program.site? id = some site) : st.world.Constructs cls site.result.callable := by
  obtain ⟨w, hw, rfl, hsuper⟩ := h
  cases hlookup : st.waiting.lookup cls with
  | none => simp [hlookup] at hw
  | some ws =>
    rw [hlookup] at hw
    exact hs.waiting (cls, ws) (TypeStore.mem_of_lookup hlookup) w hw hsuper site hsite

/-! ## Steps

A step keeps the invariant: binding a call that supplies what it has to or starts to wait, and
completing a class, which gives those that wait for it what they lack.
-/

/-- Binding a call for the first time. Of the other calls nothing changes, because captures
are added to open classes only and these calls construct others or wait. -/
theorem Resolves.supplies {env : Env} {site : Site} {failure : Option Failure} (h : Resolves env site st failure st')
    (hst : st.WellFormed) (ho : Orderly st) (hsite : st.program.site? site.id = some site)
    (hnew : site.result = {}) (hs : Supplies st) : Supplies st' := by
  have hid := Program.ne_zero_of_site? hsite
  have hkinds := h.moves.sameKinds hs.bodies
  have hconstructs {cls : TypeId} {id : MethodId} (hc : st.world.Constructs cls id) : st'.world.Constructs cls id :=
    hkinds.constructs hst.world h.moves.types_extends hc
  obtain ⟨r, hprogram, houtcome⟩ := h.result
  -- Nothing is recorded at the other sites.
  have hsites {id : SiteId} {site' : Site} (hsite' : st'.program.site? id = some site') :
      id = site.id ∧ site'.result = r ∨ id ≠ site.id ∧ st.program.site? id = some site' := by
    rw [hprogram, Program.site?_setResult hid] at hsite'
    split at hsite'
    · rename_i heq
      obtain ⟨old, -, rfl⟩ := Option.map_eq_some_iff.mp hsite'
      exact .inl ⟨heq, rfl⟩
    · exact .inr ⟨‹_›, hsite'⟩
  have hsupplied (hbound : r.IsBound) : Supplied site.id r st st' := by
    cases failure with
    | none => exact houtcome.supplied hs.bodies
    | some f =>
      rw [houtcome.1] at hbound
      exact absurd hbound (by simp [Resolution.IsBound, Resolution.ofFailure])
  refine ⟨h.moves.soundBodies hs.bodies, fun id site' hsite' hstate => ?_, fun id site' hsite' hstate => ?_,
    fun p hp w hw hsuper site' hsite' => ?_, fun id site' hsite' => ?_⟩
  · rcases hsites hsite' with ⟨rfl, rfl⟩ | ⟨-, hold⟩
    · exact (hsupplied (.inl hstate)).resolved hstate
    · exact (hs.resolved id site' hold hstate).moves h.moves hst.world hs.bodies
  · rcases hsites hsite' with ⟨rfl, rfl⟩ | ⟨-, hold⟩
    · obtain ⟨cls, hc, -, -, hawaits⟩ := (hsupplied (.inr hstate)).deferred hstate
      exact ⟨cls, hc, hawaits⟩
    · obtain ⟨cls, hc, hawaits⟩ := hs.deferred id site' hold hstate
      exact ⟨cls, hconstructs hc, h.awaits cls id hawaits⟩
  · -- What waited before is bound, so it is not the call of the site, where nothing was recorded.
    have hother {p' : TypeId × List WaitingSite} (hp' : p' ∈ st.waiting) (hkey : p'.1 = p.1) (hw' : w ∈ p'.2) :
        st'.world.Constructs p.1 site'.result.callable := by
      have hbound := ho.waiting p' hp' w hw' (by simp [hsuper])
      rcases hsites hsite' with ⟨heq, -⟩ | ⟨-, hold⟩
      · exact absurd hnew (hbound site (heq ▸ hsite)).ne_empty
      · exact hconstructs (hkey ▸ hs.waiting p' hp' w hw' hsuper site' hold)
    rcases h.waiting p hp w hw with ⟨p', hp', hkey, hw'⟩ | ⟨heq, hfailure⟩
    · exact hother hp' hkey hw'
    · rcases hsites hsite' with ⟨-, rfl⟩ | ⟨hne, -⟩
      · cases failure with
        | some f => simp [hsuper] at hfailure
        | none =>
          rcases (houtcome.supplied hs.bodies).waiting p hp w hw with ⟨p', hp', hkey, hw'⟩ | hw' | hc
          · exact hother hp' hkey hw'
          · simp [hsuper] at hw'
          · exact hc
      · exact absurd heq hne
  · rcases hsites hsite' with ⟨-, rfl⟩ | ⟨-, hold⟩
    · cases failure with
      | none => exact (houtcome.supplied hs.bodies).lowers
      | some f => exact houtcome.1 ▸ .of_none rfl rfl
    · exact (hs.lowers id site' hold).moves h.moves hst.world

/-- Completing a class. The calls that waited for it get what they lack, and pass what the
finished class captures. -/
theorem Completes.supplies {cls : TypeId} (h : Completes cls st st') (hst : st.WellFormed) (hl : RunsOn st st')
    (hs : Supplies st) : Supplies st' := by
  have hkinds := hl.moves.sameKinds hs.bodies
  have hconstructs {cls : TypeId} {id : MethodId} (hc : st.world.Constructs cls id) : st'.world.Constructs cls id :=
    hkinds.constructs hst.world hl.moves.types_extends hc
  have hsites {id : SiteId} {site' : Site} (hsite' : st'.program.site? id = some site') :
      ∃ site, st.program.site? id = some site ∧ site.result.Later site'.result ∧
        Refills st'.world cls (st.Awaits cls id) site.result site'.result := by
    obtain ⟨site, hsite, -⟩ := hl.program.of_site? hsite'
    obtain ⟨r, hr, hlater, hrefills⟩ := h.releases id site hsite
    cases hsite'.symm.trans hr
    exact ⟨site, hsite, hlater, hrefills⟩
  refine ⟨hl.moves.soundBodies hs.bodies, fun id site' hsite' hstate => ?_, fun id site' hsite' hstate => ?_,
    fun p hp w hw hsuper site' hsite' => ?_, fun id site' hsite' => ?_⟩
  · obtain ⟨site, hsite, -, hrefills⟩ := hsites hsite'
    by_cases hawaits : st.Awaits cls id
    · refine .captured (hrefills.callable ▸ hconstructs (hs.constructs hawaits hsite)) h.done (hrefills.given hawaits).2
    · obtain ⟨hsame, hargs⟩ := hrefills.kept hawaits
      have hpasses := hs.resolved id site hsite (hsame.symm.trans hstate)
      exact (hpasses.moves hl.moves hst.world hs.bodies).congr hrefills.callable hargs
  · obtain ⟨site, hsite, -, hrefills⟩ := hsites hsite'
    have hnot : ¬ st.Awaits cls id := fun hawaits => (hrefills.given hawaits).1 hstate
    obtain ⟨cls', hc, hawaits⟩ := hs.deferred id site hsite ((hrefills.kept hnot).1.symm.trans hstate)
    have hne : cls' ≠ cls := fun heq => hnot (heq ▸ hawaits)
    refine ⟨cls', hrefills.callable ▸ hconstructs hc, ?_⟩
    unfold Awaits
    rw [h.waiting, Assoc.lookup_filter_of_ne hne]
    exact hawaits
  · obtain ⟨site, hsite, -, hrefills⟩ := hsites hsite'
    rw [h.waiting] at hp
    exact hrefills.callable ▸ hconstructs (hs.waiting p (List.mem_filter.mp hp).1 w hw hsuper site hsite)
  · obtain ⟨site, hsite, hlater, -⟩ := hsites hsite'
    exact ((hs.lowers id site hsite).moves hl.moves hst.world).later hlater

/-- Performing a step. -/
theorem Performs.supplies {step : Step} {failure : Option Failure} (h : Performs step st failure st') (hst : st.WellFormed)
    (hnumbered : st.program.Numbered) (ho : Orderly st) (hl : RunsOn st st') (hs : Supplies st)
    (hnew : ∀ id, step.site? = some id → ∃ site, st.program.site? id = some site ∧ site.result = {}) : Supplies st' := by
  cases step with
  | call id env =>
    obtain ⟨site, hsite, hempty⟩ := hnew id rfl
    obtain rfl := hnumbered id site hsite
    exact (h.call _ env site rfl hsite).supplies hst ho hsite hempty hs
  | complete cls span => exact (h.complete cls span rfl).supplies hst hl hs

/-! ## Runs

The induction over the steps, from a fresh session in which no call is bound and none waits.
-/

/-- The site of a step is there when it is its turn, and nothing is recorded at it. -/
theorem Fresh.exists_site (h : Fresh st) {k : Nat} {step : Step} (hk : st.program.steps[k]? = some step) {id : SiteId}
    (hid : step.site? = some id) : ∃ site, (st.before k).program.site? id = some site ∧ site.result = {} := by
  have hmem := List.mem_of_getElem? hk
  have hsome := site?_isSome_of_mem_called h (List.mem_filterMap.mpr ⟨step, hmem, hid⟩)
  rw [← (h.reached k).leads.2.program.site?_isSome] at hsome
  obtain ⟨site, hsite⟩ := Option.isSome_iff_exists.mp hsome
  exact ⟨site, hsite, ((h.reached k).recorded id site hsite).mpr (h.not_mem_called hk hid)⟩

/-- What holds before every step of a program holds of what calls pass and wait for. -/
theorem Fresh.supplies (h : Fresh st) (hbodies : st.world.SoundBodies) (k : Nat) : Supplies (st.before k) := by
  induction k with
  | zero =>
    refine ⟨hbodies, fun id site hsite hstate => ?_, fun id site hsite hstate => ?_, fun p hp => ?_, fun id site hsite => ?_⟩
    · simp [h.unbound id site hsite] at hstate
    · simp [h.unbound id site hsite] at hstate
    · rw [before_zero, h.waiting] at hp
      cases hp
    · rw [h.unbound id site hsite]
      exact .of_none rfl rfl
  | succ k ih =>
    cases hk : st.program.steps[k]? with
    | some step =>
      obtain ⟨hl, hp⟩ := h.performs hk
      have hsound := running.sound (h.reached k).leads ⟨h.wellFormed, h.numbered⟩
      exact hp.supplies hsound.1 hsound.2 (h.reached k).orderly hl.2 ih fun id hid => h.exists_site hk hid
    | none =>
      have hlen := List.getElem?_eq_none_iff.mp hk
      rw [before_of_le (Nat.le_succ_of_le hlen), ← before_of_le hlen]
      exact ih

/-- Running some more steps. -/
theorem Fresh.leads (h : Fresh st) {n m : Nat} (hm : n ≤ m) : running.Leads (st.before n) (st.before m) := by
  induction m, hm using Nat.le_induction with
  | base => exact running.refl _
  | succ m _ ih =>
    cases hstep : st.program.steps[m]? with
    | some step => exact running.trans ih (h.performs hstep).1
    | none =>
      have hlen := List.getElem?_eq_none_iff.mp hstep
      rw [before_of_le (Nat.le_succ_of_le hlen), ← before_of_le hlen]
      exact ih

/-- The session after the binding of the call runs on to the later ones. -/
theorem Turn.runsOn (t : Turn st) (h : Fresh st) {m : Nat} (hm : t.place < m) : RunsOn t.outcome.2 (st.begun.before m) := by
  rw [← t.before_succ]
  exact (h.begun.leads hm).2

/-! ## Deferred calls

Which calls are deferred, and until when.
-/

/-- A call that was bound before a step is deferred after it when it was before, unless the
step completes its class. A step that names the class with type arguments is none of these,
since calls wait for the class itself. -/
theorem Performs.deferred_iff {step : Step} {failure : Option Failure} (h : Performs step st failure st')
    (hnumbered : st.program.Numbered) (hs : Supplies st) {id : SiteId} (hid : step.site? ≠ some id)
    (hfound : ∀ id, step.site? = some id → (st.program.site? id).isSome) {site site' : Site}
    (hsite : st.program.site? id = some site) (hsite' : st'.program.site? id = some site') {cls : TypeId}
    (hcls : st.world.Constructs cls site.result.callable) :
    site'.result.callable = site.result.callable ∧
      (site'.result.state = .deferred ↔ site.result.state = .deferred ∧ ∀ span, step ≠ .complete cls span) := by
  cases step with
  | call id' env =>
    obtain ⟨called, hcalled⟩ := Option.isSome_iff_exists.mp (hfound id' rfl)
    obtain rfl := hnumbered id' called hcalled
    obtain ⟨r, hprogram, -⟩ := (h.call _ env called rfl hcalled).result
    have hne : id ≠ called.id := fun heq => hid (congrArg some heq.symm)
    rw [hprogram, Program.site?_setResult (Program.ne_zero_of_site? hcalled), if_neg hne, hsite] at hsite'
    cases hsite'
    simp
  | complete cls' span =>
    obtain ⟨r, hr, -, hrefills⟩ := (h.complete cls' span rfl).releases id site hsite
    cases hsite'.symm.trans hr
    refine ⟨hrefills.callable, fun hstate => ?_, fun ⟨hstate, hother⟩ => ?_⟩
    · have hnot : ¬ st.Awaits cls' id := fun hawaits => (hrefills.given hawaits).1 hstate
      have hbefore := (hrefills.kept hnot).1.symm.trans hstate
      refine ⟨hbefore, fun span' heq => ?_⟩
      cases heq
      obtain ⟨cls'', hc, hawaits⟩ := hs.deferred id site hsite hbefore
      exact hnot (hcls.owner.symm.trans hc.owner ▸ hawaits)
    · have hnot : ¬ st.Awaits cls' id := fun hawaits =>
        hother span (by rw [(hs.constructs hawaits hsite).owner.symm.trans hcls.owner])
      exact (hrefills.kept hnot).1.trans hstate

/-- From the step that binds a call on, a constructor call is deferred as long as its class is
not completed by its own name, if it is at first. By induction on the steps behind the call.
-/
theorem Fresh.deferred_iff (h : Fresh st) (hbodies : st.world.SoundBodies) {k n : Nat} {id : SiteId} {env : Env}
    (hk : st.program.steps[k]? = some (.call id env)) (hn : k + 1 ≤ n) {site : Site}
    (hsite : (st.before (k + 1)).program.site? id = some site) {cls : TypeId}
    (hcls : (st.before (k + 1)).world.Constructs cls site.result.callable) :
    ∃ site', (st.before n).program.site? id = some site' ∧ site'.result.callable = site.result.callable ∧
      (site'.result.state = .deferred ↔ site.result.state = .deferred ∧
        ∀ j span, k < j → j < n → st.program.steps[j]? ≠ some (.complete cls span)) := by
  induction n, hn using Nat.le_induction with
  | base => exact ⟨site, hsite, rfl, fun hstate => ⟨hstate, fun j _ hj hj' => by omega⟩, And.left⟩
  | succ m hm ih =>
    obtain ⟨old, hold, hcallable, hstate⟩ := ih
    have hbefore : (∀ j span, k < j → j < m + 1 → st.program.steps[j]? ≠ some (.complete cls span)) ↔
        (∀ j span, k < j → j < m → st.program.steps[j]? ≠ some (.complete cls span)) ∧
          ∀ span, st.program.steps[m]? ≠ some (.complete cls span) := by
      refine ⟨fun hall => ⟨fun j span hj hj' => hall j span hj (by omega), fun span => hall m span hm (by omega)⟩,
        fun ⟨hall, hlast⟩ j span hj hj' => ?_⟩
      rcases Nat.lt_succ_iff_lt_or_eq.mp hj' with hlt | rfl
      · exact hall j span hj hlt
      · exact hlast span
    rw [hbefore]
    cases hstep : st.program.steps[m]? with
    | some step =>
      obtain ⟨hl, hp⟩ := h.performs hstep
      have hsound := running.sound (h.reached m).leads ⟨h.wellFormed, h.numbered⟩
      have hsound₁ := running.sound (h.reached (k + 1)).leads ⟨h.wellFormed, h.numbered⟩
      have hmoves := (h.leads hm).2.moves
      have hcls' : (st.before m).world.Constructs cls old.result.callable := hcallable ▸
        (hmoves.sameKinds (h.supplies hbodies (k + 1)).bodies).constructs hsound₁.1.world hmoves.types_extends hcls
      have hid : step.site? ≠ some id := fun hid' => by
        have := h.site?_injective hk hstep rfl hid'
        omega
      obtain ⟨r, hr⟩ := hl.2.program.sites id old hold
      have hiff := hp.deferred_iff hsound.2 (h.supplies hbodies m) hid
        (fun id' hid' => (h.exists_site hstep hid').elim fun found hfound => by rw [hfound.1]; rfl) hold hr hcls'
      refine ⟨_, hr, hiff.1.trans hcallable, hiff.2.trans ?_⟩
      simp only [hstate, and_assoc, ne_eq, Option.some.injEq]
    | none =>
      have hlen := List.getElem?_eq_none_iff.mp hstep
      rw [before_of_le (Nat.le_succ_of_le hlen), ← before_of_le hlen]
      exact ⟨old, hold, hcallable, by simp [hstate]⟩

/-- A constructor call that was just bound is deferred when and only when its class is open.
-/
theorem Turn.deferred_iff_open (t : Turn st) (h : Fresh st) (hbodies : st.world.SoundBodies) {site : Site}
    (hsite : t.outcome.2.program.site? t.id = some site) (hbound : site.result.IsBound) {cls : TypeId}
    (hcls : t.outcome.2.world.Constructs cls site.result.callable) :
    site.result.state = .deferred ↔ t.outcome.2.world.isComplete cls = false := by
  have hsupplied := (t.recorded h hsite hbound).2.supplied (h.begun.supplies hbodies t.place).bodies
  refine ⟨fun hstate => ?_, fun hopen => hbound.resolve_left fun hstate => ?_⟩
  · obtain ⟨cls', hc, -, hopen, -⟩ := hsupplied.deferred hstate
    rwa [hc.owner.symm.trans hcls.owner] at hopen
  · cases hsupplied.resolved hstate with
    | method hm => exact hm.not_constructs cls hcls
    | captured hc hdone _ =>
      rw [hc.owner.symm.trans hcls.owner, hopen] at hdone
      cases hdone

/-! ## Completed classes

Which classes are finished, and what still waits for one that is. A completion with type
arguments finishes the class without releasing a call, so a call may stay deferred although
its class is complete.
-/

/-- Nothing waits for a class that was completed by its own name. The class is finished from
then on, and a call of a finished class does not start to wait. -/
theorem Fresh.unawaited (h : Fresh st) {j n : Nat} {cls : TypeId} {span : Source.Span}
    (hj : st.program.steps[j]? = some (.complete cls span)) (hn : j + 1 ≤ n) :
    (st.before n).world.isComplete cls ∧ ¬ (st.before n).IsAwaited cls := by
  induction n, hn using Nat.le_induction with
  | base =>
    have hcompletes := (h.performs hj).2.complete cls span rfl
    refine ⟨hcompletes.done, fun ⟨p, hp, hkey⟩ => ?_⟩
    rw [hcompletes.waiting] at hp
    exact absurd hkey (by simpa using (List.mem_filter.mp hp).2)
  | succ m hm ih =>
    obtain ⟨hdone, hnone⟩ := ih
    cases hstep : st.program.steps[m]? with
    | some step =>
      obtain ⟨hl, hp⟩ := h.performs hstep
      have hsound := running.sound (h.reached m).leads ⟨h.wellFormed, h.numbered⟩
      have hmem : Step.complete cls span ∈ (st.before m).program.steps :=
        (h.reached m).leads.2.program.steps ▸ List.mem_of_getElem? hj
      have hknown : (st.before m).world.types.Knows cls := hsound.1.program.steps _ hmem
      refine ⟨(hl.2.moves.finished hknown hdone).1, fun hawaited => hnone ?_⟩
      cases step with
      | call id env =>
        obtain ⟨site, hsite, -⟩ : ∃ site, _ := h.exists_site hstep rfl
        exact (hp.call id env site rfl hsite).finished cls hknown hdone hawaited
      | complete cls' span' =>
        obtain ⟨p, hp', hkey⟩ := hawaited
        rw [(hp.complete cls' span' rfl).waiting] at hp'
        exact ⟨p, (List.mem_filter.mp hp').1, hkey⟩
    | none =>
      have hlen := List.getElem?_eq_none_iff.mp hstep
      rw [before_of_le (Nat.le_succ_of_le hlen), ← before_of_le hlen]
      exact ⟨hdone, hnone⟩

/-- A local class with a name is finished by a step that completes it, under its own name or
with type arguments. The creation of an anonymous class finishes that class only. -/
theorem Performs.isComplete_iff {step : Step} {failure : Option Failure} (h : Performs step st failure st')
    (hnumbered : st.program.Numbered)
    (hfound : ∀ id, step.site? = some id → ∃ site, st.program.site? id = some site ∧ site.result = {}) {cls : TypeId}
    (hcls : NamedLocal st.world.types cls) : st'.world.isComplete cls ↔ st.world.isComplete cls ∨
      ∃ cls' span, step = .complete cls' span ∧ st.world.types.classOf cls' = cls := by
  cases step with
  | call id env =>
    obtain ⟨site, hsite, -⟩ := hfound id rfl
    obtain rfl := hnumbered id site hsite
    simpa using hcls.isComplete_moves (h.call _ env site rfl hsite).moves
  | complete cls' span =>
    have hmoves := (h.complete cls' span rfl).moves
    have htypes : (completeClass cls' st.world).2.types = st.world.types := by
      rcases completeClass_cases cls' st.world with ⟨-, heq⟩ | ⟨-, heq⟩ <;> rw [heq]
    rw [(htypes ▸ hcls : NamedLocal (completeClass cls' st.world).2.types cls).isComplete_moves hmoves,
      isComplete_completeClass_iff, hcls.own, or_comm]
    simp

/-- A local class with a name is finished when and only when it was completed, under its own
name or with type arguments. -/
theorem Fresh.isComplete_iff (h : Fresh st) (hunfinished : st.world.Unfinished) {cls : TypeId}
    (hcls : NamedLocal st.world.types cls) (n : Nat) : (st.before n).world.isComplete cls ↔
      ∃ j < n, ∃ cls' span, st.program.steps[j]? = some (.complete cls' span) ∧ st.world.types.classOf cls' = cls := by
  induction n with
  | zero =>
    refine iff_of_false (fun hdone => ?_) (by simp)
    rw [before_zero, hunfinished.isComplete, hcls.own, freshMembers_complete, hcls.isLocalClass] at hdone
    cases hdone
  | succ m ih =>
    rw [Nat.exists_lt_succ_right, ← ih]
    cases hstep : st.program.steps[m]? with
    | some step =>
      have hsound := running.sound (h.reached m).leads ⟨h.wellFormed, h.numbered⟩
      have hextends := (h.reached m).leads.2.moves.types_extends
      have hclass {cls' : TypeId} {span : Source.Span} (heq : step = .complete cls' span) :
          (st.before m).world.types.classOf cls' = st.world.types.classOf cls' := by
        have hknown : KnowsStep st.world.types (.complete cls' span) :=
          h.wellFormed.program.steps _ (heq ▸ List.mem_of_getElem? hstep)
        exact hextends.classOf hknown
      rw [(h.performs hstep).2.isComplete_iff hsound.2 (fun id hid => h.exists_site hstep hid)
        (hcls.mono h.wellFormed.world.types hextends)]
      refine or_congr_right ⟨?_, ?_⟩
      · rintro ⟨cls', span, heq, hown⟩
        exact ⟨cls', span, congrArg some heq, (hclass heq).symm.trans hown⟩
      · rintro ⟨cls', span, heq, hown⟩
        exact ⟨cls', span, Option.some.inj heq, (hclass (Option.some.inj heq)).trans hown⟩
    | none =>
      have hlen := List.getElem?_eq_none_iff.mp hstep
      rw [before_of_le (Nat.le_succ_of_le hlen), ← before_of_le hlen]
      simp

/-- A constructor call of a local class with a name is deferred when and only when every
completion of the class so far came after the call and named the class with type arguments. It
puts together when a call is deferred at first, what releases it, and which classes are
finished. -/
theorem Turn.deferred_iff (t : Turn st) (h : Fresh st) (hbodies : st.world.SoundBodies) (hunfinished : st.world.Unfinished)
    {n : Nat} (hn : t.place < n) {cls : TypeId} (hcls : NamedLocal st.world.types cls) {site : Site}
    (hsite : (st.begun.before n).program.site? t.id = some site) (hbound : site.result.IsBound)
    (hcallable : (st.begun.before n).world.Constructs cls site.result.callable) :
    site.result.state = .deferred ↔ ∀ j < n, ∀ cls' span, st.program.steps[j]? = some (.complete cls' span) →
      st.world.types.classOf cls' = cls → t.place < j ∧ cls' ≠ cls := by
  have hk : st.begun.program.steps[t.place]? = some (.call t.id t.env) := t.step
  have hsound := running.sound (h.begun.reached (t.place + 1)).leads ⟨h.begun.wellFormed, h.begun.numbered⟩
  -- What was recorded when it was the turn of the call.
  obtain ⟨hruns, hadv⟩ := h.begun.advancesAt hk rfl hn
  obtain ⟨made, hmade, hlater⟩ := hadv.later hruns hsite
  have hbound₁ : made.result.IsBound := by
    by_contra hnot
    exact hnot (hlater.eq_of_not_isBound hnot ▸ hbound)
  have hfits := (h.begun.reached (t.place + 1)).orderly.results t.id made hmade
  have hhas : (st.begun.before (t.place + 1)).world.Has made.result.callable := by
    rcases hfits with heq | heq | ⟨-, hresolved⟩
    · exact absurd heq hbound₁.ne_empty
    · simp [heq, Resolution.IsBound, Resolution.ofFailure] at hbound₁
    · rw [Has, method?_of_isResolved hresolved]
      rfl
  have hsame : site.result.callable = made.result.callable := by
    rcases hlater with heq | ⟨-, -, heq, -⟩
    · rw [heq]
    · exact heq
  have hmoves := (h.begun.leads hn).2.moves
  have hmade_cls : (st.begun.before (t.place + 1)).world.Constructs cls made.result.callable :=
    (hmoves.sameKinds (h.begun.supplies hbodies (t.place + 1)).bodies).constructs_of_later hsound.1.world hmoves.types_extends
      hhas (hsame ▸ hcallable)
  -- It was deferred when the class was open, and as long as nothing completed the class by its own name.
  obtain ⟨site', hsite', -, hlast⟩ := h.begun.deferred_iff hbodies hk hn hmade hmade_cls
  cases hsite.symm.trans hsite'
  have hfirst : made.result.state = .deferred ↔ (st.begun.before (t.place + 1)).world.isComplete cls = false := by
    rw [t.before_succ] at hmade hmade_cls ⊢
    exact t.deferred_iff_open h hbodies hmade hbound₁ hmade_cls
  rw [hlast, hfirst, ← Bool.not_eq_true, h.begun.isComplete_iff hunfinished hcls]
  refine ⟨fun hleft j hj cls' span hstep hown => ?_, fun hall => ⟨?_, fun j span hj hj' hstep => ?_⟩⟩
  · obtain ⟨hnone, hother⟩ := hleft
    have hplace : t.place < j := by
      by_contra hle
      exact hnone ⟨j, by omega, cls', span, hstep, hown⟩
    exact ⟨hplace, fun heq => hother j span hplace hj (heq ▸ hstep)⟩
  · rintro ⟨j, hj, cls', span, hstep, hown⟩
    have := (hall j (by omega) cls' span hstep hown).1
    omega
  · exact (hall j hj' cls span hstep hcls.own).2 rfl

end Session

end CallResolution
