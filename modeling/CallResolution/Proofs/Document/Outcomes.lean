import CallResolution.Proofs.Document.Program

/-!
# Outcomes of runs

A run of the program of a loaded document lacks nothing, and accounts for every call site:
each is bound by one step, and ends as that step left it, apart from calls that stop waiting.

Every call that is bound, and for which no anonymous class was made, goes back to a callable
that accepts the arguments in the recorded phase and in none before it. A constructor call is
bound to this callable itself. A method call selects it among the overloads of the type that
it searches, and may be bound to another method in its place: when the selected overload is
out of reach, the first of its conflicts stands in for it, and that has the same erased
parameter types. The stand-in itself need not accept the arguments in the recorded phase,
because variable arity is lost in erased parameter types.

The first result follows the run: each step binds one site, no later step takes the outcome
back, and the counts are read off the sites at the end. The second one carries what the turn
of a call has established to the end of the run (`Turn.bound`, `Turn.picks`): tables,
signatures and the types of parameters stay once they are made, so that what was weighed then
weighs the same later.

Main statements: `run_settles_every_site`, `bound_call_was_selected` and
`stand_in_not_accepting`.
-/

namespace CallResolution

namespace Session

variable {st : Session}

/-- Every site is bound by a step. -/
theorem Fresh.exists_call (h : Fresh st) {id : Nat} (hid : (st.program.site? id).isSome) :
    ∃ (k : Nat) (env : Env), st.program.steps[k]? = some (.call id env) := by
  have hmem : id ∈ CallResolution.called st.program.steps := by
    obtain ⟨site, hsite⟩ := Option.isSome_iff_exists.mp hid
    have hpos : id ≠ 0 := Program.ne_zero_of_site? hsite
    rw [Program.site?, if_neg hpos] at hsite
    obtain ⟨hlt, -⟩ := Array.getElem?_eq_some_iff.mp hsite
    rw [h.called, List.mem_range'_1]
    omega
  obtain ⟨step, hstep, hsite⟩ := List.mem_filterMap.mp hmem
  obtain ⟨k, hk⟩ := List.mem_iff_getElem?.mp hstep
  cases step with
  | call id' env =>
    cases hsite
    exact ⟨k, env, hk⟩
  | complete cls span => cases hsite

/-- Every site has its turn. -/
theorem Fresh.exists_turn (h : Fresh st) {id : SiteId} {site : Site} (hsite : (run st).2.program.site? id = some site) :
    ∃ t : Turn st, t.id = id := by
  obtain ⟨-, hprogram, -⟩ := h.run_leads
  rw [hprogram] at hsite
  have hsome (k : Nat) : ((st.begun.before k).program.site? id).isSome := by
    rw [(h.begun.reached k).leads.2.program.site?_isSome, ← (h.begun.reached _).leads.2.program.site?_isSome, hsite]
    rfl
  obtain ⟨k, env, hk⟩ := h.exists_call (hsome 0)
  obtain ⟨called, hcalled⟩ := Option.isSome_iff_exists.mp (hsome k)
  exact ⟨⟨k, id, env, called, hk, hcalled⟩, rfl⟩

/-- A site has no more than one turn. -/
theorem Fresh.turn_unique (h : Fresh st) {t t' : Turn st} (hid : t.id = t'.id) : t.place = t'.place :=
  h.site?_injective t.step t'.step rfl (congrArg some hid.symm)

/-- What a run leaves at a site is what was recorded when it was its turn. -/
theorem Fresh.records (h : Fresh st) (t : Turn st) {site : Site} (hsite : (run st).2.program.site? t.id = some site) :
    site.result.Records (run st).2.world t.outcome.1 := by
  obtain ⟨hruns, hprogram, -⟩ := h.run_leads
  have hlt : t.place + 1 ≤ st.program.steps.length := (List.getElem?_eq_some_iff.mp t.step).1
  rw [hprogram] at hsite
  have hrecorded := h.begun.recorded t.step hlt hsite
  rw [runStep_call t.found] at hrecorded
  exact hrecorded.later hruns.world (.inl rfl)

end Session

/-- What is recorded tells a failure from a binding. -/
theorem Resolution.Records.state {u : Universe} {r : Resolution} {failure : Option Failure} (h : r.Records u failure) :
    r.state ≠ .unresolved ∧ (r.state = .failed ↔ failure.isSome) ∧
      (r.state = .failed → r = { state := .failed, type := .bad }) ∧
      (r.state ≠ .failed → (u.method? r.callable).isSome) := by
  cases failure with
  | none =>
    obtain ⟨hbound, hresolved⟩ := h
    have hstate : r.state ≠ .unresolved ∧ r.state ≠ .failed := by
      rcases hbound with h | h <;> simp [h]
    refine ⟨hstate.1, by simpa using hstate.2, fun h => absurd h hstate.2, fun _ => ?_⟩
    rw [Universe.method?_of_isResolved hresolved]
    rfl
  | some f =>
    have hfailed : r = .ofFailure := h
    subst hfailed
    exact ⟨by decide, by simp [ofFailure], fun _ => rfl, fun h => absurd rfl h⟩

open Session in
/-- A run of a loaded document ends without a fault of its own. Every site has one turn, and
ends resolved, deferred or failed: a site is failed when and only when its call failed then,
and nothing but that is recorded of it, while every other site has a callable that exists. The
counts of the outcomes add up to the number of sites. -/
theorem run_settles_every_site (d : Document) (f : Source.File) (base : Options) :
    let st := (d.load f).session base
    tryRun st = .ok (run st) ∧
    (∀ id site, (run st).2.program.site? id = some site → ∃ t : Turn st, t.id = id ∧
      (∀ t' : Turn st, t'.id = id → t'.place = t.place) ∧ site.result.state ≠ .unresolved ∧
      (site.result.state = .failed ↔ t.outcome.1.isSome) ∧
      (site.result.state = .failed → site.result = { state := .failed, type := .bad }) ∧
      (site.result.state ≠ .failed → ((run st).2.world.method? site.result.callable).isSome)) ∧
    (run st).1.sites = (run st).2.program.sites.size ∧
    (run st).1.sites = (run st).1.resolved + (run st).1.failed + (run st).1.deferred := by
  intro st
  have hfresh : st.Fresh := Loaded.fresh d f base
  clear_value st
  obtain ⟨-, hprogram, hstats⟩ := hfresh.run_leads
  have hsites : ∀ id site, (run st).2.program.site? id = some site →
      ∃ t : Turn st, t.id = id ∧ site.result.Records (run st).2.world t.outcome.1 := by
    intro id site hsite
    obtain ⟨t, rfl⟩ := hfresh.exists_turn hsite
    exact ⟨t, rfl, hfresh.records t hsite⟩
  have hlooked : (run st).1.sites = (run st).2.program.sites.size := by
    have hsize : (run st).2.program.sites.size = st.program.sites.size := by
      rw [hprogram]
      exact (hfresh.begun.reached _).leads.2.program.size
    rw [hstats, hsize]
    change callCount st.program.steps = _
    rw [callCount_eq_length_called, hfresh.called, List.length_range']
  refine ⟨hfresh.tryRun_eq, fun id site hsite => ?_, hlooked, ?_⟩
  · obtain ⟨t, rfl, hrecords⟩ := hsites id site hsite
    exact ⟨t, rfl, fun t' hid => hfresh.turn_unique hid, hrecords.state⟩
  · have hsum : ∀ site ∈ (run st).2.program.sites.toList, site.result.state ≠ .unresolved := by
      intro site hmem
      obtain ⟨id, hid⟩ := Program.exists_site? (Array.mem_toList_iff.mp hmem)
      obtain ⟨t, -, hrecords⟩ := hsites id site hid
      exact hrecords.state.1
    rw [hlooked, hstats, Stats.ofSites_sum hsum, Array.length_toList]

/-! ## What calls are bound to

What the turn of a call has established, told of the last session of the run.
-/

open Session

/-- A call that was bound at its turn, and for which no anonymous class was made, has a
callable with a processed signature.

A constructor call is bound to a callable that accepts its arguments in the recorded phase,
packing trailing ones as recorded, and not before. A method call searches a type: that of its
receiver, the class around it that sees the name, or a class that a static import names. One
of the overloads that this type lists is selected: it accepts the arguments in this way, and
no other one that competes for the call accepts them in an earlier phase. The call is bound to
it, or to its first conflict when it has one and is out of reach. All this stays so until the
end of the run. -/
theorem bound_call_was_selected (d : Document) (f : Source.File) (base : Options) (t : Turn ((d.load f).session base))
    {m : Nat} (hm : t.place < m) {site : Site}
    (hsite : (((d.load f).session base).begun.before m).program.site? t.id = some site)
    (hbound : site.result.state = .resolved ∨ site.result.state = .deferred) (hplain : site.result.anonymous = .none) :
    let u := (((d.load f).session base).begun.before m).world
    let args := site.args.map t.start.exprType
    (u.method site.result.callable).isResolved ∧
      (site.call.isMethod = false → u.Accepts [] args site.result.phase site.result.wrapped site.result.callable) ∧
      ∀ name recv, site.call = .method name recv → ∃ search on qualified shadows id,
        CalledOn t.start u t.env name recv search on qualified ∧
        u.SelectedFrom t.env site.typeArgs args search (recv.map t.start.qualifierOf) name shadows site.result.phase
          site.result.wrapped id ∧
        u.BoundFor t.env search (recv.map t.start.qualifierOf) shadows id site.result.callable := by
  have hfresh := Loaded.fresh d f base
  have hb := t.bound hfresh hm hsite hbound
  refine ⟨hb.resolved, fun hother => ?_, fun name recv hcall => ?_⟩
  · obtain ⟨id, hacc, hid | ⟨hmethod, -⟩⟩ := hb.selected hplain
    · rw [← hid, appliedTypeArgs_of_not_isMethod hother] at hacc
      exact hacc
    · rw [hother] at hmethod
      cases hmethod
  · obtain ⟨search, on, qualified, hcalled, shadows, id, hselected, hboundFor⟩ := t.picks hfresh hm hsite hbound hcall
    exact ⟨search, on, qualified, shadows, id, hcalled, hselected, hboundFor⟩

/-! ## A stand-in that does not accept the arguments

Erased parameter types do not show variable arity, so a method for an array is replaced by one
that packs arguments, or the other way round.
-/

/-- A class that inherits a protected method `m(int[])`, and meets `m(int...)` in an
interface. Outside both packages the first one is selected and the second one bound. -/
def standInDocument : Document where
  classes := [
    .mk { name := "p.P", access := "public", flags := ["abstract"], methods := [
      { name := "m", access := "protected", flags := ["abstract"], params := ["int[]"], returns := "void" }] } [],
    .mk { name := "q.I", access := "public", kind := "interface", methods := [
      { name := "m", params := ["int..."], returns := "void" }] } [],
    .mk { name := "q.C", access := "public", flags := ["abstract"], super := "p.P", interfaces := ["q.I"] } [],
    .mk { name := "r.User" } []]
  program := [
    { id := "a", cls := "r.User", call := "m", receiver := some { type := "q.C" }, args := [{ type := "int[]" }] }]

/-- Whether the call of a turn is bound, and its callable does not accept the arguments in the
recorded phase. -/
def Session.Turn.bindsUnaccepting {st : Session} (t : Turn st) : Bool :=
  (t.outcome.2.program.site? t.id).any fun site =>
    site.result.state = .resolved ∧ site.result.anonymous = .none ∧
      t.outcome.2.world.acceptance (appliedTypeArgs site) (site.args.map t.start.exprType) site.result.phase
        site.result.callable = none

theorem standInDocument_binds :
    (((standInDocument.load blankFile).session {}).turnAt? 0).any (·.bindsUnaccepting) = true := by
  decide +kernel

/-- The callable that a call is bound to need not accept the arguments in the recorded phase.
-/
theorem stand_in_not_accepting :
    ¬ ∀ (d : Document) (f : Source.File) (base : Options) (t : Turn ((d.load f).session base)) (site : Site),
      t.outcome.2.program.site? t.id = some site → site.result.state = .resolved ∨ site.result.state = .deferred →
      site.result.anonymous = .none →
      (t.outcome.2.world.method site.result.callable).isResolved ∧
        t.outcome.2.world.acceptance (appliedTypeArgs site) (site.args.map t.start.exprType) site.result.phase
          site.result.callable = some site.result.wrapped := by
  intro h
  obtain ⟨t, -, ht⟩ := (Option.any_eq_true _ _).mp standInDocument_binds
  obtain ⟨site, hsite, hbinds⟩ := (Option.any_eq_true _ _).mp ht
  obtain ⟨hstate, hplain, hnone⟩ := of_decide_eq_true hbinds
  have haccepts := (h _ _ _ t site hsite (.inl hstate) hplain).2
  exact absurd (hnone.symm.trans haccepts) (by simp)

/-- Of the same call another method is selected, which accepts the arguments and is out of
reach. The one that it is bound to is the first conflict of that method. -/
theorem stand_in_selected : ∃ (t : Turn ((standInDocument.load blankFile).session {})) (site : Site) (name : String)
    (recv : Option Expr) (search : TypeId) (shadows : List Shadow) (id : MethodId),
    t.outcome.2.program.site? t.id = some site ∧ site.result.state = .resolved ∧ site.call = .method name recv ∧
      site.result.callable ≠ id ∧
      t.outcome.2.world.SelectedFrom t.env site.typeArgs (site.args.map t.start.exprType) search (recv.map t.start.qualifierOf) name
        shadows site.result.phase site.result.wrapped id ∧
      t.outcome.2.world.BoundFor t.env search (recv.map t.start.qualifierOf) shadows id site.result.callable := by
  obtain ⟨t, -, ht⟩ := (Option.any_eq_true _ _).mp standInDocument_binds
  obtain ⟨site, hsite, hbinds⟩ := (Option.any_eq_true _ _).mp ht
  obtain ⟨hstate, hplain, hnone⟩ := of_decide_eq_true hbinds
  have hlater := hsite
  rw [← t.before_succ] at hlater
  obtain ⟨-, hother, hmethod⟩ := bound_call_was_selected _ _ _ t (Nat.lt_succ_self _) hlater (.inl hstate) hplain
  rw [t.before_succ] at hother hmethod
  have refuted : ¬ t.outcome.2.world.Accepts (appliedTypeArgs site) (site.args.map t.start.exprType) site.result.phase
      site.result.wrapped site.result.callable := fun h => absurd (hnone.symm.trans h.acceptance) (by simp)
  cases hkind : site.call.isMethod with
  | false => exact absurd (appliedTypeArgs_of_not_isMethod hkind ▸ hother hkind) refuted
  | true =>
    obtain ⟨name, recv, hcall⟩ := Call.exists_of_isMethod hkind
    obtain ⟨search, -, -, shadows, id, -, hselected, hbound⟩ := hmethod name recv hcall
    refine ⟨t, site, name, recv, search, shadows, id, hsite, hstate, hcall, ?_, hselected, hbound⟩
    rintro rfl
    exact refuted (by simpa [appliedTypeArgs, hcall] using hselected.accepts)

end CallResolution
