import CallResolution.Proofs.Document.Program
import CallResolution.Proofs.Resolve.BadParts

/-!
# What refused calls report and leave

A call of a loaded document that is refused is reported under the code of its failure, and a
silent failure is not reported at all. Nothing else is said about it, with one exception: a
call may be refused after a callable was selected for it, because of what the callable is or
where it is called. What was wrong with the selection was reported by then and is not taken
back.

A call with a part whose own problem was reported before is not reported once more for it.
Only type arguments are an exception: a bad one is put into parameters, and then nothing
converts to them.

Errors about signatures that are processed on the way are not counted.

A refused call leaves classes, members, accessors, captures and waiting calls as they were,
with one exception: a variable that the body of an anonymous class captures is looked up after
the class was made. Main statements: `refused_call_reports`, `bad_part_reports` and
`refused_call_leaves`.
-/

namespace CallResolution

open Session

namespace Session.Turn

variable {st : Session} (t : Turn st)

/-- What is reported about the selection of a callable that the call is then refused for. It
counts for late failures only: an early one comes before anything was selected. -/
def selectionReports (e : Failure) : List Code :=
  if e.code.any Code.isLate then (earlierCodes t.env t.site t.start).1 else []

/-- The errors that are reported while the call is bound have some codes, in this order.
Errors about signatures are not counted. -/
def ReportsCodes (codes : List Code) : Prop :=
  ∃ ds, t.outcome.2.world.faults = t.start.world.faults ++ ds ∧ ds.map (·.code) = codes

/-- The codes of the errors that are reported while the call is bound. This is what
`ReportsCodes` speaks of, worked out. -/
def reportedCodes : List Code :=
  (t.outcome.2.world.faults.drop t.start.world.faults.length).map (·.code)

theorem ReportsCodes.eq {t : Turn st} {codes : List Code} (h : t.ReportsCodes codes) : t.reportedCodes = codes := by
  obtain ⟨ds, hds, rfl⟩ := h
  rw [reportedCodes, hds, List.drop_left]

/-- A call that fails reports its code, behind what was wrong with the selection. -/
theorem reports_of_failure (h : Fresh st) {e : Failure} (he : t.outcome.1 = some e) :
    t.ReportsCodes (t.selectionReports e ++ e.code.toList) := by
  obtain ⟨r, -, houtcome⟩ := (t.resolves h).result
  rw [he] at houtcome
  exact houtcome.2.refuses.faults

end Session.Turn

/-- A refused call is reported under the code of its failure, behind what was wrong with the
selection when it is refused late. So it is reported once, and not at all when the failure is
silent, if and only if nothing was wrong with the selection. -/
theorem refused_call_reports (d : Document) (f : Source.File) (base : Options) (t : Turn ((d.load f).session base)) {e : Failure}
    (he : t.outcome.1 = some e) :
    t.ReportsCodes (t.selectionReports e ++ e.code.toList) ∧ (t.ReportsCodes e.code.toList ↔ t.selectionReports e = []) := by
  have hreports := t.reports_of_failure (Loaded.fresh d f base) he
  refine ⟨hreports, fun h => ?_, fun h => ?_⟩
  · simpa using hreports.eq.symm.trans h.eq
  · rwa [h, List.nil_append] at hreports

/-! ## A call that is reported twice

The first report is about the selection, the second one about the method that was selected.
-/

/-- Two methods of which neither is more specific than the other, and a call for both of them
in static code. Either of the two faults alone would be reported once. -/
def twofoldDocument : Document where
  classes := [
    .mk { name := "p.A", methods := [
      { name := "m", params := ["Object", "String"], returns := "void" },
      { name := "m", params := ["String", "Object"], returns := "void" }] } []]
  program := [
    { id := "a", cls := "p.A", isStatic := true, call := "m", args := [{ type := "String" }, { type := "String" }] }]

/-- Whether the call of a turn is refused as static code, after it was reported as ambiguous.
-/
def Session.Turn.refusesAmbiguous {st : Session} (t : Turn st) : Bool :=
  t.outcome.1.any fun e => e.code = some .instanceMethodInStatic ∧ t.reportedCodes = [.ambiguousMethod, .instanceMethodInStatic]

theorem twofoldDocument_refuses :
    (((twofoldDocument.load blankFile).session {}).turnAt? 0).any (·.refusesAmbiguous) = true := by
  decide +kernel

/-- Not every refused call is reported under the code of its failure alone. -/
theorem refused_call_reported_twice :
    ¬ ∀ (d : Document) (f : Source.File) (base : Options) (t : Turn ((d.load f).session base)) (e : Failure),
      t.outcome.1 = some e → t.ReportsCodes e.code.toList := by
  intro h
  obtain ⟨t, -, ht⟩ := (Option.any_eq_true _ _).mp twofoldDocument_refuses
  obtain ⟨e, he, hrefuses⟩ := (Option.any_eq_true _ _).mp ht
  obtain ⟨hcode, hcodes⟩ := of_decide_eq_true hrefuses
  have hone := (h _ _ _ t e he).eq
  rw [hcodes, hcode] at hone
  exact absurd hone (by decide)

/-- The ambiguous call is refused late, and what is wrong with the selection is the ambiguity.
-/
theorem twofoldDocument_reports : ∃ (t : Turn ((twofoldDocument.load blankFile).session {})) (e : Failure),
    t.outcome.1 = some e ∧ e.code = some .instanceMethodInStatic ∧ t.selectionReports e = [.ambiguousMethod] ∧
      t.ReportsCodes (t.selectionReports e ++ e.code.toList) := by
  obtain ⟨t, -, ht⟩ := (Option.any_eq_true _ _).mp twofoldDocument_refuses
  obtain ⟨e, he, hrefuses⟩ := (Option.any_eq_true _ _).mp ht
  obtain ⟨hcode, hcodes⟩ := of_decide_eq_true hrefuses
  have hreports := (refused_call_reports _ _ _ t he).1
  have heq := hreports.eq
  rw [hcodes, hcode] at heq
  have hselection : t.selectionReports e = [.ambiguousMethod] :=
    List.append_cancel_right heq.symm
  exact ⟨t, e, he, hcode, hselection, hreports⟩

/-! ## Calls with bad parts

What is reported of such a call can be told from the session before it, without binding the
call.
-/

/-- A call that cannot be bound fails. -/
theorem Session.resolve_of_failsWith {st : Session} {env : Env} {site : Site} {code : Option Code}
    (h : FailsWith (resolveCall env site) (note { kind := .begin_, scope := .site, name := "site:" ++ site.shownLabel } st).2 code) :
    ∃ e, (resolve env site st).1 = some e ∧ e.code = code := by
  obtain ⟨e, he, hcode⟩ := h
  have hworks : Works (leaving fun _ : Session => ()) (resolve env site) st fun f _ => f = some e := by
    refine Works.bind (P := fun _ st₁ => st₁ = (note _ st).2) (fun _ => ⟨rfl, rfl⟩) fun _ st₁ _ _ h₁ => ?_
    subst h₁
    refine Works.bind (P := fun r _ => r = .error e) (fun _ => ⟨rfl, he⟩) fun r st₂ _ _ h₂ => ?_
    subst h₂
    exact fun _ => ⟨rfl, rfl⟩
  exact ⟨e, (hworks trivial).2, hcode⟩

/-- What a call with a bad part fails with does not depend on the trace. -/
theorem Session.Turn.failure_of_hasBadPart {st : Session} (t : Turn st) (h : t.start.hasBadPart t.site) :
    ∃ e, t.outcome.1 = some e ∧ e.code = t.start.faultBesides? t.env t.site :=
  resolve_of_failsWith (resolveCall_failsWith h)

/-- A call with a bad argument, receiver, class or enclosing instance fails, and nothing but
`faultBesides?` is reported: nothing at all, unless something else is found wrong with the
call before the bad part is looked at. -/
theorem bad_part_reports (d : Document) (f : Source.File) (base : Options) (t : Turn ((d.load f).session base))
    (hbad : t.start.hasBadPart t.site) :
    (∃ e, t.outcome.1 = some e ∧ e.code = t.start.faultBesides? t.env t.site) ∧
      t.ReportsCodes (t.start.faultBesides? t.env t.site).toList ∧
      (t.ReportsCodes [] ↔ t.start.faultBesides? t.env t.site = none) := by
  obtain ⟨e, he, hcode⟩ := t.failure_of_hasBadPart hbad
  have hreports := t.reports_of_failure (Loaded.fresh d f base) he
  have hearly : t.selectionReports e = [] := by
    have hlate : ∀ code ∈ codesBesides, code.isLate = false := by decide
    unfold Session.Turn.selectionReports
    rw [hcode]
    cases hfault : t.start.faultBesides? t.env t.site with
    | none => rfl
    | some code => rw [Option.any_some, hlate code (faultBesides?_mem hfault), if_neg (by simp)]
  rw [hearly, List.nil_append, hcode] at hreports
  refine ⟨⟨e, he, hcode⟩, hreports, fun hnone => ?_, fun hnone => ?_⟩
  · simpa using hreports.eq.symm.trans hnone.eq
  · rwa [hnone] at hreports

/-- Two calls that mention a class that is missing, one as a type argument and one as the type
of an argument. The class is reported as missing in both places when the document is loaded.
-/
def missingDocument : Document where
  classes := [
    .mk { name := "p.A", methods := [{ name := "m", typeParams := ["T"], params := ["T"], returns := "void" }] } []]
  program := [
    { id := "a", cls := "p.A", call := "m", typeArgs := ["Missing"], args := [{ type := "String" }] },
    { id := "b", cls := "p.A", call := "m", args := [{ type := "Missing" }] }]

/-- Whether a type argument of the call of a turn is bad. -/
def Session.Turn.hasBadTypeArg {st : Session} (t : Turn st) : Bool :=
  t.site.typeArgs.any t.start.world.types.isBad

/-- What is reported of the bad type argument, and that there is nothing to report of the bad
argument. -/
theorem missingDocument_turns :
    (((missingDocument.load blankFile).session {}).turnAt? 0).any
        (fun t => t.hasBadTypeArg && t.reportedCodes = [.methodOverloadNotFound]) = true ∧
      (((missingDocument.load blankFile).session {}).turnAt? 1).any
        (fun t => t.start.hasBadPart t.site && t.start.faultBesides? t.env t.site = none) = true := by
  decide +kernel

/-- A call with a bad type argument may be reported although the type argument was. -/
theorem bad_type_argument_reported :
    ¬ ∀ (d : Document) (f : Source.File) (base : Options) (t : Turn ((d.load f).session base)),
      t.start.hasBadPart t.site ∨ t.hasBadTypeArg → t.ReportsCodes [] := by
  intro h
  obtain ⟨t, -, ht⟩ := (Option.any_eq_true _ _).mp missingDocument_turns.1
  obtain ⟨hbad, hcodes⟩ := (Bool.and_eq_true _ _).mp ht
  have hnone := (h _ _ _ t (.inr hbad)).eq
  rw [of_decide_eq_true hcodes] at hnone
  exact absurd hnone (by decide)

/-- A call with a bad argument and nothing else wrong fails without a report. -/
theorem bad_argument_not_reported : ∃ t : Turn ((missingDocument.load blankFile).session {}),
    t.start.hasBadPart t.site ∧ t.outcome.1.isSome ∧ t.ReportsCodes [] := by
  obtain ⟨t, -, ht⟩ := (Option.any_eq_true _ _).mp missingDocument_turns.2
  obtain ⟨hbad, hnone⟩ := (Bool.and_eq_true _ _).mp ht
  obtain ⟨⟨e, he, -⟩, -, hsilent⟩ := bad_part_reports _ _ _ t hbad
  exact ⟨t, hbad, by simp [he], hsilent.mpr (of_decide_eq_true hnone)⟩

/-! ## What a refused call leaves

If a refused call left something behind, it could change what becomes of the calls after it.
-/

/-- A refused call leaves all that lasts as it was: the classes with their names, members and
captures, the accessors, and the calls that wait for local classes. Only when a variable is
not in view that the body of an anonymous class captures, the class was made before, and
stays. -/
theorem refused_call_leaves (d : Document) (f : Source.File) (base : Options) (t : Turn ((d.load f).session base)) {e : Failure}
    (he : t.outcome.1 = some e) :
    t.outcome.2.lasting = t.start.lasting ∨
      e.code = some .unknownLocal ∧ (∃ b ∈ t.site.call.body?, b.captures ≠ []) ∧
        ∃ anon, ¬ t.start.world.types.Knows anon ∧ t.outcome.2.world.isAnonymous anon := by
  obtain ⟨r, -, houtcome⟩ := (t.resolves (Loaded.fresh d f base)).result
  rw [he] at houtcome
  exact houtcome.2.remains

/-- The ambiguous call in static code is refused after a callable was selected for it, and
leaves nothing. -/
theorem twofoldDocument_leaves : ∃ (t : Turn ((twofoldDocument.load blankFile).session {})) (e : Failure),
    t.outcome.1 = some e ∧ t.outcome.2.lasting = t.start.lasting := by
  obtain ⟨t, -, ht⟩ := (Option.any_eq_true _ _).mp twofoldDocument_refuses
  obtain ⟨e, he, hrefuses⟩ := (Option.any_eq_true _ _).mp ht
  obtain ⟨hcode, -⟩ := of_decide_eq_true hrefuses
  refine ⟨t, e, he, (refused_call_leaves _ _ _ t he).resolve_right fun hlate => ?_⟩
  rw [hcode] at hlate
  exact absurd hlate.1 (by decide)

/-- The creation of an anonymous class whose body captures a variable that is not there is
refused, and the class stays. -/
example :
    let d : Document :=
      { classes := [.mk { name := "p.A" } []]
        program := [{ id := "a", cls := "p.A", new := "Object", body := some { captures := ["x"] } }] }
    (((d.load blankFile).session {}).turnAt? 0).any (fun t =>
      t.outcome.1.any (·.code = some .unknownLocal) &&
        t.start.world.types.names.length < t.outcome.2.world.types.names.length) = true := by
  decide +kernel

end CallResolution
