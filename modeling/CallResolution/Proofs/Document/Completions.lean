import CallResolution.Proofs.Document.Captures

/-!
# Completions of local classes

A constructor call of a local class is deferred when no step before it completed the class.
From then on only a step that names the class itself releases it: a step that names it with
type arguments finishes the class as well, and releases nothing, because calls wait under the
class and are looked up under the type that is completed. After a step that names the class
itself nothing waits for it, so nothing is left that the end of the run could warn of.

Main statements: `deferred_until_completed_by_name` and `completed_but_waiting`.
-/

namespace CallResolution

open Session Universe

/-- A constructor call of a local class that is bound at its turn is deferred from then on
when and only when every completion of the class so far came after it and named the class with
type arguments. Once a step completed the class by its own name, nothing waits for it. -/
theorem deferred_until_completed_by_name (d : Document) (f : Source.File) (base : Options)
    (t : Turn ((d.load f).session base)) {n : Nat} (hn : t.place < n) {cls : TypeId}
    (hcls : NamedLocal ((d.load f).session base).world.types cls) {site : Site}
    (hsite : (((d.load f).session base).begun.before n).program.site? t.id = some site)
    (hbound : site.result.state = .resolved ∨ site.result.state = .deferred)
    (hcallable : site.result.callable ∈ (((d.load f).session base).begun.before n).world.constructors cls) :
    (site.result.state = .deferred ↔ ∀ j < n, ∀ cls' span,
      ((d.load f).session base).program.steps[j]? = some (.complete cls' span) →
        ((d.load f).session base).world.types.classOf cls' = cls → t.place < j ∧ cls' ≠ cls) ∧
    ∀ j < n, ∀ span, ((d.load f).session base).program.steps[j]? = some (.complete cls span) →
      ∀ p ∈ (((d.load f).session base).begun.before n).waiting, p.1 ≠ cls := by
  have hfresh := Loaded.fresh d f base
  have hbodies := Loaded.bodies d f base
  have hunfinished : ((d.load f).session base).world.Unfinished := d.load_unfinished f
  rw [Session.begun_world] at hbodies
  generalize (d.load f).session base = st at *
  refine ⟨t.deferred_iff hfresh hbodies hunfinished hn hcls hsite hbound ?_, fun j hj span hstep p hp hkey => ?_⟩
  · have hmoves := (hfresh.begun.reached n).leads.2.moves
    have hconstructs := (hfresh.begun.supplies hbodies n).bodies.constructs hcallable
    have hown : st.begun.world.types.classOf cls = cls := hcls.own
    rwa [hmoves.types_extends.classOf hcls.knows, hown] at hconstructs
  · exact (hfresh.begun.unawaited hstep hj).2 ⟨p, hp, hkey⟩

/-! ## A class that is completed with type arguments

The step finishes the body and releases no call.
-/

/-- A generic local class with a capture, which is created and then completed with a type
argument. -/
def completedWithArgumentsDocument : Document where
  classes := [
    .mk { name := "p.A" } [],
    .mk { name := "p.A$1L", typeParams := ["T"], captures := ["int x"] } []]
  program := [
    { id := "a", cls := "p.A", locals := .innermost ["int x"], new := "p.A$1L" },
    { complete := "p.A$1L<String>" }]

/-- Whether the call of a turn is bound to a constructor of a local class and deferred,
although an earlier step completed the class. -/
def Session.Turn.stillWaits {st : Session} (t : Turn st) (n : Nat) (cls : TypeId) : Bool :=
  t.place < n ∧ NamedLocal st.world.types cls ∧
    ((st.begun.before n).program.site? t.id).any (fun site =>
      site.result.state = .deferred ∧ site.result.callable ∈ (st.begun.before n).world.constructors cls) ∧
    (List.range n).any fun j => (st.program.steps[j]?).any fun
      | .complete cls' _ => st.world.types.classOf cls' = cls
      | .call _ _ => false

theorem Session.Turn.stillWaits_iff {st : Session} {t : Turn st} {n : Nat} {cls : TypeId} : t.stillWaits n cls = true ↔
    t.place < n ∧ NamedLocal st.world.types cls ∧
      (∃ site, (st.begun.before n).program.site? t.id = some site ∧ site.result.state = .deferred ∧
        site.result.callable ∈ (st.begun.before n).world.constructors cls) ∧
      ∃ j < n, ∃ cls' span, st.program.steps[j]? = some (.complete cls' span) ∧ st.world.types.classOf cls' = cls := by
  have hstep (step : Step) : (match step with
      | .complete cls' _ => decide (st.world.types.classOf cls' = cls)
      | .call _ _ => false) = true ↔ ∃ cls' span, step = .complete cls' span ∧ st.world.types.classOf cls' = cls := by
    cases step <;> simp
  simp [stillWaits, Option.any_eq_true, hstep]

theorem completedWithArguments_stillWaits :
    ∃ cls, (((completedWithArgumentsDocument.load blankFile).session {}).turnAt? 0).any (·.stillWaits 2 cls) = true :=
  ⟨(((completedWithArgumentsDocument.load blankFile).session {}).begun.before 2).createdClass 1, by decide +kernel⟩

/-- A constructor call of a local class may be deferred although an earlier step completed the
class. -/
theorem completed_but_waiting :
    ¬ ∀ (d : Document) (f : Source.File) (base : Options) (n : Nat) (id : SiteId) (site : Site) (cls : TypeId),
      NamedLocal ((d.load f).session base).world.types cls →
      (((d.load f).session base).begun.before n).program.site? id = some site →
      site.result.state = .resolved ∨ site.result.state = .deferred →
      site.result.callable ∈ (((d.load f).session base).begun.before n).world.constructors cls →
      (site.result.state = .deferred ↔ ∀ j < n, ∀ cls' span,
        ((d.load f).session base).program.steps[j]? = some (.complete cls' span) →
          ((d.load f).session base).world.types.classOf cls' ≠ cls) := by
  intro h
  obtain ⟨cls, hwaits⟩ := completedWithArguments_stillWaits
  obtain ⟨t, -, ht⟩ := (Option.any_eq_true _ _).mp hwaits
  obtain ⟨-, hcls, ⟨site, hsite, hstate, hcallable⟩, j, hj, cls', span, hstep, hown⟩ := Turn.stillWaits_iff.mp ht
  exact (h _ _ _ 2 t.id site cls hcls hsite (.inr hstate) hcallable).mp hstate j hj cls' span hstep hown

/-- That call waits because the step that completed the class named it with a type argument.
-/
theorem completedWithArguments_waits : ∃ (t : Turn ((completedWithArgumentsDocument.load blankFile).session {})) (site : Site)
    (cls : TypeId) (j : Nat) (cls' : TypeId) (span : Source.Span),
    (((completedWithArgumentsDocument.load blankFile).session {}).begun.before 2).program.site? t.id = some site ∧
      site.result.state = .deferred ∧
      ((completedWithArgumentsDocument.load blankFile).session {}).program.steps[j]? = some (.complete cls' span) ∧
      ((completedWithArgumentsDocument.load blankFile).session {}).world.types.classOf cls' = cls ∧ t.place < j ∧ cls' ≠ cls := by
  obtain ⟨cls, hwaits⟩ := completedWithArguments_stillWaits
  obtain ⟨t, -, ht⟩ := (Option.any_eq_true _ _).mp hwaits
  obtain ⟨hn, hcls, ⟨site, hsite, hstate, hcallable⟩, j, hj, cls', span, hstep, hown⟩ := Turn.stillWaits_iff.mp ht
  have hdeferred := (deferred_until_completed_by_name _ _ _ t hn hcls hsite (.inr hstate) hcallable).1
  exact ⟨t, site, cls, j, cls', span, hsite, hstate, hstep, hown, hdeferred.mp hstate j hj cls' span hstep hown⟩

end CallResolution
