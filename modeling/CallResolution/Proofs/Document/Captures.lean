import CallResolution.Proofs.Document.Program
import CallResolution.Proofs.Resolve.Captured
import CallResolution.Proofs.Resolve.Waiting

/-!
# Arguments for captures

Captures are added while classes are declared, while anonymous classes are made, and as a side
effect of making arguments for other calls; calls are bound before or after the class that
they construct is finished. In every state of a run the constructors of a finished class have
a parameter for each capture, the captures of that class are settled, and the resolved calls
of its constructors pass an argument for each of them.

A variable of an outer frame is read from the copy of the nearest class that can hold one. A
class that was finished without the variable cannot, and where no other class is crossed the
argument reads the variable itself from inside that class.

Main statements: `captures_line_up`, `nearest_copy_is_read` and `copies_bypassed`.
-/

namespace CallResolution

open Session Universe

namespace Session

variable {st : Session}

/-- A resolved call of a constructor passes an argument for each capture of the class. -/
theorem Passes.reads {u : Universe} {r : Resolution} (h : Passes u r) (hu : u.WellFormed) (hs : u.SoundBodies) {cls : TypeId}
    (hmem : r.callable ∈ u.constructors cls) : List.Forall₂ (Reads u) (u.captures cls) r.localArgs := by
  have hcls := hs.constructs hmem
  cases h with
  | method hm => exact absurd hcls (hm.not_constructs _)
  | captured hc _ hreads =>
    obtain rfl := hc.owner.symm.trans hcls.owner
    rwa [Universe.captures, Universe.membersOf_congr (hu.types.classOf_classOf cls)] at hreads

end Session

/-- Before every step of the program of a loaded document, and after the last one, a class
that is finished has constructors with a parameter for each capture; it stays finished with
the captures that it has; and a resolved call of one of its constructors passes, in order, an
expression for each capture, which reads the local variable of this name or the field that
holds a copy of it, and has the type of the capture or the bad type. -/
theorem captures_line_up (d : Document) (f : Source.File) (base : Options) (n : Nat) (cls : TypeId) :
    let st := ((d.load f).session base).begun
    let u := (st.before n).world
    (u.types.classInfo? cls).isSome → u.isComplete cls →
      (∀ id ∈ u.constructors cls, (u.method id).captureParams = (u.captures cls).map (·.type)) ∧
      (∀ m, n ≤ m → (st.before m).world.isComplete cls ∧ (st.before m).world.captures cls = u.captures cls) ∧
      ∀ id site, (st.before n).program.site? id = some site → site.result.state = .resolved →
        site.result.callable ∈ u.constructors cls → List.Forall₂ (Reads u) (u.captures cls) site.result.localArgs := by
  intro st u hclass hdone
  have hfresh : st.Fresh := (Loaded.fresh d f base).begun
  have hsupplies : Supplies (st.before n) := hfresh.supplies (Loaded.bodies d f base) n
  have hsound := running.sound (hfresh.reached n).leads ⟨hfresh.wellFormed, hfresh.numbered⟩
  refine ⟨fun id hid => ?_, fun m hm => ?_, fun id site hsite hstate hmem => ?_⟩
  · exact hsupplies.bodies.params _ _ (Universe.lookup_of_mem_ctors hid) hdone id hid
  · exact (hfresh.leads hm).2.moves.finished (TypeStore.knows_of_classInfo hclass) hdone
  · exact (hsupplies.resolved id site hsite hstate).reads hsound.1.world hsupplies.bodies hmem

/-! ## A class that is finished between two calls

The one call is bound while the class is open and waits, the other one when it is finished.
-/

/-- A local class with a capture, which is created before and after its body is finished. The
first call waits for the completion, the second one gets its argument at once. -/
def twiceCreatedDocument : Document where
  classes := [
    .mk { name := "p.A" } [],
    .mk { name := "p.A$1L", captures := ["int x"] } []]
  program := [
    { id := "a", cls := "p.A", locals := .innermost ["int x"], new := "p.A$1L" },
    { complete := "p.A$1L" },
    { id := "b", cls := "p.A", locals := .innermost ["int x"], new := "p.A$1L" }]

/-- Whether a site is resolved to a constructor of a finished local class with a capture. -/
def Session.creates (st : Session) (id : SiteId) (cls : TypeId) : Bool :=
  (st.program.site? id).any fun site =>
    site.result.state = .resolved ∧ site.result.callable ∈ st.world.constructors cls ∧
      (st.world.types.classInfo? cls).any (·.flags.isLocal) ∧ st.world.isComplete cls ∧ (st.world.captures cls).length = 1

theorem Session.creates_iff {st : Session} {id : SiteId} {cls : TypeId} :
    st.creates id cls = true ↔ ∃ site, st.program.site? id = some site ∧ site.result.state = .resolved ∧
      site.result.callable ∈ st.world.constructors cls ∧ (st.world.types.classInfo? cls).any (·.flags.isLocal) ∧
      st.world.isComplete cls ∧ (st.world.captures cls).length = 1 := by
  simp [creates, Option.any_eq_true]

/-- The class of the callable that a site was bound to. -/
def Session.createdClass (st : Session) (id : SiteId) : TypeId :=
  (st.program.site? id).elim .none fun site => (st.world.method site.result.callable).owner

theorem twiceCreatedDocument_creates :
    ∃ cls, ∀ id ∈ [1, 2], (((twiceCreatedDocument.load blankFile).session {}).begun.before 3).creates id cls = true :=
  ⟨(((twiceCreatedDocument.load blankFile).session {}).begun.before 3).createdClass 1, by decide +kernel⟩

/-- Both calls pass an argument for the capture, whether they waited for the class or not. -/
theorem twiceCreated_line_up :
    let st := ((twiceCreatedDocument.load blankFile).session {}).begun.before 3
    ∃ cls, st.world.isComplete cls ∧ (st.world.captures cls).length = 1 ∧ ∀ id ∈ [1, 2], ∃ site,
      st.program.site? id = some site ∧ (st.world.method site.result.callable).captureParams = (st.world.captures cls).map (·.type) ∧
        List.Forall₂ (Reads st.world) (st.world.captures cls) site.result.localArgs := by
  obtain ⟨cls, hcreates⟩ := twiceCreatedDocument_creates
  have hline := captures_line_up twiceCreatedDocument blankFile {} 3 cls
  generalize ((twiceCreatedDocument.load blankFile).session {}).begun = st at hcreates hline ⊢
  obtain ⟨-, -, -, -, -, hdone, hlength⟩ := creates_iff.mp (hcreates 1 (by simp))
  refine ⟨cls, hdone, hlength, fun id hid => ?_⟩
  obtain ⟨site, hsite, hstate, hmem, hlocal, -⟩ := creates_iff.mp (hcreates id hid)
  obtain ⟨hparams, -, hreads⟩ := hline (Option.isSome_of_any hlocal) hdone
  exact ⟨site, hsite, hparams _ hmem, hreads id site hsite hstate hmem⟩

/-! ## Variables of outer frames

Which copy of a variable is read depends on the classes between the call and the declaration
at the moment when the argument is made, and so does what these classes capture.
-/

/-- In every session that the run of a loaded document leads to, what passes a captured
variable that the `j`-th frame declares, and no frame inside it, reads the copy of the nearest
class inside that frame that can hold one, or the variable itself when there is no such class.
The class is local, and the field is the one of this class that was made for its capture of
the variable. -/
theorem nearest_copy_is_read (d : Document) (f : Source.File) (base : Options) {st : Session}
    (h : running.Leads ((d.load f).session base).begun st) {env : Env} (henv : KnowsEnv st.world.types env) (site : Site)
    (c : Capture) {j : Nat} (hj : env.frames.findIdx? (·.hasLocal c.name) = some j) :
    let e := (captureArg env site c st).1
    let u := (captureArg env site c st).2.world
    NoHolder st.world env c.name j ∧ e = localRead site c.name c.type (if j = 0 then [] else env.via (j - 1)) ∨
      ∃ k frame, NearestHolder st.world env c.name j k frame ∧ u.types.isLocalClass frame.type ∧
        ∃ made ∈ u.captures frame.type, made.name = c.name ∧ e = captureRead site c.name c.type made.field (env.via k) ∧
          ∃ field, u.field? made.field = some field ∧ u.types.classOf field.owner = u.types.classOf frame.type ∧
            field.name = captureFieldName c.name := by
  intro e u
  have hfresh : ((d.load f).session base).begun.Fresh := (Loaded.fresh d f base).begun
  have hst : st.WellFormed := (running.sound h ⟨hfresh.wellFormed, hfresh.numbered⟩).1
  have hpopulated : st.world.Populated := (Loaded.populated d f base).moves h.2.moves
  have hpasses : Works (resolving site.id) (captureArg env site c) st _ := captureArg_nearest hpopulated.soundBodies henv c hj
  obtain ⟨hleads, hreads⟩ := hpasses hst
  refine hreads.imp_right ?_
  rintro ⟨k, frame, hnearest, made, hmade, hname, he⟩
  have hframe : st.world.types.Knows frame.type := henv frame (List.mem_of_getElem? hnearest.frame)
  have hlocal := hnearest.holds.isLocalClass hpopulated.soundBodies hst.world.types
  obtain ⟨t, -, howner, hfield⟩ := (hpopulated.moves hleads.2.moves).backed hmade
  refine ⟨k, frame, hnearest, ?_, made, hmade, hname, he, _, hfield, howner, congrArg captureFieldName hname⟩
  exact (isLocalClass_extends hst.world.types hleads.2.moves.types_extends hframe).trans hlocal

/-- Two local classes, of which the one creates the other; that captures a variable of the
class around both. The first one is finished before the second, so it is too late for it to
capture the variable when the call gets its arguments. -/
def crossingDocument : Document where
  classes := [
    .mk { name := "p.A" } [],
    .mk { name := "p.A$1L" } [],
    .mk { name := "p.A$1M", captures := ["int x"] } []]
  program := [
    { id := "a", cls := "p.A$1L", locals := .byFrame [⟨"p.A", ["int x"], default⟩], new := "p.A$1M" },
    { complete := "p.A$1L" },
    { complete := "p.A$1M" }]

/-- Whether the call of a turn stands in an open local class, inside the frame that declares a
variable. -/
def Session.Turn.crosses {st : Session} (t : Turn st) (name : String) : Bool :=
  t.env.frames.findIdx? (·.hasLocal name) = some 1 &&
    (t.env.frames[0]?).any fun f => decide (t.start.world.CanHold f.type name)

theorem crossingDocument_crosses : (((crossingDocument.load blankFile).session {}).turnAt? 0).any (·.crosses "x") = true := by
  decide +kernel

/-- While the class that is crossed is open, it captures the variable, and its copy is read.
-/
theorem crossing_reads_copy : ∃ (t : Turn ((crossingDocument.load blankFile).session {})) (c made : Capture) (field : Field),
    c.name = "x" ∧ t.env.frames.findIdx? (·.hasLocal c.name) = some 1 ∧
      (captureArg t.env t.site c t.start).2.world.field? made.field = some field ∧ field.name = captureFieldName "x" ∧
        (captureArg t.env t.site c t.start).1 = captureRead t.site c.name c.type made.field (t.env.via 0) := by
  obtain ⟨t, -, ht⟩ := (Option.any_eq_true _ _).mp crossingDocument_crosses
  obtain ⟨hdeclared, hholds⟩ := Bool.and_eq_true_iff.mp ht
  have hj := of_decide_eq_true hdeclared
  obtain ⟨f, hf, hholds⟩ := (Option.any_eq_true _ _).mp hholds
  have hfresh := Loaded.fresh crossingDocument blankFile {}
  let c : Capture := { name := "x", type := .ofPrimitive .int, field := .none }
  have hleads := (hfresh.begun.reached t.place).leads
  rcases nearest_copy_is_read crossingDocument blankFile {} hleads (t.knows hfresh).1 t.site c hj with
    ⟨hnone, -⟩ | ⟨k, frame, hnearest, -, made, -, -, he, field, hfield, -, hname⟩
  · exact absurd (of_decide_eq_true hholds) (hnone 0 (by decide) f hf)
  · obtain rfl : k = 0 := Nat.lt_one_iff.mp hnearest.inside
    exact ⟨t, c, made, field, rfl, hj, hfield, hname, he⟩

/-- Whether a resolved site passes a variable that is read from inside a local class. -/
def Session.readsAcross (st : Session) (id : SiteId) : Bool :=
  (st.program.site? id).any fun site => site.result.state = .resolved && site.result.localArgs.any fun a =>
    match a.form with
    | .localVar _ via => via.any st.world.types.isLocalClass
    | _ => false

theorem crossingDocument_readsAcross :
    (((crossingDocument.load blankFile).session {}).begun.before 3).readsAcross 1 = true := by
  decide +kernel

/-- A local variable may be read across a local class: when the argument is made the class was
finished without the variable. So what is read from inside a local class need not be a copy of
that class. -/
theorem copies_bypassed : ¬ ∀ (d : Document) (f : Source.File) (base : Options) (n : Nat),
    let st := ((d.load f).session base).begun.before n
    ∀ id site, st.program.site? id = some site → site.result.state = .resolved →
      ∀ a ∈ site.result.localArgs, ∀ name via, a.form = .localVar name via → ∀ t ∈ via, st.world.types.isLocalClass t = false := by
  intro h
  obtain ⟨site, hsite, hreads⟩ := (Option.any_eq_true _ _).mp crossingDocument_readsAcross
  obtain ⟨hstate, hreads⟩ := Bool.and_eq_true_iff.mp hreads
  obtain ⟨a, ha, hform⟩ := List.any_eq_true.mp hreads
  split at hform
  · rename_i name via hlocal
    obtain ⟨t, ht, hclass⟩ := List.any_eq_true.mp hform
    have hforeign := h _ _ _ _ 1 site hsite (of_decide_eq_true hstate) a ha name via hlocal t ht
    simp [hclass] at hforeign
  · cases hform

/-- As long as the local classes are open the call waits, and has no such argument. -/
example : (((crossingDocument.load blankFile).session {}).begun.before 1).readsAcross 1 = false := by
  decide +kernel

end CallResolution
