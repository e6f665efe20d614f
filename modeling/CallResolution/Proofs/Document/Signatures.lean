import CallResolution.Proofs.Document.Program
import CallResolution.Proofs.Members.Readings
import CallResolution.Proofs.Members.Parameters
import CallResolution.Proofs.Resolve.Stages

/-!
# Signatures of documents

A callable of a loaded document gets its signature when it is first needed, which may be after
any number of steps of the program. The steps add classes that the document does not declare:
an anonymous class for each body, and a placeholder class for private constructors that are
called from elsewhere. Unless one of these has a qualified name that is tried for a name in
the text of the signature, the outcome is the one right after loading.

A callable with a text that denotes no signature stays where it is declared: no call is bound
to it, no accessor forwards to it, and no method of a table is in conflict with it. All of
these need a processed signature, and a signature that was processed is not broken. The text
is taken up once, so its faults are reported once.

A callable of variable arity with a processed signature takes an array last, unless it is the
accessor of a constructor.

Main statements: `signature_outcome_stays`, and `placeholder_changes_signature` for a text
that names a placeholder; `broken_signatures_contained`; `variadic_params`.
-/

namespace CallResolution

open Session Universe

/-! ## Late signatures

The text of a signature is read in the universe of the moment. Reading it right after loading
and reading it later are compared as in `Alike`, since the numbers of types differ.
-/

/-- The names of the classes that the first steps of a program register. A signature is read
in another way only when it tries one of them. -/
def Loaded.namesSince (l : Loaded) (base : Options) (k : Nat) : List String :=
  (((l.session base).begun.before k).world.types.names.filter fun p => ¬ l.world.types.Knows p.2).map (·.1)

/-- After any number of steps a request for the signature of a callable has the outcome that
it has right after loading: it is broken in both cases, or the types have the same names. This
is so unless a step registered a class under a qualified name that is tried for a name in the
text. -/
theorem signature_outcome_stays (d : Document) (f : Source.File) (base : Options) (k : Nat) (id : MethodId)
    (hid : (d.load f).world.Has id)
    (hfree : ∀ name ∈ (d.load f).namesSince base k, name ∉ (d.load f).world.consultedBy id) :
    (((d.load f).session base).begun.before k).world.signatureOutcome id = (d.load f).world.signatureOutcome id := by
  obtain ⟨hworld, hnested, -⟩ := d.load_drafted f
  have hfresh := (Loaded.fresh d f base).begun
  have hreached := (hfresh.reached k).leads
  have hkeeps : (d.load f).world.Keeps (((d.load f).session base).begun.before k).world := hreached.2.world
  have hsound := running.sound hreached ⟨hfresh.wellFormed, hfresh.numbered⟩
  refine hkeeps.signatureOutcome hworld hnested hsound.1.world hid fun p hp hnew => hfree p.1 ?_
  exact List.mem_map_of_mem (List.mem_filter.mpr ⟨hp, decide_eq_true hnew⟩)

/-- A private constructor that is called from a member class, an anonymous class, and methods
with their signatures: the type of the first one names the placeholder of the constructor,
those of the second one name declared and predefined classes. -/
def lateSignatures : Document where
  classes := [
    .mk { name := "p.A", constructors := [{ access := "private" }] } [.mk { name := "In" } []],
    .mk { name := "p.B", methods := [
      { name := "m", params := ["A$"], returns := "void" },
      { name := "n", typeParams := ["T extends Comparable<T>"], params := ["T", "A.In[]", "Class<? extends T>..."],
        returns := "T", throws := ["Exception"] }] } []]
  program := [
    { id := "a", cls := "p.A.In", new := "p.A" },
    { id := "b", cls := "p.A", new := "Object", body := some {} }]

/-- The second signature of the document by the names of its types. -/
def lateSignatures.generic : SignatureNames where
  typeParams := [("T", ["java.lang.Comparable<T>"])]
  params := ["T", "p.A.In[]", "java.lang.Class<? extends T>[]"]
  returns := "T"
  throws := ["java.lang.Exception"]

/-- What the document comes to: which classes two steps register, what the generic signature
is after loading and which names it consults, and that the first step changes the other
signature. -/
theorem lateSignatures_run :
    (lateSignatures.load blankFile).namesSince {} 2 = ["p.A$1", "p.A$"] ∧
      ((lateSignatures.load blankFile).world.signatureOutcome ⟨104⟩ = some lateSignatures.generic ∧
        ∀ name ∈ ["p.A$1", "p.A$"], name ∉ (lateSignatures.load blankFile).world.consultedBy ⟨104⟩) ∧
      ((lateSignatures.load blankFile).world.method? ⟨103⟩).isSome ∧
      (((lateSignatures.load blankFile).session {}).begun.before 1).world.signatureOutcome ⟨103⟩ ≠
        (lateSignatures.load blankFile).world.signatureOutcome ⟨103⟩ := by
  decide +kernel

/-- A generic signature is the same before and after two steps that register classes. -/
theorem lateSignatures_stay :
    (lateSignatures.load blankFile).namesSince {} 2 = ["p.A$1", "p.A$"] ∧
      (((lateSignatures.load blankFile).session {}).begun.before 2).world.signatureOutcome ⟨104⟩ =
        some lateSignatures.generic := by
  obtain ⟨hnames, ⟨houtcome, hfree⟩, -⟩ := lateSignatures_run
  refine ⟨hnames, ?_⟩
  rw [signature_outcome_stays lateSignatures blankFile {} 2 ⟨104⟩ (Universe.has_of_signatureOutcome houtcome)]
  · exact houtcome
  · rw [hnames]
    exact hfree

/-- The signature of a method that names a placeholder is broken right after loading, and is
not once the placeholder is there. The name of a placeholder ends in a dollar sign. -/
theorem placeholder_changes_signature :
    ¬ ∀ (d : Document) (f : Source.File) (base : Options) (k : Nat) (id : MethodId), (d.load f).world.Has id →
      (((d.load f).session base).begun.before k).world.signatureOutcome id = (d.load f).world.signatureOutcome id := by
  intro h
  obtain ⟨-, -, hhas, hchanges⟩ := lateSignatures_run
  exact hchanges (h lateSignatures blankFile {} 1 ⟨103⟩ hhas)

/-! ## Broken signatures

Whatever makes something of a callable asks for its signature first, and a broken one is never
given out.
-/

/-- Nothing is made of a callable: no call is bound to it, nothing forwards to it, and no
table has it in conflict with a method. It may be listed by tables, where it is passed over.
-/
structure Session.Contains (st : Session) (id : MethodId) : Prop where
  /-- The calls. -/
  sites : ∀ i site, st.program.site? i = some site → site.result.callable ≠ id
  /-- The accessors. -/
  targets : ∀ acc m, st.world.method? acc = some m → m.target ≠ id
  /-- The tables of classes and arrays. -/
  conflicts : ∀ table, st.world.HasTable table → ∀ p ∈ table.methods, ∀ s ∈ p.2, id ∉ s.conflicts

/-- At every stage of the run of a document, nothing is made of a callable whose signature was
not processed without a fault. The broken signatures and the reports of broken signatures go
together one by one. No signature is being processed then, and what was found of one stays:
its text is taken up, and it is resolved or broken for good. -/
theorem broken_signatures_contained (d : Document) (f : Source.File) (base : Options) (n : Nat) :
    let st := (d.load f).session base
    let u := (st.stage n).world
    (∀ id m, u.method? id = some m → m.signature ≠ .resolved → (st.stage n).Contains id) ∧
      u.ReportsOnce ∧
      ∀ id m, u.method? id = some m → m.signature ≠ .resolving ∧
        ∀ k, n ≤ k → ∃ m', (st.stage k).world.method? id = some m' ∧ m.signature.GoesOn m'.signature := by
  intro st u
  have hfresh : st.Fresh := Loaded.fresh d f base
  have hsound : (st.stage n).WellFormed := (hfresh.stage_sound n).1
  have hpopulated : u.Populated := hfresh.stage_populated (Loaded.populated d f base) n
  refine ⟨fun id m hm hnot => ?_, hpopulated.reportsOnce, fun id m hm => ⟨hpopulated.not_resolving hm, fun k hk => ?_⟩⟩
  · have hsome : id ≠ .none := (method?_eq_some_iff.mp hm).1
    have hbroken : ¬ (u.method id).isResolved := by
      rw [method_eq hm]
      exact fun h => hnot (of_decide_eq_true h)
    refine ⟨fun i site hsite heq => ?_, fun acc m' hm' heq => ?_, fun table htable p hp s hs hmem => ?_⟩
    · rcases (hfresh.stage_sites (Loaded.bodies d f base) n hsite).1 with hempty | hfailed | ⟨-, hresolved⟩
      · rw [hempty] at heq
        exact hsome heq.symm
      · rw [hfailed] at heq
        exact hsome heq.symm
      · exact hbroken (heq ▸ hresolved)
    · rcases hpopulated.forwards hm' with ⟨-, hnone⟩ | ⟨-, hresolved⟩
      · exact hsome (heq.symm.trans hnone)
      · exact hbroken (heq ▸ hresolved)
    · exact hbroken ((htable.sound hsound.world).isResolved_of_conflict hp hs hmem)
  · exact (hfresh.stage_leads hk).2.moves.goesOn hpopulated.soundBodies hm

/-! ## A class with a broken overload

The overload is found by both calls and reported for the first one.
-/

/-- A class with two methods of one name, the first one with an unknown parameter type, and
calls of the other. -/
def brokenOverloadDocument : Document where
  classes := [.mk { name := "p.A", methods := [
    { name := "m", params := ["Missing"], returns := "void" },
    { name := "m", params := ["Object"], returns := "void" }] } []]
  program := [
    { id := "a", cls := "p.A", call := "m", args := [{ type := "String" }] },
    { id := "b", cls := "p.A", call := "m", args := [{ type := "String" }] }]

/-- Whether the only broken signature that was reported is that of a callable, while all calls
were bound. -/
def Session.hasBroken (st : Session) (id : MethodId) : Bool :=
  (st.world.method? id).any (·.signature = .broken) && st.world.brokenReports.length = 1 &&
    st.program.sites.all (·.result.state = .resolved)

theorem brokenOverloadDocument_hasBroken :
    (((brokenOverloadDocument.load blankFile).session {}).stage 2).hasBroken ⟨Universe.initial.methods.size + 1⟩ = true := by
  decide +kernel

/-- Both calls look at the broken overload; it is reported once, and nothing is made of it. -/
theorem brokenOverload_contained :
    let st := ((brokenOverloadDocument.load blankFile).session {}).stage 2
    ∃ id, st.world.IsBroken id ∧ st.Contains id ∧ st.world.brokenReports.length = 1 ∧ st.world.ReportsOnce := by
  have hbroken := brokenOverloadDocument_hasBroken
  have hcontained := broken_signatures_contained brokenOverloadDocument blankFile {} 2
  generalize (brokenOverloadDocument.load blankFile).session {} = st at hbroken hcontained ⊢
  simp only [hasBroken, Bool.and_eq_true, decide_eq_true_eq, Option.any_eq_true] at hbroken
  obtain ⟨⟨⟨m, hm, hsignature⟩, hlength⟩, -⟩ := hbroken
  exact ⟨_, ⟨m, hm, hsignature⟩, hcontained.1 _ m hm (by simp [hsignature]), hlength, hcontained.2.1⟩

/-! ## Variable arity

Variable arity and the array at the end of the parameters come from the same text, so they
agree, except where a parameter is added behind the array.
-/

/-- At every stage of the run of a document, a callable of variable arity with a processed
signature takes an array last, unless it is the accessor of a constructor of variable arity:
such a one takes what the constructor takes, and one parameter more. -/
theorem variadic_params (d : Document) (f : Source.File) (base : Options) (n : Nat) (id : MethodId) (m : Method)
    (hm : (((d.load f).session base).stage n).world.method? id = some m) (hresolved : m.signature = .resolved)
    (hvariadic : m.flags.isVariadic) :
    (((d.load f).session base).stage n).world.types.EndsInArray m.params ∨
      (((d.load f).session base).stage n).world.ForwardsVariadic m := by
  have hfresh : ((d.load f).session base).Fresh := Loaded.fresh d f base
  have hpopulated := hfresh.stage_populated (Loaded.populated d f base) n
  exact (hpopulated.spreads hm hvariadic).resolved hresolved

/-- A class with a private constructor of variable arity, which is called from a member class.
-/
def variadicAccessorDocument : Document where
  classes := [.mk { name := "p.A", constructors := [{ access := "private", params := ["int..."] }] } [.mk { name := "In" } []]]
  program := [{ id := "a", cls := "p.A.In", new := "p.A", args := [{ type := "int" }] }]

/-- The constructor of the document, and the accessor that the call makes. -/
def variadicAccessorDocument.constructors : MethodId × MethodId :=
  (⟨Universe.initial.methods.size + 1⟩, ⟨Universe.initial.methods.size + 3⟩)

/-- Whether a callable has a processed signature, is of variable arity, and takes an array
last, or not. -/
def Universe.spreadsOver (u : Universe) (id : MethodId) (array : Bool) : Bool :=
  (u.method? id).any fun m =>
    m.signature = .resolved && m.flags.isVariadic && m.params.getLast?.any (u.types.isArray · = array)

theorem variadicAccessorDocument_spreads :
    let u := (((variadicAccessorDocument.load blankFile).session {}).stage 1).world
    u.spreadsOver variadicAccessorDocument.constructors.1 true ∧ u.spreadsOver variadicAccessorDocument.constructors.2 false := by
  decide +kernel

/-- What is checked of a callable of variable arity. -/
theorem Universe.of_spreadsOver {u : Universe} {id : MethodId} {array : Bool} (h : u.spreadsOver id array) :
    ∃ m, u.method? id = some m ∧ m.signature = .resolved ∧ m.flags.isVariadic ∧ (u.types.EndsInArray m.params ↔ array = true) := by
  obtain ⟨m, hm, hspreads⟩ := (Option.any_eq_true _ _).mp h
  simp only [Bool.and_eq_true, decide_eq_true_eq, Option.any_eq_true] at hspreads
  obtain ⟨⟨hresolved, hvariadic⟩, t, ht, harray⟩ := hspreads
  refine ⟨m, hm, hresolved, hvariadic, fun hends => ?_, fun h => ⟨t, ht, harray.trans h⟩⟩
  obtain ⟨t', ht', harray'⟩ := hends
  obtain rfl := Option.some.inj (ht.symm.trans ht')
  exact harray.symm.trans harray'

/-- The call makes an accessor that takes the array of the private constructor and one
parameter more. -/
theorem variadic_constructor_forwarded :
    let u := (((variadicAccessorDocument.load blankFile).session {}).stage 1).world
    ∃ m, u.method? variadicAccessorDocument.constructors.2 = some m ∧ m.signature = .resolved ∧ m.flags.isVariadic ∧
      u.ForwardsVariadic m := by
  have hparams := variadic_params variadicAccessorDocument blankFile {} 1 variadicAccessorDocument.constructors.2
  obtain ⟨m, hm, hresolved, hvariadic, harray⟩ := of_spreadsOver variadicAccessorDocument_spreads.2
  refine ⟨m, hm, hresolved, hvariadic, (hparams m hm hresolved hvariadic).resolve_left fun hends => ?_⟩
  exact absurd (harray.mp hends) (by decide)

/-- A callable of variable arity may take no array last. -/
theorem variadic_accessor_without_array :
    ¬ ∀ (d : Document) (f : Source.File) (base : Options) (n : Nat) (id : MethodId) (m : Method),
      (((d.load f).session base).stage n).world.method? id = some m → m.signature = .resolved → m.flags.isVariadic →
        (((d.load f).session base).stage n).world.types.EndsInArray m.params := by
  intro h
  obtain ⟨m, hm, hresolved, hvariadic, harray⟩ := of_spreadsOver variadicAccessorDocument_spreads.2
  exact absurd (harray.mp (h variadicAccessorDocument blankFile {} 1 _ m hm hresolved hvariadic)) (by decide)

end CallResolution
