import CallResolution.Proofs.Document.Program
import CallResolution.Proofs.Resolve.Positions

/-!
# Type variables of a document

A class of a document lists the type variables that its declaration gives and that can be
read. Each of them is registered with its place in the declaration, so a text that cannot be
read leaves a gap: the type variables behind it are listed at one place and registered with
another one. The result of a call is instantiated by position only before such a gap.

Main statements: `owner_argument_by_position` and `argument_behind_gap_lost`.
-/

namespace CallResolution

open TypeStore Loader

/-! ## Places in declarations

That a type variable is registered with the place of its text, carried along loading.
-/

namespace Loader

variable {l : Loader}

/-- What is declared of a class is kept. -/
theorem Placed.extends {s s' : TypeStore} {c : DeclaredClass} (hplaced : Placed s c) (hs : s.WellFormed) (hc : s.Knows c.id)
    (hext : s.Extends s') : Placed s' c := fun info hinfo i v hv haccepted => by
  rw [hext.classInfo hs hc] at hinfo
  exact (hplaced info hinfo i v hv haccepted).leads hext.steps

/-- In what is built from a document, type variables before which no text was refused are
registered with their places. -/
theorem buildUniverse_places (decls : List ClassDecl) (hl : Laid l) (hnone : l.classes = []) :
    ∀ c ∈ (buildUniverse decls l).2.classes, ((buildUniverse decls l).2.world.types.shape c.id).isDeclared ∧
      Placed (buildUniverse decls l).2.world.types c := by
  obtain ⟨hlead, -, hopen, hclasses, hplaced⟩ := resolveHeaders_works decls hl
  obtain ⟨hset, -, hfills, -⟩ := buildUniverse_fills decls hl
  have hsteps := headersSet_leads decls hl
  intro c hc
  have hlisted : (buildUniverse decls l).2.classes = (resolveHeaders decls l).1 := hfills.classes.trans hclasses
  rw [hlisted] at hc
  have hcut : Placed (headersSet decls l).world.types c :=
    (hplaced hnone c hc).headers (hlead.laid hl).plain.types.1 (hopen c hc).id.isDeclared hsteps
  have hdeclared := (growth_grows hsteps).isDeclared (hopen c hc).id.isDeclared
  exact ⟨(loads_filling.grows hfills).isDeclared hdeclared,
    hcut.extends hset.plain.types.1 (knows_of_isDeclared hdeclared) hfills.keeps.types⟩

end Loader

/-- In what is loaded from a document, type variables before which no text was refused are
registered with their places. -/
theorem Document.loadM_places (d : Document) {l : Loader} (hl : Laid l) (hnone : l.classes = []) :
    ∀ c ∈ (loadM d l).2.classes, Placed (loadM d l).2.world.types c := by
  have hoptions := options_works (loads_laying : Loads (laying .free)) d.options hl
  have hl₁ := hoptions.1.laid hl
  obtain ⟨hbuilt, -⟩ := buildUniverse_grows d.classes hl₁
  obtain ⟨hlead, -⟩ := programM_works d hbuilt
  intro c hc
  have hlisted : (loadM d l).2.classes = (buildUniverse d.classes (Loader.options d.options l).2).2.classes := hlead.classes
  rw [hlisted] at hc
  obtain ⟨hdeclared, hplaced⟩ := buildUniverse_places d.classes hl₁ ((hoptions.1.classes fun _ => id).trans hnone) c hc
  exact hplaced.extends hbuilt.1.types (knows_of_isDeclared hdeclared) hlead.keeps.types

/-! ## Predefined classes

Predefined classes are not read from texts; their type variables lie as they are listed.
-/

instance (s : TypeStore) (cls : TypeId) (i : Nat) (v : TypeId) : Decidable (s.RegisteredAt cls i v) :=
  decidable_of_iff ((s.typeVariable? v).any fun x => x.method = 0 ∧ x.owner = cls ∧ x.index = i) (by
    unfold RegisteredAt
    cases s.typeVariable? v <;> simp)

/-- Type variables of predefined classes are registered with their places. -/
theorem Universe.initial_places : ∀ i ∈ List.range predefinedShapes.length, ∀ info ∈ initial.types.classInfo? ⟨i⟩,
    (initial.types.shape ⟨i⟩).isDeclared → ∀ p ∈ info.typeParams.zipIdx, initial.types.RegisteredAt ⟨i⟩ p.2 p.1 := by
  decide +kernel

/-- What was registered before loading stays registered. -/
theorem Document.loadM_registeredAt (d : Document) {l : Loader} (hl : Laid l) {cls v : TypeId} {i : Nat}
    (hv : l.world.types.RegisteredAt cls i v) : (loadM d l).2.world.types.RegisteredAt cls i v := by
  have hoptions := options_works (loads_laying : Loads (laying .any)) d.options hl
  have hl₁ := hoptions.1.laid hl
  obtain ⟨-, hsound, hfills, hlead⟩ := buildUniverse_fills d.classes hl₁
  obtain ⟨hprogram, -⟩ := programM_works d (filling.sound hfills hsound)
  have hbuilt := ((hv.leads hoptions.1.steps).leads hlead).leads hfills.keeps.types.steps
  exact hbuilt.leads hprogram.keeps.types.steps

/-- A predefined class is declared as it was. -/
theorem TypeStore.WellFormed.classInfo_of_predefined {s s' : TypeStore} (hs : s.WellFormed) (hs' : s'.WellFormed)
    (count : s.classes.size = predefinedClasses.length) {cls : TypeId} {slot : Nat}
    (hcls : predefinedShapes[cls.index]? = some (.declared slot)) :
    (s.shape cls).isDeclared ∧ s'.classInfo? cls = s.classInfo? cls := by
  have hne : cls ≠ .none := by
    rintro rfl
    cases hcls
  have hshape := hs.shape_predefined hne hcls
  have hslot : slot < s.classes.size := hs.refers hshape (by simp)
  have hinfo := List.getElem?_eq_getElem (count ▸ hslot)
  refine ⟨by rw [hshape]; rfl, ?_⟩
  rw [hs.classInfo_predefined hshape hinfo, hs'.classInfo_predefined (hs'.shape_predefined hne hcls) hinfo]

/-! ## Results by position

The result of a call in the view of a receiver, with and without a gap.
-/

/-- The classes that a document declares, with their declarations, as the loader has listed
them. -/
def Document.declared (d : Document) (f : Source.File) : List DeclaredClass :=
  (d.loadM { file := f, world := Universe.initial }).2.classes

/-- There is no gap before a place among the type variables of a class: the class is
predefined, or no text of its declaration up to the place was refused. Texts behind the place
may have been. -/
def Document.Gapless (d : Document) (f : Source.File) (cls : TypeId) (i : Nat) : Prop :=
  (∃ slot, predefinedShapes[cls.index]? = some (.declared slot)) ∨
    ∃ c ∈ d.declared f, c.id = cls ∧ Accepted (c.decl.typeParams.take (i + 1))

/-- Where there is no gap, the place at which a class lists a type variable is its position.
-/
theorem Document.Gapless.registeredAt {d : Document} {f : Source.File} {cls v : TypeId} {i : Nat} (h : d.Gapless f cls i)
    {info : ClassInfo} (hinfo : (d.load f).world.types.classInfo? cls = some info) (hv : info.typeParams[i]? = some v) :
    (d.load f).world.types.RegisteredAt cls i v := by
  rcases h with ⟨slot, hcls⟩ | ⟨c, hc, rfl, haccepted⟩
  · obtain ⟨hdeclared, hsame⟩ := Universe.initial_untouched.plain.types.1.classInfo_of_predefined (d.load_drafted f).1.types
      Document.initial_size hcls
    rw [hsame] at hinfo
    refine d.loadM_registeredAt (laid_initial f) ?_
    have hindex : cls.index ∈ List.range predefinedShapes.length :=
      List.mem_range.mpr (List.getElem?_eq_some_iff.mp hcls).1
    exact Universe.initial_places cls.index hindex info hinfo hdeclared (v, i) (List.mem_zipIdx_iff_getElem?.mpr hv)
  · exact d.loadM_places (laid_initial f) rfl c hc info hinfo i v hv haccepted

/-- In a loaded document, whenever a receiver has a view of the declaring class, a result that
is a type variable of the class, or an array of it, is replaced by the argument of the view at
the place where the class lists the variable, as it is by instantiation. This is so unless a
text of the declaration before the type variable was refused, or the argument is, or is
bounded by, a type variable. -/
theorem owner_argument_by_position (d : Document) (f : Source.File) {s : TypeStore} (hext : (d.load f).world.types.Extends s)
    {owner recv ret v p : TypeId} {info : ClassInfo} {i : Nat} (hinfo : (d.load f).world.types.classInfo? owner = some info)
    (hv : info.typeParams[i]? = some v) (hgapless : d.Gapless f owner i) (hret : s.baseElem ret = v) {s₁ : TypeStore}
    (hview : parameterizationOf recv owner s = (some p, s₁)) {a : TypeArg} (ha : (s₁.argsOf p)[i]? = some a)
    (hplain : ∀ t ∈ a.supplied?, ¬ (s₁.shape t).isVariable) (qualified : Bool) :
    substOwner ret owner recv qualified s = subst ret info.typeParams (s₁.argsOf p) s₁ := by
  have hloaded := (d.load_drafted f).1.types
  have hs := hext.wellFormed hloaded
  have hposition := (hgapless.registeredAt hinfo hv).leads hext.steps
  exact substOwner_eq_subst hs hposition (hloaded.knows_classInfo hinfo).distinct hv hret hview ha hplain qualified

/-- A generic class with a gap behind its type variable, and a class that inherits from an
instance of it. -/
def gapBehindDocument : Document where
  classes := [
    .mk { name := "p.A", typeParams := ["T", "<"], interfaces := ["Comparable<T[]>"] } [],
    .mk { name := "p.B", super := "p.A<String[]>" } []]

theorem gapBehindDocument_checks :
    let s := (gapBehindDocument.load blankFile).world.types
    let r := parameterizationOf ⟨58⟩ ⟨57⟩ s
    ([⟨57⟩, ⟨58⟩, ⟨59⟩, ⟨60⟩].map s.name = ["p.A", "p.B", "T", "T[]"] ∧ r.1.map r.2.name = some "p.A<java.lang.String[]>") ∧
      (s.classInfo? ⟨57⟩).map (·.typeParams) = some [⟨59⟩] ∧ s.baseElem ⟨60⟩ = ⟨59⟩ ∧ r.1 = some ⟨62⟩ ∧
        r.2.argsOf ⟨62⟩ = [.exact ⟨50⟩] ∧ (∀ t ∈ (TypeArg.exact ⟨50⟩).supplied?, ¬ (r.2.shape t).isVariable) ∧
          let t := subst ⟨60⟩ [⟨59⟩] [.exact ⟨50⟩] r.2
          t.2.name t.1 = "java.lang.String[][]" := by
  decide +kernel

/-- Seen from the other class, an array of the type variable is an array of arrays of texts.
-/
theorem gapBehind_by_position :
    let s := (gapBehindDocument.load blankFile).world.types
    let r := parameterizationOf ⟨58⟩ ⟨57⟩ s
    let t := substOwner ⟨60⟩ ⟨57⟩ ⟨58⟩ true s
    [⟨57⟩, ⟨58⟩, ⟨59⟩, ⟨60⟩].map s.name = ["p.A", "p.B", "T", "T[]"] ∧ r.1.map r.2.name = some "p.A<java.lang.String[]>" ∧
      t = subst ⟨60⟩ [⟨59⟩] [.exact ⟨50⟩] r.2 ∧ t.2.name t.1 = "java.lang.String[][]" := by
  have hgapless : gapBehindDocument.Gapless blankFile ⟨57⟩ 0 := .inr (by decide +kernel)
  have hchecks := gapBehindDocument_checks
  have hposition := fun info => @owner_argument_by_position gapBehindDocument blankFile _ (.refl _) ⟨57⟩ ⟨58⟩ ⟨60⟩ ⟨59⟩ ⟨62⟩ info 0
  generalize (gapBehindDocument.load blankFile).world.types = s at hchecks hposition ⊢
  obtain ⟨⟨hnames, hview⟩, hinfo, helem, hfound, hargs, hplain, hresult⟩ := hchecks
  obtain ⟨info, hinfo, hparams⟩ := Option.map_eq_some_iff.mp hinfo
  generalize hrun : parameterizationOf ⟨58⟩ ⟨57⟩ s = r at hview hfound hargs hplain hresult
  obtain ⟨view, s₁⟩ := r
  obtain rfl : view = some ⟨62⟩ := hfound
  simp only [hrun]
  have heq := hposition info hinfo (by rw [hparams]; rfl) hgapless helem hrun (by rw [hargs]; rfl) hplain true
  rw [hparams, hargs] at heq
  rw [heq]
  exact ⟨hnames, hview, rfl, hresult⟩

/-- The parameter that cannot be read is left out of the type variables of the class. -/
example : ((gapBehindDocument.load blankFile).world.types.classInfo? ⟨57⟩).map (·.typeParams.length) = some 1 := by
  decide +kernel

/-- A generic class with a gap before its type variable, and a class that inherits from an
instance of it. -/
def gapBeforeDocument : Document where
  classes := [
    .mk { name := "p.A", typeParams := ["<", "T"] } [],
    .mk { name := "p.B", super := "p.A<String>" } []]

theorem gapBeforeDocument_checks :
    let s := (gapBeforeDocument.load blankFile).world.types
    let r := parameterizationOf ⟨58⟩ ⟨57⟩ s
    (s.classInfo? ⟨57⟩).map (·.typeParams) = some [⟨59⟩] ∧ s.baseElem ⟨59⟩ = ⟨59⟩ ∧ r.1 = some ⟨60⟩ ∧
      r.2.argsOf ⟨60⟩ = [.exact .string] ∧ (∀ t ∈ (TypeArg.exact .string).supplied?, ¬ (r.2.shape t).isVariable) ∧
        (substOwner ⟨59⟩ ⟨57⟩ ⟨58⟩ true s).1 ≠ (subst ⟨59⟩ [⟨59⟩] [.exact .string] r.2).1 := by
  decide +kernel

/-- Behind a gap, the argument of the receiver's view is lost. The variable is registered with
a position at which the view has no argument, so the result is erased. -/
theorem argument_behind_gap_lost : ¬ ∀ (d : Document) (f : Source.File) (s s₁ : TypeStore) (owner recv ret v p : TypeId)
    (info : ClassInfo) (i : Nat) (a : TypeArg) (qualified : Bool), (d.load f).world.types.Extends s →
      (d.load f).world.types.classInfo? owner = some info → info.typeParams[i]? = some v → s.baseElem ret = v →
        parameterizationOf recv owner s = (some p, s₁) → (s₁.argsOf p)[i]? = some a →
          (∀ t ∈ a.supplied?, ¬ (s₁.shape t).isVariable) →
            substOwner ret owner recv qualified s = subst ret info.typeParams (s₁.argsOf p) s₁ := by
  intro h
  have hchecks := gapBeforeDocument_checks
  have hposition := h gapBeforeDocument blankFile (gapBeforeDocument.load blankFile).world.types
  generalize (gapBeforeDocument.load blankFile).world.types = s at hchecks hposition
  obtain ⟨hinfo, helem, hfound, hargs, hplain, hdiffer⟩ := hchecks
  obtain ⟨info, hinfo, hparams⟩ := Option.map_eq_some_iff.mp hinfo
  generalize hrun : parameterizationOf ⟨58⟩ ⟨57⟩ s = r at hfound hargs hplain hdiffer
  obtain ⟨view, s₁⟩ := r
  obtain rfl : view = some ⟨60⟩ := hfound
  have heq := hposition s₁ ⟨57⟩ ⟨58⟩ ⟨59⟩ ⟨59⟩ ⟨60⟩ info 0 (.exact .string) true (.refl _) hinfo (by rw [hparams]; rfl) helem
    hrun (by rw [hargs]; rfl) hplain
  rw [hparams, hargs] at heq
  exact hdiffer (congrArg Prod.fst heq)

end CallResolution
