import CallResolution.Proofs.Document.Program
import CallResolution.Proofs.Members.Closure

/-!
# The hierarchy of a document

Headers are resolved class by class, so a document may ask for classes that inherit from
themselves. When all headers are resolved, exactly these classes are reported and cut back,
and no class inherits from itself in what is built from the document.

So the tables of a loaded document can all be made as a recursion over supertypes.

Main statements: `cycles_broken` and `Document.load_complete`.
-/

namespace CallResolution

open TypeStore Loader

/-- A class that inherits from itself is declared, and is not predefined. -/
theorem Loader.Laid.cyclic {l : Loader} (hl : Laid l) {t : TypeId} (h : l.world.types.Inherits t t) :
    ∃ slot, predefinedClasses.length ≤ slot ∧ l.world.types.shape t = .declared slot := by
  have hs := hl.plain.types.1
  obtain ⟨slot, hshape⟩ : ∃ slot, l.world.types.shape t = .declared slot := by
    have isClass {c p : TypeId} (hp : l.world.types.Parent c p) : ∃ slot, l.world.types.shape p = .declared slot := by
      obtain ⟨hp, hsome⟩ := List.mem_filter.mp hp
      obtain ⟨u, -, rfl⟩ := List.mem_map.mp hp
      exact (hs.classOf_cases u).resolve_left fun hnone => absurd hsome (by simp [hnone, TypeId.isSome])
    cases h with
    | single hp => exact isClass hp
    | tail _ hp => exact isClass hp
  refine ⟨slot, ?_, hshape⟩
  by_contra hlt
  exact hs.not_inherits_predefined hshape (Nat.lt_of_not_le hlt) h

/-- What is made of resolved headers when cycles are broken. Which classes are on a cycle is
told of the headers before, so it does not depend on what was cut first. -/
structure BreaksCycles (f : Source.File) (classes : List DeclaredClass) (s s' : TypeStore) (reported : List Diagnostic) : Prop where
  /-- No class inherits from itself in the end. -/
  acyclic : s'.Acyclic
  /-- Every class that inherited from itself is one of the declared classes. -/
  declared : ∀ t, s.Inherits t t → t ∈ classes.map (·.id)
  /-- No class is declared twice. -/
  once : (classes.map (·.id)).Nodup
  /-- Those of the declared classes that inherited from themselves are reported, in order. -/
  reported : reported = (classes.filter fun c => s.Inherits c.id c.id).map (circle f s)
  /-- A class that inherited from itself has the root class as its only supertype, and none if
  it is an interface. -/
  cut : ∀ t, s.Inherits t t → ∃ info, s.classInfo? t = some info ∧
    s'.directSupertypes t = if info.flags.isInterface then [] else [.object]
  /-- Every other class is declared as before, with its superclass and interfaces. -/
  kept : ∀ t, (s.shape t).isDeclared → ¬ s.Inherits t t → s'.classInfo? t = s.classInfo? t

/-- The listed classes that inherit from themselves are all that do so. -/
theorem Loader.Laid.isAmong_iff {l : Loader} (hl : Laid l) {classes : List DeclaredClass}
    (hlists : Lists l.world.types (classes.map (·.id))) {t : TypeId} (ht : (l.world.types.shape t).isDeclared) :
    l.world.types.IsAmong ((classes.filter fun c => l.world.types.Inherits c.id c.id).map (·.id)) t ↔
      l.world.types.Inherits t t := by
  have hs := hl.plain.types.1
  constructor
  · rintro ⟨id, hid, -, hslots⟩
    obtain ⟨c, hc, rfl⟩ := List.mem_map.mp hid
    obtain ⟨hmem, hcyclic⟩ := List.mem_filter.mp hc
    obtain ⟨slot, -, hshape⟩ := hlists.isNewClass (List.mem_map_of_mem hmem)
    cases hself : l.world.types.shape t with
    | declared slot' =>
      simp only [classSlot?, hself, hshape, Option.some.injEq] at hslots
      have heq : t = c.id := hs.eq_of_shape (by rw [hself, hshape, hslots]) (by simp [hself])
      exact heq ▸ of_decide_eq_true hcyclic
    | _ => simp [hself, TypeShape.isDeclared] at ht
  · intro hcycle
    obtain ⟨slot, hslot, hshape⟩ := hl.cyclic hcycle
    obtain ⟨c, hc, rfl⟩ := List.mem_map.mp (hlists.mem hs hshape hslot)
    exact ⟨c.id, List.mem_map_of_mem (List.mem_filter.mpr ⟨hc, by simpa using hcycle⟩), by simp [classSlot?, hshape], rfl⟩

/-- The cycles that are reported when classes are cut back come after those that were reported
before. -/
theorem Loader.circles_withCut (l : Loader) (cs : List DeclaredClass) :
    (l.withCut cs).circles = l.circles ++ cs.map (circle l.file l.world.types) := by
  have hall : (cs.map (circle l.file l.world.types)).filter (·.code = .cyclicHierarchy) =
      cs.map (circle l.file l.world.types) := by
    refine List.filter_eq_self.mpr fun d hd => ?_
    obtain ⟨c, -, rfl⟩ := List.mem_map.mp hd
    rfl
  simp only [circles, withCut, Array.toList_append, List.filter_append, hall]

/-- What is built from resolved headers has no cycle. -/
theorem Loader.Laid.breaksCycles {l : Loader} (hl : Laid l) (hquiet : l.circles = []) (decls : List ClassDecl) :
    BreaksCycles l.file (resolveHeaders decls l).1 (resolveHeaders decls l).2.world.types
      (buildUniverse decls l).2.world.types (buildUniverse decls l).2.circles := by
  obtain ⟨hlead, hlists, -⟩ := resolveHeaders_works decls hl
  obtain ⟨hset, -, hfills, -⟩ := buildUniverse_fills decls hl
  have hlaid := hlead.laid hl
  have hcircles := hfills.circles.trans (circles_withCut _ _)
  rw [hlead.circles, hquiet, List.nil_append, hlead.file] at hcircles
  unfold headersSet at hset hfills
  dsimp only at hset hfills
  generalize resolveHeaders decls l = resolved at *
  obtain ⟨classes, resolved⟩ := resolved
  have hs := hlaid.plain.types.1
  have hcut := hset.plain.types.1
  have hext : TypeStore.Extends _ (buildUniverse decls l).2.world.types := hfills.keeps.types
  have hdeclared {t : TypeId} (ht : resolved.world.types.Inherits t t) : (resolved.world.types.shape t).isDeclared := by
    obtain ⟨slot, -, hshape⟩ := hlaid.cyclic ht
    rw [hshape]
    rfl
  have hknown {t : TypeId} (ht : (resolved.world.types.shape t).isDeclared) :
      (resolved.withCut (classes.filter fun c => resolved.world.types.Inherits c.id c.id)).world.types.Knows t := by
    show t.index < (resolved.world.types.cutAll _).shapes.size
    rw [shapes_cutAll]
    exact knows_of_isDeclared ht
  -- the root class has no supertypes to come back from
  have hroot : ¬ resolved.world.types.IsAmong ((classes.filter fun c => resolved.world.types.Inherits c.id c.id).map (·.id))
      .object := fun hamong => by
    obtain ⟨slot, hslot, hshape⟩ := hlaid.cyclic ((hlaid.isAmong_iff hlists (by rw [hs.shape_object]; rfl)).mp hamong)
    rw [hs.shape_object, TypeShape.declared.injEq] at hshape
    exact absurd (hshape ▸ hslot) (by decide)
  exact {
    acyclic := hext.acyclic hcut (hs.cutAll_acyclic hroot fun t ht => (hlaid.isAmong_iff hlists (hdeclared ht)).mpr ht)
    declared := fun t ht => by
      obtain ⟨slot, hslot, hshape⟩ := hlaid.cyclic ht
      exact hlists.mem hs hshape hslot
    once := hlists.nodup
    reported := hcircles
    cut := fun t ht => by
      obtain ⟨slot, hslot, hshape⟩ := hlaid.cyclic ht
      have hinfo : resolved.world.types.classInfo? t = some _ :=
        Option.bind_eq_some_iff.mpr ⟨slot, by simp [classSlot?, hshape], Array.getElem?_eq_getElem (hs.refers hshape (by simp))⟩
      refine ⟨_, hinfo, ?_⟩
      rw [hext.directSupertypes hcut (hknown (hdeclared ht))]
      exact directSupertypes_of_among ((hlaid.isAmong_iff hlists (hdeclared ht)).mpr ht) hinfo
    kept := fun t ht hnot => by
      rw [hext.classInfo hcut (hknown ht)]
      exact classInfo?_of_not_among fun hamong => hnot ((hlaid.isAmong_iff hlists ht).mp hamong) }

/-- Where nothing was reported, no cycle was. -/
theorem Loader.circles_of_quiet {u : Universe} (h : u.reports.size = 0) (f : Source.File) :
    circles { file := f, world := u } = [] := by
  simp [circles, Array.eq_empty_of_size_eq_zero h]

/-- Reading the options leaves cycles to be broken. -/
theorem Loader.Laid.breaksCycles_options {u : Universe} {f : Source.File} (hl : Laid { file := f, world := u })
    (hquiet : u.reports.size = 0) (o : Option OptionsDecl) (decls : List ClassDecl) :
    let start := (Loader.options o { file := f, world := u }).2
    BreaksCycles f (resolveHeaders decls start).1 (resolveHeaders decls start).2.world.types
      (buildUniverse decls start).2.world.types (buildUniverse decls start).2.circles := by
  intro start
  have hstart : Lays .any _ start := (options_works (loads_laying : Loads (laying .any)) o hl).1
  have hbreaks := (hstart.laid hl).breaksCycles (hstart.circles.trans (circles_of_quiet hquiet f)) decls
  rwa [hstart.file] at hbreaks

/-- What is built from the classes of a document has no cycle: the classes that inherit from
themselves when headers are resolved are reported and cut back, and the others keep what their
headers say. -/
theorem cycles_broken (o : Option OptionsDecl) (decls : List ClassDecl) (f : Source.File) :
    let start := (Loader.options o { file := f, world := Universe.initial }).2
    let resolved := resolveHeaders decls start
    let built := (buildUniverse decls start).2
    BreaksCycles f resolved.1 resolved.2.world.types built.world.types built.circles := by
  exact (Document.laid_initial f).breaksCycles_options Universe.initial_declares.2.2.2.1 o decls

/-! ## What is loaded

A loaded document has no cycles, since nothing changes a header after cycles were broken.
-/

namespace Document

/-- No class of a loaded document inherits from itself. -/
theorem load_acyclic (d : Document) (f : Source.File) : (d.load f).world.types.Acyclic := by
  have hlaid := laid_initial f
  have hoptions := options_works (loads_laying : Loads (laying .any)) d.options hlaid
  obtain ⟨hbuilt, -⟩ := buildUniverse_grows d.classes (hoptions.1.laid hlaid)
  have hprogram : Fills (buildUniverse d.classes (Loader.options d.options { file := f, world := Universe.initial }).2).2
    (loadM d { file := f, world := Universe.initial }).2 := (programM_works d hbuilt).1
  exact hprogram.keeps.types.acyclic hbuilt.1.types (cycles_broken d.options d.classes f).acyclic

/-- The tables of a loaded document are as they should be: there is none. That no class
inherits from itself is the part of it that later tables rest on. -/
theorem load_complete (d : Document) (f : Source.File) : (d.load f).world.Complete where
  acyclic := d.load_acyclic f
  unmarked cls h := by
    rw [d.load_unbuilt f cls] at h
    cases h
  tidy := d.load_tidy f
  whole cls t _ h := by
    rw [d.load_unbuilt f cls] at h
    cases h

end Document

end CallResolution
