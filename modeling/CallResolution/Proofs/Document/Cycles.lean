import CallResolution.Document.Classes
import CallResolution.Proofs.Document.Loader
import CallResolution.Proofs.Types.Acyclic
import CallResolution.Proofs.Types.Naming

/-!
# Breaking cycles

When all headers are resolved, the classes that inherit from themselves are found, and then
each of them is reported and cut back. Cutting changes no name, so what is reported is what
could have been reported before; and it changes a class to what another cut would leave, so
the order does not matter.

Main statements: `breakCycles_eq` (what is done in full) and `WellFormed.cutAll_acyclic` (no
cycle is left).
-/

namespace CallResolution

namespace TypeStore

variable {s : TypeStore}

/-- A class is on a cycle when the search from it comes back to it. -/
theorem isCyclic_iff {t : TypeId} : Loader.isCyclic s t ↔ s.Inherits t t := by
  refine ⟨fun h => ?_, fun h => ?_⟩
  · obtain ⟨c, hc, hinherits⟩ := inherits_of_searchUp h
    rwa [List.mem_singleton.mp hc] at hinherits
  · have hmem : t ∈ s.classSet := by
      cases h with
      | single hp => exact parent_mem_classSet hp
      | tail _ hp => exact parent_mem_classSet hp
    exact (searchUp_eq_true_iff hmem).mpr h

instance (t : TypeId) : Decidable (s.Inherits t t) :=
  decidable_of_iff _ isCyclic_iff

/-! ## Cut classes

Cutting a class back leaves it with the root class as its only supertype, and an interface
with none. So after all classes on cycles are cut, a cycle would have to avoid them, and there
is none that does.
-/

/-- A class that is cut back has the same name. -/
theorem sameNames_cut (s : TypeStore) (t : TypeId) : s.SameNames (s.modifyClass t Loader.cutHeader) :=
  sameNames_modifyClass s t (f := Loader.cutHeader) fun _ => rfl

/-- The headers of some classes cut back, one after another. The order does not matter, since
cutting one class leaves the headers of the others alone. -/
def cutAll (s : TypeStore) (ids : List TypeId) : TypeStore :=
  ids.foldl (·.modifyClass · Loader.cutHeader) s

/-- The class behind a type is one of some classes. Types are compared by the class that they
are declared as, because a cycle may go through parameterizations. -/
def IsAmong (s : TypeStore) (ids : List TypeId) (t : TypeId) : Prop :=
  ∃ id ∈ ids, (s.classSlot? id).isSome ∧ s.classSlot? t = s.classSlot? id

instance (s : TypeStore) (ids : List TypeId) (t : TypeId) : Decidable (s.IsAmong ids t) :=
  inferInstanceAs (Decidable (∃ id ∈ ids, _))

/-- Cutting classes back leaves all types as they are. -/
theorem shapes_cutAll (s : TypeStore) (ids : List TypeId) : (s.cutAll ids).shapes = s.shapes := by
  induction ids generalizing s with
  | nil => rfl
  | cons id ids ih => exact (ih _).trans (sameNames_cut s id).shapes

theorem shape_cutAll (s : TypeStore) (ids : List TypeId) (t : TypeId) : (s.cutAll ids).shape t = s.shape t := by
  unfold shape
  rw [shapes_cutAll]

/-- What is declared of classes some of which were cut back: cutting one twice does nothing
more. -/
theorem classInfo?_cutAll (s : TypeStore) (ids : List TypeId) (t : TypeId) : (s.cutAll ids).classInfo? t =
    if s.IsAmong ids t then (s.classInfo? t).map Loader.cutHeader else s.classInfo? t := by
  induction ids generalizing s with
  | nil => simp [cutAll, IsAmong]
  | cons id ids ih =>
    have htwice : Loader.cutHeader ∘ Loader.cutHeader = Loader.cutHeader := rfl
    have hrest : (s.modifyClass id Loader.cutHeader).IsAmong ids t ↔ s.IsAmong ids t := by
      simp only [IsAmong, classSlot?_modifyClass]
    have hcons : s.IsAmong (id :: ids) t ↔
        ((s.classSlot? id).isSome ∧ s.classSlot? t = s.classSlot? id) ∨ s.IsAmong ids t := by
      simp [IsAmong]
    show (cutAll (s.modifyClass id Loader.cutHeader) ids).classInfo? t = _
    rw [ih, classInfo?_modifyClass]
    simp only [hrest, hcons]
    by_cases hid : (s.classSlot? id).isSome ∧ s.classSlot? t = s.classSlot? id
    · by_cases hids : s.IsAmong ids t <;> simp [hid, hids, htwice]
    · by_cases hids : s.IsAmong ids t <;> simp [hid, hids]

/-- A class that is not cut keeps its declaration. -/
theorem classInfo?_of_not_among {ids : List TypeId} {t : TypeId} (h : ¬ s.IsAmong ids t) :
    (s.cutAll ids).classInfo? t = s.classInfo? t := by
  rw [classInfo?_cutAll, if_neg h]

/-- A class that is cut has the root class as its only supertype, and none if it is an
interface. -/
theorem directSupertypes_of_among {ids : List TypeId} {t : TypeId} (h : s.IsAmong ids t) {info : ClassInfo}
    (hinfo : s.classInfo? t = some info) :
    (s.cutAll ids).directSupertypes t = if info.flags.isInterface then [] else [.object] := by
  unfold directSupertypes
  rw [classInfo?_cutAll, if_pos h, hinfo]
  cases hkind : info.flags.isInterface <;> simp [Loader.cutHeader, hkind] <;> decide

/-- A class that is not cut keeps its parents. -/
theorem parents_of_not_among {ids : List TypeId} {t : TypeId} (h : ¬ s.IsAmong ids t) :
    (s.cutAll ids).parents t = s.parents t := by
  have hclass : (s.cutAll ids).classOf = s.classOf := by
    funext u
    unfold classOf
    rw [shape_cutAll]
  unfold parents directSupertypes
  rw [classInfo?_of_not_among h, hclass]

/-- When all classes on cycles are cut, and the root class is not, no cycle is left. A class
that is cut has only the root class above it, which has nothing above. -/
theorem WellFormed.cutAll_acyclic (hs : s.WellFormed) {ids : List TypeId} (root : ¬ s.IsAmong ids .object)
    (cycles : ∀ t, s.Inherits t t → s.IsAmong ids t) : (s.cutAll ids).Acyclic := by
  have rooted (y : TypeId) : ¬ (s.cutAll ids).Parent .object y := by
    rw [Parent, parents_of_not_among root, hs.parents_object]
    exact List.not_mem_nil
  refine not_transGen_of_cut cycles rooted fun x y hxy => ?_
  by_cases hx : s.IsAmong ids x
  · refine .inl ⟨hx, ?_⟩
    obtain ⟨hy, -⟩ := List.mem_filter.mp hxy
    obtain ⟨t, ht, rfl⟩ := List.mem_map.mp hy
    cases hinfo : s.classInfo? x with
    | none =>
      unfold directSupertypes at ht
      rw [classInfo?_cutAll, if_pos hx, hinfo] at ht
      cases ht
    | some info =>
      rw [directSupertypes_of_among hx hinfo] at ht
      rw [List.mem_singleton.mp (List.mem_ite_nil_left.mp ht).2, classOf, shape_cutAll, hs.shape_object]
  · refine .inr ⟨?_, hx⟩
    rwa [Parent, parents_of_not_among hx] at hxy

/-- New classes may be cut while headers are set. -/
theorem cutAll_leads (hs : (growth .basic).Sound s) {ids : List TypeId} (hids : ∀ id ∈ ids, IsNewClass .basic s id) :
    (growth (Loader.Stage.guard .headers)).Leads s (s.cutAll ids) := by
  induction ids generalizing s with
  | nil => exact .refl
  | cons id ids ih =>
    have hcut : Works (growth (Loader.Stage.guard .headers)) (modify (·.modifyClass id Loader.cutHeader)) s fun _ _ => True := by
      refine modifyClass_works (hids id (by simp)) (fun info => ⟨_, _, info.typeParams, rfl⟩) (fun info _ h => ?_)
        (fun info _ _ => ⟨by simp [Loader.cutHeader], fun hinterface => if_pos hinterface⟩) fun _ _ _ => rfl
      refine ⟨h.outer, ?_, by simp [Loader.cutHeader], h.typeParams, h.distinct⟩
      unfold Loader.cutHeader
      dsimp only
      split
      · exact hs.1.inheritable_none
      · exact hs.1.inheritable_object
    have hlead := (hcut hs).1
    exact hlead.trans (ih ((growth .basic).sound (growth_widen hlead (Loader.Stage.guard_within _)) hs)
      fun id' hid' => (hids id' (by simp [hid'])).grows (growth_grows hlead))

end TypeStore

namespace Loader

open TypeStore

/-- What is reported of a class on a cycle. It depends on the name of the class, which no cut
changes. -/
def circle (f : Source.File) (s : TypeStore) (c : DeclaredClass) : Diagnostic :=
  .error .cyclicHierarchy (spanAt f c.decl.place c.decl.name) s!"cyclic inheritance involving {s.qualifiedName c.id}"

/-- A class on a cycle is reported and cut back. -/
def cutClass (c : DeclaredClass) : LoadM Unit := do
  fault .cyclicHierarchy c.decl.place c.decl.name s!"cyclic inheritance involving {(← getTypes).qualifiedName c.id}"
  onTypes (modify (·.modifyClass c.id cutHeader))

/-- A loader in which some classes were reported and cut back, all of them at once. That this
is what doing it one after another comes to is `cutEach_eq`. -/
def withCut (l : Loader) (cs : List DeclaredClass) : Loader :=
  { l with world := { l.world with
    types := l.world.types.cutAll (cs.map (·.id))
    reports := l.world.reports ++ (cs.map (circle l.file l.world.types)).toArray } }

/-- Classes are reported and cut back, one after another. -/
theorem cutEach_eq (cs : List DeclaredClass) (l : Loader) : cs.forM cutClass l = ((), l.withCut cs) := by
  induction cs generalizing l with
  | nil =>
    show ((), l) = ((), _)
    simp [withCut, cutAll]
  | cons c cs ih =>
    have hnames : circle l.file (l.world.types.modifyClass c.id cutHeader) = circle l.file l.world.types := by
      funext d
      unfold circle
      rw [(sameNames_cut l.world.types c.id).qualifiedName]
    have hfirst : cutClass c l = ((), l.withCut [c]) := by
      simp [withCut, cutAll]
      rfl
    show (cutClass c >>= fun _ => cs.forM cutClass) l = _
    rw [bind_of_eq hfirst, ih]
    simp [withCut, cutAll, hnames]

/-- Cycles are broken: all classes on a cycle are reported, in the order of their
declarations, and cut back. -/
theorem breakCycles_eq (classes : List DeclaredClass) (l : Loader) :
    let cyclic := classes.filter fun c => l.world.types.Inherits c.id c.id
    breakCycles classes l = ((), l.withCut cyclic) := by
  have hfilter : classes.filter (fun c => isCyclic l.world.types c.id) =
      classes.filter fun c => decide (l.world.types.Inherits c.id c.id) :=
    List.filter_congr fun c _ => by rw [Bool.eq_iff_iff, isCyclic_iff, decide_eq_true_iff]
  show ((classes.filter fun c => isCyclic l.world.types c.id).forM cutClass) l = _
  rw [hfilter, cutEach_eq]

/-- Loaders stay as they have to be when new classes are reported and cut back. -/
theorem Laid.withCut {l : Loader} (hl : Laid l) {cs : List DeclaredClass} (hcs : ∀ c ∈ cs, IsNewClass .basic l.world.types c.id) :
    Laid (l.withCut cs) := by
  have hlead : (growth (Stage.guard .headers)).Leads l.world.types (l.world.types.cutAll (cs.map (·.id))) :=
    cutAll_leads hl.plain.types (by simpa using hcs)
  have hcount := growth_count (fun _ => id) (Stage.not_embodies _) hlead
  have hreports : ∀ d ∈ (cs.map (circle l.file l.world.types)).toArray, d.code ≠ .unresolvedSignature := by
    simp [circle, Diagnostic.error, show Code.cyclicHierarchy ≠ .unresolvedSignature by decide]
  exact (hl.lays hlead hcount).laid hl |>.report hreports

end Loader

end CallResolution
