import CallResolution.Proofs.Resolve.Forwarding

/-!
# Enclosing instances

An inner class is created with an instance of the class around it. When none is given, one has
to be at hand: some class around the call inherits from the class around the created one, and
no code up to it is static and no class further in is without an enclosing instance. The
search ends at the innermost class that inherits, which is the one whose instance is passed
on.

Main statements: `enclosingInstance_iff` and `implicitOuter_of_atHand`.
-/

namespace CallResolution.Session

variable {s s' : TypeStore} {env : Env} {cls : TypeId} {frames crossed rest : List Frame} {f : Frame}

/-- An instance of a class is at hand in a frame, behind those that are crossed to get there.
A frame whose class inherits but whose code is static ends the search without one. -/
structure AtHand (s : TypeStore) (cls : TypeId) (crossed : List Frame) (f : Frame) : Prop where
  /-- The class of the frame inherits from the class. -/
  inherits : s.isSubclass f.type cls = true
  /-- The code of the frame is not static. -/
  dynamic : f.isStatic = false
  /-- The classes that are crossed do not inherit from the class, their code is not static,
  and they have an enclosing instance. -/
  crossed : ∀ g ∈ crossed, s.isSubclass g.type cls = false ∧ g.isStatic = false ∧
    (s.classInfo? g.type).any (·.isInner) = true

/-- The search for an enclosing instance succeeds when one is at hand, and only then. By
induction on the frames. -/
theorem enclosingInstance_iff : enclosingInstance s cls frames = true ↔
    ∃ crossed f rest, frames = crossed ++ f :: rest ∧ AtHand s cls crossed f := by
  constructor
  · intro h
    induction frames with
    | nil => cases h
    | cons g frames ih =>
      unfold enclosingInstance at h
      split at h
      · cases h
      rename_i hdynamic
      split at h
      · rename_i hinherits
        exact ⟨[], g, frames, rfl, hinherits, by simpa using hdynamic, by simp⟩
      · rename_i hnot
        obtain ⟨hinner, hrest⟩ := Bool.and_eq_true_iff.mp h
        obtain ⟨crossed, f, rest, rfl, hat⟩ := ih hrest
        refine ⟨g :: crossed, f, rest, rfl, hat.inherits, hat.dynamic, fun g' hg' => ?_⟩
        rcases List.mem_cons.mp hg' with rfl | hg'
        · exact ⟨by simpa using hnot, by simpa using hdynamic, hinner⟩
        · exact hat.crossed g' hg'
  · rintro ⟨crossed, f, rest, rfl, hat⟩
    induction crossed with
    | nil => simp [enclosingInstance, hat.dynamic, hat.inherits]
    | cons g crossed ih =>
      obtain ⟨hnot, hdynamic, hinner⟩ := hat.crossed g (by simp)
      have hrest := ih ⟨hat.inherits, hat.dynamic, fun g' hg' => hat.crossed g' (by simp [hg'])⟩
      simp [enclosingInstance, hnot, hdynamic, hinner, hrest]

/-- The instance that is at hand is the one that is passed on. It is found by another search,
for the first frame whose class inherits, and this is the same frame. -/
theorem implicitOuter_of_atHand (site : Site) (hframes : env.frames = crossed ++ f :: rest) (hat : AtHand s cls crossed f) :
    implicitOuter s env cls site = { form := .this (env.via crossed.length), type := f.type, span := site.span } := by
  have hfind : (env.frames.findIdx? fun g => s.isSubclass g.type cls) = some crossed.length := by
    rw [List.findIdx?_eq_some_iff_getElem]
    refine ⟨by simp [hframes], by simp [hframes, hat.inherits], fun j hj => ?_⟩
    have hlength : j < env.frames.length := by
      rw [hframes, List.length_append]
      omega
    have hmem : env.frames[j] ∈ crossed := by
      simp only [hframes, List.getElem_append_left hj]
      exact List.getElem_mem hj
    simp [(hat.crossed _ hmem).1]
  have hframe : env.frame crossed.length = f := by
    simp [Env.frame, hframes]
  unfold implicitOuter
  simp only [hfind, hframe]

/-- An instance stays at hand. -/
theorem AtHand.extends (hat : AtHand s cls crossed f) (hs : s.WellFormed) (h : s.Extends s') (hcls : s.Knows cls)
    (hframes : ∀ g ∈ crossed ++ f :: rest, s.Knows g.type) : AtHand s' cls crossed f where
  inherits := by
    rw [h.isSubclass hs (hframes f (by simp)) hcls]
    exact hat.inherits
  dynamic := hat.dynamic
  crossed g hg := by
    have hg' := hframes g (by simp [hg])
    rw [h.isSubclass hs hg' hcls, h.classInfo hs hg']
    exact hat.crossed g hg

/-- A creation, or the call of a superclass constructor, has an enclosing instance for a class
when that is inner: one that is given and not bad, or one that is at hand in some frames. Of
the type of a given one nothing else is asked. -/
structure HasInstance (st : Session) (cls : TypeId) (frames : List Frame) (outer : Option Expr) : Prop where
  /-- An instance that is given. -/
  given : ∀ e ∈ outer, st.world.types.isBad (st.exprType e) = false
  /-- An instance that is not given. -/
  picked : outer = none → ∀ t ∈ outerOfSuper? st.world.types cls,
    ∃ crossed f rest, frames = crossed ++ f :: rest ∧ AtHand st.world.types t crossed f

/-- The enclosing instance depends on types and on the types of expressions. -/
theorem HasInstance.congr {st st' : Session} {outer : Option Expr} (h : HasInstance st cls frames outer)
    (hworld : st'.world = st.world) (htypes : st'.exprType = st.exprType) : HasInstance st' cls frames outer where
  given := hworld ▸ htypes ▸ h.given
  picked := hworld ▸ h.picked

/-- The enclosing instance that a creation passes on: the one that is given, or the one that
is at hand. -/
def PassesInstance (s : TypeStore) (env : Env) (site : Site) (cls : TypeId) (outer : Option Expr) (e : Expr) : Prop :=
  outer = some e ∨ outer = none ∧ ∃ crossed f rest, env.frames = crossed ++ f :: rest ∧ AtHand s cls crossed f ∧
    e = { form := .this (env.via crossed.length), type := f.type, span := site.span }

/-- The class that an enclosing instance of is passed on is the one around the superclass. -/
theorem exists_of_outerOfSuper {s : TypeStore} {super cls : TypeId} (h : outerOfSuper? s super = some cls) :
    ∃ info, s.classInfo? super = some info ∧ info.outer = cls := by
  unfold outerOfSuper? at h
  split at h
  · rename_i info hinfo
    split at h
    · exact ⟨info, hinfo, Option.some.inj h⟩
    · cases h
  · cases h

/-- The creation of an anonymous class with an inner superclass passes an enclosing instance
on. -/
theorem planCtor_creation {super : TypeId} {outer : Option Expr} (hs : s.WellFormed) (h : s.Extends s')
    (henv : Universe.KnowsEnv s env) (hsuper : s.Knows super) (hinner : outerOfSuper? s super = some cls)
    (hpicked : outer = none → enclosingInstance s cls env.frames) (site : Site) (span : Source.Span) (params : List TypeId) :
    ∃ e, PassesInstance s env site cls outer e ∧
      (planCtor s' env site span super outer params).creation = e :: site.args := by
  obtain ⟨info, hinfo, rfl⟩ := exists_of_outerOfSuper hinner
  have hcls : s.Knows info.outer := (hs.knows_classInfo hinfo).outer
  unfold planCtor
  simp only [(outerOfSuper_keeps hs h hsuper).trans hinner]
  cases outer with
  | some e => exact ⟨e, .inl rfl, rfl⟩
  | none =>
    obtain ⟨crossed, f, rest, hframes, hat⟩ := enclosingInstance_iff.mp (hpicked rfl)
    have hknown : ∀ g ∈ crossed ++ f :: rest, s.Knows g.type := fun g hg => henv g (hframes ▸ hg)
    refine ⟨_, .inr ⟨rfl, crossed, f, rest, hframes, hat, rfl⟩, ?_⟩
    rw [← implicitOuter_of_atHand site hframes (hat.extends hs h hcls hknown)]
    rfl

end CallResolution.Session
