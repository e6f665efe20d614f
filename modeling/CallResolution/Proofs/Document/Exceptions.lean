import CallResolution.Proofs.Document.Program
import CallResolution.Proofs.Resolve.Stages
import CallResolution.Resolve.Thrown

/-!
# Exceptions of calls

A call of a method that meets conflicts raises what the method and all its conflicts allow,
and nothing else: what the method declares itself and what a conflict declares more narrowly,
as far as every conflict allows it. Since superclasses form chains, no exception gets lost by
this: one that the method and every conflict allow is allowed by the narrowest class that any
of them declares for it, and that class is never removed.

Main statements: `mem_mergeThrown`, `Kinded.coveredBy_mergeThrown` and `nodup_mergeThrown` for
types, and `conflicts_intersected`.
-/

namespace CallResolution

namespace TypeStore

variable {s : TypeStore} {thrown : List TypeId} {conflicts : List (List TypeId)}

/-- Classes allow an exception that is a subclass of one of them. -/
theorem coveredBy_iff {classes : List TypeId} {ex : TypeId} : s.coveredBy classes ex ↔ ∃ c ∈ classes, s.isSubclass ex c :=
  List.any_eq_true

/-- What allows a class allows its subclasses. -/
theorem WellFormed.coveredBy_trans (hs : s.WellFormed) {classes : List TypeId} {ex above : TypeId} (h : s.isSubclass ex above)
    (habove : s.coveredBy classes above) : s.coveredBy classes ex := by
  obtain ⟨c, hc, hsub⟩ := coveredBy_iff.mp habove
  exact coveredBy_iff.mpr ⟨c, hc, hs.isSubclass_trans h hsub⟩

/-! ## What is met

The exceptions of the method and its conflicts are collected first, and those that some
conflict does not allow are left out.
-/

/-- What is met after one more exception of a conflict. -/
theorem mem_addNarrower {met : List TypeId} {ex t : TypeId} :
    t ∈ s.addNarrower met ex ↔ t ∈ met ∨ t = ex ∧ s.coveredBy met ex := by
  unfold addNarrower
  split
  · rename_i h
    rw [List.mem_append, List.mem_singleton]
    exact or_congr_right (iff_self_and.mpr fun _ => by simp_all)
  · rename_i h
    refine (or_iff_left_of_imp ?_).symm
    rintro ⟨rfl, hcovered⟩
    simpa [hcovered] using h

/-- Nothing is met twice. -/
theorem nodup_addNarrower {met : List TypeId} {ex : TypeId} (h : met.Nodup) : (s.addNarrower met ex).Nodup := by
  unfold addNarrower
  split
  · rename_i hnew
    have hnew : ex ∉ met := by simp_all
    exact List.nodup_append.mpr ⟨h, by simp, fun t ht u hu heq => hnew (by rwa [← List.mem_singleton.mp hu, ← heq])⟩
  · exact h

/-- What is met are the exceptions of the method and those of the conflicts that they allow.
-/
theorem WellFormed.mem_foldl_addNarrower (hs : s.WellFormed) {met : List TypeId} (hsub : ∀ t ∈ thrown, t ∈ met)
    (hcovered : ∀ t ∈ met, t ∈ thrown ∨ s.coveredBy thrown t) (exs : List TypeId) {t : TypeId} :
    t ∈ exs.foldl s.addNarrower met ↔ t ∈ met ∨ t ∈ exs ∧ s.coveredBy thrown t := by
  have hiff {met : List TypeId} (hsub : ∀ t ∈ thrown, t ∈ met) (hcovered : ∀ t ∈ met, t ∈ thrown ∨ s.coveredBy thrown t)
      (ex : TypeId) : s.coveredBy met ex ↔ s.coveredBy thrown ex := by
    refine ⟨fun h => ?_, fun h => ?_⟩
    · obtain ⟨c, hc, hex⟩ := coveredBy_iff.mp h
      rcases hcovered c hc with hc | hc
      · exact coveredBy_iff.mpr ⟨c, hc, hex⟩
      · exact hs.coveredBy_trans hex hc
    · obtain ⟨c, hc, hex⟩ := coveredBy_iff.mp h
      exact coveredBy_iff.mpr ⟨c, hsub c hc, hex⟩
  induction exs generalizing met with
  | nil => simp
  | cons ex exs ih =>
    have hsub' : ∀ t ∈ thrown, t ∈ s.addNarrower met ex := fun t ht => mem_addNarrower.mpr (.inl (hsub t ht))
    have hcovered' : ∀ t ∈ s.addNarrower met ex, t ∈ thrown ∨ s.coveredBy thrown t := by
      intro t ht
      rcases mem_addNarrower.mp ht with ht | ⟨rfl, ht⟩
      · exact hcovered t ht
      · exact .inr ((hiff hsub hcovered t).mp ht)
    refine (ih hsub' hcovered').trans ?_
    rw [mem_addNarrower, hiff hsub hcovered, or_assoc, List.mem_cons, or_and_right]
    exact or_congr_right (or_congr_left (and_congr_right fun h => by rw [h]))

/-- What a method with conflicts raises: what it declares, and what a conflict declares more
narrowly, as far as every conflict allows it. The order of the conflicts plays no part in it.
-/
theorem WellFormed.mem_mergeThrown (hs : s.WellFormed) {t : TypeId} : t ∈ s.mergeThrown thrown conflicts ↔
    (t ∈ thrown ∨ (∃ c ∈ conflicts, t ∈ c) ∧ s.coveredBy thrown t) ∧ ∀ c ∈ conflicts, s.coveredBy c t := by
  unfold mergeThrown
  dsimp only
  rw [← List.foldl_flatten, List.mem_filter, hs.mem_foldl_addNarrower (fun _ h => h) (fun _ h => .inl h), List.mem_flatten,
    List.all_eq_true]

/-- No exception is listed twice when the method declares none twice. -/
theorem nodup_mergeThrown (h : thrown.Nodup) : (s.mergeThrown thrown conflicts).Nodup := by
  unfold mergeThrown
  dsimp only
  rw [← List.foldl_flatten]
  refine List.Nodup.filter _ ?_
  exact List.foldlRecOn _ _ h fun met hmet ex _ => nodup_addNarrower hmet

/-! ## What is allowed

That nothing is lost needs the narrowest class among those that allow an exception, which
exists because the superclasses of the exception are a chain.
-/

/-- For an exception that a method and all its conflicts allow, one of them declares a class
that is as narrow as all of those classes above it. -/
theorem Kinded.exists_narrowest (hk : s.Kinded) (hs : s.WellFormed) (hthrown : ∀ t ∈ thrown, s.isSubclass t .throwable)
    (hconflicts : ∀ c ∈ conflicts, ∀ t ∈ c, s.isSubclass t .throwable) {ex : TypeId} (hex : s.coveredBy thrown ex)
    (hall : ∀ c ∈ conflicts, s.coveredBy c ex) : ∃ t, (t ∈ thrown ∨ ∃ c ∈ conflicts, t ∈ c) ∧ s.isSubclass ex t ∧
      s.coveredBy thrown t ∧ ∀ c ∈ conflicts, s.coveredBy c t := by
  have hself {ex t : TypeId} (h : s.isSubclass ex t) : s.isSubclass t t := isSubclass_refl (isSubclass_iff.mp h).2.1
  induction conflicts with
  | nil =>
    obtain ⟨t, ht, hsub⟩ := coveredBy_iff.mp hex
    exact ⟨t, .inl ht, hsub, coveredBy_iff.mpr ⟨t, ht, hself hsub⟩, by simp⟩
  | cons c conflicts ih =>
    obtain ⟨t, ht, hsub, hcovered, hrest⟩ := ih (fun c hc => hconflicts c (by simp [hc])) fun c hc => hall c (by simp [hc])
    have hbelow : s.isSubclass t .throwable := by
      rcases ht with ht | ⟨c', hc', ht⟩
      · exact hthrown t ht
      · exact hconflicts c' (by simp [hc']) t ht
    obtain ⟨y, hy, hexy⟩ := coveredBy_iff.mp (hall c (by simp))
    rcases hk.isSubclass_total hs hbelow (hconflicts c (by simp) y hy) hsub hexy with hty | hyt
    · refine ⟨t, ht.imp_right fun ⟨c', hc', ht⟩ => ⟨c', by simp [hc'], ht⟩, hsub, hcovered, fun c' hc' => ?_⟩
      rcases List.mem_cons.mp hc' with rfl | hc'
      · exact coveredBy_iff.mpr ⟨y, hy, hty⟩
      · exact hrest c' hc'
    · refine ⟨y, .inr ⟨c, by simp, hy⟩, hexy, hs.coveredBy_trans hyt hcovered, fun c' hc' => ?_⟩
      rcases List.mem_cons.mp hc' with rfl | hc'
      · exact coveredBy_iff.mpr ⟨y, hy, hself hexy⟩
      · exact hs.coveredBy_trans hyt (hrest c' hc')

/-- A method with conflicts raises exactly the exceptions that it and all its conflicts allow.
This is about classes of exceptions: for type variables being allowed is not a matter of
superclasses. -/
theorem Kinded.coveredBy_mergeThrown (hk : s.Kinded) (hs : s.WellFormed) (hthrown : ∀ t ∈ thrown, s.isSubclass t .throwable)
    (hconflicts : ∀ c ∈ conflicts, ∀ t ∈ c, s.isSubclass t .throwable) {ex : TypeId} :
    s.coveredBy (s.mergeThrown thrown conflicts) ex ↔ s.coveredBy thrown ex ∧ ∀ c ∈ conflicts, s.coveredBy c ex := by
  refine ⟨fun h => ?_, fun ⟨hex, hall⟩ => ?_⟩
  · obtain ⟨t, ht, hsub⟩ := coveredBy_iff.mp h
    obtain ⟨hmet, hall⟩ := hs.mem_mergeThrown.mp ht
    refine ⟨?_, fun c hc => hs.coveredBy_trans hsub (hall c hc)⟩
    rcases hmet with hmet | ⟨-, hcovered⟩
    · exact coveredBy_iff.mpr ⟨t, hmet, hsub⟩
    · exact hs.coveredBy_trans hsub hcovered
  · obtain ⟨t, ht, hsub, hcovered, hrest⟩ := hk.exists_narrowest hs hthrown hconflicts hex hall
    exact coveredBy_iff.mpr ⟨t, hs.mem_mergeThrown.mpr ⟨ht.imp_right fun h => ⟨h, hcovered⟩, hrest⟩, hsub⟩

end TypeStore

open Session Universe

/-! ## Conflicts

The two together, for the conflicts that a call of a document meets.
-/

/-- In every session that the run of a loaded document leads to, and for exceptions that are
classes below the root class of exceptions, a class is a subclass of one that a method with
conflicts raises when and only when it is one of a class that the method declares and, for
every conflict, of one that the conflict declares. None is raised twice when the method
declares none twice. -/
theorem conflicts_intersected (d : Document) (f : Source.File) (base : Options) {st : Session}
    (h : running.Leads ((d.load f).session base).begun st) (thrown : List TypeId) (conflicts : List MethodId)
    (hthrown : ∀ t ∈ thrown, st.world.types.isSubclass t .throwable)
    (hconflicts : ∀ c ∈ conflicts, ∀ t ∈ (st.world.method c).throws, st.world.types.isSubclass t .throwable) :
    let s := st.world.types
    let raised := s.mergeThrown thrown (conflicts.map fun c => (st.world.method c).throws)
    (∀ ex, s.coveredBy raised ex ↔ s.coveredBy thrown ex ∧ ∀ c ∈ conflicts, s.coveredBy (st.world.method c).throws ex) ∧
      (thrown.Nodup → raised.Nodup) := by
  intro s raised
  have hfresh : ((d.load f).session base).begun.Fresh := (Loaded.fresh d f base).begun
  have hs : s.WellFormed := (running.sound h ⟨hfresh.wellFormed, hfresh.numbered⟩).1.world.types
  have hkinded : s.Kinded := h.2.world.types.kinded (d.load_kinded f)
  refine ⟨fun ex => ?_, TypeStore.nodup_mergeThrown⟩
  rw [hkinded.coveredBy_mergeThrown hs hthrown (List.forall_mem_map.mpr hconflicts), List.forall_mem_map]

/-- Two interfaces with one method, of which the second one declares a narrower exception than
the first one and another one, and a call in a class that inherits both. The call raises the
narrower one alone. -/
def conflictsDocument : Document where
  classes := [
    .mk { name := "p.E", super := "Exception" } [],
    .mk { name := "p.F", super := "p.E" } [],
    .mk { name := "p.I", kind := "interface", methods := [{ name := "m", returns := "void", throws := ["p.E", "Error"] }] } [],
    .mk { name := "p.J", kind := "interface", methods := [{ name := "m", returns := "void", throws := ["p.F"] }] } [],
    .mk { name := "p.C", flags := ["abstract"], interfaces := ["p.I", "p.J"] } []]
  program := [{ id := "a", cls := "p.C", call := "m", handled := ["Throwable"] }]

/-- What a method with conflicts raises in a session, as far as it declares exceptions of its
own. Type variables are replaced before this in a call. -/
def Session.shared (st : Session) (s : Shadow) : List TypeId :=
  st.world.types.mergeThrown (st.world.method s.method).throws (s.conflicts.map fun c => (st.world.method c).throws)

/-- Whether a method and its conflicts declare classes of exceptions only, and some conflict
declares nothing for one of them. -/
def Session.Narrows (st : Session) (s : Shadow) (ex : TypeId) : Prop :=
  (∀ t ∈ (st.world.method s.method).throws, st.world.types.isSubclass t .throwable) ∧
    (∀ c ∈ s.conflicts, ∀ t ∈ (st.world.method c).throws, st.world.types.isSubclass t .throwable) ∧
      ex ∈ (st.world.method s.method).throws ∧ ∃ c ∈ s.conflicts, ¬ st.world.types.coveredBy (st.world.method c).throws ex

instance (st : Session) (s : Shadow) (ex : TypeId) : Decidable (st.Narrows s ex) :=
  inferInstanceAs (Decidable (_ ∧ _ ∧ _ ∧ _))

theorem conflictsDocument_narrows :
    let st := ((conflictsDocument.load blankFile).session {}).begun.before 1
    (st.world.types.classNamed? "p.C").any fun cls => (st.world.listed cls "m").any fun shadows => shadows.any fun s =>
      (st.world.method s.method).throws.any fun ex => st.Narrows s ex ∧
        (st.program.site? 1).map (·.result.throws) = some (st.shared s) := by
  decide +kernel

/-- What no conflict allows is not raised by the call. -/
theorem conflict_narrows :
    let st := ((conflictsDocument.load blankFile).session {}).begun.before 1
    ∃ cls shadows s ex, st.world.listed cls "m" = some shadows ∧ s ∈ shadows ∧ ex ∈ (st.world.method s.method).throws ∧
      (∀ t ∈ (st.world.method s.method).throws, st.world.types.isSubclass t .throwable) ∧
      (∀ c ∈ s.conflicts, ∀ t ∈ (st.world.method c).throws, st.world.types.isSubclass t .throwable) ∧
      ∃ site, st.program.site? 1 = some site ∧ ¬ st.world.types.coveredBy site.result.throws ex := by
  have hnarrows := conflictsDocument_narrows
  have hleads := ((Loaded.fresh conflictsDocument blankFile {}).begun.reached 1).leads
  have hintersected := conflicts_intersected conflictsDocument blankFile {} hleads
  generalize ((conflictsDocument.load blankFile).session {}).begun.before 1 = st at hnarrows hintersected ⊢
  obtain ⟨cls, -, h⟩ := (Option.any_eq_true _ _).mp hnarrows
  obtain ⟨shadows, hlisted, h⟩ := (Option.any_eq_true _ _).mp h
  obtain ⟨s, hs, h⟩ := List.any_eq_true.mp h
  obtain ⟨ex, hex, h⟩ := List.any_eq_true.mp h
  obtain ⟨⟨hthrown, hconflicts, -, c, hc, hfree⟩, hsite⟩ := of_decide_eq_true h
  obtain ⟨site, hsite, hraised⟩ := Option.map_eq_some_iff.mp hsite
  refine ⟨cls, shadows, s, ex, hlisted, hs, hex, hthrown, hconflicts, site, hsite, fun hcovered => hfree ?_⟩
  rw [hraised] at hcovered
  exact (((hintersected _ s.conflicts hthrown hconflicts).1 ex).mp hcovered).2 c hc

end CallResolution
