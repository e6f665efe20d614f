import CallResolution.Proofs.Document.Program
import CallResolution.Proofs.Resolve.Views

/-!
# Views of instances

A class that inherits from a generic class has a view of it, the parameterization that is
found among its supertypes. For a generic class, the view is found once with its own type
variables as arguments and once with others, and the one is instantiated to the other. This
needs that type variables occur in headers of their own class only: a class in its scope may
mention them in its header, too, and when the generic class inherits from such a class, the
arguments that belong to the variables there are not carried along.

Main statements: `view_commutes_with_instantiation` and `view_of_member_lost`.
-/

namespace CallResolution

namespace TypeStore

variable {s : TypeStore}

/-! ## Checks

The conditions of `view_commutes_with_instantiation` can be checked on a given store, which
the statements about documents below need.
-/

/-- Whether no chain of classes upwards from a class has more than a number of classes. With
it a store can be checked for cycles. -/
def heightWithin (s : TypeStore) : Nat → TypeId → Bool
  | 0, _ => false
  | height + 1, c => (s.parents c).all (s.heightWithin height)

/-- A class with finite chains upwards does not inherit from itself. -/
theorem not_inherits_self {n : Nat} {c : TypeId} (h : s.heightWithin n c) : ¬ s.Inherits c c := by
  induction n generalizing c with
  | zero => simp [heightWithin] at h
  | succ n ih =>
    intro hself
    obtain ⟨p, hp, hback⟩ := Relation.TransGen.head'_iff.mp hself
    have hheight : s.heightWithin n p := List.all_eq_true.mp h p hp
    exact ih hheight (.tail' hback hp)

/-- Whether all headers of a store pass a check that is given the class. A store is a table of
finitely many shapes, so this can be computed. -/
def headersPass (s : TypeStore) (check : TypeId → TypeId → Bool) : Bool :=
  (List.range s.shapes.size).all fun i => (s.directSupertypes ⟨i⟩).all (check ⟨i⟩)

/-- What has a direct supertype is known. -/
theorem knows_of_directSupertype {d up : TypeId} (hup : up ∈ s.directSupertypes d) : s.Knows d := by
  refine knows_of_classInfo ?_
  unfold directSupertypes at hup
  cases hinfo : s.classInfo? d with
  | none => simp [hinfo] at hup
  | some info => rfl

/-- Every header passes. -/
theorem of_headersPass {check : TypeId → TypeId → Bool} (h : s.headersPass check) {d up : TypeId} (hup : up ∈ s.directSupertypes d) :
    check d up :=
  List.all_eq_true.mp (List.all_eq_true.mp h d.index (List.mem_range.mpr (knows_of_directSupertype hup))) up hup

/-- Whether all arrays of a store have dimensions. -/
def allDimensioned (s : TypeStore) : Bool :=
  s.shapes.all fun
    | .array _ d => d ≠ 0
    | _ => true

/-- No array has no dimensions. -/
theorem of_allDimensioned (h : s.allDimensioned) (e : TypeId) : TypeShape.array e 0 ∉ s.shapes := by
  intro hmem
  have := Array.all_eq_true_iff_forall_mem.mp h _ hmem
  simp at this

/-! ## Views

The view of a generic class and that of its instance.
-/

/-- Whenever a generic class with its own type variables as arguments has a view of a class,
it has one with reference types as arguments and the other way around, and then the latter is
the instance of the former, as long as no class that the generic class inherits from mentions
the variables in its header, headers and the view are nested no deeper than types are
followed, and dimensions of arrays have not wrapped around to none. -/
theorem view_commutes_with_instantiation (s : TypeStore) (hs : s.WellFormed) {cls owner : TypeId} {info : ClassInfo}
    {args : List TypeId} (hdeclared : (s.shape cls).isDeclared) (hinfo : s.classInfo? cls = some info)
    (hgeneric : info.typeParams ≠ []) (hlength : args.length = info.typeParams.length) (hargs : ∀ a ∈ args, s.isReference a)
    (hown : ∀ d, s.Inherits cls d → ∀ up ∈ s.directSupertypes d, ∀ x ∈ info.typeParams, s.mentions up x = false)
    (hshallow : ∀ d, Relation.ReflTransGen s.Parent cls d → ∀ up ∈ s.directSupertypes d, s.nestsWithin termDepth up)
    {view expected found : Option TypeId} {s' : TypeStore}
    (hrun : viewsOf cls owner info.typeParams args s = ((view, expected, found), s')) (hview : ∀ v ∈ view, s'.nestsWithin termDepth v)
    (hdims : ∀ e, TypeShape.array e 0 ∉ s'.shapes) : found.isSome = view.isSome ∧ found = expected := by
  have hclear : ∀ up ∈ s.directSupertypes cls, s.ClearAbove (info.typeParams.zip (args.map .exact)) (s.classOf up) := by
    intro up hup
    rcases parent_of_directSupertype hup with hnone | hparent
    · exact hnone ▸ clearAbove_none
    · intro d hd u hu
      refine ⟨hshallow d (.head hparent hd) u hu, fun x a hx => hown d (.head' hparent hd) u hu x ?_⟩
      exact (List.of_mem_zip (mem_of_lookup hx)).1
  have hviews := (viewsOf_works owner hdeclared hgeneric ⟨hinfo, hlength, hargs, hshallow cls .refl, hclear⟩ hs).2
  rw [hrun] at hviews
  exact hviews hview hdims

end TypeStore

open TypeStore

/-- A generic class that inherits from another one, which has a view with an array and a
wildcard. -/
def viewDocument : Document where
  classes := [
    .mk { name := "p.Base", typeParams := ["Y", "Z"] } [],
    .mk { name := "p.Mid", typeParams := ["U"], super := "p.Base<U[], Comparable<? extends U>>" } [],
    .mk { name := "p.A", typeParams := ["X"], super := "p.Mid<X>" } []]

theorem viewDocument_checks :
    let s := (viewDocument.load blankFile).world.types
    let r := viewsOf ⟨59⟩ ⟨57⟩ [⟨63⟩] [⟨50⟩] s
    [⟨59⟩, ⟨57⟩, ⟨63⟩, ⟨50⟩].map s.name = ["p.A", "p.Base", "X", "java.lang.String[]"] ∧
      ((s.shape ⟨59⟩).isDeclared ∧ (s.classInfo? ⟨59⟩).map (·.typeParams) = some [⟨63⟩] ∧ s.isReference ⟨50⟩ ∧
        s.heightWithin supertypeDepth ⟨59⟩ ∧
          s.headersPass (fun d up => d = ⟨59⟩ || !s.mentions up ⟨63⟩) ∧ s.headersPass fun _ up => s.nestsWithin termDepth up) ∧
      (r.1.1.all (r.2.nestsWithin termDepth) ∧ r.2.allDimensioned) ∧
        r.1.1.map r.2.name = some "p.Base<X[],java.lang.Comparable<? extends X>>" ∧
          r.1.2.1.map r.2.name = some "p.Base<java.lang.String[][],java.lang.Comparable<? extends java.lang.String[]>>" := by
  decide +kernel

/-- With an array of texts as its argument, the class has a view with a two-dimensional array.
-/
theorem arrayView_instantiated :
    let s := (viewDocument.load blankFile).world.types
    let r := viewsOf ⟨59⟩ ⟨57⟩ [⟨63⟩] [⟨50⟩] s
    [⟨59⟩, ⟨57⟩, ⟨63⟩, ⟨50⟩].map s.name = ["p.A", "p.Base", "X", "java.lang.String[]"] ∧
      r.1.1.map r.2.name = some "p.Base<X[],java.lang.Comparable<? extends X>>" ∧
        r.1.2.2.map r.2.name = some "p.Base<java.lang.String[][],java.lang.Comparable<? extends java.lang.String[]>>" := by
  have hs := (viewDocument.load_drafted blankFile).1.types
  have hchecks := viewDocument_checks
  generalize (viewDocument.load blankFile).world.types = s at hs hchecks ⊢
  obtain ⟨hnames, ⟨hdeclared, hinfo, hreference, hheight, hown, hshallow⟩, ⟨hview, hdims⟩, hgeneric, hexpected⟩ := hchecks
  obtain ⟨info, hinfo, hparams⟩ := Option.map_eq_some_iff.mp hinfo
  refine ⟨hnames, hgeneric, ?_⟩
  generalize hrun : viewsOf ⟨59⟩ ⟨57⟩ [⟨63⟩] [⟨50⟩] s = r at hview hdims hexpected ⊢
  obtain ⟨⟨view, expected, found⟩, s'⟩ := r
  rw [← hparams] at hrun
  have hlength : [(⟨50⟩ : TypeId)].length = info.typeParams.length := by simp [hparams]
  have hcommutes := view_commutes_with_instantiation s hs hdeclared hinfo (by simp [hparams]) hlength
    (by simpa using hreference) (fun d hd up hup x hx => ?_) (fun d _ up hup => of_headersPass hshallow hup) hrun
    (fun v hv => ?_) (of_allDimensioned hdims)
  · rw [hcommutes.2]
    exact hexpected
  · -- the class does not inherit from itself, and no other header mentions its type variable
    have hne : d ≠ ⟨59⟩ := by
      rintro rfl
      exact not_inherits_self hheight hd
    have hpass := of_headersPass hown hup
    simp only [hparams, List.mem_singleton] at hx
    simpa [hne, hx] using hpass
  · rw [hv] at hview
    exact hview

/-- A generic class that inherits from a member class of its own, in whose header its type
variable occurs. No class inherits from itself in it. -/
def memberViewDocument : Document where
  classes := [
    .mk { name := "p.Base", typeParams := ["Y"] } [],
    .mk { name := "p.A", typeParams := ["X"], super := "p.A.In" } [.mk { name := "In", super := "p.Base<X>" } []]]

theorem memberViewDocument_checks :
    let s := (memberViewDocument.load blankFile).world.types
    let r := viewsOf ⟨58⟩ ⟨57⟩ [⟨61⟩] [.string] s
    (((s.shape ⟨58⟩).isDeclared ∧ (s.classInfo? ⟨58⟩).map (·.typeParams) = some [⟨61⟩] ∧ s.isReference .string) ∧
      (List.range s.shapes.size).all (fun i => s.heightWithin supertypeDepth ⟨i⟩) ∧
        s.headersPass fun _ up => s.nestsWithin termDepth up) ∧
      (r.1.1.all (r.2.nestsWithin termDepth) ∧ r.2.allDimensioned) ∧ r.1.2.2 ≠ r.1.2.1 := by
  decide +kernel

/-- When a generic class inherits from a class in whose header its type variable occurs, the
view is not instantiated, although no class inherits from itself and no limit is reached. -/
theorem view_of_member_lost : ¬ ∀ (s : TypeStore) (cls owner : TypeId) (info : ClassInfo) (args : List TypeId)
    (view expected found : Option TypeId) (s' : TypeStore), s.WellFormed → (∀ d, ¬ s.Inherits d d) →
      (∀ d, s.heightWithin supertypeDepth d) → (s.shape cls).isDeclared → s.classInfo? cls = some info → info.typeParams ≠ [] →
        args.length = info.typeParams.length → (∀ a ∈ args, s.isReference a) →
          (∀ d, ∀ up ∈ s.directSupertypes d, s.nestsWithin termDepth up) →
            viewsOf cls owner info.typeParams args s = ((view, expected, found), s') → (∀ v ∈ view, s'.nestsWithin termDepth v) →
              (∀ e, TypeShape.array e 0 ∉ s'.shapes) → found.isSome = view.isSome ∧ found = expected := by
  intro h
  have hs := (memberViewDocument.load_drafted blankFile).1.types
  have hchecks := memberViewDocument_checks
  generalize (memberViewDocument.load blankFile).world.types = s at hs hchecks
  obtain ⟨⟨⟨hdeclared, hinfo, hreference⟩, hheights, hshallow⟩, ⟨hview, hdims⟩, hlost⟩ := hchecks
  obtain ⟨info, hinfo, hparams⟩ := Option.map_eq_some_iff.mp hinfo
  have hheight (d : TypeId) : s.heightWithin supertypeDepth d := by
    by_cases hknown : s.Knows d
    · exact List.all_eq_true.mp hheights d.index (List.mem_range.mpr hknown)
    · have hnone : s.parents d = [] := by
        refine List.eq_nil_iff_forall_not_mem.mpr fun p hp => hknown ?_
        obtain ⟨up, hup, -⟩ := List.mem_map.mp (List.mem_filter.mp hp).1
        exact knows_of_directSupertype hup
      simp [heightWithin, supertypeDepth, hnone]
  generalize hrun : viewsOf ⟨58⟩ ⟨57⟩ [⟨61⟩] [.string] s = r at hview hdims hlost
  obtain ⟨⟨view, expected, found⟩, s'⟩ := r
  rw [← hparams] at hrun
  refine hlost (h s ⟨58⟩ ⟨57⟩ info [.string] view expected found s' hs (fun d => not_inherits_self (hheight d)) hheight hdeclared hinfo
    (by simp [hparams]) (by simp [hparams]) (by simpa using hreference) (fun d up hup => of_headersPass hshallow hup) hrun
    (fun v hv => ?_) (of_allDimensioned hdims)).2
  rw [hv] at hview
  exact hview

end CallResolution
