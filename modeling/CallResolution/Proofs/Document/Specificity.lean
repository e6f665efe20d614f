import CallResolution.Proofs.Document.Selections
import CallResolution.Proofs.Resolve.Specificity
import CallResolution.Proofs.Resolve.Stages

/-!
# Subtyping and the most specific callables

Away from the bad type subtyping is a preorder in every universe that a run of a document
reaches, whatever its classes inherit from and its type variables are bounded by, and
conversion by subtyping is transitive without exception. So it is sound to prefer a more
specific callable: whatever it accepts, a less specific one accepts.

What is kept of some callables is a single one when and only when one of them is more specific
than all others, so the order in which callables are listed does not decide whether a call is
ambiguous. Which of several are kept does depend on the order.

Main statements: `subtyping_preorder`, `unique_most_specific`, `kept_callables` and
`less_specific_accepts`.
-/

namespace CallResolution

open Universe Session

/-! ## Subtyping

A comparison with the bad type always succeeds, so the bad type has to be left out of the
middle for transitivity. It converts to every other type and nothing converts to it, so
conversion needs no such condition.
-/

/-- Whenever a step of a document's program is taken, subtyping is reflexive, and transitive
unless the type between the others is bad. Conversion by subtyping is transitive in any case.
-/
theorem subtyping_preorder (d : Document) (f : Source.File) (base : Options) (k : Nat) :
    let s := (((d.load f).session base).stage k).world.types
    (∀ t, s.isSubtype t t) ∧
      (∀ t u v, ¬ s.isBad u → s.isSubtype t u → s.isSubtype u v → s.isSubtype t v) ∧
      ∀ t u v, s.subtypeConverts t u → s.subtypeConverts u v → s.subtypeConverts t v := by
  have hs := ((Loaded.fresh d f base).stage_sound k).1.world.types
  exact ⟨fun t => TypeStore.isSubtype_refl _ t, fun _ _ _ hu htu huv => hs.isSubtype_trans_of_not_isBad hu htu huv,
    fun _ _ _ htu huv => hs.subtypeConverts_trans htu huv⟩

/-- The run of a document without classes and steps starts with the predefined classes alone.
-/
theorem predefinedSession_stage :
    (((({} : Document).load blankFile).session {}).stage 0).world = predefinedSession.world := by
  rw [stage_zero, begun_world]
  rfl

/-- The type variable of the class of enumerations, which is bounded by a type that mentions
it, is below that type, and so below what that type inherits from. -/
theorem enumVariable_ordered :
    let s := predefinedSession.world.types
    [⟨41⟩, ⟨42⟩, ⟨43⟩].map s.name = ["E", "java.lang.Enum<E>", "java.lang.Comparable<E>"] ∧
      ¬ s.isBad ⟨42⟩ ∧ s.isSubtype ⟨41⟩ ⟨41⟩ ∧ s.isSubtype ⟨41⟩ ⟨43⟩ ∧ s.subtypeConverts ⟨41⟩ ⟨43⟩ := by
  have hsteps : ([⟨41⟩, ⟨42⟩, ⟨43⟩].map predefinedSession.world.types.name =
        ["E", "java.lang.Enum<E>", "java.lang.Comparable<E>"]) ∧
      (¬ predefinedSession.world.types.isBad ⟨42⟩ ∧ predefinedSession.world.types.isSubtype ⟨41⟩ ⟨42⟩ ∧
        predefinedSession.world.types.isSubtype ⟨42⟩ ⟨43⟩) ∧
      predefinedSession.world.types.subtypeConverts ⟨41⟩ ⟨42⟩ ∧ predefinedSession.world.types.subtypeConverts ⟨42⟩ ⟨43⟩ := by
    decide +kernel
  obtain ⟨hnames, ⟨hbad, hab, hbc⟩, hconverts, hconverts'⟩ := hsteps
  have hpreorder := subtyping_preorder {} blankFile {} 0
  rw [predefinedSession_stage] at hpreorder
  obtain ⟨hrefl, htrans, hconv⟩ := hpreorder
  exact ⟨hnames, hbad, hrefl ⟨41⟩, htrans _ _ _ hbad hab hbc, hconv _ _ _ hconverts hconverts'⟩

/-! ## A single most specific callable

That one is kept alone depends on the callables, and not on their order.
-/

/-- Of callables with processed signatures a single one is kept when and only when one of them
is more specific than every other one, and then it is such a one; so this does not depend on
their order. Neither does it, when overloads or other callables compete for a call, whether
something is selected, in which phase, and whether it is selected alone. When it is not, the
call is reported as ambiguous. -/
theorem unique_most_specific (st : Session) (hst : st.WellFormed) :
    (∀ (ids : List MethodId) (argc : Nat), (∀ id ∈ ids, st.world.Processed id) →
      ((∃ x, (mostSpecificOf ids argc st.world).1 = [x]) ↔
        ∃ x, BeatsOthers (fun a b => (isMoreSpecific a b argc st.world).1) ids x) ∧
      (∀ x, (mostSpecificOf ids argc st.world).1 = [x] → BeatsOthers (fun a b => (isMoreSpecific a b argc st.world).1) ids x) ∧
      ∀ ids', ids.Perm ids' →
        ((∃ x, (mostSpecificOf ids argc st.world).1 = [x]) ↔ ∃ x, (mostSpecificOf ids' argc st.world).1 = [x])) ∧
    (∀ (env : Env) (site : Site) (search : TypeId) (q : Option Qualifier) (args : List TypeId) (shadows shadows' : List Shadow),
      (∀ t ∈ site.typeArgs, st.world.types.Knows t) → (∀ t ∈ args, st.world.types.Knows t) →
      (∀ s ∈ shadows, st.world.Processed s.method) → shadows.Perm shadows' →
      (selectMethod env site search q shadows args st).1.map (·.verdict) =
        (selectMethod env site search q shadows' args st).1.map (·.verdict)) ∧
    ∀ (typeArgs args : List TypeId) (ids ids' : List MethodId), (∀ t ∈ typeArgs, st.world.types.Knows t) →
      (∀ t ∈ args, st.world.types.Knows t) → ids.Perm ids' →
      ((do
        let cands ← onUniverse (candidates typeArgs ids)
        selectAmong cands args : SessionM (Option Selection)) st).1.map (·.verdict) =
      ((do
        let cands ← onUniverse (candidates typeArgs ids')
        selectAmong cands args : SessionM (Option Selection)) st).1.map (·.verdict) := by
  refine ⟨fun ids argc hids => ?_, fun env site search q args shadows shadows' ht hargs hprocessed hperm => ?_,
    fun typeArgs args ids ids' ht hargs hperm => verdict_perm hst ht hargs hperm⟩
  · have trans := transOn_isMoreSpecific hst.world hids argc
    rw [mostSpecificOf_eq hst.world hids]
    refine ⟨mostSpecific_eq_singleton_iff trans, fun x hx => beatsOthers_of_mostSpecific trans hx, fun ids' hperm => ?_⟩
    rw [mostSpecificOf_eq hst.world fun id hid => hids id (hperm.mem_iff.mpr hid)]
    exact mostSpecific_single_perm trans hperm
  · exact selectMethod_perm hst env ht hargs search q hprocessed hperm

/-- The overloads of `valueOf` for a `double`, an `int` and a `long`. The second is more
specific than both others, and the third more than the first. -/
def valueOfNumbers : List MethodId :=
  [⟨33⟩, ⟨30⟩, ⟨31⟩]

theorem valueOfNumbers_kept : (mostSpecificOf valueOfNumbers 1 predefinedSession.world).1 = [⟨30⟩] ∧
    (∀ id ∈ valueOfNumbers, (predefinedSession.world.method id).isResolved) ∧
    (selectMethod ⟨[{ type := .object }]⟩ { id := 1, label := "", call := .method "valueOf" none } .string none
      (valueOfNumbers.map fun id => ⟨id, []⟩) [.ofPrimitive .byte] predefinedSession).1.map (·.verdict) = some (.strict, true) := by
  decide +kernel

/-- The one for an `int` is more specific than the others, and selected for a `byte` whatever
the order. -/
theorem valueOfNumbers_unique :
    BeatsOthers (fun a b => (isMoreSpecific a b 1 predefinedSession.world).1) valueOfNumbers ⟨30⟩ ∧
      (selectMethod ⟨[{ type := .object }]⟩ { id := 1, label := "", call := .method "valueOf" none } .string none
        (valueOfNumbers.reverse.map fun id => ⟨id, []⟩) [.ofPrimitive .byte] predefinedSession).1.map (·.verdict) =
          some (.strict, true) := by
  obtain ⟨hkept, hresolved, hselected⟩ := valueOfNumbers_kept
  have hst : predefinedSession.WellFormed := (Loaded.fresh _ _ _).wellFormed
  have hprocessed : ∀ id ∈ valueOfNumbers, predefinedSession.world.Processed id :=
    fun id hid => processed_of_isResolved (hresolved id hid)
  obtain ⟨hsingle, hselect, -⟩ := unique_most_specific predefinedSession hst
  refine ⟨(hsingle valueOfNumbers 1 hprocessed).2.1 _ hkept, ?_⟩
  rw [← hselected]
  refine (hselect _ _ _ _ _ _ _ (by simp) (fun t ht => ?_) (fun s hs => ?_) ?_).symm
  · rw [List.mem_singleton.mp ht]
    exact hst.world.types.knows_predefined (by decide)
  · obtain ⟨id, hid, rfl⟩ := List.mem_map.mp hs
    exact hprocessed id hid
  · exact (List.reverse_perm _).symm.map _

/-! ## What is kept of several

What is kept when none beats all others does depend on the order.
-/

/-- What is kept of callables with processed signatures stands in their order, none that is
kept is more specific than one that is kept behind it, and each callable is kept or has a kept
one that is more specific. -/
theorem kept_callables (u : Universe) (hu : u.WellFormed) (ids : List MethodId) (argc : Nat) (hids : ∀ id ∈ ids, u.Processed id) :
    let kept := (mostSpecificOf ids argc u).1
    kept.Sublist ids ∧ kept.Pairwise (fun a b => ¬ (isMoreSpecific a b argc u).1) ∧
      ∀ id ∈ ids, ∃ x ∈ kept, x = id ∨ (isMoreSpecific x id argc u).1 := by
  dsimp only
  rw [mostSpecificOf_eq hu hids]
  exact ⟨mostSpecific_sublist _ ids, mostSpecific_pairwise _ ids,
    fun id hid => mostSpecific_covers (transOn_isMoreSpecific hu hids argc) hid⟩

theorem valueOfNumbers_covered :
    (mostSpecificOf valueOfNumbers 1 predefinedSession.world).1.Sublist valueOfNumbers ∧
      ∀ id ∈ valueOfNumbers, ∃ x ∈ (mostSpecificOf valueOfNumbers 1 predefinedSession.world).1,
        x = id ∨ (isMoreSpecific x id 1 predefinedSession.world).1 := by
  have hids : ∀ id ∈ valueOfNumbers, predefinedSession.world.Processed id := fun id hid =>
    processed_of_isResolved (valueOfNumbers_kept.2.1 id hid)
  obtain ⟨hsublist, -, hcovers⟩ :=
    kept_callables predefinedSession.world (Loaded.fresh _ _ _).wellFormed.world valueOfNumbers 1 hids
  exact ⟨hsublist, hcovers⟩

/-- What is kept is neither free of callables that another one beats strictly, nor the first
of several that beat each other: of `valueOf` for a `double`, `indexOf` for a string and
`valueOf` for an `int` all are kept, though the first one is less specific than the last; and
of two overloads of `wait` without an argument the second one is kept. -/
theorem kept_not_firstBest :
    ¬ (∀ (ids : List MethodId) (argc : Nat), (∀ id ∈ ids, predefinedSession.world.Processed id) →
      (mostSpecificOf ids argc predefinedSession.world).1 =
        firstBest (fun a b => (isMoreSpecific a b argc predefinedSession.world).1) ids) ∧
    (mostSpecificOf [⟨10⟩, ⟨11⟩] 0 predefinedSession.world).1 = [⟨11⟩] ∧
      firstBest (fun a b => (isMoreSpecific a b 0 predefinedSession.world).1) [⟨10⟩, ⟨11⟩] = [⟨10⟩] := by
  have hruns : (∀ id ∈ [(⟨33⟩ : MethodId), ⟨24⟩, ⟨30⟩], (predefinedSession.world.method id).isResolved) ∧
      (mostSpecificOf [⟨33⟩, ⟨24⟩, ⟨30⟩] 1 predefinedSession.world).1 = [⟨33⟩, ⟨24⟩, ⟨30⟩] ∧
      firstBest (fun a b => (isMoreSpecific a b 1 predefinedSession.world).1) [⟨33⟩, ⟨24⟩, ⟨30⟩] = [⟨24⟩, ⟨30⟩] ∧
      (mostSpecificOf [⟨10⟩, ⟨11⟩] 0 predefinedSession.world).1 = [⟨11⟩] ∧
      firstBest (fun a b => (isMoreSpecific a b 0 predefinedSession.world).1) [⟨10⟩, ⟨11⟩] = [⟨10⟩] := by
    decide +kernel
  obtain ⟨hresolved, hkept, hbest, hwait⟩ := hruns
  refine ⟨fun h => ?_, hwait⟩
  have heq := h _ 1 fun id hid => processed_of_isResolved (hresolved id hid)
  rw [hkept, hbest] at heq
  exact absurd heq (by decide)

/-! ## Less specific callables

What makes it safe to prefer the more specific one.
-/

/-- Whenever a step of a document's program is taken, a callable of exact arity with as many
parameters as there are arguments accepts them in one of the first two phases if a more
specific callable of exact arity does. -/
theorem less_specific_accepts (d : Document) (f : Source.File) (base : Options) (k : Nat) :
    let u := (((d.load f).session base).stage k).world
    ∀ (a b : MethodId) (args : List TypeId) (ph : Phase), u.Processed a → u.Processed b →
      (u.method a).flags.isVariadic = false → (u.method b).flags.isVariadic = false →
      (u.method b).params.length = args.length → (isMoreSpecific a b args.length u).1 → ph = .strict ∨ ph = .loose →
      (isApplicable a args ph u).1.isSome → (isApplicable b args ph u).1 = some false := by
  intro u a b args ph ha hb hfixed hfixed' hlength hmore hph happ
  have hfresh := Loaded.fresh d f base
  have hgenuine := hfresh.stage_genuine (d.load_genuine f) k
  have hboth : ∀ id ∈ [a, b], (u.method id).flags.isVariadic = false := by
    intro id hid
    rcases List.mem_pair.mp hid with rfl | rfl
    · exact hfixed
    · exact hfixed'
  exact isApplicable_of_isMoreSpecific (hfresh.stage_sound k).1.world hgenuine ha hb hboth hlength hmore hph happ

/-- `valueOf` for an `int` accepts a boxed integer when it is unboxed, and so does the one for
a `double`. -/
theorem valueOf_accepts_boxed :
    (isMoreSpecific ⟨30⟩ ⟨33⟩ 1 predefinedSession.world).1 ∧
      (isApplicable ⟨30⟩ [.boxOf .int] .loose predefinedSession.world).1 = some false ∧
      (isApplicable ⟨33⟩ [.boxOf .int] .loose predefinedSession.world).1 = some false := by
  have hruns : (∀ id ∈ [(⟨30⟩ : MethodId), ⟨33⟩], (predefinedSession.world.method id).isResolved ∧
      (predefinedSession.world.method id).flags.isVariadic = false ∧ (predefinedSession.world.method id).params.length = 1) ∧
      (isMoreSpecific ⟨30⟩ ⟨33⟩ 1 predefinedSession.world).1 ∧
      (isApplicable ⟨30⟩ [.boxOf .int] .loose predefinedSession.world).1 = some false := by
    decide +kernel
  obtain ⟨hids, hmore, happ⟩ := hruns
  have hint := hids ⟨30⟩ (by simp)
  have hdouble := hids ⟨33⟩ (by simp)
  refine ⟨hmore, happ, ?_⟩
  have happ' : (isApplicable ⟨30⟩ [.boxOf .int] .loose predefinedSession.world).1.isSome := by
    rw [happ]
    rfl
  have haccepts := less_specific_accepts {} blankFile {} 0 ⟨30⟩ ⟨33⟩ [.boxOf .int] .loose
  rw [predefinedSession_stage] at haccepts
  exact haccepts (processed_of_isResolved hint.1) (processed_of_isResolved hdouble.1) hint.2.1 hdouble.2.1 hdouble.2.2 hmore
    (.inr rfl) happ'

end CallResolution
