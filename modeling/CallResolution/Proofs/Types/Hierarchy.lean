import CallResolution.Proofs.Types.Making
import Mathlib.Data.Finset.Card
import Mathlib.Data.Finset.Image

/-!
# Inheritance as reachability

The search for a superclass looks at every class once at most, so its bound is never reached
and it finds exactly what can be reached. Inheritance therefore does not depend on what else a
store holds: it is transitive, and it stays as it is when the store is extended.

The bound is no part of the answer either: the same search without one, `seekUp?`, ends on
every store with the same result. A class is put on the list of those to look at when it is
met first and never again, so the classes on the list and the classes not yet met become one
less with every class that is looked at, whatever cycles there are.

Soundness of the search is read off the list, whose classes can all be reached
(`inherits_of_searchUp`). Completeness is the invariant `Explored`: of each class that was
met, either it is still on the list or its parents were met as well. When the list is empty,
what was met is closed under parents, so the goal was met if it can be reached at all
(`Explored.not_inherits`).

Main statements: `searchUp_eq_true_iff`, `isSubclass_iff`, `isSubclass_decides`,
`WellFormed.isSubclass_trans` and `Retains.isSubclass`, and `Kinded.isSubclass_total` for
classes below the root class of exceptions.
-/

namespace CallResolution.TypeStore

variable {s s' : TypeStore}

/-- A class inherits from another one directly: one is the class behind a type in the header
of the other one. Type arguments do not matter here. -/
def Parent (s : TypeStore) (c p : TypeId) : Prop :=
  p ∈ s.parents c

/-- A class inherits from another one, in one or more steps. -/
abbrev Inherits (s : TypeStore) : TypeId → TypeId → Prop :=
  Relation.TransGen s.Parent

/-! ## The search

The search keeps a list of classes to look at and a list of classes that it has met. It is
shown to be sound by what is on the first list, and to be complete by `Explored`; the number
of classes that were not met yet is what becomes less.
-/

/-- All classes that a store can name. -/
def classSet (s : TypeStore) : Finset TypeId :=
  (Finset.range s.shapes.size).image fun i => s.classOf ⟨i⟩

/-- There are no more classes than types. -/
theorem card_classSet (s : TypeStore) : s.classSet.card ≤ s.shapes.size :=
  Finset.card_image_le.trans (Finset.card_range _).le

/-- The class behind a type is one of the classes. -/
theorem classOf_mem_classSet {t : TypeId} (h : (s.classOf t).isSome) : s.classOf t ∈ s.classSet := by
  have hk : s.Knows t := by
    refine knows_of_shape fun ha => ?_
    simp [classOf, ha, TypeId.isSome] at h
  exact Finset.mem_image.mpr ⟨t.index, Finset.mem_range.mpr hk, rfl⟩

/-- Parents are classes. -/
theorem parent_mem_classSet {c p : TypeId} (h : s.Parent c p) : p ∈ s.classSet := by
  obtain ⟨h, hp⟩ := List.mem_filter.mp h
  obtain ⟨t, -, rfl⟩ := List.mem_map.mp h
  exact classOf_mem_classSet hp

/-- Erasing repeats leaves none. -/
theorem nodup_eraseDups {α : Type} [DecidableEq α] (l : List α) : l.eraseDups.Nodup := by
  induction h : l.length using Nat.strong_induction_on generalizing l with
  | _ n ih =>
    cases l with
    | nil => simp
    | cons a l =>
      rw [List.eraseDups_cons, List.nodup_cons]
      refine ⟨by simp, ih _ ?_ _ rfl⟩
      have := List.length_filter_le (fun b => !b == a) l
      simp only [List.length_cons] at h
      omega

/-- What the search finds can be reached. -/
theorem inherits_of_searchUp {goal : TypeId} {fuel : Nat} {seen work : List TypeId}
    (h : s.searchUp goal fuel seen work = true) : ∃ c ∈ work, s.Inherits c goal := by
  induction fuel generalizing seen work with
  | zero => simp [searchUp] at h
  | succ fuel ih =>
    cases work with
    | nil => simp [searchUp] at h
    | cons c work =>
      simp only [searchUp] at h
      split at h
      · rename_i hgoal
        exact ⟨c, by simp, .single hgoal⟩
      · obtain ⟨d, hd, hinh⟩ := ih h
        rcases List.mem_append.mp hd with hd | hd
        · have hp : s.Parent c d := by
            simp only [List.mem_eraseDups, List.mem_filter] at hd
            exact hd.1
          exact ⟨c, by simp, .head hp hinh⟩
        · exact ⟨d, by simp [hd], hinh⟩

/-- What has been seen by the search: each class is still to be looked at, or its parents were
put there too and the goal is not among them. This is the invariant of a search that has not
found its goal yet. -/
def Explored (s : TypeStore) (goal : TypeId) (seen work : List TypeId) : Prop :=
  ∀ c ∈ seen, c ∈ work ∨ ∀ p, s.Parent c p → p ∈ seen ∧ p ≠ goal

/-- One step of the search keeps what has been explored. -/
theorem Explored.step {goal c : TypeId} {seen work fresh : List TypeId} (h : s.Explored goal seen (c :: work))
    (hgoal : goal ∉ s.parents c) (hfresh : ∀ p, p ∈ fresh ↔ s.Parent c p ∧ p ∉ seen) :
    s.Explored goal (fresh ++ seen) (fresh ++ work) := by
  intro d hd
  rcases List.mem_append.mp hd with hd | hd
  · exact .inl (List.mem_append_left _ hd)
  · rcases h d hd with hw | hp
    · rcases List.mem_cons.mp hw with rfl | hw
      · refine .inr fun p hp => ⟨?_, fun heq => hgoal (heq ▸ hp)⟩
        by_cases hs : p ∈ seen
        · exact List.mem_append_right _ hs
        · exact List.mem_append_left _ ((hfresh p).mpr ⟨hp, hs⟩)
      · exact .inl (List.mem_append_right _ hw)
    · exact .inr fun p hp' => ⟨List.mem_append_right _ (hp p hp').1, (hp p hp').2⟩

/-- When nothing is left to look at, the goal cannot be reached from what has been seen. -/
theorem Explored.not_inherits {goal c : TypeId} {seen : List TypeId} (h : s.Explored goal seen [])
    (hc : c ∈ seen) : ¬ s.Inherits c goal := by
  have closed : ∀ d ∈ seen, ∀ p, s.Parent d p → p ∈ seen ∧ p ≠ goal := fun d hd => by
    simpa using h d hd
  have reached {d : TypeId} (hinh : s.Inherits c d) : d ∈ seen ∧ d ≠ goal := by
    induction hinh with
    | single hp => exact closed _ hc _ hp
    | tail _ hp ih => exact closed _ ih.1 _ hp
  exact fun hinh => (reached hinh).2 rfl

/-- The classes that are put on the list in one step are no longer unseen. -/
theorem card_unseen {d : TypeId} {seen fresh : List TypeId} (hnodup : fresh.Nodup)
    (hfresh : ∀ p, p ∈ fresh ↔ s.Parent d p ∧ p ∉ seen) :
    (s.classSet \ (fresh ++ seen).toFinset).card + fresh.length = (s.classSet \ seen.toFinset).card := by
  have hsub : fresh.toFinset ⊆ s.classSet \ seen.toFinset := by
    intro p hp
    obtain ⟨hp, hseen⟩ := (hfresh p).mp (by simpa using hp)
    simpa [hseen] using parent_mem_classSet hp
  have hset : s.classSet \ (fresh ++ seen).toFinset = (s.classSet \ seen.toFinset) \ fresh.toFinset := by
    ext p
    simp only [Finset.mem_sdiff, List.toFinset_append, Finset.mem_union]
    tauto
  have hle := Finset.card_le_card hsub
  rw [hset, Finset.card_sdiff_of_subset hsub, List.toFinset_card_of_nodup hnodup]
  rw [List.toFinset_card_of_nodup hnodup] at hle
  omega

/-- At the start of a search from a class, all other classes are unseen. -/
theorem card_unseen_start {c : TypeId} (hc : c ∈ s.classSet) :
    (s.classSet \ [c].toFinset).card + 1 ≤ s.shapes.size := by
  have hsingle : ([c].toFinset : Finset TypeId) = {c} := by simp
  rw [hsingle, Finset.card_sdiff_of_subset (by simpa using hc), Finset.card_singleton]
  have hpos := Finset.card_pos.mpr ⟨c, hc⟩
  have hle := s.card_classSet
  omega

/-- The search finds all that can be reached, when its bound exceeds the number of classes
left to look at. By induction on the bound: a step looks at one class, and what it puts on the
list was unseen before. -/
theorem searchUp_of_inherits {goal c : TypeId} {fuel : Nat} {seen work : List TypeId} (h : s.Explored goal seen work)
    (hwork : ∀ d ∈ work, d ∈ seen) (hfuel : work.length + (s.classSet \ seen.toFinset).card < fuel) (hc : c ∈ seen)
    (hinh : s.Inherits c goal) : s.searchUp goal fuel seen work = true := by
  induction fuel generalizing seen work c with
  | zero => omega
  | succ fuel ih =>
    cases work with
    | nil => exact absurd hinh (h.not_inherits hc)
    | cons d work =>
      simp only [searchUp]
      split
      · rfl
      · rename_i hgoal
        generalize hf : ((s.parents d).filter (· ∉ seen)).eraseDups = fresh
        have hfresh : ∀ p, p ∈ fresh ↔ s.Parent d p ∧ p ∉ seen := by
          intro p
          simp [← hf, Parent]
        have hnodup : fresh.Nodup := hf ▸ nodup_eraseDups _
        refine ih (h.step hgoal hfresh) ?_ ?_ (List.mem_append_right _ hc) hinh
        · intro p hp
          rcases List.mem_append.mp hp with hp | hp
          · exact List.mem_append_left _ hp
          · exact List.mem_append_right _ (hwork p (by simp [hp]))
        · have hcard := card_unseen hnodup hfresh
          simp only [List.length_append, List.length_cons] at hfuel ⊢
          omega

/-- The search from a class finds exactly what the class inherits from. -/
theorem searchUp_eq_true_iff {goal c : TypeId} (hc : c ∈ s.classSet) :
    s.searchUp goal (s.shapes.size + 1) [c] [c] = true ↔ s.Inherits c goal := by
  refine ⟨fun h => ?_, fun h => ?_⟩
  · obtain ⟨d, hd, hinh⟩ := inherits_of_searchUp h
    rwa [List.mem_singleton.mp hd] at hinh
  · refine searchUp_of_inherits (fun d hd => .inl hd) (fun d hd => hd) ?_ (List.mem_singleton.mpr rfl) h
    have hcard := card_unseen_start hc
    simp only [List.length_singleton]
    omega

/-- A class is a subclass of those it can be reached from upwards, and of the root class. -/
theorem isSubclass_iff {a b : TypeId} : s.isSubclass a b = true ↔
    (s.classOf a).isSome ∧ (s.classOf b).isSome ∧
      (s.classOf b = .object ∨ Relation.ReflTransGen s.Parent (s.classOf a) (s.classOf b)) := by
  unfold isSubclass
  simp only [Bool.and_eq_true, Bool.or_eq_true, decide_eq_true_eq, and_assoc]
  refine and_congr_right fun ha => and_congr_right fun hb => ?_
  rw [searchUp_eq_true_iff (classOf_mem_classSet ha), Relation.reflTransGen_iff_eq_or_transGen]
  constructor
  · rintro ((h | h) | h)
    · exact .inr (.inl h.symm)
    · exact .inl h
    · exact .inr (.inr h)
  · rintro (h | h | h)
    · exact .inl (.inr h)
    · exact .inl (.inl h.symm)
    · exact .inr h

/-! ## The search without a bound

The same search as a function that may go on for ever. That it gives a result on every store
says that the bound of the program is never what ends it.
-/

/-- The search for a class among those that the classes of `work` inherit from, with no bound
on its length. There is no result when it goes on for ever. -/
def seekUp? (s : TypeStore) (goal : TypeId) (seen work : List TypeId) : Option Bool :=
  match work with
  | [] => some false
  | c :: work =>
    let up := s.parents c
    if goal ∈ up then some true
    else
      let fresh := (up.filter (· ∉ seen)).eraseDups
      s |>.seekUp? goal (fresh ++ seen) (fresh ++ work)
partial_fixpoint

/-- Whether a class is another one or inherits from it, by the search without a bound. -/
def seekSubclass? (s : TypeStore) (sub sup : TypeId) : Option Bool :=
  let sub := s.classOf sub
  let sup := s.classOf sup
  if sub.isSome && sup.isSome then
    if sub = sup || sup = .object then some true else s.seekUp? sup [sub] [sub]
  else some false

/-- The search ends, and a bound that exceeds the number of classes left to look at does not
change its result. So the bound in the program is one on the store and none on the hierarchy.
-/
theorem seekUp_eq {goal : TypeId} {fuel : Nat} {seen work : List TypeId}
    (hfuel : work.length + (s.classSet \ seen.toFinset).card < fuel) :
    s.seekUp? goal seen work = some (s.searchUp goal fuel seen work) := by
  induction fuel generalizing seen work with
  | zero => omega
  | succ fuel ih =>
    rw [seekUp?.eq_def]
    cases work with
    | nil => rfl
    | cons c work =>
      simp only [searchUp]
      split
      · rfl
      · refine ih ?_
        have hfresh (p : TypeId) : p ∈ ((s.parents c).filter (· ∉ seen)).eraseDups ↔ s.Parent c p ∧ p ∉ seen := by
          simp [Parent]
        have hcard := card_unseen (nodup_eraseDups _) hfresh
        simp only [List.length_append, List.length_cons] at hfuel ⊢
        omega

/-- The question for a subclass is answered without a bound on the search. -/
theorem seekSubclass_eq (s : TypeStore) (a b : TypeId) : s.seekSubclass? a b = some (s.isSubclass a b) := by
  unfold seekSubclass? isSubclass
  by_cases hsome : (s.classOf a).isSome && (s.classOf b).isSome
  · simp only [hsome, if_true, Bool.true_and]
    by_cases htop : s.classOf a = s.classOf b || s.classOf b = .object
    · simp only [htop, if_true, Bool.true_or]
    · have hstart := card_unseen_start (classOf_mem_classSet (Bool.and_eq_true_iff.mp hsome).1)
      simp only [htop, Bool.false_or]
      exact seekUp_eq (by simp only [List.length_singleton]; omega)
  · simp only [hsome, Bool.false_and]
    rfl

/-! ## What is searched

The graph that is searched, told without the functions of the program: types stand for
classes, and a class steps up to those in its header.
-/

/-- A type stands for a class: it is the declared class, or the class with type arguments. -/
def ClassBehind (s : TypeStore) (t c : TypeId) : Prop :=
  t = c ∧ (s.shape c).isDeclared ∨ c.isSome ∧ ∃ args, s.shape t = .applied c args

/-- A class steps up to the class of one of its direct supertypes. -/
def StepsUp (s : TypeStore) (c p : TypeId) : Prop :=
  ∃ t ∈ s.directSupertypes c, s.ClassBehind t p

/-- There is no type with the number 0. -/
theorem isSome_of_isDeclared {c : TypeId} (h : (s.shape c).isDeclared) : c.isSome := by
  by_contra hc
  have hnone : c = .none := by simpa [TypeId.isSome] using hc
  simp [hnone, shape, TypeShape.isDeclared] at h

/-- The class behind a type is the one that is read off its shape. -/
theorem classBehind_iff {t c : TypeId} : s.ClassBehind t c ↔ c.isSome ∧ s.classOf t = c := by
  unfold ClassBehind classOf
  constructor
  · rintro (⟨rfl, hdecl⟩ | ⟨hsome, args, hshape⟩)
    · refine ⟨isSome_of_isDeclared hdecl, ?_⟩
      cases hshape : s.shape t with
      | declared slot => rfl
      | _ => simp [hshape, TypeShape.isDeclared] at hdecl
    · exact ⟨hsome, by rw [hshape]⟩
  · rintro ⟨hsome, hclass⟩
    cases hshape : s.shape t with
    | declared slot =>
      obtain rfl : t = c := by simpa only [hshape] using hclass
      exact .inl ⟨rfl, by simp [hshape, TypeShape.isDeclared]⟩
    | applied base args =>
      obtain rfl : base = c := by simpa only [hshape] using hclass
      exact .inr ⟨hsome, args, rfl⟩
    | _ =>
      obtain rfl : TypeId.none = c := by simpa only [hshape] using hclass
      exact absurd hsome (by decide)

/-- To step up is to go to a parent. -/
theorem stepsUp_iff {c p : TypeId} : s.StepsUp c p ↔ s.Parent c p := by
  simp only [StepsUp, classBehind_iff, Parent, parents, List.mem_filter, List.mem_map]
  constructor
  · rintro ⟨t, ht, hsome, rfl⟩
    exact ⟨⟨t, ht, rfl⟩, hsome⟩
  · rintro ⟨⟨t, ht, rfl⟩, hsome⟩
    exact ⟨t, ht, hsome, rfl⟩

/-- Where shapes refer to earlier numbers, the class behind a type is declared. -/
theorem ClassBehind.isDeclared {t c : TypeId} (hs : ∀ i shape, s.shapes[i]? = some shape → s.Refers i shape)
    (h : s.ClassBehind t c) : (s.shape c).isDeclared := by
  obtain ⟨-, hdecl⟩ | ⟨-, args, hshape⟩ := h
  · exact hdecl
  · exact (hs _ _ (getElem?_of_shape hshape (by simp))).2.1

/-- On every store and for all types, with or without cycles among the classes, the search for
a superclass ends without a bound, and its answer is whether there are classes behind both
types and the second class is the root class or is reached from the first one by any number of
steps up. On a store whose shapes refer to earlier numbers, the class behind a type is a
declared class. -/
theorem isSubclass_decides (s : TypeStore) (a b : TypeId) :
    s.seekSubclass? a b = some (s.isSubclass a b) ∧
    (s.isSubclass a b = true ↔
      ∃ c d, s.ClassBehind a c ∧ s.ClassBehind b d ∧ (d = .object ∨ Relation.ReflTransGen s.StepsUp c d)) ∧
    ((∀ i shape, s.shapes[i]? = some shape → s.Refers i shape) →
      ∀ t c, s.ClassBehind t c → (s.shape c).isDeclared) := by
  refine ⟨seekSubclass_eq s a b, ?_, fun hs t c => ClassBehind.isDeclared hs⟩
  have hsteps : s.StepsUp = s.Parent := by
    ext c p
    exact stepsUp_iff
  simp only [isSubclass_iff, classBehind_iff, hsteps]
  constructor
  · rintro ⟨ha, hb, h⟩
    exact ⟨_, _, ⟨ha, rfl⟩, ⟨hb, rfl⟩, h⟩
  · rintro ⟨c, d, ⟨ha, rfl⟩, ⟨hb, rfl⟩, h⟩
    exact ⟨ha, hb, h⟩

/-- Two classes that inherit from each other are subclasses of one another, and of no other
class but the root class. -/
example :
    let s : TypeStore :=
      { (initial.pushed (.declared 24)).pushed (.declared 25) with
        classes := initial.classes ++
          #[{ name := "A", package := "p", super := ⟨51⟩ }, { name := "C", package := "p", super := ⟨50⟩ }] }
    s.isSubclass ⟨50⟩ ⟨51⟩ = true ∧ s.isSubclass ⟨50⟩ .string = false := by
  decide

/-! ## The classes above arrays

An array is a subtype of the root class and of two interfaces. Subtyping of arrays treats them
apart, so it has to be known that nothing but themselves is above them.
-/

/-- What is declared of a predefined class. -/
theorem WellFormed.classInfo_predefined (hs : s.WellFormed) {t : TypeId} {slot : Nat} {info : ClassInfo}
    (h : s.shape t = .declared slot) (hi : predefinedClasses[slot]? = some info) : s.classInfo? t = some info := by
  simp [classInfo?, classSlot?, h, hs.predefinedHeaders slot info hi]

/-- The root class inherits from nothing. -/
theorem WellFormed.parents_object (hs : s.WellFormed) : s.parents .object = [] := by
  unfold parents directSupertypes
  rw [hs.classInfo_predefined hs.shape_object rfl]
  rfl

/-- The classes above arrays inherit from nothing. -/
theorem WellFormed.parents_arraySupertype (hs : s.WellFormed) {t : TypeId} (h : isArraySupertype t) :
    s.parents t = [] := by
  unfold isArraySupertype at h
  simp only [Bool.or_eq_true, decide_eq_true_eq] at h
  rcases h with (rfl | rfl) | rfl
  · exact hs.parents_object
  · have hshape : s.shape .cloneable = .declared 2 := hs.shape_predefined (by decide) (by decide)
    unfold parents directSupertypes
    rw [hs.classInfo_predefined hshape rfl]
    rfl
  · have hshape : s.shape .serializable = .declared 1 := hs.shape_predefined (by decide) (by decide)
    unfold parents directSupertypes
    rw [hs.classInfo_predefined hshape rfl]
    rfl

/-- The classes above arrays are classes. -/
theorem WellFormed.classOf_arraySupertype (hs : s.WellFormed) {t : TypeId} (h : isArraySupertype t) :
    s.classOf t = t := by
  unfold isArraySupertype at h
  simp only [Bool.or_eq_true, decide_eq_true_eq] at h
  unfold classOf
  rcases h with (rfl | rfl) | rfl
  · rw [hs.shape_object]
  · rw [hs.shape_predefined (t := .cloneable) (by decide) (by decide : _ = some (.declared 2))]
  · rw [hs.shape_predefined (t := .serializable) (by decide) (by decide : _ = some (.declared 1))]

/-- A class without parents reaches itself only. -/
theorem eq_of_reachable {c d : TypeId} (hc : s.parents c = []) (h : Relation.ReflTransGen s.Parent c d) : d = c := by
  cases h using Relation.ReflTransGen.head_induction_on with
  | refl => rfl
  | head hp _ => simp [Parent, hc] at hp

/-- What is above a class above arrays is one too. These classes inherit from nothing, so
above them there is only the class itself and the root class; transitivity of subtyping of
arrays needs no more. -/
theorem WellFormed.arraySupertype_of_isSubclass (hs : s.WellFormed) {a b : TypeId} (ha : isArraySupertype a)
    (h : s.isSubclass a b) (hb : s.classOf b = b) : isArraySupertype b := by
  obtain ⟨-, -, h⟩ := isSubclass_iff.mp h
  rw [hs.classOf_arraySupertype ha, hb] at h
  rcases h with h | h
  · simp [h, isArraySupertype]
  · rwa [eq_of_reachable (hs.parents_arraySupertype ha) h]

/-- Inheritance is transitive. That a class is below the root class is no matter of its
header, so the case of the root class is a separate one: it inherits from nothing, and is
below no other class. -/
theorem WellFormed.isSubclass_trans (hs : s.WellFormed) {a b c : TypeId} (hab : s.isSubclass a b)
    (hbc : s.isSubclass b c) : s.isSubclass a c := by
  obtain ⟨ha, -, hab⟩ := isSubclass_iff.mp hab
  obtain ⟨-, hc, hbc⟩ := isSubclass_iff.mp hbc
  refine isSubclass_iff.mpr ⟨ha, hc, ?_⟩
  rcases hbc with hbc | hbc
  · exact .inl hbc
  · rcases hab with hab | hab
    · rw [hab] at hbc
      exact .inl (eq_of_reachable hs.parents_object hbc)
    · exact .inr (hab.trans hbc)

/-- A class is a subclass of itself. -/
theorem isSubclass_refl {a : TypeId} (ha : (s.classOf a).isSome) : s.isSubclass a a :=
  isSubclass_iff.mpr ⟨ha, ha, .inr .refl⟩

/-! ## Extensions keep hierarchies

The declarations of known classes stay, and mention known classes. So whatever is computed by
following them stays, too.
-/

namespace Grows

/-- The class behind a known type stays. -/
theorem classOf (h : Grows s s') {t : TypeId} (ht : s.Knows t) : s'.classOf t = s.classOf t := by
  unfold TypeStore.classOf
  rw [h.shape ht]

end Grows

namespace Retains

/-- What is declared of the class behind a known type stays. -/
theorem classInfo (h : Retains s s') (hs : s.WellFormed) {t : TypeId} (ht : s.Knows t) :
    s'.classInfo? t = s.classInfo? t := by
  have declared {u : TypeId} {slot : Nat} (hu : s.shape u = .declared slot) : s'.classes[slot]? = s.classes[slot]? := by
    have hlt : slot < s.classes.size := hs.refers hu (by simp)
    rw [h.infos slot _ (Array.getElem?_eq_getElem hlt), Array.getElem?_eq_getElem hlt]
  unfold classInfo? classSlot?
  rw [h.shape ht]
  cases hshape : s.shape t with
  | declared slot => exact declared hshape
  | applied base args =>
    simp only
    have hb := hs.base hshape
    rw [h.shape (knows_of_isDeclared hb)]
    cases hbase : s.shape base with
    | declared slot => exact declared hbase
    | _ => rfl
  | _ => rfl

/-- What is declared of a known type variable stays. -/
theorem typeVariable (h : Retains s s') (hs : s.WellFormed) {t : TypeId} (ht : s.Knows t) :
    s'.typeVariable? t = s.typeVariable? t := by
  unfold typeVariable?
  rw [h.shape ht]
  cases hshape : s.shape t with
  | typeVar slot =>
    have hlt : slot < s.typeVars.size := hs.refers hshape (by simp)
    simp only [h.bounds slot _ (Array.getElem?_eq_getElem hlt), Array.getElem?_eq_getElem hlt]
  | _ => rfl

/-- The direct supertypes of a known class stay. -/
theorem directSupertypes (h : Retains s s') (hs : s.WellFormed) {t : TypeId} (ht : s.Knows t) :
    s'.directSupertypes t = s.directSupertypes t := by
  unfold TypeStore.directSupertypes
  rw [h.classInfo hs ht]

end Retains

/-- Direct supertypes are known. -/
theorem WellFormed.knows_directSupertypes (hs : s.WellFormed) {t u : TypeId} (hu : u ∈ s.directSupertypes t) :
    s.Knows u := by
  unfold directSupertypes at hu
  split at hu
  · rename_i info hi
    have hk := hs.knows_classInfo hi
    rcases List.mem_append.mp hu with hu | hu
    · split at hu
      · rw [List.mem_singleton.mp hu]
        exact hk.super.1
      · simp at hu
    · exact (hk.interfaces u hu).1
  · simp at hu

/-- Parents are known. -/
theorem WellFormed.knows_parent (hs : s.WellFormed) {c p : TypeId} (h : s.Parent c p) : s.Knows p := by
  obtain ⟨h, -⟩ := List.mem_filter.mp h
  obtain ⟨t, ht, rfl⟩ := List.mem_map.mp h
  exact hs.knows_classOf (hs.knows_directSupertypes ht)

/-- A class that lies in no other one. The search for the outermost class around a class stops
after a number of classes, and may stop at one that is not a top-level class when they are
nested deeper. -/
def TopLevel (s : TypeStore) (t : TypeId) : Prop :=
  ∃ info, s.classInfo? t = some info ∧ info.outer.isSome = false

instance (s : TypeStore) (t : TypeId) : Decidable (s.TopLevel t) :=
  decidable_of_iff ((s.classInfo? t).any fun info => !info.outer.isSome) (by simp [TopLevel, Option.any_eq_true])

/-- The outermost class around a known class is known. -/
theorem WellFormed.knows_outermost (hs : s.WellFormed) {t : TypeId} (ht : s.Knows t) : s.Knows (s.outermost t) := by
  have within (fuel : Nat) {u : TypeId} (hu : s.Knows u) : s.Knows (s.outermostWithin fuel u) := by
    induction fuel generalizing u with
    | zero => exact hu
    | succ fuel ih =>
      unfold outermostWithin
      cases hi : s.classInfo? u with
      | none => exact hu
      | some info =>
        dsimp only
        split
        · exact ih (hs.knows_classInfo hi).outer
        · exact hu
  exact within _ (hs.knows_classOf ht)

namespace Retains

/-- The parents of a known class stay. -/
theorem parents (h : Retains s s') (hs : s.WellFormed) {t : TypeId} (ht : s.Knows t) :
    s'.parents t = s.parents t := by
  unfold TypeStore.parents
  rw [h.directSupertypes hs ht]
  refine congrArg _ (List.map_congr_left fun u hu => ?_)
  exact h.classOf (hs.knows_directSupertypes hu)

/-- What can be reached from a known class stays. Both directions go along the path, which
never leaves the known classes, since a store knows the parents of what it knows. -/
theorem reachable (h : Retains s s') (hs : s.WellFormed) {c d : TypeId} (hc : s.Knows c) :
    Relation.ReflTransGen s'.Parent c d ↔ Relation.ReflTransGen s.Parent c d := by
  have parent {a b : TypeId} (ha : s.Knows a) : s'.Parent a b ↔ s.Parent a b := by
    unfold Parent
    rw [h.parents hs ha]
  constructor
  · intro hr
    have : Relation.ReflTransGen s.Parent c d ∧ s.Knows d := by
      induction hr with
      | refl => exact ⟨.refl, hc⟩
      | tail _ hp ih =>
        have hp' := (parent ih.2).mp hp
        exact ⟨ih.1.tail hp', hs.knows_parent hp'⟩
    exact this.1
  · intro hr
    have : Relation.ReflTransGen s'.Parent c d ∧ s.Knows d := by
      induction hr with
      | refl => exact ⟨.refl, hc⟩
      | tail _ hp ih => exact ⟨ih.1.tail ((parent ih.2).mpr hp), hs.knows_parent hp⟩
    exact this.1

/-- Inheritance between known classes stays. -/
theorem isSubclass (h : Retains s s') (hs : s.WellFormed) {a b : TypeId} (ha : s.Knows a) (hb : s.Knows b) :
    s'.isSubclass a b = s.isSubclass a b := by
  rw [Bool.eq_iff_iff, isSubclass_iff, isSubclass_iff, h.classOf ha, h.classOf hb,
    h.reachable hs (hs.knows_classOf ha)]

/-- A known top-level class stays one, and no known class becomes one. -/
theorem topLevel (h : Retains s s') (hs : s.WellFormed) {t : TypeId} (ht : s.Knows t) : s'.TopLevel t ↔ s.TopLevel t := by
  unfold TopLevel
  rw [h.classInfo hs ht]

/-- The outermost class around a known class stays. -/
theorem outermost (h : Retains s s') (hs : s.WellFormed) {t : TypeId} (ht : s.Knows t) :
    s'.outermost t = s.outermost t := by
  have within (fuel : Nat) {u : TypeId} (hu : s.Knows u) : s'.outermostWithin fuel u = s.outermostWithin fuel u := by
    induction fuel generalizing u with
    | zero => rfl
    | succ fuel ih =>
      unfold outermostWithin
      rw [h.classInfo hs hu]
      cases hi : s.classInfo? u with
      | none => rfl
      | some info => simp only [ih (hs.knows_classInfo hi).outer]
  unfold TypeStore.outermost
  rw [h.classOf ht, within _ (hs.knows_classOf ht)]

/-- The package of a known type stays. -/
theorem packageOf (h : Retains s s') (hs : s.WellFormed) {t : TypeId} (ht : s.Knows t) :
    s'.packageOf t = s.packageOf t := by
  have hb : s.Knows (s.baseElem t) := by
    unfold baseElem
    split
    · rename_i e d he
      exact hs.knows_elem he
    · exact ht
  have he : s'.baseElem t = s.baseElem t := by
    unfold baseElem
    rw [h.shape ht]
  unfold TypeStore.packageOf
  rw [he, h.classInfo hs hb]

/-- Whether two known types lie in one package stays. -/
theorem samePackage (h : Retains s s') (hs : s.WellFormed) {a b : TypeId} (ha : s.Knows a) (hb : s.Knows b) :
    s'.samePackage a b = s.samePackage a b := by
  unfold TypeStore.samePackage
  rw [h.packageOf hs ha, h.packageOf hs hb]

end Retains

/-- The class behind a type has a declaration. -/
theorem WellFormed.classSlot_lt (hs : s.WellFormed) {t : TypeId} {slot : Nat} (h : s.classSlot? t = some slot) :
    slot < s.classes.size := by
  unfold classSlot? at h
  split at h
  · rename_i hshape
    cases h
    exact hs.refers hshape (by simp)
  · rename_i base args hshape
    split at h
    · rename_i hbase
      cases h
      exact hs.refers hbase (by simp)
    · cases h
  · cases h

/-! ## Chains of superclasses

A class has one superclass, and what it lists besides are interfaces, which inherit from
interfaces only. So what is above a class and is no interface itself lies on the chain of its
superclasses, and of two such classes one is above the other.
-/

/-- A parent of a class is its superclass or an interface. -/
theorem Kinded.parent_cases (hk : s.Kinded) (hs : s.WellFormed) {c p : TypeId} (h : s.Parent c p) :
    ∃ info, s.classInfo? c = some info ∧ (info.super.isSome ∧ p = s.classOf info.super ∨ s.IsInterface p) := by
  obtain ⟨h, -⟩ := List.mem_filter.mp h
  obtain ⟨t, ht, rfl⟩ := List.mem_map.mp h
  unfold directSupertypes at ht
  split at ht
  · rename_i info hinfo
    obtain ⟨slot, -, hslot⟩ := Option.bind_eq_some_iff.mp hinfo
    refine ⟨info, hinfo, ?_⟩
    rcases List.mem_append.mp ht with hsuper | hlisted
    · obtain ⟨hsome, ht⟩ := List.mem_ite_nil_right.mp hsuper
      exact .inl ⟨hsome, by rw [List.mem_singleton.mp ht]⟩
    · right
      rw [IsInterface, hs.classInfo?_classOf]
      exact (hk slot info hslot).interfaces t hlisted
  · cases ht

/-- Parents of an interface are interfaces. -/
theorem Kinded.isInterface_parent (hk : s.Kinded) (hs : s.WellFormed) {c p : TypeId} (hc : s.IsInterface c) (h : s.Parent c p) :
    s.IsInterface p := by
  obtain ⟨info, hinfo, ⟨hsome, -⟩ | hinterface⟩ := hk.parent_cases hs h
  · obtain ⟨slot, -, hslot⟩ := Option.bind_eq_some_iff.mp hinfo
    have hkind : info.flags.isInterface := by simpa [IsInterface, hinfo] using hc
    rw [(hk slot info hslot).super hkind] at hsome
    exact absurd hsome (by decide)
  · exact hinterface

/-- What is above an interface is an interface. -/
theorem Kinded.isInterface_above (hk : s.Kinded) (hs : s.WellFormed) {c d : TypeId} (hc : s.IsInterface c)
    (h : Relation.ReflTransGen s.Parent c d) : s.IsInterface d := by
  induction h with
  | refl => exact hc
  | tail _ hp ih => exact hk.isInterface_parent hs ih hp

/-- Of two classes above a class that are no interfaces, one is above the other. -/
theorem Kinded.chain (hk : s.Kinded) (hs : s.WellFormed) {c a b : TypeId} (ha : ¬ s.IsInterface a) (hb : ¬ s.IsInterface b)
    (hca : Relation.ReflTransGen s.Parent c a) (hcb : Relation.ReflTransGen s.Parent c b) :
    Relation.ReflTransGen s.Parent a b ∨ Relation.ReflTransGen s.Parent b a := by
  induction hca using Relation.ReflTransGen.head_induction_on with
  | refl => exact .inl hcb
  | @head c d hd hda ih =>
    cases hcb using Relation.ReflTransGen.head_induction_on with
    | refl => exact .inr (.head hd hda)
    | @head c d' hd' hdb =>
      -- both first steps go to the superclass, since no interface is below `a` or `b`
      obtain ⟨info, hinfo, ⟨-, rfl⟩ | hinterface⟩ := hk.parent_cases hs hd
      · obtain ⟨info', hinfo', ⟨-, rfl⟩ | hinterface'⟩ := hk.parent_cases hs hd'
        · obtain rfl := Option.some.inj (hinfo.symm.trans hinfo')
          exact ih hdb
        · exact absurd (hk.isInterface_above hs hinterface' hdb) hb
      · exact absurd (hk.isInterface_above hs hinterface hda) ha

/-- The root class of exceptions is a class below the root class. -/
theorem WellFormed.throwable_class (hs : s.WellFormed) : s.classOf .throwable = .throwable ∧ ¬ s.IsInterface .throwable := by
  have hshape : s.shape .throwable = .declared 18 := hs.shape_predefined (by decide) rfl
  refine ⟨by simp [classOf, hshape], ?_⟩
  rw [IsInterface, hs.classInfo_predefined hshape rfl]
  decide

/-- Classes of exceptions are neither interfaces nor the root class. -/
theorem Kinded.of_below_throwable (hk : s.Kinded) (hs : s.WellFormed) {t : TypeId} (h : s.isSubclass t .throwable) :
    ¬ s.IsInterface (s.classOf t) ∧ s.classOf t ≠ .object := by
  obtain ⟨hthrowable, hclass⟩ := hs.throwable_class
  obtain ⟨-, -, h⟩ := isSubclass_iff.mp h
  rw [hthrowable] at h
  rcases h with h | h
  · exact absurd h (by decide)
  · refine ⟨fun hinterface => hclass (hk.isInterface_above hs hinterface h), fun hobject => ?_⟩
    rw [hobject] at h
    exact absurd (eq_of_reachable hs.parents_object h) (by decide)

/-- Of two classes of exceptions above a class, one is a subclass of the other. -/
theorem Kinded.isSubclass_total (hk : s.Kinded) (hs : s.WellFormed) {ex a b : TypeId} (ha : s.isSubclass a .throwable)
    (hb : s.isSubclass b .throwable) (hexa : s.isSubclass ex a) (hexb : s.isSubclass ex b) :
    s.isSubclass a b ∨ s.isSubclass b a := by
  obtain ⟨hkinda, hobjecta⟩ := hk.of_below_throwable hs ha
  obtain ⟨hkindb, hobjectb⟩ := hk.of_below_throwable hs hb
  obtain ⟨-, hclassa, hreacha⟩ := isSubclass_iff.mp hexa
  obtain ⟨-, hclassb, hreachb⟩ := isSubclass_iff.mp hexb
  rcases hk.chain hs hkinda hkindb (hreacha.resolve_left hobjecta) (hreachb.resolve_left hobjectb) with h | h
  · exact .inl (isSubclass_iff.mpr ⟨hclassa, hclassb, .inr h⟩)
  · exact .inr (isSubclass_iff.mpr ⟨hclassb, hclassa, .inr h⟩)

end CallResolution.TypeStore
