import CallResolution.Proofs.Types.Hierarchy
import CallResolution.Resolve.Applicable

/-!
# Conversions compose and stay

Conversion by subtyping is a preorder away from the bad type, so what a callable offers can be
compared along a chain. Whether one known type converts to another one does not depend on what
a store learns afterwards, and neither does whether a callable accepts arguments.

Types are compared by their erasures, and these by the classes behind them, so transitivity is
shown from below: for classes it is that of reachability; arrays add the classes above arrays,
to which an array of anything is a subtype (`arraySubtype_trans`); then come erased types,
types, and conversions. The bad type is a subtype of every type and the other way round, so it
breaks the chain; it is the only one that does, and boxing goes on along a chain but does not
begin in the middle of one.

The second half goes through the same functions once more, from a store to an extension of it.
Each of them looks at known types, and at types that it reaches from these, which are known in
turn.

Main statements: `WellFormed.subtypeConverts_trans`, `Extends.subtypeConverts` and
`Extends.applicable`.
-/

namespace CallResolution

namespace TypeStore

variable {s s' : TypeStore}

/-! ## Erased types

What erasure gives: a bare type, and how many dimensions there are on top of it. That the bare
type has nothing left to erase is what makes the comparison of erased types one of classes.
-/

/-- Whether a shape has neither dimensions, arguments nor a bound. -/
def isRaw : TypeShape → Bool
  | .array _ _ | .applied _ _ | .typeVar _ => false
  | _ => true

/-- A number that is the class behind itself. -/
theorem classOf_of_isRaw {t : TypeId} (h : isRaw (s.shape t)) (hc : (s.classOf t).isSome) : s.classOf t = t := by
  unfold classOf at hc ⊢
  cases ht : s.shape t <;> simp_all [isRaw, TypeId.isSome]

/-- The bare type of an erased one: the type itself, or that of the elements of an array.
Subtyping of arrays comes down to that of their bare types. -/
def bare : Erased → TypeId
  | .plain t | .array t _ => t

@[simp] theorem bare_plain (t : TypeId) : bare (.plain t) = t := rfl

@[simp] theorem bare_array (t : TypeId) (d : UInt32) : bare (.array t d) = t := rfl

/-- The bare type of an array of an erased type. -/
theorem bare_arrayOf (e : Erased) (d : UInt32) : bare (e.arrayOf s d) = bare e := by
  cases e with
  | plain t =>
    simp only [Erased.arrayOf]
    split <;> rfl
  | array t d' => rfl

/-- Erasure leaves a bare type that has nothing to erase, as far as it was followed. When the
bounds of a type variable are followed too far, the root class is left in place of it. -/
theorem WellFormed.isRaw_bare (hs : s.WellFormed) (fuel : Nat) (t : TypeId) :
    isRaw (s.shape (bare (s.erasedWithin fuel t))) := by
  have declared {u : TypeId} (h : (s.shape u).isDeclared) : isRaw (s.shape u) := by
    cases hu : s.shape u <;> simp_all [TypeShape.isDeclared, isRaw]
  have object : isRaw (s.shape .object) := declared (by simp [hs.shape_object, TypeShape.isDeclared])
  induction fuel generalizing t with
  | zero =>
    unfold erasedWithin
    split
    · rename_i base args h
      exact declared (hs.base h)
    · rename_i e d h
      show isRaw (s.shape (s.erasedElem e))
      unfold erasedElem
      split
      · rename_i base args he
        exact declared (hs.base he)
      · exact object
      · have := (hs.elem h).1
        cases he : s.shape e <;> simp_all [TypeShape.isArray, isRaw]
    · exact object
    · show isRaw (s.shape t)
      cases ht : s.shape t <;> simp_all [isRaw]
  | succ fuel ih =>
    unfold erasedWithin
    split
    · rename_i base args h
      exact declared (hs.base h)
    · rename_i e d h
      simp only [bare_arrayOf]
      exact ih e
    · simp only
      split
      · exact ih _
      · exact object
    · show isRaw (s.shape t)
      cases ht : s.shape t <;> simp_all [isRaw]

/-- Erasure never comes upon the bad type. -/
theorem WellFormed.not_isBad_bare (hs : s.WellFormed) (fuel : Nat) {t : TypeId} (ht : ¬ s.isBad t) :
    ¬ s.isBad (bare (s.erasedWithin fuel t)) := by
  have declared {u : TypeId} (h : (s.shape u).isDeclared) : ¬ s.isBad u := by
    unfold isBad
    cases hu : s.shape u <;> simp_all [TypeShape.isDeclared]
  have object : ¬ s.isBad .object := declared (by simp [hs.shape_object, TypeShape.isDeclared])
  induction fuel generalizing t with
  | zero =>
    unfold erasedWithin
    split
    · rename_i base args h
      exact declared (hs.base h)
    · rename_i e d h
      show ¬ s.isBad (s.erasedElem e)
      unfold erasedElem
      split
      · rename_i base args he
        exact declared (hs.base he)
      · exact object
      · exact (hs.elem h).2
    · exact object
    · exact ht
  | succ fuel ih =>
    unfold erasedWithin
    split
    · rename_i base args h
      exact declared (hs.base h)
    · rename_i e d h
      simp only [bare_arrayOf]
      exact ih (hs.elem h).2
    · simp only
      split
      · rename_i b hb
        exact ih (by simpa [isBad] using (hs.denotes_firstBound hb).2.2)
      · exact object
    · exact ht

/-- A type that can be written down is erased to an array or to a type that can be written
down. Bounds can be written down, too, so following them never leads to the bad type or to
that of null. -/
theorem WellFormed.denotes_erased (hs : s.WellFormed) (fuel : Nat) {t u : TypeId} (ht : s.Denotes t)
    (h : s.erasedWithin fuel t = .plain u) : s.Denotes u := by
  have declared {v : TypeId} (hv : (s.shape v).isDeclared) : s.Denotes v := by
    unfold Denotes
    cases hu : s.shape v <;> simp_all [TypeShape.isDeclared]
  have object : s.Denotes .object := declared (by simp [hs.shape_object, TypeShape.isDeclared])
  induction fuel generalizing t with
  | zero =>
    unfold erasedWithin at h
    split at h
    · rename_i base args hb
      cases h
      exact declared (hs.base hb)
    · cases h
    · cases h
      exact object
    · cases h
      exact ht
  | succ fuel ih =>
    unfold erasedWithin at h
    split at h
    · rename_i base args hb
      cases h
      exact declared (hs.base hb)
    · rename_i e d he
      -- the element is not bad, so its array is an array
      have hbad := hs.not_isBad_bare fuel (hs.elem he).2
      simp only at h
      cases hx : s.erasedWithin fuel e with
      | plain v =>
        rw [hx] at h hbad
        have hv : s.isBad v = false := by simpa [bare] using hbad
        simp [Erased.arrayOf, hv] at h
      | array v d' => simp [hx, Erased.arrayOf] at h
    · simp only at h
      split at h
      · rename_i b hb
        exact ih (hs.denotes_firstBound hb) h
      · cases h
        exact object
    · cases h
      exact ht

/-- Reference types can be written down. -/
theorem denotes_of_isReference {t : TypeId} (h : s.isReference t) : s.Denotes t := by
  unfold isReference at h
  unfold Denotes
  cases ht : s.shape t <;> simp_all [TypeShape.isReference]

/-! ## Subtyping of erased types is transitive

From the bottom: elements are compared as classes or as themselves, arrays by dimensions and
elements, and an erased type is one of the two.
-/

/-- A type with a class behind it is a reference type. -/
theorem isReference_of_classOf {t : TypeId} (h : (s.classOf t).isSome) : s.isReference t := by
  unfold classOf at h
  unfold isReference
  cases ht : s.shape t <;> simp_all [TypeShape.isReference, TypeId.isSome]

/-- A subclass has a class behind it, and so has the superclass. -/
theorem classOf_of_isSubclass {a b : TypeId} (h : s.isSubclass a b) : (s.classOf a).isSome ∧ (s.classOf b).isSome :=
  let ⟨ha, hb, _⟩ := isSubclass_iff.mp h
  ⟨ha, hb⟩

/-- A declared class is a reference type. -/
theorem isReference_of_isDeclared {t : TypeId} (h : (s.shape t).isDeclared) : s.isReference t := by
  unfold isReference
  cases hshape : s.shape t <;> simp_all [TypeShape.isDeclared, TypeShape.isReference]

/-- The null type is no reference type. -/
theorem not_isReference_of_isNull {t : TypeId} (h : s.isNull t) : ¬ s.isReference t := by
  unfold isNull at h
  unfold isReference
  simp_all [TypeShape.isReference]

/-- The classes above arrays are reference types. -/
theorem WellFormed.isReference_arraySupertype (hs : s.WellFormed) {t : TypeId} (h : isArraySupertype t) :
    s.isReference t := by
  refine isReference_of_classOf ?_
  rw [hs.classOf_arraySupertype h]
  unfold isArraySupertype at h
  simp only [Bool.or_eq_true, decide_eq_true_eq] at h
  rcases h with (rfl | rfl) | rfl <;> decide

/-- Subtyping of element types is transitive. -/
theorem WellFormed.elementSubtype_trans (hs : s.WellFormed) {a b c : TypeId} (hab : s.elementSubtype a b)
    (hbc : s.elementSubtype b c) : s.elementSubtype a c := by
  unfold elementSubtype at *
  by_cases hb : s.isNull b
  · by_cases ha : s.isNull a
    · simp only [ha, if_true] at hab
      exact absurd hab (not_isReference_of_isNull hb)
    · simp only [ha] at hab
      exact absurd (isReference_of_classOf (classOf_of_isSubclass hab).2) (not_isReference_of_isNull hb)
  · simp only [hb] at hbc
    by_cases ha : s.isNull a
    · simp only [ha, if_true]
      exact isReference_of_classOf (classOf_of_isSubclass hbc).2
    · simp only [ha] at hab ⊢
      exact hs.isSubclass_trans hab hbc

/-- What is above a class above arrays, as an element, is one too. -/
theorem WellFormed.arraySupertype_of_elementSubtype (hs : s.WellFormed) {a b : TypeId} (ha : isArraySupertype a)
    (hb : isRaw (s.shape b)) (h : s.elementSubtype a b) : isArraySupertype b := by
  unfold elementSubtype at h
  have hn : s.isNull a = false := by
    by_contra hn
    exact not_isReference_of_isNull (by simpa using hn) (hs.isReference_arraySupertype ha)
  simp only [hn] at h
  exact hs.arraySupertype_of_isSubclass ha h (classOf_of_isRaw hb (classOf_of_isSubclass h).2)

/-- Subtyping of arrays of erased elements is transitive. With as many dimensions the elements
are compared; with more, what is above is an array of one of the classes above arrays; with
fewer, only arrays of the type of null are below. So each of the nine cases, by how the
dimensions compare, is one of elements or one of these exceptions. -/
theorem WellFormed.arraySubtype_trans (hs : s.WellFormed) {a b c : TypeId} {d d' d'' : UInt32}
    (hc : isRaw (s.shape c)) (hab : s.erasedSubtype (.array a d) (.array b d'))
    (hbc : s.erasedSubtype (.array b d') (.array c d'')) : s.erasedSubtype (.array a d) (.array c d'') := by
  by_cases hxy : Erased.array a d = .array b d'
  · rwa [hxy]
  by_cases hyz : Erased.array b d' = .array c d''
  · rwa [← hyz]
  have hnull {t : TypeId} (h : isArraySupertype t) : s.isNull t = false := by
    by_contra hn
    exact not_isReference_of_isNull (by simpa using hn) (hs.isReference_arraySupertype h)
  simp only [erasedSubtype, Bool.or_eq_true, decide_eq_true_eq, hxy, hyz, false_or] at hab hbc ⊢
  refine .inr ?_
  generalize arrayDepth d = m, arrayDepth d' = n, arrayDepth d'' = k at *
  rcases Nat.lt_trichotomy m n with hmn | rfl | hmn
  · -- an array of the null type lies below deeper arrays
    simp only [Nat.ne_of_lt hmn, if_false, hmn, if_true] at hab
    rcases Nat.lt_trichotomy n k with hnk | rfl | hnk
    · simp [Nat.ne_of_lt (Nat.lt_trans hmn hnk), Nat.lt_trans hmn hnk, hab]
    · simp [Nat.ne_of_lt hmn, hmn, hab]
    · simp only [Nat.ne_of_gt hnk, if_false, Nat.not_lt_of_gt hnk] at hbc
      rcases Nat.lt_trichotomy m k with hmk | rfl | hmk
      · simp [Nat.ne_of_lt hmk, hmk, hab]
      · simp [elementSubtype, hab, hs.isReference_arraySupertype hbc]
      · simp [Nat.ne_of_gt hmk, Nat.not_lt_of_gt hmk, hbc]
  · simp only [if_true, Bool.or_eq_true, decide_eq_true_eq] at hab
    rcases Nat.lt_trichotomy m k with hmk | rfl | hmk
    · simp only [Nat.ne_of_lt hmk, if_false, hmk, if_true] at hbc ⊢
      rcases hab with rfl | hab
      · exact hbc
      · unfold elementSubtype at hab
        split at hab
        · assumption
        · exact absurd (isReference_of_classOf (classOf_of_isSubclass hab).2) (not_isReference_of_isNull hbc)
    · simp only [if_true, Bool.or_eq_true, decide_eq_true_eq] at hbc ⊢
      rcases hab with rfl | hab
      · exact hbc
      · rcases hbc with rfl | hbc
        · exact .inr hab
        · exact .inr (hs.elementSubtype_trans hab hbc)
    · simp only [Nat.ne_of_gt hmk, if_false, Nat.not_lt_of_gt hmk] at hbc ⊢
      exact hbc
  · -- the middle type is an array of a class above arrays
    simp only [Nat.ne_of_gt hmn, if_false, Nat.not_lt_of_gt hmn] at hab
    rcases Nat.lt_trichotomy n k with hnk | rfl | hnk
    · simp [Nat.ne_of_lt hnk, hnk, hnull hab] at hbc
    · simp only [if_true, Bool.or_eq_true, decide_eq_true_eq] at hbc
      simp only [Nat.ne_of_gt hmn, if_false, Nat.not_lt_of_gt hmn]
      rcases hbc with rfl | hbc
      · exact hab
      · exact hs.arraySupertype_of_elementSubtype hab hc hbc
    · simp only [Nat.ne_of_gt hnk, if_false, Nat.not_lt_of_gt hnk] at hbc
      have hmk : k < m := Nat.lt_trans hnk hmn
      simp [Nat.ne_of_gt hmk, Nat.not_lt_of_gt hmk, hbc]

/-- Subtyping of erased types is transitive. -/
theorem WellFormed.erasedSubtype_trans (hs : s.WellFormed) {x y z : Erased} (hz : isRaw (s.shape (bare z)))
    (hxy : s.erasedSubtype x y) (hyz : s.erasedSubtype y z) : s.erasedSubtype x z := by
  cases x with
  | plain a =>
    cases y with
    | plain b =>
      cases z with
      | plain c =>
        simp only [erasedSubtype, Erased.plain.injEq, Bool.or_eq_true, decide_eq_true_eq] at *
        rcases hxy with rfl | hxy
        · exact hyz
        · rcases hyz with rfl | hyz
          · exact .inr hxy
          · exact .inr (hs.isSubclass_trans hxy hyz)
      | array c d => simp [erasedSubtype] at hyz
    | array b d => simp [erasedSubtype] at hxy
  | array a d =>
    cases y with
    | plain b =>
      cases z with
      | plain c =>
        simp only [erasedSubtype, Erased.plain.injEq, Bool.or_eq_true, decide_eq_true_eq, reduceCtorEq,
          false_or] at *
        rcases hyz with rfl | hyz
        · exact hxy
        · exact hs.arraySupertype_of_isSubclass hxy hyz (classOf_of_isRaw hz (classOf_of_isSubclass hyz).2)
      | array c d => simp [erasedSubtype] at hyz
    | array b d' =>
      cases z with
      | plain c => simpa [erasedSubtype] using hyz
      | array c d'' => exact hs.arraySubtype_trans hz hxy hyz

/-! ## Conversion by subtyping is transitive

Types in general are compared by their erasures, apart from a few that are compared by
themselves. The bad type is left out, since it is related to everything.
-/

/-- A type that is no reference is erased to itself. -/
theorem erased_of_not_isReference {t : TypeId} (h : ¬ s.isReference t) : s.erased t = .plain t := by
  unfold isReference at h
  unfold erased erasedWithin
  cases ht : s.shape t <;> simp_all [TypeShape.isReference]

/-- Only itself is below or above a type without a class, as far as erased types that are no
arrays are concerned. -/
theorem not_isSubclass_of_not_isReference {a b : TypeId} (h : ¬ s.isReference a ∨ ¬ s.isReference b) :
    ¬ s.isSubclass a b := by
  intro hsub
  obtain ⟨ha, hb⟩ := classOf_of_isSubclass hsub
  rcases h with h | h
  · exact h (isReference_of_classOf ha)
  · exact h (isReference_of_classOf hb)

/-- What is above a reference type is one too. -/
theorem WellFormed.isReference_of_erasedSubtype (hs : s.WellFormed) {b c : TypeId} (hb : s.isReference b)
    (hc : ¬ isPlainlyCompared (s.shape c)) (h : s.erasedSubtype (s.erased b) (s.erased c)) : s.isReference c := by
  by_contra href
  rw [erased_of_not_isReference href] at h
  cases he : s.erased b with
  | plain u =>
    rw [he] at h
    simp only [erasedSubtype, Erased.plain.injEq, Bool.or_eq_true, decide_eq_true_eq] at h
    rcases h with rfl | h
    · obtain ⟨h1, h2, h3⟩ := hs.denotes_erased _ (denotes_of_isReference hb) he
      unfold isReference at href
      cases hu : s.shape u <;> simp_all [TypeShape.isReference, isPlainlyCompared, TypeShape.isPrimitive]
    · exact not_isSubclass_of_not_isReference (.inr href) h
  | array e d =>
    rw [he] at h
    simp only [erasedSubtype, Bool.or_eq_true, decide_eq_true_eq, reduceCtorEq, false_or] at h
    exact href (hs.isReference_arraySupertype h)

/-- When a type that is not bad is a subtype of another one: they are the same, or the first
one is the type of null and the second one a reference type, or both are compared by their
erasures. This is the form in which the later proofs take the comparison apart. -/
theorem isSubtype_iff {a b : TypeId} (ha : ¬ s.isBad a) (hb : ¬ s.isBad b) : s.isSubtype a b ↔
    a = b ∨ (s.isNull a ∧ s.isReference b) ∨ (s.isComparedErased a b ∧ s.erasedSubtype (s.erased a) (s.erased b)) := by
  unfold isSubtype
  split
  · rename_i h
    have hne : a ≠ b ∧ ¬ s.isNull a := by
      simp only [isComparedErased, Bool.and_eq_true, Bool.not_eq_true', Bool.or_eq_false_iff] at h
      exact ⟨by simpa using h.1, by simp [h.2.2]⟩
    simp [h, hne]
  · rename_i h
    unfold isBad at ha hb
    simp [h, isNull, isReference] at *
    simp [ha, hb]

/-- Subtyping is transitive away from the bad type. The type of null is below all reference
types and above none, and types that are compared by their shape alone are below themselves
only; what is left is transitivity for erased types. -/
theorem WellFormed.isSubtype_trans (hs : s.WellFormed) {a b c : TypeId} (ha : ¬ s.isBad a) (hb : ¬ s.isBad b)
    (hc : ¬ s.isBad c) (hab : s.isSubtype a b) (hbc : s.isSubtype b c) : s.isSubtype a c := by
  rcases (isSubtype_iff hb hc).mp hbc with rfl | hbc'
  · exact hab
  rcases (isSubtype_iff ha hb).mp hab with rfl | ⟨hnull, href⟩ | ⟨hcmp, hsub⟩
  · exact hbc
  · rcases hbc' with ⟨hnull', -⟩ | ⟨hcmp', hsub'⟩
    · exact absurd href (not_isReference_of_isNull hnull')
    · refine (isSubtype_iff ha hc).mpr (.inr (.inl ⟨hnull, ?_⟩))
      refine hs.isReference_of_erasedSubtype href ?_ hsub'
      simp only [isComparedErased, Bool.and_eq_true, Bool.not_eq_true', Bool.or_eq_false_iff] at hcmp'
      simp [hcmp'.2.1.2]
  · simp only [isComparedErased, Bool.and_eq_true, Bool.not_eq_true', Bool.or_eq_false_iff, decide_eq_true_eq] at hcmp
    obtain ⟨hne, ⟨hpa, hpb⟩, hna⟩ := hcmp
    rcases hbc' with ⟨hnull, -⟩ | ⟨hcmp', hsub'⟩
    · -- nothing but the null type is below the null type
      have hrb := not_isReference_of_isNull hnull
      by_cases hra : s.isReference a
      · exact absurd (hs.isReference_of_erasedSubtype hra (by simp [hpb]) hsub) hrb
      · rw [erased_of_not_isReference hra, erased_of_not_isReference hrb] at hsub
        simp only [erasedSubtype, Erased.plain.injEq, hne, decide_false, Bool.false_or] at hsub
        exact absurd hsub (not_isSubclass_of_not_isReference (.inl hra))
    · simp only [isComparedErased, Bool.and_eq_true, Bool.not_eq_true', Bool.or_eq_false_iff] at hcmp'
      by_cases hac : a = c
      · exact (isSubtype_iff ha hc).mpr (.inl hac)
      · refine (isSubtype_iff ha hc).mpr (.inr (.inr ⟨?_, ?_⟩))
        · simp [isComparedErased, hac, hpa, hna, hcmp'.2.1.2]
        · exact hs.erasedSubtype_trans (hs.isRaw_bare _ _) hsub hsub'

/-- Widening of primitive types is transitive. -/
theorem primitiveWidens_trans {p q r : Primitive} (hpq : primitiveWidens p q) (hqr : primitiveWidens q r) :
    primitiveWidens p r := by
  revert hpq hqr
  cases p <;> cases q <;> cases r <;> decide

/-- Widening is transitive. -/
theorem isWidening_trans {a b c : TypeId} (hac : a ≠ c) (hab : s.isWidening a b) (hbc : s.isWidening b c) :
    s.isWidening a c := by
  by_cases h : a = b
  · rwa [h]
  by_cases h' : b = c
  · rwa [← h']
  unfold isWidening at *
  simp only [h, h', hac, if_false] at *
  cases ha : s.shape a <;> cases hb : s.shape b <;> cases hc : s.shape c <;> simp_all
  exact primitiveWidens_trans hab hbc

/-- Conversion by subtyping and widening is transitive. Primitive types widen among themselves
and never convert to a reference type in this way, so a chain is one of widenings or one of
subtypes. -/
theorem WellFormed.subtypeConverts_trans (hs : s.WellFormed) {a b c : TypeId} (hab : s.subtypeConverts a b)
    (hbc : s.subtypeConverts b c) : s.subtypeConverts a c := by
  unfold subtypeConverts at *
  by_cases hb : s.isBad b
  · simp [hb] at hab
  by_cases hc : s.isBad c
  · simp [hc] at hbc
  by_cases ha : s.isBad a
  · simp [hc, ha]
  by_cases hac : a = c
  · simp [hc, hac]
  by_cases h : a = b
  · simp_all
  by_cases h' : b = c
  · simp_all
  simp only [ha, hb, hc, h, h', hac, if_false, Bool.false_eq_true] at hab hbc ⊢
  cases hpa : s.isPrimitive a <;> cases hpb : s.isPrimitive b <;> cases hpc : s.isPrimitive c <;>
    simp only [hpa, hpb, hpc, Bool.false_eq_true] at hab hbc ⊢
  · exact hs.isSubtype_trans ha hb hc hab hbc
  · exact isWidening_trans hac hab hbc

/-- Every type is a subtype of itself. -/
theorem isSubtype_refl (s : TypeStore) (t : TypeId) : s.isSubtype t t := by
  simp [isSubtype, isComparedErased]

/-- The bad type is a subtype of every type, and every type is one of it. -/
theorem isSubtype_of_isBad {a b : TypeId} (h : s.isBad a ∨ s.isBad b) : s.isSubtype a b := by
  unfold isBad at h
  rcases h with h | h <;> simp_all [isSubtype, isComparedErased, isPlainlyCompared]

/-- Subtyping is transitive where the type in the middle is not bad. -/
theorem WellFormed.isSubtype_trans_of_not_isBad (hs : s.WellFormed) {a b c : TypeId} (hb : ¬ s.isBad b)
    (hab : s.isSubtype a b) (hbc : s.isSubtype b c) : s.isSubtype a c := by
  by_cases ha : s.isBad a
  · exact isSubtype_of_isBad (.inl ha)
  by_cases hc : s.isBad c
  · exact isSubtype_of_isBad (.inr hc)
  exact hs.isSubtype_trans ha hb hc hab hbc

/-- A type converts to itself unless it is bad. -/
theorem subtypeConverts_self_iff {t : TypeId} : s.subtypeConverts t t ↔ ¬ s.isBad t := by
  unfold subtypeConverts
  cases s.isBad t <;> simp

/-- A value of a primitive type is a value of it in every conversion that follows. -/
theorem isWidening_of_isPrimitive {a b c : TypeId} (hc : s.isPrimitive c) (hab : s.isWidening a b) (hbc : s.isWidening b c) :
    s.isWidening a c := by
  by_cases hac : a = c
  · subst hac
    simpa [isWidening] using hc
  · exact isWidening_trans hac hab hbc

/-- What boxes or unboxes to a type that is not bad also does so to what that converts to by
subtyping. -/
theorem WellFormed.boxingConverts_trans (hs : s.WellFormed) {a b c : TypeId} (hb : ¬ s.isBad b)
    (hab : s.boxingConverts a b) (hbc : s.subtypeConverts b c) : s.boxingConverts a c := by
  by_cases heq : b = c
  · rwa [← heq]
  have hc : ¬ s.isBad c := fun hc => by simp [subtypeConverts, hc] at hbc
  unfold subtypeConverts at hbc
  unfold boxingConverts at hab ⊢
  cases hpa : s.isPrimitive a <;> cases hpb : s.isPrimitive b <;> cases hpc : s.isPrimitive c <;>
    simp only [hpa, hpb, hpc, hb, hc, heq, if_false, Bool.false_eq_true, Bool.and_eq_true] at hab hbc ⊢
  · exact ⟨hab.1, isWidening_of_isPrimitive hpc hab.2 hbc⟩
  · exact ⟨hab.1, hs.isSubtype_trans_of_not_isBad hb hab.2 hbc⟩

/-- What converts to a type that is not bad, by boxing or without, converts to what that
converts to by subtyping. The other order fails: a type that boxes does not take part in a
comparison behind it. -/
theorem WellFormed.invocationConverts_trans (hs : s.WellFormed) {a b c : TypeId} (hb : ¬ s.isBad b)
    (hab : s.invocationConverts a b) (hbc : s.subtypeConverts b c) : s.invocationConverts a c := by
  unfold invocationConverts at *
  rw [Bool.or_eq_true] at hab ⊢
  exact hab.imp (fun h => hs.subtypeConverts_trans h hbc) fun h => hs.boxingConverts_trans hb h hbc

/-! ## Extensions keep conversions

Each function is followed on known types, in the order in which they call one another. What
they look up is kept by the extension, and what they pass on is known.
-/

/-- The erasure of a known type is known. -/
theorem WellFormed.knows_bare (hs : s.WellFormed) (fuel : Nat) {t : TypeId} (ht : s.Knows t) :
    s.Knows (bare (s.erasedWithin fuel t)) := by
  have object : s.Knows .object := hs.knows_predefined (by decide)
  induction fuel generalizing t with
  | zero =>
    unfold erasedWithin
    split
    · rename_i base args h
      exact knows_of_isDeclared (hs.base h)
    · rename_i e d h
      exact hs.knows_erasedElem (hs.knows_elem h)
    · exact object
    · exact ht
  | succ fuel ih =>
    unfold erasedWithin
    split
    · rename_i base args h
      exact knows_of_isDeclared (hs.base h)
    · rename_i e d h
      simp only [bare_arrayOf]
      exact ih (hs.knows_elem h)
    · simp only
      split
      · rename_i b hb
        exact ih (hs.denotes_firstBound hb).knows
      · exact object
    · exact ht

namespace Extends

variable (h : Extends s s') (hs : s.WellFormed)
include h

/-- Whether a known type is bad stays. -/
theorem isBad {t : TypeId} (ht : s.Knows t) : s'.isBad t = s.isBad t := by
  unfold TypeStore.isBad
  rw [h.shape ht]

/-- Whether a known type is the null type stays. -/
theorem isNull {t : TypeId} (ht : s.Knows t) : s'.isNull t = s.isNull t := by
  unfold TypeStore.isNull
  rw [h.shape ht]

/-- Whether a known type is primitive stays. -/
theorem isPrimitive {t : TypeId} (ht : s.Knows t) : s'.isPrimitive t = s.isPrimitive t := by
  unfold TypeStore.isPrimitive
  rw [h.shape ht]

/-- Whether a known type is a reference type stays. -/
theorem isReference {t : TypeId} (ht : s.Knows t) : s'.isReference t = s.isReference t := by
  unfold TypeStore.isReference
  rw [h.shape ht]

include hs

/-- The erasure of a known type stays. -/
theorem erasedWithin (fuel : Nat) {t : TypeId} (ht : s.Knows t) : s'.erasedWithin fuel t = s.erasedWithin fuel t := by
  induction fuel generalizing t with
  | zero =>
    unfold TypeStore.erasedWithin
    rw [h.shape ht]
    cases hshape : s.shape t with
    | array e d =>
      simp only [erasedElem]
      rw [h.shape (hs.knows_elem hshape)]
    | _ => rfl
  | succ fuel ih =>
    unfold TypeStore.erasedWithin
    rw [h.shape ht]
    cases hshape : s.shape t with
    | array e d =>
      have he := hs.knows_elem hshape
      simp only [ih he]
      cases hx : s.erasedWithin fuel e with
      | plain u =>
        have hu : s.Knows u := by simpa [hx] using hs.knows_bare fuel he
        simp only [Erased.arrayOf, h.isBad hu]
      | array u d' => rfl
    | typeVar slot =>
      simp only [h.typeVariable hs ht]
      split
      · rename_i b hb
        exact ih (hs.denotes_firstBound hb).knows
      · rfl
    | _ => rfl

/-- The erasure of a known type stays. -/
theorem erased {t : TypeId} (ht : s.Knows t) : s'.erased t = s.erased t :=
  h.erasedWithin hs boundLimit ht

/-- Subtyping of known erased types stays. -/
theorem erasedSubtype {x y : Erased} (hx : s.Knows (bare x)) (hy : s.Knows (bare y)) :
    s'.erasedSubtype x y = s.erasedSubtype x y := by
  cases x with
  | plain a =>
    cases y with
    | plain b =>
      simp only [bare_plain] at hx hy
      simp only [TypeStore.erasedSubtype, h.isSubclass hs hx hy]
    | array b d => rfl
  | array a d =>
    cases y with
    | plain b => rfl
    | array b d' =>
      simp only [bare_array] at hx hy
      simp only [TypeStore.erasedSubtype, elementSubtype, h.isSubclass hs hx hy, h.isNull hx, h.isReference hy]

/-- Subtyping of known types stays. -/
theorem isSubtype {a b : TypeId} (ha : s.Knows a) (hb : s.Knows b) : s'.isSubtype a b = s.isSubtype a b := by
  unfold TypeStore.isSubtype isComparedErased
  rw [h.shape ha, h.shape hb, h.isNull ha, h.erased hs ha, h.erased hs hb]
  rw [h.erasedSubtype (x := s.erased a) (y := s.erased b) hs (hs.knows_bare _ ha) (hs.knows_bare _ hb)]

omit hs in
/-- Widening of known types stays. -/
theorem isWidening {a b : TypeId} (ha : s.Knows a) (hb : s.Knows b) : s'.isWidening a b = s.isWidening a b := by
  unfold TypeStore.isWidening
  rw [h.shape ha, h.shape hb, h.isPrimitive ha]

/-- Conversion of known types by subtyping stays. -/
theorem subtypeConverts {a b : TypeId} (ha : s.Knows a) (hb : s.Knows b) :
    s'.subtypeConverts a b = s.subtypeConverts a b := by
  unfold TypeStore.subtypeConverts
  rw [h.isBad ha, h.isBad hb, h.isPrimitive ha, h.isPrimitive hb, h.isWidening ha hb, h.isSubtype hs ha hb]

/-- The primitive type behind a known wrapper stays. -/
theorem unboxed {t : TypeId} (ht : s.Knows t) : s'.unboxed t = s.unboxed t := by
  unfold TypeStore.unboxed
  rw [h.erased hs ht]
  cases hx : s.erased t with
  | plain u =>
    have hu : s.Knows u := by
      unfold TypeStore.erased at hx
      simpa [hx] using hs.knows_bare boundLimit ht
    simp only [unbox, h.classOf hu]
  | array u d => rfl

/-- Boxing and unboxing of known types stay. The wrapper of a primitive type is a predefined
class, and what it is a subtype of was settled before anything was declared. -/
theorem boxingConverts {a b : TypeId} (ha : s.Knows a) (hb : s.Knows b) :
    s'.boxingConverts a b = s.boxingConverts a b := by
  have hbox : s'.box a = s.box a := by
    unfold box
    rw [h.shape ha]
  have hboxed : s.Knows (s.box a) := by
    unfold box
    split
    · rename_i p _
      refine hs.knows_predefined ?_
      cases p <;> decide
    · exact hs.knows_none
  have hunboxed : s.Knows (s.unboxed a) := by
    unfold TypeStore.unboxed
    split
    · unfold unbox
      split
      · rename_i p _
        refine hs.knows_predefined ?_
        cases p <;> decide
      · exact hs.knows_none
    · exact hs.knows_none
  unfold TypeStore.boxingConverts
  rw [h.isPrimitive ha, h.isPrimitive hb, hbox, h.isSubtype hs hboxed hb, h.isReference ha, h.unboxed hs ha,
    h.isWidening hunboxed hb]

/-- Conversion of known types stays. -/
theorem invocationConverts {a b : TypeId} (ha : s.Knows a) (hb : s.Knows b) :
    s'.invocationConverts a b = s.invocationConverts a b := by
  unfold TypeStore.invocationConverts
  rw [h.subtypeConverts hs ha hb, h.boxingConverts hs ha hb]

end Extends

/-- Arguments convert to parameters when each one converts to the one at its place. -/
theorem allConvert_iff {c : TypeId → TypeId → Bool} {args params : List TypeId} :
    allConvert c args params = true ↔ List.Forall₂ (fun a p => c a p = true) args params := by
  induction args generalizing params with
  | nil => cases params <;> simp [allConvert]
  | cons a args ih => cases params <;> simp [allConvert, ih]

/-- Lists convert alike when their elements do. -/
theorem allConvert_congr {f f' : TypeId → TypeId → Bool} {args params : List TypeId}
    (h : ∀ a ∈ args, ∀ p ∈ params, f a p = f' a p) : allConvert f args params = allConvert f' args params := by
  induction args generalizing params with
  | nil => cases params <;> rfl
  | cons a args ih =>
    cases params with
    | nil => rfl
    | cons p params =>
      simp only [allConvert]
      rw [h a (by simp) p (by simp), ih fun b hb q hq => h b (by simp [hb]) q (by simp [hq])]

end TypeStore

/-! ## Extensions keep applicability

Whether a callable accepts arguments is put together from conversions of single arguments, and
these stay.
-/

namespace Formals

/-- What a store knows of the parameters that a callable offers. -/
structure Known (s : TypeStore) (f : Formals) : Prop where
  /-- The parameter types. -/
  params : ∀ p ∈ f.params, s.Knows p
  /-- The element type of the last one. -/
  element : s.Knows f.element

/-- Parameters stay known. -/
theorem Known.grows {s s' : TypeStore} {f : Formals} (hf : f.Known s) (h : s.Grows s') : f.Known s' :=
  ⟨fun p hp => h.knows (hf.params p hp), h.knows hf.element⟩

/-- Applicability with exact arity depends on how arguments convert to parameters only. -/
theorem fixedArity_congr {f : Formals} {c c' : TypeId → TypeId → Bool} {args : List TypeId}
    (h : ∀ a ∈ args, ∀ p ∈ f.params, c a p = c' a p) : f.fixedArity c args = f.fixedArity c' args := by
  unfold fixedArity
  rw [TypeStore.allConvert_congr h]

/-- Applicability with variable arity depends on how arguments convert to parameters and to
the element type only. -/
theorem variableArity_congr {f : Formals} {c c' : TypeId → TypeId → Bool} {args : List TypeId}
    (h : ∀ a ∈ args, ∀ p ∈ f.params, c a p = c' a p) (he : ∀ a ∈ args, c a f.element = c' a f.element) :
    f.variableArity c args = f.variableArity c' args := by
  unfold variableArity
  split
  · rename_i last hv hlast
    simp only
    rw [TypeStore.allConvert_congr fun a ha p hp => h a (List.mem_of_mem_take ha) p (List.mem_of_mem_dropLast hp)]
    unfold variableTail
    rw [TypeStore.allConvert_congr fun a ha p hp => h a (List.mem_of_mem_drop ha) p
      (List.mem_singleton.mp hp ▸ List.mem_of_getLast? hlast)]
    have : (args.drop f.params.dropLast.length).all (c · f.element)
        = (args.drop f.params.dropLast.length).all (c' · f.element) := by
      rw [Bool.eq_iff_iff, List.all_eq_true, List.all_eq_true]
      exact forall₂_congr fun a ha => by rw [he a (List.mem_of_mem_drop ha)]
    rw [this]
  · rfl

end Formals

/-- Whether known parameters accept known arguments stays. -/
theorem TypeStore.Extends.applicable {s s' : TypeStore} (h : s.Extends s') (hs : s.WellFormed) {f : Formals}
    (hf : f.Known s) {args : List TypeId} (ha : ∀ a ∈ args, s.Knows a) (ph : Phase) :
    f.applicable s' args ph = f.applicable s args ph := by
  cases ph with
  | none => rfl
  | strict => exact Formals.fixedArity_congr fun a ha' p hp => h.subtypeConverts hs (ha a ha') (hf.params p hp)
  | loose => exact Formals.fixedArity_congr fun a ha' p hp => h.invocationConverts hs (ha a ha') (hf.params p hp)
  | variadic =>
    refine Formals.variableArity_congr (fun a ha' p hp => ?_) (fun a ha' => ?_)
    · exact h.invocationConverts hs (ha a ha') (hf.params p hp)
    · exact h.invocationConverts hs (ha a ha') hf.element

end CallResolution
