import CallResolution.Proofs.Types.Settled

/-!
# Types with the same erasure

Subtyping of references compares erasures. So a parameter may give way to another one with the
same erasure, and a type converts to its own erasure. Two oddities that a store may have are
in the way of this: a type variable may be bounded by a primitive type, and the dimensions of
an array are counted in a word that wraps around to none.

The first one is excluded for all type variables (`ReferenceBounds`), since any of them may be
met in a parameter. The second one matters only for arrays that are met on the way from a type
to its erasure. The elements of an array are no array, so these are the type itself and the
bounds of type variables: `ErasableBounds` excludes both oddities for bounds, and
`Dimensioned` the second one for a single type. A store without them (`Regular`) has such
bounds, and so has one whose bounds are written like classes and type variables (`Bounded`),
whatever arrays there are.

Main statements: `invocationConverts_of_sameErasure` and `invocationConverts_erasure`.
-/

namespace CallResolution.TypeStore

variable {g : Guard} {s s' : TypeStore}

/-- Type variables are bounded by reference types. -/
def ReferenceBounds (s : TypeStore) : Prop :=
  ∀ v ∈ s.typeVars, ∀ b ∈ v.bounds, s.isReference b

/-- A store without the oddities that erasure stumbles over. -/
structure Regular (s : TypeStore) : Prop where
  /-- Type variables are bounded by reference types. -/
  bounds : s.ReferenceBounds
  /-- Arrays have dimensions. -/
  arrays : ∀ e, TypeShape.array e 0 ∉ s.shapes

/-- A type is no array without dimensions. -/
def Dimensioned (s : TypeStore) (t : TypeId) : Prop :=
  ∀ e, s.shape t ≠ .array e 0

/-- Type variables are bounded by reference types that are no arrays without dimensions. -/
structure ErasableBounds (s : TypeStore) : Prop where
  /-- Bounds are reference types. -/
  reference : s.ReferenceBounds
  /-- Bounds that are arrays have dimensions. -/
  dimensioned : ∀ v ∈ s.typeVars, ∀ b ∈ v.bounds, s.Dimensioned b

/-- A store without oddities has no arrays without dimensions. -/
theorem Regular.dimensioned (h : s.Regular) (t : TypeId) : s.Dimensioned t :=
  fun e hshape => h.arrays e (Array.mem_of_getElem? (getElem?_of_shape hshape (by simp)))

/-- A store without oddities has no odd bounds. -/
theorem Regular.erasableBounds (h : s.Regular) : s.ErasableBounds :=
  ⟨h.bounds, fun _ _ b _ => h.dimensioned b⟩

/-- Proper bounds are no arrays at all. -/
theorem Bounded.erasableBounds (h : s.Bounded) : s.ErasableBounds where
  reference v hv b hb := (h v hv b hb).1
  dimensioned v hv b hb e hshape := (h v hv b hb).2 (by simp [isArray, hshape, TypeShape.isArray])

/-- The elements of an array are no array. -/
theorem WellFormed.dimensioned_elem (hs : s.WellFormed) {t e : TypeId} {d : UInt32} (h : s.shape t = .array e d) :
    s.Dimensioned e := by
  intro e' hshape
  simpa [hshape, TypeShape.isArray] using (hs.elem h).1

/-- The first bound of a type variable is one of its bounds. -/
theorem exists_of_firstBound {t b : TypeId} (hb : ((s.typeVariable? t).elim [] (·.bounds)).head? = some b) :
    ∃ v ∈ s.typeVars, b ∈ v.bounds := by
  cases hv : s.typeVariable? t with
  | none => simp [hv] at hb
  | some v =>
    rw [hv] at hb
    unfold typeVariable? at hv
    split at hv
    · exact ⟨v, Array.mem_of_getElem? hv, List.mem_of_head? hb⟩
    · cases hv

/-- The first bound of a type variable is a reference type. -/
theorem ReferenceBounds.isReference_firstBound (h : s.ReferenceBounds) {t b : TypeId}
    (hb : ((s.typeVariable? t).elim [] (·.bounds)).head? = some b) : s.isReference b := by
  obtain ⟨v, hv, hmem⟩ := exists_of_firstBound hb
  exact h v hv b hmem

/-- A type that can be written as a shape of references is not bad. -/
theorem not_isBad_of_isReference {t : TypeId} (h : s.isReference t) : ¬ s.isBad t :=
  (denotes_of_isReference h).genuine.2

/-! ## Parameters with the same erasure

Two types with one erasure are the same, or both are references. References are compared by
their erasures, so one may be passed where the other one is expected.
-/

/-- A reference type does not erase to anything else. -/
theorem WellFormed.isReference_of_erased (hs : s.WellFormed) (hr : s.ReferenceBounds) {t u : TypeId} (ht : s.isReference t)
    (fuel : Nat) (h : s.erasedWithin fuel t = .plain u) : s.isReference u := by
  have object : s.isReference .object := isReference_of_isDeclared (by simp [hs.shape_object, TypeShape.isDeclared])
  induction fuel generalizing t with
  | zero =>
    unfold erasedWithin at h
    split at h
    · rename_i base args hshape
      cases h
      exact isReference_of_isDeclared (hs.base hshape)
    · cases h
    · cases h
      exact object
    · cases h
      exact ht
  | succ fuel ih =>
    unfold erasedWithin at h
    split at h
    · rename_i base args hshape
      cases h
      exact isReference_of_isDeclared (hs.base hshape)
    · rename_i e d hshape
      -- an array is erased to an array, for its elements are not bad
      have hbare := hs.not_isBad_bare fuel (hs.elem hshape).2
      cases he : s.erasedWithin fuel e with
      | plain w => simp_all [Erased.arrayOf]
      | array w k => simp [he, Erased.arrayOf] at h
    · simp only at h
      split at h
      · rename_i b hb
        exact ih (hr.isReference_firstBound hb) h
      · cases h
        exact object
    · cases h
      exact ht

/-- Different types with one erasure are reference types. -/
theorem WellFormed.eq_or_isReference (hs : s.WellFormed) (hr : s.ReferenceBounds) {p q : TypeId} (h : s.erased p = s.erased q) :
    p = q ∨ s.isReference p ∧ s.isReference q := by
  by_cases hp : s.isReference p
  · by_cases hq : s.isReference q
    · exact .inr ⟨hp, hq⟩
    · rw [erased_of_not_isReference hq] at h
      exact absurd (hs.isReference_of_erased hr hp _ h) hq
  · rw [erased_of_not_isReference hp] at h
    by_cases hq : s.isReference q
    · exact absurd (hs.isReference_of_erased hr hq _ h.symm) hp
    · rw [erased_of_not_isReference hq] at h
      exact .inl (Erased.plain.inj h)

/-- A reference type is not compared by its shape alone. -/
theorem not_isPlainlyCompared_of_isReference {t : TypeId} (h : s.isReference t) : isPlainlyCompared (s.shape t) = false := by
  unfold isReference at h
  cases hshape : s.shape t <;> simp_all [TypeShape.isReference, isPlainlyCompared, TypeShape.isPrimitive]

/-- A reference type is not primitive. -/
theorem isPrimitive_of_isReference {t : TypeId} (h : s.isReference t) : s.isPrimitive t = false := by
  have := not_isPlainlyCompared_of_isReference h
  simp_all [isPlainlyCompared, isPrimitive]

/-- A supertype may give way to a reference type with the same erasure. -/
theorem isSubtype_of_sameErasure {a p q : TypeId} (hp : s.isReference p) (hq : s.isReference q)
    (h : s.erased p = s.erased q) (hsub : s.isSubtype a p) : s.isSubtype a q := by
  by_cases ha : s.isBad a
  · exact isSubtype_of_isBad (.inl ha)
  have hnull : ¬ s.isNull p := fun hnull => not_isReference_of_isNull hnull hp
  rw [isSubtype_iff ha (not_isBad_of_isReference hp)] at hsub
  rw [isSubtype_iff ha (not_isBad_of_isReference hq)]
  by_cases haq : a = q
  · exact .inl haq
  refine .inr ?_
  rcases hsub with rfl | ⟨hanull, -⟩ | ⟨hcompared, herased⟩
  · refine .inr ⟨?_, by simp [h, erasedSubtype]⟩
    simp [isComparedErased, haq, not_isPlainlyCompared_of_isReference hp, not_isPlainlyCompared_of_isReference hq, hnull]
  · exact .inl ⟨hanull, hq⟩
  · refine .inr ⟨?_, h ▸ herased⟩
    simp only [isComparedErased, not_isPlainlyCompared_of_isReference hq] at hcompared ⊢
    simp_all

/-- What is passed to a parameter may be passed to another one with the same erasure. -/
theorem WellFormed.invocationConverts_of_sameErasure (hs : s.WellFormed) (hr : s.ReferenceBounds) {a p q : TypeId}
    (h : s.erased p = s.erased q) (hconverts : s.invocationConverts a p) : s.invocationConverts a q := by
  rcases hs.eq_or_isReference hr h with rfl | ⟨hp, hq⟩
  · exact hconverts
  have hplain {t : TypeId} (ht : s.isReference t) : s.isPrimitive t = false := isPrimitive_of_isReference ht
  have hbad {t : TypeId} (ht : s.isReference t) : s.isBad t = false := by simpa using not_isBad_of_isReference ht
  simp only [invocationConverts, subtypeConverts, boxingConverts, hplain hp, hplain hq, hbad hp, hbad hq, Bool.or_eq_true]
    at hconverts ⊢
  by_cases ha : s.isBad a
  · simp [ha]
  by_cases haq : a = q
  · simp [haq]
  by_cases hap : a = p
  · have hself := isSubtype_of_sameErasure hp hq h (s.isSubtype_refl p)
    simp_all
  cases hprimitive : s.isPrimitive a with
  | true =>
    simp only [ha, hap, haq, hprimitive] at hconverts ⊢
    simp at hconverts ⊢
    exact ⟨hconverts.1, isSubtype_of_sameErasure hp hq h hconverts.2⟩
  | false =>
    simp only [ha, hap, haq, hprimitive] at hconverts ⊢
    simp at hconverts ⊢
    exact isSubtype_of_sameErasure hp hq h hconverts

/-- Null converts to a reference type. -/
theorem WellFormed.invocationConverts_null (hs : s.WellFormed) {t : TypeId} (ht : s.isReference t) :
    s.invocationConverts .null t := by
  have hshape : s.shape .null = .null := hs.shape_predefined (by decide) (by decide)
  have hbad : ¬ s.isBad .null := by simp [isBad, hshape]
  have hsub : s.isSubtype .null t := by
    rw [isSubtype_iff hbad (not_isBad_of_isReference ht)]
    exact .inr (.inl ⟨by simp [isNull, hshape], ht⟩)
  have hnull : s.isPrimitive .null = false := by simp [isPrimitive, hshape, TypeShape.isPrimitive]
  simp [invocationConverts, subtypeConverts, hsub, isPrimitive_of_isReference ht, hnull, not_isBad_of_isReference ht]

/-! ## Types and their erasures

That a type converts to its erasure means that the erasure erases to the same, and this is
what has to be shown: erasing goes through bounds and elements of arrays, and arrays are made
anew.
-/

/-- A type is erased to the same whatever number of bounds may be followed. -/
def ErasesTo (s : TypeStore) (t : TypeId) (x : Erased) : Prop :=
  ∀ fuel, s.erasedWithin fuel t = x

/-- A type that is no parameterized type, no array and no type variable is erased to itself.
-/
theorem erasesTo_self {t : TypeId} (happlied : ∀ base args, s.shape t ≠ .applied base args) (harray : ∀ e d, s.shape t ≠ .array e d)
    (hvariable : ∀ slot, s.shape t ≠ .typeVar slot) : s.ErasesTo t (.plain t) := by
  intro fuel
  unfold erasedWithin
  cases hshape : s.shape t <;> simp_all

/-- A class is erased to itself. -/
theorem erasesTo_of_isDeclared {t : TypeId} (h : (s.shape t).isDeclared) : s.ErasesTo t (.plain t) := by
  refine erasesTo_self (fun _ _ hshape => ?_) (fun _ _ hshape => ?_) fun _ hshape => ?_
  all_goals simp [hshape, TypeShape.isDeclared] at h

/-- The root class is erased to itself. -/
theorem WellFormed.erasesTo_object (hs : s.WellFormed) : s.ErasesTo .object (.plain .object) :=
  erasesTo_of_isDeclared (by simp [hs.shape_object, TypeShape.isDeclared])

/-- A parameterized type is erased to its class. -/
theorem erasedWithin_of_applied {t base : TypeId} {args : List TypeArg} (h : s.shape t = .applied base args) (fuel : Nat) :
    s.erasedWithin fuel t = .plain base := by
  unfold erasedWithin
  rw [h]

/-- What the elements of an array are erased to when no bound may be followed is erased to
itself. -/
theorem WellFormed.erasesTo_erasedElem (hs : s.WellFormed) {t e : TypeId} {d : UInt32} (ht : s.shape t = .array e d) :
    s.ErasesTo (s.erasedElem e) (.plain (s.erasedElem e)) := by
  unfold erasedElem
  split
  · rename_i base args hshape
    exact erasesTo_of_isDeclared (hs.base hshape)
  · exact hs.erasesTo_object
  · refine erasesTo_self ‹_› (fun y k h => ?_) ‹_›
    have harray := (hs.elem ht).1
    simp [h, TypeShape.isArray] at harray

/-- An array is erased as its elements are. -/
theorem WellFormed.erasesTo_array (hs : s.WellFormed) {t e : TypeId} {d : UInt32} {x : Erased} (ht : s.shape t = .array e d)
    (he : s.ErasesTo e x) : s.ErasesTo t (x.arrayOf s d) := by
  obtain ⟨harray, hbad⟩ := hs.elem ht
  intro fuel
  cases fuel with
  | zero =>
    have hzero : s.erasedWithin 0 e = .plain (s.erasedElem e) := by
      unfold erasedWithin erasedElem
      cases hshape : s.shape e <;> simp_all [TypeShape.isArray]
    have hbare := hs.not_isBad_bare 0 hbad
    rw [hzero] at hbare
    rw [← he 0, hzero]
    unfold erasedWithin
    rw [ht]
    simp_all [Erased.arrayOf]
  | succ fuel =>
    rw [← he fuel]
    conv_lhs => unfold erasedWithin
    rw [ht]

/-- The dimensions of an array of arrays add up in the erasure, too. -/
theorem arrayOf_arrayOf {x : Erased} (h : ¬ s.isBad (bare x)) (d k : UInt32) :
    (x.arrayOf s k).arrayOf s d = x.arrayOf s (d + k) := by
  cases x with
  | plain t => simp_all [Erased.arrayOf]
  | array t m => simp [Erased.arrayOf, UInt32.add_assoc]

/-- An array with further dimensions is erased as the array is. -/
theorem WellFormed.erasesTo_further (hs : s.WellFormed) {t e y : TypeId} {d k : UInt32} {x : Erased} (he : s.shape e = .array y k)
    (ht : s.shape t = .array y (d + k)) (hx : s.ErasesTo e x) : s.ErasesTo t (x.arrayOf s d) := by
  have hbad := (hs.elem he).2
  intro fuel
  rw [← hx fuel]
  conv_lhs => unfold erasedWithin
  conv_rhs => unfold erasedWithin
  rw [he, ht]
  cases fuel with
  | zero => rfl
  | succ fuel => exact (arrayOf_arrayOf (hs.not_isBad_bare fuel hbad) d k).symm

/-- What a known type is erased to stays. -/
theorem ErasesTo.extends {t : TypeId} {x : Erased} (h : s.ErasesTo t x) (he : s.Extends s') (hs : s.WellFormed) (ht : s.Knows t) :
    s'.ErasesTo t x :=
  fun fuel => (he.erasedWithin hs fuel ht).trans (h fuel)

/-- The array of an erased type stays. -/
theorem arrayOf_extends {x : Erased} (he : s.Extends s') (hx : s.Knows (bare x)) (d : UInt32) :
    x.arrayOf s' d = x.arrayOf s d := by
  cases x with
  | plain t =>
    have hbad : s'.isBad t = s.isBad t := he.isBad hx
    simp only [Erased.arrayOf, hbad]
  | array t k => rfl

/-- The array of a type is erased as the type is. -/
theorem array_erasesTo {e : TypeId} {d : UInt32} {x : Erased} (he : s.Genuine e) (hd : d ≠ 0) (hx : s.ErasesTo e x) :
    Works extension (array e d) s fun t s' => s'.ErasesTo t (x.arrayOf s d) := by
  refine Works.of_sound fun hs => ?_
  have hbare : s.Knows (bare x) := hx boundLimit ▸ hs.knows_bare boundLimit he.1
  have later {s' : TypeStore} (hl : s.Extends s') : s'.ErasesTo e x := hx.extends hl hs he.1
  unfold array
  rw [if_neg hd]
  refine Works.read ?_
  split
  · rename_i hbad
    exact absurd (by simp [isBad, hbad]) he.2
  · rename_i y k hshape
    have hrefers : s.Refers s.shapes.size (.array y (d + k)) := ⟨hs.knows_elem hshape, hs.elem hshape⟩
    refine (extending fun _ => intern_works (.inl rfl) hrefers).mono fun t s' hs' hl ht => ?_
    rw [← arrayOf_extends hl.2.toExtends hbare]
    exact hs'.erasesTo_further ((hl.2.shape he.1).trans hshape) ht (later hl.2.toExtends)
  · rename_i hbad harray
    have hrefers : s.Refers s.shapes.size (.array e d) := by
      refine ⟨he.1, ?_, he.2⟩
      cases h : s.shape e <;> simp_all [TypeShape.isArray]
    refine (extending fun _ => intern_works (.inl rfl) hrefers).mono fun t s' hs' hl ht => ?_
    rw [← arrayOf_extends hl.2.toExtends hbare]
    exact hs'.erasesTo_array ht (later hl.2.toExtends)

/-- An array is made anew when its elements are not erased to themselves, and is erased as the
new elements are in either case. -/
theorem rebuild_erasesTo {t e e' : TypeId} {d : UInt32} {x : Erased} (hdims : s.Dimensioned t) (ht : s.shape t = .array e d)
    (hgenuine : s.Genuine e') (h : s.ErasesTo e' x) :
    Works extension (if e' = e then pure t else array e' d) s fun r s' => s'.ErasesTo r (x.arrayOf s d) := by
  refine Works.of_sound fun hs => ?_
  split
  · rename_i hsame
    exact Works.ret (hs.erasesTo_array ht (hsame ▸ h))
  · refine array_erasesTo hgenuine ?_ h
    rintro rfl
    exact hdims e ht

/-- The erasure of a type is erased as the type is, whatever number of bounds may be followed
then. By induction on the number of bounds that may be followed for it, which an array uses up
as a bound does, and for each number by the kind of the type. -/
theorem erasureWithin_erasesTo (hr : s.ErasableBounds) (fuel : Nat) {t : TypeId} (hd : s.Dimensioned t) (ht : s.Genuine t) :
    Works extension (erasureWithin fuel t) s fun e s' => s'.ErasesTo e (s.erasedWithin fuel t) := by
  induction fuel generalizing t with
  | zero =>
    refine Works.of_sound fun hs => ?_
    unfold erasureWithin
    refine Works.read ?_
    split
    · rename_i base args hshape
      exact Works.ret (erasedWithin_of_applied hshape 0 ▸ erasesTo_of_isDeclared (hs.base hshape))
    · rename_i e d hshape
      have hgenuine := hs.genuine_erasedElem ⟨hs.knows_elem hshape, (hs.elem hshape).2⟩
      have heq : s.erasedWithin 0 t = Erased.arrayOf s d (.plain (s.erasedElem e)) := by
        simp [erasedWithin, hshape, Erased.arrayOf, hgenuine.2]
      rw [heq]
      simp only [pure_bind]
      exact rebuild_erasesTo hd hshape hgenuine (hs.erasesTo_erasedElem hshape)
    · rename_i slot hshape
      have heq : s.erasedWithin 0 t = .plain .object := by simp [erasedWithin, hshape]
      exact Works.ret (heq ▸ hs.erasesTo_object)
    · have hself : s.ErasesTo t (.plain t) := erasesTo_self ‹_› ‹_› ‹_›
      exact Works.ret (hself 0 ▸ hself)
  | succ fuel ih =>
    refine Works.of_sound fun hs => ?_
    unfold erasureWithin
    refine Works.read ?_
    split
    · rename_i base args hshape
      exact Works.ret (erasedWithin_of_applied hshape _ ▸ erasesTo_of_isDeclared (hs.base hshape))
    · rename_i e d hshape
      have heq : s.erasedWithin (fuel + 1) t = (s.erasedWithin fuel e).arrayOf s d := by
        conv_lhs => unfold erasedWithin
        rw [hshape]
      have he : s.Genuine e := ⟨hs.knows_elem hshape, (hs.elem hshape).2⟩
      have hmakes := extending fun _ => (erasureWithin_works fuel he.1).mono fun _ _ _ _ h => h.2 he
      rw [heq]
      refine ((ih (hs.dimensioned_elem hshape) he).and hmakes).bind fun e' s' _ hl h => ?_
      have hdims : s'.Dimensioned t := by
        unfold Dimensioned
        rw [hl.2.shape ht.1]
        exact hd
      rw [← arrayOf_extends hl.2.toExtends (hs.knows_bare fuel he.1)]
      exact rebuild_erasesTo hdims ((hl.2.shape ht.1).trans hshape) h.2 h.1
    · rename_i slot hshape
      cases hb : ((s.typeVariable? t).elim [] (·.bounds)).head? with
      | some b =>
        have heq : s.erasedWithin (fuel + 1) t = s.erasedWithin fuel b := by
          conv_lhs => unfold erasedWithin
          simp only [hshape, hb]
        rw [heq]
        obtain ⟨v, hv, hmem⟩ := exists_of_firstBound hb
        exact ih (hr.dimensioned v hv b hmem) (hs.denotes_firstBound hb).genuine
      | none =>
        have heq : s.erasedWithin (fuel + 1) t = .plain .object := by
          conv_lhs => unfold erasedWithin
          simp only [hshape, hb]
        rw [heq]
        exact Works.ret hs.erasesTo_object
    · have hself : s.ErasesTo t (.plain t) := erasesTo_self ‹_› ‹_› ‹_›
      exact Works.ret (hself (fuel + 1) ▸ hself)

/-- A type converts to its erasure. -/
theorem WellFormed.invocationConverts_erasure (hs : s.WellFormed) (hr : s.ErasableBounds) {t e : TypeId} (hd : s.Dimensioned t)
    (ht : s.Genuine t) (h : erasure t s = (e, s)) : s.invocationConverts t e := by
  have hself : s.invocationConverts t t := by simp [invocationConverts, subtypeConverts_self_iff.mpr ht.2]
  have herases := (erasureWithin_erasesTo hr boundLimit hd ht hs).2
  rw [show erasureWithin boundLimit t s = (e, s) from h] at herases
  exact hs.invocationConverts_of_sameErasure hr.reference (herases boundLimit).symm hself

end CallResolution.TypeStore
