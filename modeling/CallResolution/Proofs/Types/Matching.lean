import CallResolution.Proofs.Beside
import CallResolution.Proofs.Types.Settled

/-!
# Types in two extensions of a store

A store that goes on in two ways may give an array or parameterized type two numbers,
depending on what else is made before it. `Matches` relates the numbers of a type in both
extensions, and `forks` lets the extensions go on side by side. Whether types convert does not
depend on the numbers of arrays and parameterized types, so it is the same for matching types;
and what is made from known types by the same steps matches. So a callable offers matching
parameters in both, and accepts the same arguments.

Two questions about a call are asked in different stores. Whether a callable accepts the
arguments is asked when it competes, after the parameters of those before it were made;
whether it is more specific than another one may be asked of the two alone. The answers are
compared across a fork of the store in which both began. What the fork started with has its
number on both sides, so `Matches` needs a second kind of pair only for types that have parts,
and these are looked through to their parts: `cases_known` is the case distinction of all that
follows.

`Works (forks …) (beside x y)` says that `x` on one side and `y` on the other keep the fork in
order. What is found there already on one side and made on the other is the only place where
the two sides differ (`intern_beside`).

Main statements: `Matches.subtypeConverts`, `subst_beside`, `formals_matches` and
`Formals.Matches.applicable`.
-/

namespace CallResolution

open List (Forall₂)

namespace TypeStore

variable {s s₁ s₂ s₁' s₂' : TypeStore} {a a' b b' t u : TypeId}

/-! ## Comparing types with parts

Types with parts are always compared by their erasures, also with themselves, for a type is a
subtype of itself either way. So it does not matter whether their numbers agree.
-/

/-- Whether a shape has parts, which got numbers before it. -/
def isMade : TypeShape → Bool
  | .array _ _ | .applied _ _ => true
  | _ => false

/-- A type that has parts or is compared with one is compared by erasures, whether the numbers
are the same or not. -/
theorem isSubtype_of_isMade (h : isMade (s.shape a) ∨ isMade (s.shape b)) : s.isSubtype a b =
    (s.isBad a || s.isBad b || (!isPlainlyCompared (s.shape a) && !isPlainlyCompared (s.shape b) &&
      (s.isNull a || s.erasedSubtype (s.erased a) (s.erased b)))) := by
  by_cases hab : a = b
  · subst hab
    have hmade : isMade (s.shape a) := h.elim id id
    cases hshape : s.shape a <;> simp_all [isMade, isPlainlyCompared, TypeShape.isPrimitive, isSubtype_refl, erasedSubtype]
  · unfold isSubtype isComparedErased isBad isNull
    cases ha : s.shape a <;> cases hb : s.shape b <;>
      simp_all [isMade, isPlainlyCompared, TypeShape.isPrimitive, TypeShape.isReference]

/-- A type that has parts or is compared with one converts when it is a subtype, unless one of
them is bad or primitive. -/
theorem subtypeConverts_of_isMade (h : isMade (s.shape a) ∨ isMade (s.shape b)) : s.subtypeConverts a b =
    (!s.isBad b && (s.isBad a || (!s.isPrimitive a && !s.isPrimitive b && s.isSubtype a b))) := by
  by_cases hab : a = b
  · subst hab
    have hmade : isMade (s.shape a) := h.elim id id
    cases hshape : s.shape a <;> simp_all [isMade, subtypeConverts, isBad, isPrimitive, TypeShape.isPrimitive, isSubtype_refl]
  · unfold subtypeConverts isBad isPrimitive
    cases ha : s.shape a <;> cases hb : s.shape b <;> simp_all [isMade, TypeShape.isPrimitive]

/-! ## Matching types

Whatever a check sees of a type is the same for matching types: its kind, its elements, its
erasure, and how it converts.
-/

/-- A number in one extension of a store and one in another stand for the same type: one that
the store knows, or an array or parameterized type that may have been made under different
numbers. A number that the store knows stands for a known type on both sides, so it matches
itself only. -/
inductive Matches (s s₁ s₂ : TypeStore) : TypeId → TypeId → Prop
  /-- A known type has the same number in both. -/
  | known {t : TypeId} (known : s.Knows t) : Matches s s₁ s₂ t t
  /-- An array of matching elements. -/
  | array {t u e e' : TypeId} {d : UInt32} (left : s₁.shape t = .array e d) (right : s₂.shape u = .array e' d)
      (elem : Matches s s₁ s₂ e e') (agree : s.Knows t ∨ s.Knows u → t = u) : Matches s s₁ s₂ t u
  /-- A known class with arguments. -/
  | applied {t u base : TypeId} {args args' : List TypeArg} (left : s₁.shape t = .applied base args)
      (right : s₂.shape u = .applied base args') (base : s.Knows base) (agree : s.Knows t ∨ s.Knows u → t = u) :
      Matches s s₁ s₂ t u

/-- Type arguments of the same kind and matching types. -/
def MatchesArg (s s₁ s₂ : TypeStore) (x y : TypeArg) : Prop :=
  x.wildcard = y.wildcard ∧ Matches s s₁ s₂ x.type y.type

/-- Two stores that extend a store. Both are well formed, and neither knows of the other; what
they have in common is what the start has. -/
structure Fork (s s₁ s₂ : TypeStore) : Prop where
  /-- The store is well formed. -/
  start : s.WellFormed
  /-- The first store is well formed. -/
  leftSound : s₁.WellFormed
  /-- The second store is well formed. -/
  rightSound : s₂.WellFormed
  /-- The first store has all of the start. -/
  left : s.Extends s₁
  /-- The second store has all of the start. -/
  right : s.Extends s₂

namespace Matches

/-- A number that the start knows matches itself only. -/
theorem agree (h : Matches s s₁ s₂ t u) (hk : s.Knows t ∨ s.Knows u) : t = u := by
  cases h with
  | known known => rfl
  | array left right elem agree => exact agree hk
  | applied left right base agree => exact agree hk

/-- Matching types stay so. -/
theorem grows (h : Matches s s₁ s₂ t u) (h₁ : s₁.Grows s₁') (h₂ : s₂.Grows s₂') : Matches s s₁' s₂' t u := by
  have keeps {s s' : TypeStore} (hg : s.Grows s') {t : TypeId} {shape : TypeShape} (ht : s.shape t = shape)
      (hne : shape ≠ .absent) : s'.shape t = shape := by
    rw [hg.shape (knows_of_shape (ht ▸ hne)), ht]
  induction h with
  | known known => exact .known known
  | array left right _ agree ih => exact .array (keeps h₁ left (by simp)) (keeps h₂ right (by simp)) ih agree
  | applied left right base agree => exact .applied (keeps h₁ left (by simp)) (keeps h₂ right (by simp)) base agree

/-- Matching types are both known to the start, or both have parts. -/
theorem cases_known (h : Matches s s₁ s₂ t u) : (t = u ∧ s.Knows t) ∨ (isMade (s₁.shape t) ∧ isMade (s₂.shape u)) := by
  cases h with
  | known known => exact .inl ⟨rfl, known⟩
  | array left right => exact .inr (by simp [left, right, isMade])
  | applied left right => exact .inr (by simp [left, right, isMade])

variable (hf : Fork s s₁ s₂)
include hf

/-- Matching types are known where they stand. -/
theorem knows (h : Matches s s₁ s₂ t u) : s₁.Knows t ∧ s₂.Knows u := by
  cases h with
  | known known => exact ⟨hf.left.knows known, hf.right.knows known⟩
  | array left right => exact ⟨knows_of_shape (by simp [left]), knows_of_shape (by simp [right])⟩
  | applied left right => exact ⟨knows_of_shape (by simp [left]), knows_of_shape (by simp [right])⟩

/-- What is seen of a shape without its parts is the same for matching types. -/
theorem kind (h : Matches s s₁ s₂ t u) {f : TypeShape → Bool} (hmade : ∀ shape, isMade shape → f shape = false) :
    f (s₁.shape t) = f (s₂.shape u) := by
  rcases h.cases_known with ⟨rfl, hk⟩ | ⟨hleft, hright⟩
  · rw [hf.left.shape hk, hf.right.shape hk]
  · rw [hmade _ hleft, hmade _ hright]

/-- Matching types are bad both, or neither. -/
theorem isBad (h : Matches s s₁ s₂ t u) : s₁.isBad t = s₂.isBad u :=
  h.kind hf (f := fun shape => decide (shape = .bad)) fun shape hshape => by cases shape <;> simp_all [isMade]

/-- Matching types are arrays both, or neither. -/
theorem isArray (h : Matches s s₁ s₂ t u) : (s₁.shape t).isArray = (s₂.shape u).isArray := by
  cases h with
  | known known => rw [hf.left.shape known, hf.right.shape known]
  | array left right => rw [left, right]; rfl
  | applied left right => rw [left, right]; rfl

/-- What matches an array is an array of matching elements. -/
theorem of_array (h : Matches s s₁ s₂ t u) {e : TypeId} {d : UInt32} (ht : s₁.shape t = .array e d) :
    ∃ e', s₂.shape u = .array e' d ∧ Matches s s₁ s₂ e e' := by
  cases h with
  | known known =>
    have hshape := (hf.left.shape known).symm.trans ht
    exact ⟨e, (hf.right.shape known).trans hshape, .known (hf.start.knows_elem hshape)⟩
  | array left right elem =>
    obtain ⟨rfl, rfl⟩ : _ = e ∧ _ = d := by simpa [left] using ht
    exact ⟨_, right, elem⟩
  | applied left right => simp [left] at ht

/-- Matching types have the same erasure, which the start knows. Erasure leaves classes and
other types without parts, and these have one number on both sides; so comparisons by erasure
cannot tell matching types apart. -/
theorem erasedWithin (h : Matches s s₁ s₂ t u) (fuel : Nat) :
    s₁.erasedWithin fuel t = s₂.erasedWithin fuel u ∧ s.Knows (bare (s₁.erasedWithin fuel t)) := by
  induction fuel generalizing t u with
  | zero =>
    cases h with
    | known known =>
      rw [hf.left.erasedWithin hf.start 0 known, hf.right.erasedWithin hf.start 0 known]
      exact ⟨rfl, hf.start.knows_bare 0 known⟩
    | applied left right base => simpa [TypeStore.erasedWithin, left, right] using base
    | array left right elem =>
      cases elem with
      | known known =>
        have hk := hf.start.knows_erasedElem known
        simpa [TypeStore.erasedWithin, left, right, erasedElem, hf.left.shape known, hf.right.shape known] using hk
      | applied left' right' base => simpa [TypeStore.erasedWithin, left, right, erasedElem, left', right'] using base
      | array left' right' => exact absurd (by simp [left', TypeShape.isArray]) (hf.leftSound.elem left).1
  | succ fuel ih =>
    cases h with
    | known known =>
      rw [hf.left.erasedWithin hf.start _ known, hf.right.erasedWithin hf.start _ known]
      exact ⟨rfl, hf.start.knows_bare _ known⟩
    | applied left right base => simpa [TypeStore.erasedWithin, left, right] using base
    | array left right elem =>
      obtain ⟨heq, hknown⟩ := ih elem
      simp only [TypeStore.erasedWithin, left, right, ← heq, bare_arrayOf]
      refine ⟨?_, hknown⟩
      cases hx : s₁.erasedWithin fuel _ with
      | plain c =>
        rw [hx] at hknown
        have hbad : s₁.isBad c = s₂.isBad c := (hf.left.isBad hknown).trans (hf.right.isBad hknown).symm
        simp only [Erased.arrayOf, hbad]
      | array c d' => rfl

/-- Subtyping says the same of matching types. -/
theorem isSubtype (ha : Matches s s₁ s₂ a a') (hb : Matches s s₁ s₂ b b') : s₁.isSubtype a b = s₂.isSubtype a' b' := by
  have compared (hleft : isMade (s₁.shape a) ∨ isMade (s₁.shape b)) (hright : isMade (s₂.shape a') ∨ isMade (s₂.shape b')) :
      s₁.isSubtype a b = s₂.isSubtype a' b' := by
    obtain ⟨herased, hknown⟩ := ha.erasedWithin hf boundLimit
    obtain ⟨herased', hknown'⟩ := hb.erasedWithin hf boundLimit
    have hnull : s₁.isNull a = s₂.isNull a' :=
      ha.kind hf (f := fun shape => decide (shape = .null)) fun shape hshape => by cases shape <;> simp_all [isMade]
    have hplain {x y : TypeId} (h : Matches s s₁ s₂ x y) : isPlainlyCompared (s₁.shape x) = isPlainlyCompared (s₂.shape y) :=
      h.kind hf fun shape hshape => by cases shape <;> simp_all [isMade, isPlainlyCompared, TypeShape.isPrimitive]
    rw [isSubtype_of_isMade hleft, isSubtype_of_isMade hright, ha.isBad hf, hb.isBad hf, hnull, hplain ha, hplain hb]
    unfold erased
    rw [← herased, ← herased', hf.left.erasedSubtype hf.start hknown hknown', hf.right.erasedSubtype hf.start hknown hknown']
  rcases ha.cases_known with ⟨rfl, hka⟩ | ⟨hleft, hright⟩
  · rcases hb.cases_known with ⟨rfl, hkb⟩ | ⟨hleft, hright⟩
    · rw [hf.left.isSubtype hf.start hka hkb, hf.right.isSubtype hf.start hka hkb]
    · exact compared (.inr hleft) (.inr hright)
  · exact compared (.inl hleft) (.inl hright)

/-- Matching types are primitive both, or neither. -/
theorem isPrimitive (h : Matches s s₁ s₂ t u) : s₁.isPrimitive t = s₂.isPrimitive u :=
  h.kind hf fun shape hshape => by cases shape <;> simp_all [isMade, TypeShape.isPrimitive]

/-- Conversion by subtyping says the same of matching types. -/
theorem subtypeConverts (ha : Matches s s₁ s₂ a a') (hb : Matches s s₁ s₂ b b') :
    s₁.subtypeConverts a b = s₂.subtypeConverts a' b' := by
  have compared (hleft : isMade (s₁.shape a) ∨ isMade (s₁.shape b)) (hright : isMade (s₂.shape a') ∨ isMade (s₂.shape b')) :
      s₁.subtypeConverts a b = s₂.subtypeConverts a' b' := by
    rw [subtypeConverts_of_isMade hleft, subtypeConverts_of_isMade hright, ha.isSubtype hf hb, ha.isBad hf, hb.isBad hf,
      ha.isPrimitive hf, hb.isPrimitive hf]
  rcases ha.cases_known with ⟨rfl, hka⟩ | ⟨hleft, hright⟩
  · rcases hb.cases_known with ⟨rfl, hkb⟩ | ⟨hleft, hright⟩
    · rw [hf.left.subtypeConverts hf.start hka hkb, hf.right.subtypeConverts hf.start hka hkb]
    · exact compared (.inr hleft) (.inr hright)
  · exact compared (.inl hleft) (.inl hright)

/-- A known type converts to matching types alike. -/
theorem invocationConverts (ha : s.Knows a) (hb : Matches s s₁ s₂ b b') :
    s₁.invocationConverts a b = s₂.invocationConverts a b' := by
  rcases hb.cases_known with ⟨rfl, hkb⟩ | ⟨hleft, hright⟩
  · rw [hf.left.invocationConverts hf.start ha hkb, hf.right.invocationConverts hf.start ha hkb]
  · have hboxed : s₁.box a = s₂.box a ∧ s.Knows (s₁.box a) := by
      unfold box
      rw [hf.left.shape ha, hf.right.shape ha]
      refine ⟨rfl, ?_⟩
      split
      · rename_i p _
        exact hf.start.knows_predefined (by cases p <;> decide)
      · exact hf.start.knows_none
    have hprimitive {s : TypeStore} {t : TypeId} (h : isMade (s.shape t)) : s.isPrimitive t = false := by
      unfold TypeStore.isPrimitive
      cases hshape : s.shape t <;> simp_all [isMade, TypeShape.isPrimitive]
    unfold TypeStore.invocationConverts boxingConverts
    rw [(Matches.known ha).subtypeConverts hf hb, hprimitive hleft, hprimitive hright, hf.left.isPrimitive ha,
      hf.right.isPrimitive ha, ← hboxed.1, (Matches.known hboxed.2).isSubtype hf hb]
    cases s.isPrimitive a <;> rfl

end Matches

/-! ## Making matching types

Each function that makes types is followed on both sides at once. It takes the same branches,
since it branches on what matching types have in common.
-/

/-- Two extensions of a store that go on side by side. -/
def forks (s : TypeStore) : Evolution (TypeStore × TypeStore) where
  Sound p := Fork s p.1 p.2
  Leads p q := (Fork s p.1 p.2 → Fork s q.1 q.2) ∧ p.1.Grows q.1 ∧ p.2.Grows q.2
  refl _ := ⟨id, .refl _, .refl _⟩
  trans h h' := ⟨fun hp => h'.1 (h.1 hp), h.2.1.trans h'.2.1, h.2.2.trans h'.2.2⟩
  sound h := h.1

variable {p q : TypeStore × TypeStore}

/-- A shape that gets a number which the start knows had it from the start. -/
theorem findIdx?_of_knows (h : s.Extends s₁) {shape : TypeShape} (hkey : shape.structureKey? = some shape)
    (hk : s.Knows (intern shape s₁).1) : s.shapes.findIdx? (· = shape) = some (intern shape s₁).1.index := by
  rw [intern_eq hkey] at hk ⊢
  cases hfind : s₁.shapes.findIdx? (· = shape) with
  | some i =>
    rw [hfind] at hk
    obtain ⟨hlt, heq, hmin⟩ := Array.findIdx?_eq_some_iff_getElem.mp hfind
    have same (j : Nat) (hj : j < s.shapes.size) : ∃ hj' : j < s₁.shapes.size, s₁.shapes[j] = s.shapes[j] :=
      Array.getElem?_eq_some_iff.mp (h.shapes j _ (Array.getElem?_eq_getElem hj))
    refine Array.findIdx?_eq_some_iff_getElem.mpr ⟨hk, ?_, fun j hj => ?_⟩
    · rw [← (same i hk).2]
      exact heq
    · obtain ⟨hj', hjeq⟩ := same j (Nat.lt_trans hj hk)
      rw [← hjeq]
      exact hmin j hj
  | none =>
    rw [hfind] at hk
    exact absurd (Nat.lt_of_lt_of_le hk h.toGrows.size) (Nat.lt_irrefl _)

/-- Two shapes get numbers. The numbers agree when one of them is known to the start, if the
shapes do so then. This is the only place where the two sides may differ: one side finds a
shape that the other one makes. -/
theorem intern_beside {shape shape' : TypeShape} (made : shape.isArray ∨ ∃ base args, shape = .applied base args)
    (made' : shape'.isArray ∨ ∃ base args, shape' = .applied base args) (refers : p.1.Refers p.1.shapes.size shape)
    (refers' : p.2.Refers p.2.shapes.size shape')
    (hknown : (∃ t, s.shape t = shape ∨ s.shape t = shape') → shape = shape') :
    Works s.forks (beside (intern shape) (intern shape')) p fun r q =>
      q.1.shape r.1 = shape ∧ q.2.shape r.2 = shape' ∧ (s.Knows r.1 ∨ s.Knows r.2 → r.1 = r.2) := by
  intro hp
  obtain ⟨hsound, hext, hshape⟩ := hp.leftSound.run fun g => intern_works (g := g) made refers
  obtain ⟨hsound', hext', hshape'⟩ := hp.rightSound.run fun g => intern_works (g := g) made' refers'
  refine ⟨⟨fun _ => ⟨hp.start, hsound, hsound', hp.left.trans hext, hp.right.trans hext'⟩, hext.toGrows, hext'.toGrows⟩,
    hshape, hshape', ?_⟩
  have found {s₁ s₂ : TypeStore} (h₁ : s.Extends s₁) (h₂ : s.Extends s₂) {shape : TypeShape}
      (hkey : shape.structureKey? = some shape) (hk : s.Knows (intern shape s₁).1) :
      (intern shape s₁).1 = (intern shape s₂).1 := by
    have hfind := findIdx?_of_knows h₁ hkey hk
    have hrun : intern shape s₂ = ((intern shape s₁).1, s₂) := by
      rw [intern_eq hkey s₂, findIdx?_extends h₂ hfind]
    rw [hrun]
  rintro (hk | hk)
  · have hsame : shape = shape' := hknown ⟨_, .inl (((hp.left.trans hext).shape hk).symm.trans hshape)⟩
    subst hsame
    exact found hp.left hp.right (structureKey?_of_made made) hk
  · have hsame : shape = shape' := hknown ⟨_, .inr (((hp.right.trans hext').shape hk).symm.trans hshape')⟩
    subst hsame
    exact (found hp.right hp.left (structureKey?_of_made made) hk).symm

/-- Arrays of matching types match. -/
theorem array_beside (ht : Matches s p.1 p.2 t u) (d : UInt32) :
    Works s.forks (beside (array t d) (array u d)) p fun r q => Matches s q.1 q.2 r.1 r.2 := by
  refine Works.of_sound fun hp => ?_
  have made {e e' : TypeId} (d : UInt32) (he : Matches s p.1 p.2 e e') (hleft : ¬ (p.1.shape e).isArray ∧ ¬ p.1.isBad e)
      (hright : ¬ (p.2.shape e').isArray ∧ ¬ p.2.isBad e') :
      Works s.forks (beside (intern (.array e d)) (intern (.array e' d))) p fun r q => Matches s q.1 q.2 r.1 r.2 := by
    have hk := he.knows hp
    have hrefers : p.1.Refers p.1.shapes.size (.array e d) := ⟨hk.1, hleft⟩
    have hrefers' : p.2.Refers p.2.shapes.size (.array e' d) := ⟨hk.2, hright⟩
    refine (intern_beside (.inl rfl) (.inl rfl) hrefers hrefers' ?_).mono fun r q _ hl hr =>
      .array hr.1 hr.2.1 (he.grows hl.2.1 hl.2.2) hr.2.2
    rintro ⟨c, hc | hc⟩
    · rw [he.agree (.inl (hp.start.knows_elem hc))]
    · rw [he.agree (.inr (hp.start.knows_elem hc))]
  by_cases hd : d = 0
  · subst hd
    exact Works.beside_ret ht
  have interned {s : TypeStore} {c : TypeId} (h : ¬ (s.shape c).isArray ∧ ¬ s.isBad c) :
      array c d s = intern (.array c d) s := by
    rw [array_apply hd]
    cases hshape : s.shape c <;> simp_all [isBad, TypeShape.isArray]
  cases hshape : p.1.shape t with
  | bad =>
    have hshape' : p.2.shape u = .bad := by simpa [isBad, hshape] using ht.isBad hp
    refine Works.congr (y := beside (pure t) (pure u)) ?_ (Works.beside_ret ht)
    simp only [beside, array_apply hd, hshape, hshape']
    rfl
  | array e d' =>
    obtain ⟨e', hshape', he⟩ := ht.of_array hp hshape
    refine Works.congr (y := beside (intern (.array e (d + d'))) (intern (.array e' (d + d')))) ?_ ?_
    · simp only [beside, array_apply hd, hshape, hshape']
    · exact made _ he (hp.leftSound.elem hshape) (hp.rightSound.elem hshape')
  | _ =>
    have hleft : ¬ (p.1.shape t).isArray ∧ ¬ p.1.isBad t := by simp [isBad, hshape, TypeShape.isArray]
    have hright : ¬ (p.2.shape u).isArray ∧ ¬ p.2.isBad u := by
      rw [← ht.isArray hp, ← ht.isBad hp]
      exact hleft
    refine Works.congr (y := beside (intern (.array t d)) (intern (.array u d))) ?_ (made d ht hleft hright)
    simp only [beside, interned hleft, interned hright]

/-- The components of matching types match. -/
theorem component_beside (ht : Matches s p.1 p.2 t u) :
    Works s.forks (beside (component t) (component u)) p fun r q => Matches s q.1 q.2 r.1 r.2 := by
  refine Works.of_sound fun hp => Works.beside_read ?_
  cases hshape : p.1.shape t with
  | array e d =>
    obtain ⟨e', hshape', he⟩ := ht.of_array hp hshape
    rw [hshape']
    dsimp only
    split
    · exact Works.beside_ret he
    · exact array_beside he _
  | _ =>
    have hright : ¬ (p.2.shape u).isArray := by
      rw [← ht.isArray hp, hshape]
      simp [TypeShape.isArray]
    cases hshape' : p.2.shape u with
    | array => simp [hshape', TypeShape.isArray] at hright
    | _ => exact Works.beside_ret (.known hp.start.knows_none)

/-- A part of a known type is replaced on both sides or on none. -/
theorem remade_beside {e : TypeId} {d : UInt32} (ht : s.Knows t) (he : s.Knows e) (h : Matches s p.1 p.2 a a') :
    Works s.forks (beside (if a = e then pure t else array a d) (if a' = e then pure t else array a' d)) p
      fun r q => Matches s q.1 q.2 r.1 r.2 := by
  have hiff : a = e ↔ a' = e := ⟨fun ha => (h.agree (.inl (ha ▸ he))).symm.trans ha, fun ha => (h.agree (.inr (ha ▸ he))).trans ha⟩
  by_cases ha : a = e
  · rw [if_pos ha, if_pos (hiff.mp ha)]
    exact Works.beside_ret (.known ht)
  · rw [if_neg ha, if_neg (mt hiff.mpr ha)]
    exact array_beside h d

/-- The arguments of a known type are replaced on both sides or on none. The type itself is
known to the start, so when no argument changes both sides give it back under its number. -/
theorem applied_beside {base : TypeId} {args as as' : List TypeArg} (hshape : s.shape t = .applied base args) (ht : s.Knows t)
    (h : Forall₂ (MatchesArg s p.1 p.2) as as') :
    Works s.forks (beside (if as = args then pure t else apply base as) (if as' = args then pure t else apply base as')) p
      fun r q => Matches s q.1 q.2 r.1 r.2 := by
  refine Works.of_sound fun hp => ?_
  have hbase := knows_of_isDeclared (hp.start.base hshape)
  -- Lists of arguments are the same as soon as the start knows all of one list.
  have same (hk : (∀ x ∈ as, s.Knows x.type) ∨ ∀ y ∈ as', s.Knows y.type) : as = as' := by
    induction h with
    | nil => rfl
    | @cons x y as as' hxy _ ih =>
      have htype : x.type = y.type := hxy.2.agree (hk.imp (fun h => h x (by simp)) fun h => h y (by simp))
      have hrest := ih (hk.imp (fun h z hz => h z (by simp [hz])) fun h z hz => h z (by simp [hz]))
      obtain ⟨w, c⟩ := x
      obtain ⟨w', c'⟩ := y
      cases hxy.1
      cases htype
      rw [hrest]
  have hknown {c : TypeId} {as : List TypeArg} (hc : s.shape c = .applied base as) : ∀ x ∈ as, s.Knows x.type :=
    fun x hx => hp.start.knows_arg hc hx
  have hiff : as = args ↔ as' = args :=
    ⟨fun ha => (same (.inl (ha ▸ hknown hshape))).symm.trans ha, fun ha => (same (.inr (ha ▸ hknown hshape))).trans ha⟩
  by_cases ha : as = args
  · rw [if_pos ha, if_pos (hiff.mp ha)]
    exact Works.beside_ret (.known ht)
  rw [if_neg ha, if_neg (mt hiff.mpr ha)]
  have hempty : as'.isEmpty = as.isEmpty := by cases h <;> rfl
  have hargs : (∀ x ∈ as, p.1.Knows x.type) ∧ ∀ y ∈ as', p.2.Knows y.type := by
    clear same hiff hempty ha
    induction h with
    | nil => simp
    | cons hxy _ ih => simpa using ⟨⟨(hxy.2.knows hp).1, ih.1⟩, (hxy.2.knows hp).2, ih.2⟩
  rw [apply_eq, apply_eq]
  rw [hempty]
  cases as.isEmpty with
  | true => exact Works.beside_ret (.known hbase)
  | false =>
    refine (intern_beside (.inr ⟨base, as, rfl⟩) (.inr ⟨base, as', rfl⟩) ?_ ?_ ?_).mono fun r q _ hl hr =>
      .applied hr.1 hr.2.1 hbase hr.2.2
    · exact ⟨hp.left.knows hbase, by rw [hp.left.shape hbase]; exact hp.start.base hshape, hargs.1⟩
    · exact ⟨hp.right.knows hbase, by rw [hp.right.shape hbase]; exact hp.start.base hshape, hargs.2⟩
    · rintro ⟨c, hc | hc⟩
      · rw [same (.inl (hknown hc))]
      · rw [same (.inr (hknown hc))]

/-- The erasures of a known type match. -/
theorem erasureWithin_beside (fuel : Nat) (ht : s.Knows t) :
    Works s.forks (beside (erasureWithin fuel t) (erasureWithin fuel t)) p fun r q => Matches s q.1 q.2 r.1 r.2 := by
  induction fuel generalizing t p with
  | zero =>
    unfold erasureWithin
    refine Works.of_sound fun hp => Works.beside_read ?_
    rw [hp.left.shape ht, hp.right.shape ht]
    cases hshape : s.shape t with
    | applied base args => exact Works.beside_ret (.known (knows_of_isDeclared (hp.start.base hshape)))
    | array e d =>
      have he := hp.start.knows_elem hshape
      have helem {s' : TypeStore} (h : s.Extends s') : s'.erasedElem e = s.erasedElem e := by
        unfold erasedElem
        rw [h.shape he]
      simp only [pure_bind, helem hp.left, helem hp.right]
      exact remade_beside ht he (.known (hp.start.knows_erasedElem he))
    | typeVar slot => exact Works.beside_ret (.known (hp.start.knows_predefined (by decide)))
    | _ => exact Works.beside_ret (.known ht)
  | succ fuel ih =>
    unfold erasureWithin
    refine Works.of_sound fun hp => Works.beside_read ?_
    rw [hp.left.shape ht, hp.right.shape ht]
    cases hshape : s.shape t with
    | applied base args => exact Works.beside_ret (.known (knows_of_isDeclared (hp.start.base hshape)))
    | array e d =>
      have he := hp.start.knows_elem hshape
      exact (ih he).beside_bind fun a a' q _ _ h => remade_beside ht he h
    | typeVar slot =>
      simp only [hp.left.typeVariable hp.start ht, hp.right.typeVariable hp.start ht]
      split
      · rename_i b hb
        exact ih (hp.start.denotes_firstBound hb).knows
      · exact Works.beside_ret (.known (hp.start.knows_predefined (by decide)))
    | _ => exact Works.beside_ret (.known ht)

/-- What a type variable stands for under a known argument matches. -/
theorem argUpper_beside {x : TypeArg} (hx : s.Knows x.type) (ht : s.Knows t) :
    Works s.forks (beside (argUpper x t) (argUpper x t)) p fun r q => Matches s q.1 q.2 r.1 r.2 := by
  unfold argUpper
  split
  · split
    · exact Works.beside_ret (.known hx)
    · exact erasureWithin_beside _ ht
  · split
    · exact Works.beside_ret (.known hx)
    · exact erasureWithin_beside _ ht
  · exact erasureWithin_beside _ ht

/-- The instances of a known argument match. -/
theorem substArg_beside {inner : TypeId → TypeM TypeId} {map : List (TypeId × TypeArg)} {x : TypeArg}
    (hmap : ∀ y ∈ map, s.Knows y.2.type) (hx : s.Knows x.type)
    (hinner : Works s.forks (beside (inner x.type) (inner x.type)) p fun r q => Matches s q.1 q.2 r.1 r.2) :
    Works s.forks (beside (substArg inner map x) (substArg inner map x)) p fun r q => MatchesArg s q.1 q.2 r.1 r.2 := by
  have deep : Works s.forks (beside (do return { x with type := ← inner x.type }) (do return { x with type := ← inner x.type })) p
      fun r q => MatchesArg s q.1 q.2 r.1 r.2 :=
    hinner.beside_bind fun a a' q _ _ h => Works.beside_ret ⟨rfl, h⟩
  unfold substArg
  split
  · exact Works.beside_ret ⟨rfl, .known hx⟩
  · refine Works.of_sound fun hp => Works.beside_read ?_
    rw [hp.left.shape hx, hp.right.shape hx]
    split
    · split
      · rename_i b hb
        exact Works.beside_ret ⟨rfl, .known (hmap _ (mem_of_lookup hb))⟩
      · exact deep
    · exact deep
  · exact deep

/-- The instances of a known type match. -/
theorem substWithin_beside {map : List (TypeId × TypeArg)} (hmap : ∀ y ∈ map, s.Knows y.2.type) (depth : Nat) (ht : s.Knows t) :
    Works s.forks (beside (substWithin map depth t) (substWithin map depth t)) p fun r q => Matches s q.1 q.2 r.1 r.2 := by
  induction depth generalizing t p with
  | zero => exact Works.beside_ret (.known ht)
  | succ depth ih =>
    unfold substWithin
    refine Works.of_sound fun hp => Works.beside_read ?_
    rw [hp.left.shape ht, hp.right.shape ht]
    cases hshape : s.shape t with
    | typeVar slot =>
      dsimp only
      split
      · rename_i x hx
        exact argUpper_beside (hmap _ (mem_of_lookup hx)) ht
      · exact Works.beside_ret (.known ht)
    | array e d =>
      have he := hp.start.knows_elem hshape
      exact (ih he).beside_bind fun a a' q _ _ h => remade_beside ht he h
    | applied base args =>
      have hargs := Works.beside_mapM (e := s.forks) (p := p) (Q := fun x y q => MatchesArg s q.1 q.2 x y) args
        (fun x y q q' hl h => ⟨h.1, h.2.grows hl.2.1 hl.2.2⟩)
        fun x hx q _ _ => substArg_beside (p := q) hmap (hp.start.knows_arg hshape hx) (ih (hp.start.knows_arg hshape hx))
      exact hargs.beside_bind fun as as' q hq hl h => applied_beside hshape ht h
    | _ => exact Works.beside_ret (.known ht)

/-- The instances of a known type match. -/
theorem subst_beside {params : List TypeId} {args : List TypeArg} (hargs : ∀ x ∈ args, s.Knows x.type) (ht : s.Knows t) :
    Works s.forks (beside (subst t params args) (subst t params args)) p fun r q => Matches s q.1 q.2 r.1 r.2 := by
  unfold subst
  split
  · exact Works.beside_ret (.known ht)
  · exact substWithin_beside (fun y hy => hargs _ (List.of_mem_zip hy).2) _ ht

end TypeStore

/-! ## Parameters

What a callable offers to a call is a list of parameters and an element type, and whether it
accepts arguments is decided on these.
-/

open TypeStore

/-- Related lists have related elements at each place. -/
theorem rel_getElem? {α β : Type} {R : α → β → Prop} {l : List α} {l' : List β} (h : Forall₂ R l l') (k : Nat) :
    Option.Rel R l[k]? l'[k]? := by
  induction h generalizing k with
  | nil => exact .none
  | cons hab _ ih =>
    cases k with
    | zero => exact .some hab
    | succ k => exact ih k

variable {s s₁ s₂ : TypeStore} {f f' g g' : Formals} {p q : TypeStore × TypeStore}

/-- The parameters that a callable offers in two extensions of a store. -/
structure Formals.Matches (s s₁ s₂ : TypeStore) (f f' : Formals) : Prop where
  /-- The parameter types match. -/
  params : Forall₂ (TypeStore.Matches s s₁ s₂) f.params f'.params
  /-- The arity varies in both or in none. -/
  isVariadic : f.isVariadic = f'.isVariadic
  /-- The element types match. -/
  element : TypeStore.Matches s s₁ s₂ f.element f'.element

namespace Formals.Matches

/-- There is an element type in both or in none. -/
theorem isSome_element (hf : Fork s s₁ s₂) (h : f.Matches s s₁ s₂ f') : f.element.isSome = f'.element.isSome := by
  have hnone {t u : TypeId} (h : TypeStore.Matches s s₁ s₂ t u) : t = .none ↔ u = .none := by
    have hk := hf.start.knows_none
    exact ⟨fun ht => (h.agree (.inl (ht ▸ hk))).symm.trans ht, fun hu => (h.agree (.inr (hu ▸ hk))).trans hu⟩
  unfold TypeId.isSome
  rw [Bool.eq_iff_iff, bne_iff_ne, bne_iff_ne, ne_eq, ne_eq, hnone h.element]

/-- What is offered to the argument at a place matches. -/
theorem paramAt? (hf : Fork s s₁ s₂) (h : f.Matches s s₁ s₂ f') (k : Nat) :
    Option.Rel (TypeStore.Matches s s₁ s₂) (f.paramAt? k) (f'.paramAt? k) := by
  have hempty : f'.params.isEmpty = f.params.isEmpty := by
    rw [Bool.eq_iff_iff, List.isEmpty_iff_length_eq_zero, List.isEmpty_iff_length_eq_zero, h.params.length_eq]
  unfold Formals.paramAt?
  rw [← h.isVariadic, ← h.isSome_element hf, hempty, h.params.length_eq]
  split
  · exact rel_getElem? h.params k
  · split
    · exact .none
    · split
      · exact rel_getElem? h.params k
      · split
        · exact .some h.element
        · exact .none

variable {c c' : TypeId → TypeId → Bool} {args : List TypeId}

/-- Arguments convert to matching parameters alike, if each single one does. -/
theorem allConvert {params params' : List TypeId} (h : Forall₂ (TypeStore.Matches s s₁ s₂) params params')
    (hc : ∀ a ∈ args, ∀ p p', TypeStore.Matches s s₁ s₂ p p' → c a p = c' a p') :
    TypeStore.allConvert c args params = TypeStore.allConvert c' args params' := by
  induction h generalizing args with
  | nil => cases args <;> rfl
  | cons hp _ ih =>
    cases args with
    | nil => rfl
    | cons a args =>
      unfold TypeStore.allConvert
      rw [hc a (by simp) _ _ hp, ih fun a' ha' => hc a' (by simp [ha'])]

/-- What is accepted with variable arity is accepted alike. -/
theorem variableArity (hf : Fork s s₁ s₂) (h : f.Matches s s₁ s₂ f')
    (hc : ∀ a ∈ args, ∀ p p', TypeStore.Matches s s₁ s₂ p p' → c a p = c' a p') :
    f.variableArity c args = f'.variableArity c' args := by
  have hlength := h.params.length_eq
  have hlast : Option.Rel (TypeStore.Matches s s₁ s₂) f.params.getLast? f'.params.getLast? := by
    rw [List.getLast?_eq_getElem?, List.getLast?_eq_getElem?, ← hlength]
    exact rel_getElem? h.params _
  have hfixed : Forall₂ (TypeStore.Matches s s₁ s₂) f.params.dropLast f'.params.dropLast := by
    rw [List.dropLast_eq_take, List.dropLast_eq_take, ← hlength]
    exact List.forall₂_take _ h.params
  unfold Formals.variableArity
  rw [← h.isVariadic]
  cases hv : f.isVariadic with
  | false => rfl
  | true =>
    generalize f.params.getLast? = last, f'.params.getLast? = last' at hlast
    cases hlast with
    | none => rfl
    | @some l l' hl =>
      have htail : ∀ a ∈ args.drop f'.params.dropLast.length, ∀ p p', TypeStore.Matches s s₁ s₂ p p' → c a p = c' a p' :=
        fun a ha => hc a (List.mem_of_mem_drop ha)
      have htail' : (args.drop f'.params.dropLast.length).all (c · f.element) =
          (args.drop f'.params.dropLast.length).all (c' · f'.element) := by
        rw [Bool.eq_iff_iff, List.all_eq_true, List.all_eq_true]
        exact forall₂_congr fun a ha => by rw [htail a ha _ _ h.element]
      simp only [hfixed.length_eq]
      rw [allConvert hfixed fun a ha => hc a (List.mem_of_mem_take ha)]
      unfold Formals.variableTail
      rw [allConvert (.cons hl .nil) htail, h.isSome_element hf, htail']

/-- Known arguments are accepted alike. -/
theorem applicable (hf : Fork s s₁ s₂) (h : f.Matches s s₁ s₂ f') (ha : ∀ a ∈ args, s.Knows a) (ph : Phase) :
    f.applicable s₁ args ph = f'.applicable s₂ args ph := by
  have hsub : ∀ a ∈ args, ∀ p p', TypeStore.Matches s s₁ s₂ p p' → s₁.subtypeConverts a p = s₂.subtypeConverts a p' :=
    fun a h p p' hp => (TypeStore.Matches.known (ha a h)).subtypeConverts hf hp
  have hinv : ∀ a ∈ args, ∀ p p', TypeStore.Matches s s₁ s₂ p p' → s₁.invocationConverts a p = s₂.invocationConverts a p' :=
    fun a h p p' hp => hp.invocationConverts hf (ha a h)
  unfold Formals.applicable
  cases ph with
  | none => rfl
  | strict =>
    unfold Formals.fixedArity
    rw [h.isVariadic, allConvert h.params hsub]
  | loose =>
    unfold Formals.fixedArity
    rw [h.isVariadic, allConvert h.params hinv]
  | variadic => exact h.variableArity hf hinv

end Formals.Matches

/-- The formals of matching parameter types match. -/
theorem ofParams_beside {params params' : List TypeId} (v : Bool) (h : Forall₂ (Matches s p.1 p.2) params params') :
    Works s.forks (beside (Formals.ofParams params v) (Formals.ofParams params' v)) p
      fun r q => r.1.Matches s q.1 q.2 r.2 := by
  refine Works.of_sound fun hp => ?_
  have hlast : Option.Rel (Matches s p.1 p.2) params.getLast? params'.getLast? := by
    rw [List.getLast?_eq_getElem?, List.getLast?_eq_getElem?, ← h.length_eq]
    exact rel_getElem? h _
  have plain : Formals.Matches s p.1 p.2 { params, isVariadic := v } { params := params', isVariadic := v } :=
    ⟨h, rfl, .known hp.start.knows_none⟩
  unfold Formals.ofParams
  cases v with
  | false => exact Works.beside_ret plain
  | true =>
    generalize params.getLast? = last, params'.getLast? = last' at hlast
    cases hlast with
    | none => exact Works.beside_ret plain
    | some hl =>
      refine (component_beside hl).beside_bind fun e e' q _ hl' he => Works.beside_ret ?_
      have hgrows (t u : TypeId) (ht : Matches s p.1 p.2 t u) : Matches s q.1 q.2 t u := ht.grows hl'.2.1 hl'.2.2
      exact ⟨h.imp hgrows, rfl, he⟩

/-- The parameters of a known callable match. -/
theorem formals_beside {m : Method} {typeArgs : List TypeId} (hp : ∀ t ∈ m.params, s.Knows t) (ht : ∀ t ∈ typeArgs, s.Knows t) :
    Works s.forks (beside (m.formals typeArgs) (m.formals typeArgs)) p fun r q => r.1.Matches s q.1 q.2 r.2 := by
  unfold Method.formals
  split
  · exact ofParams_beside _ (List.forall₂_same.mpr fun t h => .known (hp t h))
  · have keep (t u : TypeId) (q q' : TypeStore × TypeStore) (hl : s.forks.Leads q q') (h : TypeStore.Matches s q.1 q.2 t u) :
        TypeStore.Matches s q'.1 q'.2 t u := h.grows hl.2.1 hl.2.2
    refine (Works.beside_mapM (e := s.forks) m.params keep fun t h q _ _ => ?_).beside_bind
      fun ps ps' q _ _ h => ofParams_beside _ h
    exact subst_beside (fun x hx => Method.knows_exact ht hx) (hp t h)

/-- Parameters of a known callable that have been made match. They were made in the store of
the competition on one side, and in a store of their own on the other. -/
theorem formals_matches {m : Method} {typeArgs : List TypeId} (hp : ∀ t ∈ m.params, s.Knows t) (ht : ∀ t ∈ typeArgs, s.Knows t)
    (hf : Fork s s₁ s₂) (h : m.formals typeArgs s₁ = (f, s₁)) (h' : m.formals typeArgs s₂ = (f', s₂)) :
    f.Matches s s₁ s₂ f' := by
  obtain ⟨-, hmatches⟩ := formals_beside (p := (s₁, s₂)) hp ht hf
  unfold beside at hmatches
  rwa [h, h'] at hmatches

end CallResolution
