import CallResolution.Proofs.Beside
import CallResolution.Proofs.Types.Conversion
import CallResolution.Proofs.Types.Naming
import Mathlib.Data.List.Forall2

/-!
# Types under other numbers

A text that is read in a store and again in a later one gives types that have other numbers,
because the later store has handed out numbers in between. `Outset` is a pair of such stores,
`Parallel` holds of what they become while the text is read in both, and `Alike` relates the
types: a type of the first store is itself, the type variables of the text are paired in their
order, and arrays and parameterized types of alike types are alike. Alike types have the same
name and the same erasure, and are told apart by no check.

Main statements: `Alike.name`, `Alike.isSubtype_throwable`, `array_beside` and `apply_beside`.
-/

namespace CallResolution

open TypeStore
open List (Forall₂ forall₂_iff_zip)

/-- A shape stays in a store that grows. -/
theorem TypeStore.Grows.shape_eq {s s' : TypeStore} (h : s.Grows s') {t : TypeId} {shape : TypeShape} (ht : s.shape t = shape)
    (hne : shape ≠ .absent) : s'.shape t = shape := by
  rw [h.shape (knows_of_shape (ht ▸ hne)), ht]

/-- Where two readings of a text start: in a store, and in a later one that has all of it. The
second reading hands out other numbers, and nothing else about it is different. -/
structure Outset where
  /-- The first store. -/
  early : TypeStore
  /-- The later one. -/
  late : TypeStore
  /-- The first store is well formed. -/
  wellFormed : early.WellFormed
  /-- Its classes lie in earlier ones. -/
  nested : early.Nested
  /-- The later store is well formed. -/
  wellFormed_late : late.WellFormed
  /-- It has all of the first one. -/
  within : early.Extends late

namespace Outset

variable {o : Outset} {p q : TypeStore × TypeStore} {t u : TypeId}

/-- Two types that differ in their numbers only. The type variables of the text are new on
both sides, and are paired by their places in it. -/
inductive Alike (o : Outset) (p : TypeStore × TypeStore) : TypeId → TypeId → Prop
  /-- A type of the first store. -/
  | common {t : TypeId} (known : o.early.Knows t) : Alike o p t t
  /-- Type variables of the text with the same place in it. -/
  | own {v w : TypeId} {i : Nat} (left : p.1.shape v = .typeVar (o.early.typeVars.size + i))
      (right : p.2.shape w = .typeVar (o.late.typeVars.size + i)) : Alike o p v w
  /-- Arrays of alike types. -/
  | array {t u e e' : TypeId} {d : UInt32} (left : p.1.shape t = .array e d) (right : p.2.shape u = .array e' d)
      (elem : Alike o p e e') : Alike o p t u
  /-- A class with alike arguments. -/
  | applied {t u base : TypeId} {as as' : List TypeArg} (left : p.1.shape t = .applied base as)
      (right : p.2.shape u = .applied base as') (known : o.early.Knows base) (length : as.length = as'.length)
      (wildcards : ∀ a a', (a, a') ∈ as.zip as' → a.wildcard = a'.wildcard)
      (types : ∀ a a', (a, a') ∈ as.zip as' → Alike o p a.type a'.type) : Alike o p t u

/-- Type arguments of the same kind and alike types. -/
def AlikeArgs (o : Outset) (p : TypeStore × TypeStore) (a a' : TypeArg) : Prop :=
  a.wildcard = a'.wildcard ∧ o.Alike p a.type a'.type

/-- A class with alike arguments. -/
theorem Alike.of_args {base : TypeId} {as as' : List TypeArg} (left : p.1.shape t = .applied base as)
    (right : p.2.shape u = .applied base as') (known : o.early.Knows base) (h : Forall₂ (o.AlikeArgs p) as as') :
    o.Alike p t u := by
  obtain ⟨hlength, hargs⟩ := forall₂_iff_zip.mp h
  exact .applied left right known hlength (fun _ _ ha => (hargs ha).1) fun _ _ ha => (hargs ha).2

/-- Alike types stay alike. -/
theorem Alike.grows (h : o.Alike p t u) (hleft : p.1.Grows q.1) (hright : p.2.Grows q.2) : o.Alike q t u := by
  induction h with
  | common known => exact .common known
  | own left right => exact .own (hleft.shape_eq left (by simp)) (hright.shape_eq right (by simp))
  | array left right _ ih => exact .array (hleft.shape_eq left (by simp)) (hright.shape_eq right (by simp)) ih
  | applied left right known length wildcards _ ih =>
    exact .applied (hleft.shape_eq left (by simp)) (hright.shape_eq right (by simp)) known length wildcards ih

theorem AlikeArgs.grows {a a' : TypeArg} (h : o.AlikeArgs p a a') (hleft : p.1.Grows q.1) (hright : p.2.Grows q.2) :
    o.AlikeArgs q a a' :=
  ⟨h.1, h.2.grows hleft hright⟩

/-! ## Stores that are read side by side

What both sides keep of their starts, and how the type variables of the text are paired.
-/

/-- What holds of two stores while a text is read in both: each was reached without touching
what its start has, no class was registered, and the type variables of the text have the same
names and alike bounds. It is kept by every step of the reading, on one side or on both. -/
structure Parallel (o : Outset) (p : TypeStore × TypeStore) : Prop where
  /-- The first store was reached from its start. -/
  left : (growth o.wellFormed.reading).Leads o.early p.1
  /-- The second store was reached from its start. -/
  right : (growth o.wellFormed_late.reading).Leads o.late p.2
  /-- No class was registered in the first store. -/
  leftNames : p.1.names = o.early.names
  /-- No class was registered in the second store. -/
  rightNames : p.2.names = o.late.names
  /-- Both have as many new type variables. -/
  count : p.1.typeVars.size + o.late.typeVars.size = p.2.typeVars.size + o.early.typeVars.size
  /-- The new type variables have the same names and alike bounds. -/
  vars : ∀ (i : Nat) v w, p.1.typeVars[o.early.typeVars.size + i]? = some v →
    p.2.typeVars[o.late.typeVars.size + i]? = some w → v.name = w.name ∧ Forall₂ (o.Alike p) v.bounds w.bounds

namespace Parallel

variable (h : o.Parallel p)
include h

theorem leftSound : (growth o.wellFormed.reading).Sound p.1 :=
  (growth _).sound h.left o.wellFormed.sound

theorem rightSound : (growth o.wellFormed_late.reading).Sound p.2 :=
  (growth _).sound h.right o.wellFormed_late.sound

/-- The first store has all of the start. -/
theorem leftExtends : o.early.Extends p.1 :=
  o.wellFormed.extends_of_reading h.left

/-- The second store has all of the start of the first one. -/
theorem rightExtends : o.early.Extends p.2 :=
  o.within.trans (o.wellFormed_late.extends_of_reading h.right)

/-- A name stands in the first store for what it stood for at its start. -/
theorem leftClass (name : String) : p.1.classNamed? name = o.early.classNamed? name := by
  unfold classNamed?
  rw [h.leftNames]

/-- A name stands in the second store for what it stood for at its start. -/
theorem rightClass (name : String) : p.2.classNamed? name = o.late.classNamed? name := by
  unfold classNamed?
  rw [h.rightNames]

/-- Alike types are known. -/
theorem knows (ht : o.Alike p t u) : p.1.Knows t ∧ p.2.Knows u := by
  cases ht with
  | common known => exact ⟨h.leftExtends.knows known, h.rightExtends.knows known⟩
  | own left right => exact ⟨knows_of_shape (by simp [left]), knows_of_shape (by simp [right])⟩
  | array left right => exact ⟨knows_of_shape (by simp [left]), knows_of_shape (by simp [right])⟩
  | applied left right => exact ⟨knows_of_shape (by simp [left]), knows_of_shape (by simp [right])⟩

/-- A type of the start has the same shape in both stores. -/
theorem shape_common (ht : o.early.Knows t) : p.1.shape t = o.early.shape t ∧ p.2.shape t = o.early.shape t :=
  ⟨h.leftExtends.shape ht, h.rightExtends.shape ht⟩

/-- The type variables of the text with the same place are declared in both stores. -/
theorem typeVariable {v w : TypeId} {i : Nat} (hv : p.1.shape v = .typeVar (o.early.typeVars.size + i))
    (hw : p.2.shape w = .typeVar (o.late.typeVars.size + i)) :
    ∃ x y, p.1.typeVariable? v = some x ∧ p.2.typeVariable? w = some y ∧ x.name = y.name ∧
      Forall₂ (o.Alike p) x.bounds y.bounds := by
  have hi : o.early.typeVars.size + i < p.1.typeVars.size := h.leftSound.1.refers hv (by simp)
  have hj : o.late.typeVars.size + i < p.2.typeVars.size := h.rightSound.1.refers hw (by simp)
  have hx := Array.getElem?_eq_getElem hi
  have hy := Array.getElem?_eq_getElem hj
  exact ⟨_, _, by simp [typeVariable?, hv, hx], by simp [typeVariable?, hw, hy], h.vars i _ _ hx hy⟩

end Parallel

/-! ## What alike types have in common

A check of the reading looks at kinds, at names and at erasures. All of them are the same for
alike types, so both readings succeed or fail together, with the same message.
-/

namespace Alike

/-- Alike types have the same kind as far as checks see it. -/
theorem isReference (ht : o.Alike p t u) (h : o.Parallel p) : p.1.isReference t = p.2.isReference u := by
  unfold TypeStore.isReference
  cases ht with
  | common known => rw [(h.shape_common known).1, (h.shape_common known).2]
  | own left right => rw [left, right]; rfl
  | array left right => rw [left, right]; rfl
  | applied left right => rw [left, right]; rfl

/-- A type that is alike to a type of the start without parts is that type. -/
theorem eq_iff (ht : o.Alike p t u) (h : o.Parallel p) {c : TypeId} (hc : o.early.Knows c) (hraw : isRaw (o.early.shape c)) :
    t = c ↔ u = c := by
  have hleft (hshape : isRaw (p.1.shape t) = false) : t ≠ c := by
    rintro rfl
    rw [(h.shape_common hc).1, hraw] at hshape
    cases hshape
  have hright (hshape : isRaw (p.2.shape u) = false) : u ≠ c := by
    rintro rfl
    rw [(h.shape_common hc).2, hraw] at hshape
    cases hshape
  cases ht with
  | common known => exact Iff.rfl
  | own left right => exact iff_of_false (hleft (by simp [left, isRaw])) (hright (by simp [right, isRaw]))
  | array left right => exact iff_of_false (hleft (by simp [left, isRaw])) (hright (by simp [right, isRaw]))
  | applied left right => exact iff_of_false (hleft (by simp [left, isRaw])) (hright (by simp [right, isRaw]))

/-- A class is alike to itself only, and then the start has it; what is no class is alike to
no class. -/
theorem declared_or (ht : o.Alike p t u) :
    (u = t ∧ o.early.Knows t) ∨ ((p.1.shape t).isDeclared = false ∧ (p.2.shape u).isDeclared = false) := by
  cases ht with
  | common known => exact .inl ⟨rfl, known⟩
  | own left right => exact .inr (by simp [left, right, TypeShape.isDeclared])
  | array left right => exact .inr (by simp [left, right, TypeShape.isDeclared])
  | applied left right => exact .inr (by simp [left, right, TypeShape.isDeclared])

/-! ### Names -/

/-- The names of related elements are the same. -/
theorem map_eq {α β γ : Type} {R : α → β → Prop} {l : List α} {l' : List β} (h : Forall₂ R l l') {f : α → γ} {g : β → γ}
    (hfg : ∀ a b, R a b → f a = g b) : l.map f = l'.map g := by
  induction h with
  | nil => rfl
  | cons hab _ ih => rw [List.map_cons, List.map_cons, hfg _ _ hab, ih]

/-- Alike types have the same name, down to any depth. -/
theorem nameWith (ht : o.Alike p t u) (h : o.Parallel p) (depth : Nat) :
    p.1.nameWith p.1.qualifiedName depth t = p.2.nameWith p.2.qualifiedName depth u := by
  have common {s : TypeStore} (hs : o.early.Extends s) (depth : Nat) {c : TypeId} (hc : o.early.Knows c) :
      s.nameWith s.qualifiedName depth c = o.early.nameWith o.early.qualifiedName depth c :=
    hs.nameWith o.wellFormed depth hc fun c _ hdecl => hs.qualifiedName o.wellFormed o.nested (knows_of_isDeclared hdecl)
  induction depth generalizing t u with
  | zero =>
    cases ht with
    | common known => rw [common h.leftExtends _ known, common h.rightExtends _ known]
    | own left right => simp [TypeStore.nameWith, TypeStore.contains, left, right]
    | array left right => simp [TypeStore.nameWith, TypeStore.contains, left, right]
    | applied left right => simp [TypeStore.nameWith, TypeStore.contains, left, right]
  | succ depth ih =>
    cases ht with
    | common known => rw [common h.leftExtends _ known, common h.rightExtends _ known]
    | own left right =>
      obtain ⟨x, y, hx, hy, hname, -⟩ := h.typeVariable left right
      simp [TypeStore.nameWith, left, right, hx, hy, hname]
    | array left right elem => simp [TypeStore.nameWith, left, right, ih elem]
    | @applied _ _ base as as' left right known length wildcards types =>
      have hargs : Forall₂ (o.AlikeArgs p) as as' :=
        forall₂_iff_zip.mpr ⟨length, fun ha => ⟨wildcards _ _ ha, types _ _ ha⟩⟩
      have htexts : as.map (argText (p.1.nameWith p.1.qualifiedName depth)) =
          as'.map (argText (p.2.nameWith p.2.qualifiedName depth)) := by
        refine map_eq hargs fun a a' ha => ?_
        unfold argText
        rw [ha.1, ih ha.2]
      simp only [TypeStore.nameWith, left, right, ih (.common known), htexts]

/-- Alike types have the same name. -/
theorem name (ht : o.Alike p t u) (h : o.Parallel p) : p.1.name t = p.2.name u :=
  ht.nameWith h termDepth

/-! ### Erasures -/

/-- Alike types have the same erasure, which the start knows. A type variable of the text
passes to its first bound, and its partner to the partner of that. -/
theorem erasedWithin (ht : o.Alike p t u) (h : o.Parallel p) (fuel : Nat) :
    p.1.erasedWithin fuel t = p.2.erasedWithin fuel u ∧ o.early.Knows (bare (p.1.erasedWithin fuel t)) := by
  have object : o.early.Knows .object := o.wellFormed.knows_predefined (by decide)
  have common (fuel : Nat) {c : TypeId} (hc : o.early.Knows c) :
      p.1.erasedWithin fuel c = p.2.erasedWithin fuel c ∧ o.early.Knows (bare (p.1.erasedWithin fuel c)) := by
    rw [h.leftExtends.erasedWithin o.wellFormed fuel hc, h.rightExtends.erasedWithin o.wellFormed fuel hc]
    exact ⟨rfl, o.wellFormed.knows_bare fuel hc⟩
  induction fuel generalizing t u with
  | zero =>
    cases ht with
    | common known => exact common 0 known
    | own left right => simpa [TypeStore.erasedWithin, left, right] using object
    | applied left right known => simpa [TypeStore.erasedWithin, left, right] using known
    | array left right elem =>
      have hnot := (h.leftSound.1.elem left).1
      cases elem with
      | common known =>
        have hk := o.wellFormed.knows_erasedElem known
        simpa [TypeStore.erasedWithin, left, right, erasedElem, (h.shape_common known).1, (h.shape_common known).2] using hk
      | own left' right' => simpa [TypeStore.erasedWithin, left, right, erasedElem, left', right'] using object
      | applied left' right' known => simpa [TypeStore.erasedWithin, left, right, erasedElem, left', right'] using known
      | array left' right' => simp [left', TypeShape.isArray] at hnot
  | succ fuel ih =>
    cases ht with
    | common known => exact common (fuel + 1) known
    | own left right =>
      obtain ⟨x, y, hx, hy, -, hbounds⟩ := h.typeVariable left right
      simp only [TypeStore.erasedWithin, left, right, hx, hy, Option.elim_some]
      generalize x.bounds = bs, y.bounds = bs' at hbounds
      cases hbounds with
      | nil => exact ⟨rfl, object⟩
      | cons hfirst _ => exact ih hfirst
    | applied left right known => simpa [TypeStore.erasedWithin, left, right] using known
    | array left right elem =>
      obtain ⟨heq, hknown⟩ := ih elem
      simp only [TypeStore.erasedWithin, left, right, ← heq]
      cases hx : p.1.erasedWithin fuel _ with
      | plain c =>
        rw [hx] at hknown
        have hbad : p.1.isBad c = p.2.isBad c :=
          (h.leftExtends.isBad hknown).trans (h.rightExtends.isBad hknown).symm
        simp only [Erased.arrayOf, hbad]
        refine ⟨trivial, ?_⟩
        split <;> exact hknown
      | array c d' =>
        rw [hx] at hknown
        exact ⟨rfl, hknown⟩

/-- Types with parts are compared with a class by their erasures. -/
theorem isSubtype_of_not_isRaw {s : TypeStore} (hs : s.WellFormed) (hraw : isRaw (s.shape t) = false) :
    s.isSubtype t .throwable = s.erasedSubtype (s.erased t) (s.erased .throwable) := by
  have hthrowable : s.shape .throwable = .declared 18 := hs.shape_predefined (by decide) rfl
  have hne : t ≠ .throwable := by
    rintro rfl
    simp [hthrowable, isRaw] at hraw
  have hcompared : s.isComparedErased t .throwable = true := by
    unfold isComparedErased isNull
    rw [hthrowable]
    cases hshape : s.shape t <;>
      simp_all [isRaw, isPlainlyCompared, TypeShape.isPrimitive]
  rw [TypeStore.isSubtype, if_pos hcompared]

/-- Alike types can be thrown both, or neither. -/
theorem isSubtype_throwable (ht : o.Alike p t u) (h : o.Parallel p) :
    p.1.isSubtype t .throwable = p.2.isSubtype u .throwable := by
  have throwable : o.early.Knows .throwable := o.wellFormed.knows_predefined (by decide)
  have parts (hleft : isRaw (p.1.shape t) = false) (hright : isRaw (p.2.shape u) = false) :
      p.1.isSubtype t .throwable = p.2.isSubtype u .throwable := by
    obtain ⟨heq, hknown⟩ := ht.erasedWithin h boundLimit
    obtain ⟨heq', hknown'⟩ := (Alike.common (o := o) (p := p) throwable).erasedWithin h boundLimit
    rw [isSubtype_of_not_isRaw h.leftSound.1 hleft, isSubtype_of_not_isRaw h.rightSound.1 hright, TypeStore.erased,
      TypeStore.erased, TypeStore.erased, TypeStore.erased, ← heq, ← heq',
      h.leftExtends.erasedSubtype o.wellFormed hknown hknown', h.rightExtends.erasedSubtype o.wellFormed hknown hknown']
  cases ht with
  | common known =>
    rw [h.leftExtends.isSubtype o.wellFormed known throwable, h.rightExtends.isSubtype o.wellFormed known throwable]
  | own left right => exact parts (by simp [left, isRaw]) (by simp [right, isRaw])
  | array left right => exact parts (by simp [left, isRaw]) (by simp [right, isRaw])
  | applied left right => exact parts (by simp [left, isRaw]) (by simp [right, isRaw])

end Alike

/-! ## Making alike types

The steps of the reading that make types make alike ones.
-/

/-- Stores that are read side by side, and grow. -/
def pairs (o : Outset) : Evolution (TypeStore × TypeStore) where
  Sound := o.Parallel
  Leads p q := (o.Parallel p → o.Parallel q) ∧ p.1.Grows q.1 ∧ p.2.Grows q.2
  refl _ := ⟨id, .refl _, .refl _⟩
  trans h h' := ⟨fun hp => h'.1 (h.1 hp), h.2.1.trans h'.2.1, h.2.2.trans h'.2.2⟩
  sound h := h.1

end Outset

/-- What is shown of each side alone holds of both. -/
theorem Works.sides {o : Outset} {p : TypeStore × TypeStore} {α β : Type} {x : TypeM α} {y : TypeM β}
    {P : α × β → TypeStore × TypeStore → Prop} {Q : α → TypeStore → Prop} {Q' : β → TypeStore → Prop}
    (h : Works o.pairs (beside x y) p P) (hx : Works (growth o.wellFormed.reading) x p.1 Q)
    (hy : Works (growth o.wellFormed_late.reading) y p.2 Q') :
    Works o.pairs (beside x y) p fun r q => P r q ∧ Q r.1 q.1 ∧ Q' r.2 q.2 :=
  fun hp => ⟨(h hp).1, (h hp).2, (hx hp.leftSound).2, (hy hp.rightSound).2⟩

namespace Outset

variable {o : Outset} {p q : TypeStore × TypeStore} {t u : TypeId}

/-- Giving a number to a shape leaves names and type variables alone. -/
theorem intern_frame (shape : TypeShape) (s : TypeStore) :
    (intern shape s).2.names = s.names ∧ (intern shape s).2.typeVars = s.typeVars := by
  unfold intern
  split <;> exact ⟨rfl, rfl⟩

/-- Two shapes get numbers. -/
theorem intern_beside {shape shape' : TypeShape} (made : shape.isArray ∨ ∃ base args, shape = .applied base args)
    (made' : shape'.isArray ∨ ∃ base args, shape' = .applied base args) (refers : p.1.Refers p.1.shapes.size shape)
    (refers' : p.2.Refers p.2.shapes.size shape') :
    Works o.pairs (beside (intern shape) (intern shape')) p fun r q => q.1.shape r.1 = shape ∧ q.2.shape r.2 = shape' := by
  intro hp
  obtain ⟨hleft, hshape⟩ := intern_works (g := o.wellFormed.reading) made refers hp.leftSound
  obtain ⟨hright, hshape'⟩ := intern_works (g := o.wellFormed_late.reading) made' refers' hp.rightSound
  obtain ⟨hnames, hvars⟩ := intern_frame shape p.1
  obtain ⟨hnames', hvars'⟩ := intern_frame shape' p.2
  have hgrows := growth_grows hleft
  have hgrows' := growth_grows hright
  refine ⟨⟨fun _ => ⟨hp.left.trans hleft, hp.right.trans hright, hnames.trans hp.leftNames, hnames'.trans hp.rightNames, ?_,
    fun i v w hv hw => ?_⟩, hgrows, hgrows'⟩, hshape, hshape'⟩
  · exact (congrArg₂ (· + ·) (congrArg Array.size hvars) rfl).trans
      (hp.count.trans (congrArg₂ (· + ·) (congrArg Array.size hvars').symm rfl))
  · change (intern shape p.1).2.typeVars[_]? = some v at hv
    change (intern shape' p.2).2.typeVars[_]? = some w at hw
    rw [hvars] at hv
    rw [hvars'] at hw
    obtain ⟨hname, hbounds⟩ := hp.vars i v w hv hw
    exact ⟨hname, hbounds.imp fun _ _ hb => hb.grows hgrows hgrows'⟩

/-- The element types of alike arrays are alike; other alike types are bad both, or neither.
-/
theorem Alike.array_or (ht : o.Alike p t u) (h : o.Parallel p) :
    (p.1.shape t = .bad ∧ p.2.shape u = .bad) ∨
    (∃ e e' d, p.1.shape t = .array e d ∧ p.2.shape u = .array e' d ∧ o.Alike p e e') ∨
    (p.1.isBad t = false ∧ p.1.isArray t = false ∧ p.2.isBad u = false ∧ p.2.isArray u = false) := by
  cases ht with
  | common known =>
    obtain ⟨hleft, hright⟩ := h.shape_common known
    cases hshape : o.early.shape t with
    | bad => exact .inl ⟨hleft.trans hshape, hright.trans hshape⟩
    | array e d =>
      exact .inr (.inl ⟨e, e, d, hleft.trans hshape, hright.trans hshape, .common (o.wellFormed.knows_elem hshape)⟩)
    | _ => exact .inr (.inr (by simp [isBad, isArray, TypeShape.isArray, hleft, hright, hshape]))
  | own left right => exact .inr (.inr (by simp [isBad, isArray, TypeShape.isArray, left, right]))
  | array left right elem => exact .inr (.inl ⟨_, _, _, left, right, elem⟩)
  | applied left right => exact .inr (.inr (by simp [isBad, isArray, TypeShape.isArray, left, right]))

/-- Arrays of alike types are alike. Dimensions are added to those of the elements on both
sides, and the array of the bad type is the bad type on both. -/
theorem array_beside (ht : o.Alike p t u) (d : UInt32) :
    Works o.pairs (beside (TypeStore.array t d) (TypeStore.array u d)) p fun r q => o.Alike q r.1 r.2 := by
  refine Works.of_sound fun hp => ?_
  have made {e e' : TypeId} (d : UInt32) (he : o.Alike p e e') (hleft : p.1.isBad e = false ∧ p.1.isArray e = false)
      (hright : p.2.isBad e' = false ∧ p.2.isArray e' = false) :
      Works o.pairs (beside (intern (.array e d)) (intern (.array e' d))) p fun r q => o.Alike q r.1 r.2 := by
    obtain ⟨hknown, hknown'⟩ := hp.knows he
    have hrefers : p.1.Refers p.1.shapes.size (.array e d) := ⟨hknown, by simpa [isArray] using And.symm hleft⟩
    have hrefers' : p.2.Refers p.2.shapes.size (.array e' d) := ⟨hknown', by simpa [isArray] using And.symm hright⟩
    exact (intern_beside (.inl rfl) (.inl rfl) hrefers hrefers').mono fun r q _ hl hr =>
      .array hr.1 hr.2 (he.grows hl.2.1 hl.2.2)
  by_cases hd : d = 0
  · subst hd
    exact Works.beside_ret ht
  rcases ht.array_or hp with ⟨hleft, hright⟩ | ⟨e, e', d', hleft, hright, he⟩ | ⟨hbad, harray, hbad', harray'⟩
  · refine Works.congr (y := beside (pure t) (pure u)) ?_ (Works.beside_ret ht)
    simp only [beside, array_apply hd, hleft, hright]
    rfl
  · refine Works.congr (y := beside (intern (.array e (d + d'))) (intern (.array e' (d + d')))) ?_ ?_
    · simp only [beside, array_apply hd, hleft, hright]
    · have hleft' := hp.leftSound.1.elem hleft
      have hright' := hp.rightSound.1.elem hright
      exact made _ he (by simpa [isArray] using And.symm hleft') (by simpa [isArray] using And.symm hright')
  · refine Works.congr (y := beside (intern (.array t d)) (intern (.array u d))) ?_ (made d ht ⟨hbad, harray⟩ ⟨hbad', harray'⟩)
    have other {s : TypeStore} {c : TypeId} (hb : s.isBad c = false) (ha : s.isArray c = false) :
        TypeStore.array c d s = intern (.array c d) s := by
      rw [array_apply hd]
      cases hshape : s.shape c with
      | bad => simp [isBad, hshape] at hb
      | array e d' => simp [isArray, hshape, TypeShape.isArray] at ha
      | _ => rfl
    simp only [beside, other hbad harray, other hbad' harray']

/-- A class with alike arguments. -/
theorem apply_beside {base : TypeId} {as as' : List TypeArg} (hbase : o.early.Knows base)
    (hdecl : (o.early.shape base).isDeclared) (has : Forall₂ (o.AlikeArgs p) as as') :
    Works o.pairs (beside (TypeStore.apply base as) (TypeStore.apply base as')) p fun r q => o.Alike q r.1 r.2 := by
  refine Works.of_sound fun hp => ?_
  obtain ⟨hleft, hright⟩ := hp.shape_common hbase
  have hargs (a a' : TypeArg) (ha : o.AlikeArgs p a a') := hp.knows ha.2
  have hknown : (∀ a ∈ as, p.1.Knows a.type) ∧ ∀ a ∈ as', p.2.Knows a.type := by
    clear hleft hright
    induction has with
    | nil => simp
    | cons ha _ ih => simpa using ⟨⟨(hargs _ _ ha).1, ih.1⟩, (hargs _ _ ha).2, ih.2⟩
  rw [apply_eq, apply_eq]
  have hempty : as'.isEmpty = as.isEmpty := by
    cases has <;> rfl
  rw [hempty]
  cases as.isEmpty with
  | true => exact Works.beside_ret (.common hbase)
  | false =>
    refine (intern_beside (.inr ⟨base, as, rfl⟩) (.inr ⟨base, as', rfl⟩) ?_ ?_).mono fun r q _ hl hr =>
      .of_args hr.1 hr.2 hbase (has.imp fun _ _ ha => ha.grows hl.2.1 hl.2.2)
    · exact ⟨hp.leftExtends.knows hbase, by rwa [hleft], hknown.1⟩
    · exact ⟨hp.rightExtends.knows hbase, by rwa [hright], hknown.2⟩

end Outset

end CallResolution
