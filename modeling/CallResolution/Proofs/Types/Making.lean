import CallResolution.Proofs.Text.Separators
import CallResolution.Proofs.Types.Growth

/-!
# Made types are known

What the functions that make types do to a store. Each of them moves along the evolution of
stores under every guard, and the number it gives back is known to the store it leaves, as
long as the numbers it was given are known. A type that is made from one that can be written
down can be written down itself.

The functions are followed once. A property of types is `Closed` when it passes from a type to
its parts and bounds and back to arrays, and `Substitutive` when it passes to arguments and
back to parameterized types as well; then it passes from a type to its erasure and to its
instances (`Closed.erasureWithin`, `Substitutive.substWithin`). That a number is known is such
a property, and so is that a type is not bad; other modules use more of them, along other
evolutions.

What is new in a store is made by `intern` and by the functions that register. A shape gets
the number that it has, and this takes that the store finds it: the maps from shapes and from
texts are in step with the list of shapes, and a text tells the class and the arguments of a
type apart (`argsKey_injective`). The section on keys shows this, and `intern_apply` is what
comes of it.

Main statements: `Closed.erasureWithin` and `Substitutive.substWithin` for properties of types
in general, and `intern_works`, `array_works`, `erasure_works` and `subst_works`.
-/

namespace CallResolution.TypeStore

/-! ## What making types does not leave

Components, erasures and instantiations are put together from parts of types, from bounds, and
from arrays and parameterized types that are made of these. So whatever holds of parts, of
bounds and of what is made along an evolution of stores holds of the results. The invariants
of stores differ in which stores are sound and in what is asked of numbers, but the walk
through the functions is one.
-/

section Closed

/-- A property of types of a store that parts, bounds, and arrays have when the types do that
they belong to. It is stated along an evolution, since what is asked of a number may be asked
of the store that was left by then. -/
structure Closed (e : Evolution TypeStore) (P : TypeStore → TypeId → Prop) : Prop where
  /-- It stays. -/
  keeps : ∀ {s s' t}, e.Leads s s' → P s t → P s' t
  /-- The number 0 has it. -/
  none : ∀ {s}, e.Sound s → P s .none
  /-- The root class has it. -/
  object : ∀ {s}, e.Sound s → P s .object
  /-- Elements of arrays have it. -/
  elem : ∀ {s t elem d}, e.Sound s → s.shape t = .array elem d → P s elem
  /-- Classes behind parameterized types have it. -/
  base : ∀ {s t base args}, e.Sound s → s.shape t = .applied base args → P s base
  /-- First bounds have it. -/
  bound : ∀ {s t b}, e.Sound s → ((s.typeVariable? t).elim [] (·.bounds)).head? = some b → P s b
  /-- Arrays have it. -/
  array : ∀ {s elem} (d : UInt32), P s elem → Works e (array elem d) s fun t s' => P s' t

/-- A closed property that arguments and parameterized types have, too. -/
structure Substitutive (e : Evolution TypeStore) (P : TypeStore → TypeId → Prop) : Prop extends Closed e P where
  /-- Arguments have it. -/
  args : ∀ {s t base args}, e.Sound s → s.shape t = .applied base args → ∀ a ∈ args, P s a.type
  /-- A type with other arguments than it has in an earlier store has it. -/
  apply : ∀ {s s' t base args args'}, e.Sound s → s.shape t = .applied base args → e.Leads s s' → (∀ a ∈ args', P s' a.type) →
    Works e (apply base args') s' fun u s'' => P s'' u

/-- What a list of pairs maps a key to stands in it. -/
theorem mem_of_lookup {κ α : Type} [BEq κ] [LawfulBEq κ] {k : κ} {a : α} {l : List (κ × α)} (h : l.lookup k = some a) :
    (k, a) ∈ l := by
  obtain ⟨l₁, l₂, rfl, -⟩ := List.lookup_eq_some_iff.mp h
  simp

variable {e : Evolution TypeStore} {P : TypeStore → TypeId → Prop} {s : TypeStore} {t : TypeId}

namespace Closed

/-- An array without its outermost dimension. -/
theorem component (hP : Closed e P) (t : TypeId) : Works e (component t) s fun c s' => P s' c := by
  refine Works.of_sound fun hs => Works.read ?_
  split
  · rename_i elem d h
    split
    · exact Works.ret (hP.elem hs h)
    · exact hP.array _ (hP.elem hs h)
  · exact Works.ret (hP.none hs)

/-- An array without some of its dimensions. -/
theorem stripDims (hP : Closed e P) (n : UInt32) (ht : P s t) :
    Works e (stripDims t n) s fun c s' => ∀ u ∈ c, P s' u := by
  refine Works.of_sound fun hs => ?_
  unfold TypeStore.stripDims
  split
  · exact Works.ret (by simpa using ht)
  · refine Works.read ?_
    split
    · rename_i elem d h
      have helem := hP.elem hs h
      split
      · exact Works.ret (by simp)
      · split
        · exact Works.ret (by simpa using helem)
        · exact (hP.array _ helem).bind fun c s' _ _ hc => Works.ret (by simpa using hc)
    · exact Works.ret (by simp)

/-- What an array element is erased to without following bounds. -/
theorem erasedElem (hP : Closed e P) (hs : e.Sound s) (ht : P s t) : P s (s.erasedElem t) := by
  unfold TypeStore.erasedElem
  split
  · rename_i base args h
    exact hP.base hs h
  · exact hP.object hs
  · exact ht

/-- The erasure of a type. By recursion on the number of bounds that may be followed: an array
is taken apart and put together again, and a type variable passes to its first bound. -/
theorem erasureWithin (hP : Closed e P) (fuel : Nat) (ht : P s t) : Works e (erasureWithin fuel t) s fun u s' => P s' u := by
  induction fuel generalizing s t with
  | zero =>
    refine Works.of_sound fun hs => ?_
    unfold TypeStore.erasureWithin
    refine Works.read ?_
    split
    · rename_i base args h
      exact Works.ret (hP.base hs h)
    · rename_i elem d h
      simp only [pure_bind]
      split
      · exact Works.ret ht
      · exact hP.array _ (hP.erasedElem hs (hP.elem hs h))
    · exact Works.ret (hP.object hs)
    · exact Works.ret ht
  | succ fuel ih =>
    refine Works.of_sound fun hs => ?_
    unfold TypeStore.erasureWithin
    refine Works.read ?_
    split
    · rename_i base args h
      exact Works.ret (hP.base hs h)
    · rename_i elem d h
      refine (ih (hP.elem hs h)).bind fun u s' _ hl hu => ?_
      beta_reduce
      split
      · exact Works.ret (hP.keeps hl ht)
      · exact hP.array _ hu
    · simp only
      split
      · rename_i b hb
        exact ih (hP.bound hs hb)
      · exact Works.ret (hP.object hs)
    · exact Works.ret ht

/-- The types that a comparison goes through. -/
theorem numberCompared (hP : Closed e P) (fuel : Nat) {a b : TypeId} (ha : P s a) (hb : P s b) :
    Works e (numberCompared fuel a b) s fun _ _ => True := by
  induction fuel generalizing s a b with
  | zero => exact Works.ret trivial
  | succ fuel ih =>
    unfold TypeStore.numberCompared
    refine Works.read ?_
    split
    · refine (hP.erasureWithin _ ha).bind fun a' s₁ _ hl ha' => ?_
      refine (hP.erasureWithin _ (hP.keeps hl hb)).bind fun b' s₂ _ _ hb' => Works.read ?_
      split
      · refine (hP.component a').bind fun c s₃ _ _ hc => ?_
        exact (hP.component b').bind fun c' s₄ _ hl' hc' => ih (hP.keeps hl' hc) hc'
      · exact Works.ret trivial
    · exact Works.ret trivial

/-- Whether a type is a subtype of another one. -/
theorem checkSubtype (hP : Closed e P) {a b : TypeId} (ha : P s a) (hb : P s b) : Works e (checkSubtype a b) s fun _ _ => True :=
  Works.read ((hP.numberCompared _ ha hb).bind fun _ _ _ _ _ => Works.ret trivial)

/-- What a type variable stands for under an argument. -/
theorem argUpper (hP : Closed e P) {a : TypeArg} (ha : P s a.type) (ht : P s t) :
    Works e (argUpper a t) s fun u s' => P s' u := by
  unfold TypeStore.argUpper
  split
  · split
    · exact Works.ret ha
    · exact hP.erasureWithin _ ht
  · split
    · exact Works.ret ha
    · exact hP.erasureWithin _ ht
  · exact hP.erasureWithin _ ht

end Closed

/-- The type in an argument that is instantiated. -/
theorem substArg_closed {inner : TypeId → TypeM TypeId} {map : List (TypeId × TypeArg)} {a : TypeArg}
    (hmap : ∀ p ∈ map, P s p.2.type) (ha : P s a.type) (hinner : Works e (inner a.type) s fun u s' => P s' u) :
    Works e (substArg inner map a) s fun b s' => P s' b.type := by
  have deep : Works e (do return { a with type := ← inner a.type }) s fun b s' => P s' b.type :=
    hinner.bind fun u s' _ _ hu => Works.ret hu
  unfold substArg
  split
  · exact Works.ret ha
  · refine Works.read ?_
    split
    · split
      · rename_i b hb
        exact Works.ret (hmap _ (mem_of_lookup hb))
      · exact deep
    · exact deep
  · exact deep

namespace Substitutive

/-- A type that is instantiated, down to a depth. By recursion on the depth: what is below it
is left as it is, and the parts of what is above it have the property before they are put
together. -/
theorem substWithin (hP : Substitutive e P) {map : List (TypeId × TypeArg)} (depth : Nat) (hmap : ∀ p ∈ map, P s p.2.type)
    (ht : P s t) : Works e (substWithin map depth t) s fun u s' => P s' u := by
  induction depth generalizing s t with
  | zero => exact Works.ret ht
  | succ depth ih =>
    refine Works.of_sound fun hs => Works.read ?_
    split
    · split
      · rename_i a ha
        exact hP.argUpper (hmap _ (mem_of_lookup ha)) ht
      · exact Works.ret ht
    · rename_i elem d h
      refine (ih hmap (hP.elem hs h)).bind fun u s' _ hl hu => ?_
      split
      · exact Works.ret (hP.keeps hl ht)
      · exact hP.array _ hu
    · rename_i base args h
      have keep : ∀ (b : TypeArg) (u v : TypeStore), e.Leads u v → P u b.type → P v b.type := fun _ _ _ hl => hP.keeps hl
      refine (Works.mapM args keep fun a ha u _ hl => ?_).bind fun args' s' _ hl hargs => ?_
      · have hm : ∀ p ∈ map, P u p.2.type := fun p hp => hP.keeps hl (hmap p hp)
        have hk := hP.keeps hl (hP.args hs h a ha)
        exact substArg_closed hm hk (ih hm hk)
      · split
        · exact Works.ret (hP.keeps hl ht)
        · exact hP.apply hs h hl hargs.2
    · exact Works.ret ht

/-- A type that is instantiated by arguments. -/
theorem subst (hP : Substitutive e P) {params : List TypeId} {args : List TypeArg} (hargs : ∀ a ∈ args, P s a.type) (ht : P s t) :
    Works e (subst t params args) s fun u s' => P s' u := by
  unfold TypeStore.subst
  split
  · exact Works.ret ht
  · exact hP.substWithin _ (fun p hp => hargs _ (List.of_mem_zip hp).2) ht

end Substitutive

end Closed

variable {g : Guard} {s s' : TypeStore}

/-! ## Predefined numbers

The predefined types have fixed numbers, and a well-formed store has the predefined shapes in
front. So what is computed of them is the same in every store.
-/

/-- A predefined number has its shape. -/
theorem WellFormed.shape_predefined (hs : s.WellFormed) {t : TypeId} {shape : TypeShape} (ht : t ≠ .none)
    (h : predefinedShapes[t.index]? = some shape) : s.shape t = shape := by
  unfold TypeStore.shape
  rw [if_neg ht]
  simp [Array.getD_eq_getD_getElem?, hs.predefined _ _ h]

/-- A predefined number is known. -/
theorem WellFormed.knows_predefined (hs : s.WellFormed) {t : TypeId} (h : t.index < predefinedShapes.length) :
    s.Knows t :=
  Nat.lt_of_lt_of_le h hs.size

/-- No type is a known number. -/
theorem WellFormed.knows_none (hs : s.WellFormed) : s.Knows .none :=
  hs.pos

/-- No type is not the bad type. -/
theorem WellFormed.genuine_none (hs : s.WellFormed) : s.Genuine .none :=
  ⟨hs.knows_none, by simp [isBad, shape]⟩

/-- The root class is a class. -/
theorem WellFormed.shape_object (hs : s.WellFormed) : s.shape .object = .declared 0 :=
  hs.shape_predefined (by decide) (by decide)

/-- What is declared is declared of known classes, which are no type variables and no arrays.
-/
theorem inheritable_of_classInfo {t : TypeId} (h : (s.classInfo? t).isSome) : s.Inheritable t := by
  refine ⟨knows_of_classInfo h, ?_⟩
  unfold classInfo? classSlot? at h
  cases hshape : s.shape t <;> simp_all [TypeShape.isVariable, TypeShape.isArray]

/-- A class may inherit from nothing. -/
theorem WellFormed.inheritable_none (hs : s.WellFormed) : s.Inheritable .none :=
  ⟨hs.knows_none, by simp [shape, TypeShape.isVariable, TypeShape.isArray]⟩

/-- A class may inherit from the root class. -/
theorem WellFormed.inheritable_object (hs : s.WellFormed) : s.Inheritable .object :=
  ⟨hs.knows_predefined (by decide), by simp [hs.shape_object, TypeShape.isVariable, TypeShape.isArray]⟩

/-- The class of class objects is a class. -/
theorem WellFormed.shape_class (hs : s.WellFormed) : s.shape .class_ = .declared 6 :=
  hs.shape_predefined (by decide) (by decide)

/-- A primitive type is primitive. -/
theorem WellFormed.shape_ofPrimitive (hs : s.WellFormed) (p : Primitive) : s.shape (.ofPrimitive p) = .primitive p := by
  cases p <;> exact hs.shape_predefined (by decide) (by decide)

/-- `void` has its shape. -/
theorem WellFormed.shape_void (hs : s.WellFormed) : s.shape .void = .void :=
  hs.shape_predefined (by decide) (by decide)

/-! ## Parts

What is found in a well-formed store is in order: the parts of a shape, the declaration of a
class and the bounds of a type variable are known numbers. These are the fields of
`WellFormed`, read at the functions that look them up.
-/

/-- The shape of a number is the one that the store has at its place. -/
theorem getElem?_of_shape {t : TypeId} {shape : TypeShape} (h : s.shape t = shape) (hne : shape ≠ .absent) :
    s.shapes[t.index]? = some shape := by
  have hk : s.Knows t := knows_of_shape (h ▸ hne)
  have h' : s.shape t = s.shapes[t.index] := by
    have hn : t ≠ .none := by
      rintro rfl
      exact hne (by simp [← h, TypeStore.shape])
    unfold TypeStore.shape
    rw [if_neg hn]
    simp [Array.getD_eq_getD_getElem?, Array.getElem?_eq_getElem hk]
  rw [Array.getElem?_eq_getElem hk, ← h', h]

/-- Where no two numbers have one shape, neither do two types. -/
theorem eq_of_distinct (distinct : s.shapes.toList.Nodup) {t u : TypeId} (h : s.shape t = s.shape u) (hne : s.shape t ≠ .absent) :
    t = u := by
  have ht := getElem?_of_shape rfl hne
  have hu := getElem?_of_shape h.symm hne
  rw [← Array.getElem?_toList] at ht hu
  have hlt : t.index < s.shapes.toList.length := (List.getElem?_eq_some_iff.mp ht).1
  exact congrArg TypeId.mk ((List.getElem?_inj hlt distinct).mp (ht.trans hu.symm))

/-- No two types have one shape. -/
theorem WellFormed.eq_of_shape (hs : s.WellFormed) {t u : TypeId} (h : s.shape t = s.shape u) (hne : s.shape t ≠ .absent) :
    t = u :=
  eq_of_distinct hs.distinct h hne

/-- The parts of a type are known, and come before it. -/
theorem WellFormed.refers (hs : s.WellFormed) {t : TypeId} {shape : TypeShape} (h : s.shape t = shape)
    (hne : shape ≠ .absent) : s.Refers t.index shape :=
  hs.shapes _ _ (getElem?_of_shape h hne)

/-- What comes before a known number is known. -/
theorem knows_of_lt {t u : TypeId} (ht : s.Knows t) (h : u.index < t.index) : s.Knows u :=
  Nat.lt_trans h ht

/-- The element of an array is known. -/
theorem WellFormed.knows_elem (hs : s.WellFormed) {t e : TypeId} {d : UInt32} (h : s.shape t = .array e d) :
    s.Knows e :=
  knows_of_lt (knows_of_shape (by simp [h])) (hs.refers h (by simp)).1

/-- The element of an array is neither an array nor bad. -/
theorem WellFormed.elem (hs : s.WellFormed) {t e : TypeId} {d : UInt32} (h : s.shape t = .array e d) :
    ¬ (s.shape e).isArray ∧ ¬ s.isBad e :=
  (hs.refers h (by simp)).2

/-- The class behind a parameterized type is a class. -/
theorem WellFormed.base (hs : s.WellFormed) {t base : TypeId} {args : List TypeArg}
    (h : s.shape t = .applied base args) : (s.shape base).isDeclared :=
  (hs.refers h (by simp)).2.1

/-- The arguments of a parameterized type are known. -/
theorem WellFormed.knows_arg (hs : s.WellFormed) {t base : TypeId} {args : List TypeArg}
    (h : s.shape t = .applied base args) {a : TypeArg} (ha : a ∈ args) : s.Knows a.type :=
  knows_of_lt (knows_of_shape (by simp [h])) ((hs.refers h (by simp)).2.2 a ha)

/-- What is declared of a class mentions known numbers. -/
theorem WellFormed.knows_classInfo (hs : s.WellFormed) {t : TypeId} {info : ClassInfo} (h : s.classInfo? t = some info) :
    s.KnowsClass info := by
  unfold classInfo? at h
  obtain ⟨slot, -, h⟩ := Option.bind_eq_some_iff.mp h
  exact hs.classes slot info h

/-- Bounds of a type variable are types that can be written down. -/
theorem WellFormed.denotes_bound (hs : s.WellFormed) {t : TypeId} {v : TypeVariable} (h : s.typeVariable? t = some v)
    {b : TypeId} (hb : b ∈ v.bounds) : s.Denotes b := by
  unfold typeVariable? at h
  split at h
  · exact hs.typeVars _ v h b hb
  · cases h

/-- The first bound of a type variable is a type that can be written down. -/
theorem WellFormed.denotes_firstBound (hs : s.WellFormed) {t b : TypeId}
    (h : ((s.typeVariable? t).elim [] (·.bounds)).head? = some b) : s.Denotes b := by
  cases hv : s.typeVariable? t with
  | none => simp [hv] at h
  | some v =>
    rw [hv] at h
    exact hs.denotes_bound hv (List.mem_of_head? h)

/-- The class behind a known type is known. -/
theorem WellFormed.knows_classOf (hs : s.WellFormed) {t : TypeId} (ht : s.Knows t) : s.Knows (s.classOf t) := by
  unfold classOf
  split
  · exact ht
  · rename_i base args h
    exact knows_of_isDeclared (hs.base h)
  · exact hs.knows_none

/-- The class behind a type is declared, if there is one. -/
theorem WellFormed.classOf_cases (hs : s.WellFormed) (t : TypeId) :
    s.classOf t = .none ∨ ∃ slot, s.shape (s.classOf t) = .declared slot := by
  unfold classOf
  split
  · rename_i slot h
    exact .inr ⟨slot, h⟩
  · rename_i base args h
    have hbase := hs.base h
    cases hshape : s.shape base with
    | declared slot => exact .inr ⟨slot, rfl⟩
    | _ => simp [hshape, TypeShape.isDeclared] at hbase
  · exact .inl rfl

/-- The class behind a class is the class itself. -/
theorem WellFormed.classOf_classOf (hs : s.WellFormed) (t : TypeId) : s.classOf (s.classOf t) = s.classOf t := by
  rcases hs.classOf_cases t with h | ⟨slot, h⟩
  · rw [h]
    simp [classOf, shape]
  · generalize s.classOf t = cls at h
    simp [classOf, h]

/-- What is declared of a type is declared of the class behind it. -/
theorem WellFormed.classInfo?_classOf (hs : s.WellFormed) (t : TypeId) : s.classInfo? (s.classOf t) = s.classInfo? t := by
  have hnone : s.classSlot? .none = none := by simp [classSlot?, shape]
  suffices h : s.classSlot? (s.classOf t) = s.classSlot? t by simp only [classInfo?, h]
  cases h : s.shape t with
  | declared slot => simp [classOf, h]
  | applied base args =>
    have hbase := hs.base h
    cases hshape : s.shape base <;> simp_all [classOf, classSlot?, TypeShape.isDeclared]
  | _ =>
    have hcls : s.classOf t = .none := by simp only [classOf, h]
    rw [hcls, hnone]
    simp only [classSlot?, h]

/-- The class behind a type is no array. -/
theorem WellFormed.isArray_classOf (hs : s.WellFormed) (t : TypeId) : s.isArray (s.classOf t) = false := by
  rcases hs.classOf_cases t with h | ⟨slot, h⟩
  · rw [h]
    simp [isArray, shape, TypeShape.isArray]
  · simp [isArray, h, TypeShape.isArray]

/-- Something is declared of a class. -/
theorem WellFormed.exists_classInfo (hs : s.WellFormed) {t : TypeId} (h : (s.shape t).isDeclared) :
    ∃ info, s.classInfo? t = some info := by
  cases hshape : s.shape t with
  | declared slot =>
    have hslot : slot < s.classes.size := hs.refers hshape (by simp)
    exact ⟨_, Option.bind_eq_some_iff.mpr ⟨slot, by simp [classSlot?, hshape], Array.getElem?_eq_getElem hslot⟩⟩
  | _ => simp [hshape, TypeShape.isDeclared] at h

/-! ## Keys

The two maps of a store are in step with its shapes, so what is found in them is what a search
through the shapes finds. For the map from texts this takes that the class and the arguments
can be told from the text: their numbers are written in decimal digits, and what stands behind
each of them is no digit.
-/

/-- A shape that has a key is this key. -/
theorem eq_of_structureKey? {shape key : TypeShape} (h : shape.structureKey? = some key) : shape = key := by
  cases shape <;> first | exact Option.some.inj h | cases h

/-- Shapes with one key are one. -/
theorem structureKey?_injective {shape shape' key : TypeShape} (h : shape.structureKey? = some key)
    (h' : shape'.structureKey? = some key) : shape = shape' :=
  (eq_of_structureKey? h).trans (eq_of_structureKey? h').symm

/-- A shape has a shape that is its own key as a key when it is this one. -/
theorem structureKey?_eq_some {shape shape' : TypeShape} (hkey : shape.structureKey? = some shape) :
    shape'.structureKey? = some shape ↔ shape' = shape := by
  constructor
  · exact eq_of_structureKey?
  · rintro rfl
    exact hkey

/-- Arrays and types with arguments are their own keys. -/
theorem structureKey?_of_made {shape : TypeShape} (made : shape.isArray ∨ ∃ base args, shape = .applied base args) :
    shape.structureKey? = some shape := by
  rcases made with harray | ⟨base, args, rfl⟩
  · cases shape <;> first | rfl | cases harray
  · rfl

/-- Kinds of arguments can be told from their numbers. -/
theorem wildcardCode_injective : Function.Injective Wildcard.code := by
  intro a b h
  cases a <;> cases b <;> first | rfl | cases h

/-- The characters of the text of an argument. -/
theorem toList_typeArgKey (a : TypeArg) :
    a.key.toList = (toString a.wildcard.code).toList ++ ':' :: ((toString a.type.index).toList ++ [',']) := by
  simp [TypeArg.key]

/-- Arguments can be told from their texts. Each text consists of two numbers with a mark
behind each that is no digit, so the first arguments of two lists with one text agree, and
what follows them is one text again. -/
theorem typeArgKeys_injective {as bs : List TypeArg}
    (h : as.flatMap (fun a => a.key.toList) = bs.flatMap fun b => b.key.toList) : as = bs := by
  induction as generalizing bs with
  | nil =>
    cases bs with
    | nil => rfl
    | cons b bs => simp [toList_typeArgKey] at h
  | cons a as ih =>
    cases bs with
    | nil => simp [toList_typeArgKey] at h
    | cons b bs =>
      rw [List.flatMap_cons, List.flatMap_cons, toList_typeArgKey, toList_typeArgKey] at h
      simp only [List.append_assoc, List.cons_append, List.nil_append] at h
      obtain ⟨hkind, h⟩ := Text.toString_append_inj rfl h
      obtain ⟨htype, h⟩ := Text.toString_append_inj rfl h
      have hab : a = b := by
        cases a
        cases b
        exact congrArg₂ TypeArg.mk (wildcardCode_injective hkind) (congrArg TypeId.mk htype)
      rw [hab, ih h]

/-- The class and the arguments can be told from the text. Were it not so, two types with
arguments could share a number, or one of them have two. -/
theorem argsKey_injective {base base' : TypeId} {args args' : List TypeArg} (h : argsKey base args = argsKey base' args') :
    base = base' ∧ args = args' := by
  have hchars := congrArg String.toList h
  simp only [argsKey, String.toList_append, String.toList_join, List.flatMap_map, List.append_assoc] at hchars
  obtain ⟨hbase, hargs⟩ := Text.toString_append_inj (c := '<') rfl hchars
  exact ⟨congrArg TypeId.mk hbase, typeArgKeys_injective hargs⟩

/-- Only the class with the arguments has their text as a key. -/
theorem argsKey?_eq_some {shape : TypeShape} {base : TypeId} {args : List TypeArg} :
    shape.argsKey? = some (argsKey base args) ↔ shape = .applied base args := by
  constructor
  · intro h
    cases shape with
    | applied base' args' =>
      obtain ⟨rfl, rfl⟩ := argsKey_injective (Option.some.inj h)
      rfl
    | _ => cases h
  · rintro rfl
    rfl

/-- Types with arguments and with one key are one. This is what the map from texts rests on: a
key that is found leads to the type that was asked for, and not only to one with a similar
text. -/
theorem argsKey?_injective {shape shape' : TypeShape} {key : String} (h : shape.argsKey? = some key)
    (h' : shape'.argsKey? = some key) : shape = shape' := by
  cases shape with
  | applied base args =>
    obtain rfl : argsKey base args = key := Option.some.inj h
    exact (argsKey?_eq_some.mp h').symm
  | _ => cases h

/-! ## Interning

Types are compared by their numbers everywhere, so the number of a type that is made again has
to be the one that it has. `intern_works` says that a number is given back whose shape is the
one asked for, and that nothing else is touched.
-/

/-- What the map from shapes finds is the first number with the shape. -/
theorem intern_eq {shape : TypeShape} (hkey : shape.structureKey? = some shape) (s : TypeStore) :
    intern shape s = match s.shapes.findIdx? (· = shape) with
      | some i => (⟨i⟩, s)
      | none => push shape s := by
  have hsame : (fun shape' : TypeShape => decide (shape'.structureKey? = some shape)) = fun shape' => decide (shape' = shape) := by
    funext shape'
    rw [decide_eq_decide, structureKey?_eq_some hkey]
  unfold intern
  rw [s.index_inStep shape, hsame]
  cases s.shapes.findIdx? (· = shape) <;> rfl

/-- A class with arguments is found by its text when it is found by its shape. -/
theorem apply_eq (base : TypeId) (args : List TypeArg) :
    apply base args = if args.isEmpty then pure base else intern (.applied base args) := by
  have hsame : (fun shape : TypeShape => decide (shape.argsKey? = some (argsKey base args))) =
      fun shape => decide (shape = .applied base args) := by
    funext shape
    rw [decide_eq_decide, argsKey?_eq_some]
  funext s
  unfold apply
  split
  · rfl
  · rw [s.argsIndex_inStep, hsame, intern_eq rfl]
    cases s.shapes.findIdx? (· = .applied base args) <;> rfl

/-- A shape that is its own key gets the number that has it, or it is added. The two maps that
make the search fast do not show in this: what they find is what a search through the shapes
would find. -/
theorem intern_apply (first : s.shapes[0]? = some .absent) {shape : TypeShape} (hkey : shape.structureKey? = some shape) :
    (∃ t, intern shape s = (t, s) ∧ s.shape t = shape) ∨ shape ∉ s.shapes ∧ intern shape s = push shape s := by
  have hne : shape ≠ .absent := by
    rintro rfl
    cases hkey
  rw [intern_eq hkey]
  split
  · rename_i i h
    obtain ⟨hi, heq, -⟩ := Array.findIdx?_eq_some_iff_getElem.mp h
    have hplace : s.shapes[i]? = some shape := by simpa [Array.getElem?_eq_getElem hi] using heq
    have hn : (⟨i⟩ : TypeId) ≠ .none := by
      intro hnone
      obtain rfl : i = 0 := congrArg TypeId.index hnone
      exact hne (Option.some.inj (hplace.symm.trans first))
    exact .inl ⟨⟨i⟩, rfl, by simp [TypeStore.shape, hn, Array.getD_eq_getD_getElem?, hplace]⟩
  · rename_i h
    refine .inr ⟨fun hmem => ?_, rfl⟩
    have := Array.findIdx?_eq_none_iff.mp h shape hmem
    simp at this

/-- An array or parameterized type gets a number, the same one every time. Only its parts must
be known: what is found was made of the same parts. -/
theorem intern_works {shape : TypeShape} (made : shape.isArray ∨ ∃ base args, shape = .applied base args)
    (refers : s.Refers s.shapes.size shape) : Works (growth g) (intern shape) s fun t s' => s'.shape t = shape := by
  intro hs
  rcases intern_apply (hs.1.predefined 0 _ rfl) (structureKey?_of_made made) with ⟨t, h, hshape⟩ | ⟨new, h⟩
  · rw [h]
    exact ⟨.refl, hshape⟩
  · rw [h]
    exact ⟨Step.leads (.derived made refers new), shape_push hs.1.pos rfl⟩

/-- A type with an array shape is known and can be written down. -/
theorem denotes_of_isArray {t : TypeId} (h : (s.shape t).isArray) : s.Denotes t := by
  unfold Denotes
  cases hs : s.shape t <;> simp_all [TypeShape.isArray]

/-- What the array of a type is made from. -/
theorem array_apply {e : TypeId} {d : UInt32} (hd : d ≠ 0) : array e d s =
    match s.shape e with
    | .bad => (e, s)
    | .array e' d' => intern (.array e' (d + d')) s
    | _ => intern (.array e d) s := by
  unfold array
  rw [if_neg hd, get_bind_apply]
  cases s.shape e <;> rfl

/-- The array of a known type is known, and it is an array when there are dimensions and the
type can be written down. It is not bad unless the type is. The dimensions of an array are
added to those of its element, and in a word of 32 bits they may wrap around to none. -/
theorem array_works {e : TypeId} (d : UInt32) (he : s.Knows e) :
    Works (growth g) (array e d) s fun t s' =>
      s'.Knows t ∧ (s.Denotes e → s'.Denotes t ∧ (d ≠ 0 → s'.isArray t)) ∧ (s.Genuine e → s'.Genuine t) := by
  refine Works.of_sound fun hs => ?_
  have made {e' : TypeId} {d' : UInt32} (refers : s.Refers s.shapes.size (.array e' d')) :
      Works (growth g) (intern (.array e' d')) s fun t s' =>
        s'.Knows t ∧ (s.Denotes e → s'.Denotes t ∧ (d ≠ 0 → s'.isArray t)) ∧ (s.Genuine e → s'.Genuine t) := by
    refine (intern_works (.inl rfl) refers).mono fun t s' _ _ h => ?_
    have harray : (s'.shape t).isArray := h ▸ rfl
    have hdenotes := denotes_of_isArray harray
    exact ⟨hdenotes.knows, fun _ => ⟨hdenotes, fun _ => harray⟩, fun _ => hdenotes.genuine⟩
  unfold array
  split
  · rename_i hnone
    exact Works.ret ⟨he, fun hdenotes => ⟨hdenotes, fun hsome => absurd hnone hsome⟩, id⟩
  · refine Works.read ?_
    split
    · rename_i hbad
      exact Works.ret ⟨he, fun hdenotes => absurd hbad hdenotes.2.2, id⟩
    · rename_i e' d' h
      exact made ⟨hs.1.knows_elem h, hs.1.elem h⟩
    · rename_i hbad harr
      refine made ⟨he, ?_, by simpa [isBad] using hbad⟩
      cases h : s.shape e <;> simp_all [TypeShape.isArray]

/-- A class with known arguments is known. -/
theorem apply_works {base : TypeId} {args : List TypeArg} (hb : (s.shape base).isDeclared)
    (ha : ∀ a ∈ args, s.Knows a.type) :
    Works (growth g) (apply base args) s fun t s' => s'.Denotes t ∧ s'.IsBound t := by
  rw [apply_eq]
  split
  · refine Works.ret ?_
    unfold Denotes IsBound isReference isArray
    cases h : s.shape base <;> simp_all [TypeShape.isDeclared, TypeShape.isReference, TypeShape.isArray]
  · refine (intern_works (.inr ⟨base, args, rfl⟩) ⟨knows_of_isDeclared hb, hb, ha⟩).mono fun t s' _ _ h => ?_
    simp [Denotes, IsBound, isReference, isArray, h, TypeShape.isReference, TypeShape.isArray]

/-- A class with arguments is a parameterized type. -/
theorem apply_shape {base : TypeId} {args : List TypeArg} (hb : (s.shape base).isDeclared) (ha : ∀ a ∈ args, s.Knows a.type)
    (hsome : args ≠ []) : Works (growth g) (apply base args) s fun t s' => s'.shape t = .applied base args := by
  rw [apply_eq, if_neg (by simpa using hsome)]
  exact intern_works (.inr ⟨base, args, rfl⟩) ⟨knows_of_isDeclared hb, hb, ha⟩

/-! ## Parts of types

Taking a type apart gives known types.
-/

/-- Types that are made from known ones are known. -/
theorem knows_substitutive : Substitutive (growth g) Knows where
  keeps hl ht := (growth_grows hl).knows ht
  none hs := hs.1.knows_none
  object hs := hs.1.knows_predefined (by decide)
  elem hs h := hs.1.knows_elem h
  base hs h := knows_of_isDeclared (hs.1.base h)
  bound hs h := (hs.1.denotes_firstBound h).knows
  array d h := (array_works d h).mono fun _ _ _ _ h => h.1
  args hs h a ha := hs.1.knows_arg h ha
  apply hs h hl hargs :=
    (apply_works ((growth_grows hl).isDeclared (hs.1.base h)) hargs).mono fun _ _ _ _ h => h.1.knows

/-- Types that are made from types that are not bad are not bad. -/
theorem genuine_closed : Closed (growth g) Genuine where
  keeps hl ht := (growth_grows hl).genuine ht
  none hs := hs.1.genuine_none
  object hs := genuine_of_isDeclared (hs.1.shape_object ▸ rfl)
  elem hs h := ⟨hs.1.knows_elem h, (hs.1.elem h).2⟩
  base hs h := genuine_of_isDeclared (hs.1.base h)
  bound hs h := (hs.1.denotes_firstBound h).genuine
  array d h := (array_works d h.1).mono fun _ _ _ _ h' => h'.2.2 h

/-- An array without its outermost dimension is known, and it is not bad. -/
theorem component_works {t : TypeId} : Works (growth g) (component t) s fun c s' => s'.Genuine c :=
  genuine_closed.component t

/-- An array without some of its dimensions is known. -/
theorem stripDims_works {t : TypeId} (n : UInt32) (ht : s.Knows t) :
    Works (growth g) (stripDims t n) s fun c s' => ∀ u ∈ c, s'.Knows u :=
  knows_substitutive.stripDims n ht

/-! ## Erasure

Erasing makes arrays of erased elements and nothing else.
-/

/-- What an array element is erased to without following bounds is known. -/
theorem WellFormed.knows_erasedElem (hs : s.WellFormed) {t : TypeId} (ht : s.Knows t) : s.Knows (s.erasedElem t) :=
  knows_substitutive.erasedElem hs.sound ht

/-- What an array element is erased to without following bounds is not bad. -/
theorem WellFormed.genuine_erasedElem (hs : s.WellFormed) {t : TypeId} (ht : s.Genuine t) : s.Genuine (s.erasedElem t) :=
  genuine_closed.erasedElem hs.sound ht

/-- The erasure of a known type is known, and it is not bad unless the type is. -/
theorem erasureWithin_works (fuel : Nat) {t : TypeId} (ht : s.Knows t) :
    Works (growth g) (erasureWithin fuel t) s fun e s' => s'.Knows e ∧ (s.Genuine t → s'.Genuine e) := by
  intro hs
  obtain ⟨hl, hknows⟩ := knows_substitutive.erasureWithin fuel ht hs
  exact ⟨hl, hknows, fun hgenuine => (genuine_closed.erasureWithin fuel hgenuine hs).2⟩

/-- The erasure of a known type is known. -/
theorem erasure_works {t : TypeId} (ht : s.Knows t) : Works (growth g) (erasure t) s fun e s' => s'.Knows e :=
  knows_substitutive.erasureWithin _ ht

/-- The erasure of a type that is not bad is not bad. -/
theorem erasure_genuine {t : TypeId} (ht : s.Genuine t) : Works (growth g) (erasure t) s fun e s' => s'.Genuine e :=
  genuine_closed.erasureWithin _ ht

/-! ## Instantiation

Instantiating makes arrays and parameterized types of instances, down to a depth.
-/

/-- An argument is instantiated to a known one. -/
theorem substArg_works {inner : TypeId → TypeM TypeId} {map : List (TypeId × TypeArg)} {a : TypeArg}
    (hmap : ∀ p ∈ map, s.Knows p.2.type) (ha : s.Knows a.type)
    (hinner : Works (growth g) (inner a.type) s fun t s' => s'.Knows t) :
    Works (growth g) (substArg inner map a) s fun b s' => s'.Knows b.type :=
  substArg_closed hmap ha hinner

/-- A known type is instantiated to a known one. -/
theorem substWithin_works {map : List (TypeId × TypeArg)} (depth : Nat) {t : TypeId}
    (hmap : ∀ p ∈ map, s.Knows p.2.type) (ht : s.Knows t) :
    Works (growth g) (substWithin map depth t) s fun t' s' => s'.Knows t' :=
  knows_substitutive.substWithin depth hmap ht

/-- A known type is instantiated to a known one. -/
theorem subst_works {t : TypeId} {params : List TypeId} {args : List TypeArg} (hargs : ∀ a ∈ args, s.Knows a.type)
    (ht : s.Knows t) : Works (growth g) (subst t params args) s fun t' s' => s'.Knows t' :=
  knows_substitutive.subst hargs ht

/-! ## Classes

A document registers its classes first and sets their headers afterwards. In between a class
is new: it has a number and a place behind the guarded ones.
-/

/-- A class whose header may still be set. -/
def IsNewClass (g : Guard) (s : TypeStore) (t : TypeId) : Prop :=
  ∃ slot, g.classes ≤ slot ∧ s.shape t = .declared slot

theorem IsNewClass.isDeclared {t : TypeId} (h : IsNewClass g s t) : (s.shape t).isDeclared := by
  obtain ⟨slot, -, h⟩ := h
  rw [h]
  rfl

/-- A new class stays one. -/
theorem IsNewClass.grows {t : TypeId} (ht : IsNewClass g s t) (h : Grows s s') : IsNewClass g s' t := by
  obtain ⟨slot, hslot, hshape⟩ := id ht
  exact ⟨slot, hslot, (h.shape (knows_of_isDeclared ht.isDeclared)).trans hshape⟩

/-- Registering a class of known parts gives a new class, unless its name is taken by another
one. -/
theorem registerClass_works {info : ClassInfo} (may : g.declares info) (hinfo : s.KnowsClass info) (houter : s.Genuine info.outer)
    (hfits : s.FitsKind info) : Works (growth g) (registerClass info) s fun r s' =>
      match r with
      | .ok t => IsNewClass g s' t
      | .error t => (s'.shape t).isDeclared := by
  intro hs
  cases hfree : s.classNamed? (s.qualifiedOf info) with
  | none =>
    have hstep : Step g s (registerClass info s).2 := .declared may hinfo houter hfits hfree
    refine ⟨hstep.leads, ?_⟩
    rw [registerClass_eq hfree]
    exact ⟨s.classes.size, hs.2.1, shape_push hs.1.pos rfl⟩
  | some prev =>
    rw [registerClass_of_taken hfree]
    exact ⟨.refl, hs.1.names _ (mem_of_lookup hfree)⟩

/-- An anonymous class gets a new number, and is declared as it was asked for. Unlike other
classes it is registered under a name that may be taken; the new class is then found under it,
and the old one no longer. -/
theorem registerAnonymous_works {outer : TypeId} {info : ClassInfo} (may : g.embodies) (houter : (s.shape outer).isDeclared)
    (hinfo : s.KnowsClass info) (hfits : s.FitsKind info) : Works (growth g) (registerAnonymous outer info) s fun t s' =>
      t = ⟨s.shapes.size⟩ ∧ s'.Knows t ∧ s'.classOf t = t ∧ s'.classInfo? t = some (s.anonymousInfo outer info) := by
  intro hs
  have hstep : Step g s (registerAnonymous outer info s).2 := .anonymous may houter hinfo hfits
  refine ⟨hstep.leads, ?_⟩
  obtain ⟨name, anonymous, h⟩ := registerAnonymous_eq outer info s
  rw [h]
  dsimp only
  generalize hs' : ({ s.pushed _ with classes := _, names := _, anonymous } : TypeStore) = s'
  have hshapes : s'.shapes = s.shapes.push (.declared s.classes.size) := hs' ▸ rfl
  have hclasses : s'.classes = s.classes.push (s.anonymousInfo outer info) := hs' ▸ rfl
  have hshape : s'.shape ⟨s.shapes.size⟩ = .declared s.classes.size := shape_push hs.1.pos hshapes
  refine ⟨rfl, knows_of_shape (by simp [hshape]), ?_, ?_⟩
  · unfold classOf
    rw [hshape]
  · simp [classInfo?, classSlot?, hshape, hclasses]

/-- The header of a new class is set to one of known types. Classes behind the guarded place
may still be changed, which is how headers that mention one another are set after all of them
were registered. -/
theorem modifyClass_works {t : TypeId} {f : ClassInfo → ClassInfo}
    (ht : IsNewClass g s t)
    (frame : ∀ info, ∃ super interfaces typeParams, f info = { info with super, interfaces, typeParams })
    (known : ∀ info, s.classInfo? t = some info → s.KnowsClass info → s.KnowsClass (f info))
    (fits : ∀ info, s.classInfo? t = some info → s.FitsKind info → s.FitsKind (f info))
    (may : ∀ slot, s.shape t = .declared slot → ∀ info, g.heads slot info (f info)) :
    Works (growth g) (modify (·.modifyClass t f)) s fun _ _ => True := by
  refine Works.of_sound fun hs => ?_
  obtain ⟨slot, hmark, hshape⟩ := ht
  have hplace : s.classSlot? t = some slot := by simp [classSlot?, hshape]
  have hfound {info : ClassInfo} (hinfo : s.classes[slot]? = some info) : s.classInfo? t = some info := by
    simp [classInfo?, hplace, hinfo]
  refine Works.change (Step.leads (.header hplace hmark frame (fun info _ => may slot hshape info) (fun info hinfo => ?_)
    fun info hinfo => ?_)) trivial
  · exact known info (hfound hinfo) (hs.1.classes slot info hinfo)
  · exact fits info (hfound hinfo)

end CallResolution.TypeStore
