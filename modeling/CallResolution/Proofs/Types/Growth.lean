import CallResolution.Proofs.Evolution
import CallResolution.Types.Making
import Mathlib.Logic.Relation
import Mathlib.Tactic.Common

/-!
# Growth of type stores

A store hands out numbers and never takes one back. `TypeStore.Step` lists all that can happen
to a store: a derived type, a type variable or a class is added, bounds of a type variable are
set, or the header of a class is. A `Guard` says from which place on bounds and headers may
still be set, what bounds may be, and which classes may be added. `TypeStore.WellFormed` is
what every store satisfies that was reached from the predefined one: every number that the
store mentions was handed out, parts come before what they are parts of, no two numbers have
one shape, and the classes above arrays inherit from nothing.

The kinds of step are gone through twice, and never again: whatever makes types is shown to be
steps, and what is known of it afterwards comes from the following two facts.

* `Step.grows` says what a step leaves alone: numbers keep their shapes, names their classes
  and classes their marks. `Step.classes` and `Step.typeVars` add the declarations and the
  bounds in front of the guarded places. What is read off the shapes and declarations of known
  numbers is carried from a store to a later one by these alone.
* `WellFormed.step` says that a step keeps a store well formed. `WellFormed.grow` reduces this
  to what is new in the store, and `WellFormed.pushClass` is what the two steps have in common
  that add a class.

`TypeStore.growth` packs them into an evolution, along which a function is followed under any
guard. One evolution serves loading and binding because the guards differ: while a document is
loaded, classes are declared and their headers set; while calls are bound, only placeholders
and anonymous classes are added. `growth_widen` passes from a guard to a wider one.

While calls are bound, each store is left alone in all that it has, which is what
`WellFormed.guard` guards. `WellFormed.extends` turns steps under this guard into the relation
`Extends`, which later modules use in place of steps: it relates a store to every later one of
a run, and composes.

The text of a signature may say any bound for a type variable, so it is read under a guard
that is a little wider (`WellFormed.reading`). Where bounds are restricted to classes and type
variables, as they are in everything else that a run does, they stay so: `growth_bounded`, on
which erasure relies.
-/

namespace CallResolution

/-- What may be done to a store: the classes and the type variables in front of two places are
left alone, and classes are only added and changed in certain ways. The places are counted in
classes and in type variables, not in numbers of types. -/
structure Guard where
  /-- Classes before this place keep their headers. -/
  classes : Nat
  /-- Type variables before this place keep their bounds. -/
  vars : Nat
  /-- The predefined classes are left alone in any case. -/
  predefined : TypeStore.predefinedClasses.length ≤ classes
  /-- The classes that may be declared. -/
  declares : ClassInfo → Prop
  /-- Whether anonymous classes may be made. -/
  embodies : Prop
  /-- Whether type variables may get any bounds; else these are classes and type variables. -/
  anyBounds : Prop
  /-- What may become of the declaration at a place. -/
  heads : Nat → ClassInfo → ClassInfo → Prop

/-- One guard allows no more than another one. -/
structure Guard.Within (g g' : Guard) : Prop where
  /-- No more headers may be set. -/
  classes : g'.classes ≤ g.classes
  /-- No more bounds may be set. -/
  vars : g'.vars ≤ g.vars
  /-- No more classes may be declared. -/
  declares : ∀ info, g.declares info → g'.declares info
  /-- No more anonymous classes may be made. -/
  embodies : g.embodies → g'.embodies
  /-- No other bounds may be set. -/
  anyBounds : g.anyBounds → g'.anyBounds
  /-- No more may become of declarations. -/
  heads : ∀ i info info', g.heads i info info' → g'.heads i info info'

/-- The declaration of a placeholder: it lies in no class, and its name ends in a dollar sign.
-/
def ClassInfo.IsPlaceholder (info : ClassInfo) : Prop :=
  info.outer = .none ∧ ∃ name, info.name = name ++ "$"

/-- Once all headers are set, classes are only added for accessors and for creations with a
body: placeholders and anonymous classes. No header is set any more, not even that of a class
that was just added, so what a class inherits from is settled from here on. -/
def Guard.running : Guard where
  classes := TypeStore.predefinedClasses.length
  vars := 0
  predefined := Nat.le_refl _
  declares info := info.IsPlaceholder
  embodies := True
  anyBounds := True
  heads _ _ _ := False

namespace TypeStore

/-! ## Numbers that were handed out

What may be asked of a number, from weak to strong: that it was handed out, that it is not the
bad type, that a text may denote it. What a store asks of its parts is put together from
these, and all of it is kept when the store grows.
-/

/-- The store has handed out a number. The number 0 counts: it stands for no type, and is what
a declaration mentions where it leaves something out. -/
def Knows (s : TypeStore) (t : TypeId) : Prop :=
  t.index < s.shapes.size

/-- A number stands for a type that can be written down. The type of null and the bad type
have numbers too, but no text denotes them, and a bound or a part of a signature is never one
of them. -/
def Denotes (s : TypeStore) (t : TypeId) : Prop :=
  s.shape t ≠ .absent ∧ s.shape t ≠ .null ∧ s.shape t ≠ .bad

/-- A number stands for a type that is not bad. Unlike `Denotes` this admits the number 0 and
the type of null, as expressions have them; what it excludes is the type that stands for a
failure that was reported. -/
def Genuine (s : TypeStore) (t : TypeId) : Prop :=
  s.Knows t ∧ ¬ s.isBad t

/-- A type variable may be bounded by a number in the source language: it stands for a class
or a type variable. -/
def IsBound (s : TypeStore) (t : TypeId) : Prop :=
  s.isReference t ∧ ¬ s.isArray t

/-- Type variables are bounded by classes and type variables. -/
def Bounded (s : TypeStore) : Prop :=
  ∀ v ∈ s.typeVars, ∀ b ∈ v.bounds, s.IsBound b

/-- A class may inherit from a number: it is known and stands for no type variable and no
array. The bad type and the number 0 are admitted, since a superclass that is not found leaves
one of them behind. -/
def Inheritable (s : TypeStore) (t : TypeId) : Prop :=
  s.Knows t ∧ ¬ (s.shape t).isVariable ∧ ¬ (s.shape t).isArray

/-- What the store knows of the parts of a class declaration. -/
structure KnowsClass (s : TypeStore) (info : ClassInfo) : Prop where
  /-- The class around it. -/
  outer : s.Knows info.outer
  /-- The superclass. -/
  super : s.Inheritable info.super
  /-- The interfaces. -/
  interfaces : ∀ t ∈ info.interfaces, s.Inheritable t
  /-- The type variables. -/
  typeParams : ∀ t ∈ info.typeParams, (s.shape t).isVariable
  /-- No two type variables are the same. -/
  distinct : info.typeParams.Nodup

/-- The parts of the `i`-th shape are known, and come before it. An array has neither an array
nor the bad type as its element, since dimensions are added up and the bad type absorbs them.
-/
def Refers (s : TypeStore) (i : Nat) : TypeShape → Prop
  | .absent => i = 0
  | .declared slot => slot < s.classes.size
  | .typeVar slot => slot < s.typeVars.size
  | .array e _ => e.index < i ∧ ¬ (s.shape e).isArray ∧ ¬ s.isBad e
  | .applied base args => base.index < i ∧ (s.shape base).isDeclared ∧ ∀ a ∈ args, a.type.index < i
  | _ => True

/-- What holds of every store that was reached from the predefined one. That parts come before
what they are parts of is the measure by which searches through types end; that no two numbers
have one shape makes equality of types equality of numbers. -/
structure WellFormed (s : TypeStore) : Prop where
  /-- The predefined types have their numbers. -/
  predefined : ∀ (i : Nat) shape, predefinedShapes[i]? = some shape → s.shapes[i]? = some shape
  /-- The predefined classes are declared as they were. -/
  predefinedHeaders : ∀ (i : Nat) info, predefinedClasses[i]? = some info → s.classes[i]? = some info
  /-- Shapes refer to earlier numbers. -/
  shapes : ∀ (i : Nat) shape, s.shapes[i]? = some shape → s.Refers i shape
  /-- No two numbers have one shape. -/
  distinct : s.shapes.toList.Nodup
  /-- Class declarations refer to known numbers. -/
  classes : ∀ (i : Nat) info, s.classes[i]? = some info → s.KnowsClass info
  /-- Bounds are types that can be written down. -/
  typeVars : ∀ (i : Nat) v, s.typeVars[i]? = some v → ∀ b ∈ v.bounds, s.Denotes b
  /-- Names stand for classes. -/
  names : ∀ p ∈ s.names, (s.shape p.2).isDeclared

/-- The class behind a type is an interface. -/
def IsInterface (s : TypeStore) (t : TypeId) : Prop :=
  (s.classInfo? t).any (·.flags.isInterface)

/-- What a class declaration inherits from fits its kind. -/
structure FitsKind (s : TypeStore) (info : ClassInfo) : Prop where
  /-- What is listed as an interface is one. -/
  interfaces : ∀ t ∈ info.interfaces, s.IsInterface t
  /-- An interface has no superclass. -/
  super : info.flags.isInterface → info.super = .none

/-! ## Steps

The single changes of a store. All functions that change one are sequences of these, under a
guard that says which of them are allowed.
-/

/-- All that can happen to a store. A step says what it needs for the store to stay well
formed, and what its guard allows; most are stated with the function that takes them, so that
a call of this function is a step by definition. -/
inductive Step (g : Guard) : TypeStore → TypeStore → Prop
  /-- An array or parameterized type is added. -/
  | derived {s : TypeStore} {shape : TypeShape} (made : shape.isArray ∨ ∃ base args, shape = .applied base args)
      (refers : s.Refers s.shapes.size shape) (new : shape ∉ s.shapes) :
      Step g s (s.pushed shape)
  /-- A type variable without bounds is added. -/
  | fresh {s : TypeStore} {v : TypeVariable} (unbounded : v.bounds = []) : Step g s (registerVariable v s).2
  /-- A class is added under a name that is not taken. -/
  | declared {s : TypeStore} {info : ClassInfo} (may : g.declares info) (known : s.KnowsClass info)
      (around : s.Genuine info.outer) (fits : s.FitsKind info) (free : s.classNamed? (s.qualifiedOf info) = none) :
      Step g s (registerClass info s).2
  /-- An anonymous class is added in another one. -/
  | anonymous {s : TypeStore} {outer : TypeId} {info : ClassInfo} (may : g.embodies) (around : (s.shape outer).isDeclared)
      (known : s.KnowsClass info) (fits : s.FitsKind info) : Step g s (registerAnonymous outer info s).2
  /-- The bounds of a type variable are set. -/
  | bounds {s : TypeStore} {t : TypeId} {slot : Nat} {bs : List TypeId} (shape : s.shape t = .typeVar slot)
      (mark : g.vars ≤ slot) (known : ∀ b ∈ bs, s.Denotes b) (proper : g.anyBounds ∨ ∀ b ∈ bs, s.IsBound b) :
      Step g s (s.setBounds t bs)
  /-- The header of a class is set. -/
  | header {s : TypeStore} {t : TypeId} {slot : Nat} {f : ClassInfo → ClassInfo}
      (place : s.classSlot? t = some slot) (mark : g.classes ≤ slot)
      (frame : ∀ info, ∃ super interfaces typeParams, f info = { info with super, interfaces, typeParams })
      (may : ∀ info, s.classes[slot]? = some info → g.heads slot info (f info))
      (known : ∀ info, s.classes[slot]? = some info → s.KnowsClass (f info))
      (fits : ∀ info, s.classes[slot]? = some info → s.FitsKind info → s.FitsKind (f info)) : Step g s (s.modifyClass t f)

/-! ## What steps leave as it was

`Grows` is read off each step in turn. Its last fields are implications, since not every store
has these properties: only a store that is reached from the predefined one does, and along the
way it is enough to know that they are not lost.
-/

/-- Every class is declared, and lies in a class that was there before it. So following the
classes around a class ends, and the names of classes can be told from where they lie. -/
def Nested (s : TypeStore) : Prop :=
  ∀ i slot : Nat, s.shapes[i]? = some (.declared slot) → ∃ info, s.classes[slot]? = some info ∧ info.outer.index < i

/-- The class around a class, if there is one, is not the bad type. -/
def Housed (s : TypeStore) : Prop :=
  ∀ (i : Nat) info, s.classes[i]? = some info → s.Genuine info.outer

/-- What classes inherit from fits their kinds. -/
def Kinded (s : TypeStore) : Prop :=
  ∀ (i : Nat) info, s.classes[i]? = some info → s.FitsKind info

/-- Classes of a store have their marks in another one, too. -/
def KeepsFlags (s s' : TypeStore) : Prop :=
  ∀ (i : Nat) info, s.classes[i]? = some info → ∃ info', s'.classes[i]? = some info' ∧ info'.flags = info.flags

/-- The names of another store stand for what they stood for, but for those that new classes
have. -/
def AddsNames (s s' : TypeStore) : Prop :=
  ∃ new, s'.names = new ++ s.names ∧ ∀ p ∈ new, ¬ s.Knows p.2

/-- A store with at least the numbers, classes, type variables and names of another one.
Headers and bounds may differ, as they do while a document is loaded. The last fields are
invariants that only hold of some stores, and that growing keeps. -/
structure Grows (s s' : TypeStore) : Prop where
  /-- Numbers keep their shapes. -/
  shapes : ∀ (i : Nat) shape, s.shapes[i]? = some shape → s'.shapes[i]? = some shape
  /-- Classes stay. -/
  classes : s.classes.size ≤ s'.classes.size
  /-- Type variables stay. -/
  typeVars : s.typeVars.size ≤ s'.typeVars.size
  /-- Names stay, possibly behind those of new classes. -/
  names : s.AddsNames s'
  /-- New classes lie in earlier ones, too. -/
  nested : s.Nested → s'.Nested
  /-- New classes do not lie in the bad type, either. -/
  housed : s.Housed → s'.Housed
  /-- Classes keep their marks. -/
  flags : s.KeepsFlags s'
  /-- What new classes inherit from fits their kinds, too. -/
  kinded : s.Kinded → s'.Kinded

/-- Marks stay when declarations do. -/
theorem KeepsFlags.of_infos {s s' : TypeStore}
    (h : ∀ (i : Nat) info, s.classes[i]? = some info → s'.classes[i]? = some info) : s.KeepsFlags s' :=
  fun i info hi => ⟨info, h i info hi, rfl⟩

/-- No name is new. -/
theorem AddsNames.of_same {s s' : TypeStore} (h : s'.names = s.names) : s.AddsNames s' :=
  ⟨[], h, by simp⟩

/-- The name of the class that gets the next number is new. -/
theorem AddsNames.of_next {s s' : TypeStore} {name : String} (h : s'.names = (name, ⟨s.shapes.size⟩) :: s.names) :
    s.AddsNames s' :=
  ⟨[(name, ⟨s.shapes.size⟩)], h, by simp [Knows]⟩

namespace Grows

variable {s s' s'' : TypeStore}

theorem refl (s : TypeStore) : Grows s s :=
  ⟨fun _ _ h => h, Nat.le_refl _, Nat.le_refl _, .of_same rfl, id, id, .of_infos fun _ _ h => h, id⟩

theorem size (h : Grows s s') : s.shapes.size ≤ s'.shapes.size := by
  by_contra hlt
  have hi : s'.shapes.size < s.shapes.size := by omega
  have := h.shapes _ _ (Array.getElem?_eq_getElem hi)
  simp at this

theorem knows (h : Grows s s') {t : TypeId} (ht : s.Knows t) : s'.Knows t :=
  Nat.lt_of_lt_of_le ht h.size

theorem trans (h : Grows s s') (h' : Grows s' s'') : Grows s s'' := by
  refine ⟨fun i sh hi => h'.shapes i sh (h.shapes i sh hi), Nat.le_trans h.classes h'.classes,
    Nat.le_trans h.typeVars h'.typeVars, ?_, fun hs => h'.nested (h.nested hs), fun hs => h'.housed (h.housed hs),
    fun i info hi => ?_, fun hs => h'.kinded (h.kinded hs)⟩
  · obtain ⟨new, hnew, hold⟩ := h.names
    obtain ⟨new', hnew', hold'⟩ := h'.names
    refine ⟨new' ++ new, by rw [hnew', hnew, List.append_assoc], fun p hp => ?_⟩
    rcases List.mem_append.mp hp with hp | hp
    · exact fun hknown => hold' p hp (h.knows hknown)
    · exact hold p hp
  · obtain ⟨info₁, hi₁, hflags₁⟩ := h.flags i info hi
    obtain ⟨info₂, hi₂, hflags₂⟩ := h'.flags i info₁ hi₁
    exact ⟨info₂, hi₂, hflags₂.trans hflags₁⟩

/-- A known number keeps its shape. -/
theorem shape (h : Grows s s') {t : TypeId} (ht : s.Knows t) : s'.shape t = s.shape t := by
  unfold TypeStore.shape
  have h' := h.shapes _ _ (Array.getElem?_eq_getElem ht)
  simp [Array.getD_eq_getD_getElem?, h', Array.getElem?_eq_getElem ht]

end Grows

/-- A number with a shape is known. -/
theorem knows_of_shape {s : TypeStore} {t : TypeId} (h : s.shape t ≠ .absent) : s.Knows t := by
  unfold Knows
  by_contra hlt
  apply h
  simp [TypeStore.shape, Array.getD, hlt]

/-- A class is known. -/
theorem knows_of_classInfo {s : TypeStore} {t : TypeId} (h : (s.classInfo? t).isSome) : s.Knows t :=
  knows_of_shape fun habsent => by simp [classInfo?, classSlot?, habsent] at h

theorem Denotes.knows {s : TypeStore} {t : TypeId} (h : s.Denotes t) : s.Knows t :=
  knows_of_shape h.1

/-- A type that can be written down is not bad. -/
theorem Denotes.genuine {s : TypeStore} {t : TypeId} (h : s.Denotes t) : s.Genuine t :=
  ⟨h.knows, by simpa [isBad] using h.2.2⟩

theorem knows_of_isVariable {s : TypeStore} {t : TypeId} (h : (s.shape t).isVariable) : s.Knows t :=
  knows_of_shape fun h' => by simp [h', TypeShape.isVariable] at h

theorem knows_of_isDeclared {s : TypeStore} {t : TypeId} (h : (s.shape t).isDeclared) : s.Knows t :=
  knows_of_shape fun h' => by simp [h', TypeShape.isDeclared] at h

/-- A type that is not bad is none in a store with at least the same shapes. -/
theorem Genuine.of_shapes {s s' : TypeStore} {t : TypeId} (ht : s.Genuine t)
    (shapes : ∀ (i : Nat) shape, s.shapes[i]? = some shape → s'.shapes[i]? = some shape) : s'.Genuine t := by
  have hold := Array.getElem?_eq_getElem ht.1
  have hnew := shapes _ _ hold
  refine ⟨(Array.getElem?_eq_some_iff.mp hnew).1, ?_⟩
  have heq : s'.shape t = s.shape t := by simp [shape, Array.getD_eq_getD_getElem?, hold, hnew]
  rw [isBad, heq]
  exact ht.2

/-- A class has its marks in a store with at least the same shapes whose classes have the same
marks. -/
theorem classInfo?_of_flags {s s' : TypeStore} {t : TypeId} {info : ClassInfo} (h : s.classInfo? t = some info)
    (shapes : ∀ (i : Nat) shape, s.shapes[i]? = some shape → s'.shapes[i]? = some shape) (flags : s.KeepsFlags s') :
    ∃ info', s'.classInfo? t = some info' ∧ info'.flags = info.flags := by
  obtain ⟨slot, hslot, hi⟩ := Option.bind_eq_some_iff.mp h
  obtain ⟨info', hi', hflags⟩ := flags slot info hi
  refine ⟨info', Option.bind_eq_some_iff.mpr ⟨slot, ?_, hi'⟩, hflags⟩
  have shape {u : TypeId} (hu : s.shape u ≠ .absent) : s'.shape u = s.shape u := by
    have hold := Array.getElem?_eq_getElem (knows_of_shape hu)
    simp [TypeStore.shape, Array.getD_eq_getD_getElem?, hold, shapes _ _ hold]
  unfold classSlot? at hslot ⊢
  rw [shape fun h => by simp [h] at hslot]
  split at hslot
  · exact hslot
  · rename_i base args happlied
    rw [shape fun h => by simp [h] at hslot]
    exact hslot
  · cases hslot

/-- An interface is one in a store with at least the same shapes whose classes have the same
marks. -/
theorem IsInterface.of_flags {s s' : TypeStore} {t : TypeId} (ht : s.IsInterface t)
    (shapes : ∀ (i : Nat) shape, s.shapes[i]? = some shape → s'.shapes[i]? = some shape) (flags : s.KeepsFlags s') :
    s'.IsInterface t := by
  obtain ⟨info, hinfo, hinterface⟩ := (Option.any_eq_true _ _).mp ht
  obtain ⟨info', hinfo', hflags⟩ := classInfo?_of_flags hinfo shapes flags
  exact (Option.any_eq_true _ _).mpr ⟨info', hinfo', hflags ▸ hinterface⟩

/-- A class is not the bad type. -/
theorem genuine_of_isDeclared {s : TypeStore} {t : TypeId} (h : (s.shape t).isDeclared) : s.Genuine t := by
  refine ⟨knows_of_isDeclared h, fun hbad => ?_⟩
  have hshape : s.shape t = .bad := by simpa [isBad] using hbad
  simp [hshape, TypeShape.isDeclared] at h

namespace Grows

variable {s s' : TypeStore}

theorem denotes (h : Grows s s') {t : TypeId} (ht : s.Denotes t) : s'.Denotes t := by
  unfold Denotes
  rw [h.shape ht.knows]
  exact ht

/-- A declared class stays one. -/
theorem isDeclared (h : Grows s s') {t : TypeId} (ht : (s.shape t).isDeclared) : (s'.shape t).isDeclared := by
  rwa [h.shape (knows_of_isDeclared ht)]

/-- A type that is not bad never becomes so. -/
theorem genuine (h : Grows s s') {t : TypeId} (ht : s.Genuine t) : s'.Genuine t :=
  ht.of_shapes h.shapes

/-- A class keeps its marks. -/
theorem flags_eq (h : Grows s s') {t : TypeId} {info info' : ClassInfo} (hinfo : s.classInfo? t = some info)
    (hinfo' : s'.classInfo? t = some info') : info'.flags = info.flags := by
  obtain ⟨info₁, hinfo₁, hflags⟩ := classInfo?_of_flags hinfo h.shapes h.flags
  obtain rfl := Option.some.inj (hinfo'.symm.trans hinfo₁)
  exact hflags

/-- An interface stays one. -/
theorem isInterface (h : Grows s s') {t : TypeId} (ht : s.IsInterface t) : s'.IsInterface t :=
  ht.of_flags h.shapes h.flags

theorem inheritable (h : Grows s s') {t : TypeId} (ht : s.Inheritable t) : s'.Inheritable t :=
  ⟨h.knows ht.1, (h.shape ht.1).symm ▸ ht.2⟩

theorem knowsClass (h : Grows s s') {info : ClassInfo} (hi : s.KnowsClass info) : s'.KnowsClass info where
  outer := h.knows hi.outer
  super := h.inheritable hi.super
  interfaces t ht := h.inheritable (hi.interfaces t ht)
  typeParams t ht := by
    rw [h.shape (knows_of_isVariable (hi.typeParams t ht))]
    exact hi.typeParams t ht
  distinct := hi.distinct

theorem refers (h : Grows s s') {i : Nat} (hi : i ≤ s.shapes.size) {shape : TypeShape} (hr : s.Refers i shape) :
    s'.Refers i shape := by
  cases shape with
  | declared slot => exact Nat.lt_of_lt_of_le hr h.classes
  | typeVar slot => exact Nat.lt_of_lt_of_le hr h.typeVars
  | array e d =>
    obtain ⟨he, hr⟩ := hr
    have hk : s.Knows e := Nat.lt_of_lt_of_le he hi
    refine ⟨he, ?_⟩
    unfold isBad at *
    rw [h.shape hk]
    exact hr
  | applied base args =>
    obtain ⟨hb, hr⟩ := hr
    have hk : s.Knows base := Nat.lt_of_lt_of_le hb hi
    refine ⟨hb, ?_⟩
    rw [h.shape hk]
    exact hr
  | _ => exact hr

end Grows

/-! ## The registering functions

Each function of the store is one step, or none when what it should register is there already.
-/

/-- Registering a type variable adds it under the next number. -/
theorem registerVariable_eq (v : TypeVariable) (s : TypeStore) :
    registerVariable v s = (⟨s.shapes.size⟩, { s.pushed (.typeVar s.typeVars.size) with typeVars := s.typeVars.push v }) :=
  rfl

/-- A class whose name is free is added under the next number. -/
theorem registerClass_eq {info : ClassInfo} {s : TypeStore} (free : s.classNamed? (s.qualifiedOf info) = none) :
    registerClass info s = (.ok ⟨s.shapes.size⟩, { s.pushed (.declared s.classes.size) with
      classes := s.classes.push info, names := (s.qualifiedOf info, ⟨s.shapes.size⟩) :: s.names }) := by
  unfold registerClass
  rw [get_bind_apply, get_bind_apply, free]
  generalize s.qualifiedOf info = name
  rfl

/-- A class whose name is taken is not added. -/
theorem registerClass_of_taken {info : ClassInfo} {s : TypeStore} {prev : TypeId}
    (taken : s.classNamed? (s.qualifiedOf info) = some prev) : registerClass info s = (.error prev, s) := by
  unfold registerClass
  rw [get_bind_apply, get_bind_apply, taken]
  rfl

/-- What an anonymous class is declared as. -/
def anonymousInfo (s : TypeStore) (outer : TypeId) (info : ClassInfo) : ClassInfo :=
  let top := s.outermost outer
  { info with
    name := toString ((s.anonymous.lookup top).getD 0 + 1)
    outer
    flags := { info.flags with isAnonymous := true, isFinal := true }
    package := (s.classInfo? top).elim info.package (·.package) }

/-- An anonymous class is added under the next number. -/
theorem registerAnonymous_eq (outer : TypeId) (info : ClassInfo) (s : TypeStore) :
    ∃ name anonymous, registerAnonymous outer info s = (⟨s.shapes.size⟩, { s.pushed (.declared s.classes.size) with
      classes := s.classes.push (s.anonymousInfo outer info), names := (name, ⟨s.shapes.size⟩) :: s.names, anonymous }) := by
  unfold registerAnonymous
  rw [get_bind_apply]
  exact ⟨_, _, rfl⟩

/-! ## Steps grow stores

What a step keeps, one case for each kind.
-/

/-- What is at a place of an array with one more element. -/
theorem getElem?_push_cases {α : Type} {xs : Array α} {x y : α} {i : Nat} (h : (xs.push x)[i]? = some y) :
    xs[i]? = some y ∨ i = xs.size ∧ y = x := by
  rw [Array.getElem?_push] at h
  split at h
  · rename_i hi
    exact .inr ⟨hi, by simpa using h.symm⟩
  · exact .inl h

/-- What is at a place of an array after one element was changed. -/
theorem getElem?_modify_cases {α : Type} {xs : Array α} {f : α → α} {y : α} {i j : Nat}
    (h : (xs.modify j f)[i]? = some y) : xs[i]? = some y ∨ i = j ∧ ∃ x, xs[i]? = some x ∧ y = f x := by
  rw [Array.getElem?_modify] at h
  split at h
  · rename_i hi
    obtain ⟨x, hx, rfl⟩ := Option.map_eq_some_iff.mp h
    exact .inr ⟨hi.symm, x, hx, rfl⟩
  · exact .inl h

/-- A shape that is no class leaves classes where they are. -/
theorem Nested.push {s s' : TypeStore} {shape : TypeShape} (shapes : s'.shapes = s.shapes.push shape)
    (classes : s'.classes = s.classes) (made : ∀ slot, shape ≠ .declared slot) (hs : s.Nested) : s'.Nested := by
  intro i slot h
  rw [shapes] at h
  rw [classes]
  rcases getElem?_push_cases h with h | ⟨-, h⟩
  · exact hs i slot h
  · exact absurd h.symm (made slot)

/-- A class with a known class around it lies in an earlier one. -/
theorem Nested.pushClass {s s' : TypeStore} {info : ClassInfo} (shapes : s'.shapes = s.shapes.push (.declared s.classes.size))
    (classes : s'.classes = s.classes.push info) (known : s.Knows info.outer) (hs : s.Nested) : s'.Nested := by
  intro i slot h
  rw [shapes] at h
  rw [classes]
  rcases getElem?_push_cases h with h | ⟨rfl, hslot⟩
  · obtain ⟨info', hinfo, hlt⟩ := hs i slot h
    have hslot : slot < s.classes.size := (Array.getElem?_eq_some_iff.mp hinfo).1
    exact ⟨info', by rw [Array.getElem?_push, if_neg (Nat.ne_of_lt hslot), hinfo], hlt⟩
  · cases hslot
    exact ⟨info, Array.getElem?_push_size, known⟩

/-- Changing other parts of class declarations leaves classes where they are. -/
theorem Nested.modify {s s' : TypeStore} {slot : Nat} {f : ClassInfo → ClassInfo} (shapes : s'.shapes = s.shapes)
    (classes : s'.classes = s.classes.modify slot f) (frame : ∀ info, (f info).outer = info.outer) (hs : s.Nested) :
    s'.Nested := by
  intro i slot' h
  rw [shapes] at h
  obtain ⟨info, hinfo, hlt⟩ := hs i slot' h
  rw [classes, Array.getElem?_modify, hinfo]
  split
  · exact ⟨f info, rfl, by rwa [frame]⟩
  · exact ⟨info, rfl, hlt⟩

/-- The classes of a store lie in no bad type when those of another one do not and nothing but
that is new. -/
theorem Housed.evolve {s s' : TypeStore} (hs : s.Housed)
    (shapes : ∀ (i : Nat) shape, s.shapes[i]? = some shape → s'.shapes[i]? = some shape)
    (classes : ∀ (i : Nat) info, s'.classes[i]? = some info →
      (∃ info₀, s.classes[i]? = some info₀ ∧ info.outer = info₀.outer) ∨ s.Genuine info.outer) : s'.Housed := by
  intro i info hinfo
  rcases classes i info hinfo with ⟨info₀, hinfo₀, heq⟩ | hnew
  · exact heq ▸ (hs i info₀ hinfo₀).of_shapes shapes
  · exact hnew.of_shapes shapes

/-- The shapes of a store stay when one is added at the end. -/
theorem getElem?_shapes_push {s s' : TypeStore} {shape : TypeShape} (shapes : s'.shapes = s.shapes.push shape) (i : Nat)
    (sh : TypeShape) (h : s.shapes[i]? = some sh) : s'.shapes[i]? = some sh := by
  have hlt : i < s.shapes.size := (Array.getElem?_eq_some_iff.mp h).1
  rw [shapes, Array.getElem?_push, if_neg (Nat.ne_of_lt hlt), h]

/-- No class is added. -/
theorem Housed.push {s s' : TypeStore} {shape : TypeShape} (shapes : s'.shapes = s.shapes.push shape)
    (classes : s'.classes = s.classes) (hs : s.Housed) : s'.Housed :=
  hs.evolve (getElem?_shapes_push shapes) fun _ info h => .inl ⟨info, classes ▸ h, rfl⟩

/-- A class is added in another one, or in none. -/
theorem Housed.pushClass {s s' : TypeStore} {info : ClassInfo} (shapes : s'.shapes = s.shapes.push (.declared s.classes.size))
    (classes : s'.classes = s.classes.push info) (around : s.Genuine info.outer) (hs : s.Housed) : s'.Housed := by
  refine hs.evolve (getElem?_shapes_push shapes) fun i info' h => ?_
  rcases getElem?_push_cases (classes ▸ h) with h | ⟨-, rfl⟩
  · exact .inl ⟨info', h, rfl⟩
  · exact .inr around

/-- Other parts of class declarations are changed. -/
theorem Housed.modify {s s' : TypeStore} {slot : Nat} {f : ClassInfo → ClassInfo} (shapes : s'.shapes = s.shapes)
    (classes : s'.classes = s.classes.modify slot f) (frame : ∀ info, (f info).outer = info.outer) (hs : s.Housed) :
    s'.Housed := by
  refine hs.evolve (fun _ _ h => shapes ▸ h) fun i info h => .inl ?_
  rcases getElem?_modify_cases (classes ▸ h) with h | ⟨rfl, info₀, h₀, rfl⟩
  · exact ⟨info, h, rfl⟩
  · exact ⟨info₀, h₀, frame info₀⟩

/-- Classes fit their kinds when they did before. -/
theorem Kinded.of_fits {s s' : TypeStore} (shapes : ∀ (i : Nat) shape, s.shapes[i]? = some shape → s'.shapes[i]? = some shape)
    (flags : s.KeepsFlags s') (fits : ∀ (i : Nat) info, s'.classes[i]? = some info → s.FitsKind info) : s'.Kinded :=
  fun i info h => ⟨fun t ht => ((fits i info h).interfaces t ht).of_flags shapes flags, (fits i info h).super⟩

/-- A store with one more type that is no class. -/
theorem Grows.push {s s' : TypeStore} {shape : TypeShape} (shapes : s'.shapes = s.shapes.push shape)
    (classes : s'.classes = s.classes) (typeVars : s.typeVars.size ≤ s'.typeVars.size) (names : s.AddsNames s')
    (made : ∀ slot, shape ≠ .declared slot) : Grows s s' := by
  have flags : s.KeepsFlags s' := .of_infos fun _ _ h => classes ▸ h
  exact ⟨getElem?_shapes_push shapes, Nat.le_of_eq (classes ▸ rfl), typeVars, names, .push shapes classes made,
    .push shapes classes, flags, fun hs => .of_fits (getElem?_shapes_push shapes) flags fun i info h => hs i info (classes ▸ h)⟩

/-- A store with one more class. -/
theorem Grows.pushClass {s s' : TypeStore} {info : ClassInfo} (shapes : s'.shapes = s.shapes.push (.declared s.classes.size))
    (classes : s'.classes = s.classes.push info) (typeVars : s.typeVars.size ≤ s'.typeVars.size) (names : s.AddsNames s')
    (around : s.Genuine info.outer) (fits : s.FitsKind info) : Grows s s' := by
  have flags : s.KeepsFlags s' := .of_infos fun i info' h => by
    have hlt : i < s.classes.size := (Array.getElem?_eq_some_iff.mp h).1
    rw [classes, Array.getElem?_push, if_neg (Nat.ne_of_lt hlt), h]
  refine ⟨getElem?_shapes_push shapes, by simp [classes], typeVars, names, .pushClass shapes classes around.1,
    .pushClass shapes classes around, flags, fun hs => .of_fits (getElem?_shapes_push shapes) flags fun i info' h => ?_⟩
  rcases getElem?_push_cases (classes ▸ h) with h | ⟨-, rfl⟩
  · exact hs i info' h
  · exact fits

/-- A store with another header of a class. -/
theorem Grows.modify {s s' : TypeStore} {slot : Nat} {f : ClassInfo → ClassInfo} (shapes : s'.shapes = s.shapes)
    (classes : s'.classes = s.classes.modify slot f) (typeVars : s'.typeVars = s.typeVars) (names : s'.names = s.names)
    (frame : ∀ info, (f info).outer = info.outer ∧ (f info).flags = info.flags)
    (fits : ∀ info, s.classes[slot]? = some info → s.FitsKind info → s.FitsKind (f info)) : Grows s s' := by
  have hshapes : ∀ (i : Nat) shape, s.shapes[i]? = some shape → s'.shapes[i]? = some shape := fun _ _ h => shapes ▸ h
  have flags : s.KeepsFlags s' := fun i info h => by
    rw [classes, Array.getElem?_modify, h]
    split
    · exact ⟨f info, rfl, (frame info).2⟩
    · exact ⟨info, rfl, rfl⟩
  refine ⟨hshapes, by simp [classes], Nat.le_of_eq (typeVars ▸ rfl), .of_same names,
    .modify shapes classes fun info => (frame info).1, .modify shapes classes fun info => (frame info).1, flags,
    fun hs => .of_fits hshapes flags fun i info h => ?_⟩
  rcases getElem?_modify_cases (classes ▸ h) with h | ⟨rfl, info₀, h₀, rfl⟩
  · exact hs i info h
  · exact fits info₀ h₀ (hs i info₀ h₀)

/-- Every step grows the store. The steps that add something reduce to `Grows.push` and
`Grows.pushClass`, those that change a declaration to `Grows.modify`; so a further kind of
step has one case here and one in `WellFormed.step`, and nothing behind them changes. -/
theorem Step.grows {g : Guard} {s s' : TypeStore} (h : Step g s s') : Grows s s' := by
  cases h with
  | derived made _ _ =>
    refine .push rfl rfl (Nat.le_refl _) (.of_same rfl) ?_
    rintro slot rfl
    simp [TypeShape.isArray] at made
  | fresh _ =>
    rw [registerVariable_eq]
    exact .push rfl rfl (by simp) (.of_same rfl) (by simp)
  | declared _ _ around fits free =>
    rw [registerClass_eq free]
    exact .pushClass rfl rfl (Nat.le_refl _) (.of_next rfl) around fits
  | @anonymous outer info _ around _ fits =>
    obtain ⟨name, anonymous, h⟩ := registerAnonymous_eq outer info s
    rw [h]
    exact .pushClass rfl rfl (Nat.le_refl _) (.of_next rfl) (genuine_of_isDeclared around) ⟨fits.interfaces, fits.super⟩
  | bounds shape _ _ _ =>
    simp only [setBounds, shape]
    refine ⟨fun _ _ h => h, Nat.le_refl _, by simp, .of_same rfl, id, id, .of_infos fun _ _ h => h, fun hs => ?_⟩
    exact .of_fits (s := s) (fun _ _ h => h) (.of_infos fun _ _ h => h) hs
  | @header _ _ f place _ frame _ _ fits =>
    simp only [modifyClass, place]
    refine .modify rfl rfl rfl rfl (fun info => ?_) fits
    obtain ⟨super, interfaces, typeParams, h⟩ := frame info
    rw [h]
    exact ⟨rfl, rfl⟩

/-- Classes in front of the guarded place keep their declarations. -/
theorem Step.classes {g : Guard} {s s' : TypeStore} (h : Step g s s') {i : Nat} {info : ClassInfo}
    (hi : i < g.classes) (hs : s.classes[i]? = some info) : s'.classes[i]? = some info := by
  have hlt : i < s.classes.size := (Array.getElem?_eq_some_iff.mp hs).1
  cases h with
  | derived => exact hs
  | fresh _ => exact hs
  | declared _ _ _ _ free =>
    rw [registerClass_eq free]
    simp only [Array.getElem?_push, if_neg (Nat.ne_of_lt hlt), hs]
  | @anonymous outer info _ _ _ _ =>
    obtain ⟨name, anonymous, h⟩ := registerAnonymous_eq outer info s
    rw [h]
    simp only [Array.getElem?_push, if_neg (Nat.ne_of_lt hlt), hs]
  | bounds shape _ _ _ =>
    simp only [setBounds, shape]
    exact hs
  | header place mark _ _ _ _ =>
    simp only [modifyClass, place]
    rw [Array.getElem?_modify, if_neg (by omega), hs]

/-- Type variables in front of the guarded place keep their bounds. -/
theorem Step.typeVars {g : Guard} {s s' : TypeStore} (h : Step g s s') {i : Nat} {v : TypeVariable}
    (hi : i < g.vars) (hs : s.typeVars[i]? = some v) : s'.typeVars[i]? = some v := by
  have hlt : i < s.typeVars.size := (Array.getElem?_eq_some_iff.mp hs).1
  cases h with
  | derived => exact hs
  | fresh _ =>
    rw [registerVariable_eq]
    simp only [Array.getElem?_push, if_neg (Nat.ne_of_lt hlt), hs]
  | declared _ _ _ _ free =>
    rw [registerClass_eq free]
    exact hs
  | @anonymous outer info _ _ _ _ =>
    obtain ⟨name, anonymous, h⟩ := registerAnonymous_eq outer info s
    rw [h]
    exact hs
  | bounds shape mark _ _ =>
    simp only [setBounds, shape]
    rw [Array.getElem?_modify, if_neg (by omega), hs]
  | header place mark _ _ _ _ =>
    simp only [modifyClass, place]
    exact hs

/-! ## Steps keep stores well formed

Each field of `WellFormed` speaks of all shapes, declarations, bounds or names. What was there
before goes on to satisfy it, because its numbers stay known and keep their shapes; so every
case is about the one thing that a step adds or changes.
-/

/-- A store that grew is well formed when all that is new in it refers to known numbers. What
was there keeps referring to what it referred to, since the numbers are still known. -/
theorem WellFormed.grow {s s' : TypeStore} (hs : s.WellFormed) (hg : Grows s s')
    (headers : ∀ (i : Nat) info, predefinedClasses[i]? = some info → s.classes[i]? = some info →
      s'.classes[i]? = some info)
    (shapes : ∀ (i : Nat) shape, s'.shapes[i]? = some shape → s.shapes[i]? = some shape ∨ s'.Refers i shape)
    (distinct : s'.shapes.toList.Nodup)
    (classes : ∀ (i : Nat) info, s'.classes[i]? = some info → s.classes[i]? = some info ∨ s'.KnowsClass info)
    (typeVars : ∀ (i : Nat) v, s'.typeVars[i]? = some v →
      s.typeVars[i]? = some v ∨ ∀ b ∈ v.bounds, s'.Denotes b)
    (names : ∀ p ∈ s'.names, p ∈ s.names ∨ (s'.shape p.2).isDeclared) : s'.WellFormed where
  predefined i shape h := hg.shapes i shape (hs.predefined i shape h)
  predefinedHeaders i info h := headers i info h (hs.predefinedHeaders i info h)
  shapes i shape h := by
    rcases shapes i shape h with h | h
    · exact hg.refers (Nat.le_of_lt (Array.getElem?_eq_some_iff.mp h).1) (hs.shapes i shape h)
    · exact h
  distinct := distinct
  classes i info h := by
    rcases classes i info h with h | h
    · exact hg.knowsClass (hs.classes i info h)
    · exact h
  typeVars i v h := by
    rcases typeVars i v h with h | h
    · exact fun b hb => hg.denotes (hs.typeVars i v h b hb)
    · exact h
  names p hp := by
    rcases names p hp with h | h
    · rw [hg.shape (knows_of_isDeclared (hs.names p h))]
      exact hs.names p h
    · exact h

/-- The shape that was just added. -/
theorem shape_push {s : TypeStore} {shape : TypeShape} (hs : 0 < s.shapes.size) {s' : TypeStore}
    (h : s'.shapes = s.shapes.push shape) : s'.shape ⟨s.shapes.size⟩ = shape := by
  have hne : (⟨s.shapes.size⟩ : TypeId) ≠ .none := by
    intro h'
    have := congrArg TypeId.index h'
    simp only [TypeId.none] at this
    omega
  unfold TypeStore.shape
  rw [if_neg hne, h]
  simp [Array.getD_eq_getD_getElem?]

/-- Where no two numbers have one shape, a shape that none has may be added. -/
theorem distinct_push {s : TypeStore} (distinct : s.shapes.toList.Nodup) {shape : TypeShape} (new : shape ∉ s.shapes) :
    (s.shapes.push shape).toList.Nodup := by
  rw [Array.toList_push, List.nodup_append]
  refine ⟨distinct, by simp, fun a ha b hb => ?_⟩
  rw [List.mem_singleton.mp hb]
  exact fun heq => new (heq ▸ Array.mem_toList_iff.mp ha)

/-- The next class has no number yet. -/
theorem WellFormed.new_declared {s : TypeStore} (hs : s.WellFormed) : .declared s.classes.size ∉ s.shapes := by
  intro hmem
  obtain ⟨i, hi⟩ := Array.mem_iff_getElem?.mp hmem
  exact Nat.lt_irrefl _ (hs.shapes i _ hi)

/-- The next type variable has no number yet. -/
theorem WellFormed.new_typeVar {s : TypeStore} (hs : s.WellFormed) : .typeVar s.typeVars.size ∉ s.shapes := by
  intro hmem
  obtain ⟨i, hi⟩ := Array.mem_iff_getElem?.mp hmem
  exact Nat.lt_irrefl _ (hs.shapes i _ hi)

/-- The predefined types have been handed out. -/
theorem WellFormed.size {s : TypeStore} (hs : s.WellFormed) : predefinedShapes.length ≤ s.shapes.size := by
  have h := hs.predefined (predefinedShapes.length - 1) _ (List.getElem?_eq_getElem (by decide))
  have := (Array.getElem?_eq_some_iff.mp h).1
  have h50 : predefinedShapes.length = 50 := by decide
  omega

/-- The first type is a predefined one. -/
theorem WellFormed.pos {s : TypeStore} (hs : s.WellFormed) : 0 < s.shapes.size :=
  Nat.lt_of_lt_of_le (by decide) hs.size

/-- A class declaration that an anonymous class gets refers to what it was given. -/
theorem KnowsClass.anonymous {s : TypeStore} {outer : TypeId} {info : ClassInfo} (around : s.Knows outer)
    (known : s.KnowsClass info) : s.KnowsClass (s.anonymousInfo outer info) :=
  ⟨around, known.super, known.interfaces, known.typeParams, known.distinct⟩

/-- A class under a new number: what the steps that add one have in common. -/
theorem WellFormed.pushClass {s s' : TypeStore} {info : ClassInfo} {name : String} (hs : s.WellFormed) (hg : Grows s s')
    (known : s.KnowsClass info) (shapes : s'.shapes = s.shapes.push (.declared s.classes.size))
    (classes : s'.classes = s.classes.push info) (typeVars : s'.typeVars = s.typeVars)
    (names : s'.names = (name, ⟨s.shapes.size⟩) :: s.names) : s'.WellFormed := by
  refine hs.grow hg ?_ ?_ (shapes ▸ distinct_push hs.distinct hs.new_declared) ?_ ?_ ?_
  · intro i info _ h
    have hlt : i < s.classes.size := (Array.getElem?_eq_some_iff.mp h).1
    rw [classes, Array.getElem?_push, if_neg (Nat.ne_of_lt hlt), h]
  · intro i shape h
    rw [shapes] at h
    refine (getElem?_push_cases h).imp_right ?_
    rintro ⟨rfl, rfl⟩
    show s.classes.size < s'.classes.size
    simp [classes]
  · intro i info h
    rw [classes] at h
    refine (getElem?_push_cases h).imp_right ?_
    rintro ⟨rfl, rfl⟩
    exact hg.knowsClass known
  · intro i v h
    exact .inl (typeVars ▸ h)
  · intro p hp
    rw [names] at hp
    rcases List.mem_cons.mp hp with rfl | hp
    · rw [shape_push hs.pos shapes]
      exact .inr rfl
    · exact .inl hp

/-- Every step keeps a store well formed, whatever its guard is: a guard restricts what is
changed, and what is new is in order in any case. -/
theorem WellFormed.step {g : Guard} {s s' : TypeStore} (hs : s.WellFormed) (h : Step g s s') : s'.WellFormed := by
  have hg := h.grows
  cases h with
  | @derived shape made refers new =>
    refine hs.grow hg (fun _ _ _ h => h) ?_ (distinct_push hs.distinct new) (fun _ _ h => .inl h) (fun _ _ h => .inl h) (fun _ h => .inl h)
    intro i sh h
    refine (getElem?_push_cases h).imp_right ?_
    rintro ⟨rfl, rfl⟩
    exact hg.refers (Nat.le_refl _) refers
  | @fresh v unbounded =>
    rw [registerVariable_eq] at hg ⊢
    refine hs.grow hg (fun _ _ _ h => h) ?_ (distinct_push hs.distinct hs.new_typeVar) (fun _ _ h => .inl h) ?_ (fun _ h => .inl h)
    · intro i sh h
      refine (getElem?_push_cases h).imp_right ?_
      rintro ⟨rfl, rfl⟩
      simp [Refers]
    · intro i w h
      refine (getElem?_push_cases h).imp_right ?_
      rintro ⟨rfl, rfl⟩
      simp [unbounded]
  | declared _ known _ _ free =>
    rw [registerClass_eq free] at hg ⊢
    exact hs.pushClass hg known rfl rfl rfl rfl
  | @anonymous outer info _ around known _ =>
    obtain ⟨name, anonymous, h⟩ := registerAnonymous_eq outer info s
    rw [h] at hg ⊢
    exact hs.pushClass hg (known.anonymous (knows_of_isDeclared around)) rfl rfl rfl rfl
  | @bounds t slot bs shape mark known _ =>
    refine hs.grow hg ?_ ?_ ?_ ?_ ?_ ?_ <;> simp only [setBounds, shape] at hg ⊢
    · exact fun _ _ _ h => h
    · exact fun _ _ h => .inl h
    · exact hs.distinct
    · exact fun _ _ h => .inl h
    · intro i v h
      refine (getElem?_modify_cases h).imp_right ?_
      rintro ⟨-, w, -, rfl⟩
      exact fun b hb => hg.denotes (known b hb)
    · exact fun _ h => .inl h
  | @header t slot f place mark frame _ known _ =>
    refine hs.grow hg ?_ ?_ ?_ ?_ ?_ ?_ <;> simp only [modifyClass, place] at hg ⊢
    · intro i info hi h
      have hlt : i < predefinedClasses.length := (List.getElem?_eq_some_iff.mp hi).1
      have := g.predefined
      rw [Array.getElem?_modify, if_neg (by omega), h]
    · exact fun _ _ h => .inl h
    · exact hs.distinct
    · intro i info h
      refine (getElem?_modify_cases h).imp_right ?_
      rintro ⟨rfl, info', hi, rfl⟩
      exact hg.knowsClass (known info' hi)
    · exact fun _ _ h => .inl h
    · exact fun _ h => .inl h

/-! ## The evolution of stores

Sequences of steps, as an evolution: this is what the modules above use.
-/

/-- Well-formed stores that have at least what the guard covers, and the steps it allows. A
store leads to another one by any number of steps, so what holds along the evolution needs no
induction where it is used. -/
def growth (g : Guard) : Evolution TypeStore where
  Sound s := s.WellFormed ∧ g.classes ≤ s.classes.size ∧ g.vars ≤ s.typeVars.size
  Leads := Relation.ReflTransGen (Step g)
  refl _ := .refl
  trans := .trans
  sound h hs := by
    induction h with
    | refl => exact hs
    | tail _ h ih =>
      have hg := h.grows
      exact ⟨ih.1.step h, Nat.le_trans ih.2.1 hg.classes, Nat.le_trans ih.2.2 hg.typeVars⟩

/-- What a store leads to has grown. -/
theorem growth_grows {g : Guard} {s s' : TypeStore} (h : (growth g).Leads s s') : Grows s s' := by
  induction h with
  | refl => exact .refl _
  | tail _ h ih => exact ih.trans h.grows

/-- Where no class is added, there are as many as before. -/
theorem growth_count {g : Guard} {s s' : TypeStore} (declares : ∀ info, ¬ g.declares info) (embodies : ¬ g.embodies)
    (h : (growth g).Leads s s') : s'.classes.size = s.classes.size := by
  induction h with
  | refl => rfl
  | tail _ h ih =>
    refine Eq.trans ?_ ih
    cases h with
    | derived => rfl
    | fresh => rfl
    | declared may => exact absurd may (declares _)
    | anonymous may => exact absurd may embodies
    | bounds shape => simp only [setBounds, shape]
    | header place => simp only [modifyClass, place, Array.size_modify]

/-- What may be a bound stays so. -/
theorem Grows.isBound {s s' : TypeStore} (h : Grows s s') {t : TypeId} (ht : s.IsBound t) : s'.IsBound t := by
  have hshape : s'.shape t = s.shape t := by
    refine h.shape (knows_of_shape fun habsent => ?_)
    have hreference := ht.1
    simp [isReference, habsent, TypeShape.isReference] at hreference
  simpa only [IsBound, isReference, isArray, hshape] using ht

/-- Where a guard allows no other bounds, type variables go on to have proper ones. The shapes
of bounds never change, so those that were set earlier stay proper whatever is added to the
store. -/
theorem growth_bounded {g : Guard} {s s' : TypeStore} (proper : ¬ g.anyBounds) (h : (growth g).Leads s s') (hs : s.Bounded) :
    s'.Bounded := by
  induction h with
  | refl => exact hs
  | @tail s₁ s₂ _ h ih =>
    have hg : Grows s₁ s₂ := h.grows
    have old (v : TypeVariable) (hv : v ∈ s₁.typeVars) : ∀ b ∈ v.bounds, s₂.IsBound b := fun b hb => hg.isBound (ih v hv b hb)
    intro v hv
    cases h with
    | derived => exact old v hv
    | fresh unbounded =>
      rw [registerVariable_eq] at hv
      rcases Array.mem_push.mp hv with hv | rfl
      · exact old v hv
      · simp [unbounded]
    | declared _ _ _ _ free =>
      rw [registerClass_eq free] at hv
      exact old v hv
    | @anonymous outer info =>
      obtain ⟨name, anonymous, h⟩ := registerAnonymous_eq outer info s₁
      rw [h] at hv
      exact old v hv
    | @bounds t slot bs shape _ _ fits =>
      obtain ⟨i, hi⟩ := Array.mem_iff_getElem?.mp hv
      simp only [setBounds, shape] at hi hg
      rcases getElem?_modify_cases hi with hi | ⟨-, w, -, rfl⟩
      · exact old v (Array.mem_of_getElem? hi)
      · simp only [setBounds, shape]
        exact fun b hb => hg.isBound (fits.resolve_left proper b hb)
    | header place =>
      simp only [modifyClass, place] at hv
      exact old v hv

/-- One step along the evolution. -/
theorem Step.leads {g : Guard} {s s' : TypeStore} (h : Step g s s') : (growth g).Leads s s' :=
  .single h

/-- What a guard allows, a wider one allows too. -/
theorem Step.widen {g g' : Guard} {s s' : TypeStore} (h : Step g s s') (within : g.Within g') : Step g' s s' := by
  cases h with
  | derived made refers new => exact .derived made refers new
  | fresh unbounded => exact .fresh unbounded
  | declared may known around fits free => exact .declared (within.declares _ may) known around fits free
  | anonymous may around known fits => exact .anonymous (within.embodies may) around known fits
  | bounds shape mark known proper =>
    exact .bounds shape (Nat.le_trans within.vars mark) known (proper.imp_left within.anyBounds)
  | header place mark frame may known fits =>
    exact .header place (Nat.le_trans within.classes mark) frame (fun info h => within.heads _ _ _ (may info h)) known fits

/-- Where a guard leads to, a wider one leads to as well. -/
theorem growth_widen {g g' : Guard} {s s' : TypeStore} (h : (growth g).Leads s s') (within : g.Within g') :
    (growth g').Leads s s' :=
  Relation.ReflTransGen.mono (fun _ _ h => h.widen within) _ _ h

/-! ## Extensions

A run keeps what it has found: a call that was bound is judged by the types of its turn, and
nothing that is added afterwards changes the verdict. `Retains` says this of two stores, and
`Extends` keeps beside it how the later one was made.
-/

/-- A store that has all of another one as it was: beside the shapes also the declarations of
classes and the bounds of type variables. What is computed from these for known numbers is the
same in both. -/
structure Retains (s s' : TypeStore) : Prop extends Grows s s' where
  /-- Classes keep their declarations. -/
  infos : ∀ (i : Nat) info, s.classes[i]? = some info → s'.classes[i]? = some info
  /-- Type variables keep their bounds. -/
  bounds : ∀ (i : Nat) v, s.typeVars[i]? = some v → s'.typeVars[i]? = some v

/-- A store that has all of another one as it was, and was made of it in steps that set no
header. The steps are kept beside what follows from them for those invariants that are about
the way from one store to the other. -/
structure Extends (s s' : TypeStore) : Prop extends Retains s s' where
  /-- The steps. -/
  steps : (growth .running).Leads s s'

namespace Extends

variable {s s' s'' : TypeStore}

theorem refl (s : TypeStore) : Extends s s :=
  ⟨⟨.refl s, fun _ _ h => h, fun _ _ h => h⟩, .refl⟩

theorem trans (h : Extends s s') (h' : Extends s' s'') : Extends s s'' :=
  ⟨⟨h.toGrows.trans h'.toGrows, fun i info hi => h'.infos i info (h.infos i info hi),
    fun i v hi => h'.bounds i v (h.bounds i v hi)⟩, h.steps.trans h'.steps⟩

end Extends

/-- The guard that leaves alone all that a store has. It allows the classes that are added
while calls are bound, and it may set proper bounds of type variables that the store does not
have yet. -/
def WellFormed.guard {s : TypeStore} (hs : s.WellFormed) : Guard where
  classes := s.classes.size
  vars := s.typeVars.size
  predefined := by
    have h := hs.predefinedHeaders (predefinedClasses.length - 1) _ (List.getElem?_eq_getElem (by decide))
    have := (Array.getElem?_eq_some_iff.mp h).1
    have h24 : predefinedClasses.length = 24 := by decide
    omega
  declares := Guard.running.declares
  embodies := Guard.running.embodies
  anyBounds := False
  heads := Guard.running.heads

/-- The guard under which the text of a signature is read: bounds are what the text says. -/
def WellFormed.reading {s : TypeStore} (hs : s.WellFormed) : Guard :=
  { hs.guard with anyBounds := True }

/-- What leaves alone all that a store has sets no header. -/
theorem WellFormed.reading_within {s : TypeStore} (hs : s.WellFormed) : hs.reading.Within .running where
  classes := hs.guard.predefined
  vars := Nat.zero_le _
  declares _ := id
  embodies := id
  anyBounds := id
  heads _ _ _ := id

/-- Proper bounds are some of those that a text may say. -/
theorem WellFormed.guard_within {s : TypeStore} (hs : s.WellFormed) : hs.guard.Within hs.reading where
  classes := Nat.le_refl _
  vars := Nat.le_refl _
  declares _ := id
  embodies := id
  anyBounds := False.elim
  heads _ _ _ := id

/-- A well-formed store is sound under its own guard. -/
theorem WellFormed.sound {s : TypeStore} (hs : s.WellFormed) : (growth hs.guard).Sound s :=
  ⟨hs, Nat.le_refl _, Nat.le_refl _⟩

/-- While a text is read, a store is only extended. The guard covers all classes and type
variables that there are, so the steps it allows set the bounds of new type variables only. -/
theorem WellFormed.extends_of_reading {s s' : TypeStore} (hs : s.WellFormed) (h : (growth hs.reading).Leads s s') :
    s.Extends s' := by
  induction h with
  | refl => exact .refl _
  | tail _ h ih =>
    refine ⟨⟨ih.toGrows.trans h.grows, fun i info hi => ?_, fun i v hi => ?_⟩, ih.steps.tail (h.widen hs.reading_within)⟩
    · exact h.classes (Array.getElem?_eq_some_iff.mp hi).1 (ih.infos i info hi)
    · exact h.typeVars (Array.getElem?_eq_some_iff.mp hi).1 (ih.bounds i v hi)

/-- Under its own guard a store is only extended. -/
theorem WellFormed.extends {s s' : TypeStore} (hs : s.WellFormed) (h : (growth hs.guard).Leads s s') :
    s.Extends s' :=
  hs.extends_of_reading (growth_widen h hs.guard_within)

end TypeStore

end CallResolution
