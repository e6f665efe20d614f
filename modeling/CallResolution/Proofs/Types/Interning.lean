import CallResolution.Proofs.Types.Making
import CallResolution.Proofs.Types.Predefined

/-!
# One number for one type

A store that is only asked about numbers it handed out stays canonical: no two numbers have
one shape, parts come before what they are parts of, and no array is an element of an array.
This does not depend on what is asked. The types that are given arguments need not be classes,
and bounds may be any types, so `Canonical` asks for less than `WellFormed` does; what a
request may do is `Request.run`, and `Reached` are the stores that valid requests lead to.

A store finds a type that it has by the type's key, in one of two maps from keys to numbers.
No shape is ever stored twice because the maps are in step with the shapes: what is not found
in them is not there (`intern_canonical`, `apply_canonical`). In turn a canonical store has a
number under a key exactly when the type with this number has the key
(`Canonical.lookup_inStep`).

Since a type comes after its parts, types that are built in the same way are one, by induction
on their numbers (`SameType.eq`). The rest follows the shape of a run: each kind of request
leads from a canonical store to a canonical one that keeps every shape
(`Request.Valid.leads`), so a run of requests does (`Reaches.leads`).

Main statement: `interned_canonically`.
-/

namespace CallResolution

/-- Whether this is a type that is neither declared nor made from others. -/
def TypeShape.isBasic : TypeShape → Bool
  | .bad | .null | .void | .primitive _ => true
  | _ => false

namespace TypeStore

variable {s s' s'' : TypeStore}

/-! ## Canonical stores

What a store keeps whatever is asked of it. The maps from keys are in step with the shapes by
the type of a store, so what has to be shown is that no two shapes are the same; then a key
leads to one number.
-/

/-- The parts of the `i`-th shape come before it, and the element of an array is no array. -/
def PartsPrecede (s : TypeStore) (i : Nat) : TypeShape → Prop
  | .absent => i = 0
  | .declared slot => slot < s.classes.size
  | .typeVar slot => slot < s.typeVars.size
  | .array e _ => e.index < i ∧ ¬ (s.shape e).isArray
  | .applied base args => base.index < i ∧ ∀ a ∈ args, a.type.index < i
  | _ => True

/-- What holds of a store whatever is asked of it, as long as it is asked about numbers that
it knows. Unlike a well-formed store, a canonical one may have arguments for what is no class,
and bounds that cannot be written down. -/
structure Canonical (s : TypeStore) : Prop where
  /-- The number 0 is taken. -/
  first : s.shapes[0]? = some .absent
  /-- The root class is known. -/
  object : s.Knows .object
  /-- Shapes refer to earlier numbers. -/
  parts : ∀ (i : Nat) shape, s.shapes[i]? = some shape → s.PartsPrecede i shape
  /-- No two numbers have one shape. -/
  distinct : s.shapes.toList.Nodup
  /-- Bounds are known. -/
  bounds : ∀ (i : Nat) v, s.typeVars[i]? = some v → ∀ b ∈ v.bounds, s.Knows b

/-- Every number keeps its shape. -/
def KeepsShapes (s s' : TypeStore) : Prop :=
  ∀ (i : Nat) shape, s.shapes[i]? = some shape → s'.shapes[i]? = some shape

namespace KeepsShapes

theorem refl (s : TypeStore) : s.KeepsShapes s :=
  fun _ _ h => h

theorem trans (h : s.KeepsShapes s') (h' : s'.KeepsShapes s'') : s.KeepsShapes s'' :=
  fun i shape hi => h' i shape (h i shape hi)

/-- What was handed out stays so. -/
theorem knows (h : s.KeepsShapes s') {t : TypeId} (ht : s.Knows t) : s'.Knows t :=
  (Array.getElem?_eq_some_iff.mp (h _ _ (Array.getElem?_eq_getElem ht))).1

/-- A known number keeps its shape. -/
theorem shape (h : s.KeepsShapes s') {t : TypeId} (ht : s.Knows t) : s'.shape t = s.shape t := by
  have hold := Array.getElem?_eq_getElem ht
  simp [TypeStore.shape, Array.getD_eq_getD_getElem?, hold, h _ _ hold]

end KeepsShapes

/-- What a shape refers to is in a store that kept its shapes, too. -/
theorem PartsPrecede.mono {i : Nat} {shape : TypeShape} (h : s.PartsPrecede i shape) (hi : i ≤ s.shapes.size)
    (kept : s.KeepsShapes s') (classes : s.classes.size ≤ s'.classes.size) (typeVars : s.typeVars.size ≤ s'.typeVars.size) :
    s'.PartsPrecede i shape := by
  cases shape with
  | declared slot => exact Nat.lt_of_lt_of_le h classes
  | typeVar slot => exact Nat.lt_of_lt_of_le h typeVars
  | array e d =>
    obtain ⟨he, harray⟩ := h
    have hk : s.Knows e := Nat.lt_of_lt_of_le he hi
    exact ⟨he, kept.shape hk ▸ harray⟩
  | _ => exact h

namespace Canonical

/-- There is a number. -/
theorem pos (hs : s.Canonical) : 0 < s.shapes.size :=
  (Array.getElem?_eq_some_iff.mp hs.first).1

/-- No type is a known number. -/
theorem knows_none (hs : s.Canonical) : s.Knows .none :=
  hs.pos

/-- The parts of a type come before it. -/
theorem partsPrecede (hs : s.Canonical) {t : TypeId} {shape : TypeShape} (h : s.shape t = shape) (hne : shape ≠ .absent) :
    s.PartsPrecede t.index shape :=
  hs.parts _ _ (getElem?_of_shape h hne)

/-- Types with one shape are one. -/
theorem eq_of_shape (hs : s.Canonical) {t u : TypeId} (h : s.shape t = s.shape u) (hne : s.shape t ≠ .absent) : t = u :=
  eq_of_distinct hs.distinct h hne

/-- A known number without a shape is the number 0. -/
theorem eq_none (hs : s.Canonical) {t : TypeId} (hk : s.Knows t) (h : s.shape t = .absent) : t = .none := by
  by_contra hne
  have hplace : s.shapes[t.index]? = some .absent := by
    rw [← h, shape, if_neg hne]
    simp [Array.getD_eq_getD_getElem?, Array.getElem?_eq_getElem hk]
  exact hne (congrArg TypeId.mk (hs.parts t.index .absent hplace : t.index = 0))

/-- A map that is in step has a number under a key exactly when the type with this number has
the key, as long as types with one key are one and the number 0 has none. -/
theorem lookup_inStep (hs : s.Canonical) {κ : Type} [DecidableEq κ] {key? : TypeShape → Option κ} {map : List (κ × TypeId)}
    (inStep : InStep key? s.shapes map) (absent : key? .absent = none)
    (injective : ∀ shape shape' k, key? shape = some k → key? shape' = some k → shape = shape') {k : κ} {t : TypeId} :
    map.lookup k = some t ↔ key? (s.shape t) = some k := by
  rw [inStep k]
  constructor
  · intro h
    obtain ⟨i, hfind, rfl⟩ := Option.map_eq_some_iff.mp h
    obtain ⟨hi, hkey, -⟩ := Array.findIdx?_eq_some_iff_getElem.mp hfind
    have hplace : key? s.shapes[i] = some k := by simpa using hkey
    have hnone : (⟨i⟩ : TypeId) ≠ .none := by
      rintro ⟨⟩
      have hzero : s.shapes[0] = .absent := by simpa [Array.getElem?_eq_getElem hi] using hs.first
      rw [hzero, absent] at hplace
      cases hplace
    simpa [shape, hnone, Array.getD_eq_getD_getElem?, Array.getElem?_eq_getElem hi] using hplace
  · intro h
    have hne : s.shape t ≠ .absent := fun habsent => by simp [habsent, absent] at h
    obtain ⟨ht, hplace⟩ := Array.getElem?_eq_some_iff.mp (getElem?_of_shape rfl hne)
    -- The first number with the key has the shape of `t`, and a canonical store has no other number with it.
    cases hfind : s.shapes.findIdx? fun shape => key? shape = some k with
    | none => exact absurd (Array.findIdx?_eq_none_iff.mp hfind _ (Array.getElem_mem ht)) (by simp [hplace, h])
    | some i =>
      obtain ⟨hi, hkey, -⟩ := Array.findIdx?_eq_some_iff_getElem.mp hfind
      have hsame : s.shapes[i] = s.shapes[t.index] := injective _ _ k (by simpa using hkey) (hplace ▸ h)
      exact congrArg some (congrArg TypeId.mk ((List.getElem_inj hs.distinct).mp hsame))

/-- A store that kept its shapes is canonical when all that is new in it refers to what it
knows. -/
theorem grow (hs : s.Canonical) (kept : s.KeepsShapes s') (classes : s.classes.size ≤ s'.classes.size)
    (typeVars : s.typeVars.size ≤ s'.typeVars.size)
    (parts : ∀ (i : Nat) shape, s'.shapes[i]? = some shape → s.shapes[i]? = some shape ∨ s'.PartsPrecede i shape)
    (distinct : s'.shapes.toList.Nodup)
    (bounds : ∀ (i : Nat) v, s'.typeVars[i]? = some v → s.typeVars[i]? = some v ∨ ∀ b ∈ v.bounds, s.Knows b) :
    s'.Canonical where
  first := kept 0 _ hs.first
  object := kept.knows hs.object
  parts i shape h := by
    rcases parts i shape h with h | h
    · exact (hs.parts i shape h).mono (Nat.le_of_lt (Array.getElem?_eq_some_iff.mp h).1) kept classes typeVars
    · exact h
  distinct := distinct
  bounds i v h b hb := by
    rcases bounds i v h with h | h
    · exact kept.knows (hs.bounds i v h b hb)
    · exact kept.knows (h b hb)

/-- A shape is added that the store does not have. -/
theorem push (hs : s.Canonical) {shape : TypeShape} (shapes : s'.shapes = s.shapes.push shape) (new : shape ∉ s.shapes)
    (classes : s.classes.size ≤ s'.classes.size) (typeVars : s.typeVars.size ≤ s'.typeVars.size)
    (precede : s.KeepsShapes s' → s'.PartsPrecede s.shapes.size shape)
    (bounds : ∀ (i : Nat) v, s'.typeVars[i]? = some v → s.typeVars[i]? = some v ∨ ∀ b ∈ v.bounds, s.Knows b) :
    s.KeepsShapes s' ∧ s'.Canonical := by
  have kept : s.KeepsShapes s' := getElem?_shapes_push shapes
  refine ⟨kept, hs.grow kept classes typeVars (fun i shape h => ?_) (shapes ▸ distinct_push hs.distinct new) bounds⟩
  rw [shapes] at h
  refine (getElem?_push_cases h).imp_right ?_
  rintro ⟨rfl, rfl⟩
  exact precede kept

/-- The next class and the next type variable have no number yet. -/
theorem not_mem_next (hs : s.Canonical) : .declared s.classes.size ∉ s.shapes ∧ .typeVar s.typeVars.size ∉ s.shapes := by
  refine ⟨fun hmem => ?_, fun hmem => ?_⟩
  · obtain ⟨i, hi⟩ := Array.mem_iff_getElem?.mp hmem
    exact Nat.lt_irrefl _ (hs.parts i _ hi)
  · obtain ⟨i, hi⟩ := Array.mem_iff_getElem?.mp hmem
    exact Nat.lt_irrefl _ (hs.parts i _ hi)

end Canonical

/-- The predefined store is canonical. -/
theorem initial_canonical : initial.Canonical where
  first := initial_wellFormed.predefined 0 _ rfl
  object := by decide
  parts i shape h := by
    have hrefers := initial_wellFormed.shapes i shape h
    cases shape with
    | array e d => exact ⟨hrefers.1, hrefers.2.1⟩
    | applied base args => exact ⟨hrefers.1, hrefers.2.2⟩
    | _ => exact hrefers
  distinct := initial_wellFormed.distinct
  bounds i v h b hb := (initial_wellFormed.typeVars i v h b hb).knows

/-! ## Made types

What is made from known types is interned, and the functions that make types are followed
once, for any property that passes to parts (`interning_substitutive`).
-/

/-- Canonical stores, and the stores that keep what they have. -/
def interning : Evolution TypeStore where
  Sound := Canonical
  Leads s s' := s.KeepsShapes s' ∧ (s.Canonical → s'.Canonical)
  refl s := ⟨.refl s, id⟩
  trans h h' := ⟨h.1.trans h'.1, h'.2 ∘ h.2⟩
  sound h := h.2

/-- Interning an array or parameterized shape whose parts are known gives a type of this
shape. Either the map from keys has it, and then it is the type with this key; or no type has
it, and the new one comes behind its parts. -/
theorem intern_canonical {shape : TypeShape} (made : shape.isArray ∨ ∃ base args, shape = .applied base args)
    (precede : s.PartsPrecede s.shapes.size shape) :
    Works interning (intern shape) s fun t s' => s'.Knows t ∧ s'.shape t = shape := by
  have hkey := structureKey?_of_made made
  have habsent : shape ≠ .absent := by
    rintro rfl
    cases hkey
  have known {t : TypeId} {s' : TypeStore} (h : s'.shape t = shape) : s'.Knows t ∧ s'.shape t = shape :=
    ⟨knows_of_shape (h ▸ habsent), h⟩
  intro hs
  rcases intern_apply hs.first hkey with ⟨t, h, hshape⟩ | ⟨new, h⟩
  · rw [h]
    exact ⟨interning.refl s, known hshape⟩
  · rw [h]
    have hpush : s.KeepsShapes (TypeStore.push shape s).2 ∧ (TypeStore.push shape s).2.Canonical :=
      hs.push rfl new (Nat.le_refl _) (Nat.le_refl _)
        (fun kept => precede.mono (Nat.le_refl _) kept (Nat.le_refl _) (Nat.le_refl _)) fun _ _ h => .inl h
    exact ⟨⟨hpush.1, fun _ => hpush.2⟩, known (shape_push hs.pos rfl)⟩

/-! ## Arrays

An array of an array is an array with more dimensions, so an array type has no array as its
elements.
-/

/-- What the array of a type with further dimensions is. -/
def ArrayOf (s : TypeStore) (e : TypeId) (d : UInt32) (r : TypeId) : Prop :=
  if d = 0 then r = e
  else match s.shape e with
    | .bad => r = e
    | .array e' d' => s.shape r = .array e' (d + d')
    | _ => s.shape r = .array e d

/-- The array of a known type is known. -/
theorem array_canonical {e : TypeId} (d : UInt32) (he : s.Knows e) :
    Works interning (array e d) s fun t s' => s'.Knows t ∧ s'.ArrayOf e d t := by
  refine Works.of_sound fun hs => ?_
  unfold array
  split
  · rename_i hd
    exact Works.ret ⟨he, by simp [ArrayOf, hd]⟩
  · rename_i hd
    refine Works.read ?_
    split
    · rename_i hbad
      exact Works.ret ⟨he, by simp [ArrayOf, hbad]⟩
    · rename_i e' d' h
      refine (intern_canonical (.inl rfl) ?_).mono fun t s' _ hl h' => ⟨h'.1, ?_⟩
      · obtain ⟨hlt, harray⟩ := hs.partsPrecede h (by simp)
        exact ⟨Nat.lt_trans hlt he, harray⟩
      · simp [ArrayOf, hd, hl.1.shape he, h, h'.2]
    · rename_i hbad harray
      have precede : s.PartsPrecede s.shapes.size (.array e d) := by
        refine ⟨he, fun h => ?_⟩
        cases hshape : s.shape e with
        | array e' d' => exact harray e' d' hshape
        | _ => simp [hshape, TypeShape.isArray] at h
      refine (intern_canonical (.inl rfl) precede).mono fun t s' _ hl h' => ⟨h'.1, ?_⟩
      unfold ArrayOf
      rw [if_neg hd, hl.1.shape he]
      split
      · exact absurd ‹_› hbad
      · exact absurd ‹_› (harray _ _)
      · exact h'.2

/-- A known type with known arguments is known. -/
theorem apply_canonical {base : TypeId} {args : List TypeArg} (hb : s.Knows base) (ha : ∀ a ∈ args, s.Knows a.type) :
    Works interning (apply base args) s fun t s' => s'.Knows t := by
  rw [apply_eq]
  split
  · exact Works.ret hb
  · exact (intern_canonical (.inr ⟨base, args, rfl⟩) ⟨hb, ha⟩).mono fun _ _ _ _ h => h.1

namespace Canonical

/-- The element of an array is known. -/
theorem knows_elem (hs : s.Canonical) {t e : TypeId} {d : UInt32} (h : s.shape t = .array e d) : s.Knows e :=
  knows_of_lt (knows_of_shape (by simp [h])) (hs.partsPrecede h (by simp)).1

/-- The parts of a parameterized type are known. -/
theorem knows_applied (hs : s.Canonical) {t base : TypeId} {args : List TypeArg} (h : s.shape t = .applied base args) :
    s.Knows base ∧ ∀ a ∈ args, s.Knows a.type := by
  have hk : s.Knows t := knows_of_shape (by simp [h])
  obtain ⟨hbase, hargs⟩ := hs.partsPrecede h (by simp)
  exact ⟨knows_of_lt hk hbase, fun a ha => knows_of_lt hk (hargs a ha)⟩

/-- The first bound of a type variable is known. -/
theorem knows_firstBound (hs : s.Canonical) {t b : TypeId} (h : ((s.typeVariable? t).elim [] (·.bounds)).head? = some b) :
    s.Knows b := by
  cases hv : s.typeVariable? t with
  | none => simp [hv] at h
  | some v =>
    have hb : b ∈ v.bounds := List.mem_of_head? (by simpa [hv] using h)
    unfold typeVariable? at hv
    split at hv
    · exact hs.bounds _ v hv b hb
    · cases hv

end Canonical

/-- Types that are made from known ones are known. -/
theorem interning_substitutive : Substitutive interning Knows where
  keeps hl ht := hl.1.knows ht
  none hs := hs.knows_none
  object hs := hs.object
  elem hs h := hs.knows_elem h
  base hs h := (hs.knows_applied h).1
  bound hs h := hs.knows_firstBound h
  array d h := (array_canonical d h).mono fun _ _ _ _ h => h.1
  args hs h := (hs.knows_applied h).2
  apply hs h hl hargs := apply_canonical (hl.1.knows (hs.knows_applied h).1) hargs

/-! ## Declarations

Classes and type variables get new numbers, and what is declared of them may change; shapes do
not.
-/

/-- A class is added. -/
theorem Canonical.pushClass (hs : s.Canonical) {info : ClassInfo} (shapes : s'.shapes = s.shapes.push (.declared s.classes.size))
    (classes : s'.classes = s.classes.push info) (typeVars : s'.typeVars = s.typeVars) : interning.Leads s s' := by
  have precede : s'.PartsPrecede s.shapes.size (.declared s.classes.size) := by simp [PartsPrecede, classes]
  obtain ⟨kept, hs'⟩ := hs.push shapes hs.not_mem_next.1 (by simp [classes]) (Nat.le_of_eq (typeVars ▸ rfl)) (fun _ => precede)
    fun _ _ h => .inl (typeVars ▸ h)
  exact ⟨kept, fun _ => hs'⟩

/-- A class is registered, unless its name is taken. -/
theorem Canonical.registerClass (hs : s.Canonical) (info : ClassInfo) : interning.Leads s (registerClass info s).2 := by
  cases free : s.classNamed? (s.qualifiedOf info) with
  | none =>
    rw [registerClass_eq free]
    exact hs.pushClass rfl rfl rfl
  | some prev =>
    rw [registerClass_of_taken free]
    exact interning.refl s

/-- An anonymous class is registered. -/
theorem Canonical.registerAnonymous (hs : s.Canonical) (outer : TypeId) (info : ClassInfo) :
    interning.Leads s (registerAnonymous outer info s).2 := by
  obtain ⟨name, anonymous, h⟩ := registerAnonymous_eq outer info s
  rw [h]
  exact hs.pushClass rfl rfl rfl

/-- A type variable with known bounds is registered. -/
theorem Canonical.registerVariable (hs : s.Canonical) {v : TypeVariable} (hv : ∀ b ∈ v.bounds, s.Knows b) :
    interning.Leads s (registerVariable v s).2 := by
  rw [registerVariable_eq]
  generalize hs' : ({ s.pushed _ with typeVars := _ } : TypeStore) = s'
  have hshapes : s'.shapes = s.shapes.push (.typeVar s.typeVars.size) := hs' ▸ rfl
  have htypeVars : s'.typeVars = s.typeVars.push v := hs' ▸ rfl
  have hclasses : s'.classes = s.classes := hs' ▸ rfl
  have precede : s'.PartsPrecede s.shapes.size (.typeVar s.typeVars.size) := by simp [PartsPrecede, htypeVars]
  obtain ⟨kept, hcanonical⟩ := hs.push hshapes hs.not_mem_next.2 (Nat.le_of_eq (hclasses ▸ rfl)) (by simp [htypeVars])
    (fun _ => precede) fun i w h => (getElem?_push_cases (htypeVars ▸ h)).imp_right fun ⟨_, hw⟩ => hw ▸ hv
  exact ⟨kept, fun _ => hcanonical⟩

/-- Other bounds of type variables and other declarations of classes are recorded. -/
theorem Canonical.amend (hs : s.Canonical) (shapes : s'.shapes = s.shapes) (classes : s.classes.size ≤ s'.classes.size)
    (typeVars : s.typeVars.size ≤ s'.typeVars.size)
    (bounds : ∀ (i : Nat) v, s'.typeVars[i]? = some v → s.typeVars[i]? = some v ∨ ∀ b ∈ v.bounds, s.Knows b) :
    interning.Leads s s' := by
  have kept : s.KeepsShapes s' := fun _ _ h => shapes ▸ h
  exact ⟨kept, fun _ => hs.grow kept classes typeVars (fun _ _ h => .inl (shapes ▸ h)) (shapes ▸ hs.distinct) bounds⟩

/-- Known bounds of a type variable are recorded. -/
theorem Canonical.setBounds (hs : s.Canonical) (t : TypeId) {bounds : List TypeId} (hbounds : ∀ b ∈ bounds, s.Knows b) :
    interning.Leads s (s.setBounds t bounds) := by
  unfold TypeStore.setBounds
  split
  · refine hs.amend rfl (Nat.le_refl _) (by simp) fun i w h => (getElem?_modify_cases h).imp_right ?_
    rintro ⟨-, v, -, rfl⟩
    exact hbounds
  · exact interning.refl s

/-- The declaration of a class is changed. -/
theorem Canonical.modifyClass (hs : s.Canonical) (t : TypeId) (f : ClassInfo → ClassInfo) :
    interning.Leads s (s.modifyClass t f) := by
  unfold TypeStore.modifyClass
  split
  · exact hs.amend rfl (by simp) (Nat.le_refl _) fun _ _ h => .inl h
  · exact interning.refl s

/-! ## Requests

A run is a list of requests, each about numbers that were handed out by then. What one request
keeps, a run keeps by induction.
-/

/-- What can be asked of a store that may make types or declare something. The requests are
those of the program, each with its arguments, and there is no other way in which a store
comes about. -/
inductive Request where
  /-- The array of a type with further dimensions. -/
  | array (elem : TypeId) (dims : UInt32)
  /-- A type with arguments. -/
  | apply (base : TypeId) (args : List TypeArg)
  /-- An array without its outermost dimension. -/
  | component (t : TypeId)
  /-- An array without some of its dimensions. -/
  | stripDims (t : TypeId) (n : UInt32)
  /-- A type with arguments for type variables. -/
  | subst (t : TypeId) (params : List TypeId) (args : List TypeArg)
  /-- The erasure of a type. -/
  | erasure (t : TypeId)
  /-- Whether a type is a subtype of another one. -/
  | checkSubtype (a b : TypeId)
  /-- A new class. -/
  | registerClass (info : ClassInfo)
  /-- A new anonymous class. -/
  | registerAnonymous (outer : TypeId) (info : ClassInfo)
  /-- A new type variable. -/
  | registerVariable (v : TypeVariable)
  /-- The bounds of a type variable. -/
  | setBounds (t : TypeId) (bounds : List TypeId)
  /-- Another declaration of a class. -/
  | modifyClass (t : TypeId) (f : ClassInfo → ClassInfo)

namespace Request

/-- The numbers that a request is about. -/
def mentions : Request → List TypeId
  | .array e _ => [e]
  | .apply base args => base :: args.map (·.type)
  | .component t | .stripDims t _ | .erasure t | .modifyClass t _ => [t]
  | .subst t params args => t :: params ++ args.map (·.type)
  | .checkSubtype a b => [a, b]
  | .registerClass info => info.outer :: info.super :: info.interfaces ++ info.typeParams
  | .registerAnonymous outer info => outer :: info.super :: info.interfaces ++ info.typeParams
  | .registerVariable v => v.owner :: v.bounds
  | .setBounds t bounds => t :: bounds

/-- The store after a request. -/
def run : Request → TypeStore → TypeStore
  | .array e d, s => (TypeStore.array e d s).2
  | .apply base args, s => (TypeStore.apply base args s).2
  | .component t, s => (TypeStore.component t s).2
  | .stripDims t n, s => (TypeStore.stripDims t n s).2
  | .subst t params args, s => (TypeStore.subst t params args s).2
  | .erasure t, s => (TypeStore.erasure t s).2
  | .checkSubtype a b, s => (TypeStore.checkSubtype a b s).2
  | .registerClass info, s => (TypeStore.registerClass info s).2
  | .registerAnonymous outer info, s => (TypeStore.registerAnonymous outer info s).2
  | .registerVariable v, s => (TypeStore.registerVariable v s).2
  | .setBounds t bounds, s => s.setBounds t bounds
  | .modifyClass t f, s => s.modifyClass t f

/-- A request is about numbers that were handed out, or about no type. -/
def Valid (s : TypeStore) (r : Request) : Prop :=
  ∀ t ∈ r.mentions, s.Knows t

/-- Every valid request keeps shapes, and keeps a store canonical. One case for each kind of
request; the cases for derived types come from one walk through the functions
(`interning_substitutive`). -/
theorem Valid.leads {r : Request} (hr : r.Valid s) (hs : s.Canonical) : interning.Leads s (r.run s) := by
  unfold Valid at hr
  cases r with
  | array e d => exact (array_canonical d (hr e (by simp [mentions])) hs).1
  | apply base args =>
    have hargs : ∀ a ∈ args, s.Knows a.type := fun a ha => hr _ (by simp [mentions]; exact .inr ⟨a, ha, rfl⟩)
    exact (apply_canonical (hr base (by simp [mentions])) hargs hs).1
  | component t => exact (interning_substitutive.component t hs).1
  | stripDims t n => exact (interning_substitutive.stripDims n (hr t (by simp [mentions])) hs).1
  | subst t params args =>
    have hargs : ∀ a ∈ args, s.Knows a.type := fun a ha => hr _ (by simp [mentions]; exact .inr (.inr ⟨a, ha, rfl⟩))
    exact (interning_substitutive.subst hargs (hr t (by simp [mentions])) hs).1
  | erasure t => exact (interning_substitutive.erasureWithin _ (hr t (by simp [mentions])) hs).1
  | checkSubtype a b => exact (interning_substitutive.checkSubtype (hr a (by simp [mentions])) (hr b (by simp [mentions])) hs).1
  | registerClass info => exact hs.registerClass info
  | registerAnonymous outer info => exact hs.registerAnonymous outer info
  | registerVariable v => exact hs.registerVariable fun b hb => hr b (by simp [mentions, hb])
  | setBounds t bounds => exact hs.setBounds t fun b hb => hr b (by simp [mentions, hb])
  | modifyClass t f => exact hs.modifyClass t f

end Request

/-- Valid requests lead from one store to another. -/
def Reaches : TypeStore → TypeStore → Prop :=
  Relation.ReflTransGen fun s s' => ∃ r : Request, r.Valid s ∧ s' = r.run s

/-- Valid requests lead to a store from the predefined one. -/
def Reached (s : TypeStore) : Prop :=
  Reaches initial s

/-- Asking for the array of a known type is a run. -/
theorem Reaches.array {e : TypeId} (d : UInt32) (he : s.Knows e) : Reaches s (TypeStore.array e d s).2 :=
  .single ⟨.array e d, by simpa [Request.Valid, Request.mentions] using he, rfl⟩

/-- Every run keeps shapes, and keeps a store canonical. -/
theorem Reaches.leads (h : Reaches s s') (hs : s.Canonical) : interning.Leads s s' := by
  induction h with
  | refl => exact interning.refl s
  | tail _ h ih =>
    obtain ⟨r, hr, rfl⟩ := h
    exact interning.trans ih (hr.leads (ih.2 hs))

/-- What is reached is canonical. -/
theorem Reached.canonical (h : Reached s) : s.Canonical :=
  (Reaches.leads h initial_canonical).2 initial_canonical

/-! ## Dimensions add up

The array of a type with some dimensions is a type like any other, so it has one number; and
dimensions that are added to an array are added to its count.
-/

namespace ArrayOf

variable {e r r' a b c : TypeId} {d m n : UInt32}

/-- The array of a known type stays what it is. -/
theorem keep (h : s.ArrayOf e d r) (he : s.Knows e) (hr : s.Knows r) (kept : s.KeepsShapes s') : s'.ArrayOf e d r := by
  unfold ArrayOf
  rw [kept.shape he, kept.shape hr]
  exact h

/-- There is one array of a type with some dimensions. -/
theorem unique (h : s.ArrayOf e d r) (h' : s.ArrayOf e d r') (hs : s.Canonical) : r = r' := by
  unfold ArrayOf at h h'
  split at h
  · rename_i hd
    rw [if_pos hd] at h'
    exact h.trans h'.symm
  · rename_i hd
    rw [if_neg hd] at h'
    cases hshape : s.shape e <;> simp only [hshape] at h h'
    case bad => exact h.trans h'.symm
    all_goals exact hs.eq_of_shape (h.trans h'.symm) (by simp [h])

/-- The array of an array is the array with the dimensions of both. The sum is one of words,
so it must not wrap around. -/
theorem add (ha : s.ArrayOf e m a) (hb : s.ArrayOf a n b) (hc : s.ArrayOf e (m + n) c) (fits : m.toNat + n.toNat < UInt32.size)
    (hs : s.Canonical) : b = c := by
  by_cases hm : m = 0
  · obtain rfl : a = e := by simpa [ArrayOf, hm] using ha
    rw [hm, UInt32.zero_add] at hc
    exact hb.unique hc hs
  by_cases hn : n = 0
  · obtain rfl : b = a := by simpa [ArrayOf, hn] using hb
    rw [hn, UInt32.add_zero] at hc
    exact ha.unique hc hs
  have hsum : m + n ≠ 0 := by
    intro hzero
    have hnat := congrArg UInt32.toNat hzero
    rw [UInt32.toNat_add, Nat.mod_eq_of_lt fits] at hnat
    exact hm (UInt32.toNat_inj.mp (Nat.eq_zero_of_add_eq_zero_right hnat))
  unfold ArrayOf at ha hb hc
  rw [if_neg hm] at ha
  rw [if_neg hn] at hb
  rw [if_neg hsum] at hc
  cases hshape : s.shape e <;> simp only [hshape] at ha hc
  case bad =>
    rw [ha, hshape] at hb
    exact hb.trans (ha.symm ▸ hc.symm)
  case array e' d' =>
    rw [ha] at hb
    have hshapes : s.shape b = s.shape c := by
      rw [hb, hc, ← UInt32.add_assoc, UInt32.add_comm n m]
    exact hs.eq_of_shape hshapes (by simp [hb])
  all_goals
    rw [ha] at hb
    have hshapes : s.shape b = s.shape c := by rw [hb, hc, UInt32.add_comm]
    exact hs.eq_of_shape hshapes (by simp [hb])

end ArrayOf

/-- At some time in a run that led to a store, the array of a known type was asked for, and it
was this one. -/
def MadeArray (s : TypeStore) (e : TypeId) (d : UInt32) (r : TypeId) : Prop :=
  ∃ s₀, Reached s₀ ∧ s₀.Knows e ∧ (array e d s₀).1 = r ∧ Reaches (array e d s₀).2 s

/-- What was the array of a type still is. -/
theorem MadeArray.arrayOf {e r : TypeId} {d : UInt32} (h : s.MadeArray e d r) : s.ArrayOf e d r := by
  obtain ⟨s₀, hreached, he, rfl, hreaches⟩ := h
  obtain ⟨hl, hr, harray⟩ := array_canonical d he hreached.canonical
  obtain ⟨kept, -⟩ := hreaches.leads (hl.2 hreached.canonical)
  exact harray.keep (hl.1.knows he) hr kept

/-! ## Types that are built the same way

What has the same parts has the same number. The numbers come from tables of keys, and the
keys say all of a shape.
-/

mutual

/-- Two numbers stand for types that are built in the same way: classes and type variables are
only the same when they are one, and other types when their parts are the same. This speaks of
how types are built and not of shapes, which mention numbers. -/
inductive SameType (s : TypeStore) : TypeId → TypeId → Prop
  /-- Types without parts that are not declared: one of the primitive types, `void`, the null
  type or the bad type. -/
  | basic {t u : TypeId} (basic : (s.shape t).isBasic) (same : s.shape t = s.shape u) : SameType s t u
  /-- One class, one type variable, or no type. -/
  | nominal {t : TypeId} (declared : (s.shape t).isDeclared ∨ (s.shape t).isVariable ∨ t = .none) : SameType s t t
  /-- Arrays of the same type with as many dimensions. -/
  | array {t u e e' : TypeId} {d : UInt32} (left : s.shape t = .array e d) (right : s.shape u = .array e' d)
      (elem : SameType s e e') : SameType s t u
  /-- The same type with the same arguments. -/
  | applied {t u base base' : TypeId} {args args' : List TypeArg} (left : s.shape t = .applied base args)
      (right : s.shape u = .applied base' args') (bases : SameType s base base') (arguments : SameArgs s args args') : SameType s t u

/-- Arguments are of the same kinds and the same types. -/
inductive SameArgs (s : TypeStore) : List TypeArg → List TypeArg → Prop
  /-- No arguments. -/
  | nil : SameArgs s [] []
  /-- One argument, and the others. -/
  | cons {a b : TypeArg} {as bs : List TypeArg} (kind : a.wildcard = b.wildcard) (type : SameType s a.type b.type)
      (more : SameArgs s as bs) : SameArgs s (a :: as) (b :: bs)

end

/-- Arguments whose types are one are one. -/
theorem SameArgs.eq {as bs : List TypeArg} (h : SameArgs s as bs) (types : ∀ a ∈ as, ∀ u, SameType s a.type u → a.type = u) :
    as = bs := by
  induction as generalizing bs with
  | nil =>
    cases h
    rfl
  | cons a as ih =>
    cases h with
    | @cons _ b _ bs kind type more =>
      obtain ⟨ha, has⟩ := List.forall_mem_cons.mp types
      have hab : a = b := by
        cases a
        cases b
        exact congrArg₂ TypeArg.mk kind (ha _ type)
      rw [hab, ih more has]

/-- Types that are built in the same way are one. By induction on the numbers: the parts come
before the type, so they are one already, and then the shapes are the same, which only one
number has. -/
theorem SameType.eq {t u : TypeId} (h : SameType s t u) (hs : s.Canonical) : t = u := by
  -- By induction on the number, since the parts of a type come before it.
  generalize hn : t.index = n
  induction n using Nat.strongRecOn generalizing t u with
  | ind n ih =>
    subst hn
    cases h with
    | basic basic same =>
      refine hs.eq_of_shape same fun habsent => ?_
      rw [habsent] at basic
      cases basic
    | nominal => rfl
    | @array _ _ e e' d left right elem =>
      obtain ⟨hlt, -⟩ := hs.partsPrecede left (by simp)
      obtain rfl := ih e.index hlt elem rfl
      exact hs.eq_of_shape (left.trans right.symm) (by simp [left])
    | @applied _ _ base base' args args' left right bases arguments =>
      obtain ⟨hlt, hargs⟩ := hs.partsPrecede left (by simp)
      obtain rfl := ih base.index hlt bases rfl
      obtain rfl := arguments.eq fun a ha u hu => ih a.type.index (hargs a ha) hu rfl
      exact hs.eq_of_shape (left.trans right.symm) (by simp [left])

/-- A known type is built in the same way as itself. -/
theorem SameType.refl {t : TypeId} (ht : s.Knows t) (hs : s.Canonical) : SameType s t t := by
  generalize hn : t.index = n
  induction n using Nat.strongRecOn generalizing t with
  | ind n ih =>
    subst hn
    cases hshape : s.shape t with
    | absent => exact .nominal (.inr (.inr (hs.eq_none ht hshape)))
    | declared slot => exact .nominal (.inl (by rw [hshape]; rfl))
    | typeVar slot => exact .nominal (.inr (.inl (by rw [hshape]; rfl)))
    | array e d => exact .array hshape hshape (ih e.index (hs.partsPrecede hshape (by simp)).1 (hs.knows_elem hshape) rfl)
    | applied base args =>
      obtain ⟨hlt, hargs⟩ := hs.partsPrecede hshape (by simp)
      obtain ⟨hbase, hknown⟩ := hs.knows_applied hshape
      have arguments (as : List TypeArg) (has : ∀ a ∈ as, a ∈ args) : SameArgs s as as := by
        induction as with
        | nil => exact .nil
        | cons a as ih' =>
          obtain ⟨ha, has⟩ := List.forall_mem_cons.mp has
          exact .cons rfl (ih a.type.index (hargs a ha) (hknown a ha) rfl) (ih' has)
      exact .applied hshape hshape (ih base.index hlt hbase rfl) (arguments args fun _ => id)
    | _ => exact .basic (by rw [hshape]; rfl) rfl

/-- After any run of valid requests, no two types have one shape, no element of an array is an
array, no later request changes the shape of a number, dimensions that were added one after
another are the same as their sum, and types are one when they are built in the same way. The
two maps of the store have a number under a key exactly when the type with this number has the
key. -/
theorem interned_canonically {s : TypeStore} (h : Reached s) :
    (∀ t u, s.contains t → s.shape t = s.shape u → t = u) ∧
    (∀ t e d, s.shape t = .array e d → ¬ (s.shape e).isArray) ∧
    (∀ s', Reaches s s' → ∀ t, s.Knows t → s'.shape t = s.shape t) ∧
    (∀ e m n a b c, s.MadeArray e m a → s.MadeArray a n b → s.MadeArray e (m + n) c → m.toNat + n.toNat < UInt32.size → b = c) ∧
    (∀ t u, s.Knows t → s.Knows u → (SameType s t u ↔ t = u)) ∧
    (∀ key t, s.index.lookup key = some t ↔ (s.shape t).structureKey? = some key) ∧
    (∀ key t, s.argsIndex.lookup key = some t ↔ (s.shape t).argsKey? = some key) := by
  have hs := h.canonical
  refine ⟨fun t u ht heq => ?_, fun t e d ht => ?_, fun s' hs' t ht => ?_, fun e m n a b c ha hb hc fits => ?_, fun t u ht hu => ?_,
    fun key t => ?_, fun key t => ?_⟩
  · exact hs.eq_of_shape heq (by simpa [contains] using ht)
  · exact (hs.partsPrecede ht (by simp)).2
  · exact (hs'.leads hs).1.shape ht
  · exact ha.arrayOf.add hb.arrayOf hc.arrayOf fits hs
  · exact ⟨fun hsame => hsame.eq hs, fun heq => heq ▸ .refl ht hs⟩
  · exact hs.lookup_inStep s.index_inStep rfl fun _ _ _ => structureKey?_injective
  · exact hs.lookup_inStep s.argsIndex_inStep rfl fun _ _ _ => argsKey?_injective

/-- The array of arrays of texts with two further dimensions is the array of texts with three.
-/
theorem interned_string_arrays :
    (array (array .string 1 initial).1 2 (array .string 1 initial).2).1 =
      (array .string 3 (array (array .string 1 initial).1 2 (array .string 1 initial).2).2).1 := by
  have hstring : initial.Knows .string := by decide
  obtain ⟨hl₁, ha, -⟩ := array_canonical 1 hstring initial_canonical
  obtain ⟨hl₂, -⟩ := array_canonical 2 ha (hl₁.2 initial_canonical)
  have hstring' := hl₂.1.knows (hl₁.1.knows hstring)
  have h₁ := Reaches.array 1 hstring
  have h₂ := Reaches.array 2 ha
  have h₃ := Reaches.array 3 hstring'
  refine (interned_canonically ((h₁.trans h₂).trans h₃)).2.2.2.1 .string 1 2 (array .string 1 initial).1 _ _ ?_ ?_ ?_ (by decide)
  · exact ⟨initial, .refl, hstring, rfl, h₂.trans h₃⟩
  · exact ⟨_, h₁, ha, rfl, h₃⟩
  · exact ⟨_, h₁.trans h₂, hstring', rfl, .refl⟩

end TypeStore

end CallResolution
