import CallResolution.Members.Scope
import CallResolution.Proofs.Types.Hierarchy
import Mathlib.Data.List.Find

/-!
# Names stay

The classes around a class are followed as often as there are types, and a store that grows
has more of them. Because a class is registered after the class around it (`Nested`), no class
has more classes around it than its own number says, so that nothing depends on how far they
are followed: the qualified name of a class, the name of a type and the classes around a class
are the same in every store that retains a given one.

Main statements: `Retains.qualifiedName`, `Retains.name`, `Retains.enclosing` and
`Step.qualifiedName`.
-/

namespace CallResolution.TypeStore

variable {s s' : TypeStore}

/-! ## Classes around a class

Whatever is said by following the classes around a class ends at one that lies in none, after
fewer steps than the class has predecessors.
-/

/-- A class is declared, and lies in an earlier one. -/
theorem Nested.classInfo (hn : s.Nested) {t : TypeId} (ht : (s.shape t).isDeclared) :
    ∃ info, s.classInfo? t = some info ∧ info.outer.index < t.index := by
  cases hshape : s.shape t with
  | declared slot =>
    obtain ⟨info, hinfo, hlt⟩ := hn t.index slot (getElem?_of_shape hshape (by simp))
    exact ⟨info, by simp [classInfo?, classSlot?, hshape, hinfo], hlt⟩
  | _ => simp [hshape, TypeShape.isDeclared] at ht

/-- What lies around the class behind a type comes before the type. So following the classes
around a class is a descent, and a bound that is the number of types is enough for it. -/
theorem Nested.outer_lt (hn : s.Nested) (hs : s.WellFormed) {t : TypeId} {info : ClassInfo} (h : s.classInfo? t = some info) :
    info.outer.index < t.index := by
  cases hshape : s.shape t with
  | declared slot =>
    obtain ⟨info', hinfo, hlt⟩ := hn.classInfo (t := t) (by simp [hshape, TypeShape.isDeclared])
    cases h.symm.trans hinfo
    exact hlt
  | applied base args =>
    obtain ⟨info', hinfo, hlt⟩ := hn.classInfo (hs.base hshape)
    have hbase : s.classInfo? t = s.classInfo? base := by
      unfold classInfo? classSlot?
      rw [hshape]
      cases hb : s.shape base <;> simp_all [classInfo?, classSlot?]
    cases (h.symm.trans hbase).trans hinfo
    exact Nat.lt_trans hlt (hs.refers hshape (by simp)).1
  | _ => simp [classInfo?, classSlot?, hshape] at h

/-- The classes around a known class are known. -/
theorem WellFormed.knows_enclosingChain (hs : s.WellFormed) (fuel : Nat) {t c : TypeId}
    (ht : s.Knows t) (hc : c ∈ s.enclosingChain fuel t) : s.Knows c := by
  induction fuel generalizing t with
  | zero => simp [enclosingChain] at hc
  | succ fuel ih =>
    unfold enclosingChain at hc
    split at hc
    · rcases List.mem_cons.mp hc with rfl | hc
      · exact ht
      · split at hc
        · rename_i info hinfo
          exact ih (hs.knows_classInfo hinfo).outer hc
        · cases hc
    · cases hc

namespace Retains

/-- The classes around a known class stay, as far as they are followed at all. By induction on
the number of classes that may be followed, which differs between the two stores. -/
theorem enclosingChain (h : Retains s s') (hs : s.WellFormed) (hn : s.Nested) {fuel fuel' : Nat} {t : TypeId} (ht : s.Knows t)
    (hfuel : t.index < fuel) (hfuel' : t.index < fuel') : s'.enclosingChain fuel' t = s.enclosingChain fuel t := by
  induction fuel generalizing t fuel' with
  | zero => omega
  | succ fuel ih =>
    obtain ⟨fuel', rfl⟩ : ∃ n, fuel' = n + 1 := ⟨fuel' - 1, by omega⟩
    unfold TypeStore.enclosingChain
    rw [h.classInfo hs ht]
    cases hinfo : s.classInfo? t with
    | none => rfl
    | some info =>
      have hlt := hn.outer_lt hs hinfo
      simp only [ih (hs.knows_classInfo hinfo).outer (by omega) (by omega : info.outer.index < fuel')]

/-- The classes around a known class stay. -/
theorem enclosing (h : Retains s s') (hs : s.WellFormed) (hn : s.Nested) {t : TypeId} (ht : s.Knows t) :
    s'.enclosing t = s.enclosing t :=
  h.enclosingChain hs hn ht (Nat.lt_succ_of_lt ht) (Nat.lt_succ_of_lt (h.knows ht))

/-- The type variable of a known class with a name stays. -/
theorem classVariable (h : Retains s s') (hs : s.WellFormed) (name : String) {t : TypeId} (ht : s.Knows t) :
    s'.classVariable? name t = s.classVariable? name t := by
  unfold classVariable?
  rw [h.classInfo hs ht]
  cases hinfo : s.classInfo? t with
  | none => rfl
  | some info =>
    refine List.find?_congr fun v hv => ?_
    rw [h.typeVariable hs (knows_of_isVariable ((hs.knows_classInfo hinfo).typeParams v hv))]

end Retains

/-! ## Headers and bounds are in no name

While headers are set, the stores are not extensions of each other. Names are compared across
such steps by leaving out of a declaration what no name mentions.
-/

/-- A class declaration without what it inherits from and without type variables. -/
def headerless (info : ClassInfo) : ClassInfo :=
  { info with super := .none, interfaces := [], typeParams := [] }

/-- A store with the types of another one, in which classes and type variables are named and
lie as they do there. Headers and bounds may differ: they are set after names were given, and
are part of none. -/
structure SameNames (s s' : TypeStore) : Prop where
  /-- The types are the same. -/
  shapes : s'.shapes = s.shapes
  /-- Type variables have their names. -/
  vars : ∀ t, (s'.typeVariable? t).map (·.name) = (s.typeVariable? t).map (·.name)
  /-- Classes have their names, and lie in the same classes. -/
  infos : ∀ t, (s'.classInfo? t).map headerless = (s.classInfo? t).map headerless

namespace SameNames

/-- The shapes are the same. -/
theorem shape (h : SameNames s s') (t : TypeId) : s'.shape t = s.shape t := by
  unfold TypeStore.shape
  rw [h.shapes]

/-- The name of a type is the same. -/
theorem nameWith (h : SameNames s s') (q : TypeId → String) (depth : Nat) (t : TypeId) :
    s'.nameWith q depth t = s.nameWith q depth t := by
  induction depth generalizing t with
  | zero =>
    unfold TypeStore.nameWith contains
    rw [h.shape]
  | succ depth ih =>
    have hself : s'.nameWith q depth = s.nameWith q depth := funext ih
    unfold TypeStore.nameWith
    rw [h.shape, hself]
    cases s.shape t with
    | typeVar slot =>
      have hvar := h.vars t
      cases hs : s.typeVariable? t <;> cases hs' : s'.typeVariable? t <;> simp_all
    | _ => rfl

/-- The qualified name of the class behind a type is the same. -/
theorem qualifiedWithin (h : SameNames s s') (fuel : Nat) (t : TypeId) :
    s'.qualifiedWithin fuel t = s.qualifiedWithin fuel t := by
  induction fuel generalizing t with
  | zero => rfl
  | succ fuel ih =>
    have hself : s'.qualifiedWithin fuel = s.qualifiedWithin fuel := funext ih
    have hinfo := h.infos t
    unfold TypeStore.qualifiedWithin
    rw [hself]
    cases hs : s.classInfo? t with
    | none =>
      obtain hs' : s'.classInfo? t = none := by simpa [hs] using hinfo
      simp only [hs', h.nameWith]
    | some info =>
      obtain ⟨info', hs', hsame⟩ : ∃ info', s'.classInfo? t = some info' ∧ headerless info' = headerless info := by
        simpa [hs] using hinfo
      have hjoin (around : String) : joinName info' around = joinName info around := by
        show joinName (headerless info') around = joinName (headerless info) around
        rw [hsame]
      have houter : info'.outer = info.outer := by
        show (headerless info').outer = (headerless info).outer
        rw [hsame]
      simp only [hs', hjoin, houter]

/-- The qualified name of a class is the same. -/
theorem qualifiedName (h : SameNames s s') (t : TypeId) : s'.qualifiedName t = s.qualifiedName t := by
  unfold TypeStore.qualifiedName
  rw [h.shapes, h.qualifiedWithin]

end SameNames

/-- A class of which something else is declared is the same class. -/
theorem classSlot?_modifyClass (t u : TypeId) (f : ClassInfo → ClassInfo) :
    (s.modifyClass t f).classSlot? u = s.classSlot? u := by
  unfold modifyClass
  split <;> rfl

/-- What is declared of the classes of a store in which one of them is changed. -/
theorem classInfo?_modifyClass (t u : TypeId) (f : ClassInfo → ClassInfo) : (s.modifyClass t f).classInfo? u =
    if (s.classSlot? t).isSome ∧ s.classSlot? u = s.classSlot? t then (s.classInfo? u).map f else s.classInfo? u := by
  unfold classInfo?
  rw [classSlot?_modifyClass]
  unfold modifyClass
  cases ht : s.classSlot? t with
  | none => simp
  | some slot =>
    cases hu : s.classSlot? u with
    | none => simp
    | some slot' =>
      show (s.classes.modify slot f)[slot']? = _
      rw [Array.getElem?_modify]
      simp only [Option.isSome_some, true_and, Option.some.injEq, eq_comm]
      rfl

/-- A class with another header has the same name. -/
theorem sameNames_modifyClass (s : TypeStore) (t : TypeId) {f : ClassInfo → ClassInfo} (hf : ∀ info, headerless (f info) = headerless info) :
    s.SameNames (s.modifyClass t f) where
  shapes := by
    unfold modifyClass
    split <;> rfl
  vars u := by
    unfold modifyClass
    split <;> rfl
  infos u := by
    rw [classInfo?_modifyClass]
    split
    · cases s.classInfo? u with
      | none => rfl
      | some info => exact congrArg some (hf info)
    · rfl

/-! ## Names of types

The name of a type is put together from the names of its parts, down to a depth; that of a
class from the names of the classes around it.
-/

namespace Retains

/-- The name of a known type stays when the names of the classes in it do. -/
theorem nameWith (h : Retains s s') (hs : s.WellFormed) {q q' : TypeId → String} (depth : Nat) {t : TypeId} (ht : s.Knows t)
    (hq : ∀ c, c.index ≤ t.index → (s.shape c).isDeclared → q' c = q c) : s'.nameWith q' depth t = s.nameWith q depth t := by
  induction depth generalizing t with
  | zero =>
    unfold TypeStore.nameWith contains
    rw [h.shape ht]
  | succ depth ih =>
    have inner {u : TypeId} (hu : u.index < t.index) : s'.nameWith q' depth u = s.nameWith q depth u :=
      ih (knows_of_lt ht hu) fun c hc => hq c (Nat.le_trans hc (Nat.le_of_lt hu))
    unfold TypeStore.nameWith
    rw [h.shape ht]
    cases hshape : s.shape t with
    | declared slot => exact hq t (Nat.le_refl _) (by simp [hshape, TypeShape.isDeclared])
    | array e d => simp only [inner (hs.refers hshape (by simp)).1]
    | typeVar slot => simp only [h.typeVariable hs ht]
    | applied base args =>
      obtain ⟨hbase, -, hargs⟩ := hs.refers hshape (by simp)
      have htexts : args.map (argText (s'.nameWith q' depth)) = args.map (argText (s.nameWith q depth)) := by
        refine List.map_congr_left fun a ha => ?_
        unfold argText
        rw [inner (hargs a ha)]
      simp only [inner hbase, htexts]
    | _ => rfl

/-- The qualified name of the class behind a known type stays, as far as the classes around it
are followed at all. -/
theorem qualifiedWithin (h : Retains s s') (hs : s.WellFormed) (hn : s.Nested) {fuel fuel' : Nat} {t : TypeId} (ht : s.Knows t)
    (hfuel : t.index < fuel) (hfuel' : t.index < fuel') : s'.qualifiedWithin fuel' t = s.qualifiedWithin fuel t := by
  induction fuel generalizing t fuel' with
  | zero => omega
  | succ fuel ih =>
    obtain ⟨fuel', rfl⟩ : ∃ n, fuel' = n + 1 := ⟨fuel' - 1, by omega⟩
    unfold TypeStore.qualifiedWithin
    rw [h.classInfo hs ht]
    cases hinfo : s.classInfo? t with
    | some info =>
      have hlt := hn.outer_lt hs hinfo
      simp only [ih (hs.knows_classInfo hinfo).outer (by omega) (by omega : info.outer.index < fuel')]
    | none =>
      refine h.nameWith hs _ ht fun c hc hdecl => ?_
      -- A type without a class is no class itself, so the classes in its name come before it.
      have hne : c.index ≠ t.index := by
        intro heq
        obtain ⟨info, hc, -⟩ := hn.classInfo hdecl
        have : c = t := by
          cases c
          cases t
          cases heq
          rfl
        rw [this, hinfo] at hc
        cases hc
      exact ih (knows_of_isDeclared hdecl) (by omega) (by omega)

/-- The qualified name of a known class stays. -/
theorem qualifiedName (h : Retains s s') (hs : s.WellFormed) (hn : s.Nested) {t : TypeId} (ht : s.Knows t) :
    s'.qualifiedName t = s.qualifiedName t :=
  h.qualifiedWithin hs hn ht (Nat.lt_succ_of_lt ht) (Nat.lt_succ_of_lt (h.knows ht))

/-- The name of a known type stays. -/
theorem name (h : Retains s s') (hs : s.WellFormed) (hn : s.Nested) {t : TypeId} (ht : s.Knows t) : s'.name t = s.name t :=
  h.nameWith hs _ ht fun _ _ hdecl => h.qualifiedName hs hn (knows_of_isDeclared hdecl)

end Retains

section

variable {g : Guard} {t : TypeId} {info : ClassInfo}

/-! ## What a step keeps

One case for each kind of step, so that names can be carried along the loading of a document,
too.
-/

/-- What a step does to what is there: nothing, or it sets bounds or a header. -/
theorem Step.retains (h : Step g s s') (hs : s.WellFormed) : Retains s s' ∨
    (∃ t slot bs, s.shape t = .typeVar slot ∧ s' = s.setBounds t bs) ∨
    ∃ t f, (∃ slot info, g.heads slot info (f info)) ∧ (∀ info, headerless (f info) = headerless info) ∧ s' = s.modifyClass t f := by
  have hg := h.grows
  have pushed {α : Type} {xs : Array α} {x y : α} {i : Nat} (h : xs[i]? = some y) : (xs.push x)[i]? = some y := by
    rw [Array.getElem?_push, if_neg (Nat.ne_of_lt (Array.getElem?_eq_some_iff.mp h).1), h]
  cases h with
  | derived => exact .inl ⟨hg, fun _ _ h => h, fun _ _ h => h⟩
  | fresh =>
    rw [registerVariable_eq] at hg ⊢
    exact .inl ⟨hg, fun _ _ h => h, fun _ _ h => pushed h⟩
  | declared _ _ _ _ free =>
    rw [registerClass_eq free] at hg ⊢
    exact .inl ⟨hg, fun _ _ h => pushed h, fun _ _ h => h⟩
  | @anonymous outer info =>
    obtain ⟨name, anonymous, h⟩ := registerAnonymous_eq outer info s
    rw [h] at hg ⊢
    exact .inl ⟨hg, fun _ _ h => pushed h, fun _ _ h => h⟩
  | bounds shape => exact .inr (.inl ⟨_, _, _, shape, rfl⟩)
  | @header t slot f place mark frame may known fits =>
    refine .inr (.inr ⟨t, f, ⟨slot, _, may _ (Array.getElem?_eq_getElem (hs.classSlot_lt place))⟩, fun info => ?_, rfl⟩)
    obtain ⟨super, interfaces, typeParams, hframe⟩ := frame info
    rw [hframe]
    rfl

/-- Setting bounds changes no name. -/
theorem sameNames_setBounds {slot : Nat} (shape : s.shape t = .typeVar slot) (bs : List TypeId) : SameNames s (s.setBounds t bs) := by
  simp only [setBounds, shape]
  refine ⟨rfl, fun u => ?_, fun u => rfl⟩
  have hshape : { s with typeVars := s.typeVars.modify slot ({ · with bounds := bs }) }.shape u = s.shape u := rfl
  unfold typeVariable?
  rw [hshape]
  cases s.shape u with
  | typeVar i =>
    simp only [Array.getElem?_modify]
    split
    · cases s.typeVars[i]? <;> rfl
    · rfl
  | _ => rfl

/-- The outermost class around a type is the same. -/
theorem SameNames.outermost (h : SameNames s s') (t : TypeId) : s'.outermost t = s.outermost t := by
  have within (fuel : Nat) (u : TypeId) : s'.outermostWithin fuel u = s.outermostWithin fuel u := by
    induction fuel generalizing u with
    | zero => rfl
    | succ fuel ih =>
      have hinfo := h.infos u
      unfold outermostWithin
      cases hs : s.classInfo? u with
      | none =>
        obtain hs' : s'.classInfo? u = none := by simpa [hs] using hinfo
        simp only [hs']
      | some info =>
        obtain ⟨info', hs', hsame⟩ : ∃ info', s'.classInfo? u = some info' ∧ headerless info' = headerless info := by
          simpa [hs] using hinfo
        have houter : info'.outer = info.outer := by
          show (headerless info').outer = (headerless info).outer
          rw [hsame]
        simp only [hs', houter, ih]
  unfold TypeStore.outermost classOf
  rw [h.shape, within]

/-- Known types keep their qualified names. A step adds something behind what is known, or
sets a header or bounds, and neither is seen by a name. -/
theorem Step.qualifiedName (h : Step g s s') (hs : s.WellFormed) (hn : s.Nested) (ht : s.Knows t) :
    s'.qualifiedName t = s.qualifiedName t := by
  rcases h.retains hs with h | ⟨u, slot, bs, shape, rfl⟩ | ⟨u, f, -, hframe, rfl⟩
  · exact h.qualifiedName hs hn ht
  · exact (sameNames_setBounds shape bs).qualifiedName t
  · exact (sameNames_modifyClass s u hframe).qualifiedName t

/-- A name is joined from that of the class around. -/
theorem Nested.qualifiedName (hn : s.Nested) (hs : s.WellFormed) (h : s.classInfo? t = some info) :
    s.qualifiedName t = joinName info (s.qualifiedName info.outer) := by
  have hknown := knows_of_classInfo (Option.isSome_of_eq_some h)
  have hlt : info.outer.index < s.shapes.size := Nat.lt_trans (hn.outer_lt hs h) hknown
  show s.qualifiedWithin (s.shapes.size + 1) t = _
  rw [qualifiedWithin, h]
  dsimp only
  rw [(Extends.refl s).qualifiedWithin hs hn (hs.knows_classInfo h).outer (Nat.lt_succ_of_lt hlt) hlt]
  rfl

end

end CallResolution.TypeStore
