import CallResolution.Proofs.Types.Hierarchy

/-!
# Acyclic hierarchies

A class that is added while headers are left alone inherits from classes that were there
before it, so no cycle arises. Among the predefined classes there is none, because each of
them inherits from earlier ones. And cutting classes back to the root class, which inherits
from nothing, leaves no cycle when a class of every cycle is cut.

Main statements: `Extends.acyclic`, `WellFormed.not_inherits_predefined` and
`not_transGen_of_cut`.
-/

namespace CallResolution.TypeStore

variable {s s' : TypeStore}

/-- No class inherits from itself. The searches of the program end in any case; this is what
makes tables of members come about without an interruption. -/
def Acyclic (s : TypeStore) : Prop :=
  ∀ t, ¬ s.Inherits t t

/-! ## Added classes

Placeholders and anonymous classes are the only classes that are added once headers are set.
Each of them has a superclass that was there, and nothing that was there inherits from it.
-/

/-- While headers are left alone, every class declares supertypes that were there before it.
-/
theorem Step.knowsClass (h : Step .running s s') (hs : s.WellFormed) {i : Nat} {info : ClassInfo}
    (hi : s'.classes[i]? = some info) : s.KnowsClass info := by
  cases h with
  | derived => exact hs.classes i info hi
  | fresh => exact hs.classes i info hi
  | declared _ known _ _ free =>
    rw [registerClass_eq free] at hi
    rcases getElem?_push_cases hi with hi | ⟨-, rfl⟩
    · exact hs.classes i info hi
    · exact known
  | @anonymous outer info' _ around known _ =>
    obtain ⟨name, anonymous, h⟩ := registerAnonymous_eq outer info' s
    rw [h] at hi
    rcases getElem?_push_cases hi with hi | ⟨-, rfl⟩
    · exact hs.classes i info hi
    · exact known.anonymous (knows_of_isDeclared around)
  | bounds shape =>
    simp only [setBounds, shape] at hi
    exact hs.classes i info hi
  | header place mark frame may => exact (may _ (Array.getElem?_eq_getElem (hs.classSlot_lt place))).elim

/-- While headers are left alone, known classes keep theirs. -/
theorem Step.keeps_parents (h : Step .running s s') (hs : s.WellFormed) {c : TypeId} (hc : s.Knows c) :
    s'.parents c = s.parents c := by
  have within {h : Step hs.guard s s'} : s'.parents c = s.parents c := (hs.extends h.leads).parents hs hc
  cases h with
  | derived made refers new => exact within (h := .derived made refers new)
  | fresh unbounded => exact within (h := .fresh unbounded)
  | declared may known around fits free => exact within (h := .declared may known around fits free)
  | anonymous may around known fits => exact within (h := .anonymous may around known fits)
  | bounds shape =>
    -- bounds may also be set of earlier variables, on which no header depends
    simp only [setBounds, shape]
    rfl
  | header place mark frame may => exact (may _ (Array.getElem?_eq_getElem (hs.classSlot_lt place))).elim

/-- While headers are left alone, classes inherit from what was there before. -/
theorem Step.knows_parent (h : Step .running s s') (hs : s.WellFormed) {c p : TypeId} (hp : s'.Parent c p) : s.Knows p := by
  obtain ⟨hp, -⟩ := List.mem_filter.mp hp
  obtain ⟨t, ht, rfl⟩ := List.mem_map.mp hp
  have hknows : s.Knows t := by
    unfold directSupertypes at ht
    split at ht
    · rename_i info hinfo
      obtain ⟨slot, -, hslot⟩ := Option.bind_eq_some_iff.mp hinfo
      have hknown := h.knowsClass hs hslot
      rcases List.mem_append.mp ht with ht | ht
      · rw [List.mem_singleton.mp (List.mem_ite_nil_right.mp ht).2]
        exact hknown.super.1
      · exact (hknown.interfaces t ht).1
    · cases ht
  rw [h.grows.classOf hknows]
  exact hs.knows_classOf hknows

/-- While headers are left alone, no cycle arises: a class on a cycle is the parent of another
one, so it was there before, and so was all that it inherits from. -/
theorem Step.acyclic (h : Step .running s s') (hs : s.WellFormed) (hacyclic : s.Acyclic) : s'.Acyclic := by
  intro t hcycle
  have before {a b : TypeId} (ha : s.Knows a) (hab : s'.Inherits a b) : s.Inherits a b ∧ s.Knows b := by
    have old {c d : TypeId} (hc : s.Knows c) (hcd : s'.Parent c d) : s.Parent c d := by
      unfold Parent at hcd ⊢
      rwa [h.keeps_parents hs hc] at hcd
    induction hab with
    | single hp => exact ⟨.single (old ha hp), h.knows_parent hs hp⟩
    | tail _ hp ih => exact ⟨ih.1.tail (old ih.2 hp), h.knows_parent hs hp⟩
  have hknown : s.Knows t := by
    cases hcycle with
    | single hp => exact h.knows_parent hs hp
    | tail _ hp => exact h.knows_parent hs hp
  exact hacyclic t (before hknown hcycle).1

/-- What extends a store without cycles has none. -/
theorem Extends.acyclic (h : s.Extends s') (hs : s.WellFormed) (hacyclic : s.Acyclic) : s'.Acyclic := by
  have along : s'.WellFormed ∧ s'.Acyclic := by
    have hsteps := h.steps
    clear h
    induction hsteps with
    | refl => exact ⟨hs, hacyclic⟩
    | tail _ hstep ih => exact ⟨ih.1.step hstep, hstep.acyclic ih.1 ih.2⟩
  exact along.2

/-! ## Predefined classes

What is predefined has no cycles.
-/

/-- Every predefined class declares supertypes that are predefined, each of an earlier class.
-/
theorem predefined_descends : ∀ p ∈ predefinedClasses.zipIdx, ∀ t ∈ p.1.super :: p.1.interfaces, t.isSome →
    t.index < predefinedShapes.length ∧ ∃ slot < p.2, initial.shape (initial.classOf t) = .declared slot := by
  decide +kernel

/-- The predefined types are what they are before anything is declared. -/
theorem WellFormed.shape_initial (hs : s.WellFormed) {t : TypeId} (ht : t.index < predefinedShapes.length) :
    s.shape t = initial.shape t := by
  have hknown := hs.predefined t.index _ (List.getElem?_eq_getElem ht)
  unfold shape
  simp only [Array.getD_eq_getD_getElem?, hknown, initial, List.getElem?_toArray, List.getElem?_eq_getElem ht]

/-- What a predefined class inherits from directly is an earlier predefined class. The headers
are a fixed list, so this is checked once; that no later header changes them is a part of
being well formed. -/
theorem WellFormed.parent_predefined (hs : s.WellFormed) {c p : TypeId} {slot : Nat} (hshape : s.shape c = .declared slot)
    (hslot : slot < predefinedClasses.length) (hp : s.Parent c p) : ∃ earlier < slot, s.shape p = .declared earlier := by
  obtain ⟨hp, hsome⟩ := List.mem_filter.mp hp
  obtain ⟨t, ht, rfl⟩ := List.mem_map.mp hp
  have hinfo := hs.classInfo_predefined hshape (List.getElem?_eq_getElem hslot)
  have hlisted : t ∈ predefinedClasses[slot].super :: predefinedClasses[slot].interfaces := by
    unfold directSupertypes at ht
    rw [hinfo] at ht
    rcases List.mem_append.mp ht with ht | ht
    · rw [List.mem_singleton.mp (List.mem_ite_nil_right.mp ht).2]
      exact List.mem_cons_self
    · exact List.mem_cons_of_mem _ ht
  have hne : t.isSome := by
    by_contra hnone
    obtain rfl : t = .none := by simpa [TypeId.isSome] using hnone
    exact absurd hsome (by simp [classOf, shape, TypeId.isSome])
  obtain ⟨hindex, earlier, hlt, hdeclared⟩ := predefined_descends (predefinedClasses[slot], slot)
    (List.mem_zipIdx_iff_getElem?.mpr (List.getElem?_eq_getElem hslot)) t hlisted hne
  have hclass : s.classOf t = initial.classOf t := by
    unfold classOf
    rw [hs.shape_initial hindex]
  have hknown : initial.Knows (initial.classOf t) := knows_of_shape (by simp [hdeclared])
  exact ⟨earlier, hlt, by rw [hclass, hs.shape_initial hknown, hdeclared]⟩

/-- No predefined class inherits from itself. -/
theorem WellFormed.not_inherits_predefined (hs : s.WellFormed) {c : TypeId} {slot : Nat}
    (hshape : s.shape c = .declared slot) (hslot : slot < predefinedClasses.length) : ¬ s.Inherits c c := by
  have descends {d : TypeId} (h : s.Inherits c d) : ∃ earlier < slot, s.shape d = .declared earlier := by
    induction h with
    | single hp => exact hs.parent_predefined hshape hslot hp
    | tail _ hp ih =>
      obtain ⟨i, hi, hdeclared⟩ := ih
      obtain ⟨j, hj, hdeclared'⟩ := hs.parent_predefined hdeclared (Nat.lt_trans hi hslot) hp
      exact ⟨j, Nat.lt_trans hj hi, hdeclared'⟩
  intro hcycle
  obtain ⟨earlier, hlt, hdeclared⟩ := descends hcycle
  rw [hshape, TypeShape.declared.injEq] at hdeclared
  omega

/-! ## Cutting

A document may declare classes that inherit from themselves. They are reported and cut back to
the root class, and this is why the hierarchy that is left has no cycle.
-/

/-- When something of every cycle is cut down to a root that has nothing above it, no cycle is
left. A cycle in what is left would be one before, so it has a member that was cut; but from
there only the root can be reached. -/
theorem not_transGen_of_cut {α : Type} {above above' : α → α → Prop} {cut : α → Prop} {root : α}
    (cycles : ∀ x, Relation.TransGen above x x → cut x) (rooted : ∀ y, ¬ above' root y)
    (cuts : ∀ x y, above' x y → cut x ∧ y = root ∨ above x y ∧ ¬ cut x) (x : α) : ¬ Relation.TransGen above' x x := by
  -- what goes on after a step was not cut, since it would go on from the root
  have uncut {x y z : α} (hxy : above' x y) (hyz : above' y z) : above x y ∧ ¬ cut x := by
    rcases cuts x y hxy with ⟨-, rfl⟩ | h
    · exact absurd hyz (rooted z)
    · exact h
  have lift {x y z : α} (hxy : Relation.TransGen above' x y) (hyz : above' y z) : Relation.TransGen above x y := by
    induction hxy generalizing z with
    | single h => exact .single (uncut h hyz).1
    | tail _ h ih => exact (ih h).tail (uncut h hyz).1
  intro hcycle
  obtain ⟨y, hxy, hyx⟩ := Relation.TransGen.head'_iff.mp hcycle
  have hcut := cycles x (lift hcycle hxy)
  cases hyx using Relation.ReflTransGen.head_induction_on with
  | refl => exact (uncut hxy hxy).2 hcut
  | head hyz _ => exact (uncut hxy hyz).2 hcut

end CallResolution.TypeStore
