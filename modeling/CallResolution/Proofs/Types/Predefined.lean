import CallResolution.Proofs.Types.Growth

/-!
# The predefined store

What a store has to satisfy can be checked on a given store. The store before anything is
declared passes the check.
-/

namespace CallResolution.TypeStore

instance (s : TypeStore) (t : TypeId) : Decidable (s.Knows t) :=
  inferInstanceAs (Decidable (t.index < s.shapes.size))

instance (s : TypeStore) (t : TypeId) : Decidable (s.Denotes t) :=
  inferInstanceAs (Decidable (s.shape t ≠ .absent ∧ s.shape t ≠ .null ∧ s.shape t ≠ .bad))

instance (s : TypeStore) (t : TypeId) : Decidable (s.Inheritable t) :=
  inferInstanceAs (Decidable (s.Knows t ∧ ¬ (s.shape t).isVariable ∧ ¬ (s.shape t).isArray))

instance (s : TypeStore) (info : ClassInfo) : Decidable (s.KnowsClass info) :=
  decidable_of_iff (s.Knows info.outer ∧ s.Inheritable info.super ∧ (∀ t ∈ info.interfaces, s.Inheritable t) ∧
      (∀ t ∈ info.typeParams, (s.shape t).isVariable) ∧ info.typeParams.Nodup)
    ⟨fun h => ⟨h.1, h.2.1, h.2.2.1, h.2.2.2.1, h.2.2.2.2⟩, fun h => ⟨h.outer, h.super, h.interfaces, h.typeParams, h.distinct⟩⟩

instance (s : TypeStore) (i : Nat) : (shape : TypeShape) → Decidable (s.Refers i shape)
  | .absent => inferInstanceAs (Decidable (i = 0))
  | .declared slot => inferInstanceAs (Decidable (slot < s.classes.size))
  | .typeVar slot => inferInstanceAs (Decidable (slot < s.typeVars.size))
  | .array e _ => inferInstanceAs (Decidable (e.index < i ∧ ¬ (s.shape e).isArray ∧ ¬ s.isBad e))
  | .applied base args =>
    inferInstanceAs (Decidable (base.index < i ∧ (s.shape base).isDeclared ∧ ∀ a ∈ args, a.type.index < i))
  | .bad | .null | .void | .primitive _ => inferInstanceAs (Decidable True)

/-- The predefined types are in order. -/
theorem initial_wellFormed : initial.WellFormed := by
  have shapes : ∀ i : Fin predefinedShapes.length, initial.Refers i.val (predefinedShapes.get i) := by decide
  have classes : ∀ info ∈ predefinedClasses, initial.KnowsClass info := by decide
  have typeVars : ∀ v ∈ predefinedVariables, ∀ b ∈ v.bounds, initial.Denotes b := by decide
  have names : ∀ p ∈ predefinedNames, (initial.shape p.2).isDeclared := by decide
  have distinct : predefinedShapes.Nodup := by decide
  refine ⟨fun i shape h => ?_, fun i info h => ?_, fun i shape h => ?_, distinct, fun i info h => ?_, fun i v h => ?_, names⟩
  · simpa [initial] using h
  · simpa [initial] using h
  · rw [initial, List.getElem?_toArray] at h
    obtain ⟨hi, rfl⟩ := List.getElem?_eq_some_iff.mp h
    exact shapes ⟨i, hi⟩
  · rw [initial, List.getElem?_toArray] at h
    exact classes info (List.mem_of_getElem? h)
  · rw [initial, List.getElem?_toArray] at h
    exact typeVars v (List.mem_of_getElem? h)

/-- The predefined classes lie in no class. -/
theorem initial_nested : initial.Nested := by
  have outer : ∀ info ∈ predefinedClasses, info.outer.index = 0 := by decide
  intro i slot h
  have hslot : slot < initial.classes.size := initial_wellFormed.shapes i _ h
  refine ⟨initial.classes[slot], Array.getElem?_eq_getElem hslot, ?_⟩
  rw [outer _ (by simp [initial])]
  -- The number 0 stands for no type, so that a class has another one.
  cases i with
  | zero => cases h
  | succ i => exact Nat.succ_pos i

/-- What the predefined classes inherit from fits their kinds. -/
theorem initial_kinded : initial.Kinded := by
  have interfaces : ∀ info ∈ predefinedClasses, ∀ t ∈ info.interfaces, (initial.classInfo? t).any (·.flags.isInterface) := by
    decide
  have super : ∀ info ∈ predefinedClasses, info.flags.isInterface → info.super = .none := by decide
  intro i info h
  rw [initial, List.getElem?_toArray] at h
  exact ⟨interfaces info (List.mem_of_getElem? h), super info (List.mem_of_getElem? h)⟩

end CallResolution.TypeStore
