import CallResolution.Proofs.Types.Making

/-!
# Positions of type variables

A type variable is registered with its class and a position, and neither changes afterwards. A
class lists its type variables, and the list may change only as a guard allows. So it is
enough to look at the place where a type variable is registered to know whether its position
is the place at which its class lists it.

Main statements: `growth_origin` (where a class declaration comes from) and
`RegisteredAt.leads`.
-/

namespace CallResolution.TypeStore

variable {g : Guard} {s s' : TypeStore}

/-- What extends a well-formed store is well formed. -/
theorem Extends.wellFormed (h : s.Extends s') (hs : s.WellFormed) : s'.WellFormed :=
  ((growth .running).sound h.steps ⟨hs, hs.guard.predefined, Nat.zero_le _⟩).1

/-! ## Type variables

What is registered with a type variable, and that it stays.
-/

/-- A type variable is registered for a class, with a position. -/
def RegisteredAt (s : TypeStore) (cls : TypeId) (i : Nat) (v : TypeId) : Prop :=
  ∃ x, s.typeVariable? v = some x ∧ x.method = 0 ∧ x.owner = cls ∧ x.index = i

/-- A type variable is registered as it was asked for, and classes are left alone. -/
theorem registerVariable_places {x : TypeVariable} (unbounded : x.bounds = []) :
    Works (growth g) (registerVariable x) s fun v s' =>
      v = ⟨s.shapes.size⟩ ∧ s'.typeVariable? v = some x ∧ s'.classes = s.classes := by
  intro hs
  refine ⟨Step.leads (.fresh unbounded), rfl, ?_, rfl⟩
  rw [registerVariable_eq, typeVariable?, shape_push hs.1.pos rfl]
  simp

/-- A type variable keeps all but its bounds. Bounds are set after the registration, because
they may mention the type variables beside it. -/
theorem Step.typeVar (h : Step g s s') {i : Nat} {x : TypeVariable} (hi : s.typeVars[i]? = some x) :
    ∃ bounds, s'.typeVars[i]? = some { x with bounds } := by
  have hlt : i < s.typeVars.size := (Array.getElem?_eq_some_iff.mp hi).1
  cases h with
  | derived => exact ⟨_, hi⟩
  | fresh =>
    refine ⟨x.bounds, ?_⟩
    simp only [registerVariable_eq, Array.getElem?_push, if_neg (Nat.ne_of_lt hlt), hi]
  | declared _ _ _ _ free =>
    rw [registerClass_eq free]
    exact ⟨_, hi⟩
  | @anonymous outer info =>
    obtain ⟨name, anonymous, h⟩ := registerAnonymous_eq outer info s
    rw [h]
    exact ⟨_, hi⟩
  | @bounds t slot bs shape =>
    simp only [setBounds, shape, Array.getElem?_modify, hi]
    split
    · exact ⟨bs, rfl⟩
    · exact ⟨x.bounds, rfl⟩
  | header place =>
    simp only [modifyClass, place]
    exact ⟨_, hi⟩

/-- A registered type variable keeps its class and its position. -/
theorem RegisteredAt.leads {cls v : TypeId} {i : Nat} (hv : s.RegisteredAt cls i v) (h : (growth g).Leads s s') :
    s'.RegisteredAt cls i v := by
  induction h with
  | refl => exact hv
  | tail _ hstep ih =>
    obtain ⟨x, hx, hmethod, howner, hindex⟩ := ih
    unfold typeVariable? at hx
    split at hx
    · rename_i slot hshape
      obtain ⟨bounds, hx'⟩ := hstep.typeVar hx
      refine ⟨{ x with bounds }, ?_, hmethod, howner, hindex⟩
      rw [typeVariable?, hstep.grows.shape (knows_of_shape (by simp [hshape])), hshape]
      exact hx'
    · cases hx

/-! ## Class declarations

What has become of a class declaration after any number of steps, as far as the guard of these
steps tells.
-/

/-- Where no anonymous classes are made, a class declaration comes from one that was there
before, or that was allowed. By induction on the steps: a header is changed by one of them as
the guard says, and the changes are composed. -/
theorem growth_origin (embodies : ¬ g.embodies) (h : (growth g).Leads s s') {i : Nat} {info' : ClassInfo}
    (hi : s'.classes[i]? = some info') : ∃ info, (s.classes[i]? = some info ∨ s.classes[i]? = none ∧ g.declares info) ∧
      Relation.ReflTransGen (g.heads i) info info' := by
  induction h generalizing info' with
  | refl => exact ⟨info', .inl hi, .refl⟩
  | @tail m _ hlead hstep ih =>
    cases hstep with
    | derived => exact ih hi
    | fresh => exact ih hi
    | declared may _ _ _ free =>
      rw [registerClass_eq free] at hi
      rcases getElem?_push_cases hi with hi | ⟨rfl, rfl⟩
      · exact ih hi
      · exact ⟨_, .inr ⟨Array.getElem?_eq_none (growth_grows hlead).classes, may⟩, .refl⟩
    | anonymous may => exact absurd may embodies
    | bounds shape =>
      simp only [setBounds, shape] at hi
      exact ih hi
    | header place _ _ may =>
      simp only [modifyClass, place] at hi
      rcases getElem?_modify_cases hi with hi | ⟨rfl, info, hinfo, rfl⟩
      · exact ih hi
      · obtain ⟨first, hfirst, hheads⟩ := ih hinfo
        exact ⟨first, hfirst, hheads.tail (may info hinfo)⟩

/-- Where no anonymous classes are made, a class declaration changes as is allowed. -/
theorem growth_info (embodies : ¬ g.embodies) (h : (growth g).Leads s s') {i : Nat} {info : ClassInfo}
    (hi : s.classes[i]? = some info) : ∃ info', s'.classes[i]? = some info' ∧ Relation.ReflTransGen (g.heads i) info info' := by
  have hlt : i < s'.classes.size := Nat.lt_of_lt_of_le (Array.getElem?_eq_some_iff.mp hi).1 (growth_grows h).classes
  refine ⟨_, Array.getElem?_eq_getElem hlt, ?_⟩
  obtain ⟨first, hfirst, hheads⟩ := growth_origin embodies h (Array.getElem?_eq_getElem hlt)
  rcases hfirst with hfirst | ⟨hnone, -⟩
  · rw [hi, Option.some.injEq] at hfirst
    exact hfirst ▸ hheads
  · rw [hi] at hnone
    cases hnone

/-- Where nothing may become of a class declaration, it stays. -/
theorem growth_infos (embodies : ¬ g.embodies) (h : (growth g).Leads s s') {i : Nat} (fixed : ∀ info info', ¬ g.heads i info info')
    {info : ClassInfo} (hi : s.classes[i]? = some info) : s'.classes[i]? = some info := by
  obtain ⟨info', hi', hheads⟩ := growth_info embodies h hi
  cases hheads with
  | refl => exact hi'
  | tail _ hhead => exact absurd hhead (fixed _ _)

/-- Where type variables are left alone, a class lists the same ones. -/
theorem growth_typeParams (embodies : ¬ g.embodies) (h : (growth g).Leads s s') {i : Nat}
    (same : ∀ info info', g.heads i info info' → info'.typeParams = info.typeParams) {info : ClassInfo}
    (hi : s.classes[i]? = some info) : ∃ info', s'.classes[i]? = some info' ∧ info'.typeParams = info.typeParams := by
  obtain ⟨info', hi', hheads⟩ := growth_info embodies h hi
  refine ⟨info', hi', ?_⟩
  clear hi'
  induction hheads with
  | refl => rfl
  | tail _ hhead ih => exact (same _ _ hhead).trans ih

end CallResolution.TypeStore
