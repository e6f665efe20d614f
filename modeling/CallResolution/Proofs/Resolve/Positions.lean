import CallResolution.Proofs.Resolve.Views
import CallResolution.Proofs.Types.Positions

/-!
# Results by position

A result that is a type variable of the declaring class is replaced by the argument of the
receiver's view that stands at the position of the variable. Where positions are the places at
which the class lists its type variables, this is what instantiation does, which replaces type
variables by the arguments at the same places. An argument that is a type variable itself is
left out: instantiation keeps it, and a result is erased.

Main statement: `substOwner_eq_subst`.
-/

namespace CallResolution.TypeStore

variable {g : Guard} {s s₁ : TypeStore}

/-! ## Erasures

An erasure is never a type variable: that of a variable is the erasure of its first bound, or
the root class.
-/

/-- The array of a type that is no type variable is none, either. -/
theorem array_isVariable {e : TypeId} (d : UInt32) (he : s.Knows e) (hplain : ¬ (s.shape e).isVariable) :
    Works (growth g) (array e d) s fun t s' => ¬ (s'.shape t).isVariable := by
  refine Works.of_sound fun hs => ?_
  have made {e' : TypeId} {d' : UInt32} (refers : s.Refers s.shapes.size (.array e' d')) :
      Works (growth g) (intern (.array e' d')) s fun t s' => ¬ (s'.shape t).isVariable :=
    (intern_works (.inl rfl) refers).mono fun t s' _ _ h => by simp [h, TypeShape.isVariable]
  unfold array
  split
  · exact Works.ret hplain
  · refine Works.read ?_
    split
    · exact Works.ret hplain
    · rename_i h
      exact made ⟨hs.1.knows_elem h, hs.1.elem h⟩
    · rename_i hbad harray
      refine made ⟨he, ?_, by simpa [isBad] using hbad⟩
      cases h : s.shape e <;> simp_all [TypeShape.isArray]

/-- What an array element is erased to without following bounds is no type variable. -/
theorem WellFormed.isVariable_erasedElem (hs : s.WellFormed) (t : TypeId) : ¬ (s.shape (s.erasedElem t)).isVariable := by
  unfold erasedElem
  split
  · rename_i base args h
    have hbase := hs.base h
    cases hshape : s.shape base <;> simp_all [TypeShape.isDeclared, TypeShape.isVariable]
  · simp [hs.shape_object, TypeShape.isVariable]
  · cases hshape : s.shape t <;> simp_all [TypeShape.isVariable]

/-- Nothing is erased to a type variable. -/
theorem erasureWithin_isVariable (fuel : Nat) {t : TypeId} (ht : s.Knows t) :
    Works (growth g) (erasureWithin fuel t) s fun e s' => ¬ (s'.shape e).isVariable := by
  have declared {s : TypeStore} {t : TypeId} (h : (s.shape t).isDeclared) : ¬ (s.shape t).isVariable := by
    cases hshape : s.shape t <;> simp_all [TypeShape.isDeclared, TypeShape.isVariable]
  induction fuel generalizing s t with
  | zero =>
    refine Works.of_sound fun hs => ?_
    unfold erasureWithin
    refine Works.read ?_
    split
    · rename_i base args h
      exact Works.ret (declared (hs.1.base h))
    · rename_i e d h
      simp only [pure_bind]
      split
      · exact Works.ret (by simp [h, TypeShape.isVariable])
      · exact array_isVariable d (hs.1.knows_erasedElem (hs.1.knows_elem h)) (hs.1.isVariable_erasedElem e)
    · exact Works.ret (by simp [hs.1.shape_object, TypeShape.isVariable])
    · refine Works.ret fun hvariable => ?_
      cases hshape : s.shape t <;> simp_all [TypeShape.isVariable]
  | succ fuel ih =>
    refine Works.of_sound fun hs => ?_
    unfold erasureWithin
    refine Works.read ?_
    split
    · rename_i base args h
      exact Works.ret (declared (hs.1.base h))
    · rename_i e d h
      have he := hs.1.knows_elem h
      refine ((ih he).and (erasureWithin_works fuel he)).bind fun e' s' _ hl he' => ?_
      beta_reduce
      split
      · refine Works.ret ?_
        rw [(growth_grows hl).shape ht, h]
        simp [TypeShape.isVariable]
      · exact array_isVariable d he'.2.1 he'.1
    · simp only
      split
      · rename_i b hb
        exact ih (hs.1.denotes_firstBound hb).knows
      · exact Works.ret (by simp [hs.1.shape_object, TypeShape.isVariable])
    · refine Works.ret fun hvariable => ?_
      cases hshape : s.shape t <;> simp_all [TypeShape.isVariable]

/-- The erasure of a type variable is another type. -/
theorem erasure_ne (hs : s.WellFormed) {v : TypeId} (hv : (s.shape v).isVariable) : (erasure v s).1 ≠ v := by
  have hknown := knows_of_isVariable hv
  obtain ⟨-, hext, hplain⟩ := hs.run fun g => erasureWithin_isVariable (g := g) boundLimit hknown
  intro heq
  refine hplain ?_
  rw [show (erasureWithin boundLimit v s).1 = v from heq, hext.shape hknown]
  exact hv

/-! ## Results

The two ways to replace a variable, compared for the variable itself and for arrays of it.
-/

/-- What a type variable stands for under an argument is what the argument supplies, or the
erasure of the variable. -/
theorem argUpper_eq (a : TypeArg) (v : TypeId) : argUpper a v = a.supplied?.elim (erasure v) pure := by
  unfold argUpper TypeArg.supplied?
  cases a.wildcard <;> simp only [] <;> try rfl
  all_goals split <;> rfl

/-- What has a view of a class is known. -/
theorem knows_of_view {t owner p : TypeId} (h : parameterizationOf t owner s = (some p, s₁)) : s.Knows t := by
  refine knows_of_shape fun hshape => ?_
  unfold parameterizationOf supertypeDepth parameterizationWithin at h
  rw [get_bind_apply, hshape] at h
  have hclass : s.classOf t = .none := by rw [classOf, hshape]
  simp only [hclass] at h
  cases h

/-- A result that is a type variable of the declaring class, or an array of it, is replaced by
the argument at the place of the variable, when its position is that place. -/
theorem substOwner_eq_subst (hs : s.WellFormed) {owner recv ret v p : TypeId} {i : Nat} {params : List TypeId}
    (hposition : s.RegisteredAt owner i v) (hdistinct : params.Nodup) (hi : params[i]? = some v) (hret : s.baseElem ret = v)
    (hview : parameterizationOf recv owner s = (some p, s₁)) {a : TypeArg} (ha : (s₁.argsOf p)[i]? = some a)
    (hplain : ∀ t ∈ a.supplied?, ¬ (s₁.shape t).isVariable) (qualified : Bool) :
    substOwner ret owner recv qualified s = subst ret params (s₁.argsOf p) s₁ := by
  obtain ⟨x, hx, hmethod, howner, rfl⟩ := hposition
  have hv : (s.shape v).isVariable := by
    unfold typeVariable? at hx
    split at hx
    · rename_i hshape
      rw [hshape]
      rfl
    · cases hx
  obtain ⟨hs₁, hext, -⟩ := hs.run fun g => parameterizationOf_works (g := g) owner (knows_of_view hview)
  rw [hview] at hs₁ hext
  dsimp only at hs₁ hext
  have hv₁ : (s₁.shape v).isVariable := hext.shape (knows_of_isVariable hv) ▸ hv
  -- both sides ask what the variable stands for under the argument
  have hne : (argUpper a v s₁).1 ≠ v := by
    rw [argUpper_eq]
    cases hsupplied : a.supplied? with
    | none => exact erasure_ne hs₁ hv₁
    | some t => exact fun heq : t = v => hplain t hsupplied (heq ▸ hv₁)
  have hargument : ownerArgument v x.index p s₁ = (some (argUpper a v s₁).1, (argUpper a v s₁).2) := by
    unfold ownerArgument
    rw [get_bind_apply, ha, argUpper_eq]
    dsimp only
    cases hsupplied : a.supplied? with
    | none => rfl
    | some t =>
      dsimp only
      rw [if_neg (hplain t hsupplied)]
      rfl
  have hvariable (depth : Nat) : substWithin (params.zip (s₁.argsOf p)) (depth + 1) v s₁ = argUpper a v s₁ := by
    have hmem : (v, a) ∈ params.zip (s₁.argsOf p) := List.mem_of_getElem? (List.getElem?_zip_eq_some.mpr ⟨hi, ha⟩)
    rw [substWithin_variable depth hv₁, lookup_zip_of_mem hdistinct hmem]
  have hleft : substOwner ret owner recv qualified s = array (argUpper a v s₁).1 (s.dimsOf ret) (argUpper a v s₁).2 := by
    unfold substOwner
    rw [get_bind_apply, hret, hx]
    simp only [hmethod, howner, ne_eq, not_true_eq_false, decide_false, Bool.or_self, Bool.false_eq_true, if_false]
    rw [bind_of_eq hview]
    dsimp only
    rw [bind_of_eq hargument]
  have hright : subst ret params (s₁.argsOf p) = substWithin (params.zip (s₁.argsOf p)) termDepth ret := by
    have hparams : params ≠ [] := fun hnil => by simp [hnil] at hi
    have hargs : s₁.argsOf p ≠ [] := fun hnil => by simp [hnil] at ha
    unfold subst
    simp [hparams, hargs]
  rw [hleft, hright]
  clear hleft hright hargument
  generalize argUpper a v s₁ = upper at hne hvariable ⊢
  cases hshape : s.shape ret with
  | array e d =>
    obtain rfl : e = v := by simpa [baseElem, hshape] using hret
    have hdims : s.dimsOf ret = d := by simp [dimsOf, hshape]
    have hshape₁ : s₁.shape ret = .array e d := (hext.shape (knows_of_shape (by simp [hshape]))).trans hshape
    rw [hdims]
    have helem : substWithin (params.zip (s₁.argsOf p)) 32 e s₁ = (upper.1, upper.2) := hvariable 31
    unfold termDepth substWithin
    rw [get_bind_apply, hshape₁]
    dsimp only
    rw [bind_of_eq helem, if_neg hne]
  | _ =>
    obtain rfl : ret = v := by simpa [baseElem, hshape] using hret
    have hdims : s.dimsOf ret = 0 := by simp [dimsOf, hshape]
    rw [hdims, show termDepth = 32 + 1 from rfl, hvariable]
    simp [array]
    rfl

end CallResolution.TypeStore
