import CallResolution.Proofs.Members.Growth
import CallResolution.Resolve.Generic

/-!
# Types of calls are known

The static type of a call is known to the store, however it comes about: by explicit type
arguments, by what the arguments of the call suggest, or by what the receiver supplies.

A type is known when its number is one of the store. The functions below take types apart and
make new ones, arrays and instances among them, so each statement is about the store at the
end, and says besides that the store was only extended. They stand in the order in which the
functions call one another: parameterizations, what a single argument supplies for a variable,
the search through the arguments, and the type of the call.

Main statements: `callType_works` and `thrownType_works`.
-/

namespace CallResolution

open TypeStore

variable {g : Guard} {s s' : TypeStore}

/-- What a type argument supplies is known when the argument is. -/
theorem knows_supplied {a : TypeArg} (ha : s.Knows a.type) {t : TypeId} (h : a.supplied? = some t) : s.Knows t := by
  unfold TypeArg.supplied? at h
  split at h
  · split at h
    · cases h
      exact ha
    · cases h
  · split at h
    · cases h
      exact ha
    · cases h
  · cases h

namespace TypeStore

/-- The arguments of a type are known. -/
theorem WellFormed.knows_argsOf (hs : s.WellFormed) {t : TypeId} {a : TypeArg} (ha : a ∈ s.argsOf t) :
    s.Knows a.type := by
  unfold argsOf at ha
  split at ha
  · rename_i base args h
    exact hs.knows_arg h ha
  · simp at ha

/-- The wrapper class of a known type is known. -/
theorem WellFormed.knows_box (hs : s.WellFormed) (t : TypeId) : s.Knows (s.box t) := by
  unfold box
  split
  · rename_i p _
    refine hs.knows_predefined ?_
    cases p <;> decide
  · exact hs.knows_none

/-- A known type as a reference type is known. -/
theorem WellFormed.knows_boxed (hs : s.WellFormed) {t : TypeId} (ht : s.Knows t) : s.Knows (s.boxed t) := by
  unfold boxed
  split
  · exact hs.knows_box t
  · exact ht

/-- A parameterization is known. -/
theorem parameterizationWithin_works (owner : TypeId) (depth : Nat) {t : TypeId} (ht : s.Knows t) :
    Works (growth g) (parameterizationWithin owner depth t) s fun p s' => ∀ q ∈ p, s'.Knows q := by
  induction depth generalizing s t with
  | zero => exact Works.ret (by simp)
  | succ depth ih =>
    refine Works.of_sound fun hs => Works.read ?_
    split
    · split
      · rename_i b hb
        exact ih (hs.1.denotes_firstBound hb).knows
      · exact Works.ret (by simp)
    · dsimp only
      split
      · exact Works.ret (by simp)
      · split
        · refine Works.ret fun q hq => ?_
          split at hq
          · cases hq
          · cases hq
            exact ht
        · refine Works.findSomeM? _ fun up hup u _ hl => ?_
          have hg := growth_grows hl
          have hup' := hg.knows (hs.1.knows_directSupertypes hup)
          exact (subst_works (fun a ha => hg.knows (hs.1.knows_argsOf ha)) hup').bind fun t' _ _ _ ht' => ih ht'

/-- A parameterization is known. -/
theorem parameterizationOf_works {t : TypeId} (owner : TypeId) (ht : s.Knows t) :
    Works (growth g) (parameterizationOf t owner) s fun p s' => ∀ q ∈ p, s'.Knows q :=
  parameterizationWithin_works owner _ ht

/-- What an argument supplies for a variable is known. -/
theorem matchWithin_works (var : TypeId) (depth : Nat) {formal arg : TypeId} (hformal : s.Knows formal)
    (harg : s.Knows arg) : Works (growth g) (matchWithin var depth formal arg) s fun r s' => ∀ t ∈ r, s'.Knows t := by
  induction depth generalizing s formal arg with
  | zero => exact Works.ret (by simp)
  | succ depth ih =>
    refine Works.of_sound fun hs => Works.read ?_
    split
    · rename_i base want hshape
      refine (parameterizationOf_works base harg).bind fun p s₁ hs₁ hl₁ hp => ?_
      cases p with
      | none => exact Works.ret (by simp)
      | some p =>
        refine Works.read (Works.findSomeM? _ fun wg hwg s₂ _ hl₂ => ?_)
        obtain ⟨w, a⟩ := wg
        obtain ⟨hw, ha⟩ := List.of_mem_zip hwg
        have hw' := (growth_grows hl₂).knows ((growth_grows hl₁).knows (hs.1.knows_arg hshape hw))
        have ha' := (growth_grows hl₂).knows (hs₁.1.knows_argsOf ha)
        dsimp only
        split
        · exact Works.ret (by simp)
        · split
          · exact Works.ret fun t ht => knows_supplied ha' ht
          · refine Works.read ?_
            split
            · exact ih hw' ha'
            · exact Works.ret (by simp)
    · exact Works.ret (by simp)

/-- What an argument supplies for a variable is known. -/
theorem matchArg_works (var : TypeId) {formal arg : TypeId} (hformal : s.Knows formal) (harg : s.Knows arg) :
    Works (growth g) (matchArg var formal arg) s fun r s' => ∀ t ∈ r, s'.Knows t :=
  matchWithin_works var _ hformal harg

/-- What an argument supplies directly is known. -/
theorem matchDirect_works (var formal : TypeId) {arg : TypeId} (harg : s.Knows arg) :
    Works (growth g) (matchDirect var formal arg) s fun r s' => ∀ t ∈ r, s'.Knows t := by
  refine Works.of_sound fun hs => Works.read ?_
  split
  · exact Works.ret (by simp)
  · refine (stripDims_works _ harg).bind fun r s₁ hs₁ hl₁ hr => ?_
    cases r with
    | none => exact Works.ret (by simp)
    | some t =>
      have ht := hr t rfl
      dsimp only
      split
      · exact Works.ret (by simp)
      · refine Works.ret fun t' ht' => ?_
        cases ht'
        unfold boxed
        split
        · exact (growth_grows hl₁).knows (hs.1.knows_box t)
        · exact ht

/-- What a receiver supplies is known. -/
theorem ownerArgument_works {var : TypeId} (hvar : s.Knows var) (index : Nat) (p : TypeId) :
    Works (growth g) (ownerArgument var index p) s fun r s' => ∀ t ∈ r, s'.Knows t := by
  refine Works.of_sound fun hs => Works.read ?_
  split
  · exact Works.ret (by simp)
  · rename_i a ha
    have hk := hs.1.knows_argsOf (List.mem_of_getElem? ha)
    split
    · exact (erasure_works hvar).bind fun t _ _ _ ht => Works.ret (by simpa using ht)
    · rename_i t ht
      have ht' := knows_supplied hk ht
      split
      · exact (erasure_works ht').bind fun t _ _ _ ht => Works.ret (by simpa using ht)
      · exact Works.ret (by simpa using ht')

/-- The element type of a known type is known. -/
theorem WellFormed.knows_baseElem (hs : s.WellFormed) {t : TypeId} (ht : s.Knows t) : s.Knows (s.baseElem t) := by
  unfold baseElem
  split
  · rename_i e d h
    exact hs.knows_elem h
  · exact ht

/-- A result in the view of a receiver is known. -/
theorem substOwner_works {ret owner recv : TypeId} (hret : s.Knows ret) (hrecv : s.Knows recv) (qualified : Bool) :
    Works (growth g) (substOwner ret owner recv qualified) s fun t s' => s'.Knows t := by
  refine Works.of_sound fun hs => Works.read ?_
  dsimp only
  split
  · exact Works.ret hret
  · rename_i v _
    split
    · exact Works.ret hret
    · refine (parameterizationOf_works owner hrecv).bind fun p s₁ _ hl₁ hp => ?_
      have hret' := (growth_grows hl₁).knows hret
      cases p with
      | none =>
        dsimp only
        split
        · exact erasure_works hret'
        · exact Works.ret hret'
      | some p =>
        have hvar := (growth_grows hl₁).knows (hs.1.knows_baseElem hret)
        refine (ownerArgument_works hvar v.index p).bind fun r s₂ _ hl₂ hr => ?_
        cases r with
        | none => exact erasure_works ((growth_grows hl₂).knows hret')
        | some t => exact (array_works _ (hr t rfl)).mono fun _ _ _ _ h => h.1

end TypeStore

/-! ## Inference

The evidence for a variable is collected from parameters and arguments in step. Class literals
are asked first, then creations, and then the types of the arguments, as parameters of the
variable itself and as parameters that mention it.
-/

/-- The types that an expression mentions are known: the one that it has, and the one that it
denotes if it is a class literal, a creation or the name of a type. -/
def KnowsExpr (s : TypeStore) (e : Expr) : Prop :=
  s.Knows e.type ∧ s.Knows e.form.denoted

theorem KnowsExpr.grows {e : Expr} (he : KnowsExpr s e) (h : s.Grows s') : KnowsExpr s' e :=
  ⟨h.knows he.1, h.knows he.2⟩

/-- The types of a piece of evidence are known. -/
structure Evidence.Known (s : TypeStore) (e : Evidence) : Prop where
  /-- The type of the parameter. -/
  formal : s.Knows e.formal
  /-- The argument. -/
  expr : KnowsExpr s e.expr
  /-- The type of the argument. -/
  type : s.Knows e.type

theorem Evidence.Known.grows {e : Evidence} (he : e.Known s) (h : s.Grows s') : e.Known s' :=
  ⟨h.knows he.formal, he.expr.grows h, h.knows he.type⟩

/-- The parameter of an argument is known. -/
theorem Formals.Known.formalAt? {f : Formals} (hf : f.Known s) {k argc : Nat} {formal : TypeId}
    (h : f.formalAt? k argc = some formal) : s.Knows formal := by
  unfold Formals.formalAt? at h
  dsimp only at h
  split at h
  · cases h
    exact hf.element
  · exact hf.params _ (List.mem_of_getElem? h)

/-- Evidence from known arguments is known. -/
theorem Formals.evidence_known {f : Formals} (hf : f.Known s) {var : TypeId} {exprs : List Expr} {args : List TypeId}
    (hexprs : ∀ e ∈ exprs, KnowsExpr s e) (hargs : ∀ t ∈ args, s.Knows t) {e : Evidence}
    (he : e ∈ f.evidence s var exprs args) : e.Known s := by
  obtain ⟨⟨⟨expr, type⟩, k⟩, hmem, h⟩ := List.mem_filterMap.mp he
  obtain ⟨hexpr, htype⟩ := List.of_mem_zip (List.fst_mem_of_mem_zipIdx hmem)
  dsimp only at h
  cases hformal : f.formalAt? k args.length with
  | none => simp [hformal] at h
  | some formal =>
    rw [hformal] at h
    simp only [Option.ite_none_right_eq_some, Option.some.injEq] at h
    obtain ⟨-, rfl⟩ := h
    exact ⟨hf.formalAt? hformal, hexprs _ hexpr, hargs _ htype⟩

/-- What a class literal supplies is known. -/
theorem Evidence.ofClassLiteral_works (var : TypeId) {e : Evidence} (he : e.Known s) :
    Works (growth g) (e.ofClassLiteral var) s fun r s' => ∀ t ∈ r, s'.Knows t := by
  refine Works.of_sound fun hs => ?_
  have hden := he.expr.2
  unfold ofClassLiteral
  split
  · rename_i t hform
    rw [hform] at hden
    split
    · refine Works.read ?_
      refine (apply_works ?_ fun a ha => ?_).bind fun cls s₁ _ hl₁ hcls => ?_
      · rw [hs.1.shape_class]
        rfl
      · rw [List.mem_singleton.mp ha]
        exact hs.1.knows_boxed hden
      · exact matchArg_works var ((growth_grows hl₁).knows he.formal) hcls.1.knows
    · exact Works.ret (by simp)
  · exact Works.ret (by simp)

/-- What the class of a creation supplies is known. -/
theorem Evidence.ofCreation_works (var : TypeId) {e : Evidence} (he : e.Known s) :
    Works (growth g) (e.ofCreation var) s fun r s' => ∀ t ∈ r, s'.Knows t := by
  have hden := he.expr.2
  unfold ofCreation
  split
  · rename_i t hform
    rw [hform] at hden
    split
    · exact matchArg_works var he.formal hden
    · exact Works.ret (by simp)
  · exact Works.ret (by simp)

namespace Method

variable {m : Method}

/-- What the arguments of a call suggest is known. -/
theorem infer_works (hm : m.Known s) (var : TypeId) {exprs : List Expr} {args : List TypeId}
    (hexprs : ∀ e ∈ exprs, KnowsExpr s e) (hargs : ∀ t ∈ args, s.Knows t) :
    Works (growth g) (m.infer var exprs args) s fun r s' => ∀ t ∈ r, s'.Knows t := by
  unfold infer
  refine (declaredFormals_works hm.params).bind fun f s₁ _ hl₁ hf => Works.read ?_
  have hev : ∀ e ∈ f.evidence s₁ var exprs args, e.Known s₁ := fun e he =>
    f.evidence_known hf.1 (fun e he => (hexprs e he).grows (growth_grows hl₁))
      (fun t ht => (growth_grows hl₁).knows (hargs t ht)) he
  dsimp only
  generalize f.evidence s₁ var exprs args = ev at hev
  -- each search runs in a later store, in which the evidence is still known
  refine (Works.findSomeM? ev fun e he _ _ hl =>
    Evidence.ofClassLiteral_works var ((hev e he).grows (growth_grows hl))).bind
    fun r s₂ _ hl₂ hr => ?_
  cases r with
  | some t => exact Works.ret hr
  | none =>
    have hev₂ : ∀ e ∈ ev, e.Known s₂ := fun e he => (hev e he).grows (growth_grows hl₂)
    refine (Works.findSomeM? ev fun e he _ _ hl =>
      Evidence.ofCreation_works var ((hev₂ e he).grows (growth_grows hl))).bind
      fun r s₃ _ hl₃ hr => ?_
    cases r with
    | some t => exact Works.ret hr
    | none =>
      have hev₃ : ∀ e ∈ ev, e.Known s₃ := fun e he => (hev₂ e he).grows (growth_grows hl₃)
      refine (Works.findSomeM? ev fun e he _ _ hl =>
        matchDirect_works var e.formal (hev₃ e he |>.grows (growth_grows hl)).type).bind fun r s₄ _ hl₄ hr => ?_
      cases r with
      | some t => exact Works.ret hr
      | none =>
        refine Works.findSomeM? ev fun e he _ _ hl => ?_
        have he' := ((hev₃ e he).grows (growth_grows hl₄)).grows (growth_grows hl)
        exact matchArg_works var he'.formal he'.type

/-- What stands for a type variable is known. -/
theorem inferOrErase_works (hm : m.Known s) {exprs : List Expr} {args : List TypeId} {var : TypeId}
    (hvar : s.Knows var) (hexprs : ∀ e ∈ exprs, KnowsExpr s e) (hargs : ∀ t ∈ args, s.Knows t) :
    Works (growth g) (m.inferOrErase exprs args var) s fun t s' => s'.Knows t := by
  refine (infer_works hm var hexprs hargs).bind fun r s₁ _ hl₁ hr => ?_
  cases r with
  | some t => exact Works.ret (hr t rfl)
  | none => exact erasure_works ((growth_grows hl₁).knows hvar)

end Method

/-- The types that a call site mentions are known, apart from those it calls on. Inference
looks at expressions as well as at their types, so both are asked for. -/
structure KnowsArgs (s : TypeStore) (site : Site) : Prop where
  /-- The explicit type arguments. -/
  typeArgs : ∀ t ∈ site.typeArgs, s.Knows t
  /-- The arguments. -/
  args : ∀ e ∈ site.args, KnowsExpr s e

theorem KnowsArgs.grows {site : Site} (hsite : KnowsArgs s site) (h : s.Grows s') : KnowsArgs s' site :=
  ⟨fun t ht => h.knows (hsite.typeArgs t ht), fun e he => (hsite.args e he).grows h⟩

namespace Method

variable {m : Method}

/-- The instantiated result type is known. -/
theorem instantiatedReturn_works (hm : m.Known s) {site : Site} (hsite : KnowsArgs s site) {args : List TypeId}
    (hargs : ∀ t ∈ args, s.Knows t) :
    Works (growth g) (m.instantiatedReturn site args) s fun t s' => s'.Knows t := by
  refine Works.read ?_
  split
  · exact Works.ret hm.returns
  · split
    · exact subst_works (fun a ha => knows_exact hsite.typeArgs ha) hm.returns
    · refine (Works.mapM (P := fun t u => u.Knows t) m.typeParams (fun _ _ _ hl => (growth_grows hl).knows)
        fun v hv u _ hl => ?_).bind fun actual s₁ _ hl₁ hactual => ?_
      · have hg := growth_grows hl
        exact inferOrErase_works (hm.grows hg) (hg.knows (hm.typeParams v hv)) (hsite.grows hg).args
          fun t ht => hg.knows (hargs t ht)
      · exact subst_works (fun a ha => knows_exact hactual.2 ha) ((growth_grows hl₁).knows hm.returns)

/-- The class type of a receiver is known. -/
theorem classTypeOf_works {recv : TypeId} (hrecv : s.Knows recv) :
    Works (growth g) (classTypeOf recv) s fun t s' => s'.Knows t := by
  refine (erasure_works hrecv).bind fun e s₁ hs₁ _ he => ?_
  refine (apply_works ?_ fun a ha => ?_).mono fun _ _ _ _ h => h.1.knows
  · rw [hs₁.1.shape_class]
    rfl
  · rw [List.mem_singleton.mp ha]
    dsimp only
    split
    · exact he
    · exact hs₁.1.knows_predefined (by decide)

/-- The static type of a call is known. It is the array for the copy of an array, a class type
for the class of an object, and else the result of the method with its type variables
replaced. -/
theorem callType_works (hm : m.Known s) (isArrayClone : Bool) {recv : TypeId} (hrecv : s.Knows recv) (qualified : Bool)
    {site : Site} (hsite : KnowsArgs s site) {args : List TypeId} (hargs : ∀ t ∈ args, s.Knows t) :
    Works (growth g) (m.callType isArrayClone recv qualified site args) s fun t s' => s'.Knows t := by
  refine Works.of_sound fun hs => ?_
  have ordinary : Works (growth g) (if m.isGetClass then classTypeOf recv
      else do
        let ret ← m.instantiatedReturn site args
        substOwner ret m.owner recv qualified) s fun t s' => s'.Knows t := by
    split
    · exact classTypeOf_works hrecv
    · exact (instantiatedReturn_works hm hsite hargs).bind fun ret s₁ _ hl₁ hret =>
        substOwner_works hret ((growth_grows hl₁).knows hrecv) qualified
  unfold callType
  split
  · exact Works.ret (hs.1.knows_predefined (t := .void) (by decide))
  · refine Works.read ?_
    split
    · exact Works.ret hrecv
    · exact ordinary

/-- An exception that a call raises is known. A thrown type variable of the method is replaced
by what is inferred for it, and one of the class by its erasure. -/
theorem thrownType_works (hm : m.Known s) {site : Site} (hsite : KnowsArgs s site) {args : List TypeId}
    (hargs : ∀ t ∈ args, s.Knows t) {ex : TypeId} (hex : s.Knows ex) :
    Works (growth g) (m.thrownType site args ex) s fun t s' => s'.Knows t := by
  refine Works.read ?_
  split
  · exact Works.ret hex
  · split
    · exact inferOrErase_works hm hex hsite.args hargs
    · exact erasure_works hex

end Method

end CallResolution
