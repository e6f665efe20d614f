import CallResolution.Proofs.Beside
import CallResolution.Proofs.Resolve.Views
import CallResolution.Proofs.Types.Erasure

/-!
# What arguments suggest

What stands for a type variable of a method is read off the arguments whose parameters mention
it. Most calls need one of the ways to read it only: a parameter that is the variable, or an
array of it, has no type arguments to look into, and so says the same of every argument of one
type.

Main statements: `infer_of_plain` and `Yields.callType`.
-/

namespace CallResolution

open TypeStore

variable {s s' : TypeStore} {v S : TypeId}

namespace TypeStore

/-- The shape of a type variable. -/
theorem shape_of_isVariable {t : TypeId} (h : (s.shape t).isVariable) : ∃ slot, s.shape t = .typeVar slot := by
  cases hshape : s.shape t <;> simp_all [TypeShape.isVariable]

/-- A type is mentioned by itself. -/
theorem mentions_self (s : TypeStore) (t : TypeId) : s.mentions t t := by
  simp [mentions, termDepth, mentionsWithin]

/-- The elements of an array are mentioned by it. -/
theorem mentions_elem {t e : TypeId} {d : UInt32} (h : s.shape t = .array e d) : s.mentions t e := by
  unfold mentions termDepth mentionsWithin
  rw [h]
  simp [mentionsWithin]

/-- A type without type arguments supplies nothing from inside. -/
theorem matchArg_of_not_applied {formal : TypeId} (h : ∀ base args, s.shape formal ≠ .applied base args) (arg : TypeId) :
    matchArg v formal arg s = (none, s) := by
  unfold matchArg matchWithin
  rw [get_bind_apply]
  cases hshape : s.shape formal with
  | applied base args => exact absurd hshape (h base args)
  | _ => rfl

/-- A reference type is what a parameter of the type variable itself says. -/
theorem matchDirect_self (hv : (s.shape v).isVariable) (hS : s.isReference S) : matchDirect v v S s = (some S, s) := by
  obtain ⟨slot, hslot⟩ := shape_of_isVariable hv
  have helem : s.baseElem v = v := by simp [baseElem, hslot]
  have hnull : s.isNull S = false := Bool.eq_false_iff.mpr fun hnull => not_isReference_of_isNull hnull hS
  have hbad : s.isBad S = false := Bool.eq_false_iff.mpr (not_isBad_of_isReference hS)
  have hboxed : s.boxed S = S := by simp [boxed, isPrimitive_of_isReference hS]
  unfold matchDirect
  rw [get_bind_apply]
  simp [helem, dimsOf, hslot, stripDims, hnull, hbad, hboxed]
  rfl

/-- An array of the type variable says nothing of an argument that is no array. -/
theorem matchDirect_array {p : TypeId} {d : UInt32} (hp : s.shape p = .array v d) (hd : d ≠ 0) (hS : ¬ (s.shape S).isArray) :
    matchDirect v p S s = (none, s) := by
  have helem : s.baseElem p = v := by simp [baseElem, hp]
  have hdims : s.dimsOf p = d := by simp [dimsOf, hp]
  have hstrip : stripDims S d s = (none, s) := by
    unfold stripDims
    rw [if_neg hd, get_bind_apply]
    cases hshape : s.shape S with
    | array e k => simp [hshape, TypeShape.isArray] at hS
    | _ => rfl
  unfold matchDirect
  rw [get_bind_apply, helem, hdims, if_neg (not_not_intro rfl), bind_of_eq hstrip]
  rfl

/-- A type variable without bounds is erased to the root class. -/
theorem erasure_of_unbounded (hv : (s.shape v).isVariable) (h : (s.typeVariable? v).elim [] (·.bounds) = []) :
    erasure v s = (.object, s) := by
  obtain ⟨slot, hslot⟩ := shape_of_isVariable hv
  unfold erasure boundLimit erasureWithin
  rw [get_bind_apply, hslot, h]
  rfl

/-- A search in a list of which all elements say the same. -/
theorem findSomeM?_of_forall {γ α : Type} {f : γ → TypeM (Option α)} {l : List γ} (hne : l ≠ []) {r : Option α}
    (h : ∀ c ∈ l, f c s = (r, s)) : l.findSomeM? f s = (r, s) := by
  induction l with
  | nil => exact absurd rfl hne
  | cons c l ih =>
    rw [Settles.findSomeM?_cons, bind_of_eq (h c (by simp))]
    cases r with
    | some a => rfl
    | none =>
      by_cases hl : l = []
      · subst hl
        rfl
      · exact ih hl fun c hc => h c (by simp [hc])

end TypeStore

/-! ## Results of the declaring class

After inference a result is looked at once more, for type variables of the class that declares
the method. What is inferred is left alone by this unless it is such a variable itself.
-/

namespace TypeStore

variable {t owner recv : TypeId}

/-- The type, or that of the elements of the array, is a type variable of a class. Such a
result is replaced by what the receiver supplies, wherever it came from. -/
def HasVariableOf (s : TypeStore) (owner t : TypeId) : Prop :=
  ∃ v, s.typeVariable? (s.baseElem t) = some v ∧ v.method = 0 ∧ v.owner = owner

/-- Whether a known type is one of a variable of a class does not change. -/
theorem Extends.hasVariableOf {s' : TypeStore} (h : s.Extends s') (hs : s.WellFormed) (ht : s.Knows t) :
    s'.HasVariableOf owner t ↔ s.HasVariableOf owner t := by
  have helem : s'.baseElem t = s.baseElem t := by simp only [baseElem, h.shape ht]
  unfold HasVariableOf
  rw [helem, h.typeVariable hs (hs.knows_baseElem ht)]

/-- A result without a variable of the declaring class is left alone. -/
theorem substOwner_of_not_hasVariableOf (h : ¬ s.HasVariableOf owner t) (recv : TypeId) (qualified : Bool) :
    substOwner t owner recv qualified s = (t, s) := by
  unfold substOwner
  rw [get_bind_apply]
  cases hv : s.typeVariable? (s.baseElem t) with
  | none => rfl
  | some v =>
    have hforeign : v.method ≠ 0 ∨ v.owner ≠ owner := by
      by_contra hown
      simp only [not_or, not_not] at hown
      exact h ⟨v, hv, hown⟩
    simp [hforeign]
    rfl

/-- A class itself is no parameterization of it. -/
theorem parameterizationOf_self (h : (s.shape t).isDeclared) : parameterizationOf t t s = (none, s) := by
  obtain ⟨slot, hshape⟩ : ∃ slot, s.shape t = .declared slot := by
    cases hshape : s.shape t <;> simp_all [TypeShape.isDeclared]
  have hsome : t.isSome := by
    refine bne_iff_ne.mpr fun hnone => ?_
    simp [shape, hnone] at hshape
  unfold parameterizationOf supertypeDepth parameterizationWithin
  rw [get_bind_apply]
  simp [hshape, hsome, classOf, TypeShape.isDeclared]
  rfl

/-- In a call by name alone, a result is left alone when the class that is searched is the
declaring class itself. -/
theorem substOwner_of_self (h : (s.shape owner).isDeclared) (t : TypeId) : substOwner t owner owner false s = (t, s) := by
  by_cases hvariable : s.HasVariableOf owner t
  · obtain ⟨v, hv, hmethod, howner⟩ := hvariable
    unfold substOwner
    rw [get_bind_apply]
    simp only [hv, hmethod, howner]
    simp [bind, StateT.bind, parameterizationOf_self h]
    rfl
  · exact substOwner_of_not_hasVariableOf hvariable owner false

/-- A class type is a type. -/
theorem isSome_of_classOf (h : (s.classOf t).isSome) : t.isSome :=
  isSome_of_shape (denotes_of_isReference (isReference_of_classOf h)).1

/-- A class type is no type variable. -/
theorem not_hasVariableOf_of_classOf (h : (s.classOf t).isSome) (owner : TypeId) : ¬ s.HasVariableOf owner t := by
  rintro ⟨x, hx, -⟩
  unfold classOf at h
  cases hshape : s.shape t <;> simp_all [baseElem, typeVariable?, TypeId.isSome]

end TypeStore

/-! ## Evidence

An argument counts when its parameter mentions the variable, and for a plain parameter its
type is all that counts.
-/

/-- An argument says something of a type variable when its parameter mentions the variable. -/
theorem Formals.mem_evidence {f : Formals} {exprs : List Expr} {args : List TypeId} {e : Evidence} :
    e ∈ f.evidence s v exprs args ↔ ∃ k, exprs[k]? = some e.expr ∧ args[k]? = some e.type ∧
      f.formalAt? k args.length = some e.formal ∧ s.mentions e.formal v := by
  unfold evidence
  rw [List.mem_filterMap]
  constructor
  · rintro ⟨⟨⟨expr, type⟩, k⟩, hmem, h⟩
    obtain ⟨hexpr, htype⟩ := List.getElem?_zip_eq_some.mp (List.mem_zipIdx_iff_getElem?.mp hmem)
    dsimp only at h
    cases hformal : f.formalAt? k args.length with
    | none => simp [hformal] at h
    | some formal =>
      rw [hformal] at h
      simp only [Option.ite_none_right_eq_some, Option.some.injEq] at h
      obtain ⟨hmentions, rfl⟩ := h
      exact ⟨k, hexpr, htype, hformal, hmentions⟩
  · rintro ⟨k, hexpr, htype, hformal, hmentions⟩
    refine ⟨((e.expr, e.type), k), List.mem_zipIdx_iff_getElem?.mpr (List.getElem?_zip_eq_some.mpr ⟨hexpr, htype⟩), ?_⟩
    dsimp only
    rw [hformal]
    simp [hmentions]

namespace Evidence

/-- What is read off the type of the argument alone: the parameter has no type arguments, and
the argument is no class literal. Creations are not excluded: without type arguments in the
parameter they say nothing. -/
structure Plain (s : TypeStore) (e : Evidence) : Prop where
  /-- The parameter. -/
  formal : ∀ base args, s.shape e.formal ≠ .applied base args
  /-- The argument. -/
  expr : ∀ t, e.expr.form ≠ .classLiteral t

variable {e : Evidence}

theorem Plain.ofClassLiteral (h : e.Plain s) (v : TypeId) : e.ofClassLiteral v s = (none, s) := by
  unfold Evidence.ofClassLiteral
  cases hform : e.expr.form with
  | classLiteral t => exact absurd hform (h.expr t)
  | _ => rfl

theorem Plain.ofCreation (h : e.Plain s) (v : TypeId) : e.ofCreation v s = (none, s) := by
  unfold Evidence.ofCreation
  cases hform : e.expr.form with
  | creation t =>
    dsimp only
    split
    · exact matchArg_of_not_applied h.formal t
    · rfl
  | _ => rfl

end Evidence

namespace Method

variable {m : Method} {exprs : List Expr} {args : List TypeId} {site : Site}

/-- The types of arguments decide what stands for a type variable when all of them say the
same and nothing else is to be read. What they say may be that nothing stands for it. -/
theorem infer_of_plain {f : Formals} (hformals : m.declaredFormals s = (f, s)) (hne : f.evidence s v exprs args ≠ [])
    (hplain : ∀ e ∈ f.evidence s v exprs args, e.Plain s) {r : Option TypeId}
    (hdirect : ∀ e ∈ f.evidence s v exprs args, matchDirect v e.formal e.type s = (r, s)) : m.infer v exprs args s = (r, s) := by
  unfold infer
  rw [bind_of_eq hformals, get_bind_apply]
  rw [bind_of_eq (findSomeM?_of_forall hne fun e he => (hplain e he).ofClassLiteral v)]
  dsimp only
  rw [bind_of_eq (findSomeM?_of_forall hne fun e he => (hplain e he).ofCreation v)]
  dsimp only
  rw [bind_of_eq (findSomeM?_of_forall hne hdirect)]
  cases r with
  | some t => rfl
  | none => exact findSomeM?_of_forall hne fun e he => matchArg_of_not_applied (hplain e he).formal e.type

/-- What is inferred for a type variable stands for it. -/
theorem inferOrErase_of_infer (h : m.infer v exprs args s = (some S, s)) : m.inferOrErase exprs args v s = (S, s) := by
  unfold inferOrErase
  rw [bind_of_eq h]
  rfl

/-- A type variable of which nothing is inferred is erased. -/
theorem inferOrErase_of_infer_none (h : m.infer v exprs args s = (none, s)) : m.inferOrErase exprs args v s = erasure v s := by
  unfold inferOrErase
  rw [bind_of_eq h]

/-! ## Methods with one type variable

The shape that most statements about inferred types need.
-/

/-- A method with one type variable takes arguments, and returns a value of the variable. What
its parameters look like is left to those who use it. -/
structure Yields (m : Method) (v : TypeId) : Prop where
  /-- It is a method. -/
  notConstructor : m.isConstructor = false
  /-- The type variable. -/
  typeParams : m.typeParams = [v]
  /-- It takes arguments. -/
  takes : m.params ≠ []
  /-- What it returns. -/
  returns : m.returns = v

/-- The type variable is replaced by what stands for it. -/
theorem Yields.instantiatedReturn (h : m.Yields v) (hv : (s.shape v).isVariable) (htypeArgs : site.typeArgs = [])
    (hinferred : m.inferOrErase site.args args v s = (S, s)) (hS : S.isSome) : m.instantiatedReturn site args s = (S, s) := by
  obtain ⟨slot, hslot⟩ := shape_of_isVariable hv
  have hsubst : subst v [v] [.exact S] s = (S, s) := by
    unfold subst termDepth substWithin
    simp [get_bind_apply, hslot, argUpper, TypeArg.exact, hS]
    rfl
  unfold Method.instantiatedReturn
  rw [get_bind_apply]
  simp [h.typeParams, h.returns, mentions_self, htypeArgs, hinferred, bind, StateT.bind, pure_apply, hsubst]

/-- The type of a call is what stands for the type variable, seen as a result of the declaring
class. So an inferred type that is a variable of that class does not come out unchanged. -/
theorem Yields.callType (h : m.Yields v) (hv : (s.shape v).isVariable) (htypeArgs : site.typeArgs = [])
    (hinferred : m.inferOrErase site.args args v s = (S, s)) (hS : S.isSome) (recv : TypeId) (qualified : Bool) :
    m.callType false recv qualified site args s = substOwner S m.owner recv qualified s := by
  have hplain : m.isGetClass = false := by simp [isGetClass, h.takes]
  unfold Method.callType
  simp only [h.notConstructor, hplain, Bool.false_and]
  rw [if_neg Bool.false_ne_true, get_bind_apply]
  simp only [Bool.false_eq_true, if_false]
  rw [bind_of_eq (h.instantiatedReturn hv htypeArgs hinferred hS)]

end Method

end CallResolution
