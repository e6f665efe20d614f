import CallResolution.Proofs.Members.Moves
import CallResolution.Proofs.TypeExpr.Variadic

/-!
# Processed signatures mention known types

A type expression denotes a type that can be written down, whatever store it is looked up in.
A signature whose texts have no fault is therefore processed to known types, and processing it
reports nothing but its own faults.

The text is processed in parts: type variables are declared, their bounds are set, and
parameters, result and exceptions are read among them. A fault in one part does not stop the
others, so that all faults of a signature are found at once; `SignatureDraft.Known` is what
holds of the draft in between, with or without faults. The bounds of a type variable may name
variables that are declared after it, which is why they are set later; the variables are fresh
as long as the signature is processed (`IsFresh`).

A callable is marked while its signature is processed, and the mark is overwritten by the
draft or by the note that the signature is broken. No one else sees the mark, because reading
types asks for no signature: `signature_of_pending` says that the whole is one change of the
callable, and `settle_leads` that the universe is extended by it.

Main statements: `resolveType_tries`, `ofText_works` and `signature_works`.
-/

namespace CallResolution

namespace TypeStore

variable {g : Guard} {s s' : TypeStore}

/-! ## Names

What a name can denote: a keyword, a type variable, or a class.
-/

/-- The type variables of a scope are type variables. -/
def KnowsScope (s : TypeStore) (sc : Scope) : Prop :=
  ∀ p ∈ sc.params, (s.shape p.2).isVariable

/-- A scope stays known. -/
theorem KnowsScope.grows {sc : Scope} (hsc : s.KnowsScope sc) (h : Grows s s') : s'.KnowsScope sc := by
  intro p hp
  rw [h.shape (knows_of_isVariable (hsc p hp))]
  exact hsc p hp

/-- What may be a bound can be written down. -/
theorem IsBound.denotes {t : TypeId} (h : s.IsBound t) : s.Denotes t :=
  denotes_of_isReference h.1

/-- What may be a bound is known. -/
theorem IsBound.knows {t : TypeId} (h : s.IsBound t) : s.Knows t :=
  h.denotes.knows

/-- Classes may be bounds. -/
theorem isBound_of_isDeclared {t : TypeId} (h : (s.shape t).isDeclared) : s.IsBound t := by
  unfold IsBound isReference isArray
  cases ht : s.shape t <;> simp_all [TypeShape.isDeclared, TypeShape.isReference, TypeShape.isArray]

/-- Type variables may be bounds. -/
theorem isBound_of_isVariable {t : TypeId} (h : (s.shape t).isVariable) : s.IsBound t := by
  unfold IsBound isReference isArray
  cases ht : s.shape t <;> simp_all [TypeShape.isVariable, TypeShape.isReference, TypeShape.isArray]

/-- A name that is taken stands for a class. -/
theorem WellFormed.isDeclared_of_classNamed (hs : s.WellFormed) {name : String} {t : TypeId}
    (h : s.classNamed? name = some t) : (s.shape t).isDeclared :=
  hs.names _ (mem_of_lookup h)

/-- A type variable of a class is a type variable. -/
theorem WellFormed.isVariable_of_classVariable (hs : s.WellFormed) {name : String} {c t : TypeId}
    (h : s.classVariable? name c = some t) : (s.shape t).isVariable := by
  have hmem := List.mem_of_find?_eq_some h
  cases hi : s.classInfo? c with
  | none => simp [hi] at hmem
  | some info =>
    rw [hi] at hmem
    exact (hs.knows_classInfo hi).typeParams t hmem

/-- A simple name denotes a class or a type variable. -/
theorem WellFormed.isBound_lookupSimple (hs : s.WellFormed) {sc : Scope} (hsc : s.KnowsScope sc) {name : String}
    {t : TypeId} (h : s.lookupSimple? name sc = some t) : s.IsBound t := by
  simp only [lookupSimple?, Option.orElse_eq_orElse, Option.orElse_eq_or, Option.or_eq_some_iff] at h
  rcases h with h | ⟨-, h | ⟨-, h | ⟨-, h | ⟨-, h | ⟨-, h⟩⟩⟩⟩⟩
  · exact isBound_of_isVariable (hsc _ (mem_of_lookup h))
  · obtain ⟨c, -, h⟩ := List.exists_of_findSome?_eq_some h
    exact isBound_of_isVariable (hs.isVariable_of_classVariable h)
  · obtain ⟨c, -, h⟩ := List.exists_of_findSome?_eq_some h
    exact isBound_of_isDeclared (hs.isDeclared_of_classNamed h)
  · split at h
    · exact isBound_of_isDeclared (hs.isDeclared_of_classNamed h)
    · cases h
  · exact isBound_of_isDeclared (hs.isDeclared_of_classNamed h)
  · exact isBound_of_isDeclared (hs.isDeclared_of_classNamed h)

/-- A name denotes a class or a type variable. -/
theorem WellFormed.isBound_lookupName (hs : s.WellFormed) {sc : Scope} (hsc : s.KnowsScope sc) {name : String}
    {t : TypeId} (h : s.lookupName? name sc = some t) : s.IsBound t := by
  unfold lookupName? at h
  split at h
  · exact hs.isBound_lookupSimple hsc h
  · exact hs.isBound_lookupSimple hsc h
  · split at h
    · rename_i u hu
      cases h
      exact isBound_of_isDeclared (hs.isDeclared_of_classNamed hu)
    · obtain ⟨head, -, h⟩ := Option.bind_eq_some_iff.mp h
      split at h
      · exact isBound_of_isDeclared (hs.isDeclared_of_classNamed h)
      · cases h

/-- Keywords denote types that can be written down. -/
theorem WellFormed.denotes_primitiveNamed (hs : s.WellFormed) {name : String} {t : TypeId}
    (h : primitiveNamed? name = some t) : s.Denotes t := by
  have prim (p : Primitive) : s.Denotes (.ofPrimitive p) := by
    simp [Denotes, hs.shape_ofPrimitive]
  have void : s.Denotes .void := by
    simp [Denotes, hs.shape_void]
  unfold primitiveNamed? at h
  split at h <;> simp only [Option.some.injEq, reduceCtorEq] at h <;> subst h
  all_goals first | exact prim _ | exact void

/-- The name of a type expression denotes a type that can be written down: a class or a type
variable, unless it is a keyword. Keywords are looked up first, so no class can take the place
of a primitive type. -/
theorem resolveName_tries {sc : Scope} (hsc : s.KnowsScope sc) (name : String) :
    Tries (growth g) (resolveName sc name) s (fun t s' => s'.Denotes t ∧ (primitiveNamed? name = none → s'.IsBound t))
      fun _ _ => True := by
  refine Tries.of_sound fun hs => ?_
  unfold resolveName
  split
  · rename_i t h
    exact Tries.ret ⟨hs.1.denotes_primitiveNamed h, fun hnone => by simp [hnone] at h⟩
  · refine Tries.read ?_
    split
    · rename_i t h
      have hbound := hs.1.isBound_lookupName hsc h
      exact Tries.ret ⟨hbound.denotes, fun _ => hbound⟩
    · exact Tries.throw trivial

/-- What can take arguments is a class. -/
theorem checkArgs_tries (name : String) (base : TypeId) (count : Nat) :
    Tries (growth g) (checkArgs name base count) s (fun _ s' => s' = s ∧ (s.shape base).isDeclared) fun _ _ => True := by
  refine Tries.read ?_
  split
  · dsimp only
    split
    · exact Tries.stop (Tries.throw trivial)
    · rename_i h
      split
      · exact Tries.throw trivial
      · exact Tries.ret ⟨rfl, by simpa using h⟩
  · exact Tries.throw trivial

/-! ## Type expressions

An expression is resolved from its name outwards: arguments are put in, and then dimensions
are put on top.
-/

/-- A type argument with a known bound is known. -/
theorem boundedArg_tries (w : Wildcard) (t : TypeExpr) {bound : TypeId} (hbound : s.Knows bound) :
    Tries (growth g) (boundedArg w t bound) s (fun a s' => s'.Knows a.type) fun _ _ => True := by
  refine Tries.read ?_
  split
  · exact Tries.ret hbound
  · exact Tries.throw trivial

mutual

/-- A type expression denotes a type that can be written down: an array when it is of variable
arity, and a class or a type variable when it is written like one. -/
theorem resolveType_tries {sc : Scope} {s : TypeStore} (hsc : s.KnowsScope sc) :
    (e : TypeExpr) → Tries (growth g) (resolveType sc e) s
      (fun t s' => s'.Denotes t ∧ (e.EndsInDots → s'.isArray t) ∧ (e.IsBound → s'.IsBound t)) fun _ _ => True
  | .mk name args dims variadic => by
    unfold resolveType
    dsimp only
    split
    · exact Tries.stop (Tries.throw trivial)
    split
    · exact Tries.stop (Tries.throw trivial)
    have dimensions {t : TypeId} {s' : TypeStore} (ht : s'.Denotes t) (hbound : primitiveNamed? name = none → s'.IsBound t) :
        Tries (growth g)
          (if 0 < dims + (if variadic then 1 else 0) then liftM (array t (dims + if variadic then 1 else 0).toUInt32) else pure t) s'
          (fun t s' => s'.Denotes t ∧ ((TypeExpr.mk name args dims variadic).EndsInDots → s'.isArray t) ∧
            ((TypeExpr.mk name args dims variadic).IsBound → s'.IsBound t))
          fun (_ : TypeFault) _ => True := by
      by_cases hsome : 0 < dims + if variadic then 1 else 0
      · rw [if_pos hsome]
        refine Tries.lifted ((array_works _ ht.knows).mono fun _ _ _ _ h =>
          ⟨(h.2.1 ht).1, fun hdots => (h.2.1 ht).2 ?_, fun hplain => ?_⟩)
        · exact hdots.toUInt32_ne_zero
        · obtain ⟨-, rfl, rfl⟩ := hplain
          exact absurd hsome (by simp)
      · rw [if_neg hsome]
        exact Tries.ret ⟨ht, fun hdots => absurd (by simp [show variadic = true from hdots.variadic]) hsome,
          fun hplain => hbound hplain.1⟩
    refine (resolveName_tries hsc name).bind fun base s' hs' hl hbase => ?_
    cases args with
    | none =>
      simp only [pure_bind]
      exact dimensions hbase.1 hbase.2
    | some as =>
      refine (checkArgs_tries name base as.length).bind fun _ s'' _ _ h => ?_
      obtain ⟨rfl, hdecl⟩ := h
      refine (resolveArgs_tries (hsc.grows (growth_grows hl)) as).bind fun as' s'' _ hl' has => ?_
      refine Tries.lift (apply_works ?_ has) fun t _ _ _ ht => dimensions ht.1 fun _ => ht.2
      rwa [(growth_grows hl').shape (knows_of_isDeclared hdecl)]

/-- The type arguments of an expression are known. -/
theorem resolveArgs_tries {sc : Scope} {s : TypeStore} (hsc : s.KnowsScope sc) : (as : List TypeArgExpr) →
    Tries (growth g) (resolveArgs sc as) s (fun as' s' => ∀ a ∈ as', s'.Knows a.type) fun _ _ => True
  | [] => by
    unfold resolveArgs
    exact Tries.ret (by simp)
  | a :: as => by
    unfold resolveArgs
    refine (resolveArg_tries hsc a).bind fun a' s' _ hl ha => ?_
    refine (resolveArgs_tries (hsc.grows (growth_grows hl)) as).bind fun as' s'' _ hl' has => Tries.ret ?_
    intro b hb
    rcases List.mem_cons.mp hb with rfl | hb
    · exact (growth_grows hl').knows ha
    · exact has b hb

/-- A type argument is known. -/
theorem resolveArg_tries {sc : Scope} {s : TypeStore} (hsc : s.KnowsScope sc) : (a : TypeArgExpr) →
    Tries (growth g) (resolveArg sc a) s (fun a' s' => s'.Knows a'.type) fun _ _ => True
  | .unbounded => by
    unfold resolveArg
    exact Tries.of_sound fun hs => Tries.ret hs.1.knows_none
  | .exact t => by
    unfold resolveArg
    exact (resolveType_tries hsc t).bind fun _ _ _ _ hb => boundedArg_tries .none t hb.1.knows
  | .extends t => by
    unfold resolveArg
    exact (resolveType_tries hsc t).bind fun _ _ _ _ hb => boundedArg_tries .extends t hb.1.knows
  | .super t => by
    unfold resolveArg
    exact (resolveType_tries hsc t).bind fun _ _ _ _ hb => boundedArg_tries .super t hb.1.knows

end

/-- A text denotes a type that can be written down. -/
theorem typeOfText_tries {sc : Scope} (hsc : s.KnowsScope sc) (src : String) :
    Tries (growth g) (typeOfText sc src) s (fun t s' => s'.Denotes t) fun _ _ => True := by
  unfold typeOfText
  split
  · exact Tries.throw trivial
  · exact (resolveType_tries hsc _).mono (fun _ _ _ _ h => h.1) fun _ _ _ _ h => h

/-! ## Type variables

Type variables are registered without bounds, and get them later.
-/

/-- A type variable behind the guarded place. Its bounds may still be set, which is done once
all type variables of the signature are declared. -/
def IsFresh (g : Guard) (s : TypeStore) (t : TypeId) : Prop :=
  ∃ slot, g.vars ≤ slot ∧ s.shape t = .typeVar slot

theorem IsFresh.isVariable {t : TypeId} (h : IsFresh g s t) : (s.shape t).isVariable := by
  obtain ⟨slot, -, h⟩ := h
  rw [h]
  rfl

/-- A fresh type variable stays one. -/
theorem IsFresh.grows {t : TypeId} (ht : IsFresh g s t) (h : Grows s s') : IsFresh g s' t := by
  obtain ⟨slot, hslot, hshape⟩ := id ht
  exact ⟨slot, hslot, (h.shape (knows_of_isVariable ht.isVariable)).trans hshape⟩

/-- Registering a type variable gives a fresh one. -/
theorem registerVariable_works {v : TypeVariable} (hv : v.bounds = []) :
    Works (growth g) (registerVariable v) s fun t s' => IsFresh g s' t := by
  intro hs
  refine ⟨Step.leads (.fresh hv), s.typeVars.size, hs.2.2, ?_⟩
  rw [registerVariable_eq]
  exact shape_push hs.1.pos rfl

/-- The bounds of a fresh type variable can be set. -/
theorem setBounds_works {t : TypeId} {bs : List TypeId} (ht : IsFresh g s t) (hbs : ∀ b ∈ bs, s.Denotes b)
    (hproper : g.anyBounds ∨ ∀ b ∈ bs, s.IsBound b) : Works (growth g) (modify (·.setBounds t bs)) s fun _ _ => True := by
  obtain ⟨slot, hslot, hshape⟩ := ht
  exact Works.change (Step.leads (.bounds hshape hslot hbs hproper)) trivial

end TypeStore

/-! ## Signatures

The parts of a signature in the order in which they are read, each from a draft to a draft.
-/

namespace SignatureDraft

open TypeStore

variable {g : Guard} {s s' : TypeStore} {d : SignatureDraft}

/-- What a store knows of a signature that is being processed. -/
structure Known (g : Guard) (s : TypeStore) (d : SignatureDraft) : Prop where
  /-- The scope. -/
  scope : s.KnowsScope d.scope
  /-- The type variables, whose bounds can be set. -/
  typeVars : ∀ p ∈ d.typeVars, IsFresh g s p.1
  /-- The parameter types. -/
  params : ∀ t ∈ d.params, s.Genuine t
  /-- The result type. -/
  returns : s.Knows d.returns
  /-- The exceptions. -/
  throws : ∀ t ∈ d.throws, s.Knows t

theorem Known.grows (hd : d.Known g s) (h : Grows s s') : d.Known g s' where
  scope := hd.scope.grows h
  typeVars p hp := (hd.typeVars p hp).grows h
  params t ht := h.genuine (hd.params t ht)
  returns := h.knows hd.returns
  throws t ht := h.knows (hd.throws t ht)

/-- The faults do not matter. -/
theorem Known.withFaults (hd : d.Known g s) (faults : List (String × SignatureFault)) : Known g s { d with faults } :=
  ⟨hd.scope, hd.typeVars, hd.params, hd.returns, hd.throws⟩

theorem Known.fault (hd : d.Known g s) (src : String) (f : SignatureFault) : (d.fault src f).Known g s :=
  hd.withFaults _

/-- A type variable is declared. -/
theorem declareVariable_works (hd : d.Known g s) (method : MethodId) (src : String) (index : Nat) :
    Works (growth g) (d.declareVariable method src index) s fun d' s' => d'.Known g s' := by
  unfold declareVariable
  split
  · exact Works.ret (hd.fault _ _)
  · refine (registerVariable_works ?_).bind fun v s' _ hl hv => Works.ret ?_
    · rfl
    · have hd' := hd.grows (growth_grows hl)
      refine ⟨fun p hp => ?_, fun p hp => ?_, hd'.params, hd'.returns, hd'.throws⟩
      · rcases List.mem_cons.mp hp with rfl | hp
        · exact hv.isVariable
        · exact hd'.scope p hp
      · rcases List.mem_append.mp hp with hp | hp
        · exact hd'.typeVars p hp
        · rw [List.mem_singleton.mp hp]
          exact hv

/-- The type variables are declared. -/
theorem declareVariables_works (hd : d.Known g s) (method : MethodId) (index : Nat) (srcs : List String) :
    Works (growth g) (declareVariables method d index srcs) s fun d' s' => d'.Known g s' := by
  induction srcs generalizing s d index with
  | nil => exact Works.ret hd
  | cons src rest ih =>
    exact (declareVariable_works hd method src index).bind fun d' s' _ _ hd' => ih hd' (index + 1)

/-- A type variable is declared as its text says. -/
theorem declareVariable_declares (method : MethodId) (src : String) (index : Nat) :
    Works (growth g) (d.declareVariable method src index) s fun d' _ =>
      ∀ p ∈ d'.typeVars, p ∈ d.typeVars ∨ p.2 ∈ (TypeExpr.parseParam src).toOption := by
  unfold declareVariable
  split
  · exact Works.ret fun p hp => .inl hp
  · rename_i decl hparse
    refine (registerVariable_works rfl).bind fun v s' _ _ _ => Works.ret fun p hp => ?_
    refine (List.mem_append.mp hp).imp_right fun hp => ?_
    rw [List.mem_singleton.mp hp, hparse]
    rfl

/-- The type variables are declared as their texts say. -/
theorem declareVariables_declares (method : MethodId) (index : Nat) (srcs : List String) :
    Works (growth g) (declareVariables method d index srcs) s fun d' _ =>
      ∀ p ∈ d'.typeVars, p ∈ d.typeVars ∨ ∃ src ∈ srcs, p.2 ∈ (TypeExpr.parseParam src).toOption := by
  induction srcs generalizing s d index with
  | nil => exact Works.ret fun p hp => .inl hp
  | cons src rest ih =>
    refine (declareVariable_declares method src index).bind fun d' s' _ _ hd' => (ih (index + 1)).mono fun d'' s'' _ _ h p hp => ?_
    rcases h p hp with hp | ⟨src', hsrc', hp⟩
    · exact (hd' p hp).imp_right fun hp => ⟨src, by simp, hp⟩
    · exact .inr ⟨src', by simp [hsrc'], hp⟩

/-- The bounds of a type variable are resolved, and nothing but faults comes in. -/
theorem resolveBounds_works (hscope : s.KnowsScope d.scope) (bs : List TypeExpr) :
    Works (growth g) (d.resolveBounds bs) s fun r s' =>
      (∀ b ∈ r.1, s'.Denotes b) ∧ ((∀ b ∈ bs, b.IsBound) → ∀ b ∈ r.1, s'.IsBound b) ∧ ∃ faults, r.2 = { d with faults } := by
  induction bs generalizing s d with
  | nil => exact Works.ret ⟨by simp, by simp, d.faults, rfl⟩
  | cons b bs ih =>
    unfold resolveBounds
    refine Works.bind (resolveType_tries hscope b) fun r s' _ hl hr => ?_
    have hscope' := hscope.grows (growth_grows hl)
    cases r with
    | error f =>
      refine Works.mono (ih (d := d.fault b.text (.type f)) hscope') fun r s'' _ _ h => ⟨h.1, fun hbs => h.2.1 fun c hc => ?_, h.2.2⟩
      exact hbs c (by simp [hc])
    | ok t =>
      refine (ih hscope').bind fun r s'' _ hl' hr' => Works.ret ⟨fun c hc => ?_, fun hbs c hc => ?_, hr'.2.2⟩
      · rcases List.mem_cons.mp hc with rfl | hc
        · exact (growth_grows hl').denotes hr.1
        · exact hr'.1 c hc
      · rcases List.mem_cons.mp hc with rfl | hc
        · exact (growth_grows hl').isBound (hr.2.2 (hbs b (by simp)))
        · exact hr'.2.1 (fun b hb => hbs b (by simp [hb])) c hc

/-- The bounds of type variables are set. -/
theorem setBounds_works (hd : d.Known g s) (vs : List (TypeId × TypeParamExpr)) (hvs : ∀ p ∈ vs, IsFresh g s p.1)
    (hproper : g.anyBounds ∨ ∀ p ∈ vs, ∀ b ∈ p.2.bounds, b.IsBound) :
    Works (growth g) (d.setBounds vs) s fun d' s' => d'.Known g s' := by
  induction vs generalizing s d with
  | nil => exact Works.ret hd
  | cons v vs ih =>
    obtain ⟨v, decl⟩ := v
    unfold setBounds
    refine (resolveBounds_works hd.scope decl.bounds).bind fun r s' _ hl ⟨hr, hbound, faults, hfaults⟩ => ?_
    have hd' : r.2.Known g s' := hfaults ▸ (hd.grows (growth_grows hl)).withFaults faults
    have hv : IsFresh g s' v := (hvs (v, decl) (by simp)).grows (growth_grows hl)
    refine (TypeStore.setBounds_works hv hr (hproper.imp_right fun h => hbound (h (v, decl) (by simp)))).bind fun _ s'' _ hl' _ => ?_
    refine ih (hd'.grows (growth_grows hl')) (fun p hp => ?_) (hproper.imp_right fun h p hp => h p (by simp [hp]))
    exact ((hvs p (by simp [hp])).grows (growth_grows hl)).grows (growth_grows hl')

/-- A parameter type is processed. -/
theorem addParam_works (hd : d.Known g s) (src : String) (isLast : Bool) :
    Works (growth g) (d.addParam src isLast) s fun d' s' => d'.Known g s' := by
  unfold addParam
  split
  · exact Works.ret (hd.fault _ _)
  · split
    · exact Works.ret (hd.fault _ _)
    · rename_i t _ _
      refine Works.bind (resolveType_tries hd.scope t) fun r s' _ hl hr => ?_
      have hd' := hd.grows (growth_grows hl)
      cases r with
      | error f => exact Works.ret (hd'.fault _ _)
      | ok p =>
        dsimp only
        split
        · exact Works.ret (hd'.fault _ _)
        · refine Works.ret ⟨hd'.scope, hd'.typeVars, fun q hq => ?_, hd'.returns, hd'.throws⟩
          rcases List.mem_append.mp hq with hq | hq
          · exact hd'.params q hq
          · rw [List.mem_singleton.mp hq]
            exact hr.1.genuine

/-- The parameter types are processed. -/
theorem addParams_works (hd : d.Known g s) (srcs : List String) :
    Works (growth g) (d.addParams srcs) s fun d' s' => d'.Known g s' := by
  induction srcs generalizing s d with
  | nil => exact Works.ret hd
  | cons src rest ih => exact (addParam_works hd src rest.isEmpty).bind fun d' s' _ _ hd' => ih hd'

/-- The result type is processed. -/
theorem setReturns_works (hd : d.Known g s) (kind : CallableKind) (src : String) :
    Works (growth g) (d.setReturns kind src) s fun d' s' => d'.Known g s' := by
  unfold setReturns
  split
  · exact Works.ret hd
  · refine Works.bind (typeOfText_tries hd.scope src) fun r s' _ hl hr => ?_
    have hd' := hd.grows (growth_grows hl)
    cases r with
    | error f => exact Works.ret (hd'.fault _ _)
    | ok t => exact Works.ret ⟨hd'.scope, hd'.typeVars, hd'.params, hr.knows, hd'.throws⟩

/-- An exception is processed. -/
theorem addThrown_works (hd : d.Known g s) (src : String) :
    Works (growth g) (d.addThrown src) s fun d' s' => d'.Known g s' := by
  unfold addThrown
  refine Works.bind (typeOfText_tries hd.scope src) fun r s' _ hl hr => ?_
  have hd' := hd.grows (growth_grows hl)
  cases r with
  | error f => exact Works.ret (hd'.fault _ _)
  | ok t =>
    refine Works.read ?_
    split
    · refine Works.ret ⟨hd'.scope, hd'.typeVars, hd'.params, hd'.returns, fun q hq => ?_⟩
      rcases List.mem_append.mp hq with hq | hq
      · exact hd'.throws q hq
      · rw [List.mem_singleton.mp hq]
        exact hr.knows
    · exact Works.ret (hd'.fault _ _)

/-- A whole signature is processed to known types. The faults are collected on the way; a
draft with faults is thrown away, but what it made stays in the store. -/
theorem ofText_works (id : MethodId) (kind : CallableKind) (owner : TypeId) (text : SignatureText)
    (hproper : g.anyBounds ∨ text.Bounded) : Works (growth g) (ofText id kind owner text) s fun d s' => d.Known g s' := by
  refine Works.of_sound fun hs => ?_
  have h0 : Known g s { scope := { cls := owner } } :=
    ⟨by simp [KnowsScope], by simp, by simp, hs.1.knows_predefined (t := .void) (by decide), by simp⟩
  unfold ofText
  refine ((declareVariables_works h0 id 0 text.typeParams).and (declareVariables_declares id 0 text.typeParams)).bind
    fun d s₁ _ _ ⟨hd, hdeclares⟩ => ?_
  have hbounds : g.anyBounds ∨ ∀ p ∈ d.typeVars, ∀ b ∈ p.2.bounds, b.IsBound := hproper.imp_right fun htext p hp => by
    obtain ⟨src, hsrc, hparam⟩ := (hdeclares p hp).resolve_left (by simp)
    exact htext src hsrc p.2 hparam
  refine (setBounds_works hd d.typeVars hd.typeVars hbounds).bind fun d s₂ _ _ hd => ?_
  refine (addParams_works hd text.params).bind fun d s₃ _ _ hd => ?_
  refine (setReturns_works hd kind text.returns).bind fun d s₄ _ _ hd => ?_
  exact Works.foldlM text.throws hd fun src _ d s₅ _ _ hd => addThrown_works hd src

end SignatureDraft

namespace Universe

variable {u : Universe}

/-- What is said of a broken signature has a code of its own. -/
theorem brokenReport_code (s : TypeStore) (m : Method) (text : SignatureText) (faults : List (String × SignatureFault)) :
    (brokenReport s m text faults).code = .unresolvedSignature := by
  have noted (l : List (String × SignatureFault)) (d : Diagnostic) :
      (l.foldl (fun d p => d.withNote m.decl (p.1 ++ ": " ++ p.2.message)) d).code = d.code := by
    induction l generalizing d with
    | nil => rfl
    | cons p l ih => exact ih _
  exact noted faults _

/-- What is said of a broken signature is no fault. -/
theorem isFault_brokenReport (s : TypeStore) (m : Method) (text : SignatureText) (faults : List (String × SignatureFault)) :
    isFault (brokenReport s m text faults) = false := by
  simp [isFault, brokenReport_code]

/-- The callable with a number after it was changed. -/
theorem method?_modify {id : MethodId} {m : Method} {f : Method → Method} (h : u.method? id = some m) :
    { u with methods := u.methods.modify (id.index - 1) f }.method? id = some (f m) := by
  unfold method? at *
  split at h
  · cases h
  · rename_i hid
    rw [if_neg hid]
    simp only [Array.getElem?_modify, if_true, h, Option.map_some]

/-- A change that another one overwrites is not seen. -/
theorem modify_modify_of_absorbs {α : Type} {f g : α → α} (h : ∀ a, f (g a) = f a) (xs : Array α) (i : Nat) :
    (xs.modify i g).modify i f = xs.modify i f := by
  apply Array.ext_getElem?
  intro j
  simp only [Array.getElem?_modify]
  by_cases hj : i = j
  · subst hj
    cases xs[i]? with
    | none => simp
    | some a => simp [h]
  · simp [hj]

/-- What is done with the draft of a signature. -/
def settle (id : MethodId) (m : Method) (text : SignatureText) (d : SignatureDraft) : UniverseM Bool := do
  if d.faults.isEmpty then
    modifyMethod id (·.withDraft d)
    return true
  else
    reportBroken m text d.faults
    modifyMethod id ({ · with signature := .broken })
    return false

/-- The signature of a callable that was processed is left alone. -/
theorem signature_of_isResolved {id : MethodId} (h : (u.method id).isResolved) : signature id u = (true, u) := by
  have hm := method?_of_isResolved h
  have hsig : (u.method id).signature = .resolved := by simpa [Method.isResolved] using h
  unfold signature
  rw [get_bind_apply, hm]
  dsimp only
  rw [hsig]
  rfl

/-- While a signature is processed it is marked, which nothing sees before the mark is
overwritten. So processing a signature is one change of a callable, after the types that it
needs were made. -/
theorem signature_of_pending {id : MethodId} {m : Method} {text : SignatureText} (hm : u.method? id = some m)
    (hsig : m.signature = .pending text) :
    signature id u = (onTypes (SignatureDraft.ofText id m.kind m.owner text) >>= settle id m text) u := by
  unfold signature
  rw [get_bind_apply, hm]
  dsimp only
  rw [hsig]
  show settle id m text (SignatureDraft.ofText id m.kind m.owner text u.types).1 { u with
      types := (SignatureDraft.ofText id m.kind m.owner text u.types).2
      methods := u.methods.modify (id.index - 1) ({ · with signature := .resolving }) } =
    settle id m text (SignatureDraft.ofText id m.kind m.owner text u.types).1 { u with
      types := (SignatureDraft.ofText id m.kind m.owner text u.types).2 }
  generalize SignatureDraft.ofText id m.kind m.owner text u.types = drafted
  obtain ⟨d, types⟩ := drafted
  have absorbs (f : Method → Method) (hf : ∀ m : Method, f { m with signature := .resolving } = f m) :
      (u.methods.modify (id.index - 1) ({ · with signature := .resolving })).modify (id.index - 1) f =
        u.methods.modify (id.index - 1) f :=
    modify_modify_of_absorbs hf u.methods _
  unfold settle
  split
  · exact congrArg (fun methods => (true, { u with types, methods })) (absorbs (·.withDraft d) fun _ => rfl)
  · exact congrArg (fun methods => (false, { (reportBroken m text d.faults { u with types }).2 with methods }))
      (absorbs ({ · with signature := .broken }) fun _ => rfl)

/-- The draft of a signature that was a text takes its place, or the signature is broken. In
the first case bounds are proper when the text says so; in the second one it was not read to
the end, and nothing of it is recorded. -/
theorem settle_leads {id : MethodId} {m : Method} (hu : u.WellFormed) (hm : u.method? id = some m) {text : SignatureText}
    (hsig : m.signature = .pending text) {d : SignatureDraft} {types : TypeStore}
    (hdraft : SignatureDraft.ofText id m.kind m.owner text u.types = (d, types)) :
    let r := settle id m text d { u with types }
    binding.Leads u r.2 ∧ r.1 = (r.2.method id).isResolved ∧ r.2.Processed id := by
  have hworks := SignatureDraft.ofText_works (g := hu.types.reading) id m.kind m.owner text (.inl trivial) hu.types.sound
  rw [hdraft] at hworks
  obtain ⟨hl, hd⟩ := hworks
  have hwf : types.WellFormed := ((TypeStore.growth _).sound hl hu.types.sound).1
  have he : u.types.Extends types := hu.types.extends_of_reading hl
  have hproper (htext : text.Bounded) (hb : u.types.Bounded) : types.Bounded := by
    have hlead := (SignatureDraft.ofText_works (g := hu.types.guard) id m.kind m.owner text (.inr htext) hu.types.sound).1
    rw [hdraft] at hlead
    exact TypeStore.growth_bounded not_false hlead hb
  unfold settle
  split
  · rename_i hfaults
    refine ⟨readText_leads hu hm hsig hdraft hwf he hproper ⟨m, text, d, hm, hsig, hdraft, .inl ⟨hfaults, rfl, rfl⟩⟩
      (fun h => ⟨h.owner, fun t ht => (hd.params t ht).1, hd.returns, hd.throws, fun t ht => ?_⟩) ?_ (.inr hd.params) rfl, ?_⟩
    · obtain ⟨p, hp, rfl⟩ := List.mem_map.mp ht
      exact TypeStore.knows_of_isVariable (hd.typeVars p hp).isVariable
    · simp [Method.Shows, hfaults, Method.withDraft, Method.isResolved]
    · have hfound : Universe.method? { u with types, methods := u.methods.modify (id.index - 1) (·.withDraft d) } id =
          some (m.withDraft d) := method?_modify (u := { u with types }) hm
      exact ⟨(congrArg Method.isResolved (method_eq hfound)).symm, _, hfound, by simp [Method.isPending, Method.withDraft]⟩
  · rename_i hfaults
    have hreport : (reportBroken m text d.faults { u with types }).2 =
        { u with types, reports := u.reports.push (brokenReport types m text d.faults) } := rfl
    have hfound : Universe.method? { u with
        types, methods := u.methods.modify (id.index - 1) ({ · with signature := .broken })
        reports := u.reports.push (brokenReport types m text d.faults) } id = some { m with signature := .broken } :=
      method?_modify (u := { u with types }) hm
    show binding.Leads u (modifyMethod id _ (reportBroken m text d.faults { u with types }).2).2 ∧
      false = ((modifyMethod id _ (reportBroken m text d.faults { u with types }).2).2.method id).isResolved ∧
      (modifyMethod id _ (reportBroken m text d.faults { u with types }).2).2.Processed id
    rw [hreport]
    refine ⟨readText_leads hu hm hsig hdraft hwf he hproper ⟨m, text, d, hm, hsig, hdraft, .inr ⟨hfaults, rfl, rfl⟩⟩
      (fun h => ⟨h.owner, h.params, h.returns, h.throws, h.typeParams⟩) ?_ (.inl rfl) ?_, ?_⟩
    · simp [Method.Shows, hfaults]
    · simp [Universe.faults, isFault_brokenReport]
    · exact ⟨(congrArg Method.isResolved (method_eq hfound)).symm, _, hfound, by simp [Method.isPending]⟩

/-- Processing a signature says whether it has no fault, and no text is left of it. -/
theorem signature_works (id : MethodId) :
    Works binding (signature id) u fun ok u' =>
      ok = (u'.method id).isResolved ∧ (u.Has id → u'.Processed id) := by
  cases hm : u.method? id with
  | none =>
    unfold signature
    refine Works.read ?_
    rw [hm]
    exact Works.ret ⟨by simp [method, hm]; rfl, by simp [Has, hm]⟩
  | some m =>
    by_cases hpending : m.isPending
    · obtain ⟨text, hsig⟩ : ∃ text, m.signature = .pending text := by
        unfold Method.isPending at hpending
        split at hpending
        · exact ⟨_, ‹_›⟩
        · cases hpending
      refine Works.congr (signature_of_pending hm hsig) fun hu => ?_
      obtain ⟨hl, hok, hdone⟩ := settle_leads hu hm hsig rfl
      exact ⟨hl, hok, fun _ => hdone⟩
    · have hdone : u.Processed id := ⟨m, hm, hpending⟩
      unfold signature
      refine Works.read ?_
      rw [hm]
      dsimp only
      split
      · exact Works.ret ⟨by simp [method_eq hm, Method.isResolved, *], fun _ => hdone⟩
      · exact Works.ret ⟨by simp [method_eq hm, Method.isResolved, *], fun _ => hdone⟩
      · exact Works.ret ⟨by simp [method_eq hm, Method.isResolved, *], fun _ => hdone⟩
      · exact absurd (by simp [Method.isPending, *]) hpending

/-- Processing several signatures leaves no text of them. -/
theorem withSignature_works (ids : List MethodId) :
    Works binding (withSignature ids) u fun _ u' => ∀ id ∈ ids, u.Has id → u'.Processed id := by
  induction ids generalizing u with
  | nil => exact Works.ret (by simp)
  | cons id ids ih =>
    unfold withSignature
    refine (signature_works id).bind fun ok u₁ _ hl₁ h₁ => ih.bind fun rest u₂ _ hl₂ h₂ => Works.ret ?_
    intro id' hid' hsome
    rcases List.mem_cons.mp hid' with rfl | hid'
    · exact hl₂.2.processed (h₁.2 hsome)
    · exact h₂ id' hid' (hl₁.2.has hsome)

end Universe

end CallResolution
