import CallResolution.Proofs.Resolve.Inferred

/-!
# What is inferred stays

What stands for a type variable of a method is looked up several times for one call, for its
type and for its exceptions. The types that are made on the way are the same each time, so
every lookup gives what the first one gave.

A step is `Steady` when it settles and leaves the store well formed: done again in any later
store it makes nothing new and has the same value. Steady steps compose, so the argument
follows the text of the inference: what one argument says of a variable, what the search
through the arguments finds, and what is taken when nothing is found. Making an array or an
instance is the only thing that changes the store on the way, and what is made there is found
again under its number.

With this the type of a call without type arguments that returns one of the type variables of
the method, and an exception that it declares by the same variable, are the same type,
although the two are worked out one after the other and by different functions.

Main statements: `inferOrErase_steady`, `Returns.callType` and `Returns.thrownType`.
-/

namespace CallResolution

open TypeStore

variable {s s' : TypeStore} {v : TypeId} {α β γ : Type}

/-! ## Steady steps

How steady steps are put together.
-/

namespace TypeStore

/-- A step that settles and keeps the store well formed. -/
structure Steady (x : TypeM α) (s : TypeStore) : Prop where
  /-- It settles. -/
  settles : Settles x s
  /-- The store is well formed after it. -/
  wellFormed : (x s).2.WellFormed

namespace Steady

/-- A value alone. -/
theorem ret (hs : s.WellFormed) (a : α) : Steady (pure a) s :=
  ⟨.ret a, hs⟩

/-- A step that settles and works. -/
theorem of_works {x : TypeM α} {P : α → TypeStore → Prop} (hs : s.WellFormed) (hx : Settles x s)
    (h : ∀ g, Works (growth g) x s P) : Steady x s :=
  ⟨hx, (hs.run h).1⟩

/-- A step on what is read from the store, when later stores say the same. -/
theorem read {f : TypeStore → TypeM α} (hf : ∀ s', s.Extends s' → f s' = f s) (h : Steady (f s) s) : Steady (get >>= f) s :=
  ⟨.read hf h.settles, h.wellFormed⟩

/-- One step after another, where something is known of what the first one gives. -/
theorem bind {x : TypeM α} {f : α → TypeM β} {P : α → TypeStore → Prop} (hs : s.WellFormed) (hx : Settles x s)
    (hworks : ∀ g, Works (growth g) x s P) (hf : ∀ a t, t.WellFormed → s.Extends t → P a t → Steady (f a) t) :
    Steady (x >>= f) s := by
  obtain ⟨ht, hext, hp⟩ := hs.run hworks
  obtain ⟨hsettles, hwellFormed⟩ := hf _ _ ht hext hp
  exact ⟨hx.bind hsettles, hwellFormed⟩

/-- One step after another, whatever the first one gives. -/
theorem andThen {x : TypeM α} {f : α → TypeM β} (hx : Steady x s)
    (hf : ∀ a t, t.WellFormed → s.Extends t → Steady (f a) t) : Steady (x >>= f) s := by
  obtain ⟨hsettles, hwellFormed⟩ := hf _ _ hx.wellFormed hx.settles.1
  exact ⟨hx.settles.bind hsettles, hwellFormed⟩

/-- The first element of a list for which a step finds something. -/
theorem findSomeM? {f : γ → TypeM (Option α)} (l : List γ) (hs : s.WellFormed)
    (hf : ∀ c ∈ l, ∀ t, t.WellFormed → s.Extends t → Steady (f c) t) : Steady (l.findSomeM? f) s := by
  induction l generalizing s with
  | nil => exact ret hs none
  | cons c l ih =>
    obtain ⟨hc, hwellFormed⟩ := hf c (by simp) s hs (.refl s)
    have hrest := ih hwellFormed fun d hd t ht hst => hf d (by simp [hd]) t ht (hc.1.trans hst)
    rw [Settles.findSomeM?_cons]
    refine ⟨hc.bind ?_, ?_⟩
    · cases (f c s).1 with
      | some a => exact .ret _
      | none => exact hrest.settles
    · show (Option.elim (f c s).1 (l.findSomeM? f) (fun b => pure (some b)) (f c s).2).2.WellFormed
      cases (f c s).1 with
      | some a => exact hwellFormed
      | none => exact hrest.wellFormed

/-- What a step for each element of a list gives is what it gives for the elements from then
on. -/
theorem forall₂_mapM {f : γ → TypeM α} (l : List γ) (hs : s.WellFormed)
    (hf : ∀ c ∈ l, ∀ t, t.WellFormed → s.Extends t → Steady (f c) t) :
    Steady (l.mapM f) s ∧
      List.Forall₂ (fun c a => ∀ t, (l.mapM f s).2.Extends t → f c t = (a, t)) l (l.mapM f s).1 := by
  induction l generalizing s with
  | nil => exact ⟨ret hs [], .nil⟩
  | cons c l ih =>
    obtain ⟨hc, hwellFormed⟩ := hf c (by simp) s hs (.refl s)
    obtain ⟨hrest, hall⟩ := ih hwellFormed fun d hd t ht hst => hf d (by simp [hd]) t ht (hc.1.trans hst)
    have hrun : (c :: l).mapM f s = ((f c s).1 :: (l.mapM f (f c s).2).1, (l.mapM f (f c s).2).2) := by
      rw [List.mapM_cons]
      rfl
    refine ⟨⟨?_, ?_⟩, ?_⟩
    · rw [List.mapM_cons]
      exact hc.bind (hrest.settles.bind (.ret _))
    · rw [hrun]
      exact hrest.wellFormed
    · rw [hrun]
      exact .cons (fun t ht => hc.2 t (hrest.settles.1.trans ht)) hall

end Steady

/-! ## What arguments say

A parameter and an argument are taken apart at the same time, until the variable is met. The
arrays that are made when dimensions are stripped are made of types that are there, so a
second run finds them.
-/

/-- The arguments of a known type do not change. -/
theorem Extends.argsOf (h : s.Extends s') {t : TypeId} (ht : s.Knows t) : s'.argsOf t = s.argsOf t := by
  unfold TypeStore.argsOf
  rw [h.shape ht]

/-- What a known type mentions does not change. -/
theorem Extends.mentions (h : s.Extends s') (hs : s.WellFormed) {t : TypeId} (ht : s.Knows t) :
    s'.mentions t v = s.mentions t v :=
  h.mentionsWithin hs v _ ht

/-- An array without dimensions keeps its number. -/
theorem stripDims_settles (n : UInt32) (hs : s.WellFormed) {t : TypeId} (ht : s.Knows t) : Settles (stripDims t n) s := by
  unfold stripDims
  split
  · exact .ret _
  · refine .read (fun s' h => ?_) ?_
    · rw [h.shape ht]
    · split
      · rename_i e d hshape
        split
        · exact .ret _
        · split
          · exact .ret _
          · exact (array_settles hs _ (hs.knows_elem hshape)).bind (.ret _)
      · exact .ret _

/-- What an argument supplies for a variable inside a parameter stays. -/
theorem matchWithin_steady (n : Nat) (hs : s.WellFormed) {formal arg : TypeId} (hformal : s.Knows formal) (harg : s.Knows arg) :
    Steady (matchWithin v n formal arg) s := by
  induction n generalizing s formal arg with
  | zero => exact .ret hs _
  | succ n ih =>
    refine .read (fun s' h => by rw [h.shape hformal]) ?_
    split
    · rename_i base want hshape
      refine .bind hs (parameterizationWithin_settles base _ hs harg) (fun g => parameterizationOf_works base harg)
        fun p t ht hext hp => ?_
      cases p with
      | none => exact .ret ht _
      | some p =>
        refine .read (fun s' h => by rw [h.argsOf (hp p rfl)]) (.findSomeM? _ ht fun c hc u hu htu => ?_)
        obtain ⟨w, a⟩ := c
        obtain ⟨hw, ha⟩ := List.of_mem_zip hc
        have hw' := htu.knows (hext.knows (hs.knows_arg hshape hw))
        have ha' := htu.knows (ht.knows_argsOf ha)
        dsimp only
        split
        · exact .ret hu _
        · split
          · exact .ret hu _
          · refine .read (fun s' h => by rw [h.mentions hu hw']) ?_
            split
            · exact ih hu hw' ha'
            · exact .ret hu _
    · exact .ret hs _

/-- What an argument supplies for a variable inside a parameter stays. -/
theorem matchArg_steady (hs : s.WellFormed) {formal arg : TypeId} (hformal : s.Knows formal) (harg : s.Knows arg) :
    Steady (matchArg v formal arg) s :=
  matchWithin_steady _ hs hformal harg

/-- An array type is the type itself, or a type that is an array. -/
theorem array_made {e : TypeId} (d : UInt32) (he : s.Knows e) {g : Guard} :
    Works (growth g) (array e d) s fun t s' => t = e ∨ (s'.shape t).isArray := by
  refine Works.of_sound fun hs => ?_
  unfold array
  split
  · exact Works.ret (.inl rfl)
  · refine Works.read ?_
    split
    · exact Works.ret (.inl rfl)
    · rename_i y k hshape
      have hrefers : s.Refers s.shapes.size (.array y (d + k)) := ⟨hs.1.knows_elem hshape, hs.1.elem hshape⟩
      exact (intern_works (.inl rfl) hrefers).mono fun t s' _ _ h => .inr (by rw [h]; rfl)
    · rename_i hbad harray
      have hrefers : s.Refers s.shapes.size (.array e d) := by
        refine ⟨he, ?_, by simpa [isBad] using hbad⟩
        cases h : s.shape e <;> simp_all [TypeShape.isArray]
      exact (intern_works (.inl rfl) hrefers).mono fun t s' _ _ h => .inr (by rw [h]; rfl)

/-- An array without some of its dimensions is known before, or it is an array. -/
theorem stripDims_made (n : UInt32) {t : TypeId} (ht : s.Knows t) {g : Guard} :
    Works (growth g) (stripDims t n) s fun r s' => ∀ u ∈ r, s.Knows u ∨ (s'.shape u).isArray := by
  refine Works.of_sound fun hs => ?_
  unfold stripDims
  split
  · exact Works.ret (by simpa using .inl ht)
  · refine Works.read ?_
    split
    · rename_i e d hshape
      have he := hs.1.knows_elem hshape
      split
      · exact Works.ret (by simp)
      · split
        · exact Works.ret (by simpa using .inl he)
        · refine (array_made _ he).bind fun u s' _ _ hu => Works.ret ?_
          simpa using hu.imp_left fun h => h ▸ he
    · exact Works.ret (by simp)

/-- Whether a type is the null type or bad, and what its wrapper class is, is said of an array
before it is made, too. -/
theorem Extends.direct_eq (h : s.Extends s') {t : TypeId} (ht : s.Knows t ∨ (s'.shape t).isArray) :
    s'.isNull t = s.isNull t ∧ s'.isBad t = s.isBad t ∧ s'.boxed t = s.boxed t := by
  by_cases hk : s.Knows t
  · refine ⟨h.isNull hk, h.isBad hk, ?_⟩
    unfold boxed box
    rw [h.isPrimitive hk, h.shape hk]
  · obtain ⟨e, d, hshape⟩ : ∃ e d, s'.shape t = .array e d := by
      have harray := ht.resolve_left hk
      cases hshape : s'.shape t <;> simp_all [TypeShape.isArray]
    have habsent : s.shape t = .absent := by
      unfold shape Array.getD
      split
      · rfl
      · exact dif_neg hk
    simp [TypeStore.isNull, TypeStore.isBad, boxed, TypeStore.isPrimitive, TypeShape.isPrimitive, hshape, habsent]

/-- What an argument supplies for a variable that is the parameter, or its element type,
stays. -/
theorem matchDirect_steady (hs : s.WellFormed) {formal arg : TypeId} (hformal : s.Knows formal) (harg : s.Knows arg) :
    Steady (matchDirect v formal arg) s := by
  -- whether an array is null is asked of the store from before the array is made
  have hrun {u : TypeStore} (hu : s.Extends u) : matchDirect v formal arg u = (if s.baseElem formal ≠ v then pure none
      else stripDims arg (s.dimsOf formal) >>= fun r =>
        r.elim (pure none) fun t => if u.isNull t || u.isBad t then pure none else pure (some (u.boxed t))) u := by
    have hbase : u.baseElem formal = s.baseElem formal := by simp only [baseElem, hu.shape hformal]
    have hdims : u.dimsOf formal = s.dimsOf formal := by simp only [dimsOf, hu.shape hformal]
    unfold matchDirect
    rw [get_bind_apply, hbase, hdims]
    split
    · rfl
    · refine congrFun (bind_congr fun r => ?_) u
      cases r <;> rfl
  refine .of_works hs ?_ fun g => matchDirect_works (g := g) v formal harg
  by_cases hother : s.baseElem formal ≠ v
  · have hnone {u : TypeStore} (hu : s.Extends u) : matchDirect v formal arg u = (none, u) := by
      rw [hrun hu, if_pos hother]
      rfl
    refine ⟨?_, fun u hu => ?_⟩
    · rw [hnone (.refl s)]
      exact .refl s
    · rw [hnone (.refl s)] at hu ⊢
      exact hnone hu
  · obtain ⟨-, hext, hmade⟩ := hs.run fun g => stripDims_made (g := g) (s.dimsOf formal) harg
    obtain ⟨-, hagain⟩ := stripDims_settles (s.dimsOf formal) hs harg
    have hvalue {u u' : TypeStore} (hu : s.Extends u) {r : Option TypeId} (hr : stripDims arg (s.dimsOf formal) u = (r, u'))
        (hsame : ∀ t ∈ r, u.isNull t = s.isNull t ∧ u.isBad t = s.isBad t ∧ u.boxed t = s.boxed t) :
        matchDirect v formal arg u = (r.bind fun t => if s.isNull t || s.isBad t then none else some (s.boxed t), u') := by
      rw [hrun hu, if_neg hother, bind_of_eq hr]
      cases r with
      | none => rfl
      | some t =>
        obtain ⟨hnull, hbad, hboxed⟩ := hsame t rfl
        simp only [Option.elim, Option.bind, hnull, hbad, hboxed]
        split <;> rfl
    have hfirst := hvalue (.refl s) rfl fun _ _ => ⟨rfl, rfl, rfl⟩
    unfold Settles
    rw [hfirst]
    refine ⟨hext, fun u hu => hvalue (hext.trans hu) (hagain u hu) fun t ht => (hext.trans hu).direct_eq ?_⟩
    refine (hmade t ht).imp_right fun harray => ?_
    rwa [hu.shape (denotes_of_isArray harray).knows]

end TypeStore

/-! ## What is inferred

The search among the arguments stops at the first one that says something, so steadiness of
the search needs that the ones in front still say nothing.
-/

/-- What known arguments say does not change. -/
theorem Formals.Known.evidence {f : Formals} (hf : f.Known s) (h : s.Extends s') (hs : s.WellFormed) (exprs : List Expr)
    (args : List TypeId) : f.evidence s' v exprs args = f.evidence s v exprs args := by
  unfold Formals.evidence
  refine List.filterMap_congr fun p _ => ?_
  obtain ⟨⟨expr, type⟩, k⟩ := p
  dsimp only
  cases hformal : f.formalAt? k args.length with
  | none => rfl
  | some formal => simp only [h.mentions hs (hf.formalAt? hformal)]

namespace Evidence

variable {e : Evidence}

theorem ofClassLiteral_steady (hs : s.WellFormed) (he : e.Known s) : Steady (e.ofClassLiteral v) s := by
  have hden := he.expr.2
  unfold ofClassLiteral
  split
  · rename_i t hform
    rw [hform] at hden
    change s.Knows t at hden
    split
    · refine .read (fun s' h => ?_) ?_
      · rw [(h.direct_eq (.inl hden)).2.2]
      · have hboxed : ∀ a ∈ [TypeArg.exact (s.boxed t)], s.Knows a.type := fun a ha => by
          rw [List.mem_singleton.mp ha]
          exact hs.knows_boxed hden
        have hclass : (s.shape .class_).isDeclared := by
          rw [hs.shape_class]
          rfl
        refine .bind hs (apply_settles hclass hboxed) (fun g => apply_works hclass hboxed) fun cls t ht hext hcls => ?_
        exact matchArg_steady ht (hext.knows he.formal) hcls.1.knows
    · exact .ret hs _
  · exact .ret hs _

theorem ofCreation_steady (hs : s.WellFormed) (he : e.Known s) : Steady (e.ofCreation v) s := by
  have hden := he.expr.2
  unfold ofCreation
  split
  · rename_i t hform
    rw [hform] at hden
    split
    · exact matchArg_steady hs he.formal hden
    · exact .ret hs _
  · exact .ret hs _

end Evidence

namespace Method

variable {m : Method} {exprs : List Expr} {args : List TypeId} {site : Site}

/-- A search among known arguments stays. -/
theorem findEvidence_steady {ev : List Evidence} {f : Evidence → TypeM (Option TypeId)} (hs : s.WellFormed)
    (hev : ∀ e ∈ ev, e.Known s) (hf : ∀ e t, t.WellFormed → e.Known t → Steady (f e) t) : Steady (ev.findSomeM? f) s :=
  .findSomeM? _ hs fun e he t ht hst => hf e t ht ((hev e he).grows hst.toGrows)

/-- What the arguments of a call suggest stays. -/
theorem infer_steady (hs : s.WellFormed) (hm : m.Known s) (hexprs : ∀ e ∈ exprs, KnowsExpr s e) (hargs : ∀ t ∈ args, s.Knows t) :
    Steady (m.infer v exprs args) s := by
  unfold infer
  refine .bind hs (declaredFormals_settles hs hm.params) (fun g => declaredFormals_works hm.params) fun f t ht hext hf => ?_
  refine .read (fun s' h => by rw [hf.1.evidence h ht]) ?_
  have hev : ∀ e ∈ f.evidence t v exprs args, e.Known t := fun e he =>
    f.evidence_known hf.1 (fun e he => (hexprs e he).grows hext.toGrows) (fun a ha => hext.knows (hargs a ha)) he
  dsimp only
  generalize f.evidence t v exprs args = ev at hev
  -- each search runs in a later store, in which the evidence is still known
  refine (findEvidence_steady ht hev fun e u hu he => Evidence.ofClassLiteral_steady hu he).andThen fun r t₁ ht₁ hext₁ => ?_
  cases r with
  | some a => exact .ret ht₁ _
  | none =>
    have hev₁ : ∀ e ∈ ev, e.Known t₁ := fun e he => (hev e he).grows hext₁.toGrows
    refine (findEvidence_steady ht₁ hev₁ fun e u hu he => Evidence.ofCreation_steady hu he).andThen fun r t₂ ht₂ hext₂ => ?_
    cases r with
    | some a => exact .ret ht₂ _
    | none =>
      have hev₂ : ∀ e ∈ ev, e.Known t₂ := fun e he => (hev₁ e he).grows hext₂.toGrows
      refine (findEvidence_steady ht₂ hev₂ fun e u hu he => matchDirect_steady hu he.formal he.type).andThen
        fun r t₃ ht₃ hext₃ => ?_
      cases r with
      | some a => exact .ret ht₃ _
      | none =>
        have hev₃ : ∀ e ∈ ev, e.Known t₃ := fun e he => (hev₂ e he).grows hext₃.toGrows
        exact findEvidence_steady ht₃ hev₃ fun e u hu he => matchArg_steady hu he.formal he.type

/-- What stands for a type variable stays. -/
theorem inferOrErase_steady (hs : s.WellFormed) (hm : m.Known s) (hv : s.Knows v) (hexprs : ∀ e ∈ exprs, KnowsExpr s e)
    (hargs : ∀ t ∈ args, s.Knows t) : Steady (m.inferOrErase exprs args v) s := by
  refine (infer_steady hs hm hexprs hargs).andThen fun r t ht hext => ?_
  cases r with
  | some a => exact .ret ht _
  | none => exact .of_works ht (erasure_settles ht (hext.knows hv)) fun g => erasure_works (hext.knows hv)

/-- An exception of a call stays. -/
theorem thrownType_steady (hs : s.WellFormed) (hm : m.Known s) (hsite : KnowsArgs s site) (hargs : ∀ t ∈ args, s.Knows t)
    {ex : TypeId} (hex : s.Knows ex) : Steady (m.thrownType site args ex) s := by
  refine .read (fun s' h => by rw [h.typeVariable hs hex]) ?_
  split
  · exact .ret hs _
  · split
    · exact inferOrErase_steady hs hm hex hsite.args hargs
    · exact .of_works hs (erasure_settles hs hex) fun g => erasure_works hex

/-! ## Exceptions that are returned

The type of the call and the exception are both what stands for the variable.
-/

/-- A method returns a value of one of its type variables. -/
structure Returns (m : Method) (s : TypeStore) (v : TypeId) : Prop where
  /-- It is a method. -/
  notConstructor : m.isConstructor = false
  /-- It is not the method whose calls are typed by their receivers. -/
  notGetClass : m.isGetClass = false
  /-- The type variable is its own. -/
  own : v ∈ m.typeParams
  /-- The type variable. -/
  isVariable : ∃ x, s.typeVariable? v = some x ∧ x.method ≠ 0
  /-- What it returns. -/
  returns : m.returns = v

/-- The type variable is mapped to what stands for it. -/
theorem lookup_zip_exact {R : TypeId → TypeId → Prop} {params actual : List TypeId} (h : List.Forall₂ R params actual)
    (hv : v ∈ params) : ∃ T ∈ actual, R v T ∧ (params.zip (actual.map TypeArg.exact)).lookup v = some (TypeArg.exact T) := by
  induction h with
  | nil => simp at hv
  | @cons p T params actual hp _ ih =>
    rw [List.map_cons, List.zip_cons_cons, List.lookup_cons]
    by_cases heq : v = p
    · subst heq
      exact ⟨T, by simp, hp, by simp⟩
    · rw [beq_false_of_ne heq]
      obtain ⟨T, hT, h⟩ := ih ((List.mem_cons.mp hv).resolve_left heq)
      exact ⟨T, List.mem_cons_of_mem _ hT, h⟩

/-- A type variable that is mapped to a type is replaced by it. -/
theorem subst_of_lookup {params : List TypeId} {actual : List TypeArg} (hv : (s.shape v).isVariable) {T : TypeId} (hT : T.isSome)
    (h : (params.zip actual).lookup v = some (.exact T)) : subst v params actual s = (T, s) := by
  obtain ⟨slot, hslot⟩ := shape_of_isVariable hv
  have hparams : params ≠ [] := by
    rintro rfl
    simp at h
  have hactual : actual ≠ [] := by
    rintro rfl
    simp at h
  unfold subst termDepth substWithin
  rw [if_neg (by simp [hparams, hactual]), get_bind_apply, hslot, h]
  simp [argUpper, TypeArg.exact, hT]
  rfl

/-- In a call without type arguments, the type variable is replaced by what stands for it from
then on. -/
theorem Returns.instantiatedReturn (h : m.Returns s v) (hs : s.WellFormed) (hm : m.Known s) (hsite : KnowsArgs s site)
    (hargs : ∀ t ∈ args, s.Knows t) (hcount : site.typeArgs.length ≠ m.typeParams.length) :
    ∃ T t, t.WellFormed ∧ s.Extends t ∧ t.Knows T ∧ (∀ u, t.Extends u → m.inferOrErase site.args args v u = (T, u)) ∧
      (m.instantiatedReturn site args s).2.WellFormed ∧ t.Extends (m.instantiatedReturn site args s).2 ∧
        (T.isSome → m.instantiatedReturn site args s = (T, t)) := by
  have hknows {t : TypeStore} (hst : s.Extends t) {x : TypeId} (hx : x ∈ m.typeParams) (ht : t.WellFormed) :
      Steady (m.inferOrErase site.args args x) t :=
    inferOrErase_steady ht (hm.grows hst.toGrows) (hst.knows (hm.typeParams x hx)) (hsite.grows hst.toGrows).args
      fun a ha => hst.knows (hargs a ha)
  obtain ⟨hsteady, hall⟩ := Steady.forall₂_mapM m.typeParams hs fun x hx t ht hst => hknows hst hx ht
  have hrun : m.instantiatedReturn site args s =
      subst v m.typeParams (((m.typeParams.mapM (m.inferOrErase site.args args)) s).1.map .exact)
        ((m.typeParams.mapM (m.inferOrErase site.args args)) s).2 := by
    have hany : m.typeParams.any (s.mentions m.returns) := List.any_eq_true.mpr ⟨v, h.own, h.returns ▸ mentions_self s v⟩
    unfold Method.instantiatedReturn
    rw [get_bind_apply, hany, if_neg (by simp), if_neg hcount, ← h.returns]
    rfl
  obtain ⟨-, -, -, hknown⟩ := hs.run fun g => Works.mapM (P := fun t u => u.Knows t) m.typeParams
    (fun _ _ _ hl => (growth_grows hl).knows) fun x hx u _ hl => by
      have hg := growth_grows hl
      exact inferOrErase_works (hm.grows hg) (hg.knows (hm.typeParams x hx)) (hsite.grows hg).args fun a ha => hg.knows (hargs a ha)
  rw [hrun]
  obtain ⟨hext, -⟩ := hsteady.settles
  have ht := hsteady.wellFormed
  generalize m.typeParams.mapM (m.inferOrErase site.args args) s = r at hall hknown hext ht ⊢
  obtain ⟨actual, t⟩ := r
  obtain ⟨T, hT, hlater, hlookup⟩ := lookup_zip_exact hall h.own
  have hknows : t.Knows v := hext.knows (hm.typeParams v h.own)
  have hvariable : (t.shape v).isVariable := by
    obtain ⟨x, hx, -⟩ := h.isVariable
    rw [hext.shape (hm.typeParams v h.own)]
    unfold typeVariable? at hx
    cases hshape : s.shape v <;> simp_all [TypeShape.isVariable]
  obtain ⟨hwellFormed, hend, -⟩ := ht.run fun g => subst_works (fun a ha => knows_exact hknown ha) hknows
  exact ⟨T, t, ht, hext, hknown T hT, hlater, hwellFormed, hend, fun hsome => subst_of_lookup hvariable hsome hlookup⟩

/-- In a call without type arguments, what stands for the type variable from then on is the
type of the call, unless it is a type variable of the declaring class. -/
theorem Returns.callType (h : m.Returns s v) (hs : s.WellFormed) (hm : m.Known s) (hsite : KnowsArgs s site)
    (hargs : ∀ t ∈ args, s.Knows t) (hcount : site.typeArgs.length ≠ m.typeParams.length) {recv : TypeId} (hrecv : s.Knows recv)
    (qualified : Bool) : ∃ T, (m.callType false recv qualified site args s).2.Knows T ∧
      (∀ u, (m.callType false recv qualified site args s).2.Extends u → m.inferOrErase site.args args v u = (T, u)) ∧
        (T.isSome → ¬ (m.callType false recv qualified site args s).2.HasVariableOf m.owner T →
          (m.callType false recv qualified site args s).1 = T) := by
  obtain ⟨T, t, ht, hst, hT, hlater, hwellFormed, hext, hreturn⟩ := h.instantiatedReturn hs hm hsite hargs hcount
  have hrun : m.callType false recv qualified site args s = substOwner (m.instantiatedReturn site args s).1 m.owner recv qualified
      (m.instantiatedReturn site args s).2 := by
    unfold Method.callType
    simp only [h.notConstructor, h.notGetClass, Bool.false_and]
    rw [if_neg Bool.false_ne_true, get_bind_apply]
    simp only [Bool.false_eq_true, if_false]
    rfl
  obtain ⟨-, -, hret⟩ := hs.run fun g => instantiatedReturn_works (g := g) hm hsite hargs
  have hend : (m.instantiatedReturn site args s).2.Extends (m.callType false recv qualified site args s).2 := by
    rw [hrun]
    exact (hwellFormed.run fun g => substOwner_works hret ((hst.trans hext).knows hrecv) qualified).2.1
  refine ⟨T, (hext.trans hend).knows hT, fun u hu => hlater u ((hext.trans hend).trans hu), fun hsome hforeign => ?_⟩
  rw [(hext.trans hend).hasVariableOf ht hT] at hforeign
  rw [hrun, hreturn hsome, substOwner_of_not_hasVariableOf hforeign]

/-- What a call raises for the type variable is what stands for it. -/
theorem Returns.thrownType (h : m.Returns s v) (hs : s.WellFormed) (hm : m.Known s) (hext : s.Extends s') {T : TypeId}
    (hT : m.inferOrErase site.args args v s' = (T, s')) : m.thrownType site args v s' = (T, s') := by
  obtain ⟨x, hx, hmethod⟩ := h.isVariable
  unfold Method.thrownType
  rw [get_bind_apply, hext.typeVariable hs (hm.typeParams v h.own), hx]
  dsimp only
  rw [if_pos hmethod, hT]

/-- What a call raises for a declared exception that stands for a type from then on. -/
theorem getElem?_mapM_thrownType (hs : s.WellFormed) (hm : m.Known s) (hsite : KnowsArgs s site) (hargs : ∀ t ∈ args, s.Knows t)
    {i : Nat} {ex T : TypeId} (hex : m.throws[i]? = some ex)
    (hT : ∀ u, s.Extends u → m.thrownType site args ex u = (T, u)) :
    (m.throws.mapM (m.thrownType site args) s).1[i]? = some T := by
  obtain ⟨hsteady, hall⟩ := Steady.forall₂_mapM (f := m.thrownType site args) m.throws hs fun ex hex t ht hst =>
    thrownType_steady ht (hm.grows hst.toGrows) (hsite.grows hst.toGrows) (fun a ha => hst.knows (hargs a ha))
      (hst.knows (hm.throws ex hex))
  have hlt : i < (m.throws.mapM (m.thrownType site args) s).1.length :=
    hall.length_eq ▸ (List.getElem?_eq_some_iff.mp hex).1
  have hat := List.getElem?_eq_getElem hlt
  have hvalue := List.forall₂_zip hall (List.mem_of_getElem? (List.getElem?_zip_eq_some.mpr ⟨hex, hat⟩))
  have heq := (hvalue _ (.refl _)).symm.trans (hT _ hsteady.settles.1)
  exact hat.trans (congrArg some (Prod.mk.inj heq).1)

end Method

end CallResolution
