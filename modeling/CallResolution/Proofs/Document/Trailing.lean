import CallResolution.Proofs.Document.Inference

/-!
# Calls that pack trailing arguments

A method of variable arity may have one type variable, the type of the elements of its last
parameter, and return a value of it. The variable stands for the class type that all trailing
arguments of a call have. But what parameter a trailing argument belongs to is taken from the
number of arguments alone: where there are as many arguments as parameters, the last one
counts as the array itself. So nothing is read off a single trailing argument that a call
packs, and the variable is erased.

Main statements: `trailing_inferred` and `trailing_lost`.
-/

namespace CallResolution

open Session Universe

namespace Method

variable {m : Method} {v S : TypeId} {s s' : TypeStore}

/-- A method with one type variable takes any number of values of it, after arguments of types
that do not mention it, and returns one. So nothing but the trailing arguments says what the
variable stands for. -/
structure Gathers (m : Method) (s : TypeStore) (v : TypeId) : Prop where
  /-- It is a method. -/
  notConstructor : m.isConstructor = false
  /-- It has variable arity. -/
  variadic : m.flags.isVariadic = true
  /-- The type variable. -/
  typeParams : m.typeParams = [v]
  /-- What it takes first. -/
  fixed : ∀ p ∈ m.params.dropLast, ¬ s.mentions p v
  /-- What it takes then. -/
  last : ∃ p, m.params.getLast? = some p ∧ s.shape p = .array v 1
  /-- What it returns. -/
  returns : m.returns = v

/-- Such a method returns a value of its type variable. -/
theorem Gathers.yields (h : m.Gathers s v) : m.Yields v where
  notConstructor := h.notConstructor
  typeParams := h.typeParams
  takes := by
    obtain ⟨p, hp, -⟩ := h.last
    rintro hnil
    simp [hnil] at hp
  returns := h.returns

/-- What is said of such a method was so before. -/
theorem Gathers.of_later {m' : Method} (h : m'.Gathers s' v) (hlater : m.Later m') (hm : m.isResolved) (hext : s.Extends s')
    (hs : s.WellFormed) (hknown : m.Known s) : m.Gathers s v := by
  obtain ⟨-, hparams, hreturns, -, htypeParams⟩ := hlater.resolved hm
  refine ⟨?_, ?_, htypeParams ▸ h.typeParams, fun p hp => ?_, ?_, hreturns ▸ h.returns⟩
  · rw [← h.notConstructor, isConstructor, isConstructor, hlater.kind]
  · rw [← h.variadic, hlater.flags]
  · rw [← hparams] at hp
    rw [TypeStore.mentions, ← hext.mentionsWithin hs v _ (hknown.params p (List.mem_of_mem_dropLast (hparams ▸ hp)))]
    exact h.fixed p hp
  · obtain ⟨p, hp, hshape⟩ := h.last
    rw [hparams] at hp
    exact ⟨p, hp, by rwa [← hext.shape (hknown.params p (List.mem_of_getLast? hp))]⟩

/-- The parameters that such a method offers. -/
theorem Gathers.declaredFormals (h : m.Gathers s v) :
    m.declaredFormals s = ({ params := m.params, isVariadic := true, element := v }, s) := by
  obtain ⟨p, hp, hshape⟩ := h.last
  have hcomponent : TypeStore.component p s = (v, s) := by
    unfold TypeStore.component
    rw [get_bind_apply, hshape]
    rfl
  unfold Method.declaredFormals Formals.ofParams
  rw [h.variadic, hp]
  dsimp only
  rw [bind_of_eq hcomponent]
  rfl

/-- An argument that says something of the type variable is a trailing one. Its parameter is
the variable, unless the number of arguments lets it pass for the array itself. -/
theorem Gathers.formal_of_mem_evidence (h : m.Gathers s v) {exprs : List Expr} {args : List TypeId} {e : Evidence}
    (he : e ∈ Formals.evidence s { params := m.params, isVariadic := true, element := v } v exprs args) :
    ∃ k, m.params.length - 1 ≤ k ∧ exprs[k]? = some e.expr ∧ args[k]? = some e.type ∧
      if args.length = m.params.length then s.shape e.formal = .array v 1 else e.formal = v := by
  obtain ⟨k, hexpr, htype, hformal, hmentions⟩ := Formals.mem_evidence.mp he
  obtain ⟨p, hp, hshape⟩ := h.last
  have hlast : m.params[m.params.length - 1]? = some p := List.getLast?_eq_getElem? ▸ hp
  have hpositive : 0 < m.params.length := List.length_pos_iff.mpr h.yields.takes
  have hlt : k < args.length := (List.getElem?_eq_some_iff.mp htype).1
  have htrailing : m.params.length - 1 ≤ k := by
    by_contra hfixed
    simp only [Formals.formalAt?, hfixed] at hformal
    have hmem : m.params.dropLast[k]? = some e.formal := by
      rw [List.getElem?_dropLast, if_pos (by omega)]
      simpa using hformal
    exact h.fixed _ (List.mem_of_getElem? hmem) hmentions
  refine ⟨k, htrailing, hexpr, htype, ?_⟩
  unfold Formals.formalAt? at hformal
  split
  · rename_i hsame
    obtain rfl : k = m.params.length - 1 := by omega
    simp only [hsame, hlast] at hformal
    simp at hformal
    rwa [← hformal]
  · rename_i hother
    simp [hother, hpositive, htrailing] at hformal
    exact hformal.symm

/-- What trailing arguments of a class type say: it stands for the type variable, unless the
number of arguments lets a single one pass for the array itself. -/
theorem Gathers.infer (h : m.Gathers s v) (hv : (s.shape v).isVariable) (hS : (s.classOf S).isSome) {exprs : List Expr}
    {typeOf : Expr → TypeId} (hlength : m.params.length ≤ exprs.length)
    (htrailing : ∀ e ∈ exprs.drop (m.params.length - 1), (∀ t, e.form ≠ .classLiteral t) ∧ typeOf e = S) :
    m.infer v exprs (exprs.map typeOf) s = (if exprs.length = m.params.length then none else some S, s) := by
  have hreference := TypeStore.isReference_of_classOf hS
  have harray : ¬ (s.shape S).isArray := by
    unfold TypeStore.classOf at hS
    cases hshape : s.shape S <;> simp_all [TypeShape.isArray, TypeId.isSome]
  obtain ⟨slot, hslot⟩ := TypeStore.shape_of_isVariable hv
  obtain ⟨p, hp, hshape⟩ := h.last
  have hpositive : 0 < m.params.length := List.length_pos_iff.mpr h.yields.takes
  -- what the evidence is
  have hevidence {e : Evidence} (he : e ∈ Formals.evidence s { params := m.params, isVariadic := true, element := v } v exprs
      (exprs.map typeOf)) : e.type = S ∧ (∀ t, e.expr.form ≠ .classLiteral t) ∧
        if exprs.length = m.params.length then s.shape e.formal = .array v 1 else e.formal = v := by
    obtain ⟨k, hk, hexpr, htype, hformal⟩ := h.formal_of_mem_evidence he
    have hmem : e.expr ∈ exprs.drop (m.params.length - 1) := by
      refine List.mem_of_getElem? (i := k - (m.params.length - 1)) ?_
      rwa [List.getElem?_drop, Nat.add_sub_cancel' hk]
    obtain ⟨hplain, hS⟩ := htrailing e.expr hmem
    rw [List.getElem?_map, hexpr] at htype
    rw [List.length_map] at hformal
    exact ⟨(Option.some.inj htype).symm.trans hS, hplain, hformal⟩
  refine infer_of_plain h.declaredFormals ?_ (fun e he => ?_) fun e he => ?_
  · -- the first trailing argument
    obtain ⟨e, he⟩ : ∃ e, exprs[m.params.length - 1]? = some e := ⟨_, List.getElem?_eq_getElem (by omega)⟩
    have hlast : m.params[m.params.length - 1]? = some p := List.getLast?_eq_getElem? ▸ hp
    by_cases hsame : exprs.length = m.params.length
    · refine List.ne_nil_of_mem (a := ⟨p, e, typeOf e⟩) (Formals.mem_evidence.mpr ⟨m.params.length - 1, he, by simp [he], ?_,
        TypeStore.mentions_elem hshape⟩)
      simp [Formals.formalAt?, hsame, hlast]
    · refine List.ne_nil_of_mem (a := ⟨v, e, typeOf e⟩) (Formals.mem_evidence.mpr ⟨m.params.length - 1, he, by simp [he], ?_,
        TypeStore.mentions_self s v⟩)
      simp [Formals.formalAt?, hsame, hpositive]
  · obtain ⟨-, hplain, hformal⟩ := hevidence he
    refine ⟨fun base args => ?_, hplain⟩
    split at hformal
    · simp [hformal]
    · simp [hformal, hslot]
  · obtain ⟨rfl, -, hformal⟩ := hevidence he
    split at hformal
    · rename_i hsame
      rw [if_pos hsame]
      exact TypeStore.matchDirect_array hformal (by decide) harray
    · rename_i hother
      rw [if_neg hother, hformal]
      exact TypeStore.matchDirect_self hv hreference

end Method

namespace Session

variable {u₀ u : Universe} {site : Site} {S : TypeId} {r : Resolution} {name : String} {v search recv : TypeId} {qualified : Bool}
  {typeOf : Expr → TypeId}

/-- The type of a call with trailing arguments of one class type: that type when there are
several of them, and the root class when there is one. -/
theorem TypesCall.gathers (h : TypesCall u₀ u site (site.args.map typeOf) r name search recv qualified) (hu : u.Populated)
    (hm : (u.method r.callable).Gathers u.types v) (hv : (u.types.shape v).isVariable) (hS : (u.types.classOf S).isSome)
    (htypeArgs : site.typeArgs = []) (hlength : (u.method r.callable).params.length ≤ site.args.length)
    (htrailing : ∀ e ∈ site.args.drop ((u.method r.callable).params.length - 1),
      (∀ t, e.form ≠ .classLiteral t) ∧ typeOf e = S) :
    (site.args.length ≠ (u.method r.callable).params.length → r.type = S) ∧
      (site.args.length = (u.method r.callable).params.length → (u.types.typeVariable? v).elim [] (·.bounds) = [] →
        r.type = .object) := by
  have hlater := h.keeps.later h.resolved
  have hs := h.wellFormed.types
  have hknown := h.wellFormed.method r.callable
  have hm₀ := hm.of_later hlater h.resolved h.keeps.types hs hknown
  have hknows : u₀.types.Knows v := hm₀.returns ▸ hknown.returns
  have hv₀ : (u₀.types.shape v).isVariable := by rwa [← h.keeps.types.shape hknows]
  rw [(hlater.resolved h.resolved).2.1] at hlength htrailing ⊢
  have hpositive : 0 < (u₀.method r.callable).params.length := List.length_pos_iff.mpr hm₀.yields.takes
  -- the first trailing argument knows the type of all of them
  have hknowsS : u₀.types.Knows S := by
    obtain ⟨e, he⟩ : ∃ e, site.args[(u₀.method r.callable).params.length - 1]? = some e :=
      ⟨_, List.getElem?_eq_getElem (by omega)⟩
    have hmem : e ∈ site.args.drop ((u₀.method r.callable).params.length - 1) :=
      List.mem_of_getElem? (i := 0) (by simpa [List.getElem?_drop] using he)
    exact (htrailing e hmem).2 ▸ h.knowsArgs _ (List.mem_map_of_mem (List.mem_of_getElem? he))
  have hS₀ : (u₀.types.classOf S).isSome := by rwa [← h.keeps.types.classOf hknowsS]
  have hinfer := hm₀.infer hv₀ hS₀ hlength htrailing
  refine ⟨fun hother => ?_, fun hsame hbounds => ?_⟩
  · rw [if_neg hother] at hinfer
    rw [h.yields hu hm₀.yields hv₀ htypeArgs (Method.inferOrErase_of_infer hinfer) (TypeStore.isSome_of_classOf hS₀),
      TypeStore.substOwner_of_not_hasVariableOf (TypeStore.not_hasVariableOf_of_classOf hS₀ _)]
  · rw [if_pos hsame] at hinfer
    rw [h.keeps.types.typeVariable hs hknows] at hbounds
    have herased := (Method.inferOrErase_of_infer_none hinfer).trans (TypeStore.erasure_of_unbounded hv₀ hbounds)
    have hobject : (u₀.types.classOf .object).isSome := by
      simp [TypeStore.classOf, hs.shape_object]
      decide
    rw [h.yields hu hm₀.yields hv₀ htypeArgs herased (TypeStore.isSome_of_classOf hobject),
      TypeStore.substOwner_of_not_hasVariableOf (TypeStore.not_hasVariableOf_of_classOf hobject _)]

/-- A method call without type arguments packs plain trailing arguments of one class type, for
a method that gathers values of its type variable. All of it can be told from the site and the
universe. -/
structure PassesTrailing (u : Universe) (site : Site) (typeOf : Expr → TypeId) (v S : TypeId) : Prop where
  /-- It is a method call. -/
  isMethod : site.call.isMethod
  /-- It is bound. -/
  resolved : site.result.state = .resolved
  /-- It packs trailing arguments. -/
  wrapped : site.result.wrapped
  /-- It has no type arguments. -/
  noTypeArgs : site.typeArgs = []
  /-- The method. -/
  gathers : (u.method site.result.callable).Gathers u.types v
  /-- The type variable. -/
  isVariable : (u.types.shape v).isVariable
  /-- The class type. -/
  isClassType : (u.types.classOf S).isSome
  /-- There are trailing arguments. -/
  trailing : (u.method site.result.callable).params.length ≤ site.args.length
  /-- What they are. -/
  plain : ∀ e ∈ site.args.drop ((u.method site.result.callable).params.length - 1), e.form = .value ∧ typeOf e = S

end Session

/-! ## Along a run

The calls that pack arguments, and the one that packs a single argument.
-/

/-- A call that packs plain trailing arguments of one class type has that type when there are
several of them. With one of them, the type of the call is the root class, unless the type
variable has bounds. -/
theorem trailing_inferred (d : Document) (f : Source.File) (base : Options) (t : Turn ((d.load f).session base)) {m : Nat}
    (hm : t.place < m) {site : Site} (hsite : (((d.load f).session base).begun.before m).program.site? t.id = some site) :
    let u := (((d.load f).session base).begun.before m).world
    let arity := (u.method site.result.callable).params.length
    ∀ v S, PassesTrailing u site t.start.exprType v S → (site.args.length ≠ arity → site.result.type = S) ∧
      (site.args.length = arity → (u.types.typeVariable? v).elim [] (·.bounds) = [] → site.result.type = .object) := by
  intro u arity v S hpacks
  have hfresh := Loaded.fresh d f base
  have hpopulated : u.Populated := (Loaded.populated d f base).moves (hfresh.begun.reached m).leads.2.moves
  obtain ⟨name, recv, hcall⟩ := Call.exists_of_isMethod hpacks.isMethod
  obtain ⟨u₀, y, x, q, htypes, -⟩ := t.typed hfresh hm hsite (.inl hpacks.resolved) hcall
  exact htypes.gathers hpopulated hpacks.gathers hpacks.isVariable hpacks.isClassType hpacks.noTypeArgs hpacks.trailing
    fun e he => ⟨by simp [(hpacks.plain e he).1], (hpacks.plain e he).2⟩

/-- A class with a method that takes any number of values of its type variable, and calls of
it: with two of them, and with one. -/
def trailingDocument : Document where
  classes := [
    .mk { name := "p.A", methods := [{ name := "m", typeParams := ["T"], params := ["int", "T..."], returns := "T" }] } []]
  program := [
    { id := "a", cls := "p.A", call := "m", args := [{ type := "int" }, { type := "String" }, { type := "String" }] },
    { id := "b", cls := "p.A", call := "m", args := [{ type := "int" }, { type := "String" }] }]

instance (m : Method) (s : TypeStore) (v : TypeId) : Decidable (m.Gathers s v) :=
  decidable_of_iff (m.isConstructor = false ∧ m.flags.isVariadic = true ∧ m.typeParams = [v] ∧
      (∀ p ∈ m.params.dropLast, ¬ s.mentions p v) ∧ (m.params.getLast?.any fun p => s.shape p = .array v 1) ∧ m.returns = v)
    ⟨fun h => ⟨h.1, h.2.1, h.2.2.1, h.2.2.2.1, by simpa [Option.any_eq_true] using h.2.2.2.2.1, h.2.2.2.2.2⟩,
      fun h => ⟨h.notConstructor, h.variadic, h.typeParams, h.fixed, by simpa [Option.any_eq_true] using h.last, h.returns⟩⟩

instance (u : Universe) (site : Site) (typeOf : Expr → TypeId) (v S : TypeId) : Decidable (PassesTrailing u site typeOf v S) :=
  decidable_of_iff (site.call.isMethod ∧ site.result.state = .resolved ∧ site.result.wrapped ∧ site.typeArgs = [] ∧
      (u.method site.result.callable).Gathers u.types v ∧ (u.types.shape v).isVariable ∧ (u.types.classOf S).isSome ∧
      (u.method site.result.callable).params.length ≤ site.args.length ∧
      ∀ e ∈ site.args.drop ((u.method site.result.callable).params.length - 1), e.form = .value ∧ typeOf e = S)
    ⟨fun h => ⟨h.1, h.2.1, h.2.2.1, h.2.2.2.1, h.2.2.2.2.1, h.2.2.2.2.2.1, h.2.2.2.2.2.2.1, h.2.2.2.2.2.2.2.1, h.2.2.2.2.2.2.2.2⟩,
      fun h => ⟨h.isMethod, h.resolved, h.wrapped, h.noTypeArgs, h.gathers, h.isVariable, h.isClassType, h.trailing, h.plain⟩⟩

/-- Whether the call of a turn packs trailing arguments of a class type by then, and has
something more. -/
def Session.Turn.passesTrailing {st : Session} (t : Turn st) (m : Nat) (p : Universe → Site → TypeId → Bool) : Bool :=
  let u := (st.begun.before m).world
  ((st.begun.before m).program.site? t.id).any fun site =>
    (u.method site.result.callable).typeParams.any fun v => (site.args.getLast?.map t.start.exprType).any fun S =>
      decide (t.place < m ∧ PassesTrailing u site t.start.exprType v S) && p u site S

/-- The call of such a turn. -/
theorem Session.Turn.exists_of_passesTrailing {st : Session} {t : Turn st} {m : Nat} {p : Universe → Site → TypeId → Bool}
    (h : t.passesTrailing m p) : ∃ site v S, (st.begun.before m).program.site? t.id = some site ∧ t.place < m ∧
      PassesTrailing (st.begun.before m).world site t.start.exprType v S ∧ p (st.begun.before m).world site S := by
  obtain ⟨site, hsite, h⟩ := (Option.any_eq_true _ _).mp h
  obtain ⟨v, -, h⟩ := List.any_eq_true.mp h
  obtain ⟨S, -, h⟩ := (Option.any_eq_true _ _).mp h
  obtain ⟨hpacks, h⟩ := Bool.and_eq_true_iff.mp h
  exact ⟨site, v, S, hsite, (of_decide_eq_true hpacks).1, (of_decide_eq_true hpacks).2, h⟩

theorem trailingDocument_passes :
    let st := (trailingDocument.load blankFile).session {}
    (st.turnAt? 0).any (fun t => t.passesTrailing 2 fun u site _ =>
      decide (site.args.length ≠ (u.method site.result.callable).params.length)) ∧
    (st.turnAt? 1).any (fun t => t.passesTrailing 2 fun _ site S => decide (site.result.type ≠ S)) := by
  decide +kernel

/-- Two trailing arguments say what the type of the call is. -/
theorem trailing_kept :
    let st := (trailingDocument.load blankFile).session {}
    ∃ (t : Turn st) (site : Site) (v S : TypeId), (st.begun.before 2).program.site? t.id = some site ∧
      PassesTrailing (st.begun.before 2).world site t.start.exprType v S ∧ site.result.type = S := by
  obtain ⟨hkept, -⟩ := trailingDocument_passes
  have hinferred := trailing_inferred trailingDocument blankFile {}
  generalize (trailingDocument.load blankFile).session {} = st at hkept hinferred ⊢
  obtain ⟨t, -, ht⟩ := (Option.any_eq_true _ _).mp hkept
  obtain ⟨site, v, S, hsite, hm, hpacks, hseveral⟩ := Turn.exists_of_passesTrailing ht
  exact ⟨t, site, v, S, hsite, hpacks, (hinferred t hm hsite v S hpacks).1 (of_decide_eq_true hseveral)⟩

/-- A single trailing argument does not say it. There are as many arguments as parameters
then, so it is compared with the array. -/
theorem trailing_lost : ¬ ∀ (d : Document) (f : Source.File) (base : Options) (t : Turn ((d.load f).session base)) (m : Nat)
    (site : Site) (v S : TypeId), t.place < m → (((d.load f).session base).begun.before m).program.site? t.id = some site →
      PassesTrailing (((d.load f).session base).begun.before m).world site t.start.exprType v S → site.result.type = S := by
  intro h
  obtain ⟨-, hlost⟩ := trailingDocument_passes
  have hkept := h trailingDocument blankFile {}
  generalize (trailingDocument.load blankFile).session {} = st at hlost hkept
  obtain ⟨t, -, ht⟩ := (Option.any_eq_true _ _).mp hlost
  obtain ⟨site, v, S, hsite, hm, hpacks, hlost⟩ := Turn.exists_of_passesTrailing ht
  exact of_decide_eq_true hlost (hkept t 2 site v S hm hsite hpacks)

end CallResolution
