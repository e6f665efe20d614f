import CallResolution.Proofs.Document.Program
import CallResolution.Proofs.Members.Parameters
import CallResolution.Proofs.Resolve.Inferred
import CallResolution.Proofs.Resolve.Masking
import CallResolution.Proofs.Resolve.Stages

/-!
# Calls of identity methods

A method with one type variable that takes a value of the variable and returns one has the
type of the argument in a call: the variable stands for the type of the argument. The result
is then looked at once more as one of the declaring class, whose type variables are replaced
by what the receiver supplies for them. A type variable of the class that came in with the
argument is replaced as well, although it is not a part of what the method is declared to
return.

So an argument of such a type keeps its type in a call by name alone that the declaring class
itself answers, and others keep theirs in all calls.

Main statements: `identity_inferred` and `identity_lost`.
-/

namespace CallResolution

open Session Universe

/-! ## The type of the call

What the call of an identity method has as its type, in the universe in which it was worked
out.
-/

namespace Method

variable {m : Method} {v : TypeId} {s : TypeStore}

/-- A method with one type variable takes a value of it, and returns one. So nothing but the
argument says what the variable stands for. -/
structure IsIdentity (m : Method) (v : TypeId) : Prop where
  /-- It is a method. -/
  notConstructor : m.isConstructor = false
  /-- It takes one argument. -/
  notVariadic : m.flags.isVariadic = false
  /-- The type variable. -/
  typeParams : m.typeParams = [v]
  /-- What it takes. -/
  params : m.params = [v]
  /-- What it returns. -/
  returns : m.returns = v

/-- What is said of such a method stays. -/
theorem IsIdentity.of_later {m' : Method} (h : m'.IsIdentity v) (hlater : m.Later m') (hm : m.isResolved) : m.IsIdentity v := by
  obtain ⟨-, hparams, hreturns, -, htypeParams⟩ := hlater.resolved hm
  refine ⟨?_, ?_, htypeParams ▸ h.typeParams, hparams ▸ h.params, hreturns ▸ h.returns⟩
  · rw [← h.notConstructor, isConstructor, isConstructor, hlater.kind]
  · rw [← h.notVariadic, hlater.flags]

/-- Such a method returns a value of its type variable. -/
theorem IsIdentity.yields (h : m.IsIdentity v) : m.Yields v where
  notConstructor := h.notConstructor
  typeParams := h.typeParams
  takes := by simp [h.params]
  returns := h.returns

/-- The argument says what the variable stands for. -/
theorem IsIdentity.infer (h : m.IsIdentity v) (hv : (s.shape v).isVariable) {S : TypeId} (hS : s.isReference S) {e : Expr}
    (he : ∀ t, e.form ≠ .classLiteral t) : m.infer v [e] [S] s = (some S, s) := by
  have hformals : m.declaredFormals s = ({ params := [v] }, s) := by
    simp [declaredFormals, Formals.ofParams, h.notVariadic, h.params]
    rfl
  have hevidence : Formals.evidence s { params := [v] } v [e] [S] = [⟨v, e, S⟩] := by
    simp [Formals.evidence, Formals.formalAt?, TypeStore.mentions_self]
  obtain ⟨slot, hslot⟩ := TypeStore.shape_of_isVariable hv
  have hplain : Evidence.Plain s ⟨v, e, S⟩ := ⟨by simp [hslot], he⟩
  refine infer_of_plain hformals (by simp [hevidence]) (by simpa [hevidence] using hplain) ?_
  simpa [hevidence] using TypeStore.matchDirect_self hv hS

end Method

namespace Session

variable {u₀ u : Universe} {site : Site} {e : Expr} {S : TypeId} {r : Resolution} {name : String} {v search recv : TypeId}
  {qualified : Bool}

/-- The type of a call of a method with one type variable that it returns a value of, looked
at in an earlier universe: what stands for the variable, seen as a result of the declaring
class. -/
theorem TypesCall.yields {args : List TypeId} (h : TypesCall u₀ u site args r name search recv qualified) (hu : u.Populated)
    (hm : (u₀.method r.callable).Yields v) (hv : (u₀.types.shape v).isVariable) (htypeArgs : site.typeArgs = [])
    (hinferred : (u₀.method r.callable).inferOrErase site.args args v u₀.types = (S, u₀.types)) (hS : S.isSome) :
    r.type = (TypeStore.substOwner S (u.method r.callable).owner recv qualified u₀.types).1 := by
  have hlater := h.keeps.later h.resolved
  have htypeParams : (u.method r.callable).typeParams ≠ [] := by
    simp [(hlater.resolved h.resolved).2.2.2.2, hm.typeParams]
  have hclone := hu.ne_arrayClone h.moves htypeParams
  rw [h.type, hclone, hm.callType hv htypeArgs hinferred hS, hlater.owner]

/-- What an identity method has as the type of its call is looked at in an earlier universe.
-/
theorem TypesCall.identity (h : TypesCall u₀ u site [S] r name search recv qualified) (hu : u.Populated)
    (hm : (u.method r.callable).IsIdentity v) (hv : (u.types.shape v).isVariable) (hS : u.types.isReference S)
    (htypeArgs : site.typeArgs = []) (hargs : site.args = [e]) (he : ∀ t, e.form ≠ .classLiteral t) :
    r.type = (TypeStore.substOwner S (u.method r.callable).owner recv qualified u₀.types).1 := by
  have hlater := h.keeps.later h.resolved
  have hm₀ := hm.of_later hlater h.resolved
  have hknows : u₀.types.Knows v := (h.wellFormed.method r.callable).params v (by simp [hm₀.params])
  have hv₀ : (u₀.types.shape v).isVariable := by rwa [← h.keeps.types.shape hknows]
  have hS₀ : u₀.types.isReference S := by
    rwa [TypeStore.isReference, ← h.keeps.types.shape (h.knowsArgs S (by simp)), ← TypeStore.isReference]
  have hinferred := Method.inferOrErase_of_infer (hm₀.infer hv₀ hS₀ he)
  rw [← hargs] at hinferred
  exact h.yields hu hm₀.yields hv₀ htypeArgs hinferred (TypeStore.isSome_of_shape (TypeStore.denotes_of_isReference hS₀).1)

/-- The type of a call of an identity method is that of the argument, unless the declaring
class has a variable in it. -/
theorem TypesCall.identity_of_foreign (h : TypesCall u₀ u site [S] r name search recv qualified) (hu : u.Populated)
    (hm : (u.method r.callable).IsIdentity v) (hv : (u.types.shape v).isVariable) (hS : u.types.isReference S)
    (htypeArgs : site.typeArgs = []) (hargs : site.args = [e]) (he : ∀ t, e.form ≠ .classLiteral t)
    (hforeign : ¬ u.types.HasVariableOf (u.method r.callable).owner S) : r.type = S := by
  rw [h.identity hu hm hv hS htypeArgs hargs he, TypeStore.substOwner_of_not_hasVariableOf]
  rwa [← h.keeps.types.hasVariableOf h.wellFormed.types (h.knowsArgs S (by simp))]

/-- The same holds for every argument in a call that the declaring class itself answers. -/
theorem TypesCall.identity_of_self (h : TypesCall u₀ u site [S] r name search recv false) (hu : u.Populated)
    (hm : (u.method r.callable).IsIdentity v) (hv : (u.types.shape v).isVariable) (hS : u.types.isReference S)
    (htypeArgs : site.typeArgs = []) (hargs : site.args = [e]) (he : ∀ t, e.form ≠ .classLiteral t)
    (hself : recv = (u.method r.callable).owner) (hdeclared : (u.types.shape recv).isDeclared) : r.type = S := by
  have hdeclared₀ : (u₀.types.shape recv).isDeclared := by rwa [← h.keeps.types.shape h.knows]
  rw [h.identity hu hm hv hS htypeArgs hargs he, ← hself, TypeStore.substOwner_of_self hdeclared₀]

/-- How the type of a method call comes about, from its turn on. -/
theorem Turn.typed {st : Session} (t : Turn st) (h : Fresh st) {m : Nat} (hm : t.place < m) {site : Site}
    (hsite : (st.begun.before m).program.site? t.id = some site) (hbound : site.result.IsBound) {name : String}
    {recv : Option Expr} (hcall : site.call = .method name recv) : ∃ u₀ y x q,
      TypesCall u₀ (st.begun.before m).world site (site.args.map t.start.exprType) site.result name y x q ∧
        CalledOn t.start (st.begun.before m).world t.env name recv y x q := by
  obtain ⟨hsame, hruns, r, hr, hlater⟩ := t.later h hm hsite
  obtain ⟨hsound, hleads⟩ := t.sound h
  obtain ⟨hcallable, htype, -, -, hthrows⟩ := hlater.kept
  have hcall' : t.site.call = .method name recv := by
    rw [hsame] at hcall
    exact hcall
  obtain ⟨u₀, y, x, q, htypes, hcalled⟩ := (t.binds h hr hlater hbound).typed name recv hcall'
  rw [hsame]
  have henv := (t.knows h).1.grows hleads.2.world.types.toGrows
  exact ⟨u₀, y, x, q, htypes.later hruns.world (t.runsOn h hm).moves hcallable htype hthrows site.result, hcalled.keeps hruns.world henv⟩

/-- A call by name alone that a frame masks is called on the class of that frame. -/
theorem CalledOn.eq_of_masks {st : Session} {env : Env} (h : CalledOn st u env name none search recv qualified) {i : Nat}
    {f : Frame} {shadows : List Shadow} (hmasks : u.Masks name env.frames i f shadows) : recv = f.type ∧ qualified = false := by
  rcases h with _ | @⟨j, g, others, hsees⟩ | ⟨hblank, -⟩
  · obtain ⟨hframe, hblank, hlisted, hne⟩ := hsees.masks
    rcases Nat.lt_trichotomy i j with hlt | rfl | hlt
    · exact absurd (Option.some.inj (hmasks.listed.symm.trans (hblank i hlt f hmasks.frame))) hmasks.ne_nil
    · exact ⟨congrArg Frame.type (Option.some.inj (hframe.symm.trans hmasks.frame)), rfl⟩
    · exact absurd (Option.some.inj (hlisted.symm.trans (hmasks.blank j hlt g hframe))) hne
  · exact absurd (Option.some.inj (hmasks.listed.symm.trans (hblank f (List.mem_of_getElem? hmasks.frame)))) hmasks.ne_nil

end Session

/-! ## Along a run

From there to the end of the run: the type of a call is recorded and stays.
-/

/-- A call of an identity method without type arguments, with one argument of a reference type
that is no class literal, has the type of the argument. When the type or that of its elements
is a type variable of the declaring class, this is so in calls by name alone that the
declaring class itself answers. -/
theorem identity_inferred (d : Document) (f : Source.File) (base : Options) (t : Turn ((d.load f).session base)) {m : Nat}
    (hm : t.place < m) {site : Site} (hsite : (((d.load f).session base).begun.before m).program.site? t.id = some site)
    (hresolved : site.result.state = .resolved) {name : String} {recv : Option Expr} (hcall : site.call = .method name recv)
    (htypeArgs : site.typeArgs = []) {e : Expr} (hargs : site.args = [e]) (he : ∀ t, e.form ≠ .classLiteral t) :
    let u := (((d.load f).session base).begun.before m).world
    let owner := (u.method site.result.callable).owner
    ∀ v, (u.method site.result.callable).IsIdentity v → (u.types.shape v).isVariable → u.types.isReference (t.start.exprType e) →
      (u.types.HasVariableOf owner (t.start.exprType e) → recv = none ∧ (u.types.shape owner).isDeclared ∧
        ∃ i frame shadows, u.Masks name t.env.frames i frame shadows ∧ frame.type = owner) →
      site.result.type = t.start.exprType e := by
  intro u owner v hidentity hv hS hown
  have hfresh := Loaded.fresh d f base
  have hpopulated : u.Populated := (Loaded.populated d f base).moves (hfresh.begun.reached m).leads.2.moves
  obtain ⟨u₀, y, x, q, htypes, hcalled⟩ := t.typed hfresh hm hsite (.inl hresolved) hcall
  rw [hargs] at htypes
  by_cases hvariable : u.types.HasVariableOf owner (t.start.exprType e)
  · obtain ⟨rfl, hdeclared, i, frame, shadows, hmasks, hframe⟩ := hown hvariable
    obtain ⟨rfl, rfl⟩ := hcalled.eq_of_masks hmasks
    exact htypes.identity_of_self hpopulated hidentity hv hS htypeArgs hargs he hframe (hframe ▸ hdeclared)
  · exact htypes.identity_of_foreign hpopulated hidentity hv hS htypeArgs hargs he hvariable

/-- A generic class with an identity method, and calls of it: with an argument of another
type, and with one of the type variable of the class, by name alone and through a
parameterization. -/
def identityDocument : Document where
  classes := [
    .mk { name := "p.A", typeParams := ["T"], methods := [
      { name := "m", typeParams := ["E"], params := ["E"], returns := "E" }] } []]
  program := [
    { id := "a", cls := "p.A", call := "m", receiver := some { type := "p.A<String>" }, args := [{ type := "Integer" }] },
    { id := "b", cls := "p.A", call := "m", args := [{ type := "T" }] },
    { id := "c", cls := "p.A", call := "m", receiver := some { type := "p.A<String>" }, args := [{ type := "T" }] }]

instance (m : Method) (v : TypeId) : Decidable (m.IsIdentity v) :=
  decidable_of_iff (m.isConstructor = false ∧ m.flags.isVariadic = false ∧ m.typeParams = [v] ∧ m.params = [v] ∧ m.returns = v)
    ⟨fun h => ⟨h.1, h.2.1, h.2.2.1, h.2.2.2.1, h.2.2.2.2⟩,
      fun h => ⟨h.notConstructor, h.notVariadic, h.typeParams, h.params, h.returns⟩⟩

instance (s : TypeStore) (owner t : TypeId) : Decidable (s.HasVariableOf owner t) :=
  decidable_of_iff ((s.typeVariable? (s.baseElem t)).any fun v => v.method = 0 && v.owner = owner)
    (by simp [TypeStore.HasVariableOf, Option.any_eq_true])

/-- Whether the call of a turn is a resolved method call by then, without type arguments, that
passes a plain value of a reference type to an identity method whose type variable has no
bounds; what is to be found out of it may be added. -/
def Session.Turn.callsIdentity {st : Session} (t : Turn st) (m : Nat)
    (p : Universe → Resolution → String → Option Expr → TypeId → TypeId → Bool) : Bool :=
  let u := (st.begun.before m).world
  ((st.begun.before m).program.site? t.id).any fun site =>
    decide (t.place < m ∧ site.result.state = .resolved ∧ site.typeArgs = []) && match site.call, site.args with
    | .method name recv, [e] =>
      let callable := u.method site.result.callable
      decide (e.form = .value) && callable.typeParams.any fun v =>
        decide (callable.IsIdentity v ∧ (u.types.shape v).isVariable ∧ (u.types.typeVariable? v).elim [] (·.bounds) = [] ∧
          u.types.isReference (t.start.exprType e)) && p u site.result name recv callable.owner (t.start.exprType e)
    | _, _ => false

/-- The call of such a turn. -/
theorem Session.Turn.exists_of_callsIdentity {st : Session} {t : Turn st} {m : Nat}
    {p : Universe → Resolution → String → Option Expr → TypeId → TypeId → Bool} (h : t.callsIdentity m p) :
    ∃ site name recv e v, (st.begun.before m).program.site? t.id = some site ∧
      (t.place < m ∧ site.result.state = .resolved ∧ site.typeArgs = []) ∧ site.call = .method name recv ∧ site.args = [e] ∧
        e.form = .value ∧ let u := (st.begun.before m).world
        let callable := u.method site.result.callable
        (callable.IsIdentity v ∧ (u.types.shape v).isVariable ∧ (u.types.typeVariable? v).elim [] (·.bounds) = [] ∧
          u.types.isReference (t.start.exprType e)) ∧ p u site.result name recv callable.owner (t.start.exprType e) := by
  obtain ⟨site, hsite, h⟩ := (Option.any_eq_true _ _).mp h
  obtain ⟨hbound, h⟩ := Bool.and_eq_true_iff.mp h
  split at h
  · rename_i name recv e hcall hargs
    obtain ⟨hform, h⟩ := Bool.and_eq_true_iff.mp h
    obtain ⟨v, -, h⟩ := List.any_eq_true.mp h
    obtain ⟨hidentity, h⟩ := Bool.and_eq_true_iff.mp h
    exact ⟨site, name, recv, e, v, hsite, of_decide_eq_true hbound, hcall, hargs, of_decide_eq_true hform,
      of_decide_eq_true hidentity, h⟩
  · cases h

theorem identityDocument_calls :
    let st := (identityDocument.load blankFile).session {}
    (st.turnAt? 0).any (fun t => t.callsIdentity 3 fun u _ _ recv owner S =>
      recv.isSome && !decide (u.types.HasVariableOf owner S)) ∧
    (st.turnAt? 1).any (fun t => t.callsIdentity 3 fun u _ name recv owner S =>
      recv = none && decide (u.types.HasVariableOf owner S) && (u.types.shape owner).isDeclared &&
        (t.env.frames[0]?).any fun f => f.type = owner && (u.listed f.type name).any (· ≠ [])) ∧
    (st.turnAt? 2).any (fun t => t.callsIdentity 3 fun _ r _ recv _ S => recv.isSome && r.type ≠ S) := by
  decide +kernel

/-- An identity method has the type of its argument in a call through a parameterization of
its class, and in a call by name alone with an argument of the type variable of the class. -/
theorem identity_kept :
    let st := (identityDocument.load blankFile).session {}
    let u := (st.begun.before 3).world
    (∃ (t : Turn st) (site : Site) (name : String) (recv e : Expr), (st.begun.before 3).program.site? t.id = some site ∧
      site.call = .method name (some recv) ∧ site.args = [e] ∧ site.result.type = t.start.exprType e) ∧
    ∃ (t : Turn st) (site : Site) (name : String) (e : Expr), (st.begun.before 3).program.site? t.id = some site ∧
      site.call = .method name none ∧ site.args = [e] ∧ site.result.type = t.start.exprType e ∧
        u.types.HasVariableOf (u.method site.result.callable).owner (t.start.exprType e) := by
  obtain ⟨hforeign, hself, -⟩ := identityDocument_calls
  have hinferred := identity_inferred identityDocument blankFile {}
  generalize (identityDocument.load blankFile).session {} = st at hforeign hself hinferred ⊢
  have hplain {e : Expr} (he : e.form = .value) (t : TypeId) : e.form ≠ .classLiteral t := by simp [he]
  refine ⟨?_, ?_⟩
  · obtain ⟨t, -, ht⟩ := (Option.any_eq_true _ _).mp hforeign
    obtain ⟨site, name, recv, e, v, hsite, ⟨hm, hresolved, htypeArgs⟩, hcall, hargs, hform, ⟨hidentity, hv, -, hS⟩, h⟩ :=
      Turn.exists_of_callsIdentity ht
    simp only [Bool.and_eq_true, Bool.not_eq_true', decide_eq_false_iff_not] at h
    obtain ⟨recv, rfl⟩ := Option.isSome_iff_exists.mp h.1
    exact ⟨t, site, name, recv, e, hsite, hcall, hargs, hinferred t hm hsite hresolved hcall htypeArgs hargs (hplain hform) v
      hidentity hv hS fun hown => absurd hown h.2⟩
  · obtain ⟨t, -, ht⟩ := (Option.any_eq_true _ _).mp hself
    obtain ⟨site, name, recv, e, v, hsite, ⟨hm, hresolved, htypeArgs⟩, hcall, hargs, hform, ⟨hidentity, hv, -, hS⟩, h⟩ :=
      Turn.exists_of_callsIdentity ht
    simp only [Bool.and_eq_true, decide_eq_true_eq, Option.any_eq_true] at h
    obtain ⟨⟨⟨rfl, hown⟩, hdeclared⟩, f, hframe, hf, shadows, hlisted, hne⟩ := h
    have hmasks : Masks _ name t.env.frames 0 f shadows := ⟨hframe, fun j hj => absurd hj (Nat.not_lt_zero j), hlisted, hne⟩
    exact ⟨t, site, name, e, hsite, hcall, hargs, hinferred t hm hsite hresolved hcall htypeArgs hargs (hplain hform) v
      hidentity hv hS fun _ => ⟨rfl, hdeclared, 0, f, shadows, hmasks, hf⟩, hown⟩

/-- Through a parameterization, an argument of the type variable of the class does not keep
its type. It is replaced by what the receiver supplies for the variable, although it has
nothing to do with the receiver. -/
theorem identity_lost : ¬ ∀ (d : Document) (f : Source.File) (base : Options) (t : Turn ((d.load f).session base)) (m : Nat)
    (site : Site) (name : String) (recv : Option Expr) (e : Expr) (v : TypeId), t.place < m →
      (((d.load f).session base).begun.before m).program.site? t.id = some site → site.result.state = .resolved →
        site.call = .method name recv → site.typeArgs = [] → site.args = [e] → e.form = .value →
          let u := (((d.load f).session base).begun.before m).world
          (u.method site.result.callable).IsIdentity v → (u.types.shape v).isVariable →
            (u.types.typeVariable? v).elim [] (·.bounds) = [] → u.types.isReference (t.start.exprType e) →
              site.result.type = t.start.exprType e := by
  intro h
  obtain ⟨-, -, hlost⟩ := identityDocument_calls
  have hkept := h identityDocument blankFile {}
  generalize (identityDocument.load blankFile).session {} = st at hlost hkept
  obtain ⟨t, -, ht⟩ := (Option.any_eq_true _ _).mp hlost
  obtain ⟨site, name, recv, e, v, hsite, ⟨hm, hresolved, htypeArgs⟩, hcall, hargs, hform, ⟨hidentity, hv, hbounds, hS⟩, hlost⟩ :=
    Turn.exists_of_callsIdentity ht
  simp only [Bool.and_eq_true, decide_eq_true_eq] at hlost
  exact hlost.2 (hkept t 3 site name recv e v hm hsite hresolved hcall htypeArgs hargs hform hidentity hv hbounds hS)

end CallResolution
