import CallResolution.Proofs.Resolve.Captured
import CallResolution.Resolve.Creation

/-!
# Arguments that are passed on

The constructor of an anonymous class takes the arguments of the creation and passes them on
to a constructor of the superclass. That one was chosen for the types of the arguments, and
gets expressions of other types: the declared ones of its parameters, and of packed arguments
their own, where null goes as an element. It accepts these in the same phase, and packs
trailing ones when it packed them before: a single argument that was packed since it is no
array of the elements is not null, so it keeps its type.

So the argument has two halves. `Formals.applicable_passedOn` is about parameters alone: what
is accepted in a phase is accepted in the same phase when each argument is replaced by the
parameter that it goes to. `forwardingParams_eq` says that these types are what the new
constructor declares. `PassesOn` puts the halves together with the local variables in which
the arguments arrive, and is kept by whatever happens to the universe later.

Main statements: `Formals.applicable_passedOn`, `forwardingParams_eq` and `PassesOn.moves`.
-/

namespace CallResolution

open List

/-! ## Conversions of a type to itself

An argument that is passed on has the type of the parameter, so it has to convert to itself;
the bad type does not.
-/

namespace TypeStore

variable {s : TypeStore}

/-- What converts by subtyping and widening converts. -/
theorem invocationConverts_of_subtypeConverts {a b : TypeId} (h : s.subtypeConverts a b) : s.invocationConverts a b := by
  simp [invocationConverts, h]

/-- A type that is not bad converts to itself. -/
theorem invocationConverts_self {t : TypeId} (h : ¬ s.isBad t) : s.invocationConverts t t :=
  invocationConverts_of_subtypeConverts (subtypeConverts_self_iff.mpr h)

/-- Null converts to every array that is not bad. -/
theorem invocationConverts_of_isNull {a b : TypeId} (ha : s.isNull a) (hb : s.isArray b) : s.invocationConverts a b := by
  refine invocationConverts_of_subtypeConverts ?_
  unfold isNull at ha
  unfold isArray at hb
  have hshape : s.shape a = .null := by simpa using ha
  have hne : a ≠ b := by
    rintro rfl
    simp [hshape, TypeShape.isArray] at hb
  cases hkind : s.shape b <;>
    simp_all [TypeShape.isArray, subtypeConverts, isBad, isPrimitive, TypeShape.isPrimitive, isSubtype, isComparedErased, isNull,
      TypeShape.isReference]

end TypeStore

/-! ## Applicability

What the three ways to accept arguments ask, one argument at a time. Packing is decided by the
last phase alone.
-/

namespace Formals

variable {s : TypeStore} {f : Formals} {args : List TypeId} {ph : Phase} {wrapped : Bool} {c : TypeId → TypeId → Bool}

/-- With exact arity arguments are accepted one by one. -/
theorem fixedArity_eq_some_iff : f.fixedArity c args = some wrapped ↔
    wrapped = false ∧ f.isVariadic = false ∧ Forall₂ (fun a p => c a p = true) args f.params := by
  unfold fixedArity
  rw [← TypeStore.allConvert_iff, Option.ite_none_right_eq_some]
  simp only [Bool.and_eq_true, Bool.not_eq_true', Option.some.injEq]
  tauto

/-- A tail is packed when it does not go as the array, and all of it converts to the elements.
-/
theorem variableTail_eq_some_true_iff {last : TypeId} {tail : List TypeId} : f.variableTail c last tail = some true ↔
    TypeStore.allConvert c tail [last] = false ∧ f.element.isSome ∧ ∀ a ∈ tail, c a f.element = true := by
  unfold variableTail
  split
  · simp_all
  · rename_i h
    simp [h]

/-- A tail that is not packed is the array. -/
theorem variableTail_eq_some_false_iff {last : TypeId} {tail : List TypeId} : f.variableTail c last tail = some false ↔
    TypeStore.allConvert c tail [last] = true := by
  unfold variableTail
  split
  · simp_all
  · rename_i h
    simp [h]

/-- With variable arity the leading arguments are accepted one by one. -/
theorem variableArity_eq_some_iff : f.variableArity c args = some wrapped ↔ f.isVariadic = true ∧ ∃ front last,
    f.params = front ++ [last] ∧ Forall₂ (fun a p => c a p = true) (args.take front.length) front ∧
      f.variableTail c last (args.drop front.length) = some wrapped := by
  unfold variableArity
  constructor
  · intro h
    split at h
    · rename_i last hvariadic hlast
      have hparams := (List.dropLast_append_getLast? last hlast).symm
      rw [Option.ite_none_right_eq_some, TypeStore.allConvert_iff] at h
      exact ⟨hvariadic, _, last, hparams, h.1, h.2⟩
    · cases h
  · rintro ⟨hvariadic, front, last, hparams, hfront, htail⟩
    rw [← TypeStore.allConvert_iff] at hfront
    simp [hvariadic, hparams, hfront, htail]

/-- The types under which arguments are passed on: the declared ones, and when trailing
arguments are packed the declared ones of the fixed parameters and behind them those of the
arguments, where null goes as an element. -/
def passedOn (s : TypeStore) (f : Formals) (wrapped : Bool) (args : List TypeId) : List TypeId :=
  if wrapped then
    f.params.dropLast ++ (args.drop f.params.dropLast.length).map fun a => if s.isNull a then f.element else a
  else f.params

/-- A packed argument converts to the type under which it is passed on, and that to the
elements. -/
theorem converts_packed {a : TypeId} (ha : ¬ s.isBad a) (helement : ¬ s.isBad f.element)
    (h : s.invocationConverts a f.element) :
    s.invocationConverts a (if s.isNull a then f.element else a) ∧
      s.invocationConverts (if s.isNull a then f.element else a) f.element := by
  split
  · exact ⟨h, TypeStore.invocationConverts_self helement⟩
  · exact ⟨TypeStore.invocationConverts_self ha, h⟩

/-- Arguments that are accepted without packing convert to the parameters one by one. -/
theorem converts_of_applicable (h : f.applicable s args ph = some false) :
    Forall₂ (fun a p => s.invocationConverts a p = true) args f.params := by
  cases ph with
  | none => cases h
  | strict =>
    exact (fixedArity_eq_some_iff.mp h).2.2.imp fun _ _ => TypeStore.invocationConverts_of_subtypeConverts
  | loose => exact (fixedArity_eq_some_iff.mp h).2.2
  | variadic =>
    obtain ⟨-, front, last, hparams, hfront, htail⟩ := variableArity_eq_some_iff.mp h
    rw [variableTail_eq_some_false_iff, TypeStore.allConvert_iff] at htail
    rw [hparams, ← List.take_append_drop front.length args]
    exact List.rel_append hfront htail

/-- Arguments are packed in the last phase only, behind those of the fixed parameters. -/
theorem packed_of_applicable (h : f.applicable s args ph = some true) : ph = .variadic ∧ f.isVariadic = true ∧
    ∃ front last, f.params = front ++ [last] ∧
      Forall₂ (fun a p => s.invocationConverts a p = true) (args.take front.length) front ∧
      TypeStore.allConvert s.invocationConverts (args.drop front.length) [last] = false ∧ f.element.isSome ∧
      ∀ a ∈ args.drop front.length, s.invocationConverts a f.element = true := by
  cases ph with
  | none => cases h
  | strict => cases (fixedArity_eq_some_iff.mp h).1
  | loose => cases (fixedArity_eq_some_iff.mp h).1
  | variadic =>
    obtain ⟨hvariadic, front, last, hparams, hfront, htail⟩ := variableArity_eq_some_iff.mp h
    exact ⟨rfl, hvariadic, front, last, hparams, hfront, variableTail_eq_some_true_iff.mp htail⟩

/-- What a packing callable passes on. -/
theorem passedOn_packed {front : List TypeId} {last : TypeId} (hparams : f.params = front ++ [last]) :
    f.passedOn s true args = front ++ (args.drop front.length).map fun a => if s.isNull a then f.element else a := by
  simp [passedOn, hparams]

/-- What arguments are passed on as is the type of a parameter, that of the elements, or their
own. -/
theorem mem_passedOn {t : TypeId} (h : t ∈ f.passedOn s wrapped args) : t ∈ f.params ∨ t = f.element ∨ t ∈ args := by
  unfold passedOn at h
  split at h
  · rcases List.mem_append.mp h with h | h
    · exact .inl (List.mem_of_mem_dropLast h)
    · obtain ⟨a, ha, rfl⟩ := List.mem_map.mp h
      split
      · exact .inr (.inl rfl)
      · exact .inr (.inr (List.mem_of_mem_drop ha))
  · exact .inl h

/-- Accepted arguments convert to the types under which they are passed on. -/
theorem converts_passedOn (h : f.applicable s args ph = some wrapped) (hargs : ∀ a ∈ args, ¬ s.isBad a)
    (helement : ¬ s.isBad f.element) :
    Forall₂ (fun a p => s.invocationConverts a p = true) args (f.passedOn s wrapped args) := by
  cases wrapped with
  | false => exact converts_of_applicable h
  | true =>
    obtain ⟨-, -, front, last, hparams, hfront, -, -, htail⟩ := packed_of_applicable h
    rw [passedOn_packed hparams]
    nth_rewrite 1 [← List.take_append_drop front.length args]
    refine List.rel_append hfront (List.forall₂_map_right_iff.mpr (List.forall₂_same.mpr fun a ha => ?_))
    exact (converts_packed (hargs a (List.mem_of_mem_drop ha)) helement (htail a ha)).1

/-- Arguments that are passed on are accepted as the original ones were: in the same phase,
and packed if and only if they were packed. Null is what the last part turns on: as a single
trailing argument it would go as the array. -/
theorem applicable_passedOn (h : f.applicable s args ph = some wrapped) (hargs : ∀ a ∈ args, ¬ s.isBad a)
    (hparams : ∀ p ∈ f.params, ¬ s.isBad p) (helement : ¬ s.isBad f.element)
    (hlast : f.element.isSome → ∀ last ∈ f.params.getLast?, s.isArray last) :
    f.applicable s (f.passedOn s wrapped args) ph = some wrapped := by
  cases wrapped with
  | false =>
    have hself : Forall₂ (fun a p => s.invocationConverts a p = true) f.params f.params :=
      List.forall₂_same.mpr fun p hp => TypeStore.invocationConverts_self (hparams p hp)
    show f.applicable s f.params ph = some false
    cases ph with
    | none => cases h
    | strict =>
      obtain ⟨-, hfixed, -⟩ := fixedArity_eq_some_iff.mp h
      refine fixedArity_eq_some_iff.mpr ⟨rfl, hfixed, List.forall₂_same.mpr fun p hp => ?_⟩
      exact TypeStore.subtypeConverts_self_iff.mpr (hparams p hp)
    | loose =>
      obtain ⟨-, hfixed, -⟩ := fixedArity_eq_some_iff.mp h
      exact fixedArity_eq_some_iff.mpr ⟨rfl, hfixed, hself⟩
    | variadic =>
      obtain ⟨hvariadic, front, last, heq, -, -⟩ := variableArity_eq_some_iff.mp h
      have hconverts (p : TypeId) (hp : p ∈ front ++ [last]) : s.invocationConverts p p = true :=
        TypeStore.invocationConverts_self (hparams p (heq ▸ hp))
      refine variableArity_eq_some_iff.mpr ⟨hvariadic, front, last, heq, ?_, ?_⟩
      · rw [heq, List.take_left']
        · exact List.forall₂_same.mpr fun p hp => hconverts p (by simp [hp])
        · rfl
      · rw [variableTail_eq_some_false_iff, TypeStore.allConvert_iff, heq, List.drop_left']
        · exact .cons (hconverts last (by simp)) .nil
        · rfl
  | true =>
    obtain ⟨rfl, hvariadic, front, last, heq, hfront, hnot, helem, htail⟩ := packed_of_applicable h
    rw [passedOn_packed heq]
    refine variableArity_eq_some_iff.mpr ⟨hvariadic, front, last, heq, ?_, ?_⟩
    · rw [List.take_left' rfl]
      exact List.forall₂_same.mpr fun p hp => TypeStore.invocationConverts_self (hparams p (by simp [heq, hp]))
    rw [List.drop_left' rfl, variableTail_eq_some_true_iff]
    refine ⟨?_, helem, fun x hx => ?_⟩
    · -- Null would have gone as the array.
      have harray : s.isArray last := hlast helem last (by simp [heq])
      generalize args.drop front.length = tail at *
      match tail with
      | [] => rfl
      | a :: b :: tail => simp [TypeStore.allConvert]
      | [a] =>
        have hnull : s.isNull a = false := by
          rw [Bool.eq_false_iff]
          intro hnull
          simp [TypeStore.allConvert, TypeStore.invocationConverts_of_isNull hnull harray] at hnot
        simpa [hnull] using hnot
    · obtain ⟨a, ha, rfl⟩ := List.mem_map.mp hx
      exact (converts_packed (hargs a (List.mem_of_mem_drop ha)) helement (htail a ha)).2

end Formals

/-! ## The parameters of a constructor that passes arguments on

The new constructor has the parameters of its target, as many as there are arguments, and
behind those of exact arity the types of packed arguments themselves. So the formals of both
are described by the same lists of types.
-/

section Declared

variable {s s' : TypeStore} {f : Formals}

/-- What has an element type is an array. -/
theorem TypeStore.isArray_of_component {t : TypeId} (h : (component t s).1.isSome) : s.isArray t := by
  unfold isArray
  cases hshape : s.shape t with
  | array e d => rfl
  | _ =>
    simp only [component, get_bind_apply, hshape] at h
    cases h

/-- The formals of variable arity ask for the element type of the last parameter. -/
theorem Formals.ofParams_of_last {params : List TypeId} {last : TypeId} (h : params.getLast? = some last) :
    ofParams params true s = ({ params, isVariadic := true, element := (TypeStore.component last s).1 },
      (TypeStore.component last s).2) := by
  unfold ofParams
  rw [h]
  rfl

/-- The other formals are made without further ado. -/
theorem Formals.ofParams_of_plain {params : List TypeId} {v : Bool} (h : v = true → params.getLast? = none) :
    ofParams params v s = ({ params, isVariadic := v }, s) := by
  unfold ofParams
  cases v with
  | false => rfl
  | true =>
    rw [h rfl]
    rfl

/-- What the formals of given parameter types are. The formals of a callable ask for the
element type of its last parameter, and this says that it was there to be found. -/
structure Formals.Describes (f : Formals) (ts : List TypeId) (v : Bool) (s s' : TypeStore) : Prop where
  /-- The parameter types. -/
  params : f.params = ts
  /-- Whether the arity is variable. -/
  isVariadic : f.isVariadic = v
  /-- The element type is that of the last parameter. -/
  component : v = true → ∀ last ∈ ts.getLast?, TypeStore.component last s = (f.element, s')
  /-- There is an element type only when the last parameter is an array. -/
  isArray : f.element.isSome → ∀ last ∈ ts.getLast?, s.isArray last
  /-- The element type is not bad. -/
  genuine : s.WellFormed → s'.Genuine f.element

/-- The formals of given parameter types. -/
theorem Formals.ofParams_describes (ts : List TypeId) (v : Bool) (s : TypeStore) :
    (ofParams ts v s).1.Describes ts v s (ofParams ts v s).2 := by
  by_cases h : v = true → ts.getLast? = none
  · rw [ofParams_of_plain h]
    refine ⟨rfl, rfl, fun hv last hlast => ?_, fun hsome => ?_, fun hs => hs.genuine_none⟩
    · rw [h hv] at hlast
      cases hlast
    · cases hsome
  · obtain ⟨rfl, hne⟩ := Classical.not_imp.mp h
    obtain ⟨last, hlast⟩ := Option.ne_none_iff_exists'.mp hne
    rw [ofParams_of_last hlast]
    refine ⟨rfl, rfl, fun _ last' hlast' => ?_, fun hsome last' hlast' => ?_, fun hs => ?_⟩
    · obtain rfl : last = last' := by simpa [hlast] using hlast'
      rfl
    · obtain rfl : last = last' := by simpa [hlast] using hlast'
      exact TypeStore.isArray_of_component hsome
    · exact (hs.run fun g => TypeStore.component_works (g := g)).2.2

/-- The parameters of a constructor that passes arguments on, by the element type of the last
parameter of its target. -/
theorem Session.forwardingParams_fst (m : Method) (wrapped : Bool) (args : List TypeId) (s : TypeStore) :
    (forwardingParams m wrapped args s).1 =
      let fixed := if wrapped then m.params.length - 1 else m.params.length
      let element := TypeStore.component (m.params.getLastD .none) s
      m.params.take (min fixed args.length) ++ (args.drop fixed).map fun a => if element.2.isNull a then element.1 else a :=
  rfl

/-- A constructor takes accepted arguments as what it passes them on as. -/
theorem Session.forwardingParams_eq {m : Method} {args : List TypeId} {ph : Phase} {wrapped : Bool}
    (hf : f.Describes m.params m.flags.isVariadic s s) (h : f.applicable s args ph = some wrapped) :
    (forwardingParams m wrapped args s).1 = f.passedOn s wrapped args := by
  rw [forwardingParams_fst]
  cases wrapped with
  | false =>
    have hlength : args.length = m.params.length := hf.params ▸ (Formals.converts_of_applicable h).length_eq
    simp [Formals.passedOn, hf.params, hlength]
  | true =>
    obtain ⟨-, hvariadic, front, last, heq, hfront, -⟩ := Formals.packed_of_applicable h
    have hm : m.params = front ++ [last] := hf.params.symm.trans heq
    have hrun := hf.component (hf.isVariadic.symm.trans hvariadic) last (by simp [hm])
    have hlength : min front.length args.length = front.length := by
      simpa using hfront.length_eq
    simp [Formals.passedOn_packed heq, hm, hrun, hlength]

end Declared

namespace Universe

variable {u u' : Universe} {args passed : List TypeId} {ph : Phase} {wrapped : Bool} {id : MethodId}

/-- A callable accepts arguments, and in the same way the types that they are passed on as.
There are no explicit type arguments, since constructors take none. -/
structure AcceptsPassed (u : Universe) (args : List TypeId) (ph : Phase) (wrapped : Bool) (id : MethodId)
    (passed : List TypeId) : Prop extends u.Accepts [] args ph wrapped id where
  /-- These types are known. -/
  known : ∀ t ∈ passed, u.types.Knows t
  /-- Each argument converts to what it is passed on as. -/
  converts : Forall₂ (fun a p => u.types.invocationConverts a p = true) args passed
  /-- They are accepted in the same way. -/
  again : u.acceptance [] passed ph id = some wrapped

/-- The formals of a callable that accepts arguments decide what it accepts. -/
theorem Accepts.formals (h : u.Accepts [] args ph wrapped id) :
    ∃ f : Formals, f.Describes (u.method id).params (u.method id).flags.isVariadic u.types u.types ∧
      ∀ ts, u.acceptance [] ts ph id = f.applicable u.types ts ph := by
  obtain ⟨f, hf⟩ : ∃ f, (u.method id).declaredFormals u.types = (f, u.types) := ⟨_, Prod.ext rfl h.settled⟩
  refine ⟨f, ?_, fun ts => ?_⟩
  · have hofParams := Formals.ofParams_describes (u.method id).params (u.method id).flags.isVariadic u.types
    rwa [show Formals.ofParams _ _ u.types = _ from hf] at hofParams
  · unfold Universe.acceptance
    rw [show (u.method id).formals [] = (u.method id).declaredFormals from rfl, hf]

/-- Arguments that are accepted without packing convert to the parameters of the callable one
by one. -/
theorem Accepts.converts (h : u.Accepts [] args ph false id) :
    Forall₂ (fun a p => u.types.invocationConverts a p = true) args (u.method id).params := by
  obtain ⟨f, hdescribes, haccept⟩ := h.formals
  rw [← hdescribes.params]
  exact Formals.converts_of_applicable ((haccept args).symm.trans h.acceptance)

/-- A callable that accepts arguments accepts in the same way what they are passed on as. -/
theorem Accepts.passedOn (hu : u.WellFormed) (hgenuine : u.Genuine) (hargs : ∀ a ∈ args, u.types.Genuine a)
    (h : u.Accepts [] args ph wrapped id) :
    u.AcceptsPassed args ph wrapped id (Session.forwardingParams (u.method id) wrapped args u.types).1 := by
  obtain ⟨f, hdescribes, haccept⟩ := h.formals
  have happ : f.applicable u.types args ph = some wrapped := (haccept args).symm.trans h.acceptance
  have hbad : ∀ a ∈ args, ¬ u.types.isBad a := fun a ha => (hargs a ha).2
  have helement := hdescribes.genuine hu.types
  rw [Session.forwardingParams_eq hdescribes happ]
  refine ⟨h, fun t ht => ?_, Formals.converts_passedOn happ hbad helement.2, (haccept _).trans ?_⟩
  · rcases Formals.mem_passedOn ht with ht | rfl | ht
    · exact (hu.method id).params t (hdescribes.params ▸ ht)
    · exact helement.1
    · exact (hargs t ht).1
  · refine Formals.applicable_passedOn happ hbad (fun p hp => ?_) helement.2 fun hsome last hlast => ?_
    · exact (hgenuine.method id p (hdescribes.params ▸ hp)).2
    · exact hdescribes.isArray hsome last (hdescribes.params ▸ hlast)

/-- What is accepted in the same way stays so. -/
theorem AcceptsPassed.keeps (h : u.AcceptsPassed args ph wrapped id passed) (hkeeps : u.Keeps u') (hu : u.WellFormed)
    (hargs : ∀ a ∈ args, u.types.Knows a) : u'.AcceptsPassed args ph wrapped id passed where
  toAccepts := hkeeps.accepts hu (by simp) hargs h.toAccepts
  known t ht := hkeeps.types.knows (h.known t ht)
  converts := by
    refine List.forall₂_iff_get.mpr ⟨h.converts.length_eq, fun k hk hk' => ?_⟩
    rw [hkeeps.types.invocationConverts hu.types (hargs _ (List.get_mem _ _)) (h.known _ (List.get_mem _ _))]
    exact h.converts.get hk hk'
  again := by
    rw [hkeeps.acceptance hu (by simp) h.known h.resolved h.settled]
    exact h.again

end Universe

/-! ## The constructors of anonymous classes

The planned constructor, as it is found in the universe afterwards.
-/

/-- The local variables that the constructor of an anonymous class passes on: the enclosing
instance of the superclass if there is one, and the arguments. They are named by their places,
so the constructor can be written down from its parameters. -/
def passedLocals (span : Source.Span) (outer params : List TypeId) : List Expr :=
  (outer.map fun t => { form := .localVar "this$0" [], type := t, span }) ++
    params.zipIdx.map fun (p, k) => { form := .localVar s!"arg{k}" [], type := p, span }

namespace Session

/-- The planned constructor takes an enclosing instance of the superclass if there is one, and
the arguments. -/
theorem planCtor_eq (s : TypeStore) (env : Env) (site : Site) (span : Source.Span) (super : TypeId) (outer : Option Expr)
    (params : List TypeId) :
    (planCtor s env site span super outer params).params = (outerOfSuper? s super).toList ++ params ∧
      (planCtor s env site span super outer params).forward = passedLocals span (outerOfSuper? s super).toList params := by
  unfold planCtor passedLocals
  cases outerOfSuper? s super <;> simp

/-- Whether the superclass is inner stays. -/
theorem outerOfSuper_keeps {s s' : TypeStore} (hs : s.WellFormed) (h : s.Extends s') {t : TypeId} (ht : s.Knows t) :
    outerOfSuper? s' t = outerOfSuper? s t := by
  unfold outerOfSuper?
  rw [h.classInfo hs ht]

/-- An anonymous class that was made for a creation: its constructor takes the arguments, and
passes them on to the constructor of the superclass that was chosen for them. What comes
behind in the call are reads of captured variables, of which nothing is said here. -/
structure PassesOn (u : Universe) (args : List TypeId) (r : Resolution) (made : ClassInfo) (target : MethodId)
    (passed : List TypeId) : Prop where
  /-- The class. -/
  info : u.types.classInfo? r.anonymous = some made
  /-- Its constructor. -/
  ctor : r.callable ∈ u.constructors r.anonymous
  /-- The signature of that is processed. -/
  resolved : (u.method r.callable).isResolved
  /-- It takes an enclosing instance when the superclass is inner, and then the arguments. -/
  params : (u.method r.callable).params = (outerOfSuper? u.types made.super).toList ++ passed
  /-- The constructor of the superclass. -/
  chosen : target ∈ u.constructors made.super
  /-- It accepts the arguments of the creation as recorded, and in the same way what they are
  passed on as. -/
  accepts : u.AcceptsPassed args r.phase r.wrapped target passed
  /-- It is called with that, perhaps through its accessor, and with more arguments behind. -/
  call : ∃ call span extra, r.superInvocation = some call ∧ u.Reaches call.callable target ∧
    call.args = passedLocals span (outerOfSuper? u.types made.super).toList passed ++ extra

/-- The constructor of an anonymous class, and what it calls of the superclass: this is what
passing arguments on comes to when it is not asked whether the superclass constructor accepts
them. -/
structure DeclaresCtor (u : Universe) (made : ClassInfo) (anon : TypeId) (ctor target : MethodId) (passed : List TypeId)
    (call : LoweredCall) : Prop where
  /-- The class. -/
  info : u.types.classInfo? anon = some made
  /-- It lists the constructor. -/
  listed : ctor ∈ u.constructors anon
  /-- The signature of that is processed. -/
  resolved : (u.method ctor).isResolved
  /-- It takes an enclosing instance when the superclass is inner, and then the arguments. -/
  params : (u.method ctor).params = (outerOfSuper? u.types made.super).toList ++ passed
  /-- The constructor of the superclass. -/
  chosen : target ∈ u.constructors made.super
  /-- It is called, perhaps through its accessor. -/
  reaches : u.Reaches call.callable target
  /-- It is called with what was passed, and perhaps with more behind. -/
  passes : ∃ span extra, call.args = passedLocals span (outerOfSuper? u.types made.super).toList passed ++ extra

namespace DeclaresCtor

variable {u u' : Universe} {made : ClassInfo} {anon : TypeId} {ctor target : MethodId} {passed : List TypeId} {call : LoweredCall}

/-- The class is known. -/
theorem known (h : DeclaresCtor u made anon ctor target passed call) : u.types.Knows anon :=
  TypeStore.knows_of_classInfo (Option.isSome_iff_exists.mpr ⟨made, h.info⟩)

/-- The constructor stays what it was declared as. -/
theorem moves {mayFinish : Universe → TypeId → Prop} (h : DeclaresCtor u made anon ctor target passed call)
    (hkeeps : u.Keeps u') (hmoves : Universe.Moves mayFinish u u') (hu : u.WellFormed) :
    DeclaresCtor u' made anon ctor target passed call := by
  have hsuper : u.types.Knows made.super := (hu.types.knows_classInfo h.info).super.1
  have hsame := (hkeeps.later h.resolved).resolved h.resolved
  have houter := outerOfSuper_keeps hu.types hkeeps.types hsuper
  exact {
    info := (hkeeps.types.classInfo hu.types h.known).trans h.info
    listed := hmoves.mem_constructors h.known h.listed
    resolved := hsame.1
    params := hsame.2.1.trans (houter ▸ h.params)
    chosen := hmoves.mem_constructors hsuper h.chosen
    reaches := h.reaches.moves hmoves
    passes := houter ▸ h.passes }

/-- More arguments may be added behind. -/
theorem append (h : DeclaresCtor u made anon ctor target passed call) (more : List Expr) :
    DeclaresCtor u made anon ctor target passed { call with args := call.args ++ more } where
  info := h.info
  listed := h.listed
  resolved := h.resolved
  params := h.params
  chosen := h.chosen
  reaches := h.reaches
  passes := by
    obtain ⟨span, extra, heq⟩ := h.passes
    exact ⟨span, extra ++ more, by rw [heq, List.append_assoc]⟩

/-- With what the superclass constructor accepts, arguments are passed on. -/
theorem passesOn {args : List TypeId} {r : Resolution} (h : DeclaresCtor u made r.anonymous r.callable target passed call)
    (haccepts : u.AcceptsPassed args r.phase r.wrapped target passed) (hcall : r.superInvocation = some call) :
    PassesOn u args r made target passed where
  info := h.info
  ctor := h.listed
  resolved := h.resolved
  params := h.params
  chosen := h.chosen
  accepts := haccepts
  call := by
    obtain ⟨span, extra, heq⟩ := h.passes
    exact ⟨call, span, extra, hcall, h.reaches, heq⟩

end DeclaresCtor

/-- The constructor of a class that passes arguments on. -/
theorem PassesOn.declares {u : Universe} {args : List TypeId} {r : Resolution} {made : ClassInfo} {target : MethodId}
    {passed : List TypeId} (h : PassesOn u args r made target passed) :
    ∃ call, r.superInvocation = some call ∧ DeclaresCtor u made r.anonymous r.callable target passed call := by
  obtain ⟨call, span, extra, hcall, hreaches, heq⟩ := h.call
  exact ⟨call, hcall, h.info, h.ctor, h.resolved, h.params, h.chosen, hreaches, span, extra, heq⟩

/-- The class passes arguments on for ever. An anonymous class is finished when the creation
is, so its constructor gets no more parameters. -/
theorem PassesOn.moves {mayFinish : Universe → TypeId → Prop} {u u' : Universe} {args : List TypeId} {r : Resolution}
    {made : ClassInfo} {target : MethodId} {passed : List TypeId} (h : PassesOn u args r made target passed)
    (hkeeps : u.Keeps u') (hmoves : Universe.Moves mayFinish u u') (hu : u.WellFormed)
    (hargs : ∀ t ∈ args, u.types.Knows t) : PassesOn u' args r made target passed := by
  obtain ⟨call, hcall, hdeclares⟩ := h.declares
  exact (hdeclares.moves hkeeps hmoves hu).passesOn (h.accepts.keeps hkeeps hu hargs) hcall

end Session

end CallResolution
