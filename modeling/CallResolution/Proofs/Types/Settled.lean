import CallResolution.Proofs.Types.Conversion

/-!
# Settled types

A type that has been made is made again under the same number, and making it again changes
nothing. `Settles` says this of a step: in every later store it gives the value it gave first
and leaves the store alone. So the parameters that a callable offers to a call can be asked
for again after the call was bound.

The functions that make types are gone through once more for this, in the order in which they
call each other. `Settles.bind` puts steps together: the second one is settled in the store
that the first one left, and a later store of that is a later one of both. What a step reads
from the store has to be the same later on, which holds for whatever an extension keeps
(`Settles.read`).

The evolution that is used here keeps proper bounds beside what an extension keeps
(`Derives`), since the parameters of a callable are made while calls are bound.

Main statements: `subst_settles` and `formals_settles`.
-/

namespace CallResolution

namespace TypeStore

variable {s s' : TypeStore} {α β γ : Type}

/-- A well-formed store is extended by a step that works under every guard, to a well-formed
one. -/
theorem WellFormed.run (hs : s.WellFormed) {x : TypeM α} {P : α → TypeStore → Prop}
    (h : ∀ g, Works (growth g) x s P) : (x s).2.WellFormed ∧ s.Extends (x s).2 ∧ P (x s).1 (x s).2 := by
  obtain ⟨hl, hp⟩ := h hs.guard hs.sound
  exact ⟨((growth hs.guard).sound hl hs.sound).1, hs.extends hl, hp⟩

/-- A store that has all of another one, where type variables go on to have proper bounds.
Bounds are no matter of what is made here, but what is made while a call is bound has to keep
them, and it is followed along this relation. -/
structure Derives (s s' : TypeStore) : Prop extends Extends s s' where
  /-- Type variables have proper bounds if they had before. -/
  bounded : s.Bounded → s'.Bounded

/-- Well-formed stores, which are extended. -/
def extension : Evolution TypeStore where
  Sound := WellFormed
  Leads s s' := (s.WellFormed → s'.WellFormed) ∧ s.Derives s'
  refl s := ⟨id, .refl s, id⟩
  trans h h' := ⟨fun hs => h'.1 (h.1 hs), h.2.toExtends.trans h'.2.toExtends, fun hs => h'.2.bounded (h.2.bounded hs)⟩
  sound h := h.1

/-- A step that works while all that a store has is left alone extends the store. -/
theorem extending {x : TypeM α} {P : α → TypeStore → Prop} (h : ∀ hs : s.WellFormed, Works (growth hs.guard) x s P) :
    Works extension x s P := by
  intro hs
  obtain ⟨hl, hp⟩ := h hs hs.sound
  exact ⟨⟨fun _ => ((growth hs.guard).sound hl hs.sound).1, hs.extends hl, growth_bounded id hl⟩, hp⟩

/-- A step that extends the store, and in every later store gives the same value and does
nothing. It is what makes a question about a call have one answer: asked again, it is answered
with the same numbers. -/
def Settles (x : TypeM α) (s : TypeStore) : Prop :=
  s.Extends (x s).2 ∧ ∀ s', (x s).2.Extends s' → x s' = ((x s).1, s')

namespace Settles

/-- A value alone. -/
theorem ret (a : α) : Settles (pure a) s :=
  ⟨.refl s, fun _ _ => rfl⟩

/-- One step after another. -/
theorem bind {x : TypeM α} {f : α → TypeM β} (hx : Settles x s) (hf : Settles (f (x s).1) (x s).2) :
    Settles (x >>= f) s := by
  refine ⟨hx.1.trans hf.1, fun s' h => ?_⟩
  have hx' := hx.2 s' (hf.1.trans h)
  show f (x s').1 (x s').2 = _
  rw [hx']
  exact hf.2 s' h

/-- A step on what is read from the store, when later stores say the same. -/
theorem read {f : TypeStore → TypeM α} (hf : ∀ s', s.Extends s' → f s' = f s) (h : Settles (f s) s) :
    Settles (get >>= f) s := by
  refine ⟨h.1, fun s' hs' => ?_⟩
  show f s' s' = _
  rw [hf s' (h.1.trans hs')]
  exact h.2 s' hs'

/-- A step for each element of a list. -/
theorem mapM {f : γ → TypeM α} {I : TypeStore → Prop} (l : List γ) (hI : I s)
    (hf : ∀ c ∈ l, ∀ t, I t → s.Extends t → Settles (f c) t ∧ I (f c t).2) : Settles (l.mapM f) s := by
  induction l generalizing s with
  | nil =>
    rw [List.mapM_nil]
    exact ret []
  | cons c l ih =>
    rw [List.mapM_cons]
    obtain ⟨hc, hI'⟩ := hf c (by simp) s hI (.refl s)
    refine hc.bind ((ih hI' fun d hd t ht hst => ?_).bind (ret _))
    exact hf d (by simp [hd]) t ht (hc.1.trans hst)

/-- The first element of a list for which a step finds something. -/
theorem findSomeM? {f : γ → TypeM (Option α)} {I : TypeStore → Prop} (l : List γ) (hI : I s)
    (hf : ∀ c ∈ l, ∀ t, I t → s.Extends t → Settles (f c) t ∧ I (f c t).2) : Settles (l.findSomeM? f) s := by
  induction l generalizing s with
  | nil => exact ret none
  | cons c l ih =>
    unfold List.findSomeM?
    obtain ⟨hc, hI'⟩ := hf c (by simp) s hI (.refl s)
    refine hc.bind ?_
    split
    · exact ret _
    · exact ih hI' fun d hd t ht hst => hf d (by simp [hd]) t ht (hc.1.trans hst)

end Settles

/-- A settled step gives the same value in every later store. -/
theorem Settles.works {x : TypeM α} {P : α → TypeStore → Prop} (h : s.WellFormed → Settles x s)
    (hx : ∀ g, Works (growth g) x s P) :
    Works extension x s fun a t => P a t ∧ ∀ t', t.Extends t' → x t' = (a, t') := by
  intro hs
  obtain ⟨hl, hp⟩ := extending (fun _ => hx _) hs
  exact ⟨hl, hp, (h hs).2⟩

/-- The place of a shape stays in a longer store. -/
theorem findIdx?_extends {shape : TypeShape} (h : s.Extends s') {i : Nat}
    (hi : s.shapes.findIdx? (· = shape) = some i) : s'.shapes.findIdx? (· = shape) = some i := by
  obtain ⟨hlt, heq, hmin⟩ := Array.findIdx?_eq_some_iff_getElem.mp hi
  have same (j : Nat) (hj : j < s.shapes.size) : ∃ hj' : j < s'.shapes.size, s'.shapes[j] = s.shapes[j] :=
    Array.getElem?_eq_some_iff.mp (h.shapes j _ (Array.getElem?_eq_getElem hj))
  obtain ⟨hlt', heq'⟩ := same i hlt
  refine Array.findIdx?_eq_some_iff_getElem.mpr ⟨hlt', by rwa [heq'], fun j hj => ?_⟩
  obtain ⟨hj', hjeq⟩ := same j (Nat.lt_trans hj hlt)
  rw [hjeq]
  exact hmin j hj

/-- The shape of an array or a parameterized type keeps its number. In a later store it is
found at the place that it has now, in front of all that was added. -/
theorem intern_settles {shape : TypeShape} (made : shape.isArray ∨ ∃ base args, shape = .applied base args)
    (refers : s.Refers s.shapes.size shape) : Settles (intern shape) s := by
  have hkey := structureKey?_of_made made
  cases hfind : s.shapes.findIdx? (· = shape) with
  | some i =>
    have hi {s' : TypeStore} (h : s'.shapes.findIdx? (· = shape) = some i) : intern shape s' = (⟨i⟩, s') := by
      rw [intern_eq hkey, h]
    unfold Settles
    rw [hi hfind]
    exact ⟨.refl s, fun s' h => hi (findIdx?_extends h hfind)⟩
  | none =>
    have hrun : intern shape s = (⟨s.shapes.size⟩, s.pushed shape) := by
      rw [intern_eq hkey, hfind]
      rfl
    unfold Settles
    rw [hrun]
    have hstep : Step .running s (s.pushed shape) :=
      .derived made refers fun hmem => by simpa using Array.findIdx?_eq_none_iff.mp hfind shape hmem
    refine ⟨⟨⟨hstep.grows, fun _ _ h => h, fun _ _ h => h⟩, hstep.leads⟩, fun s' h => ?_⟩
    have hnew : (s.pushed shape).shapes.findIdx? (· = shape) = some s.shapes.size := by
      rw [pushed, Array.findIdx?_push, hfind]
      simp
    rw [intern_eq hkey, findIdx?_extends h hnew]

/-- The array of a known type keeps its number. -/
theorem array_settles (hs : s.WellFormed) {e : TypeId} (d : UInt32) (he : s.Knows e) : Settles (array e d) s := by
  unfold array
  split
  · exact .ret _
  · refine .read (fun s' h => ?_) ?_
    · rw [h.shape he]
    · split
      · exact .ret _
      · rename_i e' d' h
        exact intern_settles (.inl rfl) ⟨hs.knows_elem h, hs.elem h⟩
      · rename_i hbad harr
        refine intern_settles (.inl rfl) ⟨he, ?_, by simpa [isBad] using hbad⟩
        cases h : s.shape e <;> simp_all [TypeShape.isArray]

/-- The component of a known array keeps its number. -/
theorem component_settles (hs : s.WellFormed) {t : TypeId} (ht : s.Knows t) : Settles (component t) s := by
  refine .read (fun s' h => ?_) ?_
  · rw [h.shape ht]
  · split
    · rename_i e d h
      split
      · exact .ret _
      · exact array_settles hs _ (hs.knows_elem h)
    · exact .ret _

/-- A parameterized type keeps its number. -/
theorem apply_settles {base : TypeId} {args : List TypeArg} (hb : (s.shape base).isDeclared) (ha : ∀ a ∈ args, s.Knows a.type) :
    Settles (apply base args) s := by
  rw [apply_eq]
  split
  · exact .ret _
  · exact intern_settles (.inr ⟨base, args, rfl⟩) ⟨knows_of_isDeclared hb, hb, ha⟩

/-- The erasure of a known type keeps its number. -/
theorem erasureWithin_settles (fuel : Nat) (hs : s.WellFormed) {t : TypeId} (ht : s.Knows t) :
    Settles (erasureWithin fuel t) s := by
  induction fuel generalizing s t with
  | zero =>
    unfold erasureWithin
    refine .read (fun s' h => ?_) ?_
    · rw [h.shape ht]
      cases hshape : s.shape t with
      | array e d =>
        simp only [erasedElem]
        rw [h.shape (hs.knows_elem hshape)]
      | _ => rfl
    · split
      · exact .ret _
      · rename_i e d h
        simp only [pure_bind]
        split
        · exact .ret _
        · exact array_settles hs _ (hs.knows_erasedElem (hs.knows_elem h))
      · exact .ret _
      · exact .ret _
  | succ fuel ih =>
    unfold erasureWithin
    refine .read (fun s' h => ?_) ?_
    · rw [h.shape ht]
      cases hshape : s.shape t with
      | typeVar slot => simp only [h.typeVariable hs ht]
      | _ => rfl
    · split
      · exact .ret _
      · rename_i e d h
        have he := hs.knows_elem h
        obtain ⟨hs', -, hk, -⟩ := hs.run fun g => erasureWithin_works (g := g) fuel he
        refine (ih hs he).bind ?_
        beta_reduce
        split
        · exact .ret _
        · exact array_settles hs' _ hk
      · simp only
        split
        · rename_i b hb
          exact ih hs (hs.denotes_firstBound hb).knows
        · exact .ret _
      · exact .ret _

/-- The erasure of a known type keeps its number. -/
theorem erasure_settles (hs : s.WellFormed) {t : TypeId} (ht : s.Knows t) : Settles (erasure t) s :=
  erasureWithin_settles _ hs ht

/-- What a type variable stands for keeps its number. -/
theorem argUpper_settles (hs : s.WellFormed) {a : TypeArg} {param : TypeId} (hp : s.Knows param) :
    Settles (argUpper a param) s := by
  unfold argUpper
  split
  · split
    · exact .ret _
    · exact erasure_settles hs hp
  · split
    · exact .ret _
    · exact erasure_settles hs hp
  · exact erasure_settles hs hp

/-- An instantiated argument stays. -/
theorem substArg_settles {inner : TypeId → TypeM TypeId} {map : List (TypeId × TypeArg)} {a : TypeArg}
    (ha : s.Knows a.type) (hinner : Settles (inner a.type) s) : Settles (substArg inner map a) s := by
  have deep : Settles (do return { a with type := ← inner a.type }) s := hinner.bind (.ret _)
  unfold substArg
  split
  · exact .ret _
  · refine .read (fun s' h => ?_) ?_
    · rw [h.shape ha]
    · split
      · split
        · exact .ret _
        · exact deep
      · exact deep
  · exact deep

/-- The instances of the arguments of a parameterized type can be arguments of its class. -/
theorem WellFormed.substArgs_run (hs : s.WellFormed) {map : List (TypeId × TypeArg)} (hmap : ∀ p ∈ map, s.Knows p.2.type)
    (depth : Nat) {t base : TypeId} {args : List TypeArg} (ht : s.shape t = .applied base args) :
    let r := args.mapM (substArg (substWithin map depth) map) s
    (r.2.shape base).isDeclared ∧ ∀ a ∈ r.1, r.2.Knows a.type := by
  obtain ⟨-, hext, -, hargs⟩ := hs.run fun g => Works.mapM (e := growth g) (P := fun (a : TypeArg) s' => s'.Knows a.type) args
    (fun _ _ _ hl ha => (growth_grows hl).knows ha) fun a ha u _ hl =>
      have hm : ∀ p ∈ map, u.Knows p.2.type := fun p hp => (growth_grows hl).knows (hmap p hp)
      have hk := (growth_grows hl).knows (hs.knows_arg ht ha)
      substArg_works hm hk (substWithin_works depth hm hk)
  exact ⟨hext.isDeclared (hs.base ht), hargs⟩

/-- An instantiated type keeps its number. The parts are instantiated one after another, each
in the store that the one before left, and all of these stores are kept by the later one. -/
theorem substWithin_settles {map : List (TypeId × TypeArg)} (depth : Nat) (hs : s.WellFormed) {t : TypeId}
    (hmap : ∀ p ∈ map, s.Knows p.2.type) (ht : s.Knows t) : Settles (substWithin map depth t) s := by
  induction depth generalizing s t with
  | zero => exact .ret _
  | succ depth ih =>
    refine .read (fun s' h => ?_) ?_
    · rw [h.shape ht]
    · split
      · split
        · exact argUpper_settles hs ht
        · exact .ret _
      · rename_i e d h
        have he := hs.knows_elem h
        obtain ⟨hs', -, hk⟩ := hs.run fun g => substWithin_works (g := g) depth hmap he
        refine (ih hs hmap he).bind ?_
        split
        · exact .ret _
        · exact array_settles hs' _ hk
      · rename_i base args h
        refine Settles.bind (.mapM (I := WellFormed) args hs fun a ha u hu hext => ?_) ?_
        · have hm : ∀ p ∈ map, u.Knows p.2.type := fun p hp => hext.knows (hmap p hp)
          have hk := hext.knows (hs.knows_arg h ha)
          refine ⟨substArg_settles hk (ih hu hm hk), ?_⟩
          exact (hu.run fun g => substArg_works (g := g) hm hk (substWithin_works depth hm hk)).1
        · obtain ⟨hbase, hargs⟩ := hs.substArgs_run hmap depth h
          split
          · exact .ret _
          · exact apply_settles hbase hargs
      · exact .ret _

/-- An instantiated type keeps its number. -/
theorem subst_settles (hs : s.WellFormed) {t : TypeId} {params : List TypeId} {args : List TypeArg}
    (hargs : ∀ a ∈ args, s.Knows a.type) (ht : s.Knows t) : Settles (subst t params args) s := by
  unfold subst
  split
  · exact .ret _
  · exact substWithin_settles _ hs (fun p hp => hargs _ (List.of_mem_zip hp).2) ht

end TypeStore

/-! ## Parameters

What a callable offers to a call: its parameters as declared, or instantiated by the type
arguments of the call when there are as many of them as type variables.
-/

open TypeStore

variable {g : Guard} {s : TypeStore}

/-- The formals of known parameter types are known. -/
theorem Formals.ofParams_works {params : List TypeId} (v : Bool) (hp : ∀ p ∈ params, s.Knows p) :
    Works (growth g) (ofParams params v) s fun f s' => f.Known s' ∧ f.isVariadic = v := by
  refine Works.of_sound fun hs => ?_
  unfold ofParams
  split
  · refine component_works.bind fun c s' _ hl hc => Works.ret ?_
    exact ⟨⟨fun p h => (growth_grows hl).knows (hp p h), hc.1⟩, rfl⟩
  · exact Works.ret ⟨⟨hp, hs.1.knows_none⟩, rfl⟩

/-- The formals of known parameter types stay. -/
theorem Formals.ofParams_settles (hs : s.WellFormed) {params : List TypeId} (v : Bool)
    (hp : ∀ p ∈ params, s.Knows p) : Settles (ofParams params v) s := by
  unfold ofParams
  split
  · rename_i last hlast
    exact (component_settles hs (hp _ (List.mem_of_getLast? hlast))).bind (.ret _)
  · exact .ret _

namespace Method

variable {m : Method} {typeArgs : List TypeId}

/-- The parameters as declared are known. -/
theorem declaredFormals_works (hp : ∀ p ∈ m.params, s.Knows p) :
    Works (growth g) m.declaredFormals s fun f s' => f.Known s' ∧ f.isVariadic = m.flags.isVariadic :=
  Formals.ofParams_works _ hp

/-- The parameters as declared stay. -/
theorem declaredFormals_settles (hs : s.WellFormed) (hp : ∀ p ∈ m.params, s.Knows p) :
    Settles m.declaredFormals s :=
  Formals.ofParams_settles hs _ hp

/-- Exact arguments are known when their types are. -/
theorem knows_exact (ht : ∀ t ∈ typeArgs, s.Knows t) {a : TypeArg} (ha : a ∈ typeArgs.map .exact) : s.Knows a.type := by
  obtain ⟨t, hmem, rfl⟩ := List.mem_map.mp ha
  exact ht t hmem

/-- The parameters as a call sees them are known. -/
theorem formals_works (hp : ∀ p ∈ m.params, s.Knows p) (ht : ∀ t ∈ typeArgs, s.Knows t) :
    Works (growth g) (m.formals typeArgs) s fun f s' => f.Known s' ∧ f.isVariadic = m.flags.isVariadic := by
  unfold formals
  split
  · exact declaredFormals_works hp
  · refine (Works.mapM (P := fun t u => u.Knows t) m.params (fun _ _ _ hl => (growth_grows hl).knows) fun p h u _ hl => ?_).bind
      fun params s' _ _ hparams => Formals.ofParams_works _ hparams.2
    have hg := growth_grows hl
    exact subst_works (fun a ha => hg.knows (knows_exact ht ha)) (hg.knows (hp p h))

/-- The parameters as a call sees them stay: a callable offers the same ones to every later
call with the same type arguments. -/
theorem formals_settles (hs : s.WellFormed) (hp : ∀ p ∈ m.params, s.Knows p) (ht : ∀ t ∈ typeArgs, s.Knows t) :
    Settles (m.formals typeArgs) s := by
  unfold formals
  split
  · exact declaredFormals_settles hs hp
  · have hsubst (p : TypeId) (h : p ∈ m.params) (g : Guard) (u : TypeStore) (hext : s.Grows u) :
        Works (growth g) (subst p m.typeParams (typeArgs.map .exact)) u fun t u' => u'.Knows t :=
      subst_works (fun a ha => hext.knows (knows_exact ht ha)) (hext.knows (hp p h))
    obtain ⟨hs', -, -, hk⟩ := hs.run fun g =>
      Works.mapM (P := fun t u => u.Knows t) m.params (fun _ _ _ hl => (growth_grows hl).knows) fun p h u _ hl => hsubst p h g u (growth_grows hl)
    refine Settles.bind (.mapM (I := WellFormed) m.params hs fun p h u hu hext => ?_)
      (Formals.ofParams_settles hs' _ hk)
    refine ⟨subst_settles hu (fun a ha => hext.knows (knows_exact ht ha)) (hext.knows (hp p h)), ?_⟩
    exact (hu.run fun g => hsubst p h g u hext.toGrows).1

end Method

end CallResolution
