import CallResolution.Members.Predefined
import CallResolution.Proofs.Members.Signature
import CallResolution.Proofs.Types.Predefined

/-!
# The predefined universe

As long as no member table has been made, headers of classes and bounds of type variables may
still be set. `Plain` universes are those without tables, and `building` is how they grow:
types in every way that leaves the predefined classes alone, and callables of known types.
Once all headers are set, a plain universe is a well-formed one.

The predefined members are laid one by one, in a fixed order, on the predefined types. What is
asked of each step is that the types which it mentions are known, and these are predefined or
were made just before; `Lays` puts such steps together, so the whole is shown in the order in
which the members are written down. Nothing is evaluated for it.

Main statement: `initial_plain` says that the universe before anything is declared is plain.
-/

namespace CallResolution

/-- Everything but the predefined classes may still be changed, and classes may be declared.
-/
def Guard.basic : Guard where
  classes := TypeStore.predefinedClasses.length
  vars := 0
  predefined := Guard.running.predefined
  declares _ := True
  embodies := False
  anyBounds := True
  heads _ _ _ := True

namespace Universe

open TypeStore

variable {u u' : Universe}

/-- What holds of every universe before member tables are made. It is weaker than being well
formed in what it asks of types: headers and bounds are still to be set, and nothing that
depends on them has been computed. -/
structure Plain (u : Universe) : Prop where
  /-- The types are well formed. -/
  types : (growth .basic).Sound u.types
  /-- Callables mention known types. -/
  methods : ∀ (i : Nat) m, u.methods[i]? = some m → m.Known u.types
  /-- Members belong to known classes. -/
  keys : ∀ p ∈ u.members, u.types.Knows p.1
  /-- The methods of classes exist. -/
  declared : ∀ p ∈ u.members, ∀ id ∈ p.2.methods, u.Has id
  /-- No table of a class has been made. -/
  tables : ∀ p ∈ u.members, ∀ t, p.2.table ≠ .built t
  /-- No table of an array has been made. -/
  arrayTables : u.arrayTables = []
  /-- There is no cloning method of arrays. -/
  arrayClone : u.arrayClone = .none
  /-- There is no placeholder. -/
  placeholders : u.placeholders = []

/-- A plain universe is well formed. -/
theorem Plain.wellFormed (h : u.Plain) : u.WellFormed where
  types := h.types.1
  methods := h.methods
  keys := h.keys
  declared := h.declared
  tables p hp t ht := absurd ht (h.tables p hp t)
  arrayTables p hp := by simp [h.arrayTables] at hp
  arrayClone hsome := by simp [h.arrayClone, MethodId.isSome] at hsome
  placeholders p hp := by simp [h.placeholders] at hp

/-- The growth of plain universes. -/
def building : Evolution Universe where
  Sound := Plain
  Leads u u' := (u.Plain → u'.Plain) ∧ (growth .basic).Leads u.types u'.types
  refl _ := ⟨id, .refl⟩
  trans h h' := ⟨fun hs => h'.1 (h.1 hs), h.2.trans h'.2⟩
  sound h := h.1

/-- A step on types builds a universe, also one that sets headers and bounds. -/
theorem onTypes_builds {α : Type} {x : TypeM α} {P : α → TypeStore → Prop}
    (h : Works (growth .basic) x u.types P) :
    Works building (onTypes x) u fun a u' => P a u'.types ∧ u' = { u with types := u'.types } := by
  intro hu
  obtain ⟨hl, hp⟩ := h hu.types
  have hg := growth_grows hl
  refine ⟨⟨fun _ => ?_, hl⟩, hp, rfl⟩
  exact ⟨(growth .basic).sound hl hu.types, fun i m hm => (hu.methods i m hm).grows hg,
    fun p hp => hg.knows (hu.keys p hp), hu.declared, hu.tables, hu.arrayTables, hu.arrayClone, hu.placeholders⟩

/-- A callable that exists does so among more callables. -/
theorem Has.mono {id : MethodId} (h : u.Has id) (hsize : u.methods.size ≤ u'.methods.size) : u'.Has id := by
  unfold Has method? at *
  split at h
  · simp at h
  · rename_i hid
    rw [if_neg hid]
    obtain ⟨hlt, -⟩ := Array.getElem?_eq_some_iff.mp (Option.isSome_iff_exists.mp h).choose_spec
    exact Option.isSome_iff_exists.mpr ⟨_, Array.getElem?_eq_getElem (by omega)⟩

/-- A universe with the types, members and tables of a plain one, and with known callables. -/
theorem Plain.of_same (hu : u.Plain) (types : u'.types = u.types) (size : u.methods.size ≤ u'.methods.size)
    (methods : ∀ (i : Nat) m, u'.methods[i]? = some m → m.Known u.types) (members : u'.members = u.members)
    (arrayTables : u'.arrayTables = u.arrayTables) (arrayClone : u'.arrayClone = u.arrayClone)
    (placeholders : u'.placeholders = u.placeholders) : u'.Plain where
  types := types ▸ hu.types
  methods := types ▸ methods
  keys := by
    rw [members, types]
    exact hu.keys
  declared p hp id hid := (hu.declared p (members ▸ hp) id hid).mono size
  tables := members ▸ hu.tables
  arrayTables := arrayTables.trans hu.arrayTables
  arrayClone := arrayClone.trans hu.arrayClone
  placeholders := placeholders.trans hu.placeholders

/-- The members of a class of which nothing is recorded have no table. -/
theorem Plain.table_ne_built (hu : u.Plain) (t : TypeId) (table : MemberTable) : (u.membersOf t).table ≠ .built table := by
  rcases u.membersOf_cases t with h | h
  · exact hu.tables _ h table
  · simp [h, freshMembers]

/-- Changing members other than the table. -/
theorem modifyMembers_builds {t : TypeId} {f : ClassMembers → ClassMembers} (ht : u.types.Knows t)
    (table : ∀ c, (f c).table = c.table) (methods : ∀ c, ∀ id ∈ (f c).methods, id ∈ c.methods ∨ u.Has id) :
    Works building (modifyMembers t f) u fun _ u' => u'.types = u.types := by
  refine Works.change ⟨fun hu => ?_, .refl⟩ rfl
  refine ⟨hu.types, hu.methods, fun p hp => ?_, fun p hp id hid => ?_, fun p hp tb => ?_, hu.arrayTables, hu.arrayClone, hu.placeholders⟩
  · rcases mem_put hp with hp | rfl
    · exact hu.keys p hp
    · exact hu.types.1.knows_classOf ht
  · rcases mem_put hp with hp | rfl
    · exact hu.declared p hp id hid
    · rcases methods _ id hid with hid | hid
      · exact hu.wellFormed.has_of_declared hid
      · exact hid
  · rcases mem_put hp with hp | rfl
    · exact hu.tables p hp tb
    · rw [table]
      exact hu.table_ne_built t tb

/-- A callable of known types is added. -/
theorem allocMethod_builds {m : Method} (hm : m.Known u.types) :
    Works building (allocMethod m) u fun id u' => u'.Has id ∧ u'.types = u.types := by
  intro hu
  refine ⟨⟨fun _ => hu.of_same rfl ?_ (fun i m' h => ?_) rfl rfl rfl rfl, .refl⟩, ?_, rfl⟩
  · show u.methods.size ≤ (u.methods.push m).size
    simp
  rcases getElem?_push_cases h with h | ⟨-, rfl⟩
  · exact hu.methods i m' h
  · exact hm
  · show (Universe.method? { u with methods := u.methods.push m } ⟨u.methods.size + 1⟩).isSome
    simp [method?, MethodId.none]

/-- Callables are linked. -/
theorem linkBehind_builds (last : Option MethodId) (id : MethodId) :
    Works building (linkBehind last id) u fun _ u' => u'.types = u.types ∧ u'.methods = u.methods :=
  fun hu => ⟨⟨fun _ => hu.of_same rfl le_rfl hu.methods rfl rfl rfl rfl, .refl⟩, rfl, rfl⟩

/-- A callable of known types is added to its class. -/
theorem addMethod_builds {m : Method} (hm : u.types.WellFormed → m.Known u.types) :
    Works building (addMethod m) u fun _ u' => u'.types = u.types := by
  refine Works.of_sound fun hu => ?_
  have hknown := hm hu.types.1
  have hnamed : Method.Known u.types (if m.isConstructor then { m with name := constructorName } else m) := by
    split
    · exact ⟨hknown.owner, hknown.params, hknown.returns, hknown.throws, hknown.typeParams⟩
    · exact hknown
  unfold addMethod
  dsimp only
  generalize (if m.isConstructor then { m with name := constructorName } else m) = m' at hnamed ⊢
  refine (allocMethod_builds hnamed).bind fun id u₁ _ _ h₁ => ?_
  refine Works.read ((linkBehind_builds _ id).bind fun _ u₂ _ _ h₂ => ?_)
  refine (modifyMembers_builds ?_ (fun c => withMember_table _ _ c) fun c id' hid' => ?_).bind
    fun _ u₃ _ _ h₃ => Works.ret (h₃.trans (h₂.1.trans h₁.2))
  · rw [h₂.1, h₁.2]
    exact hnamed.owner
  · rw [withMember_methods] at hid'
    split at hid'
    · exact .inl hid'
    · refine (List.mem_append.mp hid').imp_right fun hnew => ?_
      rw [List.mem_singleton.mp hnew]
      exact h₁.1.mono (le_of_eq (congrArg Array.size h₂.2.symm))

/-- A callable of known types may be given others. -/
theorem modifyMethod_builds {id : MethodId} {f : Method → Method} (hf : ∀ m, m.Known u.types → (f m).Known u.types) :
    Works building (modifyMethod id f) u fun _ u' => u'.types = u.types := by
  refine Works.change ⟨fun hu => hu.of_same rfl (by simp) (fun i m h => ?_) rfl rfl rfl rfl, .refl⟩ rfl
  rcases getElem?_modify_cases h with h | ⟨-, m', hm', rfl⟩
  · exact hu.methods i m h
  · exact hf m' (hu.methods i m' hm')

/-! ## The predefined members

One lemma for each predefined class or family of classes, each put together from those for
single members.
-/

variable {α β γ : Type} {s s' : TypeStore}

/-- A step that builds every universe whose types have grown from given ones. The predefined
members are laid by many small steps, and each of them is shown to build a universe without
another look at the ones before. -/
def Lays (s : TypeStore) (x : UniverseM α) (P : α → TypeStore → Prop) : Prop :=
  ∀ u, s.Grows u.types → Works building x u fun a u' => P a u'.types

namespace Lays

variable {x : UniverseM α} {P : α → TypeStore → Prop} {Q : β → TypeStore → Prop}

theorem ret {a : α} (h : ∀ s', s.Grows s' → P a s') : Lays s (pure a) P :=
  fun u hu => Works.ret (h u.types hu)

theorem bind {f : α → UniverseM β} (hx : Lays s x P) (hf : ∀ a s', s.Grows s' → P a s' → Lays s' (f a) Q) :
    Lays s (x >>= f) Q :=
  fun u hu => (hx u hu).bind fun a u' _ hl ha => hf a u'.types (hu.trans (growth_grows hl.2)) ha u' (.refl _)

theorem grow (hx : Lays s x P) (h : s.Grows s') : Lays s' x P :=
  fun u hu => hx u (h.trans hu)

/-- One step after another, the value of the first not being used. -/
theorem seq {y : UniverseM β} (hx : Lays s x P) (hy : Lays s y Q) : Lays s (x >>= fun _ => y) Q :=
  hx.bind fun _ _ hg _ => hy.grow hg

/-- A step for each element of a list. -/
theorem forIn (l : List γ) {f : γ → PUnit → UniverseM (ForInStep PUnit)}
    (hf : ∀ c ∈ l, ∀ r, Lays s (f c r) fun a _ => a = .yield ⟨⟩) : Lays s (forIn l PUnit.unit f) fun _ _ => True := by
  induction l with
  | nil => exact ret fun _ _ => trivial
  | cons c l ih =>
    rw [List.forIn_cons]
    refine (hf c (by simp) _).bind fun a s' hg ha => ?_
    subst ha
    exact (ih fun c' hc' => hf c' (by simp [hc'])).grow hg

/-- A step on types. -/
theorem types {x : TypeM α} (hx : ∀ s', s.Grows s' → Works (growth .basic) x s' P) : Lays s (onTypes x) P :=
  fun u hu => (onTypes_builds (hx u.types hu)).mono fun _ _ _ _ h => h.1

end Lays

/-- A callable of known types. -/
theorem lays_method {m : Method} (hm : ∀ t ∈ m.owner :: m.returns :: (m.params ++ m.throws ++ m.typeParams), s.Knows t) :
    Lays s (addMethod m) fun _ _ => True := by
  intro u hu
  have hknown (t : TypeId) (ht : t ∈ m.owner :: m.returns :: (m.params ++ m.throws ++ m.typeParams)) : u.types.Knows t :=
    hu.knows (hm t ht)
  refine (addMethod_builds fun _ => ?_).mono fun _ _ _ _ _ => trivial
  exact ⟨hknown _ (by simp), fun t ht => hknown t (by simp [ht]), hknown _ (by simp), fun t ht => hknown t (by simp [ht]),
    fun t ht => hknown t (by simp [ht])⟩

/-- A predefined method. -/
theorem lays_predefinedMethod {owner returns : TypeId} {params : List TypeId} (name : String) (flags : MethodFlags)
    (h : ∀ t ∈ owner :: returns :: params, s.Knows t) :
    Lays s (predefinedMethod owner name returns params flags) fun _ _ => True := by
  unfold predefinedMethod
  exact (lays_method (by simpa using h)).seq (.ret fun _ _ => trivial)

/-- A predefined method of limited access. -/
theorem lays_protectedMethod {owner returns thrown : TypeId} (name : String)
    (h : ∀ t ∈ [owner, returns, thrown], s.Knows t) : Lays s (protectedMethod owner name returns thrown) fun _ _ => True := by
  unfold protectedMethod
  exact (lays_method (by simpa using h)).seq (.ret fun _ _ => trivial)

/-- A predefined constructor. -/
theorem lays_predefinedCtor {owner : TypeId} {params : List TypeId} (access : Access)
    (h : ∀ t ∈ owner :: .void :: params, s.Knows t) : Lays s (predefinedCtor owner access params) fun _ _ => True := by
  unfold predefinedCtor
  exact (lays_method (by simpa using h)).seq (.ret fun _ _ => trivial)

/-- The first type variable of a class is known. -/
theorem lays_firstVariable (t : TypeId) : Lays s (firstVariable t) fun v s' => s'.Knows v := by
  intro u hu hplain
  refine ⟨building.refl u, ?_⟩
  change u.types.Knows (((u.types.classInfo? t).elim [] (·.typeParams)).headD .none)
  cases hinfo : u.types.classInfo? t with
  | none => exact hplain.types.1.knows_none
  | some info =>
    have htypes := (hplain.types.1.knows_classInfo hinfo).typeParams
    cases hparams : info.typeParams with
    | nil => simpa [hparams] using hplain.types.1.knows_none
    | cons v vs => simpa [hparams] using knows_of_isVariable (htypes v (by simp [hparams]))

section Members

variable (hs : TypeStore.initial.Grows s)
include hs

/-- Predefined types are known. -/
theorem knows_of_initial {l : List TypeId} (h : ∀ t ∈ l, TypeStore.initial.Knows t) : ∀ t ∈ l, s.Knows t :=
  fun t ht => hs.knows (h t ht)

/-- A predefined method of predefined types. -/
theorem lays_plainMethod {owner returns : TypeId} {params : List TypeId} {name : String} {flags : MethodFlags}
    (h : ∀ t ∈ owner :: returns :: params, TypeStore.initial.Knows t) :
    Lays s (predefinedMethod owner name returns params flags) fun _ _ => True :=
  lays_predefinedMethod name flags (knows_of_initial hs h)

/-- A predefined constructor of predefined types. -/
theorem lays_plainCtor {owner : TypeId} {params : List TypeId} {access : Access}
    (h : ∀ t ∈ owner :: .void :: params, TypeStore.initial.Knows t) :
    Lays s (predefinedCtor owner access params) fun _ _ => True :=
  lays_predefinedCtor access (knows_of_initial hs h)

theorem lays_object {unknownClass : TypeId} (h : s.Knows unknownClass) :
    Lays s (predefineObject unknownClass) fun _ _ => True := by
  have hobject : s.Knows .object := hs.knows (by decide)
  unfold predefineObject
  refine (lays_plainCtor hs (by decide)).seq ?_
  refine (lays_plainMethod hs (by decide)).seq ?_
  refine (lays_plainMethod hs (by decide)).seq ?_
  refine (lays_plainMethod hs (by decide)).seq ?_
  refine (lays_predefinedMethod _ _ (by simpa [h] using hobject)).seq ?_
  refine (lays_protectedMethod _ (knows_of_initial hs (by decide))).seq ?_
  refine (lays_protectedMethod _ (knows_of_initial hs (by decide))).seq ?_
  refine (lays_plainMethod hs (by decide)).seq ?_
  refine (lays_plainMethod hs (by decide)).seq ?_
  refine (Lays.forIn _ fun params hparams _ => ?_).seq (.ret fun _ _ => trivial)
  have hknown : ∀ params ∈ [[], [prim .long]], ∀ t ∈ TypeId.object :: .void :: (params ++ [.interrupted] ++ []),
      TypeStore.initial.Knows t := by decide
  exact (lays_method (knows_of_initial hs (hknown params hparams))).seq (.ret fun _ _ => rfl)

theorem lays_string {strings objects : TypeId} (hstrings : s.Knows strings) (hobjects : s.Knows objects) :
    Lays s (predefineString strings objects) fun _ _ => True := by
  have hstring : s.Knows .string := hs.knows (by decide)
  unfold predefineString
  refine (lays_plainMethod hs (by decide)).seq ?_
  refine (lays_plainMethod hs (by decide)).seq ?_
  refine (lays_firstVariable .comparable).bind fun v s₁ hg₁ hv => ?_
  have hs₁ := hs.trans hg₁
  have hcompared : ∀ t ∈ [.comparable, prim .int, v], s₁.Knows t := by
    simpa [hv] using ⟨hs₁.knows (t := .comparable) (by decide), hs₁.knows (t := prim .int) (by decide)⟩
  refine (lays_predefinedMethod _ _ hcompared).seq ?_
  refine (lays_plainCtor hs₁ (by decide)).seq ?_
  refine (lays_plainCtor hs₁ (by decide)).seq ?_
  have hchars : Lays s₁ (onTypes (TypeStore.array (prim .char) 1)) fun t s' => s'.Knows t :=
    .types fun s' hg => (array_works 1 ((hs₁.trans hg).knows (by decide))).mono fun _ _ _ _ h => h.1
  refine hchars.bind fun chars s₂ hg₂ hchars => ?_
  have hs₂ := hs₁.trans hg₂
  have hcopied : ∀ t ∈ [.string, .void, chars], s₂.Knows t := by
    simpa [hchars] using ⟨hs₂.knows (t := .string) (by decide), hs₂.knows (t := .void) (by decide)⟩
  refine (lays_predefinedCtor _ hcopied).seq ?_
  refine (lays_plainMethod hs₂ (by decide)).seq ?_
  refine (lays_plainMethod hs₂ (by decide)).seq ?_
  refine (lays_plainMethod hs₂ (by decide)).seq ?_
  refine (lays_plainMethod hs₂ (by decide)).seq ?_
  refine (lays_plainMethod hs₂ (by decide)).seq ?_
  refine (lays_plainMethod hs₂ (by decide)).seq ?_
  refine (lays_plainMethod hs₂ (by decide)).seq ?_
  refine (lays_plainMethod hs₂ (by decide)).seq ?_
  have hgrown := hg₁.trans hg₂
  have hsplit : ∀ t ∈ [.string, strings, .string], s₂.Knows t := by
    simp [hgrown.knows hstring, hgrown.knows hstrings]
  refine (lays_predefinedMethod _ _ hsplit).seq ?_
  refine (Lays.forIn _ fun p hp _ => ?_).seq ?_
  · have hvalues : ∀ p ∈ [.object, prim .boolean, prim .char, prim .int, prim .long, prim .float, prim .double],
        ∀ t ∈ [TypeId.string, .string, p], TypeStore.initial.Knows t := by decide
    exact (lays_plainMethod hs₂ (hvalues p hp)).seq (.ret fun _ _ => rfl)
  · exact lays_predefinedMethod _ _ (by simp [hgrown.knows hstring, hgrown.knows hobjects])

theorem lays_wrapper (p : Primitive) : Lays s (predefineWrapper p) fun _ _ => True := by
  have hknown : ∀ p ∈ Primitive.all, ∀ t ∈ [prim p, .boxOf p, .string, .void, prim .int], TypeStore.initial.Knows t := by
    decide
  have hall (t : TypeId) (ht : t ∈ [prim p, .boxOf p, .string, .void, prim .int]) : TypeStore.initial.Knows t :=
    hknown p (by cases p <;> decide) t ht
  unfold predefineWrapper
  refine (lays_plainCtor hs fun t ht => hall t (by simp_all; tauto)).seq ?_
  refine (lays_plainMethod hs fun t ht => hall t (by simp_all; tauto)).seq ?_
  refine (lays_plainMethod hs fun t ht => hall t (by simp_all; tauto)).seq ?_
  refine (lays_plainMethod hs fun t ht => hall t (by simp_all; tauto)).seq ?_
  exact lays_plainMethod hs fun t ht => hall t (by simp_all; tauto)

theorem lays_numbers : Lays s predefineNumbers fun _ _ => True := by
  unfold predefineNumbers
  refine (lays_plainCtor hs (by decide)).seq ?_
  refine (lays_plainMethod hs (by decide)).seq ?_
  refine (lays_plainMethod hs (by decide)).seq ?_
  refine (lays_plainMethod hs (by decide)).seq ?_
  refine (Lays.forIn _ fun p _ _ => (lays_wrapper hs p).seq (.ret fun _ _ => rfl)).seq ?_
  refine (lays_plainMethod hs (by decide)).seq ?_
  exact lays_plainMethod hs (by decide)

theorem lays_class : Lays s predefineClass fun _ _ => True := by
  unfold predefineClass
  refine (lays_firstVariable .class_).bind fun v s₁ hg₁ hv => ?_
  have hs₁ := hs.trans hg₁
  have hclass : s₁.Knows .class_ := hs₁.knows (by decide)
  have hobject : s₁.Knows .object := hs₁.knows (by decide)
  refine (lays_plainMethod hs₁ (by decide)).seq ?_
  refine (lays_predefinedMethod _ _ (by simpa [hv] using hclass)).seq ?_
  refine (lays_predefinedMethod _ _ (by simpa [hv] using ⟨hclass, hobject⟩)).seq ?_
  exact lays_plainMethod hs₁ (by decide)

theorem lays_throwables : Lays s predefineThrowables fun _ _ => True := by
  unfold predefineThrowables
  refine (Lays.forIn _ fun t ht _ => ?_).seq ?_
  · have hknown : ∀ t ∈ [TypeId.throwable, .exception, .runtimeException, .error], ∀ t' ∈ [t, .void, .string],
        TypeStore.initial.Knows t' := by decide
    have hctor := hknown t ht
    refine (lays_plainCtor hs fun t' ht' => hctor t' (by simp_all; tauto)).seq ?_
    exact (lays_plainCtor hs hctor).seq (.ret fun _ _ => rfl)
  · refine (lays_plainMethod hs (by decide)).seq ?_
    refine (lays_plainCtor hs (by decide)).seq ?_
    exact lays_plainCtor hs (by decide)

theorem lays_enum : Lays s predefineEnum fun _ _ => True := by
  unfold predefineEnum
  refine (lays_plainCtor hs (by decide)).seq ?_
  refine (lays_plainMethod hs (by decide)).seq ?_
  refine (lays_plainMethod hs (by decide)).seq ?_
  refine (lays_firstVariable .enum).bind fun e s₁ hg₁ he => ?_
  have hs₁ := hs.trans hg₁
  have henum : s₁.Knows .enum := hs₁.knows (by decide)
  have hint : s₁.Knows (prim .int) := hs₁.knows (by decide)
  refine (lays_predefinedMethod _ _ (by simp [he, henum, hint])).seq ?_
  refine (lays_method (knows_of_initial hs₁ (by decide))).bind fun id s₂ hg₂ _ => ?_
  -- The type variable is fresh, so its bound may be set.
  have hvar {v : TypeVariable} (hv : v.bounds = []) :
      Lays s₂ (onTypes (registerVariable v)) fun t s' => IsFresh .basic s' t :=
    .types fun s' _ => registerVariable_works hv
  refine (hvar rfl).bind fun v s₃ hg₃ hv => ?_
  have happly {s : TypeStore} (base : TypeId) (hbase : base ∈ [.enum, .class_]) (hg : s₃.Grows s) :
      Lays s (onTypes (TypeStore.apply base [.exact v])) fun t s' => s'.Denotes t := by
    refine .types fun s' hg' => Works.of_sound fun hsound => ?_
    have hdeclared : (s'.shape base).isDeclared := by
      have hpredefined : ∀ base ∈ [TypeId.enum, .class_], base ≠ .none ∧
          ∃ slot ∈ List.range 24, predefinedShapes[base.index]? = some (.declared slot) := by decide
      obtain ⟨hne, slot, -, hslot⟩ := hpredefined base hbase
      rw [hsound.1.shape_predefined hne hslot]
      rfl
    have harg : ∀ a ∈ [TypeArg.exact v], s'.Knows a.type := by
      intro a ha
      rw [List.mem_singleton.mp ha]
      exact (hg.trans hg').knows (knows_of_isVariable hv.isVariable)
    exact (apply_works hdeclared harg).mono fun _ _ _ _ h => h.1
  refine (happly .enum (by simp) (.refl _)).bind fun bound s₄ hg₄ hbound => ?_
  have hset : Lays s₄ (onTypes (modify (·.setBounds v [bound]))) fun _ _ => True := by
    refine .types fun s' hg' => setBounds_works (hv.grows (hg₄.trans hg')) ?_ (.inl trivial)
    simpa using hg'.denotes hbound
  refine hset.seq ?_
  refine (happly .class_ (by simp) hg₄).bind fun classOfV s₅ hg₅ hclass => ?_
  intro u hu
  have hvar : u.types.Knows v := (hg₄.trans (hg₅.trans hu)).knows (knows_of_isVariable hv.isVariable)
  have hgrown : TypeStore.initial.Grows u.types := hs₁.trans (hg₂.trans (hg₃.trans (hg₄.trans (hg₅.trans hu))))
  have hstring : u.types.Knows .string := hgrown.knows (by decide)
  refine (modifyMethod_builds fun m hm => ?_).mono fun _ _ _ _ _ => trivial
  exact ⟨hm.owner, by simp [hu.knows hclass.knows, hstring], hvar, hm.throws, by simp [hvar]⟩

end Members

/-- The predefined members are laid. -/
theorem lays_predefine : Lays TypeStore.initial predefine fun _ _ => True := by
  have harray (e : TypeId) {s : TypeStore} (hs : s.Knows e) :
      Lays s (onTypes (TypeStore.array e 1)) fun t s' => s'.Knows t :=
    .types fun s' hg => (array_works 1 (hg.knows hs)).mono fun _ _ _ _ h => h.1
  unfold predefine
  refine (harray .string (by decide)).bind fun strings s₁ hg₁ hstrings => ?_
  refine (harray .object (hg₁.knows (by decide))).bind fun objects s₂ hg₂ hobjects => ?_
  have hunknown : Lays s₂ (onTypes (TypeStore.apply .class_ [⟨.unbounded, .none⟩])) fun t s' => s'.Knows t := by
    refine .types fun s' hg => Works.of_sound fun hsound => ?_
    have hdeclared : (s'.shape .class_).isDeclared := by
      rw [hsound.1.shape_class]
      rfl
    exact (apply_works hdeclared (by simpa using hsound.1.knows_none)).mono fun _ _ _ _ h => h.1.knows
  refine hunknown.bind fun unknownClass s₃ hg₃ hunknown => ?_
  have hs₃ := hg₁.trans (hg₂.trans hg₃)
  refine (lays_object hs₃ hunknown).seq ?_
  refine (lays_string hs₃ ((hg₂.trans hg₃).knows hstrings) (hg₃.knows hobjects)).seq ?_
  exact (lays_numbers hs₃).seq ((lays_class hs₃).seq ((lays_enum hs₃).seq (lays_throwables hs₃)))

/-- The universe before anything is declared is plain, and its types were added to the
predefined ones. This is shown along the steps that make it, and not by computing it. -/
theorem initial_leads : initial.Plain ∧ (growth .basic).Leads TypeStore.initial initial.types := by
  have hempty : Plain { types := .initial } :=
    ⟨⟨TypeStore.initial_wellFormed, by decide, Nat.zero_le _⟩, by simp, by simp, by simp, by simp, rfl, rfl, rfl⟩
  have hleads := (lays_predefine _ (.refl _) hempty).1
  unfold initial
  exact ⟨hleads.1 hempty, hleads.2⟩

/-- The universe before anything is declared is plain, and has the predefined types. -/
theorem initial_laid : initial.Plain ∧ TypeStore.initial.Grows initial.types :=
  initial_leads.imp_right growth_grows

/-- The universe before anything is declared is plain, and its classes lie in no class. -/
theorem initial_plain : initial.Plain ∧ initial.types.Nested :=
  ⟨initial_laid.1, initial_laid.2.nested TypeStore.initial_nested⟩

/-- What the classes of the universe before anything is declared inherit from fits their
kinds. -/
theorem initial_kinded : initial.types.Kinded :=
  initial_laid.2.kinded TypeStore.initial_kinded

end Universe

end CallResolution
