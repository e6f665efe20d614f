import CallResolution.Proofs.Document.Cycles
import CallResolution.Proofs.Types.Positions

/-!
# Declared classes

Declared classes are new, so their headers may be set, and their type variables are fresh, so
their bounds may be. Members are declared when all headers are set.

The classes of a document are gone through four times, and each time is a section here: they
are registered under their names, they get their type variables, their headers are read, and
their members are declared. What a class may be told depends on how far it has come, and the
stages of the loader say how far that is for all classes at once; `Lays` follows a function of
the loader along such a stage. Between the stages little has to be carried over: that a class
was declared and its header can still be set (`Open`), how its type variables lie (`Declares`,
`Placed`), and in the end that the headers are set and stay (`Heads`).

The positions of type variables are followed with care. A text that cannot be read is refused,
and the others keep the places that they have in the list, so the position of a variable is
counted among texts while the number of a type argument is counted among variables. `Accepted`
is the condition under which the two agree.

Errors in a document are reported and do not stop the loader, so none of the statements
assumes that a document is in order. What is refused leaves a class as it was, and a class on
a cycle is cut back before its members are declared.

Main statement: `buildUniverse_grows` says that the universe of a document is well formed.
-/

namespace CallResolution

namespace Loader

open TypeStore

variable {l l' : Loader} {st : Stage}

/-! ## Registering

A class is registered under a name that is free, with the class around it. Nothing else of it
is known yet, so a member class can be registered right behind its owner.
-/

/-- The class around a class, if there is one, is a declared one. -/
theorem genuine_className? {s : TypeStore} (hs : s.WellFormed) {name : String} {n : ClassName} (h : className? s name = some n) :
    s.Genuine n.outer := by
  have hnamed {host : String} {outer : TypeId} (h : s.classNamed? host = some outer) : s.Genuine outer :=
    genuine_of_isDeclared (hs.isDeclared_of_classNamed h)
  unfold className? at h
  split at h
  · obtain ⟨outer, houter, h⟩ := Option.bind_eq_some_iff.mp h
    cases h
    exact hnamed houter
  · dsimp only at h
    split at h
    · rename_i outer simple _ _ _ hnested
      cases h
      obtain ⟨split, -, hsplit⟩ := List.exists_of_findSome?_eq_some hnested
      obtain ⟨outer', houter, heq⟩ := Option.map_eq_some_iff.mp hsplit
      cases heq
      exact hnamed houter
    · cases h
      exact hs.genuine_none
    · cases h
      exact hs.genuine_none

/-- The name of a class says which class is around it. -/
theorem nameOf_works (d : ClassBody) {outer : TypeId} (houter : l.world.types.Genuine outer) :
    Works (laying st) (nameOf d outer) l fun r l' => ∀ n ∈ r, l'.world.types.Genuine n.outer := by
  refine Works.of_sound fun hl => works_getTypes ?_
  split
  · split
    · exact fault_then loads_laying (by decide) fun _ _ => Works.ret (by simp)
    · exact Works.ret (by simpa using houter)
  · split
    · rename_i n hname
      exact Works.ret (by simpa using genuine_className? hl.plain.types.1 hname)
    · exact fault_then loads_laying (by decide) fun _ _ => Works.ret (by simp)

/-- Marks are read. -/
theorem classFlags_works (d : ClassBody) (f : ClassFlags) (names : List String) :
    Works (laying st) (classFlags d f names) l fun _ l' => l'.world.types = l.world.types := by
  induction names generalizing f l with
  | nil => exact Works.ret rfl
  | cons name names ih =>
    unfold classFlags
    split
    · exact ih _
    · exact fault_then loads_laying (by decide) fun l' h => (ih f).mono fun _ _ _ _ h' => h'.trans h

/-- The kind of a class is read. -/
theorem kindOf_works (d : ClassBody) : Works (laying st) (kindOf d) l fun _ l' => l'.world.types = l.world.types := by
  unfold kindOf
  split
  · exact Works.ret rfl
  · exact fault_then loads_laying (by decide) fun _ h => Works.ret h

/-- A class is registered and listed, unless its name is taken. -/
theorem enter_works (d : ClassBody) {info : ClassInfo} (bare : info.typeParams = []) (known : l.world.types.KnowsClass info)
    (around : l.world.types.Genuine info.outer) (fits : l.world.types.FitsKind info) {x : TypeId → LoadM (Option TypeId)}
    (taken : ∀ prev, Works (laying .names) (x prev) l fun r _ => r = none) :
    Works (laying .names) (do
      match ← onTypes (registerClass info) with
      | .ok id =>
        modify fun l => { l with classes := l.classes ++ [{ id, decl := d }] }
        return some id
      | .error prev => x prev) l fun r l' => ∀ id ∈ r, (l'.world.types.shape id).isDeclared := by
  cases hfree : l.world.types.classNamed? (l.world.types.qualifiedOf info) with
  | some prev =>
    have hrun : onTypes (registerClass info) l = (.error prev, l) := by
      simp only [onTypes, onUniverse, Universe.onTypes, registerClass_of_taken hfree]
    exact Works.congr (bind_of_eq hrun) ((taken prev).mono fun r _ _ _ h => by simp [h])
  | none =>
    have hstep : TypeStore.Step (Stage.guard .names) l.world.types (registerClass info l.world.types).2 :=
      .declared bare known around fits hfree
    generalize hs : (registerClass info l.world.types).2 = s at hstep
    have heq := registerClass_eq hfree
    have hrun : onTypes (registerClass info) l =
        (.ok ⟨l.world.types.shapes.size⟩, { l with world := { l.world with types := s } }) := by
      simp only [onTypes, onUniverse, Universe.onTypes, heq, ← hs]
    intro hl
    rw [bind_of_eq hrun]
    have hplace : s.shape ⟨l.world.types.shapes.size⟩ = .declared l.world.types.classes.size :=
      shape_push hl.plain.types.1.pos (by rw [← hs, heq]; rfl)
    refine ⟨⟨fun _ => hl.withTypes (growth_widen hstep.leads (Stage.guard_within _)) ?_, hstep.leads, rfl, rfl,
      fun closed => absurd bare (closed info)⟩, ?_⟩
    · rw [List.map_append]
      exact hl.listed.push hstep.grows (by rw [← hs, heq]; simp) hplace
    · rintro id ⟨⟩
      show (s.shape _).isDeclared
      rw [hplace]
      rfl

/-- A class that is registered is declared. -/
theorem registerOne_works (d : ClassBody) {outer : TypeId} (houter : l.world.types.Genuine outer) :
    Works (laying .names) (registerOne d outer) l fun r l' => ∀ id ∈ r, (l'.world.types.shape id).isDeclared := by
  unfold registerOne
  dsimp only
  split
  · exact fault_then loads_laying (by decide) fun _ _ => Works.ret (by simp)
  · refine works_span ((nameOf_works d houter).bind fun r l₁ hl₁ _ hr => ?_)
    cases r with
    | none => exact Works.ret (by simp)
    | some n =>
      refine (kindOf_works d).bind fun kind l₂ _ _ h₂ => ?_
      refine (classFlags_works d _ _).bind fun flags l₃ _ _ h₃ => ?_
      refine (accessOf_works loads_laying _ _ _ _).bind fun access l₄ hl₄ _ h₄ => ?_
      have htypes : l₄.world.types = l₁.world.types := h₄.trans (h₃.trans h₂)
      have around : l₄.world.types.Genuine n.outer := htypes ▸ hr n rfl
      refine enter_works d rfl ⟨around.1, hl₄.plain.types.1.inheritable_none, by simp, by simp, by simp⟩ around ⟨by simp, by simp⟩
        fun prev => works_getTypes ?_
      exact (loads_laying.report _ _ (show Code.duplicateClass.IsOrdinary by decide)).bind fun _ _ _ _ _ => Works.ret rfl

mutual

/-- A class and its member classes are registered. -/
theorem register_works {l : Loader} {outer : TypeId} (houter : l.world.types.Genuine outer) :
    (c : ClassDecl) → Works (laying .names) (register outer c) l fun _ _ => True
  | .mk body classes => by
    unfold register
    refine (registerOne_works body houter).bind fun r l₁ _ _ hr => ?_
    cases r with
    | none => exact Works.ret trivial
    | some id => exact registerAll_works (genuine_of_isDeclared (hr id rfl)) classes

/-- Classes are registered. -/
theorem registerAll_works {l : Loader} {outer : TypeId} (houter : l.world.types.Genuine outer) :
    (cs : List ClassDecl) → Works (laying .names) (registerAll outer cs) l fun _ _ => True
  | [] => by
    unfold registerAll
    exact Works.ret trivial
  | c :: cs => by
    unfold registerAll
    refine (register_works houter c).bind fun _ l₁ _ hl₁ _ => ?_
    exact registerAll_works ((loads_laying.grows hl₁).genuine houter) cs

end

/-! ## Type variables

The type variables of all classes are declared before any header is read, because a header may
name every class with type arguments.
-/

/-- A declared class whose header can be set. Nothing in the store speaks of its supertypes or
of bounds of its type variables yet, so they may be chosen freely. -/
structure Open (s : TypeStore) (c : DeclaredClass) : Prop where
  /-- The class is new. -/
  id : IsNewClass .basic s c.id
  /-- Its type variables are fresh. -/
  params : ∀ p ∈ c.params, IsFresh .basic s p.1

theorem Open.grows {s s' : TypeStore} {c : DeclaredClass} (hc : Open s c) (h : s.Grows s') : Open s' c :=
  ⟨hc.id.grows h, fun p hp => (hc.params p hp).grows h⟩

/-- All of some texts can be read as type variables. -/
def Accepted (srcs : List String) : Prop :=
  ∀ src ∈ srcs, (TypeExpr.parseParam src).isOk

instance (srcs : List String) : Decidable (Accepted srcs) :=
  inferInstanceAs (Decidable (∀ src ∈ srcs, _))

/-- Type variables were declared for a class, from a position on. A text that was refused
takes up a position, and none of the listed variables. -/
structure Declares (s s' : TypeStore) (cls : TypeId) (index : Nat) (srcs : List String) (vs : List TypeId) : Prop where
  /-- They are fresh. -/
  fresh : ∀ v ∈ vs, IsFresh .basic s' v
  /-- The class lists them, after those that it had. -/
  listed : ∀ info, s.classInfo? cls = some info → s'.classInfo? cls = some { info with typeParams := info.typeParams ++ vs }
  /-- Those before which no text was refused are registered with their places. -/
  placed : ∀ (i : Nat) v, vs[i]? = some v → Accepted (srcs.take (i + 1)) → s'.RegisteredAt cls (index + i) v

/-- No type variable is declared. -/
theorem Declares.nil (s : TypeStore) (cls : TypeId) (index : Nat) : Declares s s cls index [] [] :=
  ⟨by simp, fun info h => by simpa using h, by simp⟩

/-- A text is refused. -/
theorem Declares.skip {s s' : TypeStore} {cls : TypeId} {index : Nat} {src : String} {srcs : List String} {vs : List TypeId}
    (refused : ¬ (TypeExpr.parseParam src).isOk) (h : Declares s s' cls (index + 1) srcs vs) :
    Declares s s' cls index (src :: srcs) vs :=
  ⟨h.fresh, h.listed, fun i v _ haccepted => absurd (haccepted src (by simp)) refused⟩

/-- One type variable is declared before others. -/
theorem Declares.cons {s s₁ s' : TypeStore} {cls v : TypeId} {index : Nat} {src : String} {srcs : List String} {vs : List TypeId}
    (first : Declares s s₁ cls index [src] [v]) (hlead : (growth .basic).Leads s₁ s') (accepted : (TypeExpr.parseParam src).isOk)
    (rest : Declares s₁ s' cls (index + 1) srcs vs) : Declares s s' cls index (src :: srcs) (v :: vs) where
  fresh w hw := by
    rcases List.mem_cons.mp hw with rfl | hw
    · exact (first.fresh _ (by simp)).grows (growth_grows hlead)
    · exact rest.fresh w hw
  listed info hinfo := by
    rw [rest.listed _ (first.listed info hinfo)]
    simp
  placed i w hw haccepted := by
    cases i with
    | zero =>
      obtain rfl : v = w := by simpa using hw
      exact (first.placed 0 v rfl (by simpa [Accepted] using accepted)).leads hlead
    | succ i =>
      have hplaced := rest.placed i w (by simpa using hw) fun src' hsrc' => haccepted src' (by simp [hsrc'])
      rwa [Nat.add_assoc, Nat.add_comm 1 i] at hplaced

/-- A type variable is declared for a new class. -/
theorem declareParam_works {s : TypeStore} {cls : TypeId} {slot : Nat} (hslot : predefinedClasses.length ≤ slot)
    (hcls : s.shape cls = .declared slot) (name : String) (index : Nat) (src : String) :
    Works (growth (Stage.guard (.params slot))) (do
      let v ← registerVariable { name, index, owner := cls }
      modify (·.modifyClass cls fun info => { info with typeParams := info.typeParams ++ [v] })
      return v) s fun v s' => Declares s s' cls index [src] [v] := by
  have hvar : Works (growth (Stage.guard (.params slot))) (registerVariable { name, index, owner := cls }) s
      fun v s' => IsFresh .basic s' v := registerVariable_works rfl
  refine Works.of_sound fun hs => (hvar.and (registerVariable_places rfl)).bind fun v s₁ _ hl₁ h => ?_
  obtain ⟨hv, rfl, hvariable, hclasses⟩ := h
  have hknown : s.Knows cls := knows_of_shape (by simp [hcls])
  have hcls₁ : s₁.shape cls = .declared slot := ((growth_grows hl₁).shape hknown).trans hcls
  have hinfo₁ : s₁.classInfo? cls = s.classInfo? cls := by
    simp only [classInfo?, classSlot?, hcls₁, hcls, hclasses]
  have hnew : ∀ info, s₁.classInfo? cls = some info → ⟨s.shapes.size⟩ ∉ info.typeParams := by
    intro info hinfo hmem
    rw [hinfo₁] at hinfo
    exact Nat.lt_irrefl _ (knows_of_isVariable ((hs.1.knows_classInfo hinfo).typeParams _ hmem))
  have hheader : Works (growth (Stage.guard (.params slot)))
      (modify (·.modifyClass cls fun info => { info with typeParams := info.typeParams ++ [⟨s.shapes.size⟩] })) s₁ fun _ _ => True := by
    refine modifyClass_works ⟨slot, hslot, hcls₁⟩ (fun info => ⟨_, _, _, rfl⟩) (fun info hfound hinfo => ?_)
      (fun info _ hfits => ⟨hfits.interfaces, hfits.super⟩) fun i hi _ => ?_
    · refine ⟨hinfo.outer, hinfo.super, hinfo.interfaces, fun t ht => ?_, ?_⟩
      · rcases List.mem_append.mp ht with ht | ht
        · exact hinfo.typeParams t ht
        · rw [List.mem_singleton.mp ht]
          exact hv.isVariable
      · refine List.nodup_append.mpr ⟨hinfo.distinct, by simp, fun t ht u hu heq => ?_⟩
        exact hnew info hfound (List.mem_singleton.mp hu ▸ heq ▸ ht)
    · exact (TypeShape.declared.inj (hi.symm.trans hcls₁))
  refine hheader.self.bind fun _ s₂ _ hl₂ h => Works.ret ⟨?_, fun info hinfo => ?_, fun i w hw _ => ?_⟩
  · simpa using hv.grows (growth_grows hl₂)
  · obtain rfl : s₁.modifyClass cls _ = s₂ := congrArg Prod.snd h.2
    have hplace : s₁.classSlot? cls = some slot := by simp [classSlot?, hcls₁]
    rw [classInfo?_modifyClass, if_pos (by simp [hplace]), hinfo₁, hinfo]
    rfl
  · obtain ⟨rfl, rfl⟩ : i = 0 ∧ w = ⟨s.shapes.size⟩ := by
      cases i <;> simp_all
    exact RegisteredAt.leads ⟨_, hvariable, rfl, rfl, rfl⟩ hl₂

/-- Type variables are declared for a new class. -/
theorem declareParams_works {c : DeclaredClass} {slot : Nat} (hslot : predefinedClasses.length ≤ slot)
    (hc : l.world.types.shape c.id = .declared slot) (index : Nat) (srcs : List String) :
    Works (laying (.params slot)) (declareParams c index srcs) l fun ps l' =>
      Declares l.world.types l'.world.types c.id index srcs (ps.map (·.1)) := by
  induction srcs generalizing l index with
  | nil => exact Works.ret (.nil _ _ _)
  | cons src rest ih =>
    unfold declareParams
    split
    · rename_i f hparse
      refine typeFault_then loads_laying fun l₁ h₁ => (ih (h₁ ▸ hc) (index + 1)).mono fun ps l₂ _ _ hps => ?_
      exact (h₁ ▸ hps).skip (by simp [hparse, Except.isOk, Except.toBool])
    · rename_i decl hparse
      refine (onTypes_lays (fun _ => id) (declareParam_works hslot hc decl.name index src)).bind fun v l₁ _ hl₁ h₁ => ?_
      have hc₁ := ((loads_laying.grows hl₁).shape (knows_of_shape (by simp [hc]))).trans hc
      refine (ih hc₁ (index + 1)).bind fun ps l₂ _ hl₂ hps => Works.ret ?_
      exact h₁.1.cons hl₂.any.steps (by simp [hparse, Except.isOk, Except.toBool]) hps

/-- The type variables of a class before which no text of its declaration was refused are
registered with their places. Nothing is said of the others, and indeed their places are
wrong. -/
def Placed (s : TypeStore) (c : DeclaredClass) : Prop :=
  ∀ info, s.classInfo? c.id = some info → ∀ (i : Nat) v, info.typeParams[i]? = some v →
    Accepted (c.decl.typeParams.take (i + 1)) → s.RegisteredAt c.id i v

/-- While headers are set, type variables are left alone. -/
theorem Placed.headers {s s' : TypeStore} {c : DeclaredClass} (hplaced : Placed s c) (hs : s.WellFormed)
    (hc : (s.shape c.id).isDeclared) (hlead : (growth (Stage.guard .headers)).Leads s s') : Placed s' c := by
  intro info' hinfo' i v hv haccepted
  obtain ⟨info, hinfo⟩ := hs.exists_classInfo hc
  obtain ⟨slot, hslot, hi⟩ := Option.bind_eq_some_iff.mp hinfo
  obtain ⟨info'', hi', hsame⟩ := growth_typeParams (Stage.not_embodies _) hlead (fun _ _ h => h) hi
  have hshape : s'.shape c.id = s.shape c.id := (growth_grows hlead).shape (knows_of_isDeclared hc)
  have hslot' : s'.classSlot? c.id = some slot := by
    cases hdeclared : s.shape c.id <;> simp_all [classSlot?, TypeShape.isDeclared]
  obtain rfl : info'' = info' := by
    simpa [classInfo?, hslot', hi'] using hinfo'
  exact (hplaced info hinfo i v (hsame ▸ hv) haccepted).leads hlead

/-- A class that has no type variables yet. -/
def Bare (s : TypeStore) (cls : TypeId) : Prop :=
  ∀ info, s.classInfo? cls = some info → info.typeParams = []

/-- While type variables of one class are declared, another one keeps its declaration. -/
theorem Lays.other {slot slot' : Nat} (h : Lays (.params slot) l l') (hs : l.world.types.WellFormed) {t : TypeId}
    (ht : l.world.types.shape t = .declared slot') (hne : slot' ≠ slot) : l'.world.types.classInfo? t = l.world.types.classInfo? t := by
  have hlt : slot' < l.world.types.classes.size := hs.refers ht (by simp)
  have ht' := ((growth_grows h.steps).shape (knows_of_shape (by simp [ht]))).trans ht
  have hinfo := Array.getElem?_eq_getElem hlt
  simp only [classInfo?, classSlot?, ht, ht', Option.bind_eq_bind, Option.bind_some, hinfo]
  exact growth_infos (Stage.not_embodies _) h.steps (fun _ _ => hne) hinfo

/-- Classes that are registered have no type variables yet. -/
theorem Lays.bare (h : Lays .names l l') (hnone : l.classes = []) (hl : Laid l) {t : TypeId}
    (ht : IsNewClass .basic l'.world.types t) : Bare l'.world.types t := by
  obtain ⟨slot, hslot, hshape⟩ := ht
  intro info hinfo
  have hnow : l'.world.types.classes[slot]? = some info := by simpa [classInfo?, classSlot?, hshape] using hinfo
  obtain ⟨first, hfirst, hheads⟩ := growth_origin (Stage.not_embodies _) h.steps hnow
  have hcount := hl.listed.count
  rw [hnone] at hcount
  rcases hfirst with hfirst | ⟨-, hbare⟩
  · have := (Array.getElem?_eq_some_iff.mp hfirst).1
    simp only [Guard.basic, List.map_nil, List.length_nil] at hslot hcount
    omega
  · cases hheads with
    | refl => exact hbare
    | tail _ hhead => exact hhead.elim

/-- New classes get their type variables. -/
theorem declareAllParams_works (cs : List DeclaredClass) (hcs : ∀ c ∈ cs, IsNewClass .basic l.world.types c.id)
    (hnodup : (cs.map (·.id)).Nodup) : Works (laying .free) (declareAllParams cs) l fun cs' l' =>
      cs'.map (·.id) = cs.map (·.id) ∧ (∀ c ∈ cs', Open l'.world.types c) ∧
        ((∀ c ∈ cs, Bare l.world.types c.id) → ∀ c ∈ cs', Placed l'.world.types c) ∧
          ∀ t, (l.world.types.shape t).isDeclared → t ∉ cs.map (·.id) → l'.world.types.classInfo? t = l.world.types.classInfo? t := by
  induction cs generalizing l with
  | nil => exact Works.ret ⟨rfl, by simp, by simp, fun _ _ _ => rfl⟩
  | cons c cs ih =>
    unfold declareAllParams
    obtain ⟨hhead, hnodup⟩ := List.nodup_cons.mp hnodup
    obtain ⟨slot, hslot, hshape⟩ := id (hcs c (by simp))
    have hparams := works_free (fun _ => id) (declareParams_works hslot hshape 0 c.decl.typeParams)
    refine Works.of_sound fun hl => hparams.bind fun params l₁ _ hl₁ hparams => ?_
    obtain ⟨hparams, hlead₁⟩ := hparams
    have hg₁ := loads_laying.grows hl₁
    have hother {t : TypeId} (ht : (l.world.types.shape t).isDeclared) (hne : t ≠ c.id) :
        l₁.world.types.classInfo? t = l.world.types.classInfo? t := by
      cases hshape' : l.world.types.shape t with
      | declared slot' =>
        refine hlead₁.other hl.plain.types.1 hshape' fun heq => hne ?_
        exact hl.plain.types.1.eq_of_shape (by rw [hshape', hshape, heq]) (by simp [hshape'])
      | _ => simp [hshape', TypeShape.isDeclared] at ht
    refine (ih (fun c' hc' => (hcs c' (by simp [hc'])).grows hg₁) hnodup).bind fun cs' l₂ _ hl₂ hcs' => Works.ret ?_
    obtain ⟨hsame, hopen, hplaced, hkeep⟩ := hcs'
    refine ⟨congrArg (c.id :: ·) hsame, fun c' hc' => ?_, fun hbare c' hc' => ?_, fun t ht hnot => ?_⟩
    · rcases List.mem_cons.mp hc' with rfl | hc'
      · refine Open.grows ⟨(hcs c (by simp)).grows hg₁, fun p hp => ?_⟩ (loads_laying.grows hl₂)
        exact hparams.fresh _ (List.mem_map_of_mem hp)
      · exact hopen c' hc'
    · rcases List.mem_cons.mp hc' with rfl | hc'
      · have hc := (hcs c (by simp)).isDeclared
        intro info hinfo i v hv haccepted
        rw [hkeep c.id (hg₁.isDeclared hc) hhead] at hinfo
        obtain ⟨first, hfirst⟩ := hl.plain.types.1.exists_classInfo hc
        rw [hparams.listed first hfirst, Option.some.injEq] at hinfo
        subst hinfo
        rw [hbare c (by simp) first hfirst, List.nil_append] at hv
        exact Nat.zero_add i ▸ (hparams.placed i v hv haccepted).leads hl₂.steps
      · refine hplaced (fun c'' hc'' info hinfo => ?_) c' hc'
        have hne : c''.id ≠ c.id := fun heq => hhead (List.mem_map.mpr ⟨c'', hc'', heq⟩)
        rw [hother (hcs c'' (by simp [hc''])).isDeclared hne] at hinfo
        exact hbare c'' (by simp [hc'']) info hinfo
    · have hne : t ≠ c.id := fun heq => hnot (by simp [heq])
      rw [hkeep t (hg₁.isDeclared ht) fun hmem => hnot (List.mem_cons_of_mem _ hmem), hother ht hne]

/-! ## Headers

Bounds, superclasses and interfaces are read when all classes and type variables are there.
What is read may be set because the class is still open, and what is set fits the kind of the
class.
-/

/-- Bounds can be written down. -/
theorem boundsOf_works {sc : Scope} (hsc : l.world.types.KnowsScope sc) (p : Place) (bs : List TypeExpr) :
    Works (laying .headers) (boundsOf sc p bs) l fun ts l' => ∀ t ∈ ts, l'.world.types.Denotes t := by
  induction bs generalizing l with
  | nil => exact Works.ret (by simp)
  | cons b bs ih =>
    unfold boundsOf
    refine (typeOfExpr_works loads_laying hsc b _ p).bind fun r l₁ _ hl₁ hr => ?_
    have next := ih (hsc.grows (loads_laying.grows hl₁))
    cases r with
    | none => exact next
    | some id =>
      refine next.bind fun ts l₂ _ hl₂ hts => Works.ret fun t ht => ?_
      rcases List.mem_cons.mp ht with rfl | ht
      · exact (loads_laying.grows hl₂).denotes (hr _ rfl)
      · exact hts t ht

/-- The bounds of fresh type variables are set. -/
theorem setBounds_works {sc : Scope} (hsc : l.world.types.KnowsScope sc) (p : Place) (vs : List (TypeId × TypeParamExpr))
    (hvs : ∀ v ∈ vs, IsFresh .basic l.world.types v.1) : Works (laying .headers) (setBounds sc p vs) l fun _ _ => True := by
  induction vs generalizing l with
  | nil => exact Works.ret trivial
  | cons v vs ih =>
    obtain ⟨v, decl⟩ := v
    unfold setBounds
    have next {l' : Loader} (hl : (laying .headers).Leads l l') : Works (laying .headers) (setBounds sc p vs) l' fun _ _ => True :=
      ih (hsc.grows (loads_laying.grows hl)) fun w hw => (hvs w (by simp [hw])).grows (loads_laying.grows hl)
    dsimp only
    split
    · refine (boundsOf_works hsc p decl.bounds).bind fun bounds l₁ _ hl₁ hbounds => ?_
      have hv : IsFresh (Stage.guard .headers) l₁.world.types v := (hvs (v, decl) (by simp)).grows (loads_laying.grows hl₁)
      refine (onTypes_lays (fun _ => id) (TypeStore.setBounds_works hv hbounds (.inl trivial))).bind fun _ l₂ _ hl₂ _ => ?_
      exact next ((laying .headers).trans hl₁ hl₂)
    · exact next ((laying .headers).refl l)

/-- A class may have a type as its superclass: it may inherit from it, and is no interface,
unless it has no superclass. The root class is the one class without. -/
def MayExtend (s : TypeStore) (info : ClassInfo) (t : TypeId) : Prop :=
  s.Inheritable t ∧ (info.flags.isInterface → t = .none)

/-- A class that names no superclass may inherit from the one that it gets. -/
theorem defaultSuper_works {g : Guard} {s : TypeStore} {c : DeclaredClass} (hc : s.Knows c.id) (info : ClassInfo) :
    Works (growth g) (defaultSuper c info) s fun t s' => MayExtend s' info t := by
  refine Works.of_sound fun hs => ?_
  unfold defaultSuper
  split
  · exact Works.ret ⟨hs.1.inheritable_none, fun _ => rfl⟩
  · rename_i hkind
    split
    · have henum : (s.shape .enum).isDeclared := by
        have hshape : s.shape .enum = .declared 17 := hs.1.shape_predefined (by decide) (by decide)
        rw [hshape]
        rfl
      refine (apply_shape henum (by simpa [TypeArg.exact] using hc) (by simp)).mono fun t s' _ _ h => ?_
      exact ⟨⟨knows_of_shape (by simp [h]), by simp [h, TypeShape.isVariable, TypeShape.isArray]⟩, fun hinterface => absurd hinterface hkind⟩
    · exact Works.ret ⟨hs.1.inheritable_object, fun hinterface => absurd hinterface hkind⟩

/-- A class may inherit from its superclass. -/
theorem superOf_works {c : DeclaredClass} (hc : l.world.types.Knows c.id) (info : ClassInfo) {sc : Scope}
    (hsc : l.world.types.KnowsScope sc) : Works (laying .headers) (superOf c info sc) l fun t l' => MayExtend l'.world.types info t := by
  unfold superOf
  refine (loads_laying.types fun g => defaultSuper_works (g := g) hc info).bind fun fallback l₁ _ hl₁ hfallback => ?_
  dsimp only
  split
  · exact Works.ret hfallback
  · refine (classOf?_works loads_laying (hsc.grows (loads_laying.grows hl₁)) _ _).bind fun r l₂ _ hl₂ hr => ?_
    have hfallback₂ : MayExtend l₂.world.types info fallback :=
      ⟨(loads_laying.grows hl₂).inheritable hfallback.1, hfallback.2⟩
    cases r with
    | none => exact Works.ret hfallback₂
    | some id =>
      refine works_getTypes ?_
      have refuse (msg : String) : Works (laying .headers) (do
          fault .badMember c.decl.place c.decl.name msg
          return fallback) l₂ fun t l' => MayExtend l'.world.types info t :=
        fault_then loads_laying (by decide) fun _ h => Works.ret (h ▸ hfallback₂)
      split
      · exact refuse _
      · rename_i hkind
        split
        · exact refuse _
        · split
          · exact refuse _
          · exact Works.ret ⟨inheritable_of_classInfo (hr id rfl).2, fun hinterface => absurd hinterface hkind⟩

/-- A class may inherit from its interfaces, which are interfaces. -/
theorem interfacesOf_works (d : ClassBody) {sc : Scope} (hsc : l.world.types.KnowsScope sc) (srcs : List String) :
    Works (laying .headers) (interfacesOf d sc srcs) l fun ts l' =>
      ∀ t ∈ ts, l'.world.types.Inheritable t ∧ l'.world.types.IsInterface t := by
  induction srcs generalizing l with
  | nil => exact Works.ret (by simp)
  | cons src rest ih =>
    unfold interfacesOf
    refine (classOf?_works loads_laying hsc src d.place).bind fun r l₁ _ hl₁ hr => ?_
    have hsc₁ := hsc.grows (loads_laying.grows hl₁)
    cases r with
    | none => exact ih hsc₁
    | some id =>
      refine works_getTypes ?_
      split
      · rename_i hinterface
        refine (ih hsc₁).bind fun ts l₂ _ hl₂ hts => Works.ret fun t ht => ?_
        have hg₂ := loads_laying.grows hl₂
        rcases List.mem_cons.mp ht with rfl | ht
        · exact ⟨hg₂.inheritable (inheritable_of_classInfo (hr _ rfl).2), hg₂.isInterface hinterface⟩
        · exact hts t ht
      · exact fault_then loads_laying (by decide) fun l₂ h₂ => ih (h₂ ▸ hsc₁)

/-- The header of a class is set. -/
theorem resolveHeader_works {c : DeclaredClass} (hc : Open l.world.types c) :
    Works (laying .headers) (resolveHeader c) l fun _ _ => True := by
  unfold resolveHeader
  dsimp only
  refine (setBounds_works (knowsScope_cls _ _) _ _ hc.params).bind fun _ l₁ _ hl₁ _ => works_getTypes ?_
  have hc₁ := hc.grows (loads_laying.grows hl₁)
  split
  · exact Works.ret trivial
  · rename_i info hinfo
    refine (superOf_works (knows_of_isDeclared hc₁.id.isDeclared) info (knowsScope_cls _ _)).bind
      fun super l₂ _ hl₂ hsuper => ?_
    have hc₂ := hc₁.grows (loads_laying.grows hl₂)
    have hset : Works (growth (Stage.guard .headers)) (modify (·.modifyClass c.id ({ · with super }))) l₂.world.types fun _ _ => True :=
      modifyClass_works hc₂.id (fun _ => ⟨_, _, _, rfl⟩)
        (fun info _ h => ⟨h.outer, hsuper.1, h.interfaces, h.typeParams, h.distinct⟩)
        (fun info' hinfo' h => ⟨h.interfaces, fun hinterface =>
          hsuper.2 ((loads_laying.grows hl₂).flags_eq hinfo hinfo' ▸ hinterface)⟩) fun _ _ _ => rfl
    refine (onTypes_lays (fun _ => id) hset).bind fun _ l₃ _ hl₃ _ => ?_
    refine (interfacesOf_works c.decl (knowsScope_cls _ _) _).bind fun interfaces l₄ _ hl₄ hinterfaces => ?_
    have hc₄ := hc₂.grows (loads_laying.grows ((laying .headers).trans hl₃ hl₄))
    have hset' : Works (growth (Stage.guard .headers)) (modify (·.modifyClass c.id ({ · with interfaces }))) l₄.world.types
        fun _ _ => True :=
      modifyClass_works hc₄.id (fun _ => ⟨_, _, _, rfl⟩)
        (fun info _ h => ⟨h.outer, h.super, fun t ht => (hinterfaces t ht).1, h.typeParams, h.distinct⟩)
        (fun info _ h => ⟨fun t ht => (hinterfaces t ht).2, h.super⟩) fun _ _ _ => rfl
    exact (onTypes_lays (fun _ => id) hset').mono fun _ _ _ _ _ => trivial

/-- Classes are registered, type variables are declared, and headers are resolved: what comes
before cycles are broken. It is set apart because the cycles of a document are those of the
universe at this point. -/
def resolveHeaders (decls : List ClassDecl) : LoadM (List DeclaredClass) := do
  registerAll .none decls
  let classes ← declareAllParams (← get).classes
  modify ({ · with classes })
  classes.forM resolveHeader
  return classes

/-- Cycles are broken when all headers are resolved. -/
theorem declareHeaders_eq (decls : List ClassDecl) :
    declareHeaders decls = (do
      let classes ← resolveHeaders decls
      breakCycles classes
      return classes) := rfl

/-- The classes of a document are declared, and can be told their members. -/
theorem resolveHeaders_works (decls : List ClassDecl) : Works (laying .any) (resolveHeaders decls) l fun classes l' =>
    Lists l'.world.types (classes.map (·.id)) ∧ (∀ c ∈ classes, Open l'.world.types c) ∧ l'.classes = classes ∧
      (l.classes = [] → ∀ c ∈ classes, Placed l'.world.types c) := by
  refine Works.of_sound fun hl => ?_
  unfold resolveHeaders
  have hnames := works_any (registerAll_works hl.plain.types.1.genuine_none decls)
  refine hnames.bind fun _ l₁ hl₁ _ h₁ => Works.read ?_
  have hparams := works_any (declareAllParams_works l₁.classes (fun c hc => hl₁.isNewClass hc) hl₁.listed.nodup)
  refine hparams.bind fun classes l₂ hl₂ _ hclasses => ?_
  obtain ⟨⟨hsame, hclasses, hplaced, -⟩, hlead₂⟩ := hclasses
  have hlists : Lists l₂.world.types (classes.map (·.id)) := hsame ▸ hlead₂.lists (fun _ => id) hl₁.listed
  have hlist : Works (laying .any) (modify ({ · with classes })) l₂ fun _ l' =>
      l'.world.types = l₂.world.types ∧ l'.classes = classes :=
    Works.change ⟨fun hs => ⟨hs.toUntouched, hlists⟩, .refl, rfl, rfl, fun closed => absurd trivial (closed default)⟩ ⟨rfl, rfl⟩
  refine hlist.bind fun _ l₃ _ _ h₃ => ?_
  obtain ⟨h₃, hlisted₃⟩ := h₃
  have hopen {l' : Loader} (hl : (laying .headers).Leads l₃ l') (c : DeclaredClass) (hc : c ∈ classes) :
      Open l'.world.types c := (h₃ ▸ hclasses c hc).grows (loads_laying.grows hl)
  have hheaders : Works (laying .headers) (classes.forM resolveHeader) l₃ fun _ _ => True :=
    Works.forM classes trivial fun c hc l' _ hl' _ => resolveHeader_works (hopen hl' c hc)
  refine (works_any hheaders).bind fun _ l₄ _ _ h₄ => Works.ret ?_
  refine ⟨h₄.2.lists (fun _ => id) (h₃ ▸ hlists), hopen h₄.2, (h₄.2.classes fun _ => id).trans hlisted₃, fun hnone c hc => ?_⟩
  have hbare : ∀ c ∈ l₁.classes, Bare l₁.world.types c.id := fun c hc => h₁.2.bare hnone hl (hl₁.isNewClass hc)
  exact (hplaced hbare c hc).headers hl₂.plain.types.1 (hclasses c hc).id.isDeclared (h₃ ▸ h₄.2.steps)

/-! ## Members

Members are declared as texts: signatures are read when they are needed. What is added for
every class of a kind, a constructor or the methods of an enumeration, is added here as well.
-/

/-- A field is added. -/
theorem declareField_works {cls : TypeId} (hcls : l.world.types.Knows cls) (info : ClassInfo) (d : FieldDecl) :
    Works filling (declareField cls info d) l fun _ _ => True := by
  unfold declareField
  split
  · exact (fault_works loads_filling _ _ _ _ (by decide)).mono fun _ _ _ _ _ => trivial
  · refine (accessOf_works loads_filling _ _ _ _).bind fun access l₁ _ hl₁ _ => ?_
    refine (typeOf_works loads_filling (knowsScope_cls _ cls) _ _).bind fun type l₂ _ hl₂ _ => ?_
    have hcls₂ := (loads_filling.grows (filling.trans hl₁ hl₂)).knows hcls
    exact (onUniverse_extends (Universe.works_moving (Universe.addField_works hcls₂))
      (fun cls => congrArg Prod.snd (Universe.outline_addField _ _ cls)) ⟨rfl, rfl⟩ rfl fun _ => .refl).bind fun _ _ _ _ _ => Works.ret trivial

/-- No name stands for the mark of accessors. -/
theorem addMethodFlag?_isAccessor {kind : CallableKind} {f f' : MethodFlags} {name : String}
    (h : addMethodFlag? kind f name = some f') : f'.isAccessor = f.isAccessor := by
  unfold addMethodFlag? at h
  split at h <;> simp only [Option.some.injEq, Option.ite_none_left_eq_some, reduceCtorEq] at h
  all_goals first | rw [← h] | rw [← h.2]

/-- Marks are read, none of which makes an accessor. -/
theorem methodFlags_works (kind : CallableKind) (p : Place) (shown : String) {f : MethodFlags} (hf : f.isAccessor = false)
    (names : List String) : Works filling (methodFlags kind p shown f names) l fun f' _ => f'.isAccessor = false := by
  induction names generalizing f l with
  | nil => exact Works.ret hf
  | cons name names ih =>
    unfold methodFlags
    split
    · rename_i f' hadd
      exact ih ((addMethodFlag?_isAccessor hadd).trans hf)
    · exact fault_then loads_filling (by decide) fun _ _ => ih hf

/-- A class of a document with a header. -/
structure Heads (s : TypeStore) (cls : TypeId) (info : ClassInfo) : Prop where
  /-- The class is declared. -/
  declared : (s.shape cls).isDeclared
  /-- The header. -/
  info : s.classInfo? cls = some info
  /-- The class is not the root class. -/
  notRoot : cls ≠ .object

/-- Classes keep their headers while members are declared. -/
theorem Heads.fills {cls : TypeId} {info : ClassInfo} (h : Heads l.world.types cls info) (hl : filling.Sound l)
    (hlead : filling.Leads l l') : Heads l'.world.types cls info where
  declared := (loads_filling.grows hlead).isDeclared h.declared
  info := (hlead.keeps.types.classInfo hl.1.types (knows_of_isDeclared h.declared)).trans h.info
  notRoot := h.notRoot

/-- A class may declare a callable that is public if the class is an interface. -/
theorem Heads.admits {cls : TypeId} {info : ClassInfo} (h : Heads l.world.types cls info) {m : Method} (howner : m.owner = cls)
    (haccess : info.flags.isInterface → m.access = .pub) : l.world.Admits m where
  interface _ hinterface := haccess (by simpa [TypeStore.IsInterface, howner, h.info] using hinterface)
  root _ := by
    rw [howner, Universe.classOf_of_isDeclared h.declared]
    exact h.notRoot

/-- A callable without parameters is added to a known class. -/
theorem addMember_works {m : Method} (howner : (l.world.types.shape m.owner).isDeclared) (hreturns : l.world.types.Knows m.returns)
    (hparams : m.params = []) (hthrows : m.throws = []) (htypeParams : m.typeParams = []) (declared : m.AsDeclared)
    (admits : l.world.Admits m) :
    Works filling (onUniverse (Universe.addMethod m)) l fun _ l' => l'.world.types = l.world.types := by
  have hknown : m.Known l.world.types :=
    ⟨knows_of_isDeclared howner, by simp [hparams], hreturns, by simp [hthrows], by simp [htypeParams]⟩
  refine Works.of_sound fun hl => ?_
  exact (onUniverse_extends (Universe.addMethod_works (fun _ => hknown) (by simp [hparams]) (fun _ => hl.2.isComplete m.owner)
    declared (Universe.classOf_of_isDeclared howner) admits) (Universe.table_addMethod m _) ⟨rfl, rfl⟩ rfl
    fun _ => by rw [Universe.addMethod_eq]; exact .refl).mono
    fun _ _ _ _ h => h.1

/-- A callable is added whose signature is processed later. -/
theorem declareMethod_works {cls : TypeId} {info : ClassInfo} (hcls : Heads l.world.types cls info) (kind : CallableKind)
    (d : MethodDecl) : Works filling (declareMethod cls info kind d) l fun _ _ => True := by
  refine Works.of_sound fun hl => ?_
  unfold declareMethod
  dsimp only
  generalize (if kind = .constructor then info.name else d.name) = shown
  split
  · exact (fault_works loads_filling _ _ _ _ (by decide)).mono fun _ _ _ _ _ => trivial
  · refine (accessOf_works loads_filling _ _ _ _).bind fun given l₁ _ hl₁ _ => ?_
    refine (methodFlags_works kind d.place _ rfl d.flags).bind fun flags l₂ hl₂ hlead₂ hflags => works_span ?_
    have hcls₂ := hcls.fills hl (filling.trans hl₁ hlead₂)
    refine Works.bind (addMember_works hcls₂.declared (loads_filling.wellFormed hl₂).knows_none rfl rfl rfl
      ⟨rfl, hflags, rfl, .inl ⟨_, rfl, rfl⟩⟩ (hcls₂.admits rfl fun hinterface => by simp [memberAccess, hinterface]))
      fun _ _ _ _ _ => ?_
    exact Works.ret trivial

/-- The constructor that a class without declared ones has is added. -/
theorem addDefaultCtor_works {cls : TypeId} (hcls : (l.world.types.shape cls).isDeclared) (info : ClassInfo) :
    Works filling (addDefaultCtor cls info) l fun _ _ => True := by
  refine Works.of_sound fun hl => ?_
  have hvoid : l.world.types.Knows .void := hl.1.types.knows_predefined (by decide)
  unfold addDefaultCtor
  exact (addMember_works hcls hvoid rfl rfl rfl ⟨rfl, rfl, rfl, .inr ⟨rfl, rfl⟩⟩
    (.of_constructor rfl)).bind fun _ _ _ _ _ => Works.ret trivial

/-- The constructors of a class are added. -/
theorem declareCtors_works {cls : TypeId} {info : ClassInfo} (hcls : Heads l.world.types cls info) (d : ClassBody) :
    Works filling (declareCtors cls info d) l fun _ _ => True := by
  refine Works.of_sound fun hl => ?_
  unfold declareCtors
  split
  · split
    · exact (fault_works loads_filling _ _ _ _ (by decide)).mono fun _ _ _ _ _ => trivial
    · exact Works.ret trivial
  · split
    · exact addDefaultCtor_works hcls.declared info
    · exact Works.forM _ trivial fun m _ l₁ _ hl₁ _ => declareMethod_works (hcls.fills hl hl₁) .constructor m

/-- A declared capture is added. -/
theorem declareCapture_works {cls : TypeId} (hcls : l.world.types.Knows cls) (d : ClassBody) (src : String) :
    Works filling (declareCapture cls d src) l fun _ _ => True := by
  unfold declareCapture
  refine (localOf_works loads_filling (knowsScope_cls _ cls) src d.place).bind fun r l₁ _ hl₁ _ => ?_
  cases r with
  | none => exact Works.ret trivial
  | some v =>
    obtain ⟨name, type⟩ := v
    refine Works.read ?_
    split
    · have hreport (l' : Loader) (primary : Source.Span) (msg : String) :=
        loads_filling.report (.warning .duplicateCapture primary msg) l' (show Code.duplicateCapture.IsOrdinary by decide)
      exact works_span (works_getTypes ((hreport _ _ _).mono fun _ _ _ _ _ => trivial))
    · have hcapture := Universe.addCapture_works ((loads_filling.grows hl₁).knows hcls) name type
      obtain ⟨htypes, -, hplaceholders, haccessors, hquiet⟩ := Universe.addCapture_same cls name type l₁.world
      refine (onUniverse_extends (Universe.works_moving hcapture)
        (fun cls => congrArg Prod.snd (Universe.outline_addCapture _ _ _ _ cls)) ⟨hplaceholders, haccessors⟩ hquiet
        fun _ => htypes ▸ .refl).bind fun made l₂ _ _ _ => ?_
      cases made with
      | none => exact (fault_works loads_filling _ _ _ _ (by decide)).mono fun _ _ _ _ _ => trivial
      | some _ => exact Works.ret trivial

/-- The declared captures of a class are added. -/
theorem declareCaptures_works {cls : TypeId} (hcls : l.world.types.Knows cls) (info : ClassInfo) (d : ClassBody) :
    Works filling (declareCaptures cls info d) l fun _ _ => True := by
  unfold declareCaptures
  split
  · exact Works.ret trivial
  · split
    · exact Works.forM _ trivial fun src _ l₁ _ hl₁ _ => declareCapture_works ((loads_filling.grows hl₁).knows hcls) d src
    · exact (fault_works loads_filling _ _ _ _ (by decide)).mono fun _ _ _ _ _ => trivial

/-- The methods that every enumeration has are added. -/
theorem addEnumSupport_works {u : Universe} {t : TypeId} (ht : (u.types.shape t).isDeclared) (hroot : t ≠ .object) :
    Works Universe.moving (Universe.addEnumSupport t) u fun _ _ => True := by
  have harray : Works Universe.moving (Universe.onTypes (TypeStore.array t 1)) u fun a u' =>
      u'.types.Knows a ∧ (u'.types.shape t).isDeclared := by
    refine (Universe.works_moving (Universe.onTypes_works (extending fun _ => array_works 1 (knows_of_isDeclared ht)))).mono fun a u' _ hl h => ?_
    exact ⟨h.1.1, hl.2.types.isDeclared ht⟩
  unfold Universe.addEnumSupport Universe.enumValues Universe.enumValueOf
  refine harray.bind fun array u₁ _ _ h₁ => ?_
  have hknown₁ := knows_of_isDeclared h₁.2
  have hown := Universe.classOf_of_isDeclared h₁.2
  refine (Universe.addMethod_works (fun _ => ⟨hknown₁, by simp, h₁.1, by simp, by simp⟩) (by simp) (fun h => by cases h)
    ⟨rfl, rfl, rfl, .inr ⟨rfl, rfl⟩⟩ hown ⟨fun _ _ => rfl, fun _ => hown.symm ▸ hroot⟩).bind fun _ u₂ hu₂ _ h₂ => ?_
  have hknown : u₂.types.WellFormed → ∀ t' ∈ [t, .string], u₂.types.Knows t' := fun hs => by
    simpa [h₂.1, hknown₁] using h₂.1 ▸ hs.knows_predefined (t := .string) (by decide)
  have hstring : u₂.types.Genuine .string :=
    genuine_of_isDeclared (by rw [hu₂.types.shape_predefined (t := .string) (by decide) rfl]; rfl)
  refine (Universe.addMethod_works (fun hs => ⟨hknown hs t (by simp), ?_, hknown hs t (by simp), by simp, by simp⟩)
    (fun _ => by simpa using hstring) (fun h => by cases h) ⟨rfl, rfl, rfl, .inr ⟨rfl, rfl⟩⟩ (h₂.1 ▸ hown)
    ⟨fun _ _ => rfl, fun _ => (h₂.1 ▸ hown).symm ▸ hroot⟩).bind
      fun _ _ _ _ _ => Works.ret trivial
  simpa using hknown hs .string (by simp)

/-- Adding them makes no table. -/
theorem table_addEnumSupport (t : TypeId) (u : Universe) (cls : TypeId) :
    ((Universe.addEnumSupport t u).2.outline cls).2 = (u.outline cls).2 := by
  have harray : ((Universe.onTypes (TypeStore.array t 1) u).2).outline cls = u.outline cls := rfl
  exact ((Universe.table_addMethod _ _ cls).trans (Universe.table_addMethod _ _ cls)).trans (congrArg Prod.snd harray)

/-- Adding them makes a type of arrays. -/
theorem types_addEnumSupport {u : Universe} {t : TypeId} (ht : u.types.Knows t) (hs : u.types.WellFormed) :
    (growth texting).Leads u.types (Universe.addEnumSupport t u).2.types :=
  (array_works 1 ht (texting_sound hs)).1

/-- The members of a class are added. -/
theorem declareMembers_works {c : DeclaredClass} (hc : (l.world.types.shape c.id).isDeclared) (hroot : c.id ≠ .object) :
    Works filling (declareMembers c) l fun _ _ => True := by
  refine Works.of_sound fun hsound => works_getTypes ?_
  split
  · exact Works.ret trivial
  · rename_i info hinfo
    have hmembers {l' : Loader} (hl : filling.Leads l l') : Heads l'.world.types c.id info :=
      Heads.fills ⟨hc, hinfo, hroot⟩ hsound hl
    have hknown {l' : Loader} (hl : filling.Leads l l') := knows_of_isDeclared (hmembers hl).declared
    have hfields : Works filling (c.decl.fields.forM (declareField c.id info)) l fun _ _ => True :=
      Works.forM _ trivial fun f _ l' _ hl' _ => declareField_works (hknown hl') info f
    refine hfields.bind fun _ l₁ _ hl₁ _ => ?_
    have hmethods : Works filling (c.decl.methods.forM (declareMethod c.id info .method)) l₁ fun _ _ => True :=
      Works.forM _ trivial fun m _ l' _ hl' _ => declareMethod_works (hmembers (filling.trans hl₁ hl')) .method m
    refine hmethods.bind fun _ l₂ _ hl₂ _ => ?_
    have hlead₂ := filling.trans hl₁ hl₂
    refine (declareCtors_works (hmembers hlead₂) c.decl).bind fun _ l₃ _ hl₃ _ => ?_
    have hlead₃ := filling.trans hlead₂ hl₃
    dsimp only
    split
    · refine (onUniverse_extends (addEnumSupport_works (hmembers hlead₃).declared hroot) (table_addEnumSupport c.id _) ⟨rfl, rfl⟩ rfl
        (types_addEnumSupport (hknown hlead₃))).bind fun _ l₄ _ hl₄ _ => ?_
      exact declareCaptures_works (hknown (filling.trans hlead₃ hl₄)) info c.decl
    · exact declareCaptures_works (hknown hlead₃) info c.decl

/-- The loader in which all headers are set: those of classes on a cycle were cut back. From
here on no header changes, and members can be declared. -/
def headersSet (decls : List ClassDecl) (l : Loader) : Loader :=
  let r := resolveHeaders decls l
  r.2.withCut (r.1.filter fun c => r.2.world.types.Inherits c.id c.id)

/-- Cutting classes back is a part of setting headers. -/
theorem headersSet_leads (decls : List ClassDecl) (hl : Laid l) : (growth (Stage.guard .headers)).Leads
    (resolveHeaders decls l).2.world.types (headersSet decls l).world.types := by
  obtain ⟨hlead, -, hopen, -⟩ := resolveHeaders_works (l := l) decls hl
  refine cutAll_leads (hlead.laid hl).plain.types fun id hid => ?_
  obtain ⟨c, hc, rfl⟩ := List.mem_map.mp hid
  exact (hopen c (List.mem_filter.mp hc).1).id

/-- When all headers are set, members are added to the classes of a document. -/
theorem buildUniverse_fills (decls : List ClassDecl) (hl : Laid l) :
    Laid (headersSet decls l) ∧ filling.Sound (headersSet decls l) ∧ Fills (headersSet decls l) (buildUniverse decls l).2 ∧
      (growth .basic).Leads l.world.types (headersSet decls l).world.types := by
  obtain ⟨hlead, hlists, hopen, -⟩ := resolveHeaders_works (l := l) decls hl
  have hcut : Laid (headersSet decls l) :=
    (hlead.laid hl).withCut fun c hc => (hopen c (List.mem_filter.mp hc).1).id
  have hsteps := headersSet_leads decls hl
  have hsound : filling.Sound (headersSet decls l) := ⟨hcut.plain.wellFormed, hcut.soundBodies.2⟩
  have hrun : buildUniverse decls l = (resolveHeaders decls l).1.forM declareMembers (headersSet decls l) := by
    unfold buildUniverse
    rw [declareHeaders_eq]
    show ((breakCycles (resolveHeaders decls l).1 >>= fun _ => (resolveHeaders decls l).1.forM declareMembers)
      (resolveHeaders decls l).2) = _
    exact bind_of_eq (breakCycles_eq _ _)
  have hmembers : Works filling ((resolveHeaders decls l).1.forM declareMembers) (headersSet decls l) fun _ _ => True :=
    Works.forM _ trivial fun c hc l' _ hl' _ => by
      refine declareMembers_works ((loads_filling.grows hl').isDeclared ((growth_grows hsteps).isDeclared (hopen c hc).id.isDeclared)) ?_
      rintro heq
      obtain ⟨slot, hslot, hshape⟩ := (hopen c hc).id
      rw [heq, (hlead.laid hl).plain.types.1.shape_object, TypeShape.declared.injEq] at hshape
      exact absurd (hshape ▸ hslot) (by decide)
  rw [hrun]
  exact ⟨hcut, hsound, (hmembers hsound).1, hlead.steps.trans (growth_widen hsteps (Stage.guard_within _))⟩

/-- The universe of a document is well formed and has no finished bodies, what is declared was
added to what is predefined, and its types were added to those that were there. Headers are
set before anything is declared, and neither a table nor an accessor is made. -/
theorem buildUniverse_grows (decls : List ClassDecl) (hl : Laid l) :
    filling.Sound (buildUniverse decls l).2 ∧ (buildUniverse decls l).2.world.Populated ∧
      l.world.types.Grows (buildUniverse decls l).2.world.types ∧
      (buildUniverse decls l).2.world.placeholders = [] ∧ (buildUniverse decls l).2.world.accessors = [] ∧
      ∃ v : Universe, v.Untouched ∧ v.Keeps (buildUniverse decls l).2.world ∧
        ∀ cls, ((buildUniverse decls l).2.world.outline cls).2 = (v.outline cls).2 := by
  obtain ⟨hlaid, hsound, hfills, hlead⟩ := buildUniverse_fills decls hl
  exact ⟨filling.sound hfills hsound, ⟨_, hlaid.toUntouched, hfills.moves.toAnything⟩,
    (growth_grows hlead).trans (loads_filling.grows hfills), hfills.marks.1.trans hlaid.plain.placeholders,
    hfills.marks.2.trans hlaid.accessors, _, hlaid.toUntouched, hfills.keeps, hfills.tables⟩

end Loader

end CallResolution
