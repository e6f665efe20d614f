import CallResolution.Proofs.Members.Origins
import CallResolution.Proofs.Members.Overriding

/-!
# Methods in conflict

An abstract method that a class inherits is kept when another abstract one of its signature
comes in, which becomes one of its conflicts. What an interface lists is public, unless it is
not abstract. So a conflict that is not public comes with the table of the superclass, like
the method that it conflicts with; and a table lists two methods of one signature only when
its class declares both.

`Universe.Kin` says what follows: a conflict is public, or the class that declares it also
declares the method it conflicts with.

The table of a class is a fold over the tables of its supertypes, and under one name it is a
fold over overloads: `inheritOverload` is its step, and everything is shown of this step and
carried through the folds. For an interface the step keeps that all is `Shown`; for a class it
keeps `KinAll`, as long as what comes in from the superclass is told apart from what is still
to come (`Beside`). The superclass comes first, and it is the only supertype that may list
what is not public. The tables of the supertypes were made at some time before, so the
induction is on the place of the class among its supertypes, in a universe whose tables are
complete.

Main statements: `Populated.exposed` and `Complete.kin`.
-/

namespace CallResolution.Universe

variable {mayFinish : Universe → TypeId → Prop} {u u' : Universe} {cls : TypeId} {id : MethodId}

/-! ## What classes declare

Moves add methods to classes, and each of them says that the method may be added.
-/

/-- A class declares the methods that it did, and perhaps one that it may. -/
theorem Move.declares (h : Move mayFinish u u') (hid : id ∈ (u'.outline cls).1) :
    id ∈ (u.outline cls).1 ∨ ∃ m, u' = (addMethod m u).2 ∧ u.Admits m ∧ m.isConstructor = false ∧ cls = u.types.classOf m.owner ∧
      u'.method? id = some m := by
  have kept {v : Universe} (houtline : v.outline cls = u.outline cls) (hv : id ∈ (v.outline cls).1) : id ∈ (u.outline cls).1 :=
    houtline ▸ hv
  cases h with
  | @method m _ _ declared admits =>
    cases hctor : m.isConstructor with
    | true => exact .inl (kept (outline_addConstructor hctor u cls) hid)
    | false =>
      rw [addMethod_eq, outline_put rfl] at hid
      split at hid
      · rename_i hcls
        simp only [withMember, hctor, declared.notAccessor, Bool.false_eq_true, if_false] at hid
        rcases List.mem_append.mp hid with hid | hid
        · rw [hcls, ← membersOf_outline]
          exact .inl hid
        · rw [List.mem_singleton.mp hid]
          refine .inr ⟨m, rfl, admits, hctor, hcls, ?_⟩
          rw [addMethod_eq]
          simp [method?, MethodId.none, declaredAs, hctor]
      · exact .inl hid
  | @field f _ => exact .inl (kept (outline_addField f u cls) hid)
  | accessor => exact .inl (kept (outline_withAccessor u _ _ cls) hid)
  | arrayMembers =>
    refine .inl (kept ?_ hid)
    unfold outline
    rw [(u.arrayMembers_same).2]
  | @table t st _ _ _ =>
    unfold Universe.withTable at hid
    rw [outline_put rfl] at hid
    split at hid
    · rename_i hcls
      rw [hcls, ← membersOf_outline]
      exact .inl hid
    · exact .inl hid
  | @capture t name type _ => exact .inl (kept (outline_addCapture t name type u cls) hid)
  | @finish t _ _ => exact .inl (kept (outline_completeClass t u cls) hid)
  | _ => exact .inl hid

/-- The methods of interfaces are public, and those of the root class are not abstract. Both
are settled when a method is declared, so no later step can break them. -/
structure Exposed (u : Universe) : Prop where
  /-- The methods of interfaces. -/
  interface : ∀ cls id, u.types.IsInterface cls → id ∈ (u.outline cls).1 → (u.method id).access = .pub
  /-- The methods of the root class. -/
  root : ∀ id ∈ (u.outline .object).1, (u.method id).flags.isAbstract = false

/-- What a class declares exists. -/
theorem WellFormed.has_of_outline (hu : u.WellFormed) (hid : id ∈ (u.outline cls).1) : u.types.Knows cls ∧ u.Has id := by
  unfold outline at hid
  cases hlookup : u.members.lookup cls with
  | none => simp [hlookup] at hid
  | some c =>
    rw [hlookup] at hid
    have hmem := TypeStore.mem_of_lookup hlookup
    exact ⟨hu.keys _ hmem, hu.declared _ hmem id hid⟩

/-- What a move declares is as it may be. -/
theorem Move.exposed (hs : u.SoundBodies) (hu : u.WellFormed) (h : Move mayFinish u u') (hexposed : u.Exposed) : u'.Exposed := by
  have hextends := Moves.types_extends (.single ⟨hu, h⟩)
  have same {cls : TypeId} {id : MethodId} (hid : id ∈ (u.outline cls).1) : (u'.method id).access = (u.method id).access ∧
      (u'.method id).flags = (u.method id).flags := by
    obtain ⟨m, hm⟩ := Option.isSome_iff_exists.mp (hu.has_of_outline hid).2
    obtain ⟨m', hm', hsame⟩ := h.sameDeclaration hs hu hm
    rw [method_eq hm, method_eq hm']
    exact ⟨hsame.access, hsame.flags⟩
  refine ⟨fun cls id hinterface hid => ?_, fun id hid => ?_⟩
  · rcases h.declares hid with hold | ⟨m, hadded, hadmits, hctor, hcls, hm⟩
    · rw [(same hold).1]
      refine hexposed.interface cls id ?_ hold
      rwa [TypeStore.IsInterface, hextends.classInfo hu.types (hu.has_of_outline hold).1] at hinterface
    · rw [method_eq hm]
      refine hadmits.interface hctor ?_
      have htypes : u'.types = u.types := by rw [hadded, addMethod_eq]
      rwa [hcls, TypeStore.IsInterface, htypes, hu.types.classInfo?_classOf] at hinterface
  · rcases h.declares hid with hold | ⟨m, -, hadmits, hctor, hcls, -⟩
    · rw [(same hold).2]
      exact hexposed.root id hold
    · exact absurd hcls.symm (hadmits.root hctor)

/-- The methods of predefined interfaces are public, and those of the root class are not
abstract. -/
theorem initial_exposed : ∀ p ∈ initial.members, p.1 ≠ .none ∧
    (∃ slot ∈ List.range TypeStore.predefinedClasses.length, TypeStore.predefinedShapes[p.1.index]? = some (.declared slot) ∧
      ∃ info ∈ TypeStore.predefinedClasses[slot]?, info.flags.isInterface → ∀ id ∈ p.2.methods, (initial.method id).access = .pub) ∧
    (p.1 = .object → ∀ id ∈ p.2.methods, (initial.method id).flags.isAbstract = false) := by
  decide +kernel

/-- What is predefined is as it may be. -/
theorem Untouched.exposed (h : u.Untouched) : u.Exposed := by
  have hmethod (id : MethodId) : u.method id = initial.method id := by
    unfold Universe.method
    rw [h.method?]
  have found {cls : TypeId} {id : MethodId} (hid : id ∈ (u.outline cls).1) : ∃ c, (cls, c) ∈ initial.members ∧ id ∈ c.methods := by
    unfold outline at hid
    cases hlookup : u.members.lookup cls with
    | none => simp [hlookup] at hid
    | some c =>
      rw [hlookup] at hid
      exact ⟨c, h.members ▸ TypeStore.mem_of_lookup hlookup, hid⟩
  refine ⟨fun cls id hinterface hid => ?_, fun id hid => ?_⟩
  · obtain ⟨c, hc, hid⟩ := found hid
    obtain ⟨hne, ⟨slot, -, hshape, info, hinfo, hpublic⟩, -⟩ := initial_exposed _ hc
    have hs := h.plain.types.1
    rw [TypeStore.IsInterface, hs.classInfo_predefined (hs.shape_predefined hne hshape) hinfo] at hinterface
    rw [hmethod]
    exact hpublic hinterface id hid
  · obtain ⟨c, hc, hid⟩ := found hid
    rw [hmethod]
    exact (initial_exposed _ hc).2.2 rfl id hid

/-- The methods of interfaces are public at all times, and those of the root class are not
abstract. -/
theorem Populated.exposed (h : u.Populated) : u.Exposed := by
  have hboth : u.SoundBodies ∧ u.Exposed := h.keeps (I := fun v => v.SoundBodies ∧ v.Exposed)
    (fun v hv => ⟨hv.soundBodies.1, hv.exposed⟩) fun hv hmove hi =>
      ⟨Moves.soundBodies (.single ⟨hv, hmove⟩) hi.1, hmove.exposed hi.1 hv hi.2⟩
  exact hboth.2

/-- The tables of arrays list no conflicts. -/
theorem Populated.arrays_plain (h : u.Populated) : ∀ p ∈ u.arrayTables, p.2.All fun s => s.conflicts = [] := by
  refine h.keeps (I := fun v => ∀ p ∈ v.arrayTables, p.2.All fun s => s.conflicts = []) (fun v hv p hp => ?_)
    fun _ hmove hi p hp => ?_
  · rw [hv.plain.arrayTables] at hp
    cases hp
  · exact (hmove.arrayTables_cases hp).elim (hi p) (·.2)

/-! ## Overloads of one name

Merging a table touches the overloads of each name for itself.
-/

/-- The overloads of a name in the table of a class after one more was inherited. -/
def inheritOverload (u : Universe) (owner : TypeId) (ss : List Shadow) (s : Shadow) : List Shadow :=
  if u.inheritable (u.method s.method) owner then
    if ss.any (fun x => u.sameSignature x.method s.method) then
      MemberTable.updateFirst (fun x => u.sameSignature x.method s.method) (u.mergeShadow owner s) ss
    else ss ++ [s]
  else ss

variable {owner p : TypeId} {name : String} {t up : MemberTable} {s x y : Shadow} {ss : List Shadow} {c : MethodId}

/-- An overload was there, came in, or is what one that was there was merged to. -/
theorem mem_inheritOverload (h : x ∈ u.inheritOverload owner ss s) :
    x ∈ ss ∨ x = s ∨ ∃ y ∈ ss, u.sameSignature y.method s.method ∧ x = u.mergeShadow owner s y := by
  unfold inheritOverload at h
  split at h
  · split at h
    · rcases mem_updateFirst h with hx | ⟨y, hy, hsame, rfl⟩
      · exact .inl hx
      · exact .inr (.inr ⟨y, hy, hsame, rfl⟩)
    · rcases List.mem_append.mp h with hx | hx
      · exact .inl hx
      · exact .inr (.inl (List.mem_singleton.mp hx))
  · exact .inl h

/-- An inherited method touches the overloads of its own name. -/
theorem overloads_inheritMethod (u : Universe) (name name' : String) (t : MemberTable) (s : Shadow) :
    (u.inheritMethod name t s).overloads name' =
      if name' = name then u.inheritOverload t.owner (t.overloads name) s else t.overloads name' := by
  unfold inheritMethod inheritOverload
  by_cases hname : name' = name
  · rw [if_pos hname, hname]
    split
    · dsimp only
      split
      · rw [overloads_put_self]
      · rw [overloads_addMethod, if_pos rfl]
    · rfl
  · rw [if_neg hname]
    split
    · dsimp only
      split
      · rw [overloads_put_of_ne _ hname]
      · rw [overloads_addMethod, if_neg hname]
    · rfl

/-- Several of them, too. -/
theorem overloads_foldl_inheritMethod (u : Universe) (name name' : String) (ss : List Shadow) (t : MemberTable) :
    (ss.foldl (u.inheritMethod name) t).overloads name' =
      if name' = name then ss.foldl (u.inheritOverload t.owner) (t.overloads name) else t.overloads name' := by
  induction ss generalizing t with
  | nil => split <;> simp_all
  | cons s ss ih =>
    rw [List.foldl_cons, ih, overloads_inheritMethod, overloads_inheritMethod, inheritMethod_owner, if_pos rfl]
    split <;> simp_all

/-- What a table inherits under a name comes from the overloads that have it. -/
theorem overloads_inherit (hup : (up.methods.map (·.1)).Nodup) (u : Universe) (t : MemberTable) (name : String) :
    (u.inherit t up).overloads name = (up.overloads name).foldl (u.inheritOverload t.owner) (t.overloads name) := by
  have methods (ps : List (String × List Shadow)) (hps : (ps.map (·.1)).Nodup) (t : MemberTable) :
      (ps.foldl (fun t p => p.2.foldl (u.inheritMethod p.1) t) t).overloads name =
        ((ps.lookup name).getD []).foldl (u.inheritOverload t.owner) (t.overloads name) := by
    induction ps generalizing t with
    | nil => rfl
    | cons p ps ih =>
      obtain ⟨hp, hps⟩ := List.nodup_cons.mp hps
      rw [List.foldl_cons, ih hps, overloads_foldl_inheritMethod, foldl_inheritMethod_owner u p.1 p.2 rfl]
      by_cases hname : name = p.1
      · -- no further entry has the name
        have hnone : ps.lookup name = none := by
          rw [List.lookup_eq_none_iff]
          intro q hq
          rw [bne_iff_ne, hname]
          exact fun heq => hp (List.mem_map.mpr ⟨q, hq, heq.symm⟩)
        subst hname
        rw [if_pos rfl, hnone, List.lookup_cons, beq_self_eq_true]
        rfl
      · rw [if_neg hname, List.lookup_cons, beq_false_of_ne hname]
  have fields (t : MemberTable) (l : List (String × FieldId)) :
      (l.foldl (fun t p => u.inheritField t p.1 p.2) t).overloads name = t.overloads name := by
    refine foldl_keeps (P := fun t' : MemberTable => t'.overloads name = t.overloads name) rfl fun p _ t' ht' => ?_
    rw [← ht']
    unfold MemberTable.overloads
    rw [(inheritField_keeps u t' p.1 p.2).2]
  unfold inherit
  rw [fields, methods _ hup]
  rfl

/-! ## Conflicts

What one step of the fold keeps.
-/

/-- A method of a name and a conflict of it: both are abstract, and the conflict is public
unless one class declares both. So a call that is within reach of the method is within reach
of the conflict, apart from this one case. -/
structure Kin (u : Universe) (name : String) (a c : MethodId) : Prop where
  /-- The name of the conflict. -/
  name : (u.method c).name = name
  /-- The method is abstract. -/
  abstract : (u.method a).flags.isAbstract
  /-- The conflict is abstract. -/
  conflict : (u.method c).flags.isAbstract
  /-- It is another method. -/
  other : c ≠ a
  /-- It is public, or a sibling. -/
  near : (u.method c).access = .pub ∨ (u.method c).owner = (u.method a).owner

/-- The conflicts of an overload that conflicts are added to. -/
theorem conflicts_addConflicts {cs : List MethodId} (h : c ∈ (addConflicts x cs).conflicts) :
    c ∈ x.conflicts ∨ c ∈ cs ∧ c ≠ x.method := by
  induction cs generalizing x with
  | nil => exact .inl h
  | cons d cs ih =>
    unfold addConflicts at h
    split at h
    · exact (ih h).imp_right fun h => ⟨List.mem_cons_of_mem d h.1, h.2⟩
    · rename_i hnew
      simp only [Bool.or_eq_true, decide_eq_true_eq, not_or] at hnew
      rcases ih h with h | ⟨h, hne⟩
      · rcases List.mem_append.mp h with h | h
        · exact .inl h
        · rw [List.mem_singleton.mp h]
          exact .inr ⟨by simp, hnew.1⟩
      · exact .inr ⟨List.mem_cons_of_mem d h, hne⟩

/-- Where a conflict of merged overloads comes from. -/
theorem conflicts_mergeShadow (h : c ∈ (u.mergeShadow owner s y).conflicts) : (u.mergeShadow owner s y).method = y.method ∧
    (c ∈ y.conflicts ∨ (u.method y.method).owner ≠ owner ∧ (u.method y.method).flags.isAbstract ∧
      (u.method s.method).flags.isAbstract ∧ c ≠ y.method ∧ (c = s.method ∨ c ∈ s.conflicts)) := by
  unfold mergeShadow at h ⊢
  dsimp only at h ⊢
  split at h
  · rename_i hkept
    rw [if_pos hkept]
    exact ⟨rfl, .inl h⟩
  · rename_i hother
    rw [if_neg hother]
    simp only [Bool.or_eq_true, decide_eq_true_eq, not_or] at hother
    split at h
    · rename_i hconcrete
      rw [if_pos hconcrete]
      exact ⟨rfl, .inl h⟩
    · rename_i habstract
      rw [if_neg habstract]
      split at h
      · cases h
      · rename_i hincoming
        rw [if_neg hincoming]
        refine ⟨addConflicts_method _ _, (conflicts_addConflicts h).imp_right fun ⟨hc, hne⟩ => ?_⟩
        exact ⟨hother.1, by simpa using habstract, by simpa using hincoming, hne, List.mem_cons.mp hc⟩

/-- A declared method is left alone when another one is merged in. -/
theorem mergeShadow_of_declared (h : (u.method y.method).owner = owner) : u.mergeShadow owner s y = y := by
  simp [mergeShadow, h]

/-- An overload as an interface lists it: it is public unless it is not abstract, and so are
its conflicts. -/
structure Shown (u : Universe) (name : String) (s : Shadow) : Prop where
  /-- The name. -/
  named : (u.method s.method).name = name
  /-- The method. -/
  method : (u.method s.method).flags.isAbstract → (u.method s.method).access = .pub
  /-- The conflicts. -/
  conflicts : ∀ c ∈ s.conflicts, u.Kin name s.method c ∧ (u.method c).access = .pub

/-- Overloads that are shown are inherited. -/
theorem Shown.inheritOverload (hs : u.Shown name s) (hss : ∀ y ∈ ss, u.Shown name y) (hx : x ∈ u.inheritOverload owner ss s) :
    u.Shown name x := by
  rcases mem_inheritOverload hx with hx | rfl | ⟨y, hy, -, rfl⟩
  · exact hss x hx
  · exact hs
  · have hshown := hss y hy
    refine ⟨?_, ?_, fun c hc => ?_⟩
    · rcases u.mergeShadow_method owner s y with heq | ⟨-, heq⟩ <;> rw [heq]
      exacts [hshown.named, hs.named]
    · rcases u.mergeShadow_method owner s y with heq | ⟨-, heq⟩ <;> rw [heq]
      exacts [hshown.method, hs.method]
    · obtain ⟨heq, hold | ⟨-, habstract, hincoming, hne, hnew⟩⟩ := conflicts_mergeShadow hc
      · rw [heq]
        exact hshown.conflicts c hold
      · rw [heq]
        rcases hnew with rfl | hnew
        · exact ⟨⟨hs.named, habstract, hincoming, hne, .inl (hs.method hincoming)⟩, hs.method hincoming⟩
        · obtain ⟨hkin, hpublic⟩ := hs.conflicts c hnew
          exact ⟨⟨hkin.name, habstract, hkin.conflict, hne, .inl hpublic⟩, hpublic⟩

/-- All conflicts of an overload are kin of its method. -/
def KinAll (u : Universe) (name : String) (s : Shadow) : Prop :=
  ∀ c ∈ s.conflicts, u.Kin name s.method c

/-- What an interface lists is inherited. -/
theorem KinAll.inheritOverload (hs : u.Shown name s) (hss : ∀ y ∈ ss, u.KinAll name y) (hx : x ∈ u.inheritOverload owner ss s) :
    u.KinAll name x := by
  rcases mem_inheritOverload hx with hx | rfl | ⟨y, hy, -, rfl⟩
  · exact hss x hx
  · exact fun c hc => (hs.conflicts c hc).1
  · intro c hc
    obtain ⟨heq, hold | ⟨-, habstract, hincoming, hne, hnew⟩⟩ := conflicts_mergeShadow hc
    · rw [heq]
      exact hss y hy c hold
    · rw [heq]
      rcases hnew with rfl | hnew
      · exact ⟨hs.named, habstract, hincoming, hne, .inl (hs.method hincoming)⟩
      · obtain ⟨hkin, hpublic⟩ := hs.conflicts c hnew
        exact ⟨hkin.name, habstract, hkin.conflict, hne, .inl hpublic⟩

/-- An overload beside those of a superclass that are still to come: the class declares it, or
it is told apart from them. This is what keeps two methods that are not public from meeting:
both would come from the one superclass, whose table tells them apart. -/
def Beside (u : Universe) (owner p : TypeId) (name : String) (rest : List Shadow) (x : Shadow) : Prop :=
  (u.method x.method).owner = owner ∧ x.conflicts = [] ∨ (∀ y ∈ rest, u.Apart p x y) ∧ u.KinAll name x

/-- What a superclass lists is inherited by a class. -/
theorem Beside.inheritOverload {rest : List Shadow} (hs : (u.method s.method).name = name ∧ u.KinAll name s)
    (happart : ∀ y ∈ rest, u.Apart p s y) (hss : ∀ y ∈ ss, u.Beside owner p name (s :: rest) y)
    (hx : x ∈ u.inheritOverload owner ss s) : u.Beside owner p name rest x := by
  rcases mem_inheritOverload hx with hx | rfl | ⟨y, hy, hsame, rfl⟩
  · exact (hss x hx).imp_right fun h => ⟨fun z hz => h.1 z (List.mem_cons_of_mem s hz), h.2⟩
  · exact .inr ⟨happart, hs.2⟩
  · rcases hss y hy with ⟨howner, hplain⟩ | ⟨hapart, hkin⟩
    · rw [mergeShadow_of_declared howner]
      exact .inl ⟨howner, hplain⟩
    · refine .inr ⟨fun z hz => ?_, fun c hc => ?_⟩
      · unfold Apart
        rcases u.mergeShadow_method owner s y with heq | ⟨-, heq⟩ <;> rw [heq]
        exacts [hapart z (List.mem_cons_of_mem s hz), happart z hz]
      · obtain ⟨heq, hold | ⟨-, habstract, hincoming, hne, hnew⟩⟩ := conflicts_mergeShadow hc
        · rw [heq]
          exact hkin c hold
        · -- the superclass declares both, since they have one signature
          rw [heq]
          obtain ⟨-, hdeclares, hdeclared⟩ := hapart s (by simp) hsame
          rcases hnew with rfl | hnew
          · exact ⟨hs.1, habstract, hincoming, hne, .inr (hdeclared.trans hdeclares.symm)⟩
          · have hnear := hs.2 c hnew
            refine ⟨hnear.name, habstract, hnear.conflict, hne, hnear.near.imp_right fun howner => ?_⟩
            rw [howner, hdeclared, hdeclares]

/-- All that a superclass lists is inherited by a class. -/
theorem kinAll_of_superclass {rest : List Shadow} (hrest : ∀ s ∈ rest, (u.method s.method).name = name ∧ u.KinAll name s)
    (happart : rest.Pairwise (u.Apart p)) (hss : ∀ y ∈ ss, u.Beside owner p name rest y) :
    ∀ x ∈ rest.foldl (u.inheritOverload owner) ss, u.KinAll name x := by
  induction rest generalizing ss with
  | nil =>
    intro x hx
    rcases hss x hx with ⟨-, hplain⟩ | ⟨-, hkin⟩
    · intro c hc
      rw [hplain] at hc
      cases hc
    · exact hkin
  | cons s rest ih =>
    obtain ⟨hfirst, hothers⟩ := List.pairwise_cons.mp happart
    exact ih (fun y hy => hrest y (by simp [hy])) hothers fun y hy =>
      Beside.inheritOverload (hrest s (by simp)) hfirst hss hy

/-! ## Whole tables

What the folds keep, and then all tables, by induction.
-/

/-- What a class declares stands under its name without conflicts. -/
theorem declaredTable_overloads (hu : u.WellFormed) (hcls : (u.types.shape cls).isDeclared)
    (hx : x ∈ (u.declaredTable cls).overloads name) :
    x.method ∈ (u.outline cls).1 ∧ x.conflicts = [] ∧ (u.method x.method).name = name := by
  have hdeclared : (u.declaredTable cls).All fun s => s.method ∈ (u.outline cls).1 ∧ s.conflicts = [] :=
    declaredTable_all (P := fun s => s.method ∈ (u.outline cls).1 ∧ s.conflicts = []) fun id hid =>
      ⟨by rwa [outline_of_isDeclared hcls], rfl⟩
  have hfiled : u.Filed (u.declaredTable cls) := declaredTable_filed fun id hid => by
    have hmem : id ∈ (u.outline cls).1 := by rwa [outline_of_isDeclared hcls]
    exact (hu.has_of_outline hmem).2
  obtain ⟨m, hm, hname⟩ := hfiled.overloads hx
  exact ⟨(hdeclared.overloads hx).1, (hdeclared.overloads hx).2, by rw [method_eq hm, hname]⟩

/-- A table that is there is sound. -/
theorem WellFormed.soundTable_of_built (hu : u.WellFormed) (h : (u.outline cls).2 = .built t) : u.SoundTable t := by
  unfold outline at h
  cases hlookup : u.members.lookup cls with
  | none => simp [hlookup] at h
  | some c =>
    rw [hlookup] at h
    exact hu.tables _ (TypeStore.mem_of_lookup hlookup) t h

/-- What the overloads of the tables of supertypes are merged to. -/
theorem Gathered.overloads (hg : u.Gathered cls t) (hu : u.WellFormed) (name : String) : t.overloads name =
    (u.tableParents cls).foldl (fun ss p => ((u.tableAt p).overloads name).foldl (u.inheritOverload cls) ss)
      ((u.declaredTable cls).overloads name) := by
  have merged (ps : List TypeId) (hps : ∀ p ∈ ps, (u.outline p).2 = .built (u.tableAt p)) (t : MemberTable) (ht : t.owner = cls) :
      (ps.foldl (fun t p => u.inherit t (u.tableAt p)) t).overloads name =
        ps.foldl (fun ss p => ((u.tableAt p).overloads name).foldl (u.inheritOverload cls) ss) (t.overloads name) := by
    induction ps generalizing t with
    | nil => rfl
    | cons p ps ih =>
      rw [List.foldl_cons, List.foldl_cons, ih (fun q hq => hps q (by simp [hq])) _ ((inherit_owner u t _).trans ht),
        overloads_inherit (hu.soundTable_of_built (hps p (by simp))).filed.nodup, ht]
  rw [hg.merged.overloads, merged _ hg.parents _ (u.declaredTable_owner cls)]

/-- The tables that are merged into that of a class are those of its superclass and then those
of interfaces. -/
theorem tableParents_of_class (hk : u.types.Kinded) (hu : u.WellFormed) (hcls : ¬ u.types.IsInterface cls) :
    ∃ supers interfaces, u.tableParents cls = supers ++ interfaces ∧ supers.length ≤ 1 ∧
      ∀ p ∈ interfaces, u.types.IsInterface p := by
  unfold TypeStore.IsInterface at hcls
  unfold tableParents
  dsimp only
  rw [if_neg hcls]
  unfold TypeStore.parents TypeStore.directSupertypes
  cases hinfo : u.types.classInfo? cls with
  | none => exact ⟨[], [], rfl, by simp, by simp⟩
  | some info =>
    dsimp only
    rw [List.map_append, List.filter_append, List.filter_append]
    refine ⟨_, _, rfl, ?_, fun p hp => ?_⟩
    · refine (List.length_filter_le _ _).trans ((List.length_filter_le _ _).trans ?_)
      split <;> simp
    · obtain ⟨t, ht, rfl⟩ := List.mem_map.mp (List.mem_of_mem_filter (List.mem_of_mem_filter hp))
      obtain ⟨slot, -, hslot⟩ := Option.bind_eq_some_iff.mp hinfo
      rw [TypeStore.IsInterface, hu.types.classInfo?_classOf]
      exact (hk slot info hslot).interfaces t ht

/-- The supertypes of an interface are interfaces, beside the root class. -/
theorem isInterface_of_tableParent (hk : u.types.Kinded) (hu : u.WellFormed) (hcls : u.types.IsInterface cls ∨ cls = .object)
    (hp : p ∈ u.tableParents cls) : u.types.IsInterface p ∨ p = .object := by
  rcases hcls with hcls | rfl
  · exact (parent_or_object hp).imp_left (hk.isInterface_parent hu.types hcls)
  · exact absurd hp (hu.not_tableParent_object p)

/-- What interfaces and the root class list is public unless it is not abstract. -/
theorem Complete.shown (h : u.Complete) (hu : u.WellFormed) (hk : u.types.Kinded) (hexposed : u.Exposed)
    (hcls : (u.types.shape cls).isDeclared) (hbuilt : (u.outline cls).2 = .built t)
    (hkind : u.types.IsInterface cls ∨ cls = .object) : ∀ name, ∀ x ∈ t.overloads name, u.Shown name x := by
  refine h.induction (P := fun cls t => (u.types.IsInterface cls ∨ cls = .object) → ∀ name, ∀ x ∈ t.overloads name, u.Shown name x)
    hu (fun {cls t} hcls hg ih hkind name => ?_) hcls hbuilt hkind
  rw [hg.overloads hu]
  refine foldl_keeps (P := fun ss => ∀ x ∈ ss, u.Shown name x) (fun x hx => ?_) fun p hp ss hss => ?_
  · obtain ⟨hid, hplain, hname⟩ := declaredTable_overloads hu hcls hx
    refine ⟨hname, fun habstract => ?_, by simp [hplain]⟩
    rcases hkind with hinterface | rfl
    · exact hexposed.interface cls _ hinterface hid
    · rw [hexposed.root _ hid] at habstract
      cases habstract
  · exact foldl_keeps (P := fun ss => ∀ x ∈ ss, u.Shown name x) hss fun s hs ss hss x hx =>
      (ih p hp (isInterface_of_tableParent hk hu hkind hp) name s hs).inheritOverload hss hx

/-- Conflicts in a table are public, or the class that declares one also declares the method
that it conflicts with. By induction over the hierarchy; the table of a class is that of its
superclass, into which those of interfaces are merged. -/
theorem Complete.kin (h : u.Complete) (hu : u.WellFormed) (hk : u.types.Kinded) (hexposed : u.Exposed)
    (hcls : (u.types.shape cls).isDeclared) (hbuilt : (u.outline cls).2 = .built t) :
    ∀ name, ∀ x ∈ t.overloads name, u.KinAll name x := by
  refine h.induction (P := fun cls t => (u.outline cls).2 = .built t → ∀ name, ∀ x ∈ t.overloads name, u.KinAll name x) hu
    (fun {cls t} hcls hg ih hbuilt name => ?_) hcls hbuilt hbuilt
  by_cases hkind : u.types.IsInterface cls
  · intro x hx c hc
    exact ((h.shown hu hk hexposed hcls hbuilt (.inl hkind) name x hx).conflicts c hc).1
  · obtain ⟨supers, interfaces, heq, hlength, hinterfaces⟩ := tableParents_of_class hk hu hkind
    have hparent {q : TypeId} (hq : q ∈ supers ++ interfaces) : (u.types.shape q).isDeclared ∧ (u.outline q).2 = .built (u.tableAt q) :=
      ⟨hu.isDeclared_tableParent (heq ▸ hq), hg.parents q (heq ▸ hq)⟩
    rw [hg.overloads hu, heq, List.foldl_append]
    refine foldl_keeps (P := fun ss => ∀ x ∈ ss, u.KinAll name x) ?_ fun q hq ss hss => ?_
    · match supers, hlength with
      | [], _ =>
        intro x hx c hc
        rw [(declaredTable_overloads hu hcls hx).2.1] at hc
        cases hc
      | [p], _ =>
        obtain ⟨hdeclared, hmade⟩ := hparent (q := p) (by simp)
        have hdistinct := (h.tidy.membersOf p).table (u.tableAt p) (by rwa [outline_of_isDeclared hdeclared] at hmade)
        rw [classOf_of_isDeclared hdeclared] at hdistinct
        refine kinAll_of_superclass (fun s hs => ⟨?_, ih p (heq ▸ by simp) hmade name s hs⟩) (hdistinct.apart name) fun y hy => ?_
        · obtain ⟨m, hm, hname⟩ := (hu.soundTable_of_built hmade).filed.overloads hs
          rw [method_eq hm, hname]
        · obtain ⟨hid, hplain, -⟩ := declaredTable_overloads hu hcls hy
          exact .inl ⟨h.tidy.owner_of_declared hcls hid, hplain⟩
    · obtain ⟨hdeclared, hmade⟩ := hparent (q := q) (by simp [hq])
      exact foldl_keeps (P := fun ss => ∀ x ∈ ss, u.KinAll name x) hss fun s hs ss hss x hx =>
        KinAll.inheritOverload (h.shown hu hk hexposed hdeclared hmade (.inl (hinterfaces q hq)) name s hs) hss hx

/-- What a type lists is in the table of an array, or in that of the class behind it. -/
theorem cases_of_listed (hu : u.WellFormed) {search : TypeId} (hlisted : u.listed search name = some ss) :
    (u.types.isArray search ∧ ∃ a ∈ u.arrayTables, ss = a.2.overloads name) ∨
      (u.types.shape (u.types.classOf search)).isDeclared ∧
        ∃ t, (u.outline (u.types.classOf search)).2 = .built t ∧ ss = t.overloads name := by
  obtain ⟨table, htable, rfl⟩ := Option.map_eq_some_iff.mp hlisted
  obtain ⟨hmembers, hbuilt⟩ := table?_eq_some_iff.mp htable
  cases harray : u.types.isArray search with
  | true =>
    rw [tableState_of_isArray harray] at hbuilt
    cases hlookup : u.arrayTables.lookup search with
    | none =>
      rw [hlookup] at hbuilt
      cases hroot : (u.membersOf .object).table <;> simp [hroot, arrayState] at hbuilt
    | some made =>
      rw [hlookup] at hbuilt
      cases hbuilt
      exact .inl ⟨rfl, _, TypeStore.mem_of_lookup hlookup, rfl⟩
  | false =>
    rw [tableState_of_not_isArray harray] at hbuilt
    have hsome : (u.types.classOf search).isSome := by simpa [Universe.hasMembers, harray] using hmembers
    have hdeclared := isDeclared_classOf hu.types hsome
    refine .inr ⟨hdeclared, table, ?_, rfl⟩
    rw [outline_of_isDeclared hdeclared]
    exact hbuilt

/-- What a type lists is sound, and stands under its name. -/
theorem WellFormed.sound_of_listed (hu : u.WellFormed) {search : TypeId} (hlisted : u.listed search name = some ss) (hs : s ∈ ss) :
    u.SoundShadow s ∧ u.IsNamed s.method name := by
  have sound {table : MemberTable} (h : u.SoundTable table) (hs : s ∈ table.overloads name) : u.SoundShadow s ∧ u.IsNamed s.method name :=
    ⟨h.shadows.overloads hs, h.filed.overloads hs⟩
  rcases cases_of_listed hu hlisted with ⟨-, a, ha, rfl⟩ | ⟨-, t, hbuilt, rfl⟩
  · exact sound (hu.arrayTables a ha) hs
  · exact sound (hu.soundTable_of_built hbuilt) hs

/-- What a class or a parameterized type lists is declared by the class or above it. -/
theorem Complete.isSubclass_of_listed (h : u.Complete) (hu : u.WellFormed) {search : TypeId} (hclass : ¬ u.types.isArray search)
    (hlisted : u.listed search name = some ss) (hs : s ∈ ss) : u.types.isSubclass search (u.method s.method).owner := by
  obtain ⟨harray, -⟩ | ⟨hcls, t, hbuilt, rfl⟩ := cases_of_listed hu hlisted
  · exact absurd harray hclass
  · have howner := (h.owners hu hcls hbuilt).overloads hs
    have hdeclared : (u.types.shape (u.method s.method).owner).isDeclared := by
      rcases howner.cases_tail with heq | ⟨p, -, hp⟩
      · rwa [heq]
      · exact hu.isDeclared_tableParent hp
    refine TypeStore.isSubclass_iff.mpr ⟨TypeStore.isSome_of_isDeclared hcls, ?_⟩
    rw [classOf_of_isDeclared hdeclared]
    refine ⟨TypeStore.isSome_of_isDeclared hdeclared, or_iff_not_imp_left.mpr fun hroot => ?_⟩
    rcases Relation.reflTransGen_iff_eq_or_transGen.mp howner with heq | habove
    · rw [heq]
    · exact (hu.inherits_of_above habove hroot).to_reflTransGen

section

variable (h : u.Complete) (hu : u.WellFormed) (hpopulated : u.Populated) {search : TypeId}
  (hlisted : u.listed search name = some ss) (hs : s ∈ ss)

include h hu hpopulated hlisted hs

/-- Conflicts that any type lists are public, or the class that declares one also declares the
method that it conflicts with. -/
theorem Complete.kin_of_listed (hk : u.types.Kinded) : u.KinAll name s := by
  rcases cases_of_listed hu hlisted with ⟨-, a, ha, rfl⟩ | ⟨hcls, t, hbuilt, rfl⟩
  · intro c hc
    rw [(hpopulated.arrays_plain a ha).overloads hs] at hc
    cases hc
  · exact h.kin hu hk hpopulated.exposed hcls hbuilt name s hs

/-- A method with conflicts and a sound signature is listed once under its name. -/
theorem Complete.eq_of_listed (hconflicts : s.conflicts ≠ []) (hresolved : (u.method s.method).isResolved) {s' : Shadow}
    (hs' : s' ∈ ss) (hsame : s'.method = s.method) : s' = s := by
  rcases cases_of_listed hu hlisted with ⟨-, a, ha, rfl⟩ | ⟨hcls, t, hbuilt, rfl⟩
  · exact absurd ((hpopulated.arrays_plain a ha).overloads hs) hconflicts
  · by_contra hne
    have hsignature : u.sameSignature s'.method s.method := by
      rw [hsame]
      simp [sameSignature, hresolved]
    exact (h.tidy.apart_of_built hcls hbuilt hs' hs hne hsignature).1 hsame

end

end CallResolution.Universe
