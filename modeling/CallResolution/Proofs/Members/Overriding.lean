import CallResolution.Proofs.Members.Closure
import Mathlib.Data.List.Pairwise

/-!
# What becomes of inherited methods

The table of a class is merged from those of its supertypes one at a time, and what is merged
is decided by abstractness and by order, not by which method overrides which. Every method
that a supertype lists and that can be inherited is accounted for in the table of the class:
it is listed itself, or an overload of the same erased parameter types stands for it, which
the class declares, or which is not abstract, or which has it as a conflict. A declared method
is never displaced.

So an overridden method can take the place of its overrider in two ways: it is not abstract,
or both are abstract and it came first.

Main statements: `inheritMethod_covers` for one method, `Gathered.covers` for a whole table,
and `Complete.accounted` for the tables that are given out.
-/

namespace CallResolution.Universe

variable {u u' : Universe} {owner : TypeId} {id : MethodId}

/-- An overload in the table of a class stands for a method: it is bound to it, or it has its
erased parameter types and is declared by the class, not abstract, or has the method as a
conflict. These are the ways in which a method can be represented by another one, and no
method is lost in any other way. -/
def Covers (u : Universe) (owner : TypeId) (x : Shadow) (id : MethodId) : Prop :=
  x.method = id ∨ u.sameSignature x.method id ∧
    ((u.method x.method).owner = owner ∨ (u.method x.method).flags.isAbstract = false ∨ id ∈ x.conflicts)

/-- A property of overloads in the table of a class that is kept when an inherited method of
the same signature is merged in. -/
def Stable (u : Universe) (owner : TypeId) (K : Shadow → Prop) : Prop :=
  ∀ x incoming, u.sameSignature x.method incoming.method → K x → K (u.mergeShadow owner incoming x)

/-! ## Merging two overloads

One step: what is merged in is covered, and what was covered stays so.
-/

theorem mem_addConflicts_of_mem {x : Shadow} (cs : List MethodId) {c : MethodId} (h : c ∈ x.conflicts) :
    c ∈ (addConflicts x cs).conflicts := by
  induction cs generalizing x with
  | nil => exact h
  | cons d cs ih =>
    unfold addConflicts
    split
    · exact ih h
    · exact ih (List.mem_append_left _ h)

/-- Every added conflict is there, unless it is the method itself. -/
theorem mem_addConflicts {x : Shadow} {cs : List MethodId} {c : MethodId} (h : c ∈ cs) :
    c = x.method ∨ c ∈ (addConflicts x cs).conflicts := by
  induction cs generalizing x with
  | nil => cases h
  | cons d cs ih =>
    unfold addConflicts
    rcases List.mem_cons.mp h with rfl | h
    · split
      · rename_i hknown
        simp only [Bool.or_eq_true, decide_eq_true_eq] at hknown
        exact hknown.imp_right (mem_addConflicts_of_mem cs)
      · exact .inr (mem_addConflicts_of_mem cs (List.mem_append_right _ (by simp)))
    · split
      · exact ih h
      · exact ih (x := { x with conflicts := x.conflicts ++ [d] }) h

variable {incoming existing : Shadow}

/-- What is merged in is covered: by itself when it takes the place of the overload, as a
conflict when both are abstract, and else by an overload that the class declares or that is
not abstract. -/
theorem mergeShadow_covers (hsame : u.sameSignature existing.method incoming.method) :
    u.Covers owner (u.mergeShadow owner incoming existing) incoming.method := by
  unfold mergeShadow
  dsimp only
  split
  · rename_i hkept
    simp only [Bool.or_eq_true, decide_eq_true_eq] at hkept
    rcases hkept with howner | heq
    · exact .inr ⟨hsame, .inl howner⟩
    · exact .inl heq
  · split
    · rename_i hconcrete
      exact .inr ⟨hsame, .inr (.inl (by simpa using hconcrete))⟩
    · split
      · exact .inl rfl
      · have hmem : incoming.method ∈ incoming.method :: incoming.conflicts := by simp
        rcases mem_addConflicts (x := existing) hmem with heq | hconflict
        · exact .inl (by simp [heq])
        · exact .inr ⟨by simpa using hsame, .inr (.inr hconflict)⟩

/-- What is covered stays so when something is merged in. The overload may give way to a
method that is not abstract, which then covers what it covered. -/
theorem covers_stable (u : Universe) (owner : TypeId) (id : MethodId) : u.Stable owner (u.Covers owner · id) := by
  intro existing incoming hsame h
  unfold mergeShadow
  dsimp only
  split
  · exact h
  · rename_i hother
    simp only [Bool.or_eq_true, decide_eq_true_eq, not_or] at hother
    split
    · exact h
    · rename_i habstract
      split
      · rename_i hconcrete
        -- the overload gives way to a method that is not abstract and agrees with all that it stood for
        have hagrees : u.sameSignature existing.method id := by
          rcases h with rfl | ⟨hagrees, -⟩
          · exact sameSignature_trans hsame (sameSignature_symm hsame)
          · exact hagrees
        exact .inr ⟨sameSignature_trans (sameSignature_symm hsame) hagrees, .inr (.inl (by simpa using hconcrete))⟩
      · rcases h with rfl | ⟨hagrees, howner | hconcrete | hconflict⟩
        · exact .inl (by simp)
        · exact absurd howner hother.1
        · simp [hconcrete] at habstract
        · exact .inr ⟨by simpa using hagrees, .inr (.inr (mem_addConflicts_of_mem _ hconflict))⟩

/-- A declared method gives way to nothing. -/
theorem declared_stable (h : (u.method id).owner = owner) : u.Stable owner (·.method = id) := by
  rintro existing incoming - rfl
  simp [mergeShadow, h]

/-! ## Merging tables

The folds of such steps, over methods, names and supertypes.
-/

variable {t : MemberTable} {name name' : String} {s : Shadow}

/-- A table of a class that lists an overload of a name with a property. -/
structure Lists (owner : TypeId) (name : String) (K : Shadow → Prop) (t : MemberTable) : Prop where
  /-- The class. -/
  owner : t.owner = owner
  /-- The overload. -/
  overload : ∃ x ∈ t.overloads name, K x

/-- What is listed stays so when a method is added. -/
theorem Lists.addMethod {K : Shadow → Prop} (h : Lists owner name' K t) (name : String) (s : Shadow) :
    Lists owner name' K (t.addMethod name s) := by
  obtain ⟨howner, x, hx, hkx⟩ := h
  refine ⟨howner, x, ?_, hkx⟩
  unfold MemberTable.addMethod
  by_cases hname : name' = name
  · subst hname
    rw [overloads_put_self]
    exact List.mem_append_left _ hx
  · rwa [overloads_put_of_ne _ hname]

/-- Fields play no part. -/
theorem Lists.of_keeps {K : Shadow → Prop} (h : Lists owner name K t) {t' : MemberTable}
    (hkeeps : t'.owner = t.owner ∧ t'.methods = t.methods) : Lists owner name K t' := by
  refine ⟨hkeeps.1.trans h.owner, ?_⟩
  unfold MemberTable.overloads
  rw [hkeeps.2]
  exact h.overload

/-- A method that is inherited is covered. -/
theorem inheritMethod_covers (howner : t.owner = owner) (h : u.inheritable (u.method s.method) owner) :
    Lists owner name (u.Covers owner · s.method) (u.inheritMethod name t s) := by
  subst howner
  refine ⟨inheritMethod_owner u name t s, ?_⟩
  unfold inheritMethod
  rw [if_pos h]
  dsimp only
  split
  · rename_i hany
    obtain ⟨y, -, hsame, hmem⟩ := exists_mem_updateFirst (f := u.mergeShadow t.owner s) hany
    exact ⟨_, by rwa [overloads_put_self], mergeShadow_covers hsame⟩
  · refine ⟨s, ?_, .inl rfl⟩
    unfold MemberTable.addMethod
    rw [overloads_put_self]
    simp

section Stable

variable {K : Shadow → Prop}

/-- What is listed stays so when a method is inherited. -/
theorem Stable.inheritMethod (hK : u.Stable owner K) (h : Lists owner name' K t) (name : String) (s : Shadow) :
    Lists owner name' K (u.inheritMethod name t s) := by
  unfold Universe.inheritMethod
  split
  · dsimp only
    split
    · obtain ⟨rfl, x, hx, hkx⟩ := h
      refine ⟨rfl, ?_⟩
      by_cases hname : name' = name
      · subst hname
        rw [overloads_put_self]
        rcases mem_updateFirst_of_mem (p := fun x => u.sameSignature x.method s.method) (f := u.mergeShadow t.owner s) hx
          with hkept | ⟨hsame, hmerged⟩
        · exact ⟨x, hkept, hkx⟩
        · exact ⟨_, hmerged, hK x s hsame hkx⟩
      · exact ⟨x, by rwa [overloads_put_of_ne _ hname], hkx⟩
    · exact h.addMethod name s
  · exact h

/-- What is listed stays so when methods are inherited. -/
theorem Stable.foldl_inheritMethod (hK : u.Stable owner K) (h : Lists owner name' K t) (name : String) (ss : List Shadow) :
    Lists owner name' K (ss.foldl (u.inheritMethod name) t) :=
  foldl_keeps h fun s _ _ ht => hK.inheritMethod ht name s

/-- What is listed stays so when fields are inherited. -/
theorem Lists.foldl_inheritField (h : Lists owner name K t) (u : Universe) (fs : List (String × FieldId)) :
    Lists owner name K (fs.foldl (fun t p => u.inheritField t p.1 p.2) t) :=
  foldl_keeps h fun p _ t ht => ht.of_keeps (inheritField_keeps u t p.1 p.2)

/-- What is listed stays so when a table is merged in. -/
theorem Stable.inherit (hK : u.Stable owner K) (h : Lists owner name K t) (up : MemberTable) :
    Lists owner name K (u.inherit t up) := by
  refine Lists.foldl_inheritField (foldl_keeps (P := Lists owner name K) h fun p _ t ht => ?_) u up.fields
  exact hK.foldl_inheritMethod ht p.1 p.2

end Stable

/-- A fold reaches what one of its steps reaches and all of them keep. -/
theorem foldl_reaches {α β : Type} {I P : α → Prop} {f : α → β → α} {l : List β} {a : α} {b : β} (hb : b ∈ l) (ha : I a)
    (hI : ∀ a b, I a → I (f a b)) (reach : ∀ a, I a → P (f a b)) (keep : ∀ a b, P a → P (f a b)) : P (l.foldl f a) := by
  induction l generalizing a with
  | nil => cases hb
  | cons c l ih =>
    rcases List.mem_cons.mp hb with rfl | hb
    · rw [List.foldl_cons]
      exact foldl_keeps (reach a ha) fun b' _ a' ha' => keep a' b' ha'
    · exact ih hb (hI a c ha)

/-- What a table lists is in one of its entries. -/
theorem mem_methods_of_mem_overloads (h : s ∈ t.overloads name) : ∃ ss, (name, ss) ∈ t.methods ∧ s ∈ ss := by
  unfold MemberTable.overloads at h
  cases hlookup : t.methods.lookup name with
  | none => simp [hlookup] at h
  | some ss => exact ⟨ss, TypeStore.mem_of_lookup hlookup, by simpa [hlookup] using h⟩

/-- What a table that is merged in lists is covered when it can be inherited. -/
theorem inherit_covers (howner : t.owner = owner) {up : MemberTable} (hs : s ∈ up.overloads name)
    (h : u.inheritable (u.method s.method) owner) : Lists owner name (u.Covers owner · s.method) (u.inherit t up) := by
  obtain ⟨ss, hss, hmem⟩ := mem_methods_of_mem_overloads hs
  have hstable := u.covers_stable owner s.method
  refine Lists.foldl_inheritField ?_ u up.fields
  refine foldl_reaches (I := fun t => t.owner = owner) hss howner (fun t p ht => foldl_inheritMethod_owner u p.1 p.2 ht) (fun t ht => ?_)
    fun t p ht => hstable.foldl_inheritMethod ht p.1 p.2
  exact foldl_reaches (I := fun t => t.owner = owner) hmem ht (fun t x ht => (inheritMethod_owner u name t x).trans ht)
    (fun t ht => inheritMethod_covers ht h) fun t x ht => hstable.inheritMethod ht name x

/-- Declared methods are listed. -/
theorem declaredTable_lists (hid : id ∈ (u.membersOf owner).methods) :
    Lists owner (u.method id).name (·.method = id) (u.declaredTable owner) := by
  let lists : MemberTable → Prop := Lists owner (u.method id).name (·.method = id)
  unfold declaredTable
  refine foldl_keeps (P := lists) ?_ fun f _ t ht => Lists.of_keeps ht (addField_keeps t _ f)
  refine foldl_reaches (I := fun t : MemberTable => t.owner = owner) (P := lists) hid rfl (fun t _ ht => ht) (fun t ht => ?_)
    fun t b ht => Lists.addMethod ht _ _
  refine ⟨ht, ⟨id, []⟩, ?_, rfl⟩
  unfold MemberTable.addMethod
  rw [overloads_put_self]
  simp

/-! ## Whole tables

What comes of it for the tables of a universe.
-/

/-- What a class declares is listed in its table. -/
theorem Gathered.lists (h : u.Gathered owner t) (howner : u.types.classOf owner = owner) (hid : id ∈ (u.outline owner).1)
    (hown : (u.method id).owner = owner) : Lists owner (u.method id).name (·.method = id) t := by
  have hdeclared : id ∈ (u.membersOf owner).methods := by
    rwa [← howner, ← membersOf_outline] at hid
  have hlists : Lists owner (u.method id).name (·.method = id)
      ((u.tableParents owner).foldl (fun t p => u.inherit t (u.tableAt p)) (u.declaredTable owner)) :=
    foldl_keeps (P := Lists owner (u.method id).name (·.method = id)) (declaredTable_lists hdeclared) fun p _ t ht =>
      (declared_stable hown).inherit ht (u.tableAt p)
  exact hlists.of_keeps ⟨h.merged.owner, h.merged.methods⟩

/-- What a supertype lists and a class can inherit is covered in the table of the class. -/
theorem Gathered.covers (h : u.Gathered owner t) {p : TypeId} (hp : p ∈ u.tableParents owner) (hs : s ∈ (u.tableAt p).overloads name)
    (hinherits : u.inheritable (u.method s.method) owner) : Lists owner name (u.Covers owner · s.method) t := by
  have hlists : Lists owner name (u.Covers owner · s.method)
      ((u.tableParents owner).foldl (fun t p => u.inherit t (u.tableAt p)) (u.declaredTable owner)) :=
    foldl_reaches (I := fun t => t.owner = owner) hp (u.declaredTable_owner owner)
      (fun t p ht => (inherit_owner u t (u.tableAt p)).trans ht) (fun t ht => inherit_covers ht hs hinherits)
      fun t p ht => (u.covers_stable owner s.method).inherit ht (u.tableAt p)
  exact hlists.of_keeps ⟨h.merged.owner, h.merged.methods⟩

/-- What becomes in the table of a class of a method that a supertype lists: an overload
stands for it, and one that the method overrides and that has its signature is not abstract,
or has it as a conflict. The second part is about a method that is overridden on one path to
the class and comes in along another one. -/
structure Accounted (u : Universe) (owner : TypeId) (xs : List Shadow) (id : MethodId) : Prop where
  /-- The overload that stands for it. -/
  covered : ∃ x ∈ xs, u.Covers owner x id
  /-- The overloads that it overrides. -/
  overridden : ∀ x ∈ xs, u.sameSignature x.method id → Relation.TransGen u.TableParent (u.method id).owner (u.method x.method).owner →
    (u.method x.method).flags.isAbstract = false ∨ id ∈ x.conflicts

/-- Two overloads of one name in a table are told apart. -/
theorem Tidy.apart_of_built (ht : u.Tidy) (hcls : (u.types.shape owner).isDeclared) (hbuilt : (u.outline owner).2 = .built t)
    {x y : Shadow} (hx : x ∈ t.overloads name) (hy : y ∈ t.overloads name) (hne : x ≠ y) : u.Apart owner x y := by
  have hdistinct := (ht.membersOf owner).table t (by rwa [outline_of_isDeclared hcls] at hbuilt)
  rw [classOf_of_isDeclared hcls] at hdistinct
  have hsymm : Std.Symm (u.Apart owner) := ⟨fun _ _ => Apart.symm⟩
  exact (hdistinct.apart name).forall hx hy hne

/-- What a supertype lists and a class can inherit is accounted for in the table of the class.
The table was made at some time before; it holds all that it should, so the merging can be
looked at in the universe as it is. -/
theorem Complete.accounted (h : u.Complete) (hu : u.WellFormed) (hcls : (u.types.shape owner).isDeclared)
    (hbuilt : (u.outline owner).2 = .built t) {p : TypeId} (hp : p ∈ u.tableParents owner) (hs : s ∈ (u.tableAt p).overloads name)
    (hinherits : u.inheritable (u.method s.method) owner) : u.Accounted owner (t.overloads name) s.method := by
  have hg := h.whole owner t hcls hbuilt
  obtain ⟨-, y, hy, hcovers⟩ := hg.covers hp hs hinherits
  refine ⟨⟨y, hy, hcovers⟩, fun x hx hsame hoverrides => ?_⟩
  -- the method is declared above the class, and so is what it overrides
  have hbelow : Relation.ReflTransGen u.TableParent p (u.method s.method).owner :=
    (h.owners hu (hu.isDeclared_tableParent hp) (hg.parents p hp)).overloads hs
  have hnot : (u.method x.method).owner ≠ owner := by
    intro heq
    rw [heq] at hoverrides
    exact hu.not_above h.acyclic owner (.head' hp (hbelow.trans hoverrides.to_reflTransGen))
  have hsameAs : u.sameSignature x.method y.method := by
    rcases hcovers with heq | ⟨hagrees, -⟩
    · rwa [heq]
    · exact sameSignature_trans hsame (sameSignature_symm hagrees)
  obtain rfl : x = y := by
    by_contra hne
    exact hnot (h.tidy.apart_of_built hcls hbuilt hx hy hne hsameAs).2.1
  rcases hcovers with heq | ⟨-, howner | hkept⟩
  · rw [heq] at hoverrides
    exact absurd hoverrides (hu.not_above h.acyclic _)
  · exact absurd howner hnot
  · exact hkept

end CallResolution.Universe
