import CallResolution.Proofs.Members.Signature

/-!
# Merging member tables

The table of a class starts with what the class declares, and the tables of its supertypes are
merged in one after another. Two overloads are joined only when their signatures agree, so a
property of overloads that joining keeps holds of all overloads in the merged table when it
holds of those that go in. And overloads stay told apart: an inherited method either agrees
with none that is there, or it takes the place of the one that it agrees with, which the class
did not declare; so nothing else agrees with that.

Three invariants of tables are carried through the same folds: a property of all overloads
that joining keeps (`inherit_all`), that every method stands under its own name
(`Filed.inherit`), and that overloads are told apart (`Distinct.inherit`). Each has a lemma
for the replacement of one overload, for an inherited method and for a whole table, in this
order. The first asks nothing of the methods and is used for several properties; the last
needs the second, since only methods of one name are compared.

Main statements: `inherit_all`, `Filed.inherit` and `Distinct.inherit`.
-/

namespace CallResolution.Universe

variable {u : Universe}

/-! ## Signatures that agree

Agreement is asked of processed signatures only: it is symmetric and transitive, and not
reflexive, for a broken signature agrees with nothing, not even itself.
-/

/-- What agrees with a signature agrees with all that this agrees with. -/
theorem sameSignature_trans {a b c : MethodId} (hab : u.sameSignature a b) (hbc : u.sameSignature b c) :
    u.sameSignature a c := by
  unfold sameSignature at *
  simp only [Bool.and_eq_true, decide_eq_true_eq] at *
  exact ⟨⟨hab.1.1, hbc.1.2⟩, hab.2.trans hbc.2⟩

theorem sameSignature_symm {a b : MethodId} (h : u.sameSignature a b) : u.sameSignature b a := by
  unfold sameSignature at *
  simp only [Bool.and_eq_true, decide_eq_true_eq] at *
  exact ⟨⟨h.1.2, h.1.1⟩, h.2.symm⟩

/-- Methods that agree have processed signatures. -/
theorem isResolved_of_sameSignature {a b : MethodId} (h : u.sameSignature a b) :
    (u.method a).isResolved ∧ (u.method b).isResolved := by
  unfold sameSignature at h
  simp only [Bool.and_eq_true] at h
  exact h.1

/-! ## Replacing an overload

What is forgotten and what becomes a conflict when one overload takes the place of another
one.
-/

/-- What is in a list after its first fitting element was replaced: the replacement, or what
was there. Merging a method into a table replaces the first overload that it agrees with, so
all that merging does to a list is said by these lemmas. -/
theorem mem_updateFirst {p : Shadow → Bool} {f : Shadow → Shadow} {l : List Shadow} {x : Shadow}
    (h : x ∈ MemberTable.updateFirst p f l) : x ∈ l ∨ ∃ y ∈ l, p y ∧ x = f y := by
  induction l with
  | nil => simp [MemberTable.updateFirst] at h
  | cons y l ih =>
    unfold MemberTable.updateFirst at h
    split at h
    · rename_i hy
      rcases List.mem_cons.mp h with rfl | h
      · exact .inr ⟨y, by simp, hy, rfl⟩
      · exact .inl (by simp [h])
    · rcases List.mem_cons.mp h with rfl | h
      · exact .inl (by simp)
      · rcases ih h with h | ⟨z, hz, hp, rfl⟩
        · exact .inl (by simp [h])
        · exact .inr ⟨z, by simp [hz], hp, rfl⟩

/-- What is in a list stays there, or is the fitting element that was replaced. -/
theorem mem_updateFirst_of_mem {p : Shadow → Bool} {f : Shadow → Shadow} {l : List Shadow} {x : Shadow} (h : x ∈ l) :
    x ∈ MemberTable.updateFirst p f l ∨ p x ∧ f x ∈ MemberTable.updateFirst p f l := by
  induction l with
  | nil => cases h
  | cons y l ih =>
    unfold MemberTable.updateFirst
    split
    · rename_i hy
      rcases List.mem_cons.mp h with rfl | h
      · exact .inr ⟨hy, by simp⟩
      · exact .inl (by simp [h])
    · rcases List.mem_cons.mp h with rfl | h
      · exact .inl (by simp)
      · exact (ih h).imp (List.mem_cons_of_mem _) fun hx => ⟨hx.1, List.mem_cons_of_mem _ hx.2⟩

/-- One of the fitting elements is replaced. -/
theorem exists_mem_updateFirst {p : Shadow → Bool} {f : Shadow → Shadow} {l : List Shadow} (h : l.any p) :
    ∃ y ∈ l, p y ∧ f y ∈ MemberTable.updateFirst p f l := by
  induction l with
  | nil => simp at h
  | cons y l ih =>
    unfold MemberTable.updateFirst
    split
    · rename_i hy
      exact ⟨y, by simp, hy, by simp⟩
    · rename_i hy
      obtain ⟨z, hz, hp, hmem⟩ := ih (by simpa [hy] using h)
      exact ⟨z, by simp [hz], hp, by simp [hmem]⟩

/-- What is pairwise related stays so when the first fitting element is replaced by one with
the same relations. -/
theorem pairwise_updateFirst {R : Shadow → Shadow → Prop} {p : Shadow → Bool} {f : Shadow → Shadow} {l : List Shadow}
    (h : l.Pairwise R) (left : ∀ x y, p x → R x y → R (f x) y) (right : ∀ x y, p y → R x y → R x (f y)) :
    (MemberTable.updateFirst p f l).Pairwise R := by
  induction l with
  | nil => exact .nil
  | cons x l ih =>
    obtain ⟨hx, hl⟩ := List.pairwise_cons.mp h
    unfold MemberTable.updateFirst
    split
    · rename_i hp
      exact .cons (fun y hy => left x y hp (hx y hy)) hl
    · refine .cons (fun y hy => ?_) (ih hl)
      rcases mem_updateFirst hy with hy | ⟨z, hz, hp, rfl⟩
      · exact hx y hy
      · exact right x z hp (hx z hz)

/-! ## Merging two overloads

What becomes of two overloads of one signature.
-/

/-- Conflicts are added to an overload that they agree with. -/
theorem addConflicts_sound {cs : List MethodId} {existing : Shadow} (he : u.SoundShadow existing)
    (hcs : ∀ c ∈ cs, u.sameSignature existing.method c) : u.SoundShadow (addConflicts existing cs) := by
  induction cs generalizing existing with
  | nil => exact he
  | cons c cs ih =>
    unfold addConflicts
    split
    · exact ih he fun d hd => hcs d (by simp [hd])
    · refine ih ⟨he.has, fun d hd => ?_⟩ fun d hd => hcs d (by simp [hd])
      rcases List.mem_append.mp hd with hd | hd
      · exact he.conflicts d hd
      · rw [List.mem_singleton.mp hd]
        exact hcs c (by simp)

/-- Two overloads of one signature are merged. One of the two stays; the other one is
forgotten, unless both are abstract and the class declares neither of them. Then the one that
comes in becomes a conflict, and so do its own conflicts. -/
theorem mergeShadow_sound {owner : TypeId} {incoming existing : Shadow} (hi : u.SoundShadow incoming)
    (he : u.SoundShadow existing) (hsame : u.sameSignature existing.method incoming.method) :
    u.SoundShadow (u.mergeShadow owner incoming existing) := by
  unfold mergeShadow
  dsimp only
  split
  · exact he
  · split
    · exact he
    · split
      · exact ⟨hi.has, by simp⟩
      · refine addConflicts_sound he fun c hc => ?_
        rcases List.mem_cons.mp hc with rfl | hc
        · exact hsame
        · exact sameSignature_trans hsame (hi.conflicts c hc)

@[simp] theorem addConflicts_method (x : Shadow) (cs : List MethodId) : (addConflicts x cs).method = x.method := by
  induction cs generalizing x with
  | nil => rfl
  | cons c cs ih =>
    unfold addConflicts
    split
    · exact ih x
    · exact ih _

/-- The methods of an overload to which conflicts are added. -/
theorem names_addConflicts {cs : List MethodId} {existing : Shadow} {id : MethodId}
    (h : (addConflicts existing cs).Names id) : existing.Names id ∨ id ∈ cs := by
  induction cs generalizing existing with
  | nil => exact .inl h
  | cons c cs ih =>
    unfold addConflicts at h
    split at h
    · exact (ih h).imp_right (List.mem_cons_of_mem c)
    · rcases ih h with (h | h) | h
      · exact .inl (.inl h)
      · rcases List.mem_append.mp h with h | h
        · exact .inl (.inr h)
        · exact .inr (by simp [List.mem_singleton.mp h])
      · exact .inr (List.mem_cons_of_mem c h)

/-- The methods of two overloads of one signature that are merged. -/
theorem names_mergeShadow {owner : TypeId} {incoming existing : Shadow} {id : MethodId}
    (h : (u.mergeShadow owner incoming existing).Names id) : incoming.Names id ∨ existing.Names id := by
  unfold mergeShadow at h
  dsimp only at h
  split at h
  · exact .inr h
  · split at h
    · exact .inr h
    · split at h
      · exact .inl (.inl (by simpa [Shadow.Names] using h))
      · rcases names_addConflicts h with h | h
        · exact .inr h
        · exact .inl (List.mem_cons.mp h)

end Universe

/-! ## Properties of all overloads

A property that merging keeps goes from the overloads that come in to those of the whole
table.
-/

namespace MemberTable

variable {P : Shadow → Prop} {t up : MemberTable}

/-- The overloads of one name are replaced by others that have it. -/
theorem All.put (ht : t.All P) {name : String} {ss : List Shadow} (hss : ∀ s ∈ ss, P s) :
    MemberTable.All P { t with methods := Assoc.put name ss t.methods } := by
  intro p hp
  rcases Universe.mem_put hp with hp | rfl
  · exact ht p hp
  · exact hss

/-- An overload that has it is added. -/
theorem All.addMethod (ht : t.All P) (name : String) {s : Shadow} (hs : P s) : (t.addMethod name s).All P := by
  refine ht.put fun x hx => ?_
  rcases List.mem_append.mp hx with hx | hx
  · exact ht.overloads hx
  · rwa [List.mem_singleton.mp hx]

/-- A field is added. -/
theorem All.addField (ht : t.All P) (name : String) (f : FieldId) : (t.addField name f).All P := by
  unfold MemberTable.addField
  split
  · exact ht
  · exact ht

end MemberTable

/-- A fold keeps what each of its steps keeps. -/
theorem foldl_keeps {α β : Type} {P : α → Prop} {f : α → β → α} {l : List β} {a : α} (ha : P a)
    (hf : ∀ b ∈ l, ∀ a, P a → P (f a b)) : P (l.foldl f a) :=
  List.foldlRecOn l f ha fun a ha b hb => hf b hb a ha

namespace Universe

variable {u : Universe} {P : Shadow → Prop}

/-- Merging overloads of one signature keeps a property. A property with this is carried
through tables without another look at how tables are merged. -/
def Merges (u : Universe) (P : Shadow → Prop) : Prop :=
  ∀ owner incoming existing, P incoming → P existing → u.sameSignature existing.method incoming.method →
    P (u.mergeShadow owner incoming existing)

/-- An inherited method is merged into a table. -/
theorem inheritMethod_all (hP : u.Merges P) {t : MemberTable} (ht : t.All P) {name : String} {s : Shadow} (hs : P s) :
    (u.inheritMethod name t s).All P := by
  unfold inheritMethod
  split
  · dsimp only
    split
    · refine ht.put fun x hx => ?_
      rcases mem_updateFirst hx with hx | ⟨y, hy, hsame, rfl⟩
      · exact ht.overloads hx
      · exact hP _ _ _ hs (ht.overloads hy) hsame
    · exact ht.addMethod name hs
  · exact ht

/-- The table of a supertype is merged into a table. -/
theorem inherit_all (hP : u.Merges P) {t up : MemberTable} (ht : t.All P) (hup : up.All P) : (u.inherit t up).All P := by
  unfold inherit
  refine foldl_keeps (foldl_keeps ht fun p hp t ht => ?_) fun p _ t ht => ?_
  · exact foldl_keeps ht fun s hs t ht => inheritMethod_all hP ht (hup p hp s hs)
  · show (u.inheritField t p.1 p.2).All P
    unfold inheritField
    split
    · exact ht.addField _ _
    · exact ht

/-- Declared methods have no conflicts. -/
theorem declaredTable_all {cls : TypeId} (h : ∀ id ∈ (u.membersOf cls).methods, P ⟨id, []⟩) : (u.declaredTable cls).All P := by
  unfold declaredTable
  refine foldl_keeps (foldl_keeps ?_ fun id hid t ht => ?_) fun id _ t ht => ht.addField _ _
  · simp [MemberTable.All]
  · exact ht.addMethod _ (h id hid)

/-- The methods of an array have no conflicts. -/
theorem arrayTableFrom_all (arr : TypeId) {clone : MethodId} (hclone : P ⟨clone, []⟩) (length : FieldId) {root : MemberTable}
    (hroot : root.All fun s => P ⟨s.method, []⟩) : (u.arrayTableFrom arr clone length root).All P := by
  unfold arrayTableFrom
  refine foldl_keeps ?_ fun p hp t ht => ?_
  · intro p hp s hs
    rw [List.mem_singleton.mp hp] at hs
    rwa [List.mem_singleton.mp hs]
  · refine foldl_keeps ht fun s hs t ht => ?_
    split
    · exact ht
    · exact ht.addMethod _ (hroot p hp s hs)

/-! ## Overloads of one name

The overloads that come in are merged one after another.
-/

section

variable {t : MemberTable} {name name' : String}

theorem overloads_put_self (ss : List Shadow) : ({ t with methods := Assoc.put name ss t.methods } : MemberTable).overloads name = ss := by
  simp [MemberTable.overloads]

theorem overloads_put_of_ne (ss : List Shadow) (h : name' ≠ name) :
    ({ t with methods := Assoc.put name ss t.methods } : MemberTable).overloads name' = t.overloads name' := by
  simp [MemberTable.overloads, Assoc.lookup_put_of_ne h]

/-- The overloads of a name after a method was added. -/
theorem overloads_addMethod (t : MemberTable) (name name' : String) (s : Shadow) :
    (t.addMethod name s).overloads name' = if name' = name then t.overloads name ++ [s] else t.overloads name' := by
  unfold MemberTable.addMethod
  split
  · rename_i h
    rw [h, overloads_put_self]
  · rename_i h
    rw [overloads_put_of_ne _ h]

end

/-! ## What merging leaves alone

A table stays that of its class, and merging fields leaves its methods alone.
-/

section

variable {owner : TypeId} {t : MemberTable}

@[simp] theorem inheritMethod_owner (u : Universe) (name : String) (t : MemberTable) (s : Shadow) :
    (u.inheritMethod name t s).owner = t.owner := by
  unfold inheritMethod
  split
  · dsimp only
    split <;> rfl
  · rfl

theorem addField_keeps (t : MemberTable) (name : String) (f : FieldId) :
    (t.addField name f).owner = t.owner ∧ (t.addField name f).methods = t.methods := by
  unfold MemberTable.addField
  split <;> exact ⟨rfl, rfl⟩

theorem inheritField_keeps (u : Universe) (t : MemberTable) (name : String) (f : FieldId) :
    (u.inheritField t name f).owner = t.owner ∧ (u.inheritField t name f).methods = t.methods := by
  unfold inheritField
  split
  · exact addField_keeps t name f
  · exact ⟨rfl, rfl⟩

theorem foldl_inheritMethod_owner (u : Universe) (name : String) (ss : List Shadow) (ht : t.owner = owner) :
    (ss.foldl (u.inheritMethod name) t).owner = owner :=
  foldl_keeps (P := fun t => t.owner = owner) ht fun s _ t ht => (inheritMethod_owner u name t s).trans ht

theorem inherit_owner (u : Universe) (t up : MemberTable) : (u.inherit t up).owner = t.owner := by
  let same (t' : MemberTable) : Prop := t'.owner = t.owner
  have hmethods : same (up.methods.foldl (fun t p => p.2.foldl (u.inheritMethod p.1) t) t) :=
    foldl_keeps (P := same) rfl fun p _ _ ht' => foldl_inheritMethod_owner u p.1 p.2 ht'
  exact foldl_keeps (P := same) hmethods fun p _ t' ht' => (inheritField_keeps u t' p.1 p.2).1.trans ht'

theorem declaredTable_owner (u : Universe) (cls : TypeId) : (u.declaredTable cls).owner = cls := by
  unfold declaredTable
  refine foldl_keeps (P := fun t : MemberTable => t.owner = cls) ?_ fun f _ t ht => (addField_keeps t _ f).1.trans ht
  exact foldl_keeps (P := fun t : MemberTable => t.owner = cls) rfl fun id _ t ht => ht

end

/-! ## Methods under their names

A table has a list of overloads for each name, and merging touches the list of the name alone.
-/

section

variable {t t' up : MemberTable} {name : String} {s : Shadow}

/-- An overload gives way only when the class does not declare its method. -/
theorem mergeShadow_method (u : Universe) (owner : TypeId) (incoming existing : Shadow) :
    (u.mergeShadow owner incoming existing).method = existing.method ∨
      (u.method existing.method).owner ≠ owner ∧ (u.mergeShadow owner incoming existing).method = incoming.method := by
  unfold mergeShadow
  dsimp only
  split
  · exact .inl rfl
  · rename_i hother
    simp only [Bool.or_eq_true, decide_eq_true_eq, not_or] at hother
    split
    · exact .inl rfl
    · split
      · exact .inr ⟨hother.1, rfl⟩
      · exact .inl (addConflicts_method _ _)

/-- Fields play no part. -/
theorem Filed.of_methods (h : u.Filed t) (methods : t'.methods = t.methods) : u.Filed t' where
  names := methods ▸ h.names
  nodup := methods ▸ h.nodup

/-- The overloads of a name have it. -/
theorem Filed.overloads (h : u.Filed t) (hs : s ∈ t.overloads name) : u.IsNamed s.method name := by
  unfold MemberTable.overloads at hs
  cases hlookup : t.methods.lookup name with
  | none => simp [hlookup] at hs
  | some ss =>
    rw [hlookup] at hs
    exact h.names _ (TypeStore.mem_of_lookup hlookup) s hs

/-- The overloads of one name are replaced by methods that have it. -/
theorem Filed.put (h : u.Filed t) {ss : List Shadow} (hss : ∀ s ∈ ss, u.IsNamed s.method name) :
    u.Filed { t with methods := Assoc.put name ss t.methods } where
  names p hp s hs := by
    rcases mem_put hp with hp | rfl
    · exact h.names p hp s hs
    · exact hss s hs
  nodup := Assoc.nodup_keys_put h.nodup name ss

/-- A method is added under its name. -/
theorem Filed.addMethod (h : u.Filed t) (hs : u.IsNamed s.method name) : u.Filed (t.addMethod name s) := by
  refine h.put fun x hx => ?_
  rcases List.mem_append.mp hx with hx | hx
  · exact h.overloads hx
  · rwa [List.mem_singleton.mp hx]

/-- A method is inherited under its name. -/
theorem Filed.inheritMethod (h : u.Filed t) (hs : u.IsNamed s.method name) : u.Filed (u.inheritMethod name t s) := by
  unfold Universe.inheritMethod
  split
  · dsimp only
    split
    · refine h.put fun x hx => ?_
      rcases mem_updateFirst hx with hx | ⟨y, hy, -, rfl⟩
      · exact h.overloads hx
      · rcases u.mergeShadow_method t.owner s y with heq | ⟨-, heq⟩
        · exact heq ▸ h.overloads hy
        · exact heq ▸ hs
    · exact h.addMethod hs
  · exact h

/-- The table of a supertype is merged in, name by name. -/
theorem Filed.inherit (h : u.Filed t) (hup : u.Filed up) : u.Filed (u.inherit t up) := by
  refine foldl_keeps (P := u.Filed) (foldl_keeps (P := u.Filed) h fun p hp t ht => ?_) fun p _ t ht => ?_
  · exact foldl_keeps (P := u.Filed) ht fun s hs t ht => ht.inheritMethod (hup.names p hp s hs)
  · exact ht.of_methods (inheritField_keeps u t p.1 p.2).2

/-- Declared methods stand under their names. -/
theorem declaredTable_filed {cls : TypeId} (h : ∀ id ∈ (u.membersOf cls).methods, u.Has id) : u.Filed (u.declaredTable cls) := by
  refine foldl_keeps (P := u.Filed) (foldl_keeps (P := u.Filed) ⟨by simp, by simp⟩ fun id hid t ht => ?_) fun f _ t ht => ?_
  · obtain ⟨m, hm⟩ := Option.isSome_iff_exists.mp (h id hid)
    exact ht.addMethod ⟨m, hm, by rw [method_eq hm]⟩
  · exact ht.of_methods (addField_keeps t _ f).2

/-- The methods of an array stand under their names. -/
theorem arrayTableFrom_filed (arr : TypeId) {clone : MethodId} (hclone : u.IsNamed clone "clone") (length : FieldId)
    {root : MemberTable} (hroot : u.Filed root) : u.Filed (u.arrayTableFrom arr clone length root) := by
  refine foldl_keeps (P := u.Filed) ⟨fun p hp s hs => ?_, by simp⟩ fun p hp t ht => ?_
  · rw [List.mem_singleton.mp hp] at hs ⊢
    rwa [List.mem_singleton.mp hs]
  · refine foldl_keeps (P := u.Filed) ht fun s hs t ht => ?_
    split
    · exact ht
    · exact ht.addMethod (hroot.names p hp s hs)

end

/-! ## Overloads that are told apart

That no two overloads of a name agree, apart from those that the class declares.
-/

section

variable {cls : TypeId} {x y s : Shadow} {t : MemberTable}

theorem Apart.symm (h : u.Apart cls x y) : u.Apart cls y x := by
  intro hsame
  obtain ⟨hne, hx, hy⟩ := h (sameSignature_symm hsame)
  exact ⟨hne.symm, hy, hx⟩

/-- What is told apart from an overload is told apart from what the overload is merged to. -/
theorem Apart.mergeShadow (h : u.Apart cls x y) (hsame : u.sameSignature x.method s.method) :
    u.Apart cls (u.mergeShadow cls s x) y := by
  rcases u.mergeShadow_method cls s x with heq | ⟨howner, heq⟩
  · unfold Apart
    rwa [heq]
  · -- what agrees with the incoming method agrees with the overload that it replaces
    intro hagrees
    rw [heq] at hagrees
    exact absurd (h (sameSignature_trans hsame hagrees)).2.1 howner

/-- Joining overloads keeps a property of their methods. -/
theorem merges_of_method (u : Universe) (K : MethodId → Prop) : u.Merges fun s => K s.method := by
  intro owner incoming existing hincoming hexisting _
  rcases u.mergeShadow_method owner incoming existing with heq | ⟨-, heq⟩
  · rwa [heq]
  · rwa [heq]

/-- Overloads stay told apart when a method is inherited. It is joined with the first overload
that it agrees with; by transitivity it agrees with no other one, unless the class declares
both. -/
theorem Distinct.inheritMethod (h : u.Distinct cls t) (howner : t.owner = cls) (name : String) (hs : u.Processed s.method) :
    u.Distinct cls (u.inheritMethod name t s) := by
  refine ⟨inheritMethod_all (u.merges_of_method _) h.processed hs, fun name' => ?_⟩
  unfold Universe.inheritMethod
  split
  · dsimp only
    split
    · by_cases hname : name' = name
      · subst hname
        rw [overloads_put_self, howner]
        exact pairwise_updateFirst (h.apart name') (fun x y hx hxy => hxy.mergeShadow hx)
          fun x y hy hxy => (hxy.symm.mergeShadow hy).symm
      · rw [overloads_put_of_ne _ hname]
        exact h.apart name'
    · rename_i hnone
      rw [overloads_addMethod]
      split
      · refine List.pairwise_append.mpr ⟨h.apart name, List.pairwise_singleton _ _, fun x hx y hy hsame => ?_⟩
        rw [List.mem_singleton.mp hy] at hsame
        exact absurd (List.any_eq_true.mpr ⟨x, hx, hsame⟩) hnone
      · exact h.apart name'
  · exact h.apart name'

/-- Overloads stay told apart when the table of a supertype is merged in. -/
theorem Distinct.inherit (h : u.Distinct cls t) (howner : t.owner = cls) {up : MemberTable}
    (hup : up.All fun s => u.Processed s.method) : u.Distinct cls (u.inherit t up) := by
  let goes : MemberTable → Prop := fun t => t.owner = cls ∧ u.Distinct cls t
  have hmethods : goes (up.methods.foldl (fun t p => p.2.foldl (u.inheritMethod p.1) t) t) :=
    foldl_keeps (P := goes) ⟨howner, h⟩ fun p hp t ht => foldl_keeps (P := goes) ht fun s hs t ht =>
      ⟨(inheritMethod_owner u p.1 t s).trans ht.1, ht.2.inheritMethod ht.1 p.1 (hup p hp s hs)⟩
  refine (foldl_keeps (P := goes) hmethods fun p _ t ht => ?_).2
  obtain ⟨hsame, hkept⟩ := inheritField_keeps u t p.1 p.2
  exact ⟨hsame.trans ht.1, ht.2.of_methods hkept⟩

/-- Methods of the class that are not listed yet are added. -/
theorem pairwise_foldl_addMethod {ids : List MethodId} (hids : ids.Nodup) (hown : ∀ id ∈ ids, (u.method id).owner = cls)
    (h : ∀ name, (t.overloads name).Pairwise (u.Apart cls))
    (hold : ∀ name, ∀ s ∈ t.overloads name, s.method ∉ ids ∧ (u.method s.method).owner = cls) (name : String) :
    ((ids.foldl (fun t id => t.addMethod (u.method id).name ⟨id, []⟩) t).overloads name).Pairwise (u.Apart cls) := by
  induction ids generalizing t with
  | nil => exact h name
  | cons id ids ih =>
    obtain ⟨hid, hids⟩ := List.nodup_cons.mp hids
    have hcls := hown id (by simp)
    rw [List.foldl_cons]
    refine ih hids (fun id' hid' => hown id' (by simp [hid'])) (fun name => ?_) fun name s hs => ?_
    · rw [overloads_addMethod]
      split
      · refine List.pairwise_append.mpr ⟨h _, List.pairwise_singleton _ _, fun x hx y hy _ => ?_⟩
        obtain ⟨hx, howner⟩ := hold _ x hx
        rw [List.mem_singleton.mp hy]
        exact ⟨fun heq => hx (by simp [heq]), howner, hcls⟩
      · exact h name
    · rw [overloads_addMethod] at hs
      have old {name : String} (hs : s ∈ t.overloads name) : s.method ∉ ids ∧ (u.method s.method).owner = cls :=
        (hold name s hs).imp_left fun hnot hmem => hnot (by simp [hmem])
      split at hs
      · rcases List.mem_append.mp hs with hs | hs
        · exact old hs
        · rw [List.mem_singleton.mp hs]
          exact ⟨hid, hcls⟩
      · exact old hs

/-- The methods that a class declares are told apart. -/
theorem TidyMembers.declaredTable (hc : u.TidyMembers cls (u.membersOf cls))
    (hread : ∀ id ∈ (u.membersOf cls).methods, u.Processed id) : u.Distinct cls (u.declaredTable cls) := by
  have hown (id : MethodId) (hid : id ∈ (u.membersOf cls).methods) : (u.method id).owner = cls := by
    obtain ⟨m, hm, howner⟩ := hc.own id hid
    rw [method_eq hm, howner]
  unfold Universe.declaredTable
  refine foldl_keeps (P := u.Distinct cls) ⟨?_, fun name => ?_⟩ fun f _ t ht => ht.of_methods (addField_keeps t _ f).2
  · exact foldl_keeps (by simp [MemberTable.All]) fun id hid t ht => ht.addMethod _ (hread id hid)
  · exact pairwise_foldl_addMethod hc.nodup hown (by simp [MemberTable.overloads]) (by simp [MemberTable.overloads]) name

end

end CallResolution.Universe
