import CallResolution.Proofs.Members.Callables

/-!
# Overloads that are told apart

A method comes to a class along every path from the class that declares it, and the member
table recognizes it by the erased types of its parameters. These are compared only of
signatures that were processed without a fault. So two overloads of one name with such
signatures and the same erased parameter types are different methods, which the class itself
declares: nothing that it inherits stands beside them. A method with a broken signature is
recognized nowhere, and is listed as often as it comes in.

When a table is made all signatures in it have been looked at, and none of them changes
afterwards; that is why overloads which are told apart stay so. `Universe.Tidy` says that the
table of every class tells its overloads apart, and that every class lists methods of its own,
each once.

Main statements: `Distinct.later` and `Tidy.evolve`.
-/

namespace CallResolution

namespace MemberTable

variable {P : Shadow → Prop} {t : MemberTable}

/-- All overloads in a table have a property. -/
def All (P : Shadow → Prop) (t : MemberTable) : Prop :=
  ∀ p ∈ t.methods, ∀ s ∈ p.2, P s

/-- The overloads of one name have it. -/
theorem All.overloads (ht : t.All P) {name : String} {s : Shadow} (hs : s ∈ t.overloads name) : P s := by
  unfold MemberTable.overloads at hs
  cases h : t.methods.lookup name with
  | none => simp [h] at hs
  | some ss =>
    rw [h] at hs
    exact ht _ (TypeStore.mem_of_lookup h) s hs

end MemberTable

namespace Universe

variable {u u' : Universe} {cls : TypeId} {a b : MethodId}

/-- Two overloads in the table of a class are told apart: with the same erased parameter types
they are different methods, and the class declares both. An overload that is inherited is
therefore the only one with its signature. -/
def Apart (u : Universe) (cls : TypeId) (x y : Shadow) : Prop :=
  u.sameSignature x.method y.method →
    x.method ≠ y.method ∧ (u.method x.method).owner = cls ∧ (u.method y.method).owner = cls

/-- All signatures in the table of a class have been looked at, and the overloads of each name
are told apart. The first part is what makes the second one lasting. -/
structure Distinct (u : Universe) (cls : TypeId) (t : MemberTable) : Prop where
  /-- The signatures. -/
  processed : t.All fun s => u.Processed s.method
  /-- The overloads of each name. -/
  apart : ∀ name, (t.overloads name).Pairwise (u.Apart cls)

/-- What a class lists is in order: methods of its own, each once, and a table that tells its
overloads apart. -/
structure TidyMembers (u : Universe) (cls : TypeId) (c : ClassMembers) : Prop where
  /-- No method is listed twice. -/
  nodup : c.methods.Nodup
  /-- The methods are those of the class. -/
  own : ∀ id ∈ c.methods, ∃ m, u.method? id = some m ∧ m.owner = cls
  /-- The table. -/
  table : ∀ t, c.table = .built t → u.Distinct cls t

/-- What classes list is in order. -/
structure Tidy (u : Universe) : Prop where
  /-- The types are well formed. -/
  types : u.types.WellFormed
  /-- Callables mention known types. -/
  callables : ∀ (i : Nat) m, u.methods[i]? = some m → m.Known u.types
  /-- The members of classes. -/
  members : ∀ p ∈ u.members, u.TidyMembers p.1 p.2

/-- Signatures that have been looked at agree only if they did so already: neither of them
changes any more, and their types keep their erasures. -/
theorem Retains.sameSignature_of_later (h : u.Retains u') (ht : u.Tidy) (ha : u.Processed a) (hb : u.Processed b)
    (hab : u'.sameSignature a b) : u.sameSignature a b := by
  have same {id : MethodId} (hid : u.Processed id) (hr : (u'.method id).isResolved) : (u.method id).isResolved ∧
      (u'.method id).params.map u'.types.erased = (u.method id).params.map u.types.erased := by
    obtain ⟨m, hm, hpending⟩ := hid
    obtain ⟨m', hm', hl⟩ := h.method? hm
    rw [method_eq hm, method_eq hm'] at *
    have hresolved : m.isResolved := by
      unfold Method.isResolved at hr ⊢
      rwa [← hl.signature hpending]
    refine ⟨hresolved, ?_⟩
    rw [(hl.resolved hresolved).2.1]
    have hknown := (ht.callables _ m (getElem?_of_method? hm)).params
    exact List.map_congr_left fun p hp => h.types.erased ht.types (hknown p hp)
  unfold sameSignature at *
  simp only [Bool.and_eq_true, decide_eq_true_eq] at hab ⊢
  obtain ⟨⟨hra, hrb⟩, heq⟩ := hab
  obtain ⟨ha', hpa⟩ := same ha hra
  obtain ⟨hb', hpb⟩ := same hb hrb
  exact ⟨⟨ha', hb'⟩, by rw [← hpa, ← hpb, heq]⟩

/-- Overloads that are told apart stay so. -/
theorem Retains.apart (h : u.Retains u') (ht : u.Tidy) {x y : Shadow} (hx : u.Processed x.method) (hy : u.Processed y.method)
    (hxy : u.Apart cls x y) : u'.Apart cls x y := by
  intro hsame
  obtain ⟨hne, hox, hoy⟩ := hxy (h.sameSignature_of_later ht hx hy hsame)
  have owner {id : MethodId} (hid : u.Processed id) : (u'.method id).owner = (u.method id).owner := by
    obtain ⟨m, hm, -⟩ := hid
    obtain ⟨m', hm', hl⟩ := h.method? hm
    rw [method_eq hm, method_eq hm', hl.owner]
  exact ⟨hne, (owner hx).trans hox, (owner hy).trans hoy⟩

/-- A table that tells its overloads apart goes on to do so. -/
theorem Distinct.later {t : MemberTable} (hd : u.Distinct cls t) (h : u.Retains u') (ht : u.Tidy) : u'.Distinct cls t where
  processed p hp s hs := h.processed (hd.processed p hp s hs)
  apart name := (hd.apart name).imp_of_mem fun hx hy hxy =>
    h.apart ht (hd.processed.overloads hx) (hd.processed.overloads hy) hxy

/-- Fields play no part. -/
theorem Distinct.of_methods {t t' : MemberTable} (hd : u.Distinct cls t) (methods : t'.methods = t.methods) : u.Distinct cls t' := by
  refine ⟨fun p hp => hd.processed p (methods ▸ hp), fun name => ?_⟩
  unfold MemberTable.overloads
  rw [methods]
  exact hd.apart name

/-- What a class lists stays in order. -/
theorem TidyMembers.later {c : ClassMembers} (hc : u.TidyMembers cls c) (h : u.Retains u') (ht : u.Tidy) : u'.TidyMembers cls c where
  nodup := hc.nodup
  own id hid := by
    obtain ⟨m, hm, howner⟩ := hc.own id hid
    obtain ⟨m', hm', hl⟩ := h.method? hm
    exact ⟨m', hm', hl.owner.trans howner⟩
  table t hmade := (hc.table t hmade).later h ht

/-- Only the methods that a class lists and its table matter. -/
theorem TidyMembers.of_same {c c' : ClassMembers} (hc : u.TidyMembers cls c) (methods : c'.methods = c.methods)
    (table : c'.table = c.table) : u.TidyMembers cls c' :=
  ⟨methods ▸ hc.nodup, fun id hid => hc.own id (methods ▸ hid), fun t hmade => hc.table t (table ▸ hmade)⟩

/-- A class lists one more method of its own. -/
theorem TidyMembers.add {c : ClassMembers} (hc : u.TidyMembers cls c) {id : MethodId} {m : Method} (hnew : id ∉ c.methods)
    (hm : u.method? id = some m) (howner : m.owner = cls) : u.TidyMembers cls { c with methods := c.methods ++ [id] } where
  nodup := List.nodup_append.mpr ⟨hc.nodup, List.nodup_singleton id, by
    rintro a ha b hb rfl
    exact hnew (List.mem_singleton.mp hb ▸ ha)⟩
  own a ha := by
    rcases List.mem_append.mp ha with ha | ha
    · exact hc.own a ha
    · rw [List.mem_singleton.mp ha]
      exact ⟨m, hm, howner⟩
  table := hc.table

/-- A class of which nothing is known lists nothing. -/
theorem tidyMembers_fresh (u : Universe) (cls : TypeId) : u.TidyMembers cls (u.freshMembers cls) :=
  ⟨List.nodup_nil, by simp [freshMembers], by simp [freshMembers]⟩

namespace Tidy

/-- The members of the class of a type. -/
theorem membersOf (ht : u.Tidy) (t : TypeId) : u.TidyMembers (u.types.classOf t) (u.membersOf t) := by
  rcases u.membersOf_cases t with hmem | hfresh
  · exact ht.members _ hmem
  · rw [hfresh]
    exact tidyMembers_fresh u _

/-- A universe is tidy when it retains what a tidy one has and all that is new in it is in
order. -/
theorem evolve (ht : u.Tidy) (h : u.Retains u') (types : u'.types.WellFormed)
    (callables : ∀ (i : Nat) m, u'.methods[i]? = some m → u.methods[i]? = some m ∨ m.Known u'.types)
    (members : ∀ p ∈ u'.members, p ∈ u.members ∨ u'.TidyMembers p.1 p.2) : u'.Tidy where
  types := types
  callables i m hm := by
    rcases callables i m hm with hold | hknown
    · exact (ht.callables i m hold).grows h.types.toGrows
    · exact hknown
  members p hp := by
    rcases members p hp with hold | htidy
    · exact (ht.members p hold).later h ht
    · exact htidy

/-- A universe with the same types, callables and members. -/
theorem of_same (ht : u.Tidy) (types : u'.types = u.types) (methods : u'.methods = u.methods) (members : u'.members = u.members) :
    u'.Tidy :=
  ht.evolve (.of_same types methods) (types ▸ ht.types) (fun _ _ hm => .inl (methods ▸ hm)) fun _ hp => .inl (members ▸ hp)

/-- The members of one class are set to others that are in order. -/
theorem put (ht : u.Tidy) {t : TypeId} {c : ClassMembers} (hc : u.TidyMembers (u.types.classOf t) c) :
    { u with members := Assoc.put (u.types.classOf t) c u.members }.Tidy := by
  refine ht.evolve (.of_same rfl rfl) ht.types (fun _ _ hm => .inl hm) fun p hp => (mem_put hp).imp_right ?_
  rintro rfl
  exact hc.later (.of_same rfl rfl) ht

end Tidy

end Universe

end CallResolution
