import CallResolution.Proofs.Members.Readings
import CallResolution.Proofs.Members.Tables
import CallResolution.Proofs.Types.Acyclic

/-!
# Member tables as a recursion over supertypes

The table of a class is made once, on request, and those of its supertypes are made first. A
supertype whose table is being made at that moment is passed over. In a hierarchy without
cycles this never happens, provided that no table is half made when the request comes: only
classes below the one whose table is being made are marked then. So every table that there is
holds what the class declares, with the tables of all its supertypes merged in, and these are
still what they were, since all methods in them have been looked at.

`Universe.Whole` says so of a universe, and it is kept by whatever happens to it. Two
universes that judge methods alike make the same of the same tables, which is why it does not
matter when a table was made. `Agrees` says what it takes for that: signatures compare alike,
and a method has one owner and may be inherited by the same classes. It holds along a run,
where what was looked at stays.

The last section compares tables that were made in different runs of requests. Both began in
one universe, but a text may have been read at another time in each, so the two agree only
when neither registered a class under a name that is tried for a text (`Keeps.agrees_apart`).
`inherited` is the recursion over supertypes as a function of a universe, with a bound on the
levels; it asks for no table, so it says what a table lists without saying when it was made.

Main statements: `classTable_fetches` for one request, `TableSteps.complete` for a run, and
`Complete.memberTable` for the tables that are given out; `Complete.inherited_alike` and
`Complete.alike_apart` for tables that were made at different times.
-/

namespace CallResolution

/-- Tables that list the same methods for the same class; fields may differ. -/
structure MemberTable.Alike (t t' : MemberTable) : Prop where
  /-- The class. -/
  owner : t'.owner = t.owner
  /-- The methods. -/
  methods : t'.methods = t.methods

namespace MemberTable

variable {t t' t'' : MemberTable}

theorem Alike.refl (t : MemberTable) : t.Alike t :=
  ⟨rfl, rfl⟩

theorem Alike.symm (h : t.Alike t') : t'.Alike t :=
  ⟨h.owner.symm, h.methods.symm⟩

theorem Alike.trans (h : t.Alike t') (h' : t'.Alike t'') : t.Alike t'' :=
  ⟨h'.owner.trans h.owner, h'.methods.trans h.methods⟩

theorem Alike.overloads (h : t.Alike t') (name : String) : t'.overloads name = t.overloads name := by
  unfold MemberTable.overloads
  rw [h.methods]

theorem Alike.all {P : Shadow → Prop} (h : t.Alike t') (ht : t.All P) : t'.All P :=
  fun p hp => ht p (h.methods ▸ hp)

/-- Replacing is decided by the elements of the list alone. -/
theorem updateFirst_congr {p p' : Shadow → Bool} {f f' : Shadow → Shadow} {l : List Shadow} (hp : ∀ x ∈ l, p' x = p x)
    (hf : ∀ x ∈ l, f' x = f x) : updateFirst p' f' l = updateFirst p f l := by
  induction l with
  | nil => rfl
  | cons x l ih =>
    unfold updateFirst
    rw [hp x (by simp), hf x (by simp), ih (fun y hy => hp y (by simp [hy])) fun y hy => hf y (by simp [hy])]

end MemberTable

namespace Universe

variable {u u' : Universe} {owner : TypeId} {K : MethodId → Prop}

/-! ## Universes that judge methods alike

Merging is a fold over overloads, and every step is decided by comparisons of methods. So it
is enough that two universes give the same answers about the methods in question.
-/

/-- Two universes judge some methods alike that a class may inherit. Merging tables looks at
nothing else of a method than what is listed here, so tables of these methods come out alike.
-/
structure Agrees (u u' : Universe) (owner : TypeId) (K : MethodId → Prop) : Prop where
  /-- Whether signatures agree. -/
  same : ∀ a b, K a → K b → u'.sameSignature a b = u.sameSignature a b
  /-- Whether they are inherited. -/
  inheritable : ∀ a, K a → u'.inheritable (u'.method a) owner = u.inheritable (u.method a) owner
  /-- Which class declares them. -/
  owners : ∀ a, K a → (u'.method a).owner = (u.method a).owner
  /-- Whether they are abstract. -/
  abstract : ∀ a, K a → (u'.method a).flags.isAbstract = (u.method a).flags.isAbstract

theorem Agrees.refl (u : Universe) (owner : TypeId) (K : MethodId → Prop) : u.Agrees u owner K :=
  ⟨fun _ _ _ _ => rfl, fun _ _ => rfl, fun _ _ => rfl, fun _ _ => rfl⟩

section

variable (h : u.Agrees u' owner K)

include h

theorem Agrees.mergeShadow {incoming existing : Shadow} (hincoming : K incoming.method) (hexisting : K existing.method) :
    u'.mergeShadow owner incoming existing = u.mergeShadow owner incoming existing := by
  unfold Universe.mergeShadow
  dsimp only
  rw [h.owners _ hexisting, h.abstract _ hexisting, h.abstract _ hincoming]

variable {t t' : MemberTable}

/-- What is made of tables that list the same methods when the same method is inherited. -/
theorem Agrees.inheritMethod (halike : t.Alike t') (howner : t.owner = owner) (ht : t.All fun s => K s.method) (name : String)
    {s : Shadow} (hs : K s.method) : (u.inheritMethod name t s).Alike (u'.inheritMethod name t' s) := by
  have hsame (x : Shadow) (hx : x ∈ t.overloads name) : u'.sameSignature x.method s.method = u.sameSignature x.method s.method :=
    h.same _ _ (ht.overloads hx) hs
  have hany : (t.overloads name).any (fun x => u'.sameSignature x.method s.method) =
      (t.overloads name).any fun x => u.sameSignature x.method s.method := by
    rw [Bool.eq_iff_iff, List.any_eq_true, List.any_eq_true]
    exact exists_congr fun x => and_congr_right fun hx => by rw [hsame x hx]
  have hmerged (x : Shadow) (hx : x ∈ t.overloads name) : u'.mergeShadow owner s x = u.mergeShadow owner s x :=
    h.mergeShadow hs (ht.overloads hx)
  have hupdate := MemberTable.updateFirst_congr hsame hmerged
  unfold Universe.inheritMethod
  rw [halike.owner, howner, h.inheritable _ hs]
  dsimp only
  rw [halike.overloads, hany, hupdate, halike.methods]
  split
  · split
    · exact ⟨rfl, rfl⟩
    · unfold MemberTable.addMethod
      exact ⟨halike.owner, by rw [halike.overloads, halike.methods]⟩
  · exact halike

/-- What is made of tables that list the same methods when tables that do are merged in. -/
theorem Agrees.inherit (halike : t.Alike t') (howner : t.owner = owner) (ht : t.All fun s => K s.method) {up up' : MemberTable}
    (hups : up'.methods = up.methods) (hup : up.All fun s => K s.method) : (u.inherit t up).Alike (u'.inherit t' up') := by
  -- the tables that the methods so far were merged into
  let goes (t t' : MemberTable) : Prop := t.Alike t' ∧ t.owner = owner ∧ t.All fun s => K s.method
  have fold {α : Type} {f f' : MemberTable → α → MemberTable} {l : List α} {t t' : MemberTable} (hgoes : goes t t')
      (hf : ∀ a ∈ l, ∀ t t', goes t t' → goes (f t a) (f' t' a)) : goes (l.foldl f t) (l.foldl f' t') := by
    induction l generalizing t t' with
    | nil => exact hgoes
    | cons a l ih => exact ih (hf a (by simp) t t' hgoes) fun b hb => hf b (by simp [hb])
  have hmethods : goes (up.methods.foldl (fun t p => p.2.foldl (u.inheritMethod p.1) t) t)
      (up.methods.foldl (fun t p => p.2.foldl (u'.inheritMethod p.1) t) t') :=
    fold ⟨halike, howner, ht⟩ fun p hp t t' hgoes => fold hgoes fun s hs t t' ⟨halike, howner, ht⟩ =>
      ⟨h.inheritMethod halike howner ht p.1 (hup p hp s hs), (inheritMethod_owner u p.1 t s).trans howner,
        inheritMethod_all (u.merges_of_method K) ht (hup p hp s hs)⟩
  have fields (v : Universe) (t : MemberTable) (l : List (String × FieldId)) :
      t.Alike (l.foldl (fun t p => v.inheritField t p.1 p.2) t) :=
    foldl_keeps (.refl t) fun p _ t' ht' =>
      ht'.trans ⟨(inheritField_keeps v t' p.1 p.2).1, (inheritField_keeps v t' p.1 p.2).2⟩
  unfold Universe.inherit
  rw [hups]
  exact ((fields _ _ _).symm.trans hmethods.1).trans (fields _ _ _)

/-- What is made of tables that list the same methods when several tables that do are merged
in. -/
theorem Agrees.foldl_inherit {α : Type} (halike : t.Alike t') (howner : t.owner = owner) (ht : t.All fun s => K s.method) {ps : List α}
    {f f' : α → MemberTable} (hups : ∀ p ∈ ps, (f' p).methods = (f p).methods ∧ (f p).All fun s => K s.method) :
    (ps.foldl (fun t p => u.inherit t (f p)) t).Alike (ps.foldl (fun t p => u'.inherit t (f' p)) t') := by
  induction ps generalizing t t' with
  | nil => exact halike
  | cons p ps ih =>
    obtain ⟨hmethods, hup⟩ := hups p (by simp)
    exact ih (h.inherit halike howner ht hmethods hup) ((inherit_owner u t (f p)).trans howner)
      (inherit_all (u.merges_of_method K) ht hup) fun q hq => hups q (by simp [hq])

end

/-! ## Later universes

What was looked at once is judged alike for ever.
-/

/-- Whether a method can be inherited never changes. -/
theorem Keeps.inheritable (h : u.Keeps u') (hu : u.WellFormed) {id : MethodId} (hid : u.Has id) (howner : u.types.Knows owner) :
    u'.inheritable (u'.method id) owner = u.inheritable (u.method id) owner := by
  obtain ⟨m, hm⟩ := Option.isSome_iff_exists.mp hid
  obtain ⟨m', hm', hlater⟩ := h.method? hm
  rw [method_eq hm, method_eq hm']
  unfold Universe.inheritable
  rw [hlater.access, hlater.owner, h.types.samePackage hu.types (hu.method? hm).owner howner]

/-- Methods that have been looked at are judged alike later. -/
theorem Keeps.agrees (h : u.Keeps u') (hu : u.WellFormed) (ht : u.Tidy) (howner : u.types.Knows owner) :
    u.Agrees u' owner u.Processed := by
  have later {id : MethodId} (hid : u.Processed id) : (u.method id).Later (u'.method id) := by
    obtain ⟨m, hm, -⟩ := hid
    obtain ⟨m', hm', hlater⟩ := h.method? hm
    rwa [method_eq hm, method_eq hm']
  refine ⟨fun a b ha hb => ?_, fun a ha => ?_, fun a ha => (later ha).owner, fun a ha => congrArg _ (later ha).flags⟩
  · rw [Bool.eq_iff_iff]
    exact ⟨h.sameSignature_of_later ht ha hb, h.sameSignature hu⟩
  · obtain ⟨m, hm, -⟩ := ha
    exact h.inheritable hu (Option.isSome_iff_exists.mpr ⟨m, hm⟩) howner

/-- The table of what a class declares, as far as it concerns methods. -/
theorem declaredTable_alike {cls : TypeId} (hcls : (u.membersOf cls).methods = (u'.membersOf cls).methods)
    (names : ∀ id ∈ (u.membersOf cls).methods, (u'.method id).name = (u.method id).name) :
    (u.declaredTable cls).Alike (u'.declaredTable cls) := by
  have fields (v : Universe) (t : MemberTable) (l : List FieldId) :
      t.Alike (l.foldl (fun t id => t.addField ((v.field? id).elim "" (·.name)) id) t) :=
    foldl_keeps (.refl t) fun f _ t' ht' => ht'.trans ⟨(addField_keeps t' _ f).1, (addField_keeps t' _ f).2⟩
  have methods (ids : List MethodId) (t : MemberTable) (hids : ∀ id ∈ ids, (u'.method id).name = (u.method id).name) :
      ids.foldl (fun t id => t.addMethod (u'.method id).name ⟨id, []⟩) t =
        ids.foldl (fun t id => t.addMethod (u.method id).name ⟨id, []⟩) t := by
    induction ids generalizing t with
    | nil => rfl
    | cons id ids ih =>
      rw [List.foldl_cons, List.foldl_cons, hids id (by simp), ih _ fun id' hid' => hids id' (by simp [hid'])]
  unfold declaredTable
  dsimp only
  rw [← hcls, methods _ _ names]
  exact (fields u _ _).symm.trans (fields u' _ _)

/-! ## Tables that are whole

What a table has to hold, as a property of a universe and not of the way in which the table
was made.
-/

/-- The table of a class; one that lists nothing, if it is not there. -/
def tableAt (u : Universe) (cls : TypeId) : MemberTable :=
  match (u.outline cls).2 with
  | .built t => t
  | _ => { owner := cls }

theorem tableAt_of_built {cls : TypeId} {t : MemberTable} (h : (u.outline cls).2 = .built t) : u.tableAt cls = t := by
  simp [tableAt, h]

/-- A table holds what a class declares, with the tables of all its supertypes merged in. The
tables of the supertypes are taken from the universe as it is, not as it was when the table
was made; that both give the same is what `Gathered.later` is for. -/
structure Gathered (u : Universe) (cls : TypeId) (t : MemberTable) : Prop where
  /-- What the class declares has been looked at. -/
  processed : ∀ id ∈ (u.outline cls).1, u.Processed id
  /-- The tables of the supertypes are there. -/
  parents : ∀ p ∈ u.tableParents cls, (u.outline p).2 = .built (u.tableAt p)
  /-- The table is what they are merged to. -/
  merged : ((u.tableParents cls).foldl (fun t p => u.inherit t (u.tableAt p)) (u.declaredTable cls)).Alike t

/-- Every table that there is holds all that it should. -/
def Whole (u : Universe) : Prop :=
  ∀ cls t, (u.types.shape cls).isDeclared → (u.outline cls).2 = .built t → u.Gathered cls t

/-- The outline of a declared class is that of its members. -/
theorem outline_of_isDeclared {cls : TypeId} (h : (u.types.shape cls).isDeclared) :
    u.outline cls = ((u.membersOf cls).methods, (u.membersOf cls).table) := by
  rw [membersOf_outline, classOf_of_isDeclared h]

/-- A class declares the same methods in two universes when its outline lists the same. -/
theorem methods_of_outline {cls : TypeId} (hcls : (u.types.shape cls).isDeclared) (hcls' : (u'.types.shape cls).isDeclared)
    (h : (u'.outline cls).1 = (u.outline cls).1) : (u'.membersOf cls).methods = (u.membersOf cls).methods := by
  rwa [outline_of_isDeclared hcls, outline_of_isDeclared hcls'] at h

/-- What a class declares is there. -/
theorem Tidy.has_declared (ht : u.Tidy) {cls : TypeId} {id : MethodId} (hid : id ∈ (u.membersOf cls).methods) : u.Has id := by
  obtain ⟨m, hm, -⟩ := (ht.membersOf cls).own id hid
  exact Option.isSome_of_eq_some hm

/-- All methods in a table have been looked at. -/
theorem Tidy.processed (ht : u.Tidy) {cls : TypeId} {t : MemberTable} (h : (u.outline cls).2 = .built t) :
    t.All fun s => u.Processed s.method := by
  unfold outline at h
  cases hlookup : u.members.lookup cls with
  | none => simp [hlookup] at h
  | some c =>
    rw [hlookup] at h
    exact ((ht.members _ (TypeStore.mem_of_lookup hlookup)).table t h).processed

/-- A table that is made stays. -/
theorem Keeps.built (h : u.Keeps u') {cls : TypeId} (hcls : (u.types.shape cls).isDeclared) {t : MemberTable}
    (ht : (u.outline cls).2 = .built t) : (u'.outline cls).2 = .built t := by
  have hcls' : (u'.types.shape cls).isDeclared := by rwa [h.types.shape (TypeStore.knows_of_isDeclared hcls)]
  rw [outline_of_isDeclared hcls, ← tableState_of_isDeclared hcls] at ht
  rw [outline_of_isDeclared hcls', ← tableState_of_isDeclared hcls',
    (h.tables cls (TypeStore.knows_of_isDeclared hcls)).eq_of_ne (by rw [show u.tableState cls = .built t from ht]; simp)]
  exact ht

/-- The classes whose tables are merged into that of a class stay. -/
theorem tableParents_extends (h : u.types.Extends u'.types) (hu : u.types.WellFormed) {cls : TypeId} (hcls : u.types.Knows cls) :
    u'.tableParents cls = u.tableParents cls := by
  unfold tableParents
  rw [h.parents hu hcls, h.classInfo hu hcls]

/-- A table that holds all that it should goes on to do so, provided that its class declares
nothing new. -/
theorem Gathered.later {cls : TypeId} {t : MemberTable} (hg : u.Gathered cls t) (h : u.Keeps u') (hu : u.WellFormed) (ht : u.Tidy)
    (hcls : (u.types.shape cls).isDeclared) (hmethods : (u'.outline cls).1 = (u.outline cls).1) : u'.Gathered cls t := by
  have hknown := TypeStore.knows_of_isDeclared hcls
  have hcls' : (u'.types.shape cls).isDeclared := by rwa [h.types.shape hknown]
  have hbuilt (p : TypeId) (hp : p ∈ u.tableParents cls) : (u'.outline p).2 = .built (u.tableAt p) :=
    h.built (hu.isDeclared_tableParent hp) (hg.parents p hp)
  have hparents := tableParents_extends h.types hu.types hknown
  have hprocessed : ∀ id ∈ (u.membersOf cls).methods, u.Processed id := by
    have hprocessed := hg.processed
    rwa [outline_of_isDeclared hcls] at hprocessed
  have hdeclared : (u.declaredTable cls).Alike (u'.declaredTable cls) := by
    refine declaredTable_alike (methods_of_outline hcls hcls' hmethods).symm fun id hid => ?_
    obtain ⟨m, hm, -⟩ := hprocessed id hid
    obtain ⟨m', hm', hlater⟩ := h.method? hm
    rw [method_eq hm, method_eq hm', hlater.name]
  refine ⟨fun id hid => h.processed (hg.processed id (hmethods ▸ hid)), ?_, ?_⟩
  · rw [hparents]
    exact fun p hp => (tableAt_of_built (hbuilt p hp)).symm ▸ hbuilt p hp
  · rw [hparents]
    refine ((h.agrees hu ht hknown).foldl_inherit hdeclared (u.declaredTable_owner cls)
      (declaredTable_all fun id hid => hprocessed id hid) fun p hp => ?_).symm.trans hg.merged
    exact ⟨congrArg MemberTable.methods (tableAt_of_built (hbuilt p hp)), ht.processed (hg.parents p hp)⟩

/-! ## Above a class

A measure for the recursion over supertypes: how often they can be followed.
-/

/-- The table of a class is merged into that of another one. -/
def TableParent (u : Universe) (c p : TypeId) : Prop :=
  p ∈ u.tableParents c

/-- Interfaces have the members of the root class too. -/
theorem parent_or_object {c p : TypeId} (h : u.TableParent c p) : u.types.Parent c p ∨ p = .object := by
  have hp := List.mem_of_mem_filter h
  split at hp
  · exact (List.mem_append.mp hp).imp_right List.mem_singleton.mp
  · exact .inl hp

/-- Nothing is merged into the table of the root class. -/
theorem WellFormed.not_tableParent_object (hu : u.WellFormed) (p : TypeId) : ¬ u.TableParent .object p := by
  intro h
  have hinfo := hu.types.classInfo_predefined hu.types.shape_object rfl
  unfold TableParent tableParents at h
  rw [hu.types.parents_object, hinfo] at h
  simp [TypeStore.predefinedClass] at h

/-- A class inherits from those whose members it has, beside the root class. -/
theorem WellFormed.inherits_of_above (hu : u.WellFormed) {b c : TypeId} (h : Relation.TransGen u.TableParent b c) (hc : c ≠ .object) :
    u.types.Inherits b c := by
  induction h with
  | single hp => exact .single ((parent_or_object hp).resolve_right hc)
  | tail _ hp ih =>
    refine (ih ?_).tail ((parent_or_object hp).resolve_right hc)
    rintro rfl
    exact hu.not_tableParent_object _ hp

/-- In a hierarchy without cycles nothing is merged into its own table. -/
theorem WellFormed.not_above (hu : u.WellFormed) (hacyclic : u.types.Acyclic) (c : TypeId) : ¬ Relation.TransGen u.TableParent c c := by
  intro hcycle
  refine hacyclic c (hu.inherits_of_above hcycle ?_)
  rintro rfl
  obtain ⟨p, hp, -⟩ := Relation.TransGen.head'_iff.mp hcycle
  exact hu.not_tableParent_object p hp

/-- Supertypes can be followed a number of times from a class. -/
def Climbs (u : Universe) : Nat → TypeId → Prop
  | 0, _ => True
  | n + 1, c => ∃ p ∈ u.tableParents c, u.Climbs n p

open Classical in
/-- The classes above a class. -/
noncomputable def above (u : Universe) (c : TypeId) : Finset TypeId :=
  u.types.classSet.filter (Relation.TransGen u.TableParent c)

open Classical in
theorem mem_above_iff {c d : TypeId} : d ∈ u.above c ↔ d ∈ u.types.classSet ∧ Relation.TransGen u.TableParent c d := by
  unfold above
  rw [Finset.mem_filter]

theorem WellFormed.mem_above (hu : u.WellFormed) {c d : TypeId} (h : Relation.TransGen u.TableParent c d) : d ∈ u.above c := by
  obtain ⟨b, -, hd⟩ := Relation.TransGen.tail'_iff.mp h
  have hdeclared := hu.isDeclared_tableParent hd
  have hself := classOf_of_isDeclared hdeclared
  have hmem : u.types.classOf d ∈ u.types.classSet :=
    TypeStore.classOf_mem_classSet (by simpa [hasMembers, not_isArray_of_isDeclared hdeclared] using hasMembers_of_isDeclared hdeclared)
  exact mem_above_iff.mpr ⟨hself ▸ hmem, h⟩

/-- There are fewer classes above a class than above one below it. -/
theorem WellFormed.card_above_lt (hu : u.WellFormed) (hacyclic : u.types.Acyclic) {c p : TypeId} (hp : u.TableParent c p) :
    (u.above p).card < (u.above c).card := by
  refine Finset.card_lt_card ?_
  refine Finset.ssubset_iff_subset_ne.mpr ⟨fun d hd => hu.mem_above (.head hp (mem_above_iff.mp hd).2), fun heq => ?_⟩
  have hself : p ∈ u.above p := heq ▸ hu.mem_above (.single hp)
  exact hu.not_above hacyclic p (mem_above_iff.mp hself).2

/-- Supertypes cannot be followed more often than there are classes above. The number of
classes bounds the recursion of the program, so in a hierarchy without cycles the bound is
never what ends it. -/
theorem WellFormed.climbs_le (hu : u.WellFormed) (hacyclic : u.types.Acyclic) {n : Nat} {c : TypeId} (h : u.Climbs n c) :
    n ≤ (u.above c).card := by
  induction n generalizing c with
  | zero => exact Nat.zero_le _
  | succ n ih =>
    obtain ⟨p, hp, hclimbs⟩ := h
    exact (ih hclimbs).trans_lt (hu.card_above_lt hacyclic hp)

/-- A request for a table can follow all supertypes. -/
theorem WellFormed.not_climbs (hu : u.WellFormed) (hacyclic : u.types.Acyclic) (c : TypeId) : ¬ u.Climbs u.tableFuel c := by
  intro h
  have hcard : (u.above c).card ≤ u.types.shapes.size :=
    (Finset.card_le_card fun d hd => (mem_above_iff.mp hd).1).trans u.types.card_classSet
  have hfuel := (hu.climbs_le hacyclic h).trans hcard
  unfold tableFuel at hfuel
  omega

/-! ## Requests -/

/-- A universe that came of another one while tables were made. -/
structure Ready (u₀ u : Universe) : Prop where
  /-- It is well formed. -/
  wellFormed : u.WellFormed
  /-- What classes list is in order. -/
  tidy : u.Tidy
  /-- Its tables are whole. -/
  whole : u.Whole
  /-- Its types were extended. -/
  types : u₀.types.Extends u.types

/-- No table above a class is half made, nor its own. Then a request for its table is
answered: the only way to be passed over is a mark, and there is none. -/
def Free (u₀ u : Universe) (cls : TypeId) : Prop :=
  ∀ p, Relation.ReflTransGen u₀.TableParent cls p → (u.outline p).2 ≠ .building

/-- What a request for the tables of some classes leads to: what is half made stays so, and no
method is declared. -/
structure Fetches (u₀ u u' : Universe) : Prop where
  /-- What happened. -/
  leads : gathering.Leads u u'
  /-- What came of it. -/
  ready : Ready u₀ u'
  /-- What is half made. -/
  marks : ∀ c, (u'.outline c).2 = .building ↔ (u.outline c).2 = .building
  /-- What is declared. -/
  methods : ∀ c, (u'.outline c).1 = (u.outline c).1

variable {u₀ u₁ u₂ : Universe} {cls : TypeId} {t : MemberTable}

theorem Fetches.refl (h : Ready u₀ u) : Fetches u₀ u u :=
  ⟨gathering.refl u, h, fun _ => .rfl, fun _ => rfl⟩

theorem Fetches.trans (h : Fetches u₀ u u₁) (h' : Fetches u₀ u₁ u₂) : Fetches u₀ u u₂ where
  leads := gathering.trans h.leads h'.leads
  ready := h'.ready
  marks c := (h'.marks c).trans (h.marks c)
  methods c := (h'.methods c).trans (h.methods c)

theorem Free.fetches (h : Free u₀ u cls) (hf : Fetches u₀ u u') : Free u₀ u' cls :=
  fun p hp hmark => h p hp ((hf.marks p).mp hmark)

/-- A class with a table is known. -/
theorem WellFormed.knows_of_built (hu : u.WellFormed) (h : (u.outline cls).2 = .built t) : u.types.Knows cls := by
  unfold outline at h
  cases hlookup : u.members.lookup cls with
  | none => simp [hlookup] at h
  | some c => exact hu.keys _ (TypeStore.mem_of_lookup hlookup)

/-- Tables stay whole when they are left alone. -/
theorem Whole.keeps (h : u.Whole) (hu : u.WellFormed) (ht : u.Tidy) (hk : u.Keeps u') (outlines : ∀ c, u'.outline c = u.outline c) :
    u'.Whole := by
  intro cls t hcls hbuilt
  rw [outlines] at hbuilt
  rw [hk.types.shape (hu.knows_of_built hbuilt)] at hcls
  exact (h cls t hcls hbuilt).later hk hu ht hcls (by rw [outlines])

/-- What happens beside the making of tables. -/
theorem Ready.aside (h : Ready u₀ u) (hl : gathering.Leads u u') (outlines : ∀ c, u'.outline c = u.outline c) : Fetches u₀ u u' where
  leads := hl
  ready := ⟨hl.1 h.wellFormed, hl.2.tidy h.tidy, h.whole.keeps h.wellFormed h.tidy hl.2.toKeeps outlines, h.types.trans hl.2.types⟩
  marks c := by rw [outlines]
  methods c := by rw [outlines]

/-- The outlines of classes after a table was marked or recorded. -/
theorem outline_withTable (hcls : (u.types.shape cls).isDeclared) (st : TableState) (c : TypeId) :
    (u.withTable cls st).outline c = if c = cls then ((u.outline cls).1, st) else u.outline c := by
  refine (outline_put rfl c).trans ?_
  rw [classOf_of_isDeclared hcls, outline_of_isDeclared hcls]

/-- A table is what it is, whichever table is marked or recorded that it does not take part
in. -/
theorem Gathered.withTable {c : TypeId} (hg : u.Gathered c t) (hcls : (u.types.shape cls).isDeclared) (st : TableState)
    (hparents : ∀ p ∈ u.tableParents c, p ≠ cls) : (u.withTable cls st).Gathered c t := by
  have houtline (p : TypeId) (hp : p ∈ u.tableParents c) : (u.withTable cls st).outline p = u.outline p := by
    rw [outline_withTable hcls, if_neg (hparents p hp)]
  have hmethods : ((u.withTable cls st).outline c).1 = (u.outline c).1 := by
    rw [outline_withTable hcls]
    split
    · rename_i heq
      rw [heq]
    · rfl
  have htable (p : TypeId) (hp : p ∈ u.tableParents c) : (u.withTable cls st).tableAt p = u.tableAt p := by
    unfold tableAt
    rw [houtline p hp]
  have hdeclared : (u.declaredTable c).Alike ((u.withTable cls st).declaredTable c) := by
    refine declaredTable_alike ?_ fun _ _ => rfl
    by_cases hclass : u.types.classOf c = u.types.classOf cls
    · unfold Universe.withTable
      rw [membersOf_put_self hclass, membersOf_congr hclass]
    · exact (congrArg ClassMembers.methods (membersOf_put_of_ne hclass)).symm
  refine ⟨hmethods ▸ hg.processed, fun p hp => ?_, ?_⟩
  · rw [houtline p hp, htable p hp]
    exact hg.parents p hp
  · have hagrees : u.Agrees (u.withTable cls st) c fun _ => True :=
      ⟨fun _ _ _ _ => rfl, fun _ _ => rfl, fun _ _ => rfl, fun _ _ => rfl⟩
    refine (hagrees.foldl_inherit hdeclared (u.declaredTable_owner c) (fun _ _ _ _ => trivial) fun p hp => ?_).symm.trans hg.merged
    exact ⟨by rw [htable p hp], fun _ _ _ _ => trivial⟩

/-- Marking or recording a table that is not there yet leaves the others whole. -/
theorem Whole.withTable (h : u.Whole) (hcls : (u.types.shape cls).isDeclared) {st : TableState}
    (hunmade : ∀ t, (u.outline cls).2 ≠ .built t) (hmade : ∀ t, st = .built t → u.Gathered cls t) : (u.withTable cls st).Whole := by
  intro c t hc hbuilt
  have hself {p : TypeId} (hp : p ∈ u.tableParents cls) : p ≠ cls := by simpa using (List.mem_filter.mp hp).2
  rw [outline_withTable hcls] at hbuilt
  split at hbuilt
  · rename_i heq
    subst heq
    exact (hmade t hbuilt).withTable hcls st fun p hp => hself hp
  · have hg := h c t hc hbuilt
    refine hg.withTable hcls st fun p hp heq => ?_
    exact hunmade _ (heq ▸ hg.parents p hp)

section Fetching

variable {tableOf : TypeId → UniverseM (Except TableFault MemberTable)} {can : TypeId → Prop}

/-- Tables are merged on demand, given that requests for them are answered. -/
theorem mergeTables_fetches
    (htable : ∀ {u : Universe} {p : TypeId}, Ready u₀ u → can p → Free u₀ u p →
      ∃ up u', tableOf p u = (.ok up, u') ∧ Fetches u₀ u u' ∧ (u'.outline p).2 = .built up)
    {ps : List TypeId} (hps : ∀ p ∈ ps, can p ∧ (u.types.shape p).isDeclared ∧ Free u₀ u p) (hu : Ready u₀ u)
    (ht : t.All fun s => u.Processed s.method) (howner : u.types.Knows t.owner) :
    ∃ t' u', mergeTables tableOf t ps u = (t', u') ∧ Fetches u₀ u u' ∧ (∀ p ∈ ps, (u'.outline p).2 = .built (u'.tableAt p)) ∧
      (ps.foldl (fun t p => u'.inherit t (u'.tableAt p)) t).Alike t' := by
  induction ps generalizing u t with
  | nil => exact ⟨t, u, rfl, .refl hu, by simp, .refl t⟩
  | cons p ps ih =>
    obtain ⟨hcan, hdeclared, hfree⟩ := hps p (by simp)
    obtain ⟨up, u₁, hrun₁, hf₁, hup⟩ := htable hu hcan hfree
    have hu₁ := hf₁.ready
    have hl₁ := hf₁.leads.2
    have hdeclared₁ := hl₁.types.isDeclared hdeclared
    have hupProcessed := hu₁.tidy.processed hup
    have ht₁ : t.All fun s => u₁.Processed s.method := fun q hq s hs => hl₁.processed (ht q hq s hs)
    have hmerged : (u₁.inherit t up).All fun s => u₁.Processed s.method := inherit_all (u₁.merges_of_method _) ht₁ hupProcessed
    obtain ⟨t', u', hrun, hf, hbuilt, halike⟩ := ih
      (fun q hq => ⟨(hps q (by simp [hq])).1, hl₁.types.isDeclared (hps q (by simp [hq])).2.1, (hps q (by simp [hq])).2.2.fetches hf₁⟩)
      hu₁ hmerged (inherit_owner u₁ t up ▸ hl₁.types.knows howner)
    have hup' : (u'.outline p).2 = .built up := hf.leads.2.built hdeclared₁ hup
    have hupAt := tableAt_of_built hup'
    refine ⟨t', u', ?_, hf₁.trans hf, fun q hq => ?_, ?_⟩
    · unfold mergeTables
      rw [bind_of_eq hrun₁]
      exact hrun
    · rcases List.mem_cons.mp hq with rfl | hq
      · rw [hupAt, hup']
      · exact hbuilt q hq
    · -- what was merged in first would be merged to the same later on
      have hfirst : (u₁.inherit t up).Alike (u'.inherit t up) :=
        (hf.leads.2.agrees hu₁.wellFormed hu₁.tidy (hl₁.types.knows howner)).inherit (.refl t) rfl ht₁ rfl hupProcessed
      rw [List.foldl_cons, hupAt]
      refine (Agrees.foldl_inherit (.refl u' t.owner fun _ => True) hfirst (inherit_owner u₁ t up) (fun _ _ _ _ => trivial)
        fun _ _ => ⟨rfl, fun _ _ _ _ => trivial⟩).symm.trans halike

end Fetching

/-- Looking at what a class declares leaves its supertypes, its methods and all tables alone.
-/
theorem withSignature_fetches (hu : Ready u₀ u) (hcls : (u.types.shape cls).isDeclared) :
    ∃ u', (withSignature (u.membersOf cls).methods u).2 = u' ∧ Fetches u₀ u u' ∧ (∀ c, u'.outline c = u.outline c) ∧
      (∀ id ∈ (u.outline cls).1, u'.Processed id) ∧ u'.tableParents cls = u.tableParents cls := by
  have hknown := TypeStore.knows_of_isDeclared hcls
  obtain ⟨hl, hprocessed, -, hparents⟩ := works_gathering (withSignature_declared hknown) hu.wellFormed
  have houtlines (c : TypeId) : (withSignature (u.membersOf cls).methods u).2.outline c = u.outline c := by
    have hleaves : Leaves (fun v : Universe => v.outline c) (withSignature (u.membersOf cls).methods) :=
      withSignature_leaves (signature_leaves (fun _ _ _ => rfl) fun _ _ _ _ _ => rfl) _
    exact hleaves u
  refine ⟨_, rfl, hu.aside hl houtlines, houtlines, ?_, hparents⟩
  rw [outline_of_isDeclared hcls]
  exact hprocessed

/-- The table of a class that has none is made while it is marked. -/
theorem classTable_of_unbuilt (fuel : Nat) (hnone : (u.membersOf cls).table = .unbuilt)
    (h : gatherTable (classTable fuel) cls (u.withTable cls .building) = (t, u')) :
    classTable (fuel + 1) cls u = (.ok t, u'.withTable cls (.built t)) := by
  have hmade : classTable (fuel + 1) cls u =
      (.ok (gatherTable (classTable fuel) cls (u.withTable cls .building)).1,
        (gatherTable (classTable fuel) cls (u.withTable cls .building)).2.withTable cls
          (.built (gatherTable (classTable fuel) cls (u.withTable cls .building)).1)) := by
    unfold classTable
    rw [get_bind_apply, hnone]
    rfl
  rw [hmade, h]

/-- What a class inherits is gathered, given that requests for the tables of its supertypes
are answered. -/
theorem gatherTable_fetches {tableOf : TypeId → UniverseM (Except TableFault MemberTable)} {can : TypeId → Prop}
    (htable : ∀ {u : Universe} {p : TypeId}, Ready u₀ u → can p → Free u₀ u p →
      ∃ up u', tableOf p u = (.ok up, u') ∧ Fetches u₀ u u' ∧ (u'.outline p).2 = .built up)
    (hps : ∀ p ∈ u.tableParents cls, can p ∧ Free u₀ u p) (hu : Ready u₀ u) (hcls : (u.types.shape cls).isDeclared) :
    ∃ t u', gatherTable tableOf cls u = (t, u') ∧ Fetches u₀ u u' ∧ u'.Gathered cls t := by
  obtain ⟨u₁, hrun₁, hf₁, houtlines₁, hprocessed₁, hparents₁⟩ := withSignature_fetches hu hcls
  have hu₁ := hf₁.ready
  have hcls₁ := hf₁.leads.2.types.isDeclared hcls
  have hknown₁ := TypeStore.knows_of_isDeclared hcls₁
  have hmethods₁ : ∀ id ∈ (u₁.membersOf cls).methods, u₁.Processed id := by
    have hmethods := hprocessed₁
    rw [← houtlines₁, outline_of_isDeclared hcls₁] at hmethods
    exact hmethods
  have hall : (u₁.declaredTable cls).All fun s => u₁.Processed s.method := declaredTable_all fun id hid => hmethods₁ id hid
  have hready : ∀ p ∈ u₁.tableParents cls, can p ∧ (u₁.types.shape p).isDeclared ∧ Free u₀ u₁ p := fun p hp =>
    ⟨(hps p (hparents₁ ▸ hp)).1, hu₁.wellFormed.isDeclared_tableParent hp, (hps p (hparents₁ ▸ hp)).2.fetches hf₁⟩
  obtain ⟨t, u', hrun, hf, hbuilt, halike⟩ :=
    mergeTables_fetches htable hready hu₁ hall ((u₁.declaredTable_owner cls).symm ▸ hknown₁)
  have hparents := tableParents_extends hf.leads.2.types hu₁.wellFormed.types hknown₁
  have hcls' := hf.leads.2.types.isDeclared hcls₁
  refine ⟨t, u', ?_, hf₁.trans hf, fun id hid => ?_, hparents ▸ hbuilt, ?_⟩
  · show mergeTables tableOf ((withSignature (u.membersOf cls).methods u).2.declaredTable cls)
      ((withSignature (u.membersOf cls).methods u).2.tableParents cls) (withSignature (u.membersOf cls).methods u).2 = _
    rw [hrun₁]
    exact hrun
  · rw [hf.methods, houtlines₁] at hid
    exact hf.leads.2.processed (hprocessed₁ id hid)
  · have hdeclared : (u₁.declaredTable cls).Alike (u'.declaredTable cls) := by
      refine declaredTable_alike (methods_of_outline hcls₁ hcls' (hf.methods cls)).symm fun id hid => ?_
      obtain ⟨m, hm, -⟩ := hmethods₁ id hid
      obtain ⟨m', hm', hlater⟩ := hf.leads.2.method? hm
      rw [method_eq hm, method_eq hm', hlater.name]
    rw [hparents]
    refine (Agrees.foldl_inherit (.refl u' cls fun _ => True) hdeclared (u₁.declaredTable_owner cls) (fun _ _ _ _ => trivial)
      fun _ _ => ⟨rfl, fun _ _ _ _ => trivial⟩).symm.trans halike

/-- In a hierarchy without cycles a request for the table of a class is answered, and all
tables that are made are whole, unless a table above the class is half made. By induction on
the number of times that supertypes can be followed; while the table is marked, those above it
are asked for, and the mark is none above them. -/
theorem classTable_fetches (acyclic : ∀ c, ¬ Relation.TransGen u₀.TableParent c c) (h₀ : u₀.WellFormed) (fuel : Nat) (hu : Ready u₀ u)
    (hcls : (u₀.types.shape cls).isDeclared) (hfuel : ¬ u₀.Climbs fuel cls) (hfree : Free u₀ u cls) :
    ∃ t u', classTable fuel cls u = (.ok t, u') ∧ Fetches u₀ u u' ∧ (u'.outline cls).2 = .built t := by
  induction fuel generalizing u cls with
  | zero => exact absurd trivial hfuel
  | succ fuel ih =>
    have hknown₀ := TypeStore.knows_of_isDeclared hcls
    have hcls₁ := hu.types.isDeclared hcls
    have hknown := TypeStore.knows_of_isDeclared hcls₁
    have hstate : (u.outline cls).2 = (u.membersOf cls).table := by rw [outline_of_isDeclared hcls₁]
    cases htable : (u.membersOf cls).table with
    | built t =>
      refine ⟨t, u, ?_, .refl hu, hstate.trans htable⟩
      unfold classTable
      rw [get_bind_apply, htable]
      rfl
    | building => exact absurd (hstate.trans htable) (hfree cls .refl)
    | unbuilt =>
      have hunmade (t : MemberTable) : (u.outline cls).2 ≠ .built t := by
        rw [hstate, htable]
        simp
      -- the class is marked while the tables of its supertypes are asked for
      have hmarked : Ready u₀ (u.withTable cls .building) := by
        have hc := hu.tidy.membersOf cls
        exact ⟨hu.wellFormed.withTable hknown (by simp), hu.tidy.put ⟨hc.nodup, hc.own, fun t hbuilt => by cases hbuilt⟩,
          hu.whole.withTable hcls₁ hunmade (by simp), hu.types⟩
      have hparents : (u.withTable cls .building).tableParents cls = u₀.tableParents cls :=
        tableParents_extends hu.types h₀.types hknown₀
      have habove : ∀ p ∈ (u.withTable cls .building).tableParents cls,
          ((u₀.types.shape p).isDeclared ∧ ¬ u₀.Climbs fuel p) ∧ Free u₀ (u.withTable cls .building) p := by
        intro p hp
        rw [hparents] at hp
        refine ⟨⟨h₀.isDeclared_tableParent hp, fun hclimbs => hfuel ⟨p, hp, hclimbs⟩⟩, fun q hq => ?_⟩
        have hne : q ≠ cls := by
          rintro rfl
          exact acyclic q (.head' hp hq)
        rw [outline_withTable hcls₁, if_neg hne]
        exact hfree q (.head hp hq)
      obtain ⟨t, u', hrun, hf, hgathered⟩ := gatherTable_fetches (fun hu hp hfree => ih hu hp.1 hp.2 hfree) habove hmarked hcls₁
      have hl := (classTable_works (fuel + 1) hcls₁ hu.wellFormed).1
      have hmade := classTable_of_unbuilt fuel htable hrun
      rw [hmade] at hl
      have hcls' := hf.leads.2.types.isDeclared hcls₁
      have hmarks := hf.marks
      have hmethods := hf.methods
      simp only [outline_withTable hcls₁] at hmarks hmethods
      refine ⟨t, u'.withTable cls (.built t), hmade, ⟨hl, ⟨hl.1 hu.wellFormed, hl.2.tidy hu.tidy, ?_, hu.types.trans hl.2.types⟩,
        fun c => ?_, fun c => ?_⟩, ?_⟩
      · refine hf.ready.whole.withTable hcls' (fun t' ht' => ?_) fun t' ht' => ?_
        · have hmark : (u'.outline cls).2 = .building := (hmarks cls).mpr (by simp)
          rw [hmark] at ht'
          cases ht'
        · cases ht'
          exact hgathered
      · rw [outline_withTable hcls']
        split
        · rename_i heq
          rw [heq, hstate, htable]
          simp
        · rename_i hne
          rw [hmarks, if_neg hne]
      · rw [outline_withTable hcls']
        split
        · rename_i heq
          rw [heq, hmethods, if_pos rfl]
        · rename_i hne
          rw [hmethods, if_neg hne]
      · rw [outline_withTable hcls', if_pos rfl]

/-! ## Runs

Between two requests a universe changes without making tables (`Aside`), and in a request only
tables and signatures change. Both keep all tables whole, and so does a run of them.
-/

/-- Tables are as they should be: the hierarchy has no cycle, no table is half made, and every
table holds all that it should. -/
structure Complete (u : Universe) : Prop where
  /-- The hierarchy. -/
  acyclic : u.types.Acyclic
  /-- No table is half made. -/
  unmarked : ∀ cls, (u.outline cls).2 ≠ .building
  /-- What classes list is in order. -/
  tidy : u.Tidy
  /-- The tables. -/
  whole : u.Whole

/-- A request is answered when no table is half made. -/
theorem Complete.classTable (h : u.Complete) (hu : u.WellFormed) (hcls : (u.types.shape cls).isDeclared) :
    ∃ t u', classTable u.tableFuel cls u = (.ok t, u') ∧ u'.Complete ∧ (u'.outline cls).2 = .built t ∧
      ∀ c, (u'.outline c).1 = (u.outline c).1 := by
  obtain ⟨t, u', hrun, hf, hbuilt⟩ := classTable_fetches (hu.not_above h.acyclic) hu u.tableFuel ⟨hu, h.tidy, h.whole, .refl _⟩ hcls
    (hu.not_climbs h.acyclic cls) fun p _ => h.unmarked p
  exact ⟨t, u', hrun, ⟨hf.leads.2.types.acyclic hu.types h.acyclic, fun c hmark => h.unmarked c ((hf.marks c).mp hmark), hf.ready.tidy,
    hf.ready.whole⟩, hbuilt, hf.methods⟩

/-- Whatever happens, tables go on to be as they should be, and no class declares a further
method. -/
theorem TableStep.complete (hs : u.TableStep u') (hu : u.WellFormed) (h : u.Complete) :
    u'.Complete ∧ ∀ c, (u'.outline c).1 = (u.outline c).1 := by
  cases hs with
  | aside ha =>
    refine ⟨⟨ha.types.acyclic hu.types h.acyclic, fun c => ?_, ha.tidy h.tidy, h.whole.keeps hu h.tidy ha.toKeeps ha.outlines⟩, fun c => ?_⟩
    · rw [ha.outlines]
      exact h.unmarked c
    · rw [ha.outlines]
  | @request cls hcls =>
    obtain ⟨t, u', hrun, hcomplete, -, hmethods⟩ := h.classTable hu hcls
    rw [hrun]
    exact ⟨hcomplete, hmethods⟩

/-- So they do along a run. -/
theorem TableSteps.complete (hs : TableSteps u u') (h : u.Complete) : u'.Complete ∧ ∀ c, (u'.outline c).1 = (u.outline c).1 := by
  induction hs with
  | refl => exact ⟨h, fun _ => rfl⟩
  | tail _ hstep ih =>
    obtain ⟨hcomplete, hmethods⟩ := hstep.2.complete hstep.1 ih.1
    exact ⟨hcomplete, fun c => (hmethods c).trans (ih.2 c)⟩

/-! ## What tables list

Induction over hierarchies: what follows for a class from its supertypes holds for all
classes.
-/

/-- What the tables of supertypes hand on and a class declares, the table of the class has. -/
theorem Gathered.all {K : Shadow → Prop} (hg : u.Gathered cls t) (hcls : (u.types.shape cls).isDeclared) (hK : u.Merges K)
    (declared : ∀ id ∈ (u.outline cls).1, K ⟨id, []⟩) (parents : ∀ p ∈ u.tableParents cls, (u.tableAt p).All K) : t.All K := by
  refine hg.merged.all ?_
  refine foldl_keeps (P := MemberTable.All K) (declaredTable_all fun id hid => declared id ?_) fun p hp t ht => inherit_all hK ht (parents p hp)
  rwa [outline_of_isDeclared hcls]

/-- What follows for the table of a class from what holds for those of its supertypes holds
for all tables. -/
theorem Complete.induction {P : TypeId → MemberTable → Prop} (h : u.Complete) (hu : u.WellFormed)
    (step : ∀ {cls t}, (u.types.shape cls).isDeclared → u.Gathered cls t → (∀ p ∈ u.tableParents cls, P p (u.tableAt p)) → P cls t)
    (hcls : (u.types.shape cls).isDeclared) (hbuilt : (u.outline cls).2 = .built t) : P cls t := by
  induction hn : (u.above cls).card using Nat.strong_induction_on generalizing cls t with
  | _ n ih =>
    have hg := h.whole cls t hcls hbuilt
    refine step hcls hg fun p hp => ?_
    exact ih _ (hn ▸ hu.card_above_lt h.acyclic hp) (hu.isDeclared_tableParent hp) (hg.parents p hp) rfl

/-- What a class declares is its own. -/
theorem Tidy.owner_of_declared (ht : u.Tidy) (hcls : (u.types.shape cls).isDeclared) {id : MethodId} (hid : id ∈ (u.outline cls).1) :
    (u.method id).owner = cls := by
  have hown := (ht.membersOf cls).own
  rw [outline_of_isDeclared hcls] at hid
  obtain ⟨m, hm, howner⟩ := hown id hid
  rw [method_eq hm, howner, classOf_of_isDeclared hcls]

/-- A table lists methods of its class and of the classes above. -/
theorem Complete.owners (h : u.Complete) (hu : u.WellFormed) (hcls : (u.types.shape cls).isDeclared)
    (hbuilt : (u.outline cls).2 = .built t) :
    t.All fun s => Relation.ReflTransGen u.TableParent cls (u.method s.method).owner := by
  refine h.induction (P := fun cls t => t.All fun s => Relation.ReflTransGen u.TableParent cls (u.method s.method).owner) hu
    (fun {cls t} hcls hg ih => ?_) hcls hbuilt
  refine hg.all hcls (u.merges_of_method fun id => Relation.ReflTransGen u.TableParent cls (u.method id).owner) (fun id hid => ?_)
    fun p hp q hq s hs => .head hp (ih p hp q hq s hs)
  rw [show (u.method id).owner = cls from h.tidy.owner_of_declared hcls hid]

/-! ## Tables made at different times

The same class may get its table early in one run and late in another one. The two tables list
the same as long as names denote the same.
-/

/-- The table of a class as a recursion over the classes whose tables are merged into it, so
many levels up. It asks for no table and changes nothing, so it is what tables are compared
with that were made on request. -/
def inherited (u : Universe) : Nat → TypeId → MemberTable
  | 0, cls => { owner := cls }
  | n + 1, cls => (u.tableParents cls).foldl (fun t p => u.inherit t (u.inherited n p)) (u.declaredTable cls)

/-- A table that was made on request lists what the recursion over its supertypes gives. -/
theorem Complete.inherited_alike (h : u.Complete) (hu : u.WellFormed) (hcls : (u.types.shape cls).isDeclared)
    (hbuilt : (u.outline cls).2 = .built t) {n : Nat} (hn : ¬ u.Climbs n cls) : (u.inherited n cls).Alike t := by
  induction n generalizing cls t with
  | zero => exact absurd trivial hn
  | succ n ih =>
    have hg := h.whole cls t hcls hbuilt
    have hparent (p : TypeId) (hp : p ∈ u.tableParents cls) : (u.inherited n p).Alike (u.tableAt p) :=
      ih (hu.isDeclared_tableParent hp) (hg.parents p hp) fun hclimbs => hn ⟨p, hp, hclimbs⟩
    refine ((Agrees.refl u cls fun _ => True).foldl_inherit (.refl _) (u.declaredTable_owner cls) (fun _ _ _ _ => trivial)
      fun p hp => ?_).trans hg.merged
    exact ⟨(hparent p hp).methods, fun _ _ _ _ => trivial⟩

/-- Two universes that came from one judge the callables of that one alike, when both have
looked at them and neither has registered a class under a name that is tried for them. -/
theorem Keeps.agrees_apart (h₁ : u₀.Keeps u₁) (h₂ : u₀.Keeps u₂) (h₀ : u₀.WellFormed) (hn : u₀.types.Nested) (hu₁ : u₁.WellFormed)
    (hu₂ : u₂.WellFormed) (hfree : ∀ id, u₀.Has id → u₀.Undisturbed u₁ id ∧ u₀.Undisturbed u₂ id) (howner : u₀.types.Knows owner) :
    u₁.Agrees u₂ owner fun id => u₀.Has id ∧ u₁.Processed id ∧ u₂.Processed id := by
  have later {v : Universe} (h : u₀.Keeps v) {id : MethodId} (hid : u₀.Has id) : (u₀.method id).Later (v.method id) := by
    obtain ⟨m, hm⟩ := Option.isSome_iff_exists.mp hid
    obtain ⟨m', hm', hlater⟩ := h.method? hm
    rwa [method_eq hm, method_eq hm']
  exact {
    same := fun a b ha hb => h₁.sameSignature_apart h₂ h₀ hn hu₁ hu₂ ha hb hfree
    inheritable := fun a ha => (h₂.inheritable h₀ ha.1 howner).trans (h₁.inheritable h₀ ha.1 howner).symm
    owners := fun a ha => (later h₂ ha.1).owner.trans (later h₁ ha.1).owner.symm
    abstract := fun a ha => congrArg _ ((later h₂ ha.1).flags.trans (later h₁ ha.1).flags.symm) }

/-- What a class declares has the same names in two universes that came from one. -/
theorem Keeps.declaredTable_apart (h₁ : u₀.Keeps u₁) (h₂ : u₀.Keeps u₂) (ht : u₀.Tidy)
    (hlists₁ : (u₁.membersOf cls).methods = (u₀.membersOf cls).methods)
    (hlists₂ : (u₂.membersOf cls).methods = (u₀.membersOf cls).methods) : (u₁.declaredTable cls).Alike (u₂.declaredTable cls) := by
  refine declaredTable_alike (hlists₁.trans hlists₂.symm) fun id hid => ?_
  obtain ⟨m, hm⟩ := Option.isSome_iff_exists.mp (ht.has_declared (hlists₁ ▸ hid))
  obtain ⟨m₁, hm₁, hlater₁⟩ := h₁.method? hm
  obtain ⟨m₂, hm₂, hlater₂⟩ := h₂.method? hm
  rw [method_eq hm₁, method_eq hm₂, hlater₁.name, hlater₂.name]

/-- The tables of a class in two universes that came from one list the same, although they
were made at different times: neither has registered a class under a name that is tried for a
signature. What they list was there before. By induction over the supertypes, whose tables are
alike already. -/
theorem Complete.alike_apart (hc₁ : u₁.Complete) (hc₂ : u₂.Complete) (h₁ : u₀.Keeps u₁) (h₂ : u₀.Keeps u₂) (h₀ : u₀.WellFormed)
    (hn : u₀.types.Nested) (ht : u₀.Tidy) (hu₁ : u₁.WellFormed) (hu₂ : u₂.WellFormed)
    (methods₁ : ∀ c, (u₁.outline c).1 = (u₀.outline c).1) (methods₂ : ∀ c, (u₂.outline c).1 = (u₀.outline c).1)
    (hfree : ∀ id, u₀.Has id → u₀.Undisturbed u₁ id ∧ u₀.Undisturbed u₂ id) (hcls : (u₀.types.shape cls).isDeclared)
    {t₁ t₂ : MemberTable} (hbuilt₁ : (u₁.outline cls).2 = .built t₁) (hbuilt₂ : (u₂.outline cls).2 = .built t₂) :
    t₁.Alike t₂ ∧ t₁.All fun s => u₀.Has s.method := by
  -- the tables agree, and list callables of the first universe
  let Same (cls : TypeId) (t₁ : MemberTable) : Prop := (u₀.types.shape cls).isDeclared →
    (t₁.All fun s => u₀.Has s.method) ∧ ∀ t₂, (u₂.outline cls).2 = .built t₂ → t₁.Alike t₂
  have hsame : Same cls t₁ := by
    refine hc₁.induction (P := Same) hu₁ (fun {cls t₁} hcls₁ hg₁ ih hcls => ?_) (h₁.types.isDeclared hcls) hbuilt₁
    have hknown := TypeStore.knows_of_isDeclared hcls
    have hcls₂ := h₂.types.isDeclared hcls
    have hparents₁ := tableParents_extends h₁.types h₀.types hknown
    have hparents₂ := tableParents_extends h₂.types h₀.types hknown
    have hdeclared (p : TypeId) (hp : p ∈ u₁.tableParents cls) : (u₀.types.shape p).isDeclared :=
      h₀.isDeclared_tableParent (hparents₁ ▸ hp)
    have hlists₁ := methods_of_outline hcls hcls₁ (methods₁ cls)
    have hlists₂ := methods_of_outline hcls hcls₂ (methods₂ cls)
    have hhas : t₁.All fun s => u₀.Has s.method := by
      refine hg₁.all hcls₁ (u₁.merges_of_method u₀.Has) (fun id hid => ?_) fun p hp => (ih p hp (hdeclared p hp)).1
      rw [outline_of_isDeclared hcls₁, hlists₁] at hid
      exact ht.has_declared hid
    refine ⟨hhas, fun t₂ hbuilt₂ => ?_⟩
    have hg₂ := hc₂.whole cls t₂ hcls₂ hbuilt₂
    have hprocessed (id : MethodId) (hid : id ∈ (u₀.membersOf cls).methods) :
        u₀.Has id ∧ u₁.Processed id ∧ u₂.Processed id := by
      refine ⟨ht.has_declared hid, hg₁.processed id ?_, hg₂.processed id ?_⟩
      · rwa [outline_of_isDeclared hcls₁, hlists₁]
      · rwa [outline_of_isDeclared hcls₂, hlists₂]
    refine hg₁.merged.symm.trans (.trans ?_ hg₂.merged)
    rw [hparents₂, ← hparents₁]
    refine (h₁.agrees_apart h₂ h₀ hn hu₁ hu₂ hfree hknown).foldl_inherit (h₁.declaredTable_apart h₂ ht hlists₁ hlists₂) (u₁.declaredTable_owner cls)
      (declaredTable_all fun id hid => hprocessed id (hlists₁ ▸ hid)) fun p hp => ?_
    have hp₂ : (u₂.outline p).2 = .built (u₂.tableAt p) := hg₂.parents p (by rwa [hparents₂, ← hparents₁])
    obtain ⟨hhas, halike⟩ := ih p hp (hdeclared p hp)
    have hmethods := (halike _ hp₂).methods
    refine ⟨hmethods, fun q hq s hs => ⟨hhas q hq s hs, ?_, ?_⟩⟩
    · exact hc₁.tidy.processed (hg₁.parents p hp) q hq s hs
    · exact hc₂.tidy.processed hp₂ q (hmethods ▸ hq) s hs
  exact ⟨(hsame hcls).2 t₂ hbuilt₂, (hsame hcls).1⟩

/-! ## Requests -/

/-- A request for the member table of a declared class is one for the table of the class. -/
theorem memberTable_of_isDeclared (hcls : (u.types.shape cls).isDeclared) :
    memberTable cls u = Universe.classTable u.tableFuel cls u := by
  have hsome : (u.types.classOf cls).isSome := by
    simpa [hasMembers, not_isArray_of_isDeclared hcls] using hasMembers_of_isDeclared hcls
  unfold memberTable
  rw [get_bind_apply, not_isArray_of_isDeclared hcls]
  simp only [Bool.false_eq_true, if_false]
  rw [classOf_of_isDeclared hcls] at hsome ⊢
  rw [if_pos hsome]

/-- A table that is there is given out. -/
theorem memberTable_of_built (hcls : (u.types.shape cls).isDeclared) (h : (u.outline cls).2 = .built t) :
    memberTable cls u = (.ok t, u) := by
  rw [outline_of_isDeclared hcls] at h
  rw [memberTable_of_isDeclared hcls]
  unfold tableFuel Universe.classTable
  rw [get_bind_apply, show (u.membersOf cls).table = .built t from h]
  rfl

/-- A request for the member table of a declared class is answered with a table that is whole.
-/
theorem Complete.memberTable (h : u.Complete) (hu : u.WellFormed) (hcls : (u.types.shape cls).isDeclared) :
    ∃ t u', memberTable cls u = (.ok t, u') ∧ binding.Leads u u' ∧ u'.Complete ∧ (u'.outline cls).2 = .built t := by
  obtain ⟨t, u', hrun, hcomplete, hbuilt, -⟩ := h.classTable hu hcls
  rw [← memberTable_of_isDeclared hcls] at hrun
  have hl := (memberTable_works (TypeStore.knows_of_isDeclared hcls) hu).1
  rw [hrun] at hl
  exact ⟨t, u', hrun, hl, hcomplete, hbuilt⟩

/-- No request finds a table that is being made. -/
theorem Complete.memberTable_ne_building (h : u.Complete) (hu : u.WellFormed) (t : TypeId) :
    (Universe.memberTable t u).1 ≠ .error .building := by
  have classes (cls : TypeId) (hcls : (u.types.shape cls).isDeclared) : ∃ t u', Universe.classTable u.tableFuel cls u = (.ok t, u') := by
    obtain ⟨t, u', hrun, -⟩ := h.classTable hu hcls
    exact ⟨t, u', hrun⟩
  unfold Universe.memberTable
  rw [get_bind_apply]
  split
  · cases u.arrayTables.lookup t with
    | some table => exact nofun
    | none =>
      obtain ⟨root, u', hrun⟩ := classes .object (by rw [hu.types.shape_object]; rfl)
      dsimp only
      rw [bind_of_eq hrun]
      exact nofun
  · dsimp only
    split
    · rename_i hsome
      rcases hu.types.classOf_cases t with hnone | ⟨slot, hshape⟩
      · rw [hnone] at hsome
        cases hsome
      · obtain ⟨table, u', hrun⟩ := classes (u.types.classOf t) (by rw [hshape]; rfl)
        rw [hrun]
        exact nofun
    · exact nofun

end Universe

end CallResolution
