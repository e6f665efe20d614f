import CallResolution.Proofs.Document.Hierarchies
import CallResolution.Proofs.Members.Broken
import CallResolution.Proofs.Members.Overriding
import CallResolution.Proofs.Resolve.Lasting
import CallResolution.Proofs.Resolve.Stages

/-!
# Member tables of documents

The member table of a class lists every method with a processed signature once, along however
many paths the class inherits it, and of the methods with one name and the same erased
parameter types it lists two only when the class declares both. A method with a broken
signature is compared with nothing, and is listed once for each path.

What a supertype lists is accounted for in the table of the class, but not always by the
method that overrides the others: an abstract method gives way to any other one, also to one
that it overrides and that comes to the class along another path.

Tables may be asked for at any time between the steps of a run, and in any order. No request
finds a table that is being made, and what a table lists does not depend on the other
requests, as long as nothing is registered under a name that is tried for a name in the text
of a signature. The creation of an anonymous class registers one: when a class that was loaded
has that name, texts that were not read before it are read in another way.

Main statements: `overloads_listed_once` and `broken_overload_repeated`; `inherited_accounted`
and `overrider_displaced`; `tables_order_independent` and `table_depends_on_order`.
-/

namespace CallResolution

open Session Universe

/-- What a member table may list more than once under one name: methods with broken
signatures, and under the same erased parameter types only methods that the class declares.
That a class declares two such methods is a fault of the document, and not one of the table.
-/
structure Universe.ListsOnce (u : Universe) (cls : TypeId) (shadows : List Shadow) : Prop where
  /-- A method that is listed twice has a broken signature. -/
  repeated : shadows.Pairwise fun a b => a.method = b.method → u.IsBroken a.method
  /-- Methods with the same erased parameter types are those of the class. -/
  alike : shadows.Pairwise fun a b => u.sameSignature a.method b.method →
    (u.method a.method).owner = cls ∧ (u.method b.method).owner = cls

/-- A signature that was looked at is resolved or broken, when none is being processed. -/
theorem Universe.Populated.isBroken {u : Universe} (h : u.Populated) {id : MethodId} (hid : u.Processed id)
    (hnot : ¬ (u.method id).isResolved) : u.IsBroken id := by
  obtain ⟨m, hm, hpending⟩ := hid
  refine ⟨m, hm, ?_⟩
  rw [method_eq hm] at hnot
  cases hsignature : m.signature with
  | pending text => exact absurd (by simp [Method.isPending, hsignature]) hpending
  | resolving => exact absurd hsignature (h.not_resolving hm)
  | resolved => exact absurd (decide_eq_true hsignature) hnot
  | broken => rfl

/-- A table that tells its overloads apart lists nothing twice unless it is broken. -/
theorem Universe.Distinct.listsOnce {u : Universe} {cls : TypeId} {t : MemberTable} (h : u.Distinct cls t) (hu : u.Populated)
    (name : String) : u.ListsOnce cls (t.overloads name) where
  repeated := (h.apart name).imp_of_mem fun {a b} ha _ hab heq => by
    refine hu.isBroken (h.processed.overloads ha) fun hresolved => ?_
    have hsame : u.sameSignature a.method b.method := by
      rw [← heq]
      simp [sameSignature, hresolved]
    exact (hab hsame).1 heq
  alike := (h.apart name).imp fun hab hsame => (hab hsame).2

/-- At every stage of the run of a document, the member table of every class is there on
request. A method that it lists twice has a broken signature, and two methods of one name with
processed signatures and the same erased parameter types are declared by the class itself. -/
theorem overloads_listed_once (d : Document) (f : Source.File) (base : Options) (n : Nat) (cls : TypeId)
    (hcls : ((((d.load f).session base).stage n).world.types.shape cls).isDeclared) :
    ∃ table u', memberTable cls (((d.load f).session base).stage n).world = (.ok table, u') ∧
      ∀ name, u'.ListsOnce cls (table.overloads name) := by
  have hfresh : ((d.load f).session base).Fresh := Loaded.fresh d f base
  have hworld := (hfresh.stage_sound n).1.world
  have hpopulated := hfresh.stage_populated (Loaded.populated d f base) n
  have htidy := hfresh.stage_tidy (d.load_tidy f) n
  have hmaking := hfresh.stage_not_isMaking (d.load_not_isMaking f) n cls
  obtain ⟨table, u', hrun, hleads, hdistinct⟩ := memberTable_distinct hworld htidy hcls hmaking
  exact ⟨table, u', hrun, hdistinct.listsOnce (hpopulated.moves hleads.2.moves)⟩

/-! ## A method that is inherited twice

The same method comes to a class along two paths, and is recognized by its erased parameter
types when its signature is sound.
-/

/-- An interface with a method of an unknown parameter type and an overload of it, two
interfaces that extend it, and a class that implements both. -/
def diamondDocument : Document where
  classes := [
    .mk { name := "p.K", kind := "interface", methods := [
      { name := "m", params := ["Missing"], returns := "void" },
      { name := "m", params := ["Object"], returns := "void" }] } [],
    .mk { name := "p.I", kind := "interface", interfaces := ["p.K"] } [],
    .mk { name := "p.J", kind := "interface", interfaces := ["p.K"] } [],
    .mk { name := "p.C", flags := ["abstract"], interfaces := ["p.I", "p.J"] } []]

/-- The first method of the document, which is the one with the unknown type. -/
def diamondMethod : MethodId :=
  ⟨Universe.initial.methods.size + 1⟩

/-- The methods that the member table of a type lists under a name, on request. -/
def Universe.listing (u : Universe) (t : TypeId) (name : String) : List MethodId :=
  (overloadsIn t name u).1.map (·.method)

/-- What a table lists is what is listed on request. -/
theorem Universe.listing_eq {u u' : Universe} {t : TypeId} {table : MemberTable} (h : memberTable t u = (.ok table, u')) (name : String) :
    u.listing t name = (table.overloads name).map (·.method) := by
  unfold listing overloadsIn
  rw [bind_of_eq h]
  rfl

theorem diamondDocument_lists :
    let u := (((diamondDocument.load blankFile).session {}).stage 0).world
    (u.types.classNamed? "p.C").any fun cls => (u.types.shape cls).isDeclared ∧
      u.listing cls "m" = [diamondMethod, ⟨Universe.initial.methods.size + 2⟩, diamondMethod] := by
  decide +kernel

/-- The method with the unknown type comes to the class along two paths, and is broken. -/
theorem broken_overload_listed :
    let u := (((diamondDocument.load blankFile).session {}).stage 0).world
    ∃ cls table u', u.types.classNamed? "p.C" = some cls ∧ memberTable cls u = (.ok table, u') ∧
      (table.overloads "m").map (·.method) = [diamondMethod, ⟨Universe.initial.methods.size + 2⟩, diamondMethod] ∧
      u'.IsBroken diamondMethod := by
  have hlists := diamondDocument_lists
  have honce := overloads_listed_once diamondDocument blankFile {} 0
  generalize (((diamondDocument.load blankFile).session {}).stage 0).world = u at hlists honce ⊢
  obtain ⟨cls, hcls, h⟩ := (Option.any_eq_true _ _).mp hlists
  obtain ⟨hdeclared, hlisting⟩ := of_decide_eq_true h
  obtain ⟨table, u', hrun, htable⟩ := honce cls hdeclared
  rw [listing_eq hrun] at hlisting
  refine ⟨cls, table, u', hcls, hrun, hlisting, ?_⟩
  have hrepeated := (htable "m").repeated
  obtain ⟨a, rest, heq, ha, hrest⟩ := List.map_eq_cons_iff.mp hlisting
  obtain ⟨b, rest', heq', -, hlast⟩ := List.map_eq_cons_iff.mp hrest
  obtain ⟨c, rest'', heq'', hc, -⟩ := List.map_eq_cons_iff.mp hlast
  rw [heq, heq', heq''] at hrepeated
  rw [← ha]
  exact (List.pairwise_cons.mp hrepeated).1 c (by simp) (ha.trans hc.symm)

/-- A method of the root class comes to the class along every path, and is listed once. -/
example :
    let u := (((diamondDocument.load blankFile).session {}).stage 0).world
    (u.types.classNamed? "p.C").any fun cls => (u.listing cls "hashCode").length = 1 := by
  decide +kernel

/-- A method may be listed twice under its name. Nothing is compared with a broken signature,
so the second path to the class adds the method once more. -/
theorem broken_overload_repeated : ¬ ∀ (d : Document) (f : Source.File) (cls : TypeId) (table : MemberTable) (u' : Universe),
    ((d.load f).world.types.shape cls).isDeclared → memberTable cls (d.load f).world = (.ok table, u') →
      ∀ name, ((table.overloads name).map (·.method)).Nodup := by
  intro hnodup
  have hlists := diamondDocument_lists
  rw [Session.stage_zero, Session.begun_world, Loaded.session_world] at hlists
  obtain ⟨cls, -, h⟩ := (Option.any_eq_true _ _).mp hlists
  obtain ⟨hdeclared, hlisting⟩ := of_decide_eq_true h
  obtain ⟨r, u', hrun⟩ : ∃ r u', memberTable cls (diamondDocument.load blankFile).world = (r, u') := ⟨_, _, rfl⟩
  cases r with
  | error e =>
    rw [Universe.listing, overloadsIn, bind_of_eq hrun] at hlisting
    cases hlisting
  | ok table =>
    have hdistinct := hnodup diamondDocument blankFile cls table u' hdeclared hrun "m"
    rw [← listing_eq hrun, hlisting] at hdistinct
    simp at hdistinct

/-! ## Overridden methods

What becomes of the methods that a supertype lists. An overload of the table stands for each,
and it is the overriding one unless that is abstract and met another one on a different path.
-/

/-- At every stage of the run of a document, the member table of every class is there on
request, and then so are those of the classes whose tables are merged into it. Every method
that one of these lists and that the class can inherit is accounted for: an overload of the
table stands for it, and one of its signature that it overrides is not abstract, or has it as
a conflict. -/
theorem inherited_accounted (d : Document) (f : Source.File) (base : Options) (n : Nat) (cls : TypeId)
    (hcls : ((((d.load f).session base).stage n).world.types.shape cls).isDeclared) :
    ∃ table u', memberTable cls (((d.load f).session base).stage n).world = (.ok table, u') ∧
      ∀ p ∈ u'.tableParents cls, ∃ up, memberTable p u' = (.ok up, u') ∧
        ∀ name, ∀ s ∈ up.overloads name, u'.inheritable (u'.method s.method) cls →
          u'.Accounted cls (table.overloads name) s.method := by
  have hfresh : ((d.load f).session base).Fresh := Loaded.fresh d f base
  have hworld := (hfresh.stage_sound n).1.world
  have hcomplete := (hfresh.stage_complete (d.load_complete f) n).1
  obtain ⟨table, u', hrun, hleads, hcomplete', hbuilt⟩ := hcomplete.memberTable hworld hcls
  have hworld' := hleads.1 hworld
  have hcls' := hleads.2.types.isDeclared hcls
  refine ⟨table, u', hrun, fun p hp => ⟨u'.tableAt p, ?_, fun name s hs hinherits => ?_⟩⟩
  · exact memberTable_of_built (hworld'.isDeclared_tableParent hp) ((hcomplete'.whole cls table hcls' hbuilt).parents p hp)
  · exact hcomplete'.accounted hworld' hcls' hbuilt hp hs hinherits

/-- An abstract class that declares a method of the root class again, and a class that
inherits it and implements an interface, which has the members of the root class too. So the
root class is above the class along two paths. -/
def displacedDocument : Document where
  classes := [
    .mk { name := "p.A", flags := ["abstract"], methods := [
      { name := "toString", access := "public", flags := ["abstract"], returns := "String" }] } [],
    .mk { name := "p.I", kind := "interface" } [],
    .mk { name := "p.C", super := "p.A", interfaces := ["p.I"] } []]

/-- A table and that of a supertype list two methods of one signature, of which the second
overrides the first. The class would be expected to list the second one, which it can inherit.
-/
structure Universe.Displaced (u : Universe) (cls : TypeId) (name : String) (table up : MemberTable) (x s : Shadow) : Prop where
  /-- What the supertype lists. -/
  incoming : s ∈ up.overloads name
  /-- It can be inherited. -/
  inherits : u.inheritable (u.method s.method) cls
  /-- What the class lists. -/
  listed : x ∈ table.overloads name
  /-- The signatures. -/
  same : u.sameSignature x.method s.method
  /-- The first method is declared above the class that declares the second one. -/
  above : Relation.TransGen u.TableParent (u.method s.method).owner (u.method x.method).owner

/-- Whether an overridden method is found in the table of a class. -/
def Universe.displaces (u : Universe) (cls : TypeId) (name : String) : Bool :=
  match memberTable cls u with
  | (.ok table, u') => (u'.tableParents cls).any fun p =>
    match memberTable p u' with
    | (.ok up, _) => (up.overloads name).any fun s => (table.overloads name).any fun x =>
      u'.inheritable (u'.method s.method) cls && u'.sameSignature x.method s.method &&
        (u'.method x.method).owner ∈ u'.tableParents (u'.method s.method).owner
    | _ => false
  | _ => false

theorem Universe.displaced_of_displaces {u : Universe} {cls : TypeId} {name : String} (h : u.displaces cls name) :
    ∃ table u' p up u'' x s, memberTable cls u = (.ok table, u') ∧ p ∈ u'.tableParents cls ∧ memberTable p u' = (.ok up, u'') ∧
      u'.Displaced cls name table up x s := by
  unfold displaces at h
  split at h
  · rename_i table u' hrun
    obtain ⟨p, hp, h⟩ := List.any_eq_true.mp h
    split at h
    · rename_i up u'' hup
      obtain ⟨s, hs, h⟩ := List.any_eq_true.mp h
      obtain ⟨x, hx, h⟩ := List.any_eq_true.mp h
      simp only [Bool.and_eq_true, decide_eq_true_eq] at h
      exact ⟨table, u', p, up, u'', x, s, hrun, hp, hup, hs, h.1.1, hx, h.1.2, .single h.2⟩
    · cases h
  · cases h

theorem displacedDocument_displaces :
    let u := (((displacedDocument.load blankFile).session {}).stage 0).world
    (u.types.classNamed? "p.C").any fun cls => (u.types.shape cls).isDeclared && u.displaces cls "toString" := by
  decide +kernel

/-- The class lists the method of the root class in place of the abstract one that overrides
it. This is one of the ways in which what a supertype lists is accounted for. -/
theorem overrider_displaced :
    let u := (((displacedDocument.load blankFile).session {}).stage 0).world
    ∃ cls table u' p up x s, memberTable cls u = (.ok table, u') ∧ memberTable p u' = (.ok up, u') ∧
      u'.Displaced cls "toString" table up x s ∧ ((u'.method x.method).flags.isAbstract = false ∨ s.method ∈ x.conflicts) := by
  have hdisplaces := displacedDocument_displaces
  have haccounted := inherited_accounted displacedDocument blankFile {} 0
  generalize (((displacedDocument.load blankFile).session {}).stage 0).world = u at hdisplaces haccounted ⊢
  obtain ⟨cls, -, h⟩ := (Option.any_eq_true _ _).mp hdisplaces
  obtain ⟨hcls, h⟩ := (Bool.and_eq_true _ _).mp h
  obtain ⟨table, u', p, up, u'', x, s, hrun, hp, hup, hdisplaced⟩ := displaced_of_displaces h
  obtain ⟨table', u₁, hrun', hparents⟩ := haccounted cls hcls
  obtain ⟨htable, rfl⟩ := Prod.mk.inj (hrun.symm.trans hrun')
  cases htable
  obtain ⟨up', hup', hall⟩ := hparents p hp
  cases (Prod.mk.inj (hup.symm.trans hup')).1
  have hx := hall "toString" s hdisplaced.incoming hdisplaced.inherits
  exact ⟨cls, table, u', p, up, x, s, hrun, hup', hdisplaced, hx.overridden x hdisplaced.listed hdisplaced.same hdisplaced.above⟩

/-- An overridden method may take the place of the method that overrides it. -/
theorem overrider_gives_way : ¬ ∀ (d : Document) (f : Source.File) (base : Options) (cls p : TypeId) (name : String)
    (table up : MemberTable) (u' u'' : Universe) (x s : Shadow),
    ((((d.load f).session base).stage 0).world.types.shape cls).isDeclared →
      memberTable cls (((d.load f).session base).stage 0).world = (.ok table, u') → p ∈ u'.tableParents cls →
        memberTable p u' = (.ok up, u'') → ¬ u'.Displaced cls name table up x s := by
  intro hnever
  obtain ⟨cls, -, h⟩ := (Option.any_eq_true _ _).mp displacedDocument_displaces
  obtain ⟨hcls, h⟩ := (Bool.and_eq_true _ _).mp h
  obtain ⟨table, u', p, up, u'', x, s, hrun, hp, hup, hdisplaced⟩ := displaced_of_displaces h
  exact hnever displacedDocument blankFile {} cls p "toString" table up u' u'' x s hcls hrun hp hup hdisplaced

/-! ## Tables made at different times

Both that the order of requests plays no part and the exception are about the same thing:
signatures are read late, when a table or a call needs them, and a name in a text may by then
stand for a class that was not there before.
-/

/-- A request for a member table registers no class. -/
theorem Universe.memberTable_names (t : TypeId) (u : Universe) : (memberTable t u).2.types.names = u.types.names :=
  congrArg (fun l : Lasting => l.types.names) (memberTable_lasts t u)

/-- So it disturbs no signature. -/
theorem Universe.WellFormed.undisturbed_memberTable {u : Universe} (hu : u.WellFormed) (t : TypeId) (id : MethodId) :
    u.Undisturbed (memberTable t u).2 id := by
  intro p hp hnew
  rw [memberTable_names] at hp
  exact absurd (TypeStore.knows_of_isDeclared (hu.types.names p hp)) hnew

/-- In a universe that came from a loaded one, the table of a class that was loaded lists what
the recursion over its supertypes gives in the universe where its table is the first one that
is asked for, and that was loaded. -/
theorem Document.inherited_alike {d : Document} {f : Source.File} {u : Universe} (hkeeps : (d.load f).world.Keeps u) (hu : u.WellFormed)
    (hcomplete : u.Complete) (hlists : ∀ c, (u.outline c).1 = ((d.load f).world.outline c).1)
    (hfree : ∀ id, (d.load f).world.Has id → (d.load f).world.Undisturbed u id) {cls : TypeId}
    (hcls : ((d.load f).world.types.shape cls).isDeclared) {table : MemberTable} (hbuilt : (u.outline cls).2 = .built table) :
    let first := (memberTable cls (d.load f).world).2
    (first.inherited first.tableFuel cls).Alike table ∧ table.All fun s => (d.load f).world.Has s.method := by
  obtain ⟨hloaded, hnested, -⟩ := d.load_drafted f
  obtain ⟨table₀, first, hrun, hleads, hcomplete₀, hbuilt₀⟩ := (d.load_complete f).memberTable hloaded hcls
  have hrequest (id : MethodId) := hloaded.undisturbed_memberTable cls id
  rw [hrun] at hrequest ⊢
  have hfirst := hleads.1 hloaded
  obtain ⟨hsame, hhas⟩ :=
    hcomplete₀.alike_apart hcomplete hleads.2.toKeeps hkeeps hloaded hnested (d.load_tidy f) hfirst hu
      (hleads.2.steps.complete (d.load_complete f)).2 hlists (fun id hid => ⟨hrequest id, hfree id hid⟩) hcls hbuilt₀ hbuilt
  have halike := hcomplete₀.inherited_alike hfirst (hleads.2.types.isDeclared hcls) hbuilt₀ (hfirst.not_climbs hcomplete₀.acyclic cls)
  exact ⟨halike.trans hsame, hsame.all hhas⟩

/-- Member tables may be asked for at any time in a run, in any order and as often as one
likes, and no request finds a table that is being made. The table of a class that was loaded
lists what the recursion over its supertypes gives in the universe where its table is the
first one that is asked for, unless a class was registered meanwhile under a qualified name
that is tried for a name in the text of a signature. -/
theorem tables_order_independent (d : Document) (f : Source.File) (base : Options) {k : Nat} {st : Session}
    (h : ((d.load f).session base).begun.Interleaved k st) :
    (∀ t, (memberTable t st.world).1 ≠ .error .building) ∧
      ∀ cls, ((d.load f).world.types.shape cls).isDeclared →
        (∀ id, (d.load f).world.Has id → (d.load f).world.Undisturbed st.world id) →
          let first := (memberTable cls (d.load f).world).2
          ∃ table u', memberTable cls st.world = (.ok table, u') ∧ (first.inherited first.tableFuel cls).Alike table := by
  have hfresh := (Loaded.fresh d f base).begun
  have hleads := (hfresh.interleaved h).leads
  have hworld := (running.sound hleads ⟨hfresh.wellFormed, hfresh.numbered⟩).1.world
  obtain ⟨hcomplete, hlists⟩ := hleads.2.steps.complete (d.load_complete f)
  refine ⟨fun t => hcomplete.memberTable_ne_building hworld t, fun cls hcls hfree => ?_⟩
  obtain ⟨table, u', hrun, hleads', hcomplete', hbuilt⟩ := hcomplete.memberTable hworld (hleads.2.world.types.isDeclared hcls)
  have hnames := memberTable_names cls st.world
  rw [hrun] at hnames
  have halike := Document.inherited_alike (hleads.2.world.trans hleads'.2.toKeeps) (hleads'.1 hworld) hcomplete'
    (fun c => ((hleads'.2.steps.complete hcomplete).2 c).trans (hlists c)) (fun id hid p hp => hfree id hid p (hnames ▸ hp)) hcls hbuilt
  exact ⟨table, u', hrun, halike.1⟩

/-- A class and its subclass with methods whose parameter type is a local class of some name,
calls of both, and between them the creation of an anonymous class. The name decides whether
the anonymous class takes it. -/
def orderDocument (name : String) : Document where
  classes := [
    .mk { name := "p.A" } [],
    .mk { name } [],
    .mk { name := "p.B", methods := [{ name := "m", params := [name], returns := "void" }] } [],
    .mk { name := "p.C", super := "p.B", methods := [{ name := "m", params := [name], returns := "void" }] } []]
  program := [
    { id := "b", cls := "p.B", call := "m", receiver := some { type := "p.B" }, args := [{ type := name }] },
    { id := "n", cls := "p.A", new := "Object", body := some {} },
    { id := "c", cls := "p.C", call := "m", receiver := some { type := "p.C" }, args := [{ type := name }] }]

/-- What the document comes to when the local class is not the first one: the anonymous class
does not disturb any signature, and the table of the subclass is asked for after it. -/
theorem orderDocument_kept :
    let loaded := ((orderDocument "p.A$2").load blankFile).world
    let u := ((((orderDocument "p.A$2").load blankFile).session {}).begun.before 2).world
    (u.types.names.filter fun p => ¬ loaded.types.Knows p.2).map (·.1) = ["p.A$1"] ∧
      (∀ i ∈ List.range loaded.methods.size, "p.A$1" ∉ loaded.consultedBy ⟨i + 1⟩) ∧
      (loaded.types.classNamed? "p.C").any fun cls => (loaded.types.shape cls).isDeclared ∧ (u.listing cls "m").length = 1 := by
  decide +kernel

/-- The anonymous class is registered before the table of the subclass is made, which lists
the method of the subclass alone, as the recursion does. -/
theorem order_does_not_matter :
    let loaded := ((orderDocument "p.A$2").load blankFile).world
    let u := ((((orderDocument "p.A$2").load blankFile).session {}).begun.before 2).world
    ∃ cls table u', loaded.types.classNamed? "p.C" = some cls ∧ memberTable cls u = (.ok table, u') ∧
      (table.overloads "m").length = 1 ∧
      ((memberTable cls loaded).2.inherited (memberTable cls loaded).2.tableFuel cls).Alike table := by
  obtain ⟨hnames, hfree, hcls⟩ := orderDocument_kept
  obtain ⟨cls, hnamed, h⟩ := (Option.any_eq_true _ _).mp hcls
  obtain ⟨hdeclared, hlisting⟩ := of_decide_eq_true h
  have hbefore := interleaved_before (((orderDocument "p.A$2").load blankFile).session {}).begun (k := 2) (by decide +kernel)
  obtain ⟨-, htables⟩ := tables_order_independent (orderDocument "p.A$2") blankFile {} hbefore
  obtain ⟨table, u', hrun, halike⟩ := htables cls hdeclared fun _ hid => undisturbed_of_names hnames hfree hid
  rw [listing_eq hrun, List.length_map] at hlisting
  exact ⟨cls, table, u', hnamed, hrun, hlisting, halike⟩

theorem orderDocument_disturbed :
    let loaded := ((orderDocument "p.A$1").load blankFile).world
    let u := ((((orderDocument "p.A$1").load blankFile).session {}).begun.before 2).world
    (loaded.types.classNamed? "p.C").any fun cls => (loaded.types.shape cls).isDeclared ∧ (u.listing cls "m").length = 2 ∧
      ((memberTable cls loaded).2.inherited (memberTable cls loaded).2.tableFuel cls |>.overloads "m").length = 1 := by
  decide +kernel

theorem orderDocument_denotes :
    let loaded := ((orderDocument "p.A$1").load blankFile).world
    ∀ i ∈ List.range loaded.methods.size, (loaded.signatureOutcome ⟨i + 1⟩).isSome := by
  decide +kernel

/-- What the table of a class lists may depend on what is done before it is made, although the
texts of all signatures name classes that were loaded. What happens is that a name in a text
is taken by an anonymous class. -/
theorem table_depends_on_order :
    ¬ ∀ (d : Document) (f : Source.File) (base : Options) (k : Nat) (st : Session),
      ((d.load f).session base).begun.Interleaved k st →
      (∀ id, (d.load f).world.Has id → ((d.load f).world.signatureOutcome id).isSome) →
      ∀ cls, ((d.load f).world.types.shape cls).isDeclared →
        let first := (memberTable cls (d.load f).world).2
        ∃ table u', memberTable cls st.world = (.ok table, u') ∧ (first.inherited first.tableFuel cls).Alike table := by
  intro h
  obtain ⟨cls, -, hlists⟩ := (Option.any_eq_true _ _).mp orderDocument_disturbed
  obtain ⟨hdeclared, hlate, hfirst⟩ := of_decide_eq_true hlists
  have hbefore := interleaved_before (((orderDocument "p.A$1").load blankFile).session {}).begun (k := 2) (by decide +kernel)
  have hdenotes (id : MethodId) (hid : ((orderDocument "p.A$1").load blankFile).world.Has id) :=
    forall_has_of_range (P := fun id => (((orderDocument "p.A$1").load blankFile).world.signatureOutcome id).isSome)
      orderDocument_denotes hid
  obtain ⟨table, u', hrun, halike⟩ := h _ _ _ _ _ hbefore hdenotes cls hdeclared
  rw [listing_eq hrun, List.length_map, halike.overloads, hfirst] at hlate
  cases hlate

end CallResolution
