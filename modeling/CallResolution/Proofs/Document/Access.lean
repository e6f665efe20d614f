import CallResolution.Proofs.Document.Hierarchies
import CallResolution.Proofs.Members.Conflicts
import CallResolution.Proofs.Resolve.Stages

/-!
# Access in documents

The classes around a method call that is bound may use the callable, with one exception. When
a class declares two abstract methods of one signature, the tables of its heirs list the first
one and have the second one as a conflict of it, which takes the place of the first one where
that is out of reach, whether it is within reach itself or not.

A call with a receiver that is bound to a protected instance method of another package stands
in a class that inherits from the owner of the method, and the type that it searches inherits
from a class around it. These are two classes when neither is the one that the rule asks for:
a class around the call that does both need not exist.

A call that is refused for a method out of reach names a method that accepts its arguments.
When the searched type lists that method, it is out of reach; otherwise a superclass lists it,
and then it may be within reach.

Main statements: `bound_within_reach`, `bound_out_of_reach`, `protected_halves`,
`protected_halves_differ`, `unreached_methods` and `unreached_within_reach`.
-/

namespace CallResolution

open Session

namespace Session

variable {st : Session}

/-- What a bound call with a receiver was found as. -/
theorem Turn.found_through (t : Turn st) (h : Fresh st) {m : Nat} (hm : t.place < m) {site : Site}
    (hsite : (st.begun.before m).program.site? t.id = some site) (hbound : site.result.IsBound) {name : String} {recv : Expr}
    (hcall : site.call = .method name (some recv)) :
    (st.begun.before m).world.Found t.env (t.start.searchOf recv) (some (t.start.qualifierOf recv)) name site.result.callable := by
  obtain ⟨x, on, q, hcalled, hpicks⟩ := t.picks h hm hsite hbound hcall
  cases hcalled
  exact hpicks.found

/-- What a method call that is refused for a method out of reach names. -/
theorem Turn.blamed (t : Turn st) (h : Fresh st) {name : String} {recv : Option Expr} (hcall : t.site.call = .method name recv)
    {e : Failure} (he : t.outcome.1 = some e) (c : Code) (hc : e.code = some c) (hunreached : c ∈ unreachedCodes) :
    ∃ place, (unmatchedMethod t.start t.env t.site name recv place).Blames c t.outcome.2 := by
  obtain ⟨place, -, hjustifies⟩ := t.justified h hcall he c hc (List.mem_cons_of_mem _ hunreached)
  exact ⟨place, hjustifies.blames hunreached⟩

end Session

/-! ## What calls are bound to

A listed overload that competes is within reach, or it has conflicts. When all tables are
complete its conflicts are kin of it, and this leaves a single way to a callable out of reach.
-/

/-- Two abstract methods of one signature that one class declares, of which the table of a
type lists the first and has the second as a conflict of it. A table that merged the two keeps
both, because the one that comes in later cannot be said to override the other. -/
structure Universe.Siblings (u : Universe) (search : TypeId) (name : String) (a c : MethodId) : Prop where
  /-- The first one is listed, with the second as a conflict. -/
  conflict : ∃ ss, u.listed search name = some ss ∧ ∃ s ∈ ss, s.method = a ∧ c ∈ s.conflicts
  /-- They differ. -/
  other : c ≠ a
  /-- They have one name. -/
  named : (u.method a).name = name ∧ (u.method c).name = name
  /-- They have one signature. -/
  same : u.sameSignature a c
  /-- Both are abstract. -/
  abstract : (u.method a).flags.isAbstract ∧ (u.method c).flags.isAbstract
  /-- One class declares both. -/
  owner : (u.method c).owner = (u.method a).owner

/-- What is found under a name when all tables are complete: the classes around the call may
use it, or it is protected and was found through super, or it is a sibling of a method that is
out of reach. -/
theorem Universe.Found.permits {u : Universe} {env : Env} {search : TypeId} {q : Option Qualifier} {name : String} {c : MethodId}
    (h : u.Found env search q name c) (hcomplete : u.Complete) (hu : u.WellFormed) (hpopulated : u.Populated) (hk : u.types.Kinded) :
    Permits u.types env (u.method c) ∨
      (∃ ss, u.listed search name = some ss ∧ (∃ s ∈ ss, s.method = c) ∧ q.any (·.isSuper) = true ∧ (u.method c).access = .prot) ∨
      ∃ a, u.Siblings search name a c ∧ memberAccessible u.types env (u.method a) search q = false := by
  cases h with
  | @reached ss s listed mem resolved reach =>
    rcases permits_of_reach reach with h | ⟨haccess, hsuper⟩
    · exact .inl h
    · exact .inr (.inl ⟨ss, listed, ⟨s, mem, rfl⟩, hsuper, haccess⟩)
  | @conflict ss s c listed mem resolved outOfReach conflict =>
    have hkin := hcomplete.kin_of_listed hu hpopulated listed mem hk c conflict
    obtain ⟨hsound, hnamed⟩ := hu.sound_of_listed listed mem
    rcases hkin.near with hpublic | howner
    · exact .inl (.everyone hpublic)
    · exact .inr (.inr ⟨s.method, {
        conflict := ⟨ss, listed, s, mem, rfl, conflict⟩
        other := hkin.other
        named := ⟨hnamed.name_eq, hkin.name⟩
        same := hsound.conflicts c conflict
        abstract := ⟨hkin.abstract, hkin.conflict⟩
        owner := howner }, outOfReach⟩)
  | @doubled ss s s' listed mem mem' same resolved outOfReach conflicts plain =>
    -- the table lists a method with conflicts once
    cases hcomplete.eq_of_listed hu hpopulated listed mem conflicts resolved mem' same
    exact absurd plain conflicts

/-- The current instance as one of its superclass has the type that the class around the call
inherits from. -/
theorem Session.Turn.superOf {d : Document} {f : Source.File} {base : Options} (t : Turn ((d.load f).session base)) {name : String}
    {recv : Expr} (hcall : t.site.call = .method name (some recv)) : Loader.SuperOf t.start.world.types t.env.this recv := by
  have hfresh := Loaded.fresh d f base
  have hleads := (hfresh.begun.reached t.place).leads
  obtain ⟨hworld, -, hdrafted⟩ := d.load_drafted f
  obtain ⟨site, hsite, hsame⟩ := hleads.2.program.of_site? t.found
  have hstep : Step.call t.id t.env ∈ (d.load f).program.steps := List.mem_of_getElem? t.step
  intro hsuper
  obtain ⟨info, hinfo, hrest⟩ := hdrafted.super t.id t.env site hstep hsite name recv (by rw [← hcall, hsame]) hsuper
  exact ⟨info, (hleads.2.world.types.classInfo hworld.types (TypeStore.knows_of_isDeclared (hdrafted.this t.id t.env hstep))).trans hinfo, hrest⟩

/-- A class that has a superclass is a subclass of it. -/
theorem TypeStore.WellFormed.isSubclass_super {s : TypeStore} (hs : s.WellFormed) {c : TypeId} {info : ClassInfo}
    (hinfo : s.classInfo? c = some info) (hsuper : info.super.isSome) (hclass : (s.classOf info.super).isSome) :
    s.isSubclass c info.super := by
  refine TypeStore.isSubclass_iff.mpr ⟨TypeStore.isSome_classOf (Option.isSome_of_eq_some hinfo), hclass, .inr (.single ?_)⟩
  refine List.mem_filter.mpr ⟨List.mem_map_of_mem ?_, hclass⟩
  simp [TypeStore.directSupertypes, hs.classInfo?_classOf, hinfo, hsuper]

/-- What is found through super is declared by a class that the class around the call inherits
from. -/
theorem Session.Turn.inherits_of_super {d : Document} {f : Source.File} {base : Options} (t : Turn ((d.load f).session base))
    {name : String} {recv : Expr} (hcall : t.site.call = .method name (some recv)) (hsuper : recv.form.isSuper) {u : Universe}
    (hu : u.WellFormed) (hcomplete : u.Complete) (hext : t.start.world.types.Extends u.types) {ss : List Shadow} {s : Shadow}
    (hlisted : u.listed (t.start.searchOf recv) name = some ss) (hs : s ∈ ss) :
    ∃ g ∈ t.env.frames, u.types.isSubclass g.type (u.method s.method).owner := by
  have hfresh := Loaded.fresh d f base
  have hstart := (t.sound hfresh).1.1.world.types
  obtain ⟨info, hinfo, hsome, htype⟩ := t.superOf hcall hsuper
  obtain ⟨hknown, hvariable, harray⟩ := (hstart.knows_classInfo hinfo).super
  have hsearch : t.start.searchOf recv = info.super := by
    have hform : recv.form = .super := by
      cases hform : recv.form <;> simp [hform, ExprForm.isSuper] at hsuper ⊢
    rw [searchOf_eq]
    simp only [receiverType, exprType, hform, htype, if_pos hsome]
    rw [if_neg hvariable]
  rw [hsearch] at hlisted
  have hbelow := hcomplete.isSubclass_of_listed hu (by rwa [TypeStore.isArray, hext.shape hknown]) hlisted hs
  have hinfo' := (hext.classInfo hstart (TypeStore.knows_of_classInfo (Option.isSome_of_eq_some hinfo))).trans hinfo
  obtain ⟨g, rest, hframes⟩ := List.exists_cons_of_ne_nil (hfresh.frames t.id t.env (List.mem_of_getElem? t.step))
  have hthis : t.env.this = g.type := by simp [Env.this, hframes]
  rw [hthis] at hinfo'
  exact ⟨g, by simp [hframes], hu.types.isSubclass_trans (hu.types.isSubclass_super hinfo' hsome
    (TypeStore.classOf_of_isSubclass hbelow).1) hbelow⟩

/-- A method call that is bound, from its turn to the end of the run. It searches a type for
its name, and the classes around it may use the callable, unless this is a sibling of a method
of that type that they may not use. -/
theorem bound_within_reach (d : Document) (f : Source.File) (base : Options) (t : Turn ((d.load f).session base)) {m : Nat}
    (hm : t.place < m) {site : Site} (hsite : (((d.load f).session base).begun.before m).program.site? t.id = some site)
    (hbound : site.result.IsBound) {name : String} {recv : Option Expr} (hcall : site.call = .method name recv) :
    let u := (((d.load f).session base).begun.before m).world
    ∃ search on q, CalledOn t.start u t.env name recv search on q ∧
      (Permits u.types t.env (u.method site.result.callable) ∨ ∃ a, u.Siblings search name a site.result.callable ∧
        memberAccessible u.types t.env (u.method a) search (recv.map t.start.qualifierOf) = false) := by
  intro u
  have hfresh := Loaded.fresh d f base
  have hleads := (hfresh.begun.reached m).leads
  have hu : u.WellFormed := (running.sound hleads ⟨hfresh.begun.wellFormed, hfresh.begun.numbered⟩).1.world
  have hpopulated : u.Populated := (Loaded.populated d f base).moves hleads.2.moves
  have hcomplete : u.Complete := (hleads.2.steps.complete (d.load_complete f)).1
  have hkinded : u.types.Kinded := hleads.2.world.types.kinded (d.load_kinded f)
  obtain ⟨search, on, q, hcalled, hpicks⟩ := t.picks hfresh hm hsite hbound hcall
  have hfound := hpicks.found
  refine ⟨search, on, q, hcalled, ?_⟩
  rcases hfound.permits hcomplete hu hpopulated hkinded with h | ⟨ss, hlisted, ⟨s, hs, hc⟩, hsuper, haccess⟩ | h
  · exact .inl h
  · obtain ⟨hsame, hruns, -⟩ := t.later hfresh hm hsite
    rw [hsame] at hcall
    have hext := (t.sound hfresh).2.2.world.types.trans hruns.world.types
    cases recv with
    | none => cases hsuper
    | some e =>
      cases hcalled
      rw [← hc] at haccess ⊢
      exact .inl (.heir haccess (t.inherits_of_super hcall hsuper hu hcomplete hext hlisted hs))
  · exact .inr h

/-- An abstract class with two protected abstract methods of one signature, an heir of it, and
a call in another package on an instance of the heir. Neither of the two is within reach of
the call. -/
def siblingsDocument : Document where
  classes := [
    .mk { name := "p.A", access := "public", flags := ["abstract"],
          methods := [{ name := "m", access := "protected", flags := ["abstract"], returns := "void" },
            { name := "m", access := "protected", flags := ["abstract"], returns := "void" }] } [],
    .mk { name := "p.B", access := "public", flags := ["abstract"], super := "p.A" } [],
    .mk { name := "r.User" } []]
  program := [{ id := "a", cls := "r.User", call := "m", receiver := some { type := "p.B" } }]

/-- Whether the call of a turn is a resolved method call, and the classes around it may not
use what it is bound to. -/
def Session.Turn.bindsForbidden {st : Session} (t : Turn st) : Bool :=
  (t.outcome.2.program.site? t.id).any fun site => site.result.state = .resolved && match site.call with
    | .method _ _ => !decide (Permits t.outcome.2.world.types t.env (t.outcome.2.world.method site.result.callable))
    | _ => false

/-- What such a turn binds. -/
theorem Session.Turn.exists_of_bindsForbidden {st : Session} {t : Turn st} (h : t.bindsForbidden) :
    ∃ site name recv, t.outcome.2.program.site? t.id = some site ∧ site.result.state = .resolved ∧ site.call = .method name recv ∧
      ¬ Permits t.outcome.2.world.types t.env (t.outcome.2.world.method site.result.callable) := by
  obtain ⟨site, hsite, hbinds⟩ := (Option.any_eq_true _ _).mp h
  obtain ⟨hstate, hcall⟩ := Bool.and_eq_true_iff.mp hbinds
  split at hcall
  · rename_i name recv hsame
    exact ⟨site, name, recv, hsite, of_decide_eq_true hstate, hsame, by simpa using hcall⟩
  · cases hcall

theorem siblingsDocument_binds : (((siblingsDocument.load blankFile).session {}).turnAt? 0).any (·.bindsForbidden) = true := by
  decide +kernel

/-- The call is bound to a sibling of a method out of reach. -/
theorem sibling_bound : ∃ (t : Turn ((siblingsDocument.load blankFile).session {})) (site : Site) (name : String)
    (recv : Option Expr) (search : TypeId) (a : MethodId), t.outcome.2.program.site? t.id = some site ∧
      site.result.state = .resolved ∧ site.call = .method name recv ∧
      t.outcome.2.world.Siblings search name a site.result.callable ∧
      memberAccessible t.outcome.2.world.types t.env (t.outcome.2.world.method a) search (recv.map t.start.qualifierOf) = false := by
  obtain ⟨t, -, ht⟩ := (Option.any_eq_true _ _).mp siblingsDocument_binds
  obtain ⟨site, name, recv, hsite, hstate, hcall, hforbidden⟩ := Session.Turn.exists_of_bindsForbidden ht
  have hlater := hsite
  rw [← t.before_succ] at hlater
  obtain ⟨search, on, q, -, h⟩ := bound_within_reach _ _ _ t (m := t.place + 1) (Nat.lt_succ_self _) hlater (.inl hstate) hcall
  rw [t.before_succ] at h
  obtain ⟨a, hsiblings, hreach⟩ := h.resolve_left hforbidden
  exact ⟨t, site, name, recv, search, a, hsite, hstate, hcall, hsiblings, hreach⟩

/-- A method call may be bound to a method that the classes around it may not use. What stands
in for an overload is not checked for access. -/
theorem bound_out_of_reach :
    ¬ ∀ (d : Document) (f : Source.File) (base : Options) (t : Turn ((d.load f).session base)) (site : Site),
      t.outcome.2.program.site? t.id = some site → site.result.state = .resolved →
      ∀ name recv, site.call = .method name recv →
        Permits t.outcome.2.world.types t.env (t.outcome.2.world.method site.result.callable) := by
  intro h
  obtain ⟨t, -, ht⟩ := (Option.any_eq_true _ _).mp siblingsDocument_binds
  obtain ⟨site, name, recv, hsite, hstate, hcall, hforbidden⟩ := Session.Turn.exists_of_bindsForbidden ht
  exact hforbidden (h _ _ _ t site hsite hstate name recv hcall)

/-! ## Protected methods

The two halves of the rule, first as what every such call has, then as what no single class
around a call need have.
-/

/-- A resolved call with a receiver other than super, from its turn to the end of the run,
when it is bound to a protected instance method of another package and another outermost
class: some class around the call inherits from the owner of the method, and the type that is
searched, the erasure of a type variable, inherits from some class around the call. This is so
unless the method was let in by the conflicts of a method that is out of reach. -/
theorem protected_halves (d : Document) (f : Source.File) (base : Options) (t : Turn ((d.load f).session base)) {m : Nat}
    (hm : t.place < m) {site : Site} (hsite : (((d.load f).session base).begun.before m).program.site? t.id = some site)
    (hresolved : site.result.state = .resolved) {name : String} {recv : Expr} (hcall : site.call = .method name (some recv))
    (hsuper : recv.form.isSuper = false)
    (hforeign : ForeignProtected (((d.load f).session base).begun.before m).world.types t.env
      ((((d.load f).session base).begun.before m).world.method site.result.callable)) :
    let u := (((d.load f).session base).begun.before m).world
    Halves u.types t.env (u.method site.result.callable).owner (t.start.searchOf recv) ∨
      u.Admitted t.env (t.start.searchOf recv) (some (t.start.qualifierOf recv)) name site.result.callable :=
  (t.found_through (Loaded.fresh d f base) hm hsite (.inl hresolved) hcall).halves hforeign hsuper

/-- A subclass in another package of a class with a protected method, and a call of the method
in the subclass, on an instance of it. -/
def heirDocument : Document where
  classes := [
    .mk { name := "q.Base", access := "public", methods := [{ name := "m", access := "protected", returns := "void" }] } [],
    .mk { name := "p.A", super := "q.Base" } []]
  program := [{ id := "a", cls := "p.A", call := "m", receiver := some { type := "p.A" } }]

/-- A member class that inherits from a subclass of its outer class, in another package and
with a protected method, and a call of the method in the member class, on an instance of that
subclass. The member class serves the first half and the outer class the second. -/
def betweenDocument : Document where
  classes := [
    .mk { name := "q.Base", access := "public", super := "p.A",
          methods := [{ name := "m", access := "protected", returns := "void" }] } [],
    .mk { name := "p.A", access := "public" } [.mk { name := "In", super := "q.Base" } []]]
  program := [{ id := "a", cls := "p.A.In", call := "m", receiver := some { type := "q.Base" } }]

instance (s : TypeStore) (env : Env) (m : Method) : Decidable (ForeignProtected s env m) :=
  decidable_of_iff (m.access = .prot ∧ m.flags.isStatic = false ∧ env.sharesOutermost s m.owner = false ∧
      s.samePackage env.this m.owner = false)
    ⟨fun h => ⟨h.1, h.2.1, h.2.2.1, h.2.2.2⟩, fun h => ⟨h.access, h.dynamic, h.outermost, h.package⟩⟩

/-- Whether the call of a turn is a resolved call with a receiver other than super, and is
bound to a protected instance method of another package; what is to be found out of the
searched type and the owner of the method may be added. -/
def Session.Turn.bindsForeign {st : Session} (t : Turn st) (p : TypeId → TypeId → Bool) : Bool :=
  (t.outcome.2.program.site? t.id).any fun site => site.result.state = .resolved && match site.call with
    | .method _ (some recv) =>
      let m := t.outcome.2.world.method site.result.callable
      !recv.form.isSuper && decide (ForeignProtected t.outcome.2.world.types t.env m) && p (t.start.searchOf recv) m.owner
    | _ => false

/-- What such a turn binds. -/
theorem Session.Turn.exists_of_bindsForeign {st : Session} {t : Turn st} {p : TypeId → TypeId → Bool} (h : t.bindsForeign p) :
    ∃ site name recv, t.outcome.2.program.site? t.id = some site ∧ site.result.state = .resolved ∧
      site.call = .method name (some recv) ∧ recv.form.isSuper = false ∧
      ForeignProtected t.outcome.2.world.types t.env (t.outcome.2.world.method site.result.callable) ∧
      p (t.start.searchOf recv) (t.outcome.2.world.method site.result.callable).owner := by
  obtain ⟨site, hsite, hbinds⟩ := (Option.any_eq_true _ _).mp h
  obtain ⟨hstate, hcall⟩ := Bool.and_eq_true_iff.mp hbinds
  split at hcall
  · rename_i name recv hsame
    simp only [Bool.and_eq_true, Bool.not_eq_true', decide_eq_true_eq] at hcall
    exact ⟨site, name, recv, hsite, of_decide_eq_true hstate, hsame, hcall.1.1, hcall.1.2, hcall.2⟩
  · cases hcall

theorem heirDocument_binds :
    (((heirDocument.load blankFile).session {}).turnAt? 0).any (·.bindsForeign fun _ _ => true) = true := by
  decide +kernel

/-- A subclass reaches the protected method of a superclass in another package on its own
instances. -/
theorem heir_reaches_protected : ∃ (t : Turn ((heirDocument.load blankFile).session {})) (site : Site) (name : String) (recv : Expr),
    t.outcome.2.program.site? t.id = some site ∧
      ForeignProtected t.outcome.2.world.types t.env (t.outcome.2.world.method site.result.callable) ∧
      (Halves t.outcome.2.world.types t.env (t.outcome.2.world.method site.result.callable).owner (t.start.searchOf recv) ∨
        t.outcome.2.world.Admitted t.env (t.start.searchOf recv) (some (t.start.qualifierOf recv)) name site.result.callable) := by
  obtain ⟨t, -, ht⟩ := (Option.any_eq_true _ _).mp heirDocument_binds
  obtain ⟨site, name, recv, hsite, hstate, hcall, hsuper, hforeign, -⟩ := Session.Turn.exists_of_bindsForeign ht
  have hlater := hsite
  have hforeign' := hforeign
  rw [← t.before_succ] at hlater hforeign'
  have hhalves := protected_halves _ _ _ t (m := t.place + 1) (Nat.lt_succ_self _) hlater hstate hcall hsuper hforeign'
  dsimp only at hhalves
  rw [t.before_succ] at hhalves
  exact ⟨t, site, name, recv, hsite, hforeign, hhalves⟩

/-- The subclass may use the method. -/
example : (((heirDocument.load blankFile).session {}).turnAt? 0).any (·.bindsForbidden) = false := by
  decide +kernel

/-- Whether the call of a turn is bound to such a method, and no class around the call
inherits from its owner and has the searched type as a subclass. -/
def Session.Turn.splitsHalves {st : Session} (t : Turn st) : Bool :=
  t.bindsForeign fun search owner => t.env.frames.all fun f =>
    !(t.outcome.2.world.types.isSubclass f.type owner && t.outcome.2.world.types.isSubclass search f.type)

theorem betweenDocument_splits : (((betweenDocument.load blankFile).session {}).turnAt? 0).any (·.splitsHalves) = true := by
  decide +kernel

/-- The two halves of the rule may be served by two classes around a call, and by no single
one. So the rule that one class serves both is not what is checked. -/
theorem protected_halves_differ :
    ¬ ∀ (d : Document) (f : Source.File) (base : Options) (t : Turn ((d.load f).session base)) (site : Site),
      t.outcome.2.program.site? t.id = some site → site.result.state = .resolved →
      ∀ name recv, site.call = .method name (some recv) → recv.form.isSuper = false →
        ForeignProtected t.outcome.2.world.types t.env (t.outcome.2.world.method site.result.callable) →
          ∃ g ∈ t.env.frames,
            t.outcome.2.world.types.isSubclass g.type (t.outcome.2.world.method site.result.callable).owner ∧
              t.outcome.2.world.types.isSubclass (t.start.searchOf recv) g.type := by
  intro h
  obtain ⟨t, -, ht⟩ := (Option.any_eq_true _ _).mp betweenDocument_splits
  obtain ⟨site, name, recv, hsite, hstate, hcall, hsuper, hforeign, hsplit⟩ := Session.Turn.exists_of_bindsForeign ht
  obtain ⟨g, hg, hinherits, hcovers⟩ := h _ _ _ t site hsite hstate name recv hcall hsuper hforeign
  have hnot := List.all_eq_true.mp hsplit g hg
  simp [hinherits, hcovers] at hnot

/-! ## Methods out of reach

What the report names is known from the search for it, and that it is out of reach from the
search that came before.
-/

/-- A method call that is refused for a method out of reach. The last report names a method:
its signature is sound, the arguments convert to its parameters, and a type that is searched
or a superclass of it lists the method. When it is the searched type that does, the method may
not be called; that a superclass lists it and the searched type does not is the only other
case. -/
theorem unreached_methods (d : Document) (f : Source.File) (base : Options) (t : Turn ((d.load f).session base)) {name : String}
    {recv : Option Expr} (hcall : t.site.call = .method name recv) {e : Failure} (he : t.outcome.1 = some e) {code : Code}
    (hcode : e.code = some code)
    (hunreached : code = .methodNotAccessible ∨ code = .protectedInterfaceMethod ∨ code = .protectedWrongQualifier) :
    ∃ place, let x := unmatchedMethod t.start t.env t.site name recv place
      ∃ scope ∈ x.scopes, ∃ m, x.Misses scope t.outcome.2.world m ∧ (x.unreached scope t.outcome.2.world m).1 = code ∧
        t.outcome.2.world.faults.getLast? =
          some (.error code t.site.span (x.unreached scope t.outcome.2.world m).2) := by
  have hmem : code ∈ unreachedCodes := by
    rcases hunreached with rfl | rfl | rfl <;> decide
  obtain ⟨place, scope, hscope, m, hmisses, hreport, hlast⟩ := t.blamed (Loaded.fresh d f base) hcall he code hcode hmem
  refine ⟨place, scope, hscope, m, hmisses, hreport, hlast.trans ?_⟩
  cases recv <;> rfl

/-- A class with a private method, and a member class that inherits from it; the method is
called in the outer class, on an instance of the member class. -/
def ownPrivateDocument : Document where
  classes := [
    .mk { name := "p.A", methods := [{ name := "m", access := "private", returns := "void" }] } [
      .mk { name := "B", super := "p.A" } []]]
  program := [{ id := "a", cls := "p.A", call := "m", receiver := some { type := "p.A.B" } }]

/-- Whether the call of a turn is refused for a method out of reach though all methods of the
name that the searched type and its superclasses list may be called. It can be computed, which
the statement that it refutes cannot. -/
def Session.Turn.refusesReached {st : Session} (t : Turn st) : Bool :=
  t.outcome.1.any (·.code = some .methodNotAccessible) && match t.site.call with
  | .method name (some recv) =>
    let u := t.outcome.2.world
    let search := t.start.searchOf recv
    search.isSome && (superChain u.types 32 search).all fun c => (u.listed c name).all fun ss => ss.all fun s =>
      memberAccessible u.types t.env (u.method s.method) search (some (t.start.qualifierOf recv))
  | _ => false

theorem ownPrivateDocument_refuses : (((ownPrivateDocument.load blankFile).session {}).turnAt? 0).any (·.refusesReached) = true := by
  decide +kernel

/-- What such a turn refuses. -/
theorem Session.Turn.exists_of_refusesReached {st : Session} {t : Turn st} (h : t.refusesReached) :
    ∃ e name recv, t.outcome.1 = some e ∧ e.code = some .methodNotAccessible ∧ t.site.call = .method name (some recv) ∧
      (t.start.searchOf recv).isSome ∧ ∀ c ∈ superChain t.outcome.2.world.types 32 (t.start.searchOf recv),
        ∀ ss, t.outcome.2.world.listed c name = some ss → ∀ s ∈ ss,
          memberAccessible t.outcome.2.world.types t.env (t.outcome.2.world.method s.method) (t.start.searchOf recv)
            (some (t.start.qualifierOf recv)) = true := by
  obtain ⟨hcode, hcall⟩ := Bool.and_eq_true_iff.mp h
  obtain ⟨e, he, hcode⟩ := (Option.any_eq_true _ _).mp hcode
  split at hcall
  · rename_i name recv hsame
    obtain ⟨hsearch, hcall⟩ := Bool.and_eq_true_iff.mp hcall
    refine ⟨e, name, recv, he, of_decide_eq_true hcode, hsame, hsearch, fun c hc ss hss s hs => ?_⟩
    have hlisted := List.all_eq_true.mp hcall c hc
    rw [hss] at hlisted
    exact List.all_eq_true.mp hlisted s hs
  · cases hcall

/-- The private method is named by the report. -/
theorem own_private_named : ∃ (t : Turn ((ownPrivateDocument.load blankFile).session {})) (name : String) (recv : Option Expr)
    (place scope : TypeId) (m : MethodId), t.site.call = .method name recv ∧
      scope ∈ (unmatchedMethod t.start t.env t.site name recv place).scopes ∧
      (unmatchedMethod t.start t.env t.site name recv place).Misses scope t.outcome.2.world m ∧
      t.outcome.2.world.faults.getLast? = some (.error .methodNotAccessible t.site.span
        ((unmatchedMethod t.start t.env t.site name recv place).unreached scope t.outcome.2.world m).2) := by
  obtain ⟨t, -, ht⟩ := (Option.any_eq_true _ _).mp ownPrivateDocument_refuses
  obtain ⟨e, name, recv, he, hcode, hcall, -⟩ := Session.Turn.exists_of_refusesReached ht
  obtain ⟨place, scope, hscope, m, hmisses, -, hlast⟩ := unreached_methods _ _ _ t hcall he hcode (.inl rfl)
  exact ⟨t, name, some recv, place, scope, m, hcall, hscope, hmisses, hlast⟩

/-- The method that the report of a method out of reach names may be within reach. A
superclass lists it, and the searched type does not inherit it. -/
theorem unreached_within_reach :
    ¬ ∀ (d : Document) (f : Source.File) (base : Options) (t : Turn ((d.load f).session base)) (name : String)
        (recv : Option Expr) (e : Failure),
      t.site.call = .method name recv → t.outcome.1 = some e → e.code = some .methodNotAccessible →
      ∀ place, let x := unmatchedMethod t.start t.env t.site name recv place
        ∀ scope ∈ x.scopes, ∀ m,
          Accepting t.outcome.2.world name x.args (superChain t.outcome.2.world.types 32 scope) m →
          t.outcome.2.world.faults.getLast? =
            some (.error .methodNotAccessible t.site.span (x.unreached scope t.outcome.2.world m).2) →
          memberAccessible t.outcome.2.world.types t.env (t.outcome.2.world.method m) scope x.qualifier = false := by
  intro h
  obtain ⟨t, -, ht⟩ := (Option.any_eq_true _ _).mp ownPrivateDocument_refuses
  obtain ⟨e, name, recv, he, hcode, hcall, hsearch, hreached⟩ := Session.Turn.exists_of_refusesReached ht
  obtain ⟨place, scope, hscope, m, hmisses, -, hlast⟩ := t.blamed (Loaded.fresh _ _ _) hcall he _ hcode (by decide)
  obtain rfl : scope = t.start.searchOf recv := by
    simpa [unmatchedMethod, unmatchedThrough, Unmatched.scopes, hsearch] using hscope
  obtain ⟨c, hc, ss, hss, s, hs, rfl⟩ := hmisses.listed
  have hreach := hreached c hc ss hss s hs
  have hrefused := h _ _ _ t name (some recv) e hcall he hcode place _ hscope s.method hmisses.toAccepting hlast
  exact absurd (hreach.symm.trans hrefused) (by decide)

end CallResolution
