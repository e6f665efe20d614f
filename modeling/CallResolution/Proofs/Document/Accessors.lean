import CallResolution.Proofs.Document.Program
import CallResolution.Proofs.Members.Accessors
import CallResolution.Proofs.Members.Chains
import CallResolution.Proofs.Resolve.Stages

/-!
# Accessors of documents

The run of a document asks for accessors again and again, and gets the same one for the same
key. Which accessor was asked for when is no part of a session, so it is told from outside:
`Universe.Requested` relates a universe to the logs of requests that may have led there. There
is such a log for every stage of a run, and what is said of accessors holds for each of them.

Main statement: `accessors_identified`.
-/

namespace CallResolution

open Session Universe

namespace Universe

/-- The member behind a callable: that to which it forwards, if it is an accessor, and else
the callable itself. -/
def behind (u : Universe) (id : MethodId) : MethodId :=
  if (u.method id).flags.isAccessor then (u.method id).target else id

/-- The accessors of a universe are those that a log says were asked for, one for each key. A
key names the member, the class that hosts the accessor and the receiver type; asking for a
key again gives the same accessor. -/
structure GivesAccessors (u : Universe) (log : List (AccessorKey × MethodId)) : Prop where
  /-- As many were made as there are keys. -/
  count : u.accessorCount = (log.map (·.1)).dedup.length
  /-- The same key has the same accessor, and different keys have different ones. -/
  same : ∀ p ∈ log, ∀ q ∈ log, p.1 = q.1 ↔ p.2 = q.2
  /-- Each answer is an accessor of the member of its key. -/
  made : ∀ p ∈ log, ∃ m, u.method? p.2 = some m ∧ m.flags.isAccessor ∧ m.target = p.1.member
  /-- Each accessor is an answer. -/
  asked : ∀ id m, u.method? id = some m → m.flags.isAccessor → ∃ key, (key, id) ∈ log

/-- An accessor is listed as an accessor by one class, and as nothing else by any. So no call
can be bound to one by finding it. -/
structure SetsApart (u : Universe) : Prop where
  /-- One class hosts it. -/
  hosted : ∀ id m, u.method? id = some m → m.flags.isAccessor → ∃! cls, id ∈ u.hosted cls
  /-- The class lists it once. -/
  once : ∀ cls, (u.hosted cls).Nodup
  /-- The accessors of methods that a class hosts have different names. -/
  names : ∀ cls, (((u.hosted cls).filter fun id => (u.method id).isConstructor = false).map fun id => (u.method id).name).Nodup
  /-- It is no overload of a method. -/
  overloads : ∀ t name, ∀ id ∈ u.overloads t name, (u.method id).flags.isAccessor = false
  /-- It is no constructor of a class. -/
  constructors : ∀ t, ∀ id ∈ u.constructors t, (u.method id).flags.isAccessor = false
  /-- It stands in no table. -/
  tables : ∀ table, u.HasTable table → ∀ id, table.Lists id → (u.method id).flags.isAccessor = false

/-- What is called in place of a bound call ends in the callable that the call is bound to,
and what is called by the constructor of an anonymous class ends in a constructor of its
superclass. -/
structure Ends (u : Universe) (r : Resolution) : Prop where
  /-- The call that takes its place. -/
  call : ∀ call ∈ r.lowered, u.behind call.callable = r.callable
  /-- The superclass constructor call. -/
  super : ∀ call ∈ r.superInvocation, ∃ info, u.types.classInfo? r.anonymous = some info ∧
    u.behind call.callable ∈ u.constructors info.super

variable {u : Universe} {log : List (AccessorKey × MethodId)}

/-- Accessors are what was asked for. -/
theorem Requested.givesAccessors (h : u.Requested log) : u.GivesAccessors log := by
  have hsound := h.populated.soundAccessors
  refine ⟨h.accessorCount, fun p hp q hq => h.same_iff hp hq, fun p hp => hsound.made p (h.mem_iff.mp hp), fun id m hm hacc => ?_⟩
  exact (hsound.keyed id m hm hacc).imp fun _ hkey => h.mem_iff.mpr hkey

/-- What a class lists among its constructors is no accessor. -/
theorem ListsDirect.constructors (h : u.ListsDirect) {t : TypeId} {id : MethodId} (hid : id ∈ u.constructors t) : u.IsDirect id :=
  h.ctors _ _ (lookup_of_mem_ctors hid) id hid

/-- Accessors stand apart along a run. -/
theorem Populated.setsApart (h : u.Populated) : u.SetsApart := by
  have hsound := h.soundAccessors
  have hdirect := h.listsDirect
  refine ⟨fun id m hm hacc => ?_, hsound.hosted_nodup, hsound.names_nodup, fun t name id hid => ?_,
    fun t id hid => hdirect.constructors hid, fun table htable id hid => hdirect.listed id ?_⟩
  · have hkey := hsound.keyed id m hm hacc
    exact ⟨_, hsound.mem_hosted.mpr ⟨hkey, rfl⟩, fun cls hcls => (hsound.mem_hosted.mp hcls).2.symm⟩
  · rw [h.overloads_eq] at hid
    have hmem : id ∈ (u.entry (u.types.classOf t)).methods := List.mem_of_mem_filter hid
    exact hdirect.listed id (.declared (lookup_of_entry rfl (.inl (List.ne_nil_of_mem hmem))) hmem)
  · cases htable with
    | ofClass found built => exact .table found built hid
    | ofArray mem => exact .array mem hid

/-- The member behind the accessor of a member. -/
theorem Populated.behind_of_forwards (h : u.Populated) {acc member : MethodId} (hforwards : u.Forwards acc member) :
    u.behind acc = member := by
  obtain ⟨key, hkey, rfl⟩ := hforwards
  obtain ⟨m, hm, haccessor, htarget⟩ := h.soundAccessors.made _ (TypeStore.mem_of_lookup hkey)
  rw [behind, method_eq hm, if_pos haccessor, htarget]

/-- A constructor that a class lists is behind itself. -/
theorem Populated.behind_constructor (h : u.Populated) {t : TypeId} {id : MethodId} (hid : id ∈ u.constructors t) :
    u.behind id = id := by
  have hdirect : (u.method id).flags.isAccessor = false := h.listsDirect.constructors hid
  rw [behind, hdirect, if_neg Bool.false_ne_true]

/-- Where the calls end that take the place of bound ones. -/
theorem Populated.ends (h : u.Populated) {r : Resolution} (hr : Lowers u r) : u.Ends r := by
  refine ⟨fun call hcall => ?_, fun call hcall => ?_⟩
  · rcases hr.call call hcall with hforwards | ⟨heq, -, hctor⟩
    · exact h.behind_of_forwards hforwards
    · rw [heq]
      exact h.behind_constructor hctor
  · obtain ⟨info, target, hinfo, htarget, hreaches⟩ := hr.super call hcall
    refine ⟨info, hinfo, ?_⟩
    rcases hreaches with rfl | hforwards
    · rwa [h.behind_constructor htarget]
    · rwa [h.behind_of_forwards hforwards]

end Universe

/-- At every stage of the run of a document, accessors are what was asked for, one for each
key; they are listed as accessors by one class each and as nothing else, and have different
names there; and what is called in place of a bound call ends in its callable, or in a
constructor of the superclass of an anonymous class. -/
theorem accessors_identified (d : Document) (f : Source.File) (base : Options) (n : Nat) :
    let st := ((d.load f).session base).stage n
    let u := st.world
    (∃ log, u.Requested log) ∧ (∀ log, u.Requested log → u.GivesAccessors log) ∧ u.SetsApart ∧
      ∀ i site, st.program.site? i = some site → u.Ends site.result := by
  intro st u
  have hfresh : ((d.load f).session base).Fresh := Loaded.fresh d f base
  have hpopulated : u.Populated := hfresh.stage_populated (Loaded.populated d f base) n
  refine ⟨hpopulated.requested, fun log h => h.givesAccessors, hpopulated.setsApart, fun i site hsite => ?_⟩
  exact hpopulated.ends (hfresh.stage_sites (Loaded.bodies d f base) n hsite).2

/-! ## Accessors that are shared

A document whose calls ask for the same accessors several times.
-/

/-- Calls of a private method and creations of a class with a private constructor, from a
class that lies in it. Of each there are two, so that the accessor of the first is there for
the second. -/
def sharedAccessorsDocument : Document where
  classes := [.mk { name := "p.A", constructors := [{ access := "private" }], methods := [
    { name := "m", access := "private", returns := "void" }] } [.mk { name := "In" } []]]
  program := [
    { id := "a", cls := "p.A.In", call := "m" },
    { id := "b", cls := "p.A.In", call := "m" },
    { id := "c", cls := "p.A.In", new := "p.A" },
    { id := "d", cls := "p.A.In", new := "p.A", body := some {} }]

/-- The accessors that the sites call, in order. -/
def Session.accessorCalls (st : Session) : List MethodId :=
  (st.program.sites.toList.flatMap fun site => site.result.lowered.toList ++ site.result.superInvocation.toList).filterMap
    fun call => if (st.world.method call.callable).flags.isAccessor then some call.callable else none

theorem sharedAccessorsDocument_calls :
    let st := ((sharedAccessorsDocument.load blankFile).session {}).stage 4
    st.accessorCalls.length = 4 ∧ st.accessorCalls.dedup.length = 2 ∧ st.world.accessorCount = 2 := by
  decide +kernel

/-- Four calls go through two accessors, one for each member. -/
theorem sharedAccessors_identified :
    let st := ((sharedAccessorsDocument.load blankFile).session {}).stage 4
    st.accessorCalls.length = 4 ∧ st.accessorCalls.dedup.length = 2 ∧
      ∃ log, st.world.Requested log ∧ (log.map (·.1)).dedup.length = 2 ∧ st.world.GivesAccessors log ∧ st.world.SetsApart := by
  have hcalls := sharedAccessorsDocument_calls
  have hidentified := accessors_identified sharedAccessorsDocument blankFile {} 4
  generalize ((sharedAccessorsDocument.load blankFile).session {}).stage 4 = st at hcalls hidentified ⊢
  obtain ⟨hlength, hshared, hcount⟩ := hcalls
  obtain ⟨⟨log, hlog⟩, hanswers, hapart, -⟩ := hidentified
  exact ⟨hlength, hshared, log, hlog, (hanswers log hlog).count.symm.trans hcount, hanswers log hlog, hapart⟩

end CallResolution
