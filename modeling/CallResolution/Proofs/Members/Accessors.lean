import CallResolution.Proofs.Members.Broken

/-!
# Accessors along a run

An accessor is made for each key that is asked for, once; it is entered in the list of one
class, and nowhere else. An accessor of a method gets its name from the length of that list,
which it makes longer, so the names in it differ, whatever else the list holds.

How accessors stand in a universe is an invariant of moves, of which one makes an accessor and
the others leave all of them alone (`SoundAccessors.of_same`). That accessors are listed by
nothing but their classes is another one: chains and tables list what was declared, and no
move declares an accessor (`Populated.listsDirect`).

What was asked for is no part of a universe. `Requests` tells it from outside: a log of keys
and answers, with whatever makes no accessor in between. A request for a key that has an
accessor is answered with it, and any other one makes it, so the answers in a log are the
accessors that there are, and keys are answered alike exactly when they are the same.

Main statements: `Populated.soundAccessors` and `Populated.listsDirect` say how accessors
stand in a universe, and `Requested.mem_iff` that they are what was asked for.
-/

namespace CallResolution

/-! ## Names of accessors

A name is made of a fixed text and a number in decimal digits.
-/

/-- Zeros on the left do not change the value of a text of digits. -/
theorem Text.ofDigitChars_padZeros (width n : Nat) : Nat.ofDigitChars 10 (padZeros width (toString n)).toList 0 = n := by
  have hzeros (k : Nat) : (repeatText k "0").toList = List.replicate k '0' := by
    unfold repeatText
    induction k with
    | zero => rfl
    | succ k ih => simp [List.replicate_succ, String.join_cons, ih]
  rw [padZeros, String.toList_append, hzeros, Nat.ofDigitChars_append, Nat.ofDigitChars_replicate_zero, Nat.mul_zero,
    Nat.toString_eq_ofList_toDigits, String.toList_ofList, Nat.ofDigitChars_ten_toDigits]

/-- A new key is put behind the old ones. -/
theorem Assoc.put_of_lookup_none {κ α : Type} [DecidableEq κ] {k : κ} {l : List (κ × α)} (h : l.lookup k = none) (a : α) :
    put k a l = l ++ [(k, a)] := by
  induction l with
  | nil => rfl
  | cons p l ih =>
    rw [List.lookup_cons] at h
    split at h
    · cases h
    · rename_i hne
      rw [put, if_neg (by simpa using hne), ih h]
      rfl

namespace Universe

/-- Accessors with different numbers have different names. The number is written with three
digits at least, so the zeros on the left have to be told from the digits behind them. -/
theorem accessorName_injective : Function.Injective accessorName := by
  intro a b h
  have hpadded : Text.padZeros 3 (toString a) = Text.padZeros 3 (toString b) := by
    have hlists := congrArg String.toList h
    simp only [accessorName, String.toList_append] at hlists
    exact String.toList_inj.mp (List.append_cancel_left hlists)
  rw [← Text.ofDigitChars_padZeros 3 a, hpadded, Text.ofDigitChars_padZeros]

variable {mayFinish : Universe → TypeId → Prop} {u u' : Universe} {id : MethodId} {m m' acc : Method} {key : AccessorKey}

/-! ## How accessors stand in a universe

The invariant, and the one move that concerns it.
-/

/-- The accessors of a universe and their keys go together one by one, and each is listed by
its class at the place that its name says, in the order in which they were made. A class never
loses an accessor, so the place is the number of those before. -/
structure SoundAccessors (u : Universe) : Prop where
  /-- A key has one accessor. -/
  keys : (u.accessors.map (·.1)).Nodup
  /-- An accessor has one key. -/
  values : (u.accessors.map (·.2)).Nodup
  /-- What is made for a key is an accessor that forwards to its member. -/
  made : ∀ p ∈ u.accessors, ∃ m, u.method? p.2 = some m ∧ m.flags.isAccessor ∧ m.target = p.1.member
  /-- Every accessor was made for a key. -/
  keyed : ∀ id m, u.method? id = some m → m.flags.isAccessor → ∃ key, (key, id) ∈ u.accessors
  /-- A class hosts the accessors that it owns. -/
  hosted : ∀ cls, u.hosted cls = (u.accessors.map (·.2)).filter fun id => u.types.classOf (u.method id).owner = cls
  /-- The names of accessors of methods. -/
  named : ∀ cls i id, (u.hosted cls)[i]? = some id → (u.method id).isConstructor = false → (u.method id).name = accessorName i

/-- The callable that an accessor was added as. -/
theorem method?_withAccessor_self (u : Universe) (key : AccessorKey) (acc : Method) :
    (u.withAccessor key acc).method? ⟨u.methods.size + 1⟩ = some acc := by
  simp [method?, MethodId.none, withAccessor]

@[simp]
theorem withAccessor_types (u : Universe) (key : AccessorKey) (acc : Method) : (u.withAccessor key acc).types = u.types := rfl

/-- The callables beside an accessor that was added. -/
theorem method?_withAccessor (hm : u.method? id = some m) : (u.withAccessor key acc).method? id = some m := by
  obtain ⟨hid, hplace⟩ := method?_eq_some_iff.mp hm
  refine method?_eq_some_iff.mpr ⟨hid, ?_⟩
  rw [withAccessor, Array.getElem?_push, if_neg (Nat.ne_of_lt (Array.getElem?_eq_some_iff.mp hplace).1)]
  exact hplace

/-- An accessor of a method is named after the number of accessors that its class hosts so
far. -/
theorem MakesAccessor.name (h : u.MakesAccessor key acc) (hacc : acc.isConstructor = false) :
    acc.name = accessorName (u.hosted (u.types.classOf acc.owner)).length := by
  rcases h.made with ⟨-, rfl⟩ | ⟨-, mark, -, rfl⟩
  · rw [← membersOf_accessors]
    unfold methodAccessor
    rfl
  · cases hacc

/-- The accessors beside one that was made, which is the last. -/
theorem MakesAccessor.accessors (h : u.MakesAccessor key acc) :
    (u.withAccessor key acc).accessors = u.accessors ++ [(key, ⟨u.methods.size + 1⟩)] :=
  Assoc.put_of_lookup_none h.unmade _

/-- The accessors that classes host, beside one that was made. -/
theorem hosted_withAccessor (u : Universe) (key : AccessorKey) (acc : Method) (cls : TypeId) :
    (u.withAccessor key acc).hosted cls =
      u.hosted cls ++ if u.types.classOf acc.owner = cls then [⟨u.methods.size + 1⟩] else [] := by
  refine (hosted_put (u := u) rfl cls).trans ?_
  by_cases h : cls = u.types.classOf acc.owner
  · rw [if_pos h, if_pos h.symm, membersOf_accessors, ← h]
  · rw [if_neg h, if_neg (Ne.symm h), List.append_nil]

namespace SoundAccessors

/-- An accessor with a key exists. -/
theorem method?_isSome (h : u.SoundAccessors) {p : AccessorKey × MethodId} (hp : p ∈ u.accessors) :
    u.method? p.2 = some (u.method p.2) := by
  obtain ⟨m, hm, -⟩ := h.made p hp
  rw [method_eq hm, hm]

/-- Who hosts an accessor is told by its owner. -/
theorem hosted_congr (h : u.SoundAccessors) (hu : u.WellFormed) (types : u.types.Extends u'.types)
    (owner : ∀ p ∈ u.accessors, (u'.method p.2).owner = (u.method p.2).owner) (cls : TypeId) :
    ((u.accessors.map (·.2)).filter fun id => u'.types.classOf (u'.method id).owner = cls) = u.hosted cls := by
  rw [h.hosted]
  refine List.filter_congr fun id hid => ?_
  obtain ⟨p, hp, rfl⟩ := List.mem_map.mp hid
  rw [owner p hp, types.classOf (hu.method p.2).owner]

/-- An accessor is in the list of a class when it has a key and is owned by the class. -/
theorem mem_hosted (h : u.SoundAccessors) {cls : TypeId} :
    id ∈ u.hosted cls ↔ (∃ key, (key, id) ∈ u.accessors) ∧ u.types.classOf (u.method id).owner = cls := by
  rw [h.hosted, List.mem_filter, decide_eq_true_eq]
  refine and_congr_left fun _ => ⟨fun hid => ?_, fun hid => ?_⟩
  · obtain ⟨p, hp, rfl⟩ := List.mem_map.mp hid
    exact ⟨p.1, hp⟩
  · obtain ⟨key, hkey⟩ := hid
    exact List.mem_map.mpr ⟨_, hkey, rfl⟩

/-- The accessor of a key is found under it. -/
theorem lookup (h : u.SoundAccessors) {p : AccessorKey × MethodId} (hp : p ∈ u.accessors) : u.accessors.lookup p.1 = some p.2 := by
  cases hlookup : u.accessors.lookup p.1 with
  | none => exact absurd (List.lookup_eq_none_iff.mp hlookup p hp) (by simp)
  | some id => exact congrArg some (congrArg Prod.snd (List.inj_on_of_nodup_map h.keys (TypeStore.mem_of_lookup hlookup) hp rfl))

/-- A class hosts an accessor once. -/
theorem hosted_nodup (h : u.SoundAccessors) (cls : TypeId) : (u.hosted cls).Nodup :=
  h.hosted cls ▸ h.values.filter _

/-- Accessors stay as they are in a move that makes none. -/
theorem of_same (hs : u.SoundBodies) (hu : u.WellFormed) (h : Move mayFinish u u') (accessors : u'.accessors = u.accessors)
    (hosted : ∀ cls, u'.hosted cls = u.hosted cls) (hi : u.SoundAccessors) : u'.SoundAccessors := by
  have hsame {p : AccessorKey × MethodId} (hp : p ∈ u.accessors) : (u.method p.2).SameDeclaration (u'.method p.2) := by
    obtain ⟨m', hm', hsame⟩ := h.sameDeclaration hs hu (hi.method?_isSome hp)
    rwa [method_eq hm']
  refine ⟨accessors ▸ hi.keys, accessors ▸ hi.values, fun p hp => ?_, fun id m hm haccessor => ?_, fun cls => ?_,
    fun cls i id hid hmethod => ?_⟩
  · rw [accessors] at hp
    obtain ⟨m, hm, haccessor, htarget⟩ := hi.made p hp
    obtain ⟨m', hm', hsame⟩ := h.sameDeclaration hs hu hm
    exact ⟨m', hm', hsame.flags ▸ haccessor, hsame.target.trans htarget⟩
  · rw [accessors]
    cases h.origin hs hm with
    | kept _ old eq => exact hi.keyed id _ old (by rw [eq] at haccessor; exact haccessor)
    | read old reads move eq =>
      obtain ⟨params, returns, throws, typeParams, signature, hframe⟩ := reads.frame _
      rw [eq, hframe] at haccessor
      exact hi.keyed id _ old haccessor
    | declared new declared =>
      rw [declared.notAccessor] at haccessor
      cases haccessor
    | @accessor key new made move =>
      have hlookup := Assoc.lookup_put_self key ⟨u.methods.size + 1⟩ u.accessors
      have hput : u'.accessors = Assoc.put key ⟨u.methods.size + 1⟩ u.accessors := congrArg Universe.accessors move
      rw [← hput, accessors, made.unmade] at hlookup
      cases hlookup
  · rw [hosted, accessors]
    exact (hi.hosted_congr hu h.types_extends (fun p hp => (hsame hp).owner) cls).symm
  · rw [hosted] at hid
    obtain ⟨⟨key, hkey⟩, -⟩ := hi.mem_hosted.mp (List.mem_of_getElem? hid)
    have hdecl := hsame hkey
    rw [Method.isConstructor, hdecl.kind] at hmethod
    exact hdecl.name.trans (hi.named cls i id hid hmethod)

/-- The accessor that is made goes behind the others. Its key had none, its number is new, and
its name is that of the next place in its class; so every field of the invariant gets one more
case. -/
theorem withAccessor (hu : u.WellFormed) (made : u.MakesAccessor key acc) (hi : u.SoundAccessors) :
    (u.withAccessor key acc).SoundAccessors := by
  have hnew := method?_withAccessor_self u key acc
  have hfresh {p : AccessorKey × MethodId} (hp : p ∈ u.accessors) : p.2 ≠ ⟨u.methods.size + 1⟩ := by
    intro heq
    obtain ⟨m, hm, -⟩ := hi.made p hp
    rw [heq, method?_fresh] at hm
    cases hm
  have hold {p : AccessorKey × MethodId} (hp : p ∈ u.accessors) : (u.withAccessor key acc).method p.2 = u.method p.2 :=
    method_eq (method?_withAccessor (hi.method?_isSome hp))
  refine { keys := ?keys, values := ?values, made := ?made, keyed := ?keyed, hosted := ?hosted, named := ?named }
  case keys =>
    rw [made.accessors, List.map_append, List.map_singleton]
    refine List.Nodup.append hi.keys (List.nodup_singleton _) ?_
    rw [List.disjoint_singleton]
    intro hmem
    obtain ⟨p, hp, hkey⟩ := List.mem_map.mp hmem
    exact absurd (List.lookup_eq_none_iff.mp made.unmade p hp) (by simp [hkey])
  case values =>
    rw [made.accessors, List.map_append, List.map_singleton]
    refine List.Nodup.append hi.values (List.nodup_singleton _) ?_
    rw [List.disjoint_singleton]
    intro hmem
    obtain ⟨p, hp, hid⟩ := List.mem_map.mp hmem
    exact hfresh hp hid
  case made =>
    intro p hp
    rw [made.accessors] at hp
    rcases List.mem_append.mp hp with hp | hp
    · obtain ⟨m, hm, hmade⟩ := hi.made p hp
      exact ⟨m, method?_withAccessor hm, hmade⟩
    · rw [List.mem_singleton.mp hp]
      exact ⟨acc, hnew, made.made_eq.1, made.made_eq.2.1⟩
  case keyed =>
    intro id m hm haccessor
    rw [made.accessors]
    rcases method?_push_cases (u := u) rfl hm with hm | ⟨rfl, rfl⟩
    · obtain ⟨key', hkey'⟩ := hi.keyed id m hm haccessor
      exact ⟨key', List.mem_append_left _ hkey'⟩
    · exact ⟨key, List.mem_append_right _ (List.mem_singleton_self _)⟩
  case hosted =>
    intro cls
    rw [hosted_withAccessor, made.accessors, List.map_append, List.filter_append, List.map_singleton]
    congr 1
    · have htypes : u.types.Extends (u.withAccessor key acc).types := .refl _
      exact (hi.hosted_congr hu htypes (fun p hp => congrArg Method.owner (hold hp)) cls).symm
    · rw [List.filter_singleton, method_eq hnew]
      by_cases hcls : u.types.classOf acc.owner = cls <;> simp [hcls]
  case named =>
    intro cls i id hid hmethod
    rw [hosted_withAccessor] at hid
    by_cases hi' : i < (u.hosted cls).length
    · rw [List.getElem?_append_left hi'] at hid
      obtain ⟨⟨key', hkey'⟩, -⟩ := hi.mem_hosted.mp (List.mem_of_getElem? hid)
      rw [hold hkey'] at hmethod ⊢
      exact hi.named cls i id hid hmethod
    · rw [List.getElem?_append_right (Nat.le_of_not_lt hi')] at hid
      have hmem := List.mem_of_getElem? hid
      split at hmem
      · rename_i hcls
        obtain rfl := List.mem_singleton.mp hmem
        have hindex : i = (u.hosted cls).length := by
          have hlast := (List.getElem?_eq_some_iff.mp hid).1
          rw [if_pos hcls, List.length_singleton] at hlast
          omega
        rw [method_eq hnew] at hmethod ⊢
        rw [hindex, ← hcls]
        exact made.name hmethod
      · cases hmem

/-- Names of accessors of methods of one class differ, whatever else the class hosts. -/
theorem names_nodup (h : u.SoundAccessors) (cls : TypeId) :
    (((u.hosted cls).filter fun id => (u.method id).isConstructor = false).map fun id => (u.method id).name).Nodup := by
  rw [List.nodup_map_iff_inj_on ((h.hosted_nodup cls).filter _)]
  intro id hid id' hid' hname
  obtain ⟨hmem, hmethod⟩ := List.mem_filter.mp hid
  obtain ⟨hmem', hmethod'⟩ := List.mem_filter.mp hid'
  obtain ⟨i, hi⟩ := List.getElem?_of_mem hmem
  obtain ⟨j, hj⟩ := List.getElem?_of_mem hmem'
  rw [h.named cls i id hi (of_decide_eq_true hmethod), h.named cls j id' hj (of_decide_eq_true hmethod')] at hname
  rw [accessorName_injective hname, hj] at hi
  exact (Option.some.inj hi).symm

end SoundAccessors

/-- There are no accessors in an untouched universe. -/
theorem Untouched.soundAccessors (h : u.Untouched) : u.SoundAccessors := by
  have hhosted (cls : TypeId) : u.hosted cls = [] := by
    unfold hosted
    cases hlookup : u.members.lookup cls with
    | none => rfl
    | some c => exact (initial_declares.1 (cls, c) (h.members ▸ TypeStore.mem_of_lookup hlookup)).2.2.2.2.2
  refine ⟨?_, ?_, ?_, fun id m hm haccessor => ?_, fun cls => ?_, fun cls i id hid => ?_⟩
  · simp [h.accessors]
  · simp [h.accessors]
  · simp [h.accessors]
  · simp [(h.direct hm).1] at haccessor
  · simp [hhosted, h.accessors]
  · simp [hhosted] at hid

/-- How accessors stand in a universe along a run. -/
theorem Populated.soundAccessors (h : u.Populated) : u.SoundAccessors := by
  suffices hboth : u.SoundBodies ∧ u.SoundAccessors from hboth.2
  refine h.keeps (I := fun v => v.SoundBodies ∧ v.SoundAccessors) (fun v hv => ⟨hv.soundBodies.1, hv.soundAccessors⟩)
    fun {v w} hv hmove hi => ⟨Moves.soundBodies (.single ⟨hv, hmove⟩) hi.1, ?_⟩
  rcases hmove.accessors_cases with ⟨haccessors, hhosted⟩ | ⟨key, acc, -, made, rfl⟩
  · exact hi.2.of_same hi.1 hv hmove haccessors hhosted
  · exact hi.2.withAccessor hv made

/-! ## Accessors stand apart

What is declared and what is listed in tables is no accessor.
-/

/-- What classes and tables list are no accessors. -/
structure ListsDirect (u : Universe) : Prop where
  /-- The methods of classes, and those in tables. -/
  listed : ∀ id, u.Listed id → u.IsDirect id
  /-- The constructors of classes. -/
  ctors : ∀ cls c, u.members.lookup cls = some c → ∀ id ∈ c.ctors, u.IsDirect id

/-- What is no accessor does not become one. -/
theorem Move.isDirect (hs : u.SoundBodies) (hu : u.WellFormed) (h : Move mayFinish u u') (hhas : u.Has id) (hid : u.IsDirect id) :
    u'.IsDirect id := by
  obtain ⟨m, hm⟩ := Option.isSome_iff_exists.mp hhas
  obtain ⟨m', hm', hsame⟩ := h.sameDeclaration hs hu hm
  rw [IsDirect, method_eq hm] at hid
  rw [IsDirect, method_eq hm', hsame.flags]
  exact hid

/-- No move puts an accessor among what is listed. -/
theorem ListsDirect.move (hs : u.SoundBodies) (hu : u.WellFormed) (h : Move mayFinish u u') (hi : u.ListsDirect) :
    u'.ListsDirect := by
  have hlisted {id : MethodId} (hid : u.Listed id) : u'.IsDirect id :=
    h.isDirect hs hu (hs.methods id hid).has (hi.listed id hid)
  have hctor {cls : TypeId} {id : MethodId} (hid : id ∈ (u.entry cls).ctors) : u'.IsDirect id := by
    have hlookup := lookup_of_mem_ctors hid
    exact h.isDirect hs hu (hs.ctors cls _ hlookup id hid).has (hi.ctors cls _ hlookup id hid)
  rcases h.split with hmove | ⟨t, -, -, hfinish⟩
  · refine ⟨fun id hid => ?_, fun cls c hc id hid => ?_⟩
    · exact (hmove.listed_cases hu hid).elim hlisted (·.2)
    · exact ((hmove.follows hu hc).ctors id hid).elim hctor (·.2.2.2)
  · refine ⟨fun id hid => hlisted (listed_completeClass (hfinish ▸ hid)), fun cls c hc id hid => ?_⟩
    rcases completeClass_cases t u with ⟨-, hsame⟩ | ⟨-, hopen⟩
    · rw [hfinish, hsame] at hc
      exact hctor (entry_of_lookup hc ▸ hid)
    · rw [hfinish, hopen] at hc
      rcases lookup_put_cases (u := u) rfl hc with ⟨rfl, rfl⟩ | hc
      · exact hctor hid
      · exact hctor (entry_of_lookup hc ▸ hid)

/-- What is listed along a run are no accessors. -/
theorem Populated.listsDirect (h : u.Populated) : u.ListsDirect := by
  suffices hboth : u.SoundBodies ∧ u.ListsDirect from hboth.2
  refine h.keeps (I := fun v => v.SoundBodies ∧ v.ListsDirect) (fun v hv => ⟨hv.soundBodies.1, ?_, ?_⟩)
    fun {v w} hv hmove hi => ⟨Moves.soundBodies (.single ⟨hv, hmove⟩) hi.1, hi.2.move hi.1 hv hmove⟩
  · intro id hid
    obtain ⟨m, hm⟩ := Option.isSome_iff_exists.mp (hv.soundBodies.1.methods id hid).has
    rw [IsDirect, method_eq hm]
    exact (hv.direct hm).1
  · intro cls c hc id hid
    obtain ⟨m, hm⟩ := Option.isSome_iff_exists.mp (hv.soundBodies.1.ctors cls c hc id hid).has
    rw [IsDirect, method_eq hm]
    exact (hv.direct hm).1

/-! ## Requests

Logs of requests, and what they say of a universe.
-/

/-- Accessors are asked for one after another, and the log says what was asked for and
answered. Only members with a processed signature are asked for. In between whatever makes no
accessor may happen, so a universe has many logs that may have led to it, and what is shown
holds for each of them. -/
inductive Requests (u : Universe) : List (AccessorKey × MethodId) → Universe → Prop
  /-- Nothing was asked for yet. -/
  | start : Requests u [] u
  /-- Something else happens. -/
  | other {v w : Universe} {log : List (AccessorKey × MethodId)} (before : Requests u log v) (wellFormed : v.WellFormed)
      (move : Move anything v w) (accessors : w.accessors = v.accessors) : Requests u log w
  /-- An accessor is asked for. -/
  | ask {v w : Universe} {log : List (AccessorKey × MethodId)} {key : AccessorKey} {id : MethodId} {made : Bool}
      (before : Requests u log v) (wellFormed : v.WellFormed) (known : KnowsKey v.types key)
      (resolved : (v.method key.member).isResolved) (answer : accessor key v = ((id, made), w)) : Requests u (log ++ [(key, id)]) w

/-- The requests for accessors since before anything was declared. -/
def Requested (u : Universe) (log : List (AccessorKey × MethodId)) : Prop :=
  ∃ v : Universe, v.Untouched ∧ v.Requests log u

/-- Making an accessor is what happens when it is asked for the first time. -/
theorem MakesAccessor.request (h : u.MakesAccessor key acc) :
    accessor key u = ((⟨u.methods.size + 1⟩, true), u.withAccessor key acc) := by
  unfold accessor
  rw [get_bind_apply, h.unmade]
  dsimp only
  rw [bind_of_eq (signature_of_isResolved h.resolved), if_pos rfl, get_bind_apply]
  rcases h.made with ⟨hkind, rfl⟩ | ⟨hkind, mark, hmark, rfl⟩
  · rw [hkind]
    rfl
  · have hplaceholder : placeholder (u.method key.member).owner u = (mark, u) := by
      unfold placeholder
      rw [get_bind_apply, hmark]
      rfl
    rw [hkind]
    dsimp only
    rw [bind_of_eq hplaceholder]
    rfl

/-- Whoever asks for the accessor of a member with a processed signature gets one. -/
theorem SoundAccessors.answered (h : u.SoundAccessors) (hres : (u.method key.member).isResolved) :
    (accessor key u).1.1.isSome := by
  unfold accessor
  rw [get_bind_apply]
  cases hlookup : u.accessors.lookup key with
  | some id =>
    exact bne_iff_ne.mpr (method?_eq_some_iff.mp (h.method?_isSome (TypeStore.mem_of_lookup hlookup))).1
  | none =>
    dsimp only
    rw [bind_of_eq (signature_of_isResolved hres), if_pos rfl, get_bind_apply]
    cases key.kind <;> rfl

/-- There is a log of requests for accessors. -/
theorem Populated.requested (h : u.Populated) : ∃ log, u.Requested log := by
  obtain ⟨v, hv, hmoves⟩ := h
  suffices hlog : ∃ log, v.Requests log u from hlog.imp fun log h => ⟨v, hv, h⟩
  induction hmoves with
  | refl => exact ⟨[], .start⟩
  | @tail v w _ hmove ih =>
    obtain ⟨log, hlog⟩ := ih
    rcases hmove.2.accessors_cases with ⟨haccessors, -⟩ | ⟨key, acc, -, made, rfl⟩
    · exact ⟨log, hlog.other hmove.1 hmove.2 haccessors⟩
    · exact ⟨_, hlog.ask hmove.1 made.known made.resolved made.request⟩

/-- The first request for an accessor of a member with a processed signature makes it, once
there is a placeholder if the member is a constructor. The placeholder is asked for before,
which makes no accessor. -/
theorem accessor_makes (hu : u.WellFormed) (hkey : KnowsKey u.types key) (hres : (u.method key.member).isResolved)
    (hunmade : u.accessors.lookup key = none) :
    ∃ v acc, Moves nothing u v ∧ v.WellFormed ∧ v.accessors = u.accessors ∧ v.types.Knows acc.owner ∧
      v.MakesAccessor key acc ∧ accessor key u = accessor key v := by
  cases hkind : key.kind with
  | method =>
    exact ⟨u, u.methodAccessor key (u.method key.member), .refl, hu, rfl, hkey.1, ⟨hkey, hunmade, hres, .inl ⟨hkind, rfl⟩⟩, rfl⟩
  | constructor =>
    obtain ⟨hleads, hmark⟩ := placeholder_works (hu.method key.member).owner hu
    have hsame := hmark.same
    generalize hrun : placeholder (u.method key.member).owner u = r at hleads hmark hsame
    obtain ⟨mark, v⟩ := r
    dsimp only at hleads hmark hsame
    have hmethod : v.method key.member = u.method key.member := by
      rw [hsame]
      rfl
    have haccessors : v.accessors = u.accessors := by rw [hsame]
    have hmade : v.MakesAccessor key (ctorAccessor key (u.method key.member) mark) :=
      ⟨hkey.grows hleads.2.types.toGrows, haccessors ▸ hunmade, hmethod ▸ hres,
        .inr ⟨hkind, mark, hmethod ▸ hmark.found, hmethod ▸ rfl⟩⟩
    have howner : v.types.Knows (ctorAccessor key (u.method key.member) mark).owner :=
      hleads.2.types.knows (hu.method key.member).owner
    refine ⟨v, _, hleads.2.moves, hleads.1 hu, haccessors, howner, hmade, ?_⟩
    rw [hmade.request]
    unfold accessor
    rw [get_bind_apply, hunmade]
    dsimp only
    rw [bind_of_eq (signature_of_isResolved hres), if_pos rfl, get_bind_apply, hkind]
    dsimp only
    rw [bind_of_eq hrun]
    rfl

/-- Asking for the accessor of a member with a processed signature is done by moves. It is
remembered then, and the other ones stay. -/
theorem accessor_moves (hu : u.WellFormed) (hkey : KnowsKey u.types key) (hres : (u.method key.member).isResolved)
    {id : MethodId} {made : Bool} (h : accessor key u = ((id, made), u')) :
    Moves nothing u u' ∧ (id.isSome → u'.accessors.lookup key = some id) ∧
      (u'.accessors = u.accessors ∨ u'.accessors = Assoc.put key id u.accessors) := by
  cases hlookup : u.accessors.lookup key with
  | some found =>
    have hrun : accessor key u = ((found, false), u) := by
      unfold accessor
      rw [get_bind_apply, hlookup]
      rfl
    rw [hrun] at h
    cases h
    exact ⟨.refl, fun _ => hlookup, .inl rfl⟩
  | none =>
    obtain ⟨v, acc, hmoves, hv, haccessors, hknown, hmade, hsame⟩ := accessor_makes hu hkey hres hlookup
    rw [hsame, hmade.request] at h
    cases h
    refine ⟨hmoves.tail ⟨hv, .accessor hknown hmade⟩, fun _ => Assoc.lookup_put_self _ _ _, .inr ?_⟩
    rw [← haccessors]
    rfl

/-- Asking for accessors, too, is done by moves. -/
theorem Requests.moves {log : List (AccessorKey × MethodId)} (h : u.Requests log u') : Moves anything u u' := by
  induction h with
  | start => exact .refl
  | other _ hu hmove _ ih => exact ih.tail ⟨hu, hmove⟩
  | ask _ hu hknown hresolved hanswer ih => exact ih.trans (accessor_moves hu hknown hresolved hanswer).1.toAnything

namespace Requested

variable {log : List (AccessorKey × MethodId)}

/-- A universe where accessors are asked for was untouched once. -/
theorem populated (h : u.Requested log) : u.Populated :=
  h.imp fun _ h => ⟨h.1, h.2.moves⟩

/-- The accessors that there are go with what was answered. -/
theorem mem_iff (h : u.Requested log) {p : AccessorKey × MethodId} : p ∈ log ↔ p ∈ u.accessors := by
  obtain ⟨start, hstart, hrequests⟩ := h
  induction hrequests with
  | start => simp [hstart.accessors]
  | other _ _ _ haccessors ih => rw [haccessors, ih]
  | @ask v w log key id made hbefore hu hknown hresolved hanswer ih =>
    have hsound : v.SoundAccessors := Populated.soundAccessors ⟨start, hstart, hbefore.moves⟩
    obtain ⟨hmoves, hlookup, hput⟩ := accessor_moves hu hknown hresolved hanswer
    have hsome := hsound.answered hresolved
    rw [hanswer] at hsome
    rw [List.mem_append, List.mem_singleton, ih]
    refine ⟨?_, fun hp => ?_⟩
    · rintro (hp | rfl)
      · exact TypeStore.mem_of_lookup (hmoves.accessor (hsound.lookup hp))
      · exact TypeStore.mem_of_lookup (hlookup hsome)
    · rcases hput with hsame | hput
      · exact .inl (hsame ▸ hp)
      · exact mem_put (hput ▸ hp)

/-- There are as many accessors as there are keys of which one was asked for. -/
theorem accessorCount (h : u.Requested log) : u.accessorCount = (log.map (·.1)).dedup.length := by
  rw [Universe.accessorCount, ← List.length_map (·.1)]
  refine ((List.perm_ext_iff_of_nodup h.populated.soundAccessors.keys (List.nodup_dedup _)).mpr fun key => ?_).length_eq
  simp [h.mem_iff]

/-- One key, one accessor. -/
theorem same_iff (h : u.Requested log) {p q : AccessorKey × MethodId} (hp : p ∈ log) (hq : q ∈ log) : p.1 = q.1 ↔ p.2 = q.2 := by
  have hsound := h.populated.soundAccessors
  rw [h.mem_iff] at hp hq
  exact ⟨fun heq => congrArg Prod.snd (List.inj_on_of_nodup_map hsound.keys hp hq heq),
    fun heq => congrArg Prod.fst (List.inj_on_of_nodup_map hsound.values hp hq heq)⟩

end Requested

end Universe

end CallResolution
