import CallResolution.Proofs.Members.Distinct

/-!
# Growth of universes

While calls are bound a universe grows: types are added, signatures are processed, callables
and fields are made. What has been said stays said: a signature is processed once, and so a
member table is made once. `Universe.Keeps` is this relation, and `Universe.Extends` is the
part of it that also leaves class bodies open or finished and reports no fault.
`Universe.WellFormed` is what holds of every universe on the way: callables mention known
types only, members and tables list callables that exist, and a method that has a conflict in
a member table has the erased parameter types of that conflict.

`Universe.extension` packs both into an evolution in which no fault is reported. What the
parts of a universe are changed by is shown to move along it: `onTypes_extends`,
`modifyMethod_extends`, `allocMethod_extends`, `modifyMembers_extends` and others. Functions
on universes are then followed along it by composing these, and no later proof looks at the
arrays behind them.

Three of the fields of `Keeps` are what later arguments turn on.

* `later`, of the relation `Retains` that it extends, and `texts`: a processed signature never
  changes, and a text that was processed on the way was read in some store between the two. So
  whatever was said of a callable with a processed signature is still so, and what was not
  processed yet can be compared with what it would have been.
* `tables`: a table is left alone or made, and none is left half made. A table that is being
  made is marked, so a universe in the middle of it is not an extension of that before;
  `Keeps.make` closes this gap, and `withTable_extends` is the step for the whole of it.
* `genuine` and `tidy` are invariants of some universes only. They are kept along with the
  rest because the universes in between are not at hand any more where they are needed.

What is read off a universe is judged by few of its parts: a conflict by types and callables
(`Keeps.soundShadow`), members by the class behind a type (`membersOf_congr`). The lemmas of
the last sections say for each part what the others are changed by.
-/

namespace CallResolution

/-! ## Member tables on the way

A table is unmade, being made, or made, and goes through these states once.
-/

/-- How far a table may have come later: it is left alone, or it was made in the meantime.
None is left half made: a table that is being made in the later universe was being made in the
earlier one, too. So a mark that is seen in the middle of a request was set by a request
around it. -/
def TableState.Later (s s' : TableState) : Prop :=
  s' = s ∨ s = .unbuilt ∧ ∃ table, s' = .built table

namespace TableState

variable {s s' s'' : TableState}

theorem Later.refl (s : TableState) : Later s s :=
  .inl rfl

/-- A table that is made or being made is left alone. -/
theorem Later.eq_of_ne (h : Later s s') (hs : s ≠ .unbuilt) : s' = s :=
  h.resolve_right fun hmade => hs hmade.1

/-- A table that is being made later on was being made all along. -/
theorem Later.eq_building (h : Later s s') (hs' : s' = .building) : s = .building := by
  rcases h with rfl | ⟨-, table, rfl⟩
  · exact hs'
  · cases hs'

theorem Later.trans (h : Later s s') (h' : Later s' s'') : Later s s'' := by
  rcases h with rfl | ⟨hs, table, rfl⟩
  · exact h'
  · exact .inr ⟨hs, table, h'.eq_of_ne (by simp)⟩

end TableState

namespace Universe

/-! ## Reports

A broken signature is reported when it is processed, whoever asked for it. All other errors
are faults of the call that is bound, and they are counted apart from these.
-/

/-- Whether a diagnostic is an error about something other than a signature. -/
def isFault (d : Diagnostic) : Bool :=
  d.severity = .error && d.code ≠ .unresolvedSignature

/-- The errors that were reported so far, apart from those about signatures. -/
def faults (u : Universe) : List Diagnostic :=
  u.reports.toList.filter isFault

/-! ## Tables of classes and arrays

Classes keep their tables with their members. Arrays have no members of their own: their
tables are recorded beside, and made of that of the root class.
-/

/-- How far the table of an array has come: it is recorded, or it waits for that of the root
class. -/
def arrayState : Option MemberTable → TableState → TableState
  | some table, _ => .built table
  | none, .building => .building
  | none, _ => .unbuilt

/-- How far the member table of a type has come. -/
def tableState (u : Universe) (t : TypeId) : TableState :=
  if u.types.isArray t then arrayState (u.arrayTables.lookup t) (u.membersOf .object).table
  else (u.membersOf (u.types.classOf t)).table

/-- An array has the table that was recorded, or waits for that of the root class. -/
theorem tableState_of_isArray {u : Universe} {t : TypeId} (h : u.types.isArray t) :
    u.tableState t = arrayState (u.arrayTables.lookup t) (u.membersOf .object).table :=
  if_pos h

/-- A class has the table that was recorded. -/
theorem tableState_of_not_isArray {u : Universe} {t : TypeId} (h : u.types.isArray t = false) :
    u.tableState t = (u.membersOf (u.types.classOf t)).table := by
  unfold tableState
  rw [h]
  rfl

/-- The table of a class is being made. -/
def IsMaking (u : Universe) (cls : TypeId) : Prop :=
  ∃ c, u.members.lookup cls = some c ∧ c.table = .building

/-! ## Parameters

No callable has a parameter of the bad type: a text with one gives a broken signature. So an
argument that is accepted is accepted for a type.
-/

/-- No callable has a parameter of the bad type, no placeholder is the bad type, and no class
lies in it. -/
structure Genuine (u : Universe) : Prop where
  /-- The classes around classes. -/
  housed : u.types.Housed
  /-- The parameter types. -/
  params : ∀ (i : Nat) m, u.methods[i]? = some m → ∀ t ∈ m.params, u.types.Genuine t
  /-- The placeholders. -/
  placeholders : ∀ p ∈ u.placeholders, u.types.Genuine p.2

/-- Nothing is bad when nothing was, and nothing is that is new. -/
theorem Genuine.evolve {u u' : Universe} (hu : u.Genuine) (types : u.types.Grows u'.types)
    (methods : ∀ (i : Nat) m, u'.methods[i]? = some m →
      (∃ m₀, u.methods[i]? = some m₀ ∧ m.params = m₀.params) ∨ ∀ t ∈ m.params, u'.types.Genuine t)
    (placeholders : ∀ p ∈ u'.placeholders, p ∈ u.placeholders ∨ u'.types.Genuine p.2) : u'.Genuine where
  housed := types.housed hu.housed
  params i m hm t ht := by
    rcases methods i m hm with ⟨m₀, hm₀, heq⟩ | hnew
    · exact types.genuine (hu.params i m₀ hm₀ t (heq ▸ ht))
    · exact hnew t ht
  placeholders p hp := by
    rcases placeholders p hp with hold | hnew
    · exact types.genuine (hu.placeholders p hold)
    · exact hnew

/-- Nothing is bad among the same callables and placeholders when the types grow. -/
theorem Genuine.of_same {u u' : Universe} (hu : u.Genuine) (types : u.types.Grows u'.types)
    (methods : u'.methods = u.methods) (placeholders : u'.placeholders = u.placeholders) : u'.Genuine :=
  hu.evolve types (fun _ m hm => .inl ⟨m, methods ▸ hm, rfl⟩) fun _ hp => .inl (placeholders ▸ hp)

/-! ## Extensions

Two relations between universes. Both compose, and what is known of a callable, a type or a
table is carried along them.
-/

/-- A universe that has all of another one: what was said of types, processed signatures and
tables is still so. It may have more of everything, and class bodies may have been finished.
This is what all of a run keeps, while `Extends` is what a part of one binding keeps. -/
structure Keeps (u u' : Universe) : Prop extends Retains u u' where
  /-- Texts stay, or were processed on the way. -/
  texts : ∀ id m text m', u.method? id = some m → m.signature = .pending text → u'.method? id = some m' →
    m'.signature = .pending text ∨ m.ReadBetween u.types u'.types id text m'
  /-- Tables are left alone or made. -/
  tables : ∀ t, u.types.Knows t → (u.tableState t).Later (u'.tableState t)
  /-- No parameter of the bad type comes in. -/
  genuine : u.Genuine → u'.Genuine
  /-- No table is left half made. -/
  making : ∀ cls, u'.IsMaking cls → u.IsMaking cls
  /-- What classes list stays in order. -/
  tidy : u.Tidy → u'.Tidy

/-- A universe that has all of another one, with class bodies as open as they were and no
further fault. This is what a part of the binding of one call does that cannot fail; a broken
signature is reported on the way, but it is no fault of the call. -/
structure Extends (u u' : Universe) : Prop extends Keeps u u' where
  /-- Bodies of known classes stay open or finished. -/
  complete : ∀ t, u.types.Knows t → u'.isComplete t = u.isComplete t
  /-- No fault was reported. -/
  faults : u'.faults = u.faults

namespace Keeps

variable {u u' u'' : Universe}

/-- Texts stay where callables do. -/
theorem texts_of_same (h : ∀ id m, u.method? id = some m → u'.method? id = some m) (id : MethodId) (m : Method)
    (text : SignatureText) (m' : Method) (hm : u.method? id = some m) (hsig : m.signature = .pending text)
    (hm' : u'.method? id = some m') : m'.signature = .pending text ∨ m.ReadBetween u.types u'.types id text m' := by
  cases (h id m hm).symm.trans hm'
  exact .inl hsig

/-- The callables of universes that have the same ones. -/
theorem method?_of_same (methods : u'.methods = u.methods) (id : MethodId) (m : Method) (hm : u.method? id = some m) :
    u'.method? id = some m := by
  unfold Universe.method? at hm ⊢
  rwa [methods]

/-- A universe that differs from another one in nothing that is kept. -/
theorem of_same (types : u'.types = u.types) (methods : u'.methods = u.methods) (members : u'.members = u.members)
    (arrayTables : u'.arrayTables = u.arrayTables) (placeholders : u'.placeholders = u.placeholders) : Keeps u u' := by
  refine ⟨.of_same types methods, texts_of_same (method?_of_same methods), fun t _ => .inl ?_,
    fun hu => hu.of_same (types ▸ .refl _) methods placeholders, fun cls h => ?_, fun ht => ht.of_same types methods members⟩
  · unfold tableState membersOf freshMembers
    rw [types, members, arrayTables]
  · unfold IsMaking
    rwa [← members]

theorem refl (u : Universe) : Keeps u u :=
  of_same rfl rfl rfl rfl rfl

theorem trans (h : Keeps u u') (h' : Keeps u' u'') : Keeps u u'' where
  toRetains := h.toRetains.trans h'.toRetains
  texts id m text m'' hm hsig hm'' := by
    obtain ⟨m', hm', hl⟩ := h.method? hm
    rcases h.texts id m text m' hm hsig hm' with hpending | ⟨s₁, hs₁, hto, hfrom, hshows⟩
    · refine (h'.texts id m' text m'' hm' hpending hm'').imp_right ?_
      rintro ⟨s₁, hs₁, hto, hfrom, hshows⟩
      rw [hl.kind, hl.owner] at hfrom hshows
      exact ⟨s₁, hs₁, h.types.trans hto, hfrom, hshows⟩
    · obtain ⟨_, hm₂, hl'⟩ := h'.method? hm'
      cases hm₂.symm.trans hm''
      exact .inr ⟨s₁, hs₁, hto, hfrom.trans h'.types, hshows.later hl'⟩
  tables t ht := (h.tables t ht).trans (h'.tables t (h.types.knows ht))
  genuine hu := h'.genuine (h.genuine hu)
  making cls hmaking := h.making cls (h'.making cls hmaking)
  tidy ht := h'.tidy (h.tidy ht)

end Keeps

namespace Extends

variable {u u' u'' : Universe}

theorem refl (u : Universe) : Extends u u :=
  ⟨.refl u, fun _ _ => rfl, rfl⟩

theorem trans (h : Extends u u') (h' : Extends u' u'') : Extends u u'' where
  toKeeps := h.toKeeps.trans h'.toKeeps
  complete t ht := (h'.complete t (h.types.knows ht)).trans (h.complete t ht)
  faults := h'.faults.trans h.faults

end Extends

/-- A callable that exists has no parameter of the bad type. -/
theorem Genuine.method {u : Universe} (hu : u.Genuine) (id : MethodId) : ∀ t ∈ (u.method id).params, u.types.Genuine t := by
  unfold Universe.method method?
  split
  · exact fun t ht => nomatch ht
  · cases hm : u.methods[id.index - 1]? with
    | none => exact fun t ht => nomatch ht
    | some m => exact hu.params _ m hm

/-- The class around a class is not bad. -/
theorem Genuine.outer {u : Universe} (hu : u.Genuine) {t : TypeId} {info : ClassInfo} (h : u.types.classInfo? t = some info) :
    u.types.Genuine info.outer := by
  obtain ⟨slot, -, hinfo⟩ := Option.bind_eq_some_iff.mp h
  exact hu.housed slot info hinfo

/-- A processed signature stays. -/
theorem Keeps.later {u u' : Universe} (h : Keeps u u') {id : MethodId} (hr : (u.method id).isResolved) :
    (u.method id).Later (u'.method id) := by
  obtain ⟨m', hm', hl⟩ := h.method? (method?_of_isResolved hr)
  rwa [method_eq hm']

/-- A callable with a processed signature keeps it. -/
theorem Keeps.isResolved {u u' : Universe} (h : Keeps u u') {id : MethodId} (hr : (u.method id).isResolved) :
    (u'.method id).isResolved :=
  ((h.later hr).resolved hr).1

/-! ## Well-formed universes

What a universe mentions exists, and tables are sound. The fields are about one callable, one
class or one table each, so that a change is judged by what it touches.
-/

/-- A callable exists. -/
def Has (u : Universe) (id : MethodId) : Prop :=
  (u.method? id).isSome

/-- A callable that exists does so later. -/
theorem Keeps.has {u u' : Universe} (h : Keeps u u') {id : MethodId} (hid : u.Has id) : u'.Has id := by
  obtain ⟨m, hm⟩ := Option.isSome_iff_exists.mp hid
  obtain ⟨m', hm', -⟩ := h.method? hm
  exact Option.isSome_iff_exists.mpr ⟨m', hm'⟩

/-- The method of an overload exists, and every conflict has its erased parameter types. So a
conflict may take the place of the method without another look at the arguments, up to
erasure; whether it accepts them is another matter. -/
structure SoundShadow (u : Universe) (s : Shadow) : Prop where
  /-- The method exists. -/
  has : u.Has s.method
  /-- The signatures of the conflicts agree with that of the method. -/
  conflicts : ∀ c ∈ s.conflicts, u.sameSignature s.method c

/-- A callable exists and has a name. -/
def IsNamed (u : Universe) (id : MethodId) (name : String) : Prop :=
  ∃ m, u.method? id = some m ∧ m.name = name

theorem IsNamed.has {u : Universe} {id : MethodId} {name : String} (h : u.IsNamed id name) : u.Has id :=
  Option.isSome_iff_exists.mpr (h.imp fun _ hm => hm.1)

theorem IsNamed.name_eq {u : Universe} {id : MethodId} {name : String} (h : u.IsNamed id name) : (u.method id).name = name := by
  obtain ⟨m, hm, hname⟩ := h
  rw [method_eq hm, hname]

/-- A callable keeps its name. -/
theorem Keeps.isNamed {u u' : Universe} (h : Keeps u u') {id : MethodId} {name : String} (hid : u.IsNamed id name) :
    u'.IsNamed id name := by
  obtain ⟨m, hm, hname⟩ := hid
  obtain ⟨m', hm', hl⟩ := h.method? hm
  exact ⟨m', hm', hl.name.trans hname⟩

/-- The methods in a table stand under their names, each name once. -/
structure Filed (u : Universe) (t : MemberTable) : Prop where
  /-- The names. -/
  names : ∀ p ∈ t.methods, ∀ s ∈ p.2, u.IsNamed s.method p.1
  /-- No name stands there twice. -/
  nodup : (t.methods.map (·.1)).Nodup

/-- The overloads in a table are sound, and stand under their names. -/
structure SoundTable (u : Universe) (t : MemberTable) : Prop where
  /-- The overloads. -/
  shadows : t.All u.SoundShadow
  /-- The names. -/
  filed : u.Filed t

/-- A table is judged by types and callables alone. -/
theorem SoundTable.of_same {u u' : Universe} {t : MemberTable} (ht : u.SoundTable t) (types : u'.types = u.types)
    (methods : u'.methods = u.methods) : u'.SoundTable t := by
  have hfound (id : MethodId) : u'.method? id = u.method? id := by
    unfold method?
    rw [methods]
  refine ⟨fun p hp s hs => ?_, ⟨fun p hp s hs => ?_, ht.filed.nodup⟩⟩
  · have hsound := ht.shadows p hp s hs
    refine ⟨?_, fun c hc => ?_⟩
    · unfold Has
      rw [hfound]
      exact hsound.has
    · have hsame := hsound.conflicts c hc
      unfold sameSignature method at hsame ⊢
      rwa [hfound, hfound, types]
  · unfold IsNamed
    rw [hfound]
    exact ht.filed.names p hp s hs

/-- What holds of every universe while calls are bound. Callables mention known types, whether
their signatures are processed or not: a draft that takes the place of a text was made in the
store of the universe. -/
structure WellFormed (u : Universe) : Prop where
  /-- The types are well formed. -/
  types : u.types.WellFormed
  /-- Callables mention known types. -/
  methods : ∀ (i : Nat) m, u.methods[i]? = some m → m.Known u.types
  /-- Members belong to known classes. -/
  keys : ∀ p ∈ u.members, u.types.Knows p.1
  /-- The methods of classes exist. -/
  declared : ∀ p ∈ u.members, ∀ id ∈ p.2.methods, u.Has id
  /-- The tables of classes are sound. -/
  tables : ∀ p ∈ u.members, ∀ t, p.2.table = .built t → u.SoundTable t
  /-- The tables of arrays are sound. -/
  arrayTables : ∀ p ∈ u.arrayTables, u.SoundTable p.2
  /-- The cloning method of arrays exists once it is made. -/
  arrayClone : u.arrayClone.isSome → u.IsNamed u.arrayClone "clone"
  /-- Placeholders are known. -/
  placeholders : ∀ p ∈ u.placeholders, u.types.Knows p.2

variable {u u' : Universe}

/-- A callable that exists mentions known types. -/
theorem WellFormed.method? (hu : u.WellFormed) {id : MethodId} {m : Method} (h : u.method? id = some m) :
    m.Known u.types := by
  unfold Universe.method? at h
  split at h
  · cases h
  · exact hu.methods _ m h

/-- A number without a callable gives one that mentions no type. -/
theorem WellFormed.method (hu : u.WellFormed) (id : MethodId) : (u.method id).Known u.types := by
  unfold Universe.method
  cases hm : u.method? id with
  | none => exact ⟨hu.types.knows_none, by simp, hu.types.knows_none, by simp, by simp⟩
  | some m => exact hu.method? hm

/-- What has the same signature has it later. -/
theorem Keeps.sameSignature (h : Keeps u u') (hu : u.WellFormed) {a b : MethodId} (hab : u.sameSignature a b) :
    u'.sameSignature a b := by
  unfold Universe.sameSignature at *
  simp only [Bool.and_eq_true, decide_eq_true_eq] at hab ⊢
  obtain ⟨⟨ha, hb⟩, heq⟩ := hab
  have erase {id : MethodId} (hr : (u.method id).isResolved) :
      (u'.method id).params.map u'.types.erased = (u.method id).params.map u.types.erased := by
    rw [((h.later hr).resolved hr).2.1]
    exact List.map_congr_left fun p hp => h.types.erased hu.types ((hu.method id).params p hp)
  exact ⟨⟨h.isResolved ha, h.isResolved hb⟩, by rw [erase ha, erase hb, heq]⟩

/-- A sound overload stays sound. -/
theorem Keeps.soundShadow (h : Keeps u u') (hu : u.WellFormed) {s : Shadow} (hs : u.SoundShadow s) : u'.SoundShadow s :=
  ⟨h.has hs.has, fun c hc => h.sameSignature hu (hs.conflicts c hc)⟩

/-- A sound table stays sound. -/
theorem Keeps.soundTable (h : Keeps u u') (hu : u.WellFormed) {t : MemberTable} (ht : u.SoundTable t) :
    u'.SoundTable t where
  shadows p hp s hs := h.soundShadow hu (ht.shadows p hp s hs)
  filed := ⟨fun p hp s hs => h.isNamed (ht.filed.names p hp s hs), ht.filed.nodup⟩

/-- A universe is well formed when it keeps what a well-formed one has and all that is new in
it is in order. Whatever changes a universe goes through this statement, so what is asked of
the parts of a universe is listed here once. -/
theorem WellFormed.evolve (hu : u.WellFormed) (he : u.Keeps u') (types : u'.types.WellFormed)
    (methods : ∀ (i : Nat) m, u'.methods[i]? = some m → u.methods[i]? = some m ∨ m.Known u'.types)
    (members : ∀ p ∈ u'.members, p ∈ u.members ∨
      u'.types.Knows p.1 ∧ (∀ id ∈ p.2.methods, u'.Has id) ∧ ∀ t, p.2.table = .built t → u'.SoundTable t)
    (arrayTables : ∀ p ∈ u'.arrayTables, p ∈ u.arrayTables ∨ u'.SoundTable p.2)
    (arrayClone : u'.arrayClone = u.arrayClone ∨ u'.IsNamed u'.arrayClone "clone")
    (placeholders : ∀ p ∈ u'.placeholders, p ∈ u.placeholders ∨ u'.types.Knows p.2) : u'.WellFormed where
  types := types
  methods i m h := by
    rcases methods i m h with h | h
    · exact (hu.methods i m h).grows he.types.toGrows
    · exact h
  keys p hp := by
    rcases members p hp with h | h
    · exact he.types.knows (hu.keys p h)
    · exact h.1
  declared p hp id hid := by
    rcases members p hp with h | h
    · exact he.has (hu.declared p h id hid)
    · exact h.2.1 id hid
  tables p hp t ht := by
    rcases members p hp with h | h
    · exact he.soundTable hu (hu.tables p h t ht)
    · exact h.2.2 t ht
  arrayTables p hp := by
    rcases arrayTables p hp with h | h
    · exact he.soundTable hu (hu.arrayTables p h)
    · exact h
  arrayClone hsome := by
    rcases arrayClone with h | h
    · rw [h] at hsome ⊢
      exact he.isNamed (hu.arrayClone hsome)
    · exact h
  placeholders p hp := by
    rcases placeholders p hp with h | h
    · exact he.types.knows (hu.placeholders p h)
    · exact h

/-! ## The evolution of universes

The functions that change a single part of a universe, one lemma for each. Every other
function is put together from them.
-/

/-- Well-formed universes, which are extended. -/
def extension : Evolution Universe where
  Sound := WellFormed
  Leads u u' := (u.WellFormed → u'.WellFormed) ∧ u.Extends u'
  refl u := ⟨id, .refl u⟩
  trans h h' := ⟨fun hs => h'.1 (h.1 hs), h.2.trans h'.2⟩
  sound h := h.1

/-- The members of a known class stay when the types are extended. -/
theorem membersOf_extends {types : TypeStore} (he : u.types.Extends types) (hu : u.types.WellFormed) {t : TypeId}
    (ht : u.types.Knows t) : { u with types }.membersOf t = u.membersOf t := by
  unfold membersOf freshMembers
  simp only [he.classOf ht, he.classInfo hu (hu.knows_classOf ht)]

/-- The table of a known type stays when the types are extended. -/
theorem tableState_extends {types : TypeStore} (he : u.types.Extends types) (hu : u.types.WellFormed) {t : TypeId}
    (ht : u.types.Knows t) : { u with types }.tableState t = u.tableState t := by
  have hroot := membersOf_extends he hu (hu.knows_predefined (t := .object) (by decide))
  have hcls := membersOf_extends he hu (hu.knows_classOf ht)
  unfold tableState TypeStore.isArray
  rw [hroot, he.shape ht, he.classOf ht, hcls]

/-- A step on types is a step on the universe. -/
theorem onTypes_extends {α : Type} {x : TypeM α} {P : α → TypeStore → Prop} (h : Works TypeStore.extension x u.types P) :
    Works extension (onTypes x) u fun a u' => P a u'.types ∧ u' = { u with types := u'.types } := by
  intro hu
  obtain ⟨⟨hw, he, -⟩, hp⟩ := h hu.types
  have hext : u.Extends { u with types := (x u.types).2 } :=
    ⟨⟨⟨he, fun _ m h => ⟨m, h, .refl m⟩⟩, Keeps.texts_of_same (fun _ _ h => h),
      fun t ht => .inl (tableState_extends he hu.types ht), fun h => h.of_same he.toGrows rfl rfl, fun _ h => h,
      fun h => h.evolve ⟨he, fun _ m h => ⟨m, h, .refl m⟩⟩ (hw hu.types) (fun _ _ h => .inl h) fun _ h => .inl h⟩,
      fun t ht => congrArg _ (membersOf_extends he hu.types ht), rfl⟩
  refine ⟨⟨fun _ => ?_, hext⟩, hp, rfl⟩
  exact hu.evolve hext.toKeeps (hw hu.types) (fun _ _ h => .inl h) (fun _ h => .inl h) (fun _ h => .inl h) (.inl rfl) (fun _ h => .inl h)

/-- Reporting something that is no fault. -/
theorem report_extends {d : Diagnostic} (hd : isFault d = false) :
    Works extension (report d) u fun _ u' => u'.types = u.types ∧ u'.methods = u.methods := by
  refine Works.change ?_ ⟨rfl, rfl⟩
  have hext : u.Extends { u with reports := u.reports.push d } := by
    refine ⟨.of_same rfl rfl rfl rfl rfl, fun _ _ => rfl, ?_⟩
    simp [faults, hd]
  refine ⟨fun hu => ?_, hext⟩
  exact hu.evolve hext.toKeeps hu.types (fun _ _ h => .inl h) (fun _ h => .inl h) (fun _ h => .inl h) (.inl rfl) (fun _ h => .inl h)

/-- Callables after one of them was changed. -/
theorem method?_modify_cases {u u' : Universe} {id id' : MethodId} {f : Method → Method} {m m' : Method}
    (methods : u'.methods = u.methods.modify (id.index - 1) f) (hm : u.method? id' = some m)
    (hm' : u'.method? id' = some m') :
    (id'.index - 1 ≠ id.index - 1 ∧ m' = m) ∨ id'.index - 1 = id.index - 1 ∧ m' = f m := by
  have hi := getElem?_of_method? hm
  have hi' := getElem?_of_method? hm'
  rw [methods, Array.getElem?_modify, hi] at hi'
  split at hi'
  · rename_i heq
    exact .inr ⟨heq.symm, by simpa using hi'.symm⟩
  · rename_i hne
    exact .inl ⟨fun h => hne h.symm, by simpa using hi'.symm⟩

/-- Changing a callable beside its signature, such that what was said of it stays. -/
theorem modifyMethod_extends {id : MethodId} {f : Method → Method}
    (later : ∀ m, u.methods[id.index - 1]? = some m → m.Later (f m))
    (known : ∀ m, u.methods[id.index - 1]? = some m → m.Known u.types → (f m).Known u.types)
    (signature : ∀ m, (f m).signature = m.signature) (params : ∀ m, (f m).params = m.params) :
    extension.Leads u { u with methods := u.methods.modify (id.index - 1) f } := by
  have hretains : u.Retains { u with methods := u.methods.modify (id.index - 1) f } := by
    refine ⟨.refl _, fun i m h => ?_⟩
    show ∃ m', (u.methods.modify (id.index - 1) f)[i]? = some m' ∧ _
    rw [Array.getElem?_modify]
    split
    · rename_i hi
      exact ⟨f m, by simp [h], later m (hi ▸ h)⟩
    · exact ⟨m, h, .refl m⟩
  have hknown (hold : ∀ (i : Nat) m, u.methods[i]? = some m → m.Known u.types) (i : Nat) (m : Method)
      (h : (u.methods.modify (id.index - 1) f)[i]? = some m) : u.methods[i]? = some m ∨ m.Known u.types := by
    refine (TypeStore.getElem?_modify_cases h).imp_right ?_
    rintro ⟨rfl, m', hm', rfl⟩
    exact known m' hm' (hold _ m' hm')
  have hext : u.Extends { u with methods := u.methods.modify (id.index - 1) f } := by
    refine ⟨⟨hretains, fun id' m text m' hm hsig hm' => .inl ?_, fun _ _ => .refl _, fun hu => ?_, fun _ h => h, fun ht =>
      ht.evolve hretains ht.types (hknown ht.callables) fun _ h => .inl h⟩, fun _ _ => rfl, rfl⟩
    · rcases method?_modify_cases rfl hm hm' with ⟨-, rfl⟩ | ⟨-, rfl⟩
      · exact hsig
      · rw [signature, hsig]
    · refine hu.evolve (.refl _) (fun i m h => .inl ?_) fun _ hp => .inl hp
      rcases TypeStore.getElem?_modify_cases h with h | ⟨rfl, m₀, hm₀, rfl⟩
      · exact ⟨m, h, rfl⟩
      · exact ⟨m₀, hm₀, params m₀⟩
  exact ⟨fun hu => hu.evolve hext.toKeeps hu.types (hknown hu.methods) (fun _ h => .inl h) (fun _ h => .inl h) (.inl rfl)
    (fun _ h => .inl h), hext⟩

/-- Processing the text of a callable: the types of the draft are made, and the callable says
what became of the text. This is the only change of a callable that later universes do not
judge by what was there before, so `Keeps.texts` records where it was read. -/
theorem readText_extends {id : MethodId} {m : Method} {text : SignatureText} {f : Method → Method} {reports : Array Diagnostic}
    {d : SignatureDraft} {types : TypeStore} (hu : u.WellFormed) (hm : u.method? id = some m)
    (hsig : m.signature = .pending text) (hdraft : SignatureDraft.ofText id m.kind m.owner text u.types = (d, types))
    (hwf : types.WellFormed) (he : u.types.Extends types) (later : m.Later (f m)) (known : m.Known types → (f m).Known types)
    (shows : (f m).Shows d) (genuine : (f m).params = m.params ∨ ∀ t ∈ (f m).params, types.Genuine t)
    (faults : Universe.faults { u with types, methods := u.methods.modify (id.index - 1) f, reports } = u.faults) :
    extension.Leads u { u with types, methods := u.methods.modify (id.index - 1) f, reports } := by
  have hi := getElem?_of_method? hm
  -- the callable that was read is the only one that is another one now
  have hretains : u.Retains { u with types, methods := u.methods.modify (id.index - 1) f, reports } := by
    refine ⟨he, fun i m' h => ?_⟩
    show ∃ m', (u.methods.modify (id.index - 1) f)[i]? = some m' ∧ _
    rw [Array.getElem?_modify]
    split
    · rename_i heq
      cases hi.symm.trans (heq ▸ h)
      exact ⟨f m, by simp [h], later⟩
    · exact ⟨m', h, .refl m'⟩
  have hknown (i : Nat) (m' : Method) (h : (u.methods.modify (id.index - 1) f)[i]? = some m') :
      u.methods[i]? = some m' ∨ m'.Known types := by
    refine (TypeStore.getElem?_modify_cases h).imp_right ?_
    rintro ⟨rfl, m₀, hm₀, rfl⟩
    cases hi.symm.trans hm₀
    exact known ((hu.methods _ m hi).grows he.toGrows)
  have hext : u.Extends { u with types, methods := u.methods.modify (id.index - 1) f, reports } := by
    refine ⟨⟨hretains, fun id' m' text' m'' hm' hsig' hm'' => ?_, fun t ht => .inl ?_, fun hg => ?_, fun _ h => h, fun ht =>
      ht.evolve hretains hwf hknown fun _ h => .inl h⟩, fun t ht => ?_, faults⟩
    · rcases method?_modify_cases rfl hm' hm'' with ⟨-, rfl⟩ | ⟨hplace, rfl⟩
      · exact .inl hsig'
      · have hsome : id ≠ .none ∧ id' ≠ .none := by
          constructor <;> rintro rfl
          · simp [Universe.method?] at hm
          · simp [Universe.method?] at hm'
        have hid : id' = id := by
          obtain ⟨n⟩ := id
          obtain ⟨n'⟩ := id'
          simp only [MethodId.none, ne_eq, MethodId.mk.injEq] at hsome hplace ⊢
          omega
        subst hid
        cases hm.symm.trans hm'
        cases hsig.symm.trans hsig'
        exact .inr ⟨u.types, hu.types, .refl _, by rw [hdraft]; exact .refl _, by rw [hdraft]; exact shows⟩
    · exact tableState_extends he hu.types ht
    · refine hg.evolve he.toGrows (fun i m' h => ?_) fun _ hp => .inl hp
      rcases TypeStore.getElem?_modify_cases h with h | ⟨rfl, m₀, hm₀, rfl⟩
      · exact .inl ⟨m', h, rfl⟩
      · cases hi.symm.trans hm₀
        exact genuine.imp_left fun heq => ⟨m, hm₀, heq⟩
    · exact congrArg _ (membersOf_extends he hu.types ht)
  exact ⟨fun _ => hu.evolve hext.toKeeps hwf hknown (fun _ h => .inl h) (fun _ h => .inl h) (.inl rfl) (fun _ h => .inl h), hext⟩

/-- A callable of known types is added under a new number. -/
theorem allocMethod_extends {m : Method} (hm : u.types.WellFormed → m.Known u.types)
    (genuine : u.Genuine → ∀ t ∈ m.params, u.types.Genuine t) :
    Works extension (allocMethod m) u fun id u' =>
      u'.method? id = some m ∧ u'.types = u.types ∧ u'.members = u.members ∧ u.method? id = none := by
  intro hu
  have hold (i : Nat) (m' : Method) (h : u.methods[i]? = some m') : (u.methods.push m)[i]? = some m' := by
    have hlt : i < u.methods.size := (Array.getElem?_eq_some_iff.mp h).1
    rw [Array.getElem?_push, if_neg (Nat.ne_of_lt hlt), h]
  have hretains : u.Retains { u with methods := u.methods.push m } := ⟨.refl _, fun i m' h => ⟨m', hold i m' h, .refl m'⟩⟩
  have hknown (hs : u.types.WellFormed) (i : Nat) (m' : Method) (h : (u.methods.push m)[i]? = some m') :
      u.methods[i]? = some m' ∨ m'.Known u.types := by
    refine (TypeStore.getElem?_push_cases h).imp_right ?_
    rintro ⟨rfl, rfl⟩
    exact hm hs
  have hext : u.Extends { u with methods := u.methods.push m } := by
    refine ⟨⟨hretains, Keeps.texts_of_same fun id m' h => ?_, fun _ _ => .refl _,
      fun hg => hg.evolve (.refl _) (fun i m' h => ?_) fun _ hp => .inl hp, fun _ h => h, fun ht =>
      ht.evolve hretains ht.types (hknown ht.types) fun _ h => .inl h⟩, fun _ _ => rfl, rfl⟩
    · unfold Universe.method? at h ⊢
      split at h
      · cases h
      · rw [if_neg ‹_›]
        exact hold _ m' h
    · rcases TypeStore.getElem?_push_cases h with h | ⟨-, rfl⟩
      · exact .inl ⟨m', h, rfl⟩
      · exact .inr (genuine hg)
  refine ⟨⟨fun _ => ?_, hext⟩, ?_, rfl, rfl, ?_⟩
  · exact hu.evolve hext.toKeeps hu.types (hknown hu.types) (fun _ h => .inl h) (fun _ h => .inl h) (.inl rfl) (fun _ h => .inl h)
  · show Universe.method? { u with methods := u.methods.push m } ⟨u.methods.size + 1⟩ = some m
    simp [Universe.method?, MethodId.none]
  · show Universe.method? u ⟨u.methods.size + 1⟩ = none
    simp [Universe.method?, MethodId.none]

/-- What is changed beside types, callables, members and reports matters only as far as tables
and placeholders are concerned. -/
theorem extends_of_same (types : u'.types = u.types) (methods : u'.methods = u.methods) (members : u'.members = u.members)
    (reports : u'.reports = u.reports) (tables : ∀ t, (u.tableState t).Later (u'.tableState t))
    (arrayTables : ∀ p ∈ u'.arrayTables, p ∈ u.arrayTables ∨ u.SoundTable p.2)
    (arrayClone : u'.arrayClone = u.arrayClone ∨ u.IsNamed u'.arrayClone "clone")
    (placeholders : ∀ p ∈ u'.placeholders, p ∈ u.placeholders ∨ u.types.Genuine p.2) : extension.Leads u u' := by
  have hext : u.Extends u' := by
    refine ⟨⟨.of_same types methods, Keeps.texts_of_same (Keeps.method?_of_same methods), fun t _ => tables t, fun hu => ?_,
      fun cls h => ?_, fun ht => ht.of_same types methods members⟩, fun t _ => ?_, ?_⟩
    · exact hu.evolve (types ▸ .refl _) (fun _ m h => .inl ⟨m, methods ▸ h, rfl⟩) fun p hp => (placeholders p hp).imp_right (types ▸ id)
    · unfold IsMaking
      rwa [← members]
    · unfold isComplete membersOf freshMembers
      rw [types, members]
    · unfold faults
      rw [reports]
  refine ⟨fun hu => ?_, hext⟩
  refine hu.evolve hext.toKeeps (types ▸ hu.types) (fun _ _ h => .inl (methods ▸ h)) (fun _ h => .inl (members ▸ h))
    (fun p hp => ?_) (arrayClone.imp_right hext.isNamed) (fun p hp => ?_)
  · exact (arrayTables p hp).imp_right (hext.soundTable hu)
  · exact (placeholders p hp).imp_right fun h => types ▸ h.1

/-- A field is added under a new number. -/
theorem allocField_extends {f : Field} :
    Works extension (allocField f) u fun _ u' => u'.types = u.types ∧ u'.members = u.members :=
  fun _ => ⟨extends_of_same rfl rfl rfl rfl (fun _ => .refl _) (fun _ h => .inl h) (.inl rfl) (fun _ h => .inl h), rfl, rfl⟩

/-! ## Members of classes

The members of a class are found under its number, in a list of pairs. What setting them
changes is said once here.
-/

/-- The table of a class is sound once it is made. -/
theorem WellFormed.soundTable (hu : u.WellFormed) {t : TypeId} {table : MemberTable}
    (h : (u.membersOf t).table = .built table) : u.SoundTable table := by
  rcases u.membersOf_cases t with hmem | hfresh
  · exact hu.tables _ hmem table h
  · simp [hfresh, freshMembers] at h

/-- The methods of a class exist. -/
theorem WellFormed.has_of_declared (hu : u.WellFormed) {t : TypeId} {id : MethodId} (h : id ∈ (u.membersOf t).methods) :
    u.Has id := by
  rcases u.membersOf_cases t with hmem | hfresh
  · exact hu.declared _ hmem id h
  · simp [hfresh, freshMembers] at h

/-- Two types with the same class behind them have the same members. -/
theorem membersOf_congr {t t' : TypeId} (h : u.types.classOf t = u.types.classOf t') :
    u.membersOf t = u.membersOf t' := by
  unfold membersOf
  rw [h]

/-- The members that were just set. -/
theorem membersOf_put_self {t t' : TypeId} {c : ClassMembers} (h : u.types.classOf t' = u.types.classOf t) :
    { u with members := Assoc.put (u.types.classOf t) c u.members }.membersOf t' = c := by
  unfold membersOf
  simp [h]

/-- The members of other classes stay. -/
theorem membersOf_put_of_ne {t t' : TypeId} {c : ClassMembers} (h : u.types.classOf t' ≠ u.types.classOf t) :
    { u with members := Assoc.put (u.types.classOf t) c u.members }.membersOf t' = u.membersOf t' := by
  unfold membersOf freshMembers
  simp only [Assoc.lookup_put_of_ne h]

/-- The table of a class after members were set. -/
theorem table_put {t t' : TypeId} {c : ClassMembers} (table : c.table = (u.membersOf t).table) :
    ({ u with members := Assoc.put (u.types.classOf t) c u.members }.membersOf t').table = (u.membersOf t').table := by
  by_cases hcls : u.types.classOf t' = u.types.classOf t
  · rw [membersOf_put_self hcls, membersOf_congr hcls, table]
  · rw [membersOf_put_of_ne hcls]

/-- A table that is being made belongs to a class with recorded members. -/
theorem isMaking_iff {t : TypeId} : u.IsMaking (u.types.classOf t) ↔ (u.membersOf t).table = .building := by
  unfold IsMaking membersOf
  cases h : u.members.lookup (u.types.classOf t) with
  | none => simp [h, freshMembers]
  | some c => simp [h]

/-- The tables that are being made after the members of a class were set. -/
theorem isMaking_put {t cls : TypeId} {c : ClassMembers}
    (h : { u with members := Assoc.put (u.types.classOf t) c u.members }.IsMaking cls) :
    cls = u.types.classOf t ∧ c.table = .building ∨ cls ≠ u.types.classOf t ∧ u.IsMaking cls := by
  obtain ⟨c', hc', hmaking⟩ := h
  by_cases hcls : cls = u.types.classOf t
  · subst hcls
    rw [Assoc.lookup_put_self] at hc'
    cases hc'
    exact .inl ⟨rfl, hmaking⟩
  · rw [Assoc.lookup_put_of_ne hcls] at hc'
    exact .inr ⟨hcls, c', hc', hmaking⟩

/-- The members of a class may be changed beside its table. -/
theorem Keeps.put {t : TypeId} {c : ClassMembers} (table : c.table = (u.membersOf t).table)
    (tidy : u.Tidy → u.TidyMembers (u.types.classOf t) c) :
    u.Keeps { u with members := Assoc.put (u.types.classOf t) c u.members } := by
  refine ⟨.of_same rfl rfl, texts_of_same fun _ _ h => h, fun t' _ => .inl ?_, fun hu => hu.of_same (.refl _) rfl rfl,
    fun cls h => ?_, fun ht => ht.put (tidy ht)⟩
  · unfold tableState
    rw [table_put table]
    show (if u.types.isArray t' then _ else (Universe.membersOf _ (u.types.classOf t')).table) = _
    rw [table_put table]
  · rcases isMaking_put h with ⟨rfl, hmaking⟩ | ⟨-, hmaking⟩
    · exact isMaking_iff.mpr (table ▸ hmaking)
    · exact hmaking

/-- A body stays as open as it was when members are set that say so. -/
theorem complete_put {t t' : TypeId} {c : ClassMembers} (complete : c.complete = (u.membersOf t).complete) :
    { u with members := Assoc.put (u.types.classOf t) c u.members }.isComplete t' = u.isComplete t' := by
  unfold isComplete
  by_cases hcls : u.types.classOf t' = u.types.classOf t
  · rw [membersOf_put_self hcls, membersOf_congr hcls, complete]
  · rw [membersOf_put_of_ne hcls]

/-- The members of a known class may be changed when all that they list is in order. -/
theorem WellFormed.put (hu : u.WellFormed) {t : TypeId} (ht : u.types.Knows t) {c : ClassMembers}
    (methods : ∀ id ∈ c.methods, u.Has id) (table : ∀ table, c.table = .built table → u.SoundTable table) :
    { u with members := Assoc.put (u.types.classOf t) c u.members }.WellFormed where
  types := hu.types
  methods := hu.methods
  keys p hp := by
    rcases mem_put hp with hp | rfl
    · exact hu.keys p hp
    · exact hu.types.knows_classOf ht
  declared p hp := by
    rcases mem_put hp with hp | rfl
    · exact hu.declared p hp
    · exact methods
  tables p hp tb htb := by
    rcases mem_put hp with hp | rfl
    · exact (hu.tables p hp tb htb).of_same rfl rfl
    · exact (table tb htb).of_same rfl rfl
  arrayTables p hp := (hu.arrayTables p hp).of_same rfl rfl
  arrayClone := hu.arrayClone
  placeholders := hu.placeholders

/-- Changing members other than the table. -/
theorem modifyMembers_extends {t : TypeId} {f : ClassMembers → ClassMembers} (ht : u.types.Knows t)
    (complete : ∀ c, (f c).complete = c.complete) (table : ∀ c, (f c).table = c.table)
    (methods : ∀ c, ∀ id ∈ (f c).methods, id ∈ c.methods ∨ u.Has id)
    (tidy : u.TidyMembers (u.types.classOf t) (u.membersOf t) → u.TidyMembers (u.types.classOf t) (f (u.membersOf t))) :
    Works extension (modifyMembers t f) u fun _ u' =>
      u'.types = u.types ∧ u'.methods = u.methods ∧ u'.membersOf t = f (u.membersOf t) := by
  refine Works.of_sound fun hu => Works.change ⟨fun _ => hu.put ht (fun id hid => ?_) fun tb h => ?_,
    .put (table _) fun h => tidy (h.membersOf t), fun _ _ => complete_put (complete _), rfl⟩ ⟨rfl, rfl, membersOf_put_self rfl⟩
  · rcases methods _ id hid with hid | hid
    · exact hu.has_of_declared hid
    · exact hid
  · exact hu.soundTable (table _ ▸ h)

/-- Callables are linked. -/
theorem linkBehind_extends (last : Option MethodId) (id : MethodId) : Works extension (linkBehind last id) u fun _ u' =>
    u'.types = u.types ∧ u'.methods = u.methods ∧ u'.members = u.members :=
  fun _ => ⟨extends_of_same rfl rfl rfl rfl (fun _ => .refl _) (fun _ h => .inl h) (.inl rfl) (fun _ h => .inl h), rfl, rfl, rfl⟩

/-- A callable is added to its class: it gets a number, the class lists it, and it is linked
behind the last one of its chain. The three are done by one function, and extend the universe
together. -/
theorem addMethod_extends {m : Method} (hm : u.types.WellFormed → m.Known u.types)
    (genuine : u.Genuine → ∀ t ∈ m.params, u.types.Genuine t) (own : u.types.classOf m.owner = m.owner) :
    Works extension (addMethod m) u fun id u' =>
      u'.types = u.types ∧ ∃ name, u'.method? id = some { m with name } := by
  refine Works.of_sound fun hu => ?_
  unfold addMethod
  -- constructors get a name of their own, whatever name they come with
  have hm' : ∃ name, (if m.isConstructor then { m with name := constructorName } else m) = { m with name } := by
    split
    · exact ⟨_, rfl⟩
    · exact ⟨m.name, rfl⟩
  obtain ⟨name, hname⟩ := hm'
  simp only [hname]
  have hk : u.types.WellFormed → Method.Known u.types { m with name } := fun hs =>
    ⟨(hm hs).owner, (hm hs).params, (hm hs).returns, (hm hs).throws, (hm hs).typeParams⟩
  refine (allocMethod_extends hk genuine).bind fun id u₁ _ _ h₁ => ?_
  obtain ⟨hid₁, htypes₁, hmembers₁, hfresh⟩ := h₁
  refine Works.read ((linkBehind_extends _ id).bind fun _ u' _ _ h' => ?_)
  have htypes : u'.types = u.types := h'.1.trans htypes₁
  have hid : u'.method? id = some { m with name } := by
    rw [← hid₁]
    unfold Universe.method?
    rw [h'.2.1]
  refine (modifyMembers_extends ?_ (fun c => withMember_complete _ _ c) (fun c => withMember_table _ _ c) (fun c id' hid' => ?_)
    fun hc => ?_).bind fun _ u'' _ _ h'' => Works.ret ?_
  · rw [htypes]
    exact (hm hu.types).owner
  · rw [withMember_methods] at hid'
    split at hid'
    · exact .inl hid'
    · refine (List.mem_append.mp hid').imp_right fun hnew => ?_
      rw [List.mem_singleton.mp hnew, Has, hid]
      rfl
  · -- the number is new, so the class does not list it yet
    have hsame : u'.membersOf m.owner = u.membersOf m.owner := by
      unfold membersOf freshMembers
      rw [htypes, h'.2.2, hmembers₁]
    have hnew : id ∉ (u'.membersOf m.owner).methods := by
      intro hmem
      have hold := hu.has_of_declared (hsame ▸ hmem)
      simp [Has, hfresh] at hold
    unfold withMember
    split
    · exact hc.of_same rfl rfl
    · split
      · exact hc.of_same rfl rfl
      · exact (hc.add hnew hid (by rw [htypes]; exact own.symm)).of_same rfl rfl
  · refine ⟨h''.1.trans htypes, name, ?_⟩
    rw [← hid]
    unfold Universe.method?
    rw [h''.2.1]

/-- A field is added to its class. -/
theorem addField_extends {f : Field} (hf : u.types.Knows f.owner) :
    Works extension (addField f) u fun _ u' => u'.types = u.types := by
  unfold addField
  refine allocField_extends.bind fun id u' _ _ h => ?_
  refine (modifyMembers_extends (h.1 ▸ hf) ?_ ?_ ?_ ?_).bind fun _ u'' _ _ h' => Works.ret ?_
  · exact fun _ => rfl
  · exact fun _ => rfl
  · exact fun _ _ h => .inl h
  · exact fun hc => hc.of_same rfl rfl
  · exact h'.1.trans h.1

/-! ## Making a table

The only change that is undone: a table is marked while the tables that it is made from are
asked for.
-/

/-- A universe with the table of a class in another state. -/
def withTable (u : Universe) (cls : TypeId) (st : TableState) : Universe :=
  { u with members := Assoc.put (u.types.classOf cls) { u.membersOf cls with table := st } u.members }

/-- The class that the table of a type starts from: that of an array starts from the root
class. -/
def tableRoot (u : Universe) (t : TypeId) : TypeId :=
  if u.types.isArray t then .object else u.types.classOf t

/-- The tables that start from other classes are left alone. -/
theorem tableState_withTable_of_ne {cls t : TypeId} {st : TableState}
    (h : u.types.classOf (u.tableRoot t) ≠ u.types.classOf cls) : (u.withTable cls st).tableState t = u.tableState t := by
  have hroot := membersOf_put_of_ne (c := { u.membersOf cls with table := st }) h
  unfold tableRoot at hroot
  unfold tableState
  show (if u.types.isArray t then _ else ((u.withTable cls st).membersOf (u.types.classOf t)).table) = _
  split at hroot
  · rw [if_pos ‹_›, if_pos ‹_›, withTable, hroot]
  · rw [if_neg ‹_›, if_neg ‹_›, withTable, hroot]

/-- The tables that start from the class itself. -/
theorem tableState_withTable_of_eq {cls t : TypeId} {st : TableState}
    (h : u.types.classOf (u.tableRoot t) = u.types.classOf cls) :
    (u.withTable cls st).tableState t = if u.types.isArray t then arrayState (u.arrayTables.lookup t) st else st := by
  have hroot := membersOf_put_self (c := { u.membersOf cls with table := st }) h
  unfold tableRoot at hroot
  unfold tableState
  show (if u.types.isArray t then _ else ((u.withTable cls st).membersOf (u.types.classOf t)).table) = _
  split at hroot
  · rw [if_pos ‹_›, if_pos ‹_›, withTable, hroot]
  · rw [if_neg ‹_›, if_neg ‹_›, withTable, hroot]

/-- What a table has come to that waits while another one is made. -/
theorem arrayState_made {before after : Option MemberTable} {st : TableState} {table : MemberTable}
    (h : (arrayState before .building).Later (arrayState after st)) :
    arrayState after (.built table) = arrayState before .unbuilt := by
  have heq := h.eq_of_ne (by cases before <;> simp [arrayState])
  cases before <;> cases after <;> cases st <;> simp_all [arrayState]

/-- Where a table starts from stays. -/
theorem tableRoot_extends (hu : u.types.WellFormed) (h : u.types.Extends u'.types) {t : TypeId} (ht : u.types.Knows t) :
    u'.tableRoot t = u.tableRoot t ∧ u'.types.classOf (u.tableRoot t) = u.types.classOf (u.tableRoot t) := by
  have hknown : u.types.Knows (u.tableRoot t) := by
    unfold tableRoot
    split
    · exact hu.knows_predefined (by decide)
    · exact hu.knows_classOf ht
  refine ⟨?_, h.classOf hknown⟩
  unfold tableRoot TypeStore.isArray
  rw [h.shape ht, h.classOf ht]

/-- Making the table of a class loses no other one. The tables that start from the class are
its own, which is made, and those of arrays when it is the root class, which wait for it; all
others are as they were when the class was only marked. -/
theorem tables_withTable (hu : u.types.WellFormed) {cls : TypeId} (hcls : u.types.Knows cls)
    (hnone : (u.membersOf cls).table = .unbuilt) (h : (u.withTable cls .building).Keeps u') (table : MemberTable) {t : TypeId}
    (ht : u.types.Knows t) : (u.tableState t).Later ((u'.withTable cls (.built table)).tableState t) := by
  have hlater := h.tables t ht
  have hcls' : u'.types.classOf cls = u.types.classOf cls := h.types.classOf hcls
  obtain ⟨hroot, hclass⟩ := tableRoot_extends hu h.types ht
  have harray : u'.types.isArray t = u.types.isArray t := by
    unfold TypeStore.isArray
    rw [h.types.shape ht]
    rfl
  by_cases heq : u.types.classOf (u.tableRoot t) = u.types.classOf cls
  · rw [tableState_withTable_of_eq (by rw [hroot, hclass, hcls', heq])]
    rw [tableState_withTable_of_eq heq] at hlater
    cases hisArray : u.types.isArray t with
    | false =>
      refine .inr ⟨?_, table, by simp [harray, hisArray]⟩
      rw [tableState_of_not_isArray hisArray, ← hnone]
      refine congrArg _ (membersOf_congr ?_)
      simpa [tableRoot, hisArray] using heq
    | true =>
      have hwaits : (u.membersOf .object).table = .unbuilt := by
        rw [← hnone]
        exact congrArg _ (membersOf_congr (by simpa [tableRoot, hisArray] using heq))
      simp only [hisArray, if_true] at hlater
      rw [tableState_of_isArray (harray.trans hisArray)] at hlater
      simp only [harray, hisArray, if_true]
      rw [tableState_of_isArray hisArray, hwaits]
      exact .inl (arrayState_made hlater)
  · rw [tableState_withTable_of_ne (by rwa [hroot, hclass, hcls'])]
    rwa [tableState_withTable_of_ne heq] at hlater

/-- A class that has no table may get one; while its members are gathered the table is marked.
The mark is set and taken away again, so the universe in which the members are gathered keeps
nothing of that before, but the one behind it does. That the mark was gone in between is known
because tables are never left half made. -/
theorem Keeps.make (hu : u.types.WellFormed) {cls : TypeId} (hcls : u.types.Knows cls)
    (hnone : (u.membersOf cls).table = .unbuilt) (h : (u.withTable cls .building).Keeps u') {table : MemberTable}
    (distinct : u.Tidy → u'.Distinct (u'.types.classOf cls) table) : u.Keeps (u'.withTable cls (.built table)) where
  types := h.types
  methods := h.methods
  texts := h.texts
  tables _ ht := tables_withTable hu hcls hnone h table ht
  genuine hgenuine := (h.genuine (hgenuine.of_same (.refl _) rfl rfl)).of_same (.refl _) rfl rfl
  making c hc := by
    -- only the class itself was marked on the way, and it is made now
    rcases isMaking_put hc with ⟨-, hmade⟩ | ⟨hne, hmaking⟩
    · cases hmade
    · rcases isMaking_put (h.making c hmaking) with ⟨heq, -⟩ | ⟨-, hmaking⟩
      · exact absurd (heq.trans (h.types.classOf hcls).symm) hne
      · exact hmaking
  tidy htidy := by
    have hc := htidy.membersOf cls
    have hmarked : (u.withTable cls .building).Tidy := htidy.put ⟨hc.nodup, hc.own, fun t hmade => by cases hmade⟩
    have hc' := (h.tidy hmarked).membersOf cls
    refine (h.tidy hmarked).put ⟨hc'.nodup, hc'.own, fun t hmade => ?_⟩
    cases hmade
    exact distinct htidy

/-- A body stays as open as it was while a table is made. -/
theorem isComplete_withTable (cls t : TypeId) (st : TableState) : (u.withTable cls st).isComplete t = u.isComplete t :=
  complete_put (c := { u.membersOf cls with table := st }) rfl

/-- A universe whose table of a class is marked is as well formed as it was. -/
theorem WellFormed.withTable (hu : u.WellFormed) {cls : TypeId} (hcls : u.types.Knows cls) {st : TableState}
    (sound : ∀ table, st = .built table → u.SoundTable table) : (u.withTable cls st).WellFormed :=
  hu.put hcls (fun _ hid => hu.has_of_declared hid) sound

/-- Making a table, where the members are gathered while it is marked. -/
theorem withTable_extends (hu : u.WellFormed) {cls : TypeId} (hcls : u.types.Knows cls)
    (hnone : (u.membersOf cls).table = .unbuilt) (h : extension.Leads (u.withTable cls .building) u') {table : MemberTable}
    (sound : u'.SoundTable table) (distinct : u.Tidy → u'.Distinct (u'.types.classOf cls) table) :
    extension.Leads u (u'.withTable cls (.built table)) := by
  have hu' : u'.WellFormed := h.1 (hu.withTable hcls (by simp))
  have hcls' : u'.types.Knows cls := h.2.types.knows hcls
  refine ⟨fun _ => hu'.withTable hcls' ?_, .make hu.types hcls hnone h.2.toKeeps distinct, fun t ht => ?_, h.2.faults⟩
  · rintro _ ⟨⟩
    exact sound
  · rw [isComplete_withTable, h.2.complete t ht, isComplete_withTable]

end Universe

end CallResolution
