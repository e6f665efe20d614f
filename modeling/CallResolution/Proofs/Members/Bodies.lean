import CallResolution.Proofs.Members.Forwarding
import CallResolution.Proofs.Members.Predefined
import CallResolution.Resolve.Captured

/-!
# Bodies of local classes

A local class is open until its body is finished, and declares constructors only while it is.
When it is finished its constructors get a parameter for each capture, and none of both
changes afterwards. What a class lists as its constructors are constructors of that class, and
no table lists a constructor among its methods.

The invariant is `SoundBodies`. It is kept by moves that finish no body because they leave
callables and bodies as they were: `Move.sameCallables` says so of callables and
`Move.follows` of what is recorded of a class, and both go through the kinds of move. The move
that finishes a body is taken apart from the others (`Move.split`), for it changes what these
would compare: `sameKinds_completeClass` and `method?_completeClass` say what it does to
callables, and `SoundBodies.finish` that they get just the parameters that they lacked.

Whether a class is finished can be told from the run when the class has a name, since only
anonymous classes are finished by anything but a step that asks for it: `NamedLocal` and
`isComplete_moves`.

A run starts in a universe that is `Populated`: moves from an `Untouched` one, in which there
is nothing but what is predefined. An invariant that holds there and is kept by moves holds at
every stage of every run, by `Populated.keeps`; what is predefined is a closed term, so the
first part is a computation (`initial_declares`).

Main statements: `Moves.soundBodies` (the invariant is kept by whatever happens to a universe)
and `Untouched.soundBodies` (it holds before anything is declared).
-/

namespace CallResolution

namespace Universe

variable {mayFinish : Universe → TypeId → Prop} {u u' : Universe}

/-! ## Constructors of classes

What it is to be a constructor or a method of a class, and the invariant about them.
-/

/-- A callable is a constructor of a class. -/
structure Constructs (u : Universe) (cls : TypeId) (id : MethodId) : Prop where
  /-- The callable exists. -/
  has : u.Has id
  /-- It is a constructor. -/
  isConstructor : (u.method id).isConstructor
  /-- Its class. -/
  owner : u.types.classOf (u.method id).owner = cls

/-- A callable is a method. -/
structure IsMethod (u : Universe) (id : MethodId) : Prop where
  /-- The callable exists. -/
  has : u.Has id
  /-- It is no constructor. -/
  notConstructor : (u.method id).isConstructor = false

/-- A method constructs nothing. -/
theorem IsMethod.not_constructs {id : MethodId} (h : u.IsMethod id) (cls : TypeId) : ¬ u.Constructs cls id :=
  fun hc => absurd hc.isConstructor (by simp [h.notConstructor])

/-- A callable is no accessor. -/
def IsDirect (u : Universe) (id : MethodId) : Prop :=
  (u.method id).flags.isAccessor = false

/-- What holds of classes and their constructors in every universe on the way. The parameters
for captures are counted among what is recorded of a constructor and not among its parameters,
so that a call can be bound before they are known; when the body is finished the constructors
have one for each capture, in order. -/
structure SoundBodies (u : Universe) : Prop where
  /-- What a class lists as its constructors are its constructors. -/
  ctors : ∀ cls c, u.members.lookup cls = some c → ∀ id ∈ c.ctors, u.Constructs cls id
  /-- A class that is not local is finished from the beginning, and captures nothing. -/
  foreign : ∀ cls c, u.members.lookup cls = some c → u.types.isLocalClass cls = false → c.complete ∧ c.captures = []
  /-- The constructors of a finished class take its captures. -/
  params : ∀ cls c, u.members.lookup cls = some c → c.complete → ∀ id ∈ c.ctors,
    (u.method id).captureParams = c.captures.map (·.type)
  /-- What is listed among methods is a method. -/
  methods : ∀ id, u.Listed id → u.IsMethod id

/-- Every body is as open as that of a class of which nothing is known. -/
def Unfinished (u : Universe) : Prop :=
  ∀ cls c, u.members.lookup cls = some c → c.complete = (u.freshMembers cls).complete

/-! ## What a move changes of callables and bodies

Callables keep their kinds and classes in every move, and bodies stay as they are in every
move but one.
-/

/-- What is finished by a move is all that it does. So a move is one that finishes nothing, or
it is the finishing of one body; the two are dealt with apart from each other. -/
theorem Move.split (h : Move mayFinish u u') :
    Move nothing u u' ∨ ∃ t, u.types.Knows t ∧ mayFinish u t ∧ u' = (completeClass t u).2 := by
  cases h with
  | types made => exact .inl (.types made)
  | report d other => exact .inl (.report d other)
  | read made reads => exact .inl (.read made reads)
  | method known first declared admits => exact .inl (.method known first declared admits)
  | field known => exact .inl (.field known)
  | accessor known made => exact .inl (.accessor known made)
  | placeholder top t => exact .inl (.placeholder top t)
  | arrayMembers => exact .inl .arrayMembers
  | arrayTable listed plain => exact .inl (.arrayTable listed plain)
  | table known unmade listed => exact .inl (.table known unmade listed)
  | capture name type known => exact .inl (.capture name type known)
  | finish known may => exact .inr ⟨_, known, may, rfl⟩

/-- Methods stay methods of their classes, and constructors theirs. -/
def SameKinds (u u' : Universe) : Prop :=
  ∀ id m, u.method? id = some m → ∃ m', u'.method? id = some m' ∧ m'.kind = m.kind ∧ m'.owner = m.owner

/-- The callables of a universe stay what they are, as far as classes are concerned. -/
def SameCallables (u u' : Universe) : Prop :=
  ∀ id m, u.method? id = some m → ∃ m', u'.method? id = some m' ∧ m'.kind = m.kind ∧ m'.owner = m.owner ∧
    m'.captureParams = m.captureParams

theorem SameCallables.of_same (h : u'.methods = u.methods) : SameCallables u u' :=
  fun id m hm => ⟨m, by rwa [method?, h], rfl, rfl, rfl⟩

/-- The callable with a number, by its place. -/
theorem method?_eq_some_iff {id : MethodId} {m : Method} :
    u.method? id = some m ↔ id ≠ .none ∧ u.methods[id.index - 1]? = some m := by
  unfold method?
  split <;> simp_all

theorem SameCallables.push {m : Method} (h : u'.methods = u.methods.push m) : SameCallables u u' := by
  intro id m' hm
  obtain ⟨hid, hm⟩ := method?_eq_some_iff.mp hm
  refine ⟨m', method?_eq_some_iff.mpr ⟨hid, ?_⟩, rfl, rfl, rfl⟩
  rw [h, Array.getElem?_push, if_neg (Nat.ne_of_lt (Array.getElem?_eq_some_iff.mp hm).1)]
  exact hm

theorem SameCallables.modify {i : Nat} {f : Method → Method} (h : u'.methods = u.methods.modify i f)
    (same : ∀ m, (f m).kind = m.kind ∧ (f m).owner = m.owner ∧ (f m).captureParams = m.captureParams) :
    SameCallables u u' := by
  intro id m hm
  obtain ⟨hid, hm⟩ := method?_eq_some_iff.mp hm
  have hget : u'.methods[id.index - 1]? = if i = id.index - 1 then some (f m) else some m := by
    rw [h, Array.getElem?_modify, hm]
    rfl
  split at hget
  · exact ⟨f m, method?_eq_some_iff.mpr ⟨hid, hget⟩, same m⟩
  · exact ⟨m, method?_eq_some_iff.mpr ⟨hid, hget⟩, rfl, rfl, rfl⟩

/-- Callables stay what they are while no body is finished. -/
theorem Move.sameCallables (h : Move nothing u u') : SameCallables u u' := by
  cases h with
  | read _ reads =>
    refine .modify rfl fun m => ?_
    obtain ⟨params, returns, throws, typeParams, signature, h⟩ := reads.frame m
    rw [h]
    exact ⟨rfl, rfl, rfl⟩
  | method => exact .push (by rw [addMethod_eq])
  | accessor => exact .push rfl
  | arrayMembers =>
    unfold Universe.arrayMembers
    rw [get_bind_apply]
    split
    · exact .of_same rfl
    · exact .push rfl
  | @capture t name type _ =>
    rcases addCapture_cases t name type u with ⟨c, -, h⟩ | ⟨-, -, h⟩ | ⟨-, -, h⟩ <;> rw [h] <;> exact .of_same rfl
  | finish _ may => exact may.elim
  | _ => exact .of_same rfl

theorem SameCallables.sameKinds (h : SameCallables u u') : SameKinds u u' := by
  intro id m hm
  obtain ⟨m', hm', hkind, howner, -⟩ := h id m hm
  exact ⟨m', hm', hkind, howner⟩

theorem SameKinds.refl (u : Universe) : SameKinds u u :=
  fun _ m hm => ⟨m, hm, rfl, rfl⟩

theorem SameKinds.trans {u'' : Universe} (h : SameKinds u u') (h' : SameKinds u' u'') : SameKinds u u'' := by
  intro id m hm
  obtain ⟨m', hm', hkind, howner⟩ := h id m hm
  obtain ⟨m'', hm'', hkind', howner'⟩ := h' id m' hm'
  exact ⟨m'', hm'', hkind'.trans hkind, howner'.trans howner⟩

theorem SameKinds.has (h : SameKinds u u') {id : MethodId} (hid : u.Has id) : u'.Has id := by
  obtain ⟨m, hm⟩ := Option.isSome_iff_exists.mp hid
  obtain ⟨m', hm', -⟩ := h id m hm
  simp [Has, hm']

/-- Constructors of a class stay so. -/
theorem SameKinds.constructs (h : SameKinds u u') (hu : u.WellFormed) (types : u.types.Extends u'.types) {cls : TypeId}
    {id : MethodId} (hid : u.Constructs cls id) : u'.Constructs cls id := by
  obtain ⟨m, hm⟩ := Option.isSome_iff_exists.mp hid.has
  obtain ⟨m', hm', hkind, howner⟩ := h id m hm
  have hc := hid.isConstructor
  have ho := hid.owner
  rw [method_eq hm] at hc ho
  have hknown : u.types.Knows m.owner := method_eq hm ▸ (hu.method id).owner
  refine ⟨h.has hid.has, ?_, ?_⟩
  · rw [method_eq hm', Method.isConstructor, hkind]
    exact hc
  · rw [method_eq hm', howner, types.classOf hknown, ho]

/-- A callable that exists constructs what it will construct later on. -/
theorem SameKinds.constructs_of_later (h : SameKinds u u') (hu : u.WellFormed) (types : u.types.Extends u'.types) {cls : TypeId}
    {id : MethodId} (hhas : u.Has id) (hid : u'.Constructs cls id) : u.Constructs cls id := by
  obtain ⟨m, hm⟩ := Option.isSome_iff_exists.mp hhas
  obtain ⟨m', hm', hkind, howner⟩ := h id m hm
  have hc := hid.isConstructor
  have ho := hid.owner
  rw [method_eq hm'] at hc ho
  have hknown : u.types.Knows m.owner := method_eq hm ▸ (hu.method id).owner
  refine ⟨hhas, ?_, ?_⟩
  · rw [method_eq hm, Method.isConstructor, ← hkind]
    exact hc
  · rw [method_eq hm, ← types.classOf hknown, ← howner, ho]

/-- Methods stay methods. -/
theorem SameKinds.isMethod (h : SameKinds u u') {id : MethodId} (hid : u.IsMethod id) : u'.IsMethod id := by
  obtain ⟨m, hm⟩ := Option.isSome_iff_exists.mp hid.has
  obtain ⟨m', hm', hkind, -⟩ := h id m hm
  have hc := hid.notConstructor
  rw [method_eq hm] at hc
  refine ⟨h.has hid.has, ?_⟩
  rw [method_eq hm', Method.isConstructor, hkind]
  exact hc

/-- What is recorded of a class after a move that finishes no body. -/
structure Follows (u u' : Universe) (cls : TypeId) (c' : ClassMembers) : Prop where
  /-- The class is not new. -/
  known : u.types.Knows cls
  /-- Its body is as open as it was. -/
  complete : c'.complete = (u.entry cls).complete
  /-- A finished class captures nothing more. -/
  captures : c'.complete → c'.captures = (u.entry cls).captures
  /-- A constructor that is new was declared while the body was open. -/
  ctors : ∀ id ∈ c'.ctors, id ∈ (u.entry cls).ctors ∨
    u'.Constructs cls id ∧ c'.complete = (u.freshMembers cls).complete ∧ (u'.method id).captureParams = [] ∧ u'.IsDirect id
  /-- Only methods are new among the methods, and no accessors. -/
  methods : ∀ id ∈ c'.methods, id ∈ (u.entry cls).methods ∨ u'.IsMethod id ∧ u'.IsDirect id
  /-- A table that is new lists what was listed. -/
  table : ∀ table, c'.table = .built table → (u.entry cls).table = .built table ∨ ∀ id, table.Lists id → u.Listed id

/-- Nothing was recorded of the class. -/
theorem Follows.of_lookup (hu : u.WellFormed) {cls : TypeId} {c : ClassMembers} (h : u.members.lookup cls = some c) :
    Follows u u' cls c := by
  obtain rfl := entry_of_lookup h
  exact ⟨hu.keys _ (TypeStore.mem_of_lookup h), rfl, fun _ => rfl, fun _ h => .inl h, fun _ h => .inl h, fun _ h => .inl h⟩

/-- The members of a class were set to ones with the same body. -/
theorem Follows.of_body (hu : u.WellFormed) {t : TypeId} {c : ClassMembers} (ht : u.types.Knows t)
    (complete : c.complete = (u.membersOf t).complete) (captures : c.captures = (u.membersOf t).captures)
    (ctors : c.ctors = (u.membersOf t).ctors) (methods : c.methods = (u.membersOf t).methods)
    (table : ∀ table, c.table = .built table → (u.membersOf t).table = .built table ∨ ∀ id, table.Lists id → u.Listed id) :
    Follows u u' (u.types.classOf t) c :=
  ⟨hu.types.knows_classOf ht, complete, fun _ => captures, fun _ h => .inl (ctors ▸ h), fun _ h => .inl (methods ▸ h), table⟩

/-- What is recorded of classes after the members of one were set. -/
theorem lookup_put_cases {k cls : TypeId} {c c' : ClassMembers} (members : u'.members = Assoc.put k c u.members)
    (h : u'.members.lookup cls = some c') : cls = k ∧ c' = c ∨ u.members.lookup cls = some c' := by
  rw [members] at h
  by_cases hcls : cls = k
  · subst hcls
    rw [Assoc.lookup_put_self] at h
    exact .inl ⟨rfl, (Option.some.inj h).symm⟩
  · rw [Assoc.lookup_put_of_ne hcls] at h
    exact .inr h

/-- The members of one class were set. -/
theorem Follows.of_put (hu : u.WellFormed) {k cls : TypeId} {c c' : ClassMembers}
    (members : u'.members = Assoc.put k c u.members) (h : u'.members.lookup cls = some c') (hc : Follows u u' k c) :
    Follows u u' cls c' := by
  rcases lookup_put_cases members h with ⟨rfl, rfl⟩ | h
  · exact hc
  · exact .of_lookup hu h

/-- A callable that was just declared. -/
theorem method?_addMethod (m : Method) (u : Universe) :
    (addMethod m u).2.method? ⟨u.methods.size + 1⟩ = some (declaredAs m) := by
  rw [addMethod_eq]
  simp [method?, MethodId.none]

/-- The members of a class with one more callable. -/
theorem follows_addMethod (hu : u.WellFormed) {m : Method} (known : u.types.Knows m.owner)
    (first : m.isConstructor → u.isComplete m.owner = (u.freshMembers (u.types.classOf m.owner)).complete)
    (declared : m.AsDeclared) :
    Follows u (addMethod m u).2 (u.types.classOf m.owner) (withMember m ⟨u.methods.size + 1⟩ (u.membersOf m.owner)) := by
  have hmade := method?_addMethod m u
  have hhas : (addMethod m u).2.Has ⟨u.methods.size + 1⟩ := by simp [Has, hmade]
  have htypes : (addMethod m u).2.types = u.types := by rw [addMethod_eq]
  unfold withMember declaredAs at *
  by_cases hctor : m.isConstructor
  · simp only [hctor, if_true] at hmade ⊢
    refine ⟨hu.types.knows_classOf known, rfl, fun _ => rfl, fun id hid => ?_, fun _ h => .inl h, fun _ h => .inl h⟩
    refine (List.mem_append.mp hid).imp_right fun hid => ?_
    rw [List.mem_singleton.mp hid]
    exact ⟨⟨hhas, by rw [method_eq hmade]; exact hctor, by rw [method_eq hmade, htypes]⟩, first hctor,
      by rw [method_eq hmade]; exact declared.bare, by rw [IsDirect, method_eq hmade]; exact declared.notAccessor⟩
  · simp only [hctor, Bool.false_eq_true, if_false] at hmade ⊢
    split
    · exact .of_body hu known rfl rfl rfl rfl fun _ h => .inl h
    · refine ⟨hu.types.knows_classOf known, rfl, fun _ => rfl, fun _ h => .inl h, fun id hid => ?_, fun _ h => .inl h⟩
      refine (List.mem_append.mp hid).imp_right fun hid => ?_
      rw [List.mem_singleton.mp hid]
      exact ⟨⟨hhas, by rw [method_eq hmade]; simpa using hctor⟩, by rw [IsDirect, method_eq hmade]; exact declared.notAccessor⟩

/-- A move that finishes no body leaves the bodies of all classes as they were. -/
theorem Move.follows (hu : u.WellFormed) (h : Move nothing u u') {cls : TypeId} {c' : ClassMembers}
    (hc : u'.members.lookup cls = some c') : Follows u u' cls c' := by
  cases h with
  | @method m known first declared _ => exact .of_put hu (by rw [addMethod_eq]) hc (follows_addMethod hu known first declared)
  | @field f known => exact .of_put hu rfl hc (.of_body hu (t := f.owner) known rfl rfl rfl rfl fun _ h => .inl h)
  | @accessor key acc known _ =>
    exact .of_put hu rfl hc (.of_body hu (t := acc.owner) known rfl rfl rfl rfl fun _ h => .inl h)
  | arrayMembers => exact .of_lookup hu (u.arrayMembers_same.2 ▸ hc)
  | @table t st known _ listed =>
    exact .of_put hu rfl hc (.of_body hu (t := t) known rfl rfl rfl rfl fun table h => .inr (listed table h))
  | @capture t name type known =>
    rcases addCapture_cases t name type u with ⟨c, -, h⟩ | ⟨-, -, h⟩ | ⟨-, hopen, h⟩
    · rw [h] at hc
      exact .of_lookup hu hc
    · rw [h] at hc
      exact .of_lookup hu hc
    · -- The field is added first, so the members of the class are set twice.
      rw [h] at hc
      rcases lookup_put_cases rfl hc with ⟨rfl, rfl⟩ | hc
      · have hfield : (addField (captureField t name type) u).2.membersOf t = _ := membersOf_addField _ u
        rw [hfield]
        exact ⟨hu.types.knows_classOf known, rfl, fun hcomplete => absurd hcomplete (Bool.eq_false_iff.mp hopen),
          fun id hid => .inl hid, fun id hid => .inl hid, fun _ h => .inl h⟩
      · rcases lookup_put_cases (u := u) rfl hc with ⟨rfl, rfl⟩ | hc
        · exact .of_body hu (t := t) known rfl rfl rfl rfl fun _ h => .inl h
        · exact .of_lookup hu hc
  | finish _ may => exact may.elim
  | _ => exact .of_lookup hu hc

/-- The cloning method of arrays is a method, and no accessor. -/
theorem Move.arrayClone_cases (h : Move nothing u u') (hsome : u'.arrayClone.isSome) :
    u'.arrayClone = u.arrayClone ∨ u'.IsMethod u'.arrayClone ∧ u'.IsDirect u'.arrayClone := by
  cases h with
  | method => exact .inl (by rw [addMethod_eq])
  | arrayMembers =>
    unfold Universe.arrayMembers at hsome ⊢
    rw [get_bind_apply] at hsome ⊢
    split
    · exact .inl rfl
    · refine .inr ?_
      have hmade : ∀ v : Universe, v.methods = u.methods.push
          { name := "clone", owner := .object, access := .pub, flags := { isFinal := true }, returns := .object } →
          v.IsMethod ⟨u.methods.size + 1⟩ ∧ v.IsDirect ⟨u.methods.size + 1⟩ := by
        intro v hv
        have hmade : v.method? ⟨u.methods.size + 1⟩ = some
            { name := "clone", owner := .object, access := .pub, flags := { isFinal := true }, returns := .object } := by
          simp [method?, hv, MethodId.none]
        exact ⟨⟨by simp [Has, hmade], by rw [method_eq hmade]; rfl⟩, by rw [IsDirect, method_eq hmade]⟩
      exact hmade _ rfl
  | @capture t name type _ =>
    rcases addCapture_cases t name type u with ⟨c, -, h⟩ | ⟨-, -, h⟩ | ⟨-, -, h⟩ <;> rw [h] <;> exact .inl rfl
  | finish _ may => exact may.elim
  | _ => exact .inl rfl

/-- A table of an array that is new lists what was listed, without conflicts. -/
theorem Move.arrayTables_cases {mayFinish : Universe → TypeId → Prop} (h : Move mayFinish u u') {p : TypeId × MemberTable}
    (hp : p ∈ u'.arrayTables) :
    p ∈ u.arrayTables ∨ (∀ id, p.2.Lists id → u.Listed id) ∧ p.2.All fun s => s.conflicts = [] := by
  cases h with
  | method => exact .inl (by rwa [addMethod_eq] at hp)
  | arrayMembers =>
    unfold Universe.arrayMembers at hp
    rw [get_bind_apply] at hp
    split at hp <;> exact .inl hp
  | arrayTable listed plain =>
    rcases List.mem_append.mp hp with hp | hp
    · exact .inl hp
    · rw [List.mem_singleton.mp hp]
      exact .inr ⟨listed, plain⟩
  | @capture t name type _ =>
    rcases addCapture_cases t name type u with ⟨c, -, h⟩ | ⟨-, -, h⟩ | ⟨-, -, h⟩ <;> rw [h] at hp <;> exact .inl hp
  | @finish t _ _ =>
    rcases completeClass_cases t u with ⟨-, h⟩ | ⟨-, h⟩ <;> rw [h] at hp <;> exact .inl hp
  | _ => exact .inl hp

/-- What is listed after a move was listed before, or is a method and no accessor. -/
theorem Move.listed_cases (hu : u.WellFormed) (h : Move nothing u u') {id : MethodId} (hid : u'.Listed id) :
    u.Listed id ∨ u'.IsMethod id ∧ u'.IsDirect id := by
  cases hid with
  | declared found mem =>
    refine ((h.follows hu found).methods id mem).imp_left fun hmem => ?_
    exact .declared (lookup_of_entry rfl (.inl (List.ne_nil_of_mem hmem))) hmem
  | clone made eq =>
    rcases h.arrayClone_cases made with hsame | hmethod
    · exact .inl (.clone (hsame ▸ made) (eq.trans hsame))
    · rw [eq]
      exact .inr hmethod
  | table found built lists =>
    rcases (h.follows hu found).table _ built with hbuilt | hlisted
    · exact .inl (.table (lookup_of_entry rfl (.inr ⟨_, hbuilt⟩)) hbuilt lists)
    · exact .inl (hlisted id lists)
  | array mem lists =>
    rcases h.arrayTables_cases mem with hmem | ⟨hlisted, -⟩
    · exact .inl (.array hmem lists)
    · exact .inl (hlisted id lists)

/-! ## The invariant

`SoundBodies` is kept: by the moves that finish nothing since they change no body, and by the
one that finishes a body since that gives the constructors what they lack.
-/

/-- Whether a known class is local stays. -/
theorem isLocalClass_extends (hu : u.types.WellFormed) (types : u.types.Extends u'.types) {cls : TypeId}
    (hcls : u.types.Knows cls) : u'.types.isLocalClass cls = u.types.isLocalClass cls := by
  unfold TypeStore.isLocalClass
  rw [types.classInfo hu hcls]

/-- The body of a class of which nothing is known is open when and only when the class is
local. -/
theorem freshMembers_complete (u : Universe) (cls : TypeId) : (u.freshMembers cls).complete = !u.types.isLocalClass cls := rfl

/-- A class that is not local is finished, and captures nothing. -/
theorem SoundBodies.entry_foreign (hs : u.SoundBodies) {cls : TypeId} (h : u.types.isLocalClass cls = false) :
    (u.entry cls).complete ∧ (u.entry cls).captures = [] := by
  unfold entry
  cases hlookup : u.members.lookup cls with
  | some c => exact hs.foreign cls c hlookup h
  | none => exact ⟨by simp [freshMembers_complete, h], rfl⟩

/-- A constructor that a class listed is recorded. -/
theorem lookup_of_mem_ctors {cls : TypeId} {id : MethodId} (h : id ∈ (u.entry cls).ctors) :
    u.members.lookup cls = some (u.entry cls) := by
  unfold entry at *
  cases hlookup : u.members.lookup cls with
  | some c => rfl
  | none => simp [hlookup, freshMembers] at h

/-- What a type lists as its constructors are constructors of the class behind it. -/
theorem SoundBodies.constructs (hs : u.SoundBodies) {t : TypeId} {id : MethodId} (h : id ∈ u.constructors t) :
    u.Constructs (u.types.classOf t) id :=
  hs.ctors _ _ (lookup_of_mem_ctors h) id h

/-- The class behind a type is finished and captures nothing when it is not local. -/
theorem SoundBodies.foreign_class (hs : u.SoundBodies) (hu : u.types.WellFormed) {t : TypeId}
    (h : u.types.isLocalClass t = false) : u.isComplete t ∧ u.captures t = [] := by
  have hclass : u.types.isLocalClass (u.types.classOf t) = false := by
    rwa [TypeStore.isLocalClass, hu.classInfo?_classOf]
  exact hs.entry_foreign hclass

/-- The invariant is kept while no body is finished. -/
theorem SoundBodies.move (hu : u.WellFormed) (h : Move nothing u u') (hs : u.SoundBodies) : u'.SoundBodies where
  ctors cls c' hc' id hid := by
    rcases (h.follows hu hc').ctors id hid with hold | hnew
    · exact h.sameCallables.sameKinds.constructs hu h.types_extends (hs.ctors cls _ (lookup_of_mem_ctors hold) id hold)
    · exact hnew.1
  foreign cls c' hc' hlocal := by
    have hf := h.follows hu hc'
    obtain ⟨hdone, hnone⟩ := hs.entry_foreign (isLocalClass_extends hu.types h.types_extends hf.known ▸ hlocal)
    have hdone' := hf.complete.trans hdone
    exact ⟨hdone', (hf.captures hdone').trans hnone⟩
  params cls c' hc' hcomplete id hid := by
    have hf := h.follows hu hc'
    rcases hf.ctors id hid with hold | ⟨-, hfresh, hbare, -⟩
    · have hrecorded := lookup_of_mem_ctors hold
      obtain ⟨m, hm⟩ := Option.isSome_iff_exists.mp (hs.ctors cls _ hrecorded id hold).has
      obtain ⟨m', hm', -, -, hparams⟩ := h.sameCallables id m hm
      rw [method_eq hm', hparams, hf.captures hcomplete, ← method_eq hm]
      exact hs.params cls _ hrecorded (hf.complete ▸ hcomplete) id hold
    · -- A constructor of a finished class is new only when the class is not local, and then there are no captures.
      rw [hcomplete, freshMembers_complete] at hfresh
      have hnone := (hs.entry_foreign (by simpa using hfresh.symm)).2
      rw [hbare, hf.captures hcomplete, hnone]
      rfl
  methods id hid := by
    rcases h.listed_cases hu hid with hold | hnew
    · exact h.sameCallables.sameKinds.isMethod (hs.methods id hold)
    · exact hnew.1

/-- A callable after some constructors got parameters for captures. -/
theorem method?_setCaptureParams (ps : List TypeId) {ids : List MethodId} (hids : ∀ id ∈ ids, id ≠ .none)
    (methods : u'.methods = ids.foldl (fun ms id => ms.modify (id.index - 1) ({ · with captureParams := ps })) u.methods)
    (id : MethodId) :
    u'.method? id = (u.method? id).map fun m => if id ∈ ids then { m with captureParams := ps } else m := by
  induction ids generalizing u with
  | nil =>
    have hsame : u'.method? id = u.method? id := by rw [method?, methods]; rfl
    simp [hsame]
  | cons c ids ih =>
    have hrest := ih (u := { u with methods := u.methods.modify (c.index - 1) ({ · with captureParams := ps }) })
      (fun id hid => hids id (by simp [hid])) methods
    have hc : c.index ≠ 0 := fun h => hids c (by simp) (by rw [MethodId.none, ← h])
    rw [hrest]
    unfold method?
    by_cases hid : id = .none
    · simp [hid]
    · have hindex : id.index ≠ 0 := fun h => hid (by rw [MethodId.none, ← h])
      have hsame : (c.index - 1 = id.index - 1) ↔ id = c := by
        refine ⟨fun h => ?_, fun h => by rw [h]⟩
        have : id.index = c.index := by omega
        cases id; cases c; simp_all
      simp only [if_neg hid, Array.getElem?_modify, hsame]
      by_cases hcid : id = c
      · simp [hcid, Option.map_map, Function.comp_def]
      · simp [hcid]

/-- A callable after a body was finished. -/
theorem method?_completeClass (hs : u.SoundBodies) {t : TypeId} (hopen : u.isComplete t = false) (id : MethodId) :
    (completeClass t u).2.method? id = (u.method? id).map fun m =>
      if id ∈ (u.membersOf t).ctors then { m with captureParams := (u.captures t).map (·.type) } else m := by
  rcases completeClass_cases t u with ⟨hcomplete, -⟩ | ⟨-, h⟩
  · simp [hopen] at hcomplete
  · refine method?_setCaptureParams _ (fun id hid => ?_) (by rw [h]) id
    have hhas := (hs.constructs hid).has
    rintro rfl
    simp [Has, method?] at hhas

/-- Finishing a body leaves kinds and classes of callables alone. -/
theorem sameKinds_completeClass (hs : u.SoundBodies) (t : TypeId) : SameKinds u (completeClass t u).2 := by
  intro id m hm
  rcases completeClass_cases t u with ⟨-, h⟩ | ⟨hopen, -⟩
  · exact ⟨m, by rw [h, hm], rfl, rfl⟩
  · have hafter := method?_completeClass hs hopen id
    rw [hm, Option.map_some] at hafter
    refine ⟨_, hafter, ?_⟩
    split <;> exact ⟨rfl, rfl⟩

/-- What is listed after a body was finished was listed before. -/
theorem listed_completeClass {t : TypeId} {id : MethodId} (h : (completeClass t u).2.Listed id) : u.Listed id := by
  rcases completeClass_cases t u with ⟨-, heq⟩ | ⟨-, heq⟩
  · rwa [heq] at h
  · rw [heq] at h
    cases h with
    | declared found mem =>
      rcases lookup_put_cases (u := u) rfl found with ⟨rfl, rfl⟩ | found
      · exact .declared (lookup_of_entry rfl (.inl (List.ne_nil_of_mem mem))) mem
      · exact .declared found mem
    | clone made eq => exact .clone made eq
    | table found built lists =>
      rcases lookup_put_cases (u := u) rfl found with ⟨rfl, rfl⟩ | found
      · exact .table (lookup_of_entry rfl (.inr ⟨_, built⟩)) built lists
      · exact .table found built lists
    | array mem lists => exact .array mem lists

/-- The invariant is kept when a body is finished: the constructors of the class get the
parameters that they need. Other classes list other constructors, so theirs are not touched.
-/
theorem SoundBodies.finish (hu : u.WellFormed) (hs : u.SoundBodies) (t : TypeId) : (completeClass t u).2.SoundBodies := by
  have hkinds := sameKinds_completeClass hs t
  rcases completeClass_cases t u with ⟨-, h⟩ | ⟨hopen, h⟩
  · rwa [h]
  have htypes : (completeClass t u).2.types = u.types := by rw [h]
  have hextends : u.types.Extends (completeClass t u).2.types := htypes ▸ .refl _
  have hmembers : (completeClass t u).2.members
      = Assoc.put (u.types.classOf t) { u.membersOf t with complete := true } u.members := by rw [h]
  -- Who constructs the finished class constructs no other one.
  have hother {cls : TypeId} {id : MethodId} (hid : u.Constructs cls id) (hmem : id ∈ (u.membersOf t).ctors) :
      cls = u.types.classOf t :=
    hid.owner.symm.trans (hs.constructs hmem).owner
  refine ⟨fun cls c' hc' id hid => ?_, fun cls c' hc' hlocal => ?_, fun cls c' hc' hcomplete id hid => ?_, fun id hid => ?_⟩
  · rcases lookup_put_cases hmembers hc' with ⟨rfl, rfl⟩ | hc
    · exact hkinds.constructs hu hextends (hs.constructs hid)
    · exact hkinds.constructs hu hextends (hs.ctors cls c' hc id hid)
  · rw [htypes] at hlocal
    rcases lookup_put_cases hmembers hc' with ⟨rfl, rfl⟩ | hc
    · exact ⟨rfl, (hs.entry_foreign hlocal).2⟩
    · exact hs.foreign cls c' hc hlocal
  · have hafter := method?_completeClass hs hopen id
    rcases lookup_put_cases hmembers hc' with ⟨rfl, rfl⟩ | hc
    · obtain ⟨m, hm⟩ := Option.isSome_iff_exists.mp (hs.constructs hid).has
      rw [hm, Option.map_some, if_pos hid] at hafter
      rw [method_eq hafter]
      rfl
    · have hconstructs := hs.ctors cls c' hc id hid
      obtain ⟨m, hm⟩ := Option.isSome_iff_exists.mp hconstructs.has
      by_cases hmem : id ∈ (u.membersOf t).ctors
      · obtain rfl := hother hconstructs hmem
        rw [hm, Option.map_some, if_pos hmem] at hafter
        rw [method_eq hafter]
        have hsame : u.membersOf t = c' := (membersOf_eq_entry u t).trans (entry_of_lookup hc)
        rw [captures, hsame]
      · rw [hm, Option.map_some, if_neg hmem] at hafter
        rw [method_eq hafter, ← method_eq hm]
        exact hs.params cls c' hc hcomplete id hid
  · exact hkinds.isMethod (hs.methods id (listed_completeClass hid))

namespace Moves

/-- The invariant is kept by whatever happens. -/
theorem soundBodies (h : Moves mayFinish u u') (hs : u.SoundBodies) : u'.SoundBodies := by
  refine h.keeps (fun {v w} hv hmove hsv => ?_) hs
  rcases hmove.split with hmove | ⟨t, -, -, rfl⟩
  · exact hsv.move hv hmove
  · exact hsv.finish hv t

/-- Kinds and classes of callables stay, whatever is finished on the way. -/
theorem sameKinds (h : Moves mayFinish u u') (hs : u.SoundBodies) : SameKinds u u' := by
  suffices hboth : u'.SoundBodies ∧ SameKinds u u' from hboth.2
  refine h.keeps (I := fun v => v.SoundBodies ∧ SameKinds u v) (fun {v w} hv hmove hi => ?_) ⟨hs, .refl u⟩
  rcases hmove.split with hmove | ⟨t, -, -, rfl⟩
  · exact ⟨hi.1.move hv hmove, hi.2.trans hmove.sameCallables.sameKinds⟩
  · exact ⟨hi.1.finish hv t, hi.2.trans (sameKinds_completeClass hi.1 t)⟩

end Moves

/-! ## Which classes are finished

A class that no move may finish stays as open as it is.
-/

/-- A class is finished after a body was when it was finished before, or when it is the class
of that body. -/
theorem isComplete_completeClass_iff (u : Universe) (t cls : TypeId) :
    (completeClass t u).2.isComplete cls ↔ u.types.classOf t = u.types.classOf cls ∨ u.isComplete cls := by
  rcases completeClass_cases t u with ⟨hdone, h⟩ | ⟨-, h⟩
  · rw [h]
    refine ⟨.inr, fun hcls => hcls.elim (fun heq => ?_) id⟩
    rwa [isComplete, ← membersOf_congr heq]
  · have htypes : (completeClass t u).2.types = u.types := by rw [h]
    have hmembers : (completeClass t u).2.members =
        Assoc.put (u.types.classOf t) { u.membersOf t with complete := true } u.members := by rw [h]
    have hentry := entry_put hmembers htypes (u.types.classOf cls)
    rw [isComplete, isComplete, membersOf_eq_entry, membersOf_eq_entry, htypes, hentry]
    by_cases heq : u.types.classOf cls = u.types.classOf t
    · simp [heq]
    · simp [heq, Ne.symm heq]

/-- A local class that has a name. Binding a creation finishes the anonymous class that it
makes, and no other one; so whether a class with a name is finished is told by the steps that
complete it. -/
structure NamedLocal (s : TypeStore) (cls : TypeId) : Prop where
  /-- The class is its own class. -/
  own : s.classOf cls = cls
  /-- It is local, and not anonymous. -/
  info : ∃ info, s.classInfo? cls = some info ∧ info.flags.isLocal ∧ info.flags.isAnonymous = false

/-- Whether a type is a local class with a name can be computed. -/
theorem namedLocal_iff {s : TypeStore} {cls : TypeId} : NamedLocal s cls ↔
    s.classOf cls = cls ∧ (s.classInfo? cls).any fun info => info.flags.isLocal ∧ info.flags.isAnonymous = false := by
  refine ⟨fun h => ⟨h.own, ?_⟩, fun h => ⟨h.1, ?_⟩⟩
  · obtain ⟨info, hinfo, hflags⟩ := h.info
    simpa [hinfo] using hflags
  · obtain ⟨info, hinfo, hflags⟩ := (Option.any_eq_true _ _).mp h.2
    exact ⟨info, hinfo, of_decide_eq_true hflags⟩

instance (s : TypeStore) (cls : TypeId) : Decidable (NamedLocal s cls) :=
  decidable_of_iff _ namedLocal_iff.symm

namespace NamedLocal

variable {cls : TypeId}

theorem isLocalClass {s : TypeStore} (h : NamedLocal s cls) : s.isLocalClass cls := by
  obtain ⟨info, hinfo, hlocal, -⟩ := h.info
  simp [TypeStore.isLocalClass, hinfo, hlocal]

theorem knows {s : TypeStore} (h : NamedLocal s cls) : s.Knows cls := by
  obtain ⟨info, hinfo, -⟩ := h.info
  exact TypeStore.knows_of_classInfo (by rw [hinfo]; rfl)

theorem mono {s s' : TypeStore} (h : NamedLocal s cls) (hs : s.WellFormed) (types : s.Extends s') : NamedLocal s' cls where
  own := (types.classOf h.knows).trans h.own
  info := types.classInfo hs h.knows ▸ h.info

/-- No body of the class is finished when only anonymous ones are. -/
theorem isComplete_move (h : NamedLocal u.types cls) (hu : u.WellFormed) (move : Move isAnonymous u u') :
    u'.isComplete cls ↔ u.isComplete cls := by
  have hlater := move.later hu h.knows
  have hlater : u.isComplete cls → u'.isComplete cls := by
    rw [isComplete, isComplete, membersOf_eq_entry, membersOf_eq_entry, move.types_extends.classOf h.knows, h.own]
    exact fun hdone => (hlater.finished hdone).1
  refine ⟨fun hdone => ?_, hlater⟩
  rcases move.split with move | ⟨t, -, hanonymous, rfl⟩
  · rw [isComplete, membersOf_eq_entry, move.types_extends.classOf h.knows, h.own] at hdone
    rw [isComplete, membersOf_eq_entry, h.own]
    cases hlookup : u'.members.lookup cls with
    | some c =>
      rw [← (move.follows hu hlookup).complete, ← entry_of_lookup hlookup]
      exact hdone
    | none =>
      have hopen := (h.mono hu.types move.types_extends).isLocalClass
      simp [entry, hlookup, freshMembers_complete, hopen] at hdone
  · refine ((isComplete_completeClass_iff u t cls).mp hdone).resolve_left fun heq => ?_
    obtain ⟨info, hinfo, hflag⟩ := hanonymous
    obtain ⟨info', hinfo', -, hnamed⟩ := h.info
    rw [← hu.types.classInfo?_classOf, heq, hu.types.classInfo?_classOf, hinfo'] at hinfo
    cases hinfo
    simp [hnamed] at hflag

/-- Moves that finish only anonymous classes leave the class as open as it is. -/
theorem isComplete_moves (h : NamedLocal u.types cls) (moves : Moves isAnonymous u u') :
    u'.isComplete cls ↔ u.isComplete cls := by
  suffices hboth : NamedLocal u'.types cls ∧ (u'.isComplete cls ↔ u.isComplete cls) from hboth.2
  refine moves.keeps (I := fun v => NamedLocal v.types cls ∧ (v.isComplete cls ↔ u.isComplete cls)) (fun {v w} hv move hi => ?_) ⟨h, .rfl⟩
  exact ⟨hi.1.mono hv.types move.types_extends, (hi.1.isComplete_move hv move).trans hi.2⟩

end NamedLocal

/-! ## Before anything is finished

The start of every run, where the invariants are computed or read off.
-/

/-- The body of a known class starts as open as it did. -/
theorem freshMembers_extends (hu : u.types.WellFormed) (types : u.types.Extends u'.types) {cls : TypeId}
    (hcls : u.types.Knows cls) : u'.freshMembers cls = u.freshMembers cls := by
  unfold freshMembers
  rw [types.classInfo hu hcls]

/-- Moves that finish no body leave all of them as they were. -/
theorem Moves.unfinished (h : Moves nothing u u') (hun : u.Unfinished) : u'.Unfinished := by
  refine h.keeps (fun {v w} hv hmove hun cls c' hc' => ?_) hun
  have hf := hmove.follows hv hc'
  rw [hf.complete, freshMembers_extends hv.types hmove.types_extends hf.known, entry]
  cases hlookup : v.members.lookup cls with
  | some c => exact hun cls c hlookup
  | none => rfl

/-- Where nothing is finished a body is open when and only when its class is local. -/
theorem Unfinished.isComplete (hun : u.Unfinished) (t : TypeId) :
    u.isComplete t = (u.freshMembers (u.types.classOf t)).complete := by
  show (u.entry (u.types.classOf t)).complete = _
  unfold entry
  cases hlookup : u.members.lookup (u.types.classOf t) with
  | some c => exact hun _ c hlookup
  | none => rfl

/-- What is predefined: classes that are not local and list constructors and methods of their
own, callables that forward to nothing and whose signatures have been processed, and neither
accessors nor reports. No parameter is bad, and no class lies in a bad one. -/
theorem initial_declares :
    (∀ p ∈ initial.members, p.1 ≠ .none ∧ (p.2.complete ∧ p.2.captures = []) ∧
      (∃ slot ∈ List.range TypeStore.predefinedClasses.length, TypeStore.predefinedShapes[p.1.index]? = some (.declared slot) ∧
        ∃ info ∈ TypeStore.predefinedClasses[slot]?, info.flags.isLocal = false) ∧
      (∀ id ∈ p.2.ctors, ∃ m ∈ initial.method? id, m.isConstructor ∧ m.owner = p.1 ∧ m.captureParams = []) ∧
      (∀ id ∈ p.2.methods, ∃ m ∈ initial.method? id, m.isConstructor = false) ∧ p.2.accessors = []) ∧
    (∀ m ∈ initial.methods.toList, (m.flags.isAccessor = false ∧ m.target = .none ∧ m.signature = .resolved) ∧
      (m.flags.isVariadic → ∃ t ∈ m.params.getLast?, initial.types.isArray t)) ∧
    initial.accessors = [] ∧ initial.reports.size = 0 ∧
    (∀ m ∈ initial.methods.toList, ∀ t ∈ m.params, initial.types.isBad t = false) ∧
    (∀ info ∈ initial.types.classes.toList, initial.types.isBad info.outer = false) := by
  decide +kernel

/-- A universe before members are declared: there is nothing but what is predefined. -/
structure Untouched (u : Universe) : Prop where
  /-- The universe is plain. -/
  plain : u.Plain
  /-- Classes lie in earlier ones. -/
  nested : u.types.Nested
  /-- The predefined types are there. -/
  grown : initial.types.Grows u.types
  /-- Only predefined classes have members. -/
  members : u.members = initial.members
  /-- There are only predefined callables. -/
  methods : u.methods = initial.methods
  /-- Only predefined callables are linked. -/
  links : u.links = initial.links
  /-- There is no accessor. -/
  accessors : u.accessors = []
  /-- No signature was found broken. -/
  reports : ∀ d ∈ u.reports, d.code ≠ .unresolvedSignature

/-- The universe before anything is declared is untouched. -/
theorem initial_untouched : initial.Untouched :=
  ⟨initial_plain.1, initial_plain.2, .refl _, rfl, rfl, rfl, initial_declares.2.2.1,
    by simp [Array.eq_empty_of_size_eq_zero initial_declares.2.2.2.1]⟩

/-- An untouched universe has the predefined callables. -/
theorem Untouched.method? (h : u.Untouched) (id : MethodId) : u.method? id = initial.method? id := by
  rw [Universe.method?, h.methods]
  rfl

/-- No predefined callable has a parameter of the bad type, and no predefined class lies in
it. -/
theorem Untouched.genuine (h : u.Untouched) : u.Genuine where
  housed := h.grown.housed fun i info hinfo => by
    refine ⟨(initial_plain.1.types.1.classes i info hinfo).outer, ?_⟩
    simp [initial_declares.2.2.2.2.2 info (Array.mem_toList_iff.mpr (Array.mem_of_getElem? hinfo))]
  params i m hm t ht := by
    rw [h.methods] at hm
    refine h.grown.genuine ⟨(initial_plain.1.methods i m hm).params t ht, ?_⟩
    simp [initial_declares.2.2.2.2.1 m (Array.mem_toList_iff.mpr (Array.mem_of_getElem? hm)) t ht]
  placeholders p hp := by simp [h.plain.placeholders] at hp

/-- Predefined classes list methods of their own, each once, and have no tables. -/
theorem initial_tidy : ∀ p ∈ initial.members, p.2.methods.Nodup ∧
    (∀ id ∈ p.2.methods, ∃ m ∈ initial.method? id, m.owner = p.1) ∧ p.2.table = .unbuilt := by
  decide +kernel

/-- What predefined classes list is in order. -/
theorem Untouched.tidy (h : u.Untouched) : u.Tidy where
  types := h.plain.types.1
  callables := h.plain.methods
  members p hp := by
    obtain ⟨hnodup, hown, hunbuilt⟩ := initial_tidy p (h.members ▸ hp)
    refine ⟨hnodup, fun id hid => ?_, fun t hbuilt => ?_⟩
    · obtain ⟨m, hm, howner⟩ := hown id hid
      exact ⟨m, (h.method? id).trans hm, howner⟩
    · rw [hunbuilt] at hbuilt
      cases hbuilt

/-- There is no table before anything is declared. -/
theorem Untouched.unbuilt (h : u.Untouched) (cls : TypeId) : (u.outline cls).2 = .unbuilt := by
  unfold outline
  cases hlookup : u.members.lookup cls with
  | none => simp
  | some c => exact (initial_tidy (cls, c) (h.members ▸ TypeStore.mem_of_lookup hlookup)).2.2

/-- No table is being made before anything is declared. -/
theorem Untouched.not_isMaking (h : u.Untouched) (cls : TypeId) : ¬ u.IsMaking cls := by
  rintro ⟨c, hc, hmaking⟩
  rw [(initial_tidy (cls, c) (h.members ▸ TypeStore.mem_of_lookup hc)).2.2] at hmaking
  cases hmaking

/-- The invariant holds of an untouched universe, and no body is finished there. -/
theorem Untouched.soundBodies (hu : u.Untouched) : u.SoundBodies ∧ u.Unfinished := by
  have hbody {cls : TypeId} {c : ClassMembers} (h : u.members.lookup cls = some c) :=
    initial_declares.1 (cls, c) (hu.members ▸ TypeStore.mem_of_lookup h)
  have hclass {cls : TypeId} {c : ClassMembers} (h : u.members.lookup cls = some c) :
      u.types.classOf cls = cls ∧ u.types.isLocalClass cls = false := by
    obtain ⟨hne, -, ⟨slot, -, hshape, info, hinfo, hlocal⟩, -⟩ := hbody h
    have hdeclared : u.types.shape cls = .declared slot := hu.plain.types.1.shape_predefined hne hshape
    refine ⟨by simp [TypeStore.classOf, hdeclared], ?_⟩
    have hfound : u.types.classInfo? cls = some info := by
      simp [TypeStore.classInfo?, TypeStore.classSlot?, hdeclared, hu.plain.types.1.predefinedHeaders slot info hinfo]
    simp [TypeStore.isLocalClass, hfound, hlocal]
  refine ⟨⟨fun cls c hc id hid => ?_, fun cls c hc _ => (hbody hc).2.1, fun cls c hc _ id hid => ?_, fun id hid => ?_⟩,
    fun cls c hc => ?_⟩
  · obtain ⟨m, hm, hctor, howner, -⟩ := (hbody hc).2.2.2.1 id hid
    have hm' : u.method? id = some m := (hu.method? id).trans hm
    exact ⟨by simp [Has, hm'], by rw [method_eq hm']; exact hctor, by rw [method_eq hm', howner, (hclass hc).1]⟩
  · obtain ⟨m, hm, -, -, hbare⟩ := (hbody hc).2.2.2.1 id hid
    rw [method_eq ((hu.method? id).trans hm), hbare, (hbody hc).2.1.2]
    rfl
  · cases hid with
    | declared found mem =>
      obtain ⟨m, hm, hctor⟩ := (hbody found).2.2.2.2.1 id mem
      have hm' : u.method? id = some m := (hu.method? id).trans hm
      exact ⟨by simp [Has, hm'], by rw [method_eq hm']; exact hctor⟩
    | clone made _ => simp [hu.plain.arrayClone, MethodId.isSome] at made
    | table found built _ => exact absurd built (hu.plain.tables _ (TypeStore.mem_of_lookup found) _)
    | array mem _ => simp [hu.plain.arrayTables] at mem
  · have hlocal := (hclass hc).2
    rw [TypeStore.isLocalClass] at hlocal
    simpa [freshMembers, hlocal] using (hbody hc).2.1.1

/-- A universe that an untouched one became. Every universe of a run is one, from the loading
of the document on; so an invariant needs to be checked of what is predefined, and shown to be
kept by moves. -/
def Populated (u : Universe) : Prop :=
  ∃ v, v.Untouched ∧ Moves anything v u

namespace Populated

variable {u' : Universe} {mayFinish : Universe → TypeId → Prop}

/-- What follows by moves is populated too. -/
theorem moves (h : u.Populated) (hmoves : Moves mayFinish u u') : u'.Populated :=
  h.imp fun _ h => ⟨h.1, h.2.trans hmoves.toAnything⟩

/-- What holds before anything is declared, and is kept by every move, holds. -/
theorem keeps (h : u.Populated) {I : Universe → Prop} (start : ∀ v, v.Untouched → I v)
    (step : ∀ {v w : Universe}, v.WellFormed → Move anything v w → I v → I w) : I u := by
  obtain ⟨v, hv, hmoves⟩ := h
  exact hmoves.keeps step (start v hv)

/-- The bodies of its classes are in order. -/
theorem soundBodies (h : u.Populated) : u.SoundBodies := by
  obtain ⟨v, hv, hmoves⟩ := h
  exact hmoves.soundBodies hv.soundBodies.1

end Populated

end Universe

end CallResolution
