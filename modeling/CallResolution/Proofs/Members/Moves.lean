import CallResolution.Document.Classes
import CallResolution.Members.Accessor
import CallResolution.Proofs.Members.Growth

/-!
# Moves of universes

`Universe.Move` lists all that can happen to a universe once headers are set: types are made,
signatures are processed, members, accessors and tables are added, classes capture variables,
and bodies of classes are finished. Which bodies may be finished is left open: none while a
call is lowered, those of anonymous classes while it is bound, and any of them while a program
is run. `Universe.Moves` is a chain of moves from well-formed universes, and what every move
keeps, every chain keeps.

Extensions say what stays true; moves say what was done. An invariant that is about all
classes at once, such as that constructors have a parameter for each capture, does not follow
from an extension, and the functions that might break it are many. So it is shown of the kinds
of move, of which there are a dozen: `Moves.keeps` is the induction, done once. The captures
of classes, their bodies, conflicts, accessors and chains are treated so in the modules behind
this one.

What a move leaves as it was is read off in a way that suits these invariants. `Move.later`
speaks of the members that are recorded of a class (`entry`), `hosted` of its accessors and
`outline` of its methods and its table; each of the views is changed by few of the moves, and
what it becomes is said of those. Finishing a body is the move of which least can be said, and
`mayFinish` is there to leave it out: a class that no move may finish stays as open as it is.

The making of tables needs another cut through the same universe. A table is made while others
are, so moves in between see it half made; `TableStep` takes the whole of it as one step, and
`Aside` is what happens between two of them. `gathering` is the evolution of universes inside
such a step, and `binding` that of universes in which no table is left half made.

Two invariants depend on what a document says. Type variables are bounded by classes and type
variables when the texts of signatures bound them so (`Bounded`), and the marks that
constructors take in their accessors are classes when the outermost class of what they mark is
found (`Marked`). A move may break them, since a text may be any; so each function is shown to
keep both where it is shown to move the universe (`works_of_move`), and `Aside` and
`gathering` hand this on.

Main statements: `Moves.keeps`; `onTypes_works`, `readText_leads`, `addMethod_works`,
`addField_works` and `withTable_leads`, by which functions on universes are followed along
`binding`; and `Moves.later`, `Moves.finished` and `Moves.listed`, which say what stays.
-/

namespace CallResolution

/-- A method is that of an overload, or in conflict with it. -/
def Shadow.Names (s : Shadow) (id : MethodId) : Prop :=
  id = s.method ∨ id ∈ s.conflicts

/-- A callable with the signature of a draft. -/
def Method.withDraft (d : SignatureDraft) (m : Method) : Method :=
  { m with
    typeParams := d.typeVars.map (·.1), params := d.params, returns := d.returns, throws := d.throws,
    signature := .resolved }

/-- A callable as its class declares it: it forwards to nothing, and when its signature is
still a text, the text says whether it is of variable arity. -/
structure Method.AsDeclared (m : Method) : Prop where
  /-- It has no parameters for captures yet. -/
  bare : m.captureParams = []
  /-- It is no accessor. -/
  notAccessor : m.flags.isAccessor = false
  /-- It forwards to nothing. -/
  direct : m.target = .none
  /-- How far its signature has been processed. -/
  signature : (∃ text, m.signature = .pending text ∧ m.flags.isVariadic = Loader.endsVariadic text.params) ∨
    m.signature = .resolved ∧ m.flags.isVariadic = false

/-- An expression is written like a class or a type variable: it names no keyword, and it has
no dimension. -/
def TypeExpr.IsBound : TypeExpr → Prop
  | .mk name _ dims variadic => primitiveNamed? name = none ∧ dims = 0 ∧ variadic = false

/-- The bounds of type variables in the text of a signature are written like classes and type
variables, as far as they can be read. What cannot be read is a fault of the signature, and
bounds nothing. -/
def SignatureText.Bounded (text : SignatureText) : Prop :=
  ∀ src ∈ text.typeParams, ∀ p ∈ (TypeExpr.parseParam src).toOption, ∀ b ∈ p.bounds, b.IsBound

/-- Type variables are bounded by classes and type variables, and so are those in signatures
that are still texts. A text becomes the bounds of type variables when it is processed, so
both parts are needed for either to be kept. -/
structure Universe.Bounded (u : Universe) : Prop where
  /-- The type variables that there are. -/
  types : u.types.Bounded
  /-- Those in texts. -/
  texts : ∀ m ∈ u.methods, ∀ text, m.signature = .pending text → text.Bounded

/-- Bounds stay proper when no text comes in. -/
theorem Universe.Bounded.evolve {u u' : Universe} (h : u.Bounded) (types : u'.types.Bounded)
    (texts : ∀ m ∈ u'.methods, ∀ text, m.signature = .pending text → ∃ m₀ ∈ u.methods, m₀.signature = .pending text) :
    u'.Bounded where
  types := types
  texts m hm text hsig := by
    obtain ⟨m₀, hm₀, hsig₀⟩ := texts m hm text hsig
    exact h.texts m₀ hm₀ text hsig₀

/-- Bounds stay proper when neither types nor callables are touched. -/
theorem Universe.Bounded.of_same {u u' : Universe} (h : u.Bounded) (types : u'.types = u.types) (methods : u'.methods = u.methods) :
    u'.Bounded :=
  h.evolve (types ▸ h.types) fun m hm _ hsig => ⟨m, methods ▸ hm, hsig⟩

/-- Bounds stay proper when a callable comes in that is no text. -/
theorem Universe.Bounded.push {u u' : Universe} (h : u.Bounded) {m : Method} (types : u'.types = u.types)
    (methods : u'.methods = u.methods.push m) (settled : ∀ text, m.signature ≠ .pending text) : u'.Bounded :=
  h.evolve (types ▸ h.types) fun m' hm' text hsig => by
    rcases Array.mem_push.mp (methods ▸ hm') with hm' | rfl
    · exact ⟨m', hm', hsig⟩
    · exact absurd hsig (settled text)

/-- A type marks the constructors below an outermost class. It is a class when that one is a
top-level class, as it is unless classes are nested too deep. -/
def Universe.IsMark (u : Universe) (top t : TypeId) : Prop :=
  u.types.Knows top ∧ (u.types.TopLevel top → u.types.isReference t)

/-- The accessor of a constructor takes a mark last. What the member is and where it lies is
settled once its signature is processed, and the parameters of the accessor are settled when
it is made. -/
structure Universe.TakesMark (u : Universe) (key : AccessorKey) (acc : MethodId) : Prop where
  /-- The signature of the constructor is processed. -/
  member : (u.method key.member).isResolved
  /-- The signature of the accessor is processed. -/
  resolved : (u.method acc).isResolved
  /-- The last parameter is a class when the constructor lies below a top-level class. -/
  last : u.types.TopLevel (u.types.outermost (u.method key.member).owner) →
    ∀ t ∈ (u.method acc).params.getLast?, u.types.isReference t

/-- Constructors are marked by classes, as far as they lie below top-level classes. The marks
are kept apart from the accessors, since an outermost class has one mark for all constructors
below it. -/
structure Universe.Marked (u : Universe) : Prop where
  /-- The marks that there are. -/
  placeholders : ∀ p ∈ u.placeholders, u.IsMark p.1 p.2
  /-- The accessors that take them. -/
  accessors : ∀ p ∈ u.accessors, p.1.kind = .constructor → u.TakesMark p.1 p.2

/-- A mark stays one. -/
theorem Universe.IsMark.keeps {u u' : Universe} {top t : TypeId} (h : u.IsMark top t) (hu : u.WellFormed) (hk : u.Keeps u') :
    u'.IsMark top t := by
  refine ⟨hk.types.knows h.1, fun htop => ?_⟩
  have hreference := h.2 ((hk.types.topLevel hu.types h.1).mp htop)
  rwa [hk.types.isReference (TypeStore.denotes_of_isReference hreference).knows]

/-- What an accessor takes last stays. -/
theorem Universe.TakesMark.keeps {u u' : Universe} {key : AccessorKey} {acc : MethodId} (h : u.TakesMark key acc)
    (hu : u.WellFormed) (hk : u.Keeps u') : u'.TakesMark key acc := by
  have howner := (hu.method key.member).owner
  refine ⟨hk.isResolved h.member, hk.isResolved h.resolved, fun htop t ht => ?_⟩
  rw [(hk.later h.member).owner, hk.types.outermost hu.types howner,
    hk.types.topLevel hu.types (hu.types.knows_outermost howner)] at htop
  rw [((hk.later h.resolved).resolved h.resolved).2.1] at ht
  have hreference := h.last htop t ht
  rwa [hk.types.isReference (TypeStore.denotes_of_isReference hreference).knows]

/-- Constructors go on to be marked by classes where the new marks are classes. -/
theorem Universe.Marked.evolve {u u' : Universe} (h : u.Marked) (hu : u.WellFormed) (hk : u.Keeps u')
    (placeholders : ∀ p ∈ u'.placeholders, p ∈ u.placeholders ∨ u'.IsMark p.1 p.2)
    (accessors : ∀ p ∈ u'.accessors, p ∈ u.accessors ∨ (p.1.kind = .constructor → u'.TakesMark p.1 p.2)) : u'.Marked where
  placeholders p hp := by
    rcases placeholders p hp with hold | hnew
    · exact (h.placeholders p hold).keeps hu hk
    · exact hnew
  accessors p hp hkind := by
    rcases accessors p hp with hold | hnew
    · exact (h.accessors p hold hkind).keeps hu hk
    · exact hnew hkind

/-- Constructors go on to be marked by classes where there is no new mark. -/
theorem Universe.Marked.keeps {u u' : Universe} (h : u.Marked) (hu : u.WellFormed) (hk : u.Keeps u')
    (placeholders : u'.placeholders = u.placeholders) (accessors : u'.accessors = u.accessors) : u'.Marked :=
  h.evolve hu hk (fun _ hp => .inl (placeholders ▸ hp)) fun _ hp => .inl (accessors ▸ hp)

/-- The marks of constructors depend on types, callables and what is recorded of marks. -/
theorem Universe.Marked.of_same {u u' : Universe} (h : u.Marked) (types : u'.types = u.types) (methods : u'.methods = u.methods)
    (placeholders : u'.placeholders = u.placeholders) (accessors : u'.accessors = u.accessors) : u'.Marked := by
  have hmethod (id : MethodId) : u'.method id = u.method id := by simp only [method, method?, methods]
  refine ⟨fun p hp => ?_, fun p hp hkind => ?_⟩
  · simpa only [IsMark, types] using h.placeholders p (placeholders ▸ hp)
  · obtain ⟨hmember, hresolved, hlast⟩ := h.accessors p (accessors ▸ hp) hkind
    exact ⟨hmethod _ ▸ hmember, hmethod _ ▸ hresolved, by simpa only [hmethod, types] using hlast⟩

/-- Type variables have proper bounds, and constructors proper marks. -/
structure Universe.Proper (u : Universe) : Prop extends Universe.Bounded u, Universe.Marked u

/-- What is proper stays so when no type, callable or mark comes in. -/
theorem Universe.Proper.of_same {u u' : Universe} (h : u.Proper) (types : u'.types = u.types) (methods : u'.methods = u.methods)
    (placeholders : u'.placeholders = u.placeholders) (accessors : u'.accessors = u.accessors) : u'.Proper :=
  ⟨h.toBounded.of_same types methods, h.toMarked.of_same types methods placeholders accessors⟩

/-- A class may declare a callable: a method of an interface is public, and the root class
gets no further method. -/
structure Universe.Admits (u : Universe) (m : Method) : Prop where
  /-- The methods of interfaces. -/
  interface : m.isConstructor = false → u.types.IsInterface m.owner → m.access = .pub
  /-- The methods of the root class. -/
  root : m.isConstructor = false → u.types.classOf m.owner ≠ .object

/-- A class may declare any constructor. -/
theorem Universe.Admits.of_constructor {u : Universe} {m : Method} (h : m.isConstructor) : u.Admits m :=
  ⟨by simp [h], by simp [h]⟩

/-- A method is one of the overloads in a table, or in conflict with one. -/
def MemberTable.Lists (t : MemberTable) (id : MethodId) : Prop :=
  ∃ p ∈ t.methods, ∃ s ∈ p.2, s.Names id

namespace Universe

/-- A method is declared by a class, made for arrays, or listed in a member table. -/
inductive Listed (u : Universe) (id : MethodId) : Prop
  /-- A class declares it. -/
  | declared {cls : TypeId} {c : ClassMembers} (found : u.members.lookup cls = some c) (mem : id ∈ c.methods)
  /-- It clones arrays. -/
  | clone (made : u.arrayClone.isSome) (eq : id = u.arrayClone)
  /-- The table of a class lists it. -/
  | table {cls : TypeId} {c : ClassMembers} {table : MemberTable} (found : u.members.lookup cls = some c)
      (built : c.table = .built table) (lists : table.Lists id)
  /-- The table of an array lists it. -/
  | array {p : TypeId × MemberTable} (mem : p ∈ u.arrayTables) (lists : p.2.Lists id)

/-- What is reported of a signature that cannot be resolved. -/
def brokenReport (s : TypeStore) (m : Method) (text : SignatureText) (faults : List (String × SignatureFault)) : Diagnostic :=
  let name :=
    if m.isConstructor then (s.classInfo? m.owner).elim text.name fun info => "constructor " ++ info.name
    else text.name
  faults.foldl (fun d p => d.withNote m.decl (p.1 ++ ": " ++ p.2.message))
    (.error .unresolvedSignature m.decl s!"cannot resolve the signature of {name} in {s.qualifiedName m.owner}")

/-- A callable with a number is one of those that there are. -/
theorem mem_methods {u : Universe} {id : MethodId} {m : Method} (h : u.method? id = some m) : m ∈ u.methods := by
  unfold method? at h
  split at h
  · cases h
  · exact Array.mem_of_getElem? h

/-- The text of a callable is processed: its draft takes its place, or the signature is
broken, and that is reported. -/
def ReadsText (u : Universe) (id : MethodId) (types : TypeStore) (f : Method → Method) (reports : Array Diagnostic) : Prop :=
  ∃ m text d, u.method? id = some m ∧ m.signature = .pending text ∧
    SignatureDraft.ofText id m.kind m.owner text u.types = (d, types) ∧
    (d.faults.isEmpty ∧ f = Method.withDraft d ∧ reports = u.reports ∨
      ¬ d.faults.isEmpty ∧ f = ({ · with signature := .broken }) ∧
        reports = u.reports.push (brokenReport types m text d.faults))

/-- Processing a text leaves all of a callable but its signature as it was. -/
theorem ReadsText.frame {u : Universe} {id : MethodId} {types : TypeStore} {f : Method → Method} {reports : Array Diagnostic}
    (h : ReadsText u id types f reports) (m : Method) : ∃ params returns throws typeParams signature,
      f m = { m with params, returns, throws, typeParams, signature } := by
  obtain ⟨_, _, d, -, -, -, ⟨-, rfl, -⟩ | ⟨-, rfl, -⟩⟩ := h
  · exact ⟨d.params, d.returns, d.throws, d.typeVars.map (·.1), .resolved, rfl⟩
  · exact ⟨m.params, m.returns, m.throws, m.typeParams, .broken, rfl⟩

/-- A text that was processed is none any more. -/
theorem ReadsText.settled {u : Universe} {id : MethodId} {types : TypeStore} {f : Method → Method} {reports : Array Diagnostic}
    (h : ReadsText u id types f reports) (m : Method) (text : SignatureText) : (f m).signature ≠ .pending text := by
  obtain ⟨_, _, d, -, -, -, ⟨-, rfl, -⟩ | ⟨-, rfl, -⟩⟩ := h
  · simp [Method.withDraft]
  · simp

/-- What an accessor is made for mentions known types. -/
def KnowsKey (s : TypeStore) (key : AccessorKey) : Prop :=
  s.Knows key.host ∧ s.Knows key.base

/-- What an accessor is made for stays known. -/
theorem KnowsKey.grows {s s' : TypeStore} {key : AccessorKey} (hkey : KnowsKey s key) (h : s.Grows s') : KnowsKey s' key :=
  ⟨h.knows hkey.1, h.knows hkey.2⟩

/-- An accessor is made for a key that has none, of a member whose signature is processed. -/
structure MakesAccessor (u : Universe) (key : AccessorKey) (acc : Method) : Prop where
  /-- The key mentions known types. -/
  known : KnowsKey u.types key
  /-- The key has no accessor. -/
  unmade : u.accessors.lookup key = none
  /-- The signature of the member is processed. -/
  resolved : (u.method key.member).isResolved
  /-- What is made: a method, or a constructor that takes a placeholder. -/
  made : key.kind = .method ∧ acc = u.methodAccessor key (u.method key.member) ∨
    key.kind = .constructor ∧ ∃ mark,
      u.placeholders.lookup (u.types.outermost (u.method key.member).owner) = some mark ∧
        acc = ctorAccessor key (u.method key.member) mark

/-- An accessor is no text. -/
theorem MakesAccessor.settled {u : Universe} {key : AccessorKey} {acc : Method} (h : u.MakesAccessor key acc)
    (text : SignatureText) : acc.signature ≠ .pending text := by
  rcases h.made with ⟨-, rfl⟩ | ⟨-, mark, -, rfl⟩
  · simp [methodAccessor]
  · simp [ctorAccessor]

/-- A universe with an accessor that was made for a key. -/
def withAccessor (u : Universe) (key : AccessorKey) (acc : Method) : Universe :=
  { u with
    methods := u.methods.push acc
    members := Assoc.put (u.types.classOf acc.owner)
      { u.membersOf acc.owner with accessors := (u.membersOf acc.owner).accessors ++ [⟨u.methods.size + 1⟩] } u.members
    accessors := Assoc.put key ⟨u.methods.size + 1⟩ u.accessors }

/-! ## Moves

The kinds of move, and chains of them. Everything that is shown of runs later on comes down to
one case for each kind, so what a move says is kept to what these cases need.
-/

/-- All that can happen to a universe once headers are set, where some bodies of classes may
be finished. A move says what its maker has checked, and no more than an invariant needs to be
kept by it: the accessor that is made is the one for its key, and what a new table lists was
listed before. -/
inductive Move (mayFinish : Universe → TypeId → Prop) : Universe → Universe → Prop
  /-- Types are made. -/
  | types {u : Universe} {types : TypeStore} (made : u.types.Extends types) : Move mayFinish u { u with types }
  /-- Something other than a broken signature is reported. -/
  | report {u : Universe} (d : Diagnostic) (other : d.code ≠ .unresolvedSignature) :
      Move mayFinish u { u with reports := u.reports.push d }
  /-- The text of a signature is processed. -/
  | read {u : Universe} {id : MethodId} {types : TypeStore} {f : Method → Method} {reports : Array Diagnostic}
      (made : u.types.Extends types) (reads : u.ReadsText id types f reports) :
      Move mayFinish u { u with types, methods := u.methods.modify (id.index - 1) f, reports }
  /-- A callable is declared; a constructor, before the body of its class is finished. -/
  | method {u : Universe} {m : Method} (known : u.types.Knows m.owner)
      (first : m.isConstructor → u.isComplete m.owner = (u.freshMembers (u.types.classOf m.owner)).complete)
      (declared : m.AsDeclared) (admits : u.Admits m) : Move mayFinish u (addMethod m u).2
  /-- A field is declared. -/
  | field {u : Universe} {f : Field} (known : u.types.Knows f.owner) : Move mayFinish u (addField f u).2
  /-- An accessor is made. -/
  | accessor {u : Universe} {key : AccessorKey} {acc : Method} (known : u.types.Knows acc.owner)
      (made : u.MakesAccessor key acc) : Move mayFinish u (u.withAccessor key acc)
  /-- A placeholder is remembered. -/
  | placeholder {u : Universe} (top t : TypeId) : Move mayFinish u { u with placeholders := Assoc.put top t u.placeholders }
  /-- The members of arrays are made. -/
  | arrayMembers {u : Universe} : Move mayFinish u (arrayMembers u).2
  /-- The table of an array is recorded. -/
  | arrayTable {u : Universe} {t : TypeId} {table : MemberTable} (listed : ∀ id, table.Lists id → u.Listed id)
      (plain : table.All fun s => s.conflicts = []) :
      Move mayFinish u { u with arrayTables := u.arrayTables ++ [(t, table)] }
  /-- The table of a class that has none is marked or recorded. -/
  | table {u : Universe} {cls : TypeId} {st : TableState} (known : u.types.Knows cls)
      (unmade : ∀ table, (u.membersOf cls).table ≠ .built table)
      (listed : ∀ table, st = .built table → ∀ id, table.Lists id → u.Listed id) : Move mayFinish u (u.withTable cls st)
  /-- A class captures a variable, if it still can. -/
  | capture {u : Universe} {t : TypeId} (name : String) (type : TypeId) (known : u.types.Knows t) :
      Move mayFinish u (addCapture t name type u).2
  /-- The body of a class is finished. -/
  | finish {u : Universe} {t : TypeId} (known : u.types.Knows t) (may : mayFinish u t) :
      Move mayFinish u (completeClass t u).2

/-- No body may be finished. -/
def nothing : Universe → TypeId → Prop :=
  fun _ _ => False

/-- Every body may be finished. -/
def anything : Universe → TypeId → Prop :=
  fun _ _ => True

/-- Only bodies of anonymous classes may be finished. -/
def isAnonymous (u : Universe) (t : TypeId) : Prop :=
  ∃ info, u.types.classInfo? t = some info ∧ info.flags.isAnonymous

/-- Moves one after another, from well-formed universes. That every universe on the way is
well formed is part of the chain, since it is what most invariants need to be kept by a move,
and the universes in between cannot be named afterwards. -/
def Moves (mayFinish : Universe → TypeId → Prop) : Universe → Universe → Prop :=
  Relation.ReflTransGen fun u v => u.WellFormed ∧ Move mayFinish u v

variable {mayFinish mayFinish' : Universe → TypeId → Prop} {u u' : Universe}

/-- What may be finished in a move may be more. -/
theorem Move.mono (h : Move mayFinish u u') (hmono : ∀ u t, mayFinish u t → mayFinish' u t) : Move mayFinish' u u' := by
  cases h with
  | types made => exact .types made
  | report d other => exact .report d other
  | read made reads => exact .read made reads
  | method known first declared admits => exact .method known first declared admits
  | field known => exact .field known
  | accessor known made => exact .accessor known made
  | placeholder top t => exact .placeholder top t
  | arrayMembers => exact .arrayMembers
  | arrayTable listed plain => exact .arrayTable listed plain
  | table known unmade listed => exact .table known unmade listed
  | capture name type known => exact .capture name type known
  | finish known may => exact .finish known (hmono _ _ may)

namespace Moves

/-- What may be finished in a chain of moves may be more. -/
theorem mono (h : Moves mayFinish u u') (hmono : ∀ u t, mayFinish u t → mayFinish' u t) : Moves mayFinish' u u' :=
  Relation.ReflTransGen.mono (fun _ _ h => ⟨h.1, h.2.mono hmono⟩) _ _ h

/-- Every chain of moves is one where every body may be finished. -/
theorem toAnything (h : Moves mayFinish u u') : Moves anything u u' :=
  h.mono fun _ _ _ => trivial

/-- A chain of moves that finishes nothing is one for whatever may be finished. -/
theorem of_nothing (h : Moves nothing u u') : Moves mayFinish u u' :=
  h.mono fun _ _ h => h.elim

/-- What every move keeps, every chain of moves keeps. -/
theorem keeps {I : Universe → Prop} (h : Moves mayFinish u u')
    (step : ∀ {v w : Universe}, v.WellFormed → Move mayFinish v w → I v → I w) (hu : I u) : I u' := by
  induction h with
  | refl => exact hu
  | tail _ h ih => exact step h.1 h.2 ih

end Moves

/-! ## What moves leave as it was

Each invariant looks at one part of a universe. These lemmas say for the parts in turn which
moves change them, so that an invariant has few cases to deal with.
-/

/-- The members that are recorded of a class, or those of a class of which nothing is known.
-/
def entry (u : Universe) (cls : TypeId) : ClassMembers :=
  (u.members.lookup cls).getD (u.freshMembers cls)

theorem membersOf_eq_entry (u : Universe) (t : TypeId) : u.membersOf t = u.entry (u.types.classOf t) := rfl

end Universe

/-- What the members of a class may become: declarations, captures and a made table stay, and
a finished class takes no further capture. An open class may declare more, and take captures
until it is finished. -/
structure ClassMembers.Later (c c' : ClassMembers) : Prop where
  /-- Methods stay. -/
  methods : c.methods <+: c'.methods
  /-- Constructors stay. -/
  ctors : c.ctors <+: c'.ctors
  /-- Captures stay. -/
  captures : c.captures <+: c'.captures
  /-- A table that was made stays. -/
  table : ∀ table, c.table = .built table → c'.table = .built table
  /-- A finished class stays finished, and captures nothing more. -/
  finished : c.complete → c'.complete ∧ c'.captures = c.captures

namespace ClassMembers

theorem Later.refl (c : ClassMembers) : Later c c :=
  ⟨List.prefix_rfl, List.prefix_rfl, List.prefix_rfl, fun _ h => h, fun h => ⟨h, rfl⟩⟩

theorem Later.trans {c c' c'' : ClassMembers} (h : Later c c') (h' : Later c' c'') : Later c c'' where
  methods := h.methods.trans h'.methods
  ctors := h.ctors.trans h'.ctors
  captures := h.captures.trans h'.captures
  table table ht := h'.table table (h.table table ht)
  finished hc := ⟨(h'.finished (h.finished hc).1).1, (h'.finished (h.finished hc).1).2.trans (h.finished hc).2⟩

/-- Methods and constructors may be added and a table made, without anything else. -/
theorem Later.of_body {c c' : ClassMembers} (methods : c.methods <+: c'.methods) (ctors : c.ctors <+: c'.ctors)
    (table : ∀ table, c.table = .built table → c'.table = .built table) (captures : c'.captures = c.captures)
    (complete : c'.complete = c.complete) : c.Later c' :=
  ⟨methods, ctors, captures ▸ List.prefix_rfl, table, fun h => ⟨complete ▸ h, captures⟩⟩

end ClassMembers

namespace Universe

variable {mayFinish : Universe → TypeId → Prop} {u u' : Universe}

/-- The members of a class after those of one were set. -/
theorem entry_put {k : TypeId} {c : ClassMembers} (members : u'.members = Assoc.put k c u.members) (types : u'.types = u.types)
    (cls : TypeId) : u'.entry cls = if cls = k then c else u.entry cls := by
  unfold entry freshMembers
  rw [members, types]
  split
  · rename_i h
    rw [h, Assoc.lookup_put_self]
    rfl
  · rename_i h
    rw [Assoc.lookup_put_of_ne h]

/-- The members of one class are set to what they may become. -/
theorem later_put {t : TypeId} {c : ClassMembers} (h : (u.membersOf t).Later c)
    (members : u'.members = Assoc.put (u.types.classOf t) c u.members) (types : u'.types = u.types) (cls : TypeId) :
    (u.entry cls).Later (u'.entry cls) := by
  rw [entry_put members types]
  split
  · rename_i h'
    rw [h', ← membersOf_eq_entry]
    exact h
  · exact .refl _

/-- The members of a known class stay when the types are extended. -/
theorem entry_extends (hu : u.types.WellFormed) (members : u'.members = u.members) (types : u.types.Extends u'.types)
    {cls : TypeId} (hcls : u.types.Knows cls) : u'.entry cls = u.entry cls := by
  unfold entry freshMembers
  rw [members, types.classInfo hu hcls]

/-- A callable that is declared by its class, under the name that constructors have. -/
def declaredAs (m : Method) : Method :=
  if m.isConstructor then { m with name := constructorName } else m

/-- The links of a universe after one more callable was declared. -/
def linksWith (u : Universe) (m : Method) : List (MethodId × MethodId) :=
  (lastBefore m (u.membersOf m.owner)).elim u.links (Assoc.put · ⟨u.methods.size + 1⟩ u.links)

theorem addMethod_eq (m : Method) (u : Universe) : addMethod m u = (⟨u.methods.size + 1⟩, { u with
    methods := u.methods.push (declaredAs m)
    links := u.linksWith m
    members := Assoc.put (u.types.classOf m.owner) (withMember m ⟨u.methods.size + 1⟩ (u.membersOf m.owner)) u.members }) := by
  unfold addMethod declaredAs linksWith withMember lastBefore
  by_cases h : m.isConstructor
  · have h' : ({ m with name := constructorName } : Method).isConstructor := h
    simp only [h, h', if_true]
    rfl
  · simp only [h, Bool.false_eq_true, if_false]
    rfl

theorem addField_eq (f : Field) (u : Universe) : addField f u = (⟨u.fields.size + 1⟩, { u with
    fields := u.fields.push f
    members := Assoc.put (u.types.classOf f.owner)
      { u.membersOf f.owner with fields := (u.membersOf f.owner).fields ++ [⟨u.fields.size + 1⟩] } u.members }) :=
  rfl

/-- The members of a class after a field was added. -/
theorem membersOf_addField (f : Field) (u : Universe) : (addField f u).2.membersOf f.owner
    = { u.membersOf f.owner with fields := (u.membersOf f.owner).fields ++ [⟨u.fields.size + 1⟩] } :=
  membersOf_put_self rfl

/-- The field that holds the copy of a captured variable. -/
def captureField (t : TypeId) (name : String) (type : TypeId) : Field where
  name := captureFieldName name
  owner := t
  type
  access := .priv
  flags := { isSynthetic := true, isFinal := true }

/-- A class that is finished or has the capture already is left alone; any other one gets a
field for it. -/
theorem addCapture_cases (t : TypeId) (name : String) (type : TypeId) (u : Universe) :
    (∃ c, u.captureOf? t name = some c ∧ addCapture t name type u = (some c, u)) ∨
    u.captureOf? t name = none ∧ u.isComplete t ∧ addCapture t name type u = (none, u) ∨
    u.captureOf? t name = none ∧ u.isComplete t = false ∧
      addCapture t name type u = (some { name, type, field := ⟨u.fields.size + 1⟩ },
        (modifyMembers t (fun c => { c with captures := c.captures ++ [{ name, type, field := ⟨u.fields.size + 1⟩ }] })
          (addField (captureField t name type) u).2).2) := by
  unfold addCapture
  rw [get_bind_apply]
  cases hcapture : u.captureOf? t name with
  | some c => exact .inl ⟨c, rfl, rfl⟩
  | none =>
    dsimp only
    split
    · rename_i hcomplete
      exact .inr (.inl ⟨rfl, hcomplete, rfl⟩)
    · rename_i hopen
      exact .inr (.inr ⟨rfl, by simpa using hopen, rfl⟩)

/-- A finished class is left alone; the constructors of any other one get the parameters for
its captures. -/
theorem completeClass_cases (t : TypeId) (u : Universe) :
    u.isComplete t ∧ (completeClass t u).2 = u ∨
    u.isComplete t = false ∧ (completeClass t u).2 = { u with
      methods := (u.membersOf t).ctors.foldl
        (fun ms id => ms.modify (id.index - 1) ({ · with captureParams := (u.captures t).map (·.type) })) u.methods
      members := Assoc.put (u.types.classOf t) { u.membersOf t with complete := true } u.members } := by
  unfold completeClass
  rw [get_bind_apply]
  dsimp only
  split
  · rename_i hcomplete
    exact .inl ⟨hcomplete, rfl⟩
  · rename_i hopen
    exact .inr ⟨by simpa [isComplete] using hopen, rfl⟩

/-- The members of arrays are made beside those of classes. -/
theorem arrayMembers_same (u : Universe) : (arrayMembers u).2.types = u.types ∧ (arrayMembers u).2.members = u.members := by
  unfold arrayMembers
  rw [get_bind_apply]
  split
  · exact ⟨rfl, rfl⟩
  · exact ⟨rfl, rfl⟩

/-- Types are extended by every move. -/
theorem Move.types_extends (h : Move mayFinish u u') : u.types.Extends u'.types := by
  have same {v : Universe} (h : v.types = u.types) : u.types.Extends v.types := h ▸ .refl _
  cases h with
  | types made => exact made
  | read made _ => exact made
  | method => exact same (by rw [addMethod_eq])
  | arrayMembers => exact same u.arrayMembers_same.1
  | @capture t name type _ =>
    rcases addCapture_cases t name type u with ⟨c, -, h⟩ | ⟨-, -, h⟩ | ⟨-, -, h⟩ <;> rw [h] <;> exact same rfl
  | @finish t _ _ =>
    rcases completeClass_cases t u with ⟨-, h⟩ | ⟨-, h⟩ <;> exact same (by rw [h])
  | _ => exact .refl _

/-- Members may only become more by a move. One case for each kind of move: most of them set
the members of one class (`later_put`), and the others leave all members alone. -/
theorem Move.later (hu : u.WellFormed) (h : Move mayFinish u u') {cls : TypeId} (hcls : u.types.Knows cls) :
    (u.entry cls).Later (u'.entry cls) := by
  have same {v : Universe} (hmembers : v.members = u.members) (htypes : u.types.Extends v.types) :
      (u.entry cls).Later (v.entry cls) := by
    rw [entry_extends hu.types hmembers htypes hcls]
    exact .refl _
  cases h with
  | types made => exact same rfl made
  | read made _ => exact same rfl made
  | @method m =>
    rw [addMethod_eq]
    refine later_put (t := m.owner) ?_ (by rfl) (by rfl) cls
    unfold withMember
    split
    · exact .of_body List.prefix_rfl (List.prefix_append _ _) (fun _ h => h) rfl rfl
    · split
      · exact .of_body List.prefix_rfl List.prefix_rfl (fun _ h => h) rfl rfl
      · exact .of_body (List.prefix_append _ _) List.prefix_rfl (fun _ h => h) rfl rfl
  | @field f _ =>
    refine later_put (t := f.owner) ?_ (by rfl) (by rfl) cls
    exact .of_body List.prefix_rfl List.prefix_rfl (fun _ h => h) rfl rfl
  | @accessor key acc _ =>
    refine later_put (t := acc.owner) ?_ (by rfl) (by rfl) cls
    exact .of_body List.prefix_rfl List.prefix_rfl (fun _ h => h) rfl rfl
  | arrayMembers => exact same u.arrayMembers_same.2 (u.arrayMembers_same.1 ▸ .refl _)
  | @table t st _ unmade _ =>
    refine later_put (t := t) ?_ (by rfl) (by rfl) cls
    exact .of_body List.prefix_rfl List.prefix_rfl (fun table h => absurd h (unmade table)) rfl rfl
  | @capture t name type _ =>
    rcases addCapture_cases t name type u with ⟨c, -, h⟩ | ⟨-, -, h⟩ | ⟨-, hopen, h⟩
    · rw [h]
      exact .refl _
    · rw [h]
      exact .refl _
    · rw [h, addField_eq]
      refine ClassMembers.Later.trans ?_ (later_put (t := t) ?_ (by rfl) (by rfl) cls)
      · refine later_put (t := t) ?_ (by rfl) (by rfl) cls
        exact .of_body List.prefix_rfl List.prefix_rfl (fun _ h => h) rfl rfl
      · refine ⟨List.prefix_rfl, List.prefix_rfl, List.prefix_append _ _, fun _ h => h, fun h => ?_⟩
        have hsame := congrArg ClassMembers.complete (membersOf_addField (captureField t name type) u)
        exact absurd (hsame.symm.trans h) (Bool.eq_false_iff.mp hopen)
  | @finish t _ _ =>
    rcases completeClass_cases t u with ⟨-, h⟩ | ⟨hopen, h⟩
    · rw [h]
      exact .refl _
    · rw [h]
      refine later_put (t := t) ?_ (by rfl) (by rfl) cls
      refine ⟨List.prefix_rfl, List.prefix_rfl, List.prefix_rfl, fun _ h => h, fun h => ?_⟩
      exact absurd h (by simpa [isComplete] using hopen)
  | _ => exact .refl _

/-- The cloning method of arrays stays once it is made. -/
theorem Move.arrayClone (h : Move mayFinish u u') (hsome : u.arrayClone.isSome) : u'.arrayClone = u.arrayClone := by
  cases h with
  | method => rw [addMethod_eq]
  | arrayMembers =>
    unfold Universe.arrayMembers
    rw [get_bind_apply, if_pos hsome]
    rfl
  | @capture t name type _ =>
    rcases addCapture_cases t name type u with ⟨c, -, h⟩ | ⟨-, -, h⟩ | ⟨-, -, h⟩
    · rw [h]
    · rw [h]
    · rw [h]
      rfl
  | @finish t _ _ =>
    rcases completeClass_cases t u with ⟨-, h⟩ | ⟨-, h⟩ <;> rw [h]
  | _ => rfl

/-- The tables of arrays stay. -/
theorem Move.arrayTables (h : Move mayFinish u u') : u.arrayTables <+: u'.arrayTables := by
  cases h with
  | method =>
    rw [addMethod_eq]
  | arrayMembers =>
    unfold Universe.arrayMembers
    rw [get_bind_apply]
    split <;> exact List.prefix_rfl
  | arrayTable => exact List.prefix_append _ _
  | @capture t name type _ =>
    rcases addCapture_cases t name type u with ⟨c, -, h⟩ | ⟨-, -, h⟩ | ⟨-, -, h⟩
    · rw [h]
    · rw [h]
    · rw [h]
      exact List.prefix_rfl
  | @finish t _ _ =>
    rcases completeClass_cases t u with ⟨-, h⟩ | ⟨-, h⟩ <;> rw [h]
  | _ => exact List.prefix_rfl

/-- The accessors that a class hosts, in the order in which they were made. -/
def hosted (u : Universe) (cls : TypeId) : List MethodId :=
  ((u.members.lookup cls).map (·.accessors)).getD []

theorem membersOf_accessors (u : Universe) (t : TypeId) : (u.membersOf t).accessors = u.hosted (u.types.classOf t) := by
  unfold membersOf hosted
  cases h : u.members.lookup (u.types.classOf t) <;> simp [h, freshMembers]

/-- What is read off the members of classes, after those of one class were set. -/
theorem lookup_put_map {α : Type} {k : TypeId} {c : ClassMembers} (members : u'.members = Assoc.put k c u.members)
    (read : ClassMembers → α) (unknown : α) (cls : TypeId) :
    ((u'.members.lookup cls).map read).getD unknown =
      if cls = k then read c else ((u.members.lookup cls).map read).getD unknown := by
  rw [members]
  split
  · rename_i h
    rw [h, Assoc.lookup_put_self]
    rfl
  · rename_i h
    rw [Assoc.lookup_put_of_ne h]

/-- The accessors of classes after the members of one were set. -/
theorem hosted_put {k : TypeId} {c : ClassMembers} (members : u'.members = Assoc.put k c u.members) (cls : TypeId) :
    u'.hosted cls = if cls = k then c.accessors else u.hosted cls :=
  lookup_put_map members _ _ cls

/-- The accessors stay, and so do their classes, unless one is made. The list of a class is
read off the owners of accessors, so this says where the new one stands as well. -/
theorem Move.accessors_cases (h : Move mayFinish u u') : (u'.accessors = u.accessors ∧ ∀ cls, u'.hosted cls = u.hosted cls) ∨
    ∃ key acc, u.types.Knows acc.owner ∧ u.MakesAccessor key acc ∧ u' = u.withAccessor key acc := by
  have put {v : Universe} {t : TypeId} {c : ClassMembers} (members : v.members = Assoc.put (u.types.classOf t) c u.members)
      (hc : c.accessors = (u.membersOf t).accessors) (cls : TypeId) : v.hosted cls = u.hosted cls := by
    rw [hosted_put members, hc, membersOf_accessors]
    split
    · rename_i h
      rw [h]
    · rfl
  cases h with
  | @method m _ _ declared _ =>
    rw [addMethod_eq]
    refine .inl ⟨rfl, put (t := m.owner) rfl ?_⟩
    unfold withMember
    rw [declared.notAccessor]
    split <;> rfl
  | @field f _ => exact .inl ⟨rfl, put (t := f.owner) rfl rfl⟩
  | accessor known made => exact .inr ⟨_, _, known, made, rfl⟩
  | arrayMembers =>
    unfold Universe.arrayMembers
    rw [get_bind_apply]
    split <;> exact .inl ⟨rfl, fun _ => rfl⟩
  | @table t _ _ _ _ => exact .inl ⟨rfl, put (t := t) rfl rfl⟩
  | @capture t name type _ =>
    rcases addCapture_cases t name type u with ⟨c, -, h⟩ | ⟨-, -, h⟩ | ⟨-, -, h⟩
    · rw [h]
      exact .inl ⟨rfl, fun _ => rfl⟩
    · rw [h]
      exact .inl ⟨rfl, fun _ => rfl⟩
    · rw [h]
      refine .inl ⟨rfl, fun cls => ?_⟩
      have hfield : (addField (captureField t name type) u).2.membersOf t = _ := membersOf_addField _ u
      have hfirst := put (v := (addField (captureField t name type) u).2) (t := t) rfl rfl cls
      refine Eq.trans ?_ hfirst
      refine (hosted_put rfl cls).trans ?_
      split
      · rename_i hcls
        rw [hcls, ← membersOf_accessors]
      · rfl
  | @finish t _ _ =>
    rcases completeClass_cases t u with ⟨-, h⟩ | ⟨-, h⟩
    · rw [h]
      exact .inl ⟨rfl, fun _ => rfl⟩
    · rw [h]
      exact .inl ⟨rfl, put (t := t) rfl rfl⟩
  | _ => exact .inl ⟨rfl, fun _ => rfl⟩

/-- The accessor of a key stays once it is made. -/
theorem Moves.accessor {key : AccessorKey} {id : MethodId} (h : Moves mayFinish u u')
    (hkey : u.accessors.lookup key = some id) : u'.accessors.lookup key = some id := by
  refine h.keeps (I := fun v => v.accessors.lookup key = some id) (fun _ hstep hv => ?_) hkey
  rcases hstep.accessors_cases with ⟨hsame, -⟩ | ⟨made, acc, -, hmade, rfl⟩
  · rw [hsame]
    exact hv
  · have hne : key ≠ made := by
      rintro rfl
      rw [hmade.unmade] at hv
      cases hv
    exact (Assoc.lookup_put_of_ne hne _ _).trans hv

/-- What is recorded of a class that has a recorded member. -/
theorem lookup_of_entry {cls : TypeId} {c : ClassMembers} (h : u.entry cls = c)
    (hne : c.methods ≠ [] ∨ ∃ table, c.table = .built table) : u.members.lookup cls = some c := by
  unfold entry at h
  cases hlookup : u.members.lookup cls with
  | some c' => exact congrArg some (by simpa [hlookup] using h)
  | none =>
    subst h
    simp [hlookup, freshMembers] at hne

theorem entry_of_lookup {cls : TypeId} {c : ClassMembers} (h : u.members.lookup cls = some c) : u.entry cls = c := by
  simp [entry, h]

/-- What is listed once stays listed. -/
theorem Move.listed (hu : u.WellFormed) (h : Move mayFinish u u') {id : MethodId} (hid : u.Listed id) : u'.Listed id := by
  have later {cls : TypeId} {c : ClassMembers} (found : u.members.lookup cls = some c) : c.Later (u'.entry cls) :=
    entry_of_lookup found ▸ h.later hu (hu.keys _ (TypeStore.mem_of_lookup found))
  cases hid with
  | declared found mem =>
    have hmem := (later found).methods.subset mem
    exact .declared (lookup_of_entry rfl (.inl (List.ne_nil_of_mem hmem))) hmem
  | clone made eq =>
    have hclone := h.arrayClone made
    exact .clone (hclone ▸ made) (eq.trans hclone.symm)
  | table found built lists =>
    have hbuilt := (later found).table _ built
    exact .table (lookup_of_entry rfl (.inr ⟨_, hbuilt⟩)) hbuilt lists
  | array mem lists => exact .array (h.arrayTables.subset mem) lists

namespace Moves

/-- What is listed once stays listed. -/
theorem listed (h : Moves mayFinish u u') {id : MethodId} (hid : u.Listed id) : u'.Listed id :=
  h.keeps (fun hv hmove hid => hmove.listed hv hid) hid

/-- Types are extended by moves. -/
theorem types_extends (h : Moves mayFinish u u') : u.types.Extends u'.types := by
  induction h with
  | refl => exact .refl _
  | tail _ hmove ih => exact ih.trans hmove.2.types_extends

/-- Members may only become more by moves. -/
theorem later (h : Moves mayFinish u u') {cls : TypeId} (hcls : u.types.Knows cls) : (u.entry cls).Later (u'.entry cls) := by
  induction h with
  | refl => exact .refl _
  | tail h hmove ih => exact ih.trans (hmove.2.later hmove.1 ((types_extends h).knows hcls))

/-- Members of a known type may only become more by moves. -/
theorem membersOf_later (h : Moves mayFinish u u') {t : TypeId} (ht : u.types.Knows t) :
    (u.membersOf t).Later (u'.membersOf t) := by
  rw [membersOf_eq_entry, membersOf_eq_entry, h.types_extends.classOf ht]
  rcases Relation.ReflTransGen.cases_head h with rfl | ⟨v, hv, -⟩
  · exact .refl _
  · exact h.later (hv.1.types.knows_classOf ht)

/-- A finished class stays finished, with the captures that it has. -/
theorem finished (h : Moves mayFinish u u') {t : TypeId} (ht : u.types.Knows t)
    (hc : u.isComplete t) : u'.isComplete t ∧ u'.captures t = u.captures t :=
  (h.membersOf_later ht).finished hc

/-- A capture stays. -/
theorem mem_captures (h : Moves mayFinish u u') {t : TypeId} (ht : u.types.Knows t) {c : Capture}
    (hc : c ∈ u.captures t) : c ∈ u'.captures t :=
  (h.membersOf_later ht).captures.subset hc

/-- A constructor stays one of its class. -/
theorem mem_constructors (h : Moves mayFinish u u') {t : TypeId} (ht : u.types.Knows t) {id : MethodId}
    (hid : id ∈ u.constructors t) : id ∈ u'.constructors t :=
  (h.membersOf_later ht).ctors.subset hid

end Moves

/-! ## How far tables have come

What is seen of a class while tables are made: the methods that it declares and the state of
its table.
-/

/-- The methods that a class declares, and how far its table has come. -/
def outline (u : Universe) (cls : TypeId) : List MethodId × TableState :=
  ((u.members.lookup cls).map fun c => (c.methods, c.table)).getD ([], .unbuilt)

theorem membersOf_outline (u : Universe) (t : TypeId) :
    ((u.membersOf t).methods, (u.membersOf t).table) = u.outline (u.types.classOf t) := by
  unfold membersOf outline
  cases h : u.members.lookup (u.types.classOf t) <;> simp [h, freshMembers]

/-- The outlines of classes after the members of one were set. -/
theorem outline_put {k : TypeId} {c : ClassMembers} (members : u'.members = Assoc.put k c u.members) (cls : TypeId) :
    u'.outline cls = if cls = k then (c.methods, c.table) else u.outline cls :=
  lookup_put_map members _ _ cls

/-- The members of a class are set to others with the same methods and the same table. -/
theorem outline_put_of_same {t : TypeId} {c : ClassMembers} (members : u'.members = Assoc.put (u.types.classOf t) c u.members)
    (methods : c.methods = (u.membersOf t).methods) (table : c.table = (u.membersOf t).table) (cls : TypeId) :
    u'.outline cls = u.outline cls := by
  rw [outline_put members, methods, table, membersOf_outline]
  split
  · rename_i h
    rw [h]
  · rfl

/-- Declaring a callable makes no table. -/
theorem table_addMethod (m : Method) (u : Universe) (cls : TypeId) :
    ((addMethod m u).2.outline cls).2 = (u.outline cls).2 := by
  rw [addMethod_eq, outline_put rfl]
  split
  · rename_i hcls
    rw [hcls, ← membersOf_outline]
    unfold withMember
    split
    · rfl
    · split <;> rfl
  · rfl

theorem outline_addConstructor {m : Method} (hm : m.isConstructor) (u : Universe) (cls : TypeId) :
    (addMethod m u).2.outline cls = u.outline cls := by
  rw [addMethod_eq]
  refine outline_put_of_same (t := m.owner) rfl ?_ ?_ cls <;> simp [withMember, hm]

theorem outline_addField (f : Field) (u : Universe) (cls : TypeId) : (addField f u).2.outline cls = u.outline cls := by
  refine outline_put_of_same (t := f.owner) rfl ?_ ?_ cls <;> rfl

theorem outline_addCapture (t : TypeId) (name : String) (type : TypeId) (u : Universe) (cls : TypeId) :
    (addCapture t name type u).2.outline cls = u.outline cls := by
  rcases addCapture_cases t name type u with ⟨c, -, h⟩ | ⟨-, -, h⟩ | ⟨-, -, h⟩
  · rw [h]
  · rw [h]
  · rw [h]
    refine Eq.trans ?_ (outline_addField (captureField t name type) u cls)
    refine outline_put_of_same (t := t) rfl ?_ ?_ cls <;> rfl

theorem outline_completeClass (t : TypeId) (u : Universe) (cls : TypeId) : (completeClass t u).2.outline cls = u.outline cls := by
  rcases completeClass_cases t u with ⟨-, h⟩ | ⟨-, h⟩
  · rw [h]
  · rw [h]
    refine outline_put_of_same (t := t) rfl ?_ ?_ cls <;> rfl

theorem outline_withAccessor (u : Universe) (key : AccessorKey) (acc : Method) (cls : TypeId) :
    (u.withAccessor key acc).outline cls = u.outline cls := by
  refine outline_put_of_same (t := acc.owner) rfl ?_ ?_ cls <;> rfl

/-- What happens to a universe beside the making of tables: classes declare no further method.
So tables that were made at different times have the same declarations to go by. Finishing a
body belongs here, and so does all that binding a call does besides asking for tables. -/
structure Aside (u u' : Universe) : Prop extends Keeps u u' where
  /-- It was changed by moves. -/
  moves : Moves anything u u'
  /-- Type variables go on to have proper bounds, and constructors proper marks. -/
  proper : u.Proper → u'.Proper
  /-- The methods and the tables of classes stay as they are. -/
  outlines : ∀ cls, u'.outline cls = u.outline cls

/-- What happens to a universe: it is asked for the table of a class, or something else. -/
inductive TableStep (u : Universe) : Universe → Prop
  /-- Something else. -/
  | aside {u' : Universe} (aside : u.Aside u') : TableStep u u'
  /-- A request for a table, which makes those of supertypes first. -/
  | request {cls : TypeId} (declared : (u.types.shape cls).isDeclared) : TableStep u (classTable u.tableFuel cls u).2

/-- Such steps one after another, from well-formed universes. -/
def TableSteps : Universe → Universe → Prop :=
  Relation.ReflTransGen fun u v => u.WellFormed ∧ u.TableStep v

/-! ## The evolution of universes

Three evolutions for three situations: while a document is loaded members are declared, while
a table is made others may be half made, and while calls are bound neither is the case. A
function is followed along the strictest one that it allows, and the others take it over.
-/

/-- A universe that another one leads to while members are declared. -/
structure Moved (u u' : Universe) : Prop extends Extends u u' where
  /-- It was changed by moves that finish no class. -/
  moves : Moves nothing u u'

/-- Well-formed universes, to which members are added. -/
def moving : Evolution Universe where
  Sound := WellFormed
  Leads u u' := (u.WellFormed → u'.WellFormed) ∧ u.Moved u'
  refl u := ⟨id, .refl u, .refl⟩
  trans h h' := ⟨fun hs => h'.1 (h.1 hs), h.2.toExtends.trans h'.2.toExtends, h.2.moves.trans h'.2.moves⟩
  sound h := h.1

/-- A universe that another one leads to while a table is made. -/
structure Gathers (u u' : Universe) : Prop extends Moved u u' where
  /-- Type variables go on to have proper bounds, for no further text comes in, and
  constructors proper marks. -/
  proper : u.Proper → u'.Proper

/-- Well-formed universes, in which tables are made. Some of them may be half made at the end,
as they are when the tables of the supertypes are asked for in the middle of one. What
`binding` leads to, `gathering` does as well (`works_gathering`). -/
def gathering : Evolution Universe where
  Sound := WellFormed
  Leads u u' := (u.WellFormed → u'.WellFormed) ∧ u.Gathers u'
  refl u := ⟨id, ⟨.refl u, .refl⟩, id⟩
  trans h h' := ⟨fun hs => h'.1 (h.1 hs), (moving.trans ⟨h.1, h.2.toMoved⟩ ⟨h'.1, h'.2.toMoved⟩).2,
    fun hs => h'.2.proper (h.2.proper hs)⟩
  sound h := h.1

/-- A universe that another one leads to while a call is bound. -/
structure Binds (u u' : Universe) : Prop extends Gathers u u' where
  /-- Tables were made one after another. -/
  steps : TableSteps u u'

/-- Well-formed universes, which are extended by moves. -/
def binding : Evolution Universe where
  Sound := WellFormed
  Leads u u' := (u.WellFormed → u'.WellFormed) ∧ u.Binds u'
  refl u := ⟨id, (gathering.refl u).2, .refl⟩
  trans h h' := ⟨fun hs => h'.1 (h.1 hs), (gathering.trans ⟨h.1, h.2.toGathers⟩ ⟨h'.1, h'.2.toGathers⟩).2, h.2.steps.trans h'.2.steps⟩
  sound h := h.1

/-- What is done while a call is bound may be done while a table is made. -/
theorem works_gathering {α : Type} {x : UniverseM α} {P : α → Universe → Prop} (h : Works binding x u P) : Works gathering x u P :=
  fun hu => ⟨⟨(h hu).1.1, (h hu).1.2.toGathers⟩, (h hu).2⟩

/-- What is done while a call is bound may be done while members are declared. -/
theorem works_moving {α : Type} {x : UniverseM α} {P : α → Universe → Prop} (h : Works binding x u P) : Works moving x u P :=
  fun hu => ⟨⟨(h hu).1.1, (h hu).1.2.toMoved⟩, (h hu).2⟩

/-- An extension by one move, beside the making of tables. -/
theorem Move.leads (hu : u.WellFormed) (h : extension.Leads u u') (move : Move nothing u u')
    (outlines : ∀ cls, u'.outline cls = u.outline cls) (bounded : u.Bounded → u'.Bounded) (marked : u.Marked → u'.Marked) :
    binding.Leads u u' :=
  have moves : Moves nothing u u' := .single ⟨hu, move⟩
  have proper (hp : u.Proper) : u'.Proper := ⟨bounded hp.toBounded, marked hp.toMarked⟩
  ⟨h.1, ⟨⟨h.2, moves⟩, proper⟩, .single ⟨hu, .aside ⟨h.2.toKeeps, moves.toAnything, proper, outlines⟩⟩⟩

/-- A step that extends a universe by one move, beside the making of tables. Beside the move
it is shown that the step keeps bounds and marks proper; most moves touch neither. -/
theorem works_of_move {α : Type} {x : UniverseM α} {P : α → Universe → Prop} (h : Works extension x u P)
    (move : u.WellFormed → Move nothing u (x u).2) (outlines : ∀ cls, (x u).2.outline cls = u.outline cls)
    (bounded : u.WellFormed → u.Bounded → (x u).2.Bounded)
    (marked : u.WellFormed → u.Keeps (x u).2 → u.Marked → (x u).2.Marked) : Works binding x u P :=
  fun hu => ⟨(move hu).leads hu (h hu).1 outlines (bounded hu) (marked hu (h hu).1.2.toKeeps), (h hu).2⟩

/-- A step on types is a step on the universe. -/
theorem onTypes_works {α : Type} {x : TypeM α} {P : α → TypeStore → Prop} (h : Works TypeStore.extension x u.types P) :
    Works binding (onTypes x) u fun a u' => P a u'.types ∧ u' = { u with types := u'.types } :=
  works_of_move (onTypes_extends h) (fun hu => .types (h hu.types).1.2.toExtends) (fun _ => rfl)
    (fun hu hb => hb.evolve ((h hu.types).1.2.bounded hb.types) fun m hm _ hsig => ⟨m, hm, hsig⟩)
    fun hu hk hm => hm.keeps hu hk rfl rfl

/-- Reporting something that is no fault, and no broken signature. -/
theorem report_works {d : Diagnostic} (hd : isFault d = false) (other : d.code ≠ .unresolvedSignature) :
    Works binding (report d) u fun _ u' => u'.types = u.types ∧ u'.methods = u.methods :=
  works_of_move (report_extends hd) (fun _ => .report d other) (fun _ => rfl) (fun _ hb => hb.of_same rfl rfl)
    fun hu hk hm => hm.keeps hu hk rfl rfl

/-- Processing the text of a callable: the types of the draft are made, and the callable says
what became of the text. Bounds stay proper because those in the text were, which is where the
condition on texts is used. -/
theorem readText_leads {id : MethodId} {m : Method} {text : SignatureText} {f : Method → Method} {reports : Array Diagnostic}
    {d : SignatureDraft} {types : TypeStore} (hu : u.WellFormed) (hm : u.method? id = some m)
    (hsig : m.signature = .pending text) (hdraft : SignatureDraft.ofText id m.kind m.owner text u.types = (d, types))
    (hwf : types.WellFormed) (he : u.types.Extends types) (proper : text.Bounded → u.types.Bounded → types.Bounded)
    (reads : u.ReadsText id types f reports)
    (known : m.Known types → (f m).Known types) (shows : (f m).Shows d)
    (genuine : (f m).params = m.params ∨ ∀ t ∈ (f m).params, types.Genuine t)
    (faults : Universe.faults { u with types, methods := u.methods.modify (id.index - 1) f, reports } = u.faults) :
    binding.Leads u { u with types, methods := u.methods.modify (id.index - 1) f, reports } := by
  have hlater : m.Later (f m) := by
    obtain ⟨params, returns, throws, typeParams, signature, h⟩ := reads.frame m
    rw [h]
    exact ⟨rfl, rfl, rfl, rfl, rfl, by simp [Method.isPending, hsig], by simp [Method.isResolved, hsig]⟩
  have hext := readText_extends hu hm hsig hdraft hwf he hlater known shows genuine faults
  refine Move.leads hu hext (.read he reads) (fun _ => rfl) (fun hb => ?_) fun hmarked => hmarked.keeps hu hext.2.toKeeps rfl rfl
  refine hb.evolve (proper (hb.texts m (mem_methods hm) text hsig) hb.types) fun m' hm' text' hsig' => ?_
  obtain ⟨i, hi⟩ := Array.mem_iff_getElem?.mp hm'
  rcases TypeStore.getElem?_modify_cases hi with hi | ⟨-, m₀, -, rfl⟩
  · exact ⟨m', Array.mem_of_getElem? hi, hsig'⟩
  · exact absurd hsig' (reads.settled m₀ text')

section

variable {m : Method} (hm : u.types.WellFormed → m.Known u.types) (genuine : u.Genuine → ∀ t ∈ m.params, u.types.Genuine t)
  (first : m.isConstructor → u.isComplete m.owner = (u.freshMembers (u.types.classOf m.owner)).complete)
  (declared : m.AsDeclared) (own : u.types.classOf m.owner = m.owner)

include hm genuine first declared own

section

variable (admits : u.Admits m)

include admits

/-- A method is added to its class, or a constructor to one whose body is not finished yet. -/
theorem addMethod_works :
    Works moving (addMethod m) u fun id u' => u'.types = u.types ∧ ∃ name, u'.method? id = some { m with name } := by
  intro hu
  obtain ⟨hl, h⟩ := addMethod_extends hm genuine own hu
  exact ⟨⟨hl.1, hl.2, .single ⟨hu, .method (hm hu.types).owner first declared admits⟩⟩, h⟩

end

/-- A constructor that is no text is added to a class, which declares the same methods as
before. -/
theorem addConstructor_works (hctor : m.isConstructor) (settled : ∀ text, m.signature ≠ .pending text) :
    Works binding (addMethod m) u fun id u' => u'.types = u.types ∧ ∃ name, u'.method? id = some { m with name } :=
  works_of_move (addMethod_extends hm genuine own)
    (fun hu => .method (hm hu.types).owner first declared (.of_constructor hctor)) (outline_addConstructor hctor u)
    (fun _ hb => hb.push (congrArg (·.2.types) (addMethod_eq m u)) (congrArg (·.2.methods) (addMethod_eq m u))
      (by rwa [declaredAs, if_pos hctor]))
    fun hu hk hmarked => hmarked.keeps hu hk (congrArg (·.2.placeholders) (addMethod_eq m u)) (congrArg (·.2.accessors) (addMethod_eq m u))

end

/-- A constructor is one of its class from when it is declared. -/
theorem mem_constructors_of_addMethod {m : Method} {id : MethodId} (h : addMethod m u = (id, u')) (hctor : m.isConstructor) :
    id ∈ u'.constructors m.owner := by
  rw [addMethod_eq] at h
  obtain ⟨hid, hadded⟩ := Prod.mk.inj h
  have hmembers : u'.membersOf m.owner = withMember m ⟨u.methods.size + 1⟩ (u.membersOf m.owner) := by
    rw [← hadded]
    exact membersOf_put_self (u := { u with methods := u.methods.push (declaredAs m) }) rfl
  rw [constructors, hmembers, ← hid, withMember, if_pos hctor]
  exact List.mem_append_right _ (List.mem_singleton_self _)

/-- A field is added to its class. -/
theorem addField_works {f : Field} (hf : u.types.Knows f.owner) :
    Works binding (addField f) u fun _ u' => u'.types = u.types :=
  works_of_move (addField_extends hf) (fun _ => .field hf) (outline_addField f u) (fun _ hb => hb.of_same rfl rfl)
    fun hu hk hm => hm.keeps hu hk rfl rfl

/-- How far the table of a class has come is recorded with its members. -/
theorem WellFormed.tableState_classOf (hu : u.WellFormed) (t : TypeId) :
    u.tableState (u.types.classOf t) = (u.membersOf t).table := by
  rw [tableState_of_not_isArray (hu.types.isArray_classOf t), hu.types.classOf_classOf]
  exact congrArg _ (membersOf_congr (hu.types.classOf_classOf t))

/-- Making a table, where the members are gathered while it is marked. From outside this is
one step: the mark is gone when the table is recorded. -/
theorem withTable_leads (hu : u.WellFormed) {cls : TypeId} (hcls : u.types.Knows cls)
    (hnone : (u.membersOf cls).table = .unbuilt) (h : gathering.Leads (u.withTable cls .building) u') {table : MemberTable}
    (sound : u'.SoundTable table) (listed : ∀ id, table.Lists id → u'.Listed id)
    (distinct : u.Tidy → u'.Distinct (u'.types.classOf cls) table) : gathering.Leads u (u'.withTable cls (.built table)) := by
  have hmarked : (u.withTable cls .building).WellFormed := hu.withTable hcls (by simp)
  have hmark : Move nothing u (u.withTable cls .building) := .table hcls (by simp [hnone]) (by simp)
  have hmade : Move nothing u' (u'.withTable cls (.built table)) := by
    refine .table (h.2.types.knows hcls) (fun made hmade => ?_) fun made hmade id hid => ?_
    · have hbefore : (u.withTable cls .building).tableState ((u.withTable cls .building).types.classOf cls) = .building :=
        (hmarked.tableState_classOf cls).trans (congrArg ClassMembers.table (membersOf_put_self rfl))
      have hafter : u'.tableState ((u.withTable cls .building).types.classOf cls) = .built made := by
        rw [← h.2.types.classOf hcls, (h.1 hmarked).tableState_classOf, hmade]
      have hlater := h.2.tables _ (hmarked.types.knows_classOf hcls)
      rw [hbefore, hafter] at hlater
      exact absurd (hlater.eq_of_ne (by simp)) (by simp)
    · cases hmade
      exact listed id hid
  have hl : extension.Leads (u.withTable cls .building) u' := ⟨h.1, h.2.toExtends⟩
  have hext := withTable_extends hu hcls hnone hl sound distinct
  exact ⟨hext.1, ⟨hext.2, .head ⟨hu, hmark⟩ (h.2.moves.tail ⟨h.1 hmarked, hmade⟩)⟩,
    fun hp => (h.2.proper (hp.of_same rfl rfl rfl rfl)).of_same rfl rfl rfl rfl⟩

end Universe

end CallResolution
