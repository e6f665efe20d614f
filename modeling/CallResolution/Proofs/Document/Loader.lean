import CallResolution.Document.Loader
import CallResolution.Proofs.Members.Predefined
import CallResolution.Proofs.Resolve.Captured

/-!
# Loading

While the headers of a document are read the universe is plain, and `laying` is how it grows.
There a `Stage` says what is declared: first classes, then type variables, and then what
classes inherit from. While members and steps are read, headers stay as they are, and
`filling` is how the universe grows. What all of them do with texts is the same: types are
made and problems are reported. `Loads` says what an evolution has to allow for that, and the
types that texts denote are shown to be known under it.

Main statements: `typeOf_works`, `classOf?_works` and `localOf_works`.
-/

namespace CallResolution

/-- A code of a problem that is neither a broken signature nor a cycle of classes. Reports
under these two codes are counted by other invariants, and no text gives rise to one. -/
def Code.IsOrdinary (c : Code) : Prop :=
  c ≠ .unresolvedSignature ∧ c ≠ .cyclicHierarchy

instance (c : Code) : Decidable c.IsOrdinary :=
  inferInstanceAs (Decidable (_ ∧ _))

/-- A scope without type variables of its own mentions nothing. -/
theorem TypeStore.knowsScope_cls (s : TypeStore) (cls : TypeId) : s.KnowsScope { cls } := by
  simp [KnowsScope]

namespace Loader

open TypeStore

variable {l l' : Loader}

/-! ## The stages

What may be done to the universe at a stage is a guard in the sense of `Growth`. Every stage
allows what reading texts needs, so texts are treated once for all of them.
-/

/-- The stages in which classes are declared. The last two are not stages of their own: they
stand for what several stages have in common. -/
inductive Stage where
  /-- Classes are registered, without type variables. -/
  | names
  /-- The type variables of the class at a place are declared. -/
  | params (slot : Nat)
  /-- Headers are resolved. -/
  | headers
  /-- Anything is declared but classes. -/
  | free
  /-- Anything is declared. -/
  | any

/-- What may happen to types in a stage. In each of the first three one thing is declared, and
whatever else is made comes from texts. -/
def Stage.guard : Stage → Guard
  | names => { Guard.basic with declares := fun info => info.typeParams = [], heads := fun _ _ _ => False }
  | params slot => { Guard.basic with declares := fun _ => False, heads := fun i _ _ => i = slot }
  | headers => { Guard.basic with declares := fun _ => False, heads := fun _ info info' => info'.typeParams = info.typeParams }
  | free => { Guard.basic with declares := fun _ => False }
  | any => .basic

/-- Types are made from texts, while no class is declared and no header set. -/
def texting : Guard :=
  { Guard.basic with declares := fun _ => False, heads := fun _ _ _ => False }

/-- Types are made from texts in every stage. -/
theorem texting_within (st : Stage) : texting.Within st.guard := by
  cases st <;> exact ⟨Nat.le_refl _, Nat.le_refl _, fun _ h => h.elim, id, id, fun _ _ _ h => h.elim⟩

/-- Types can be made from texts in every well-formed store. -/
theorem texting_sound {s : TypeStore} (hs : s.WellFormed) : (growth texting).Sound s :=
  ⟨hs, hs.guard.predefined, Nat.zero_le _⟩

/-- Every stage starts from what is predefined. -/
theorem Stage.sound (st : Stage) {s : TypeStore} (hs : (growth .basic).Sound s) : (growth st.guard).Sound s := by
  cases st <;> exact hs

/-- No anonymous class is made in any stage. -/
theorem Stage.not_embodies (st : Stage) : ¬ st.guard.embodies := by
  cases st <;> exact id

/-- A stage allows no more than what is allowed before members are declared. -/
theorem Stage.guard_within (st : Stage) : st.guard.Within (Stage.guard .any) := by
  cases st <;> exact ⟨Nat.le_refl _, Nat.le_refl _, fun _ _ => trivial, id, id, fun _ _ _ _ => trivial⟩

/-- The declared classes are those that are listed, in order, and lie behind the predefined
ones. So a class that is not predefined is listed, which is what makes the search for cycles
complete. -/
structure Lists (s : TypeStore) (ids : List TypeId) : Prop where
  /-- There are no further classes. -/
  count : s.classes.size = predefinedClasses.length + ids.length
  /-- Where the classes lie. -/
  places : ∀ (k : Nat) id, ids[k]? = some id → s.shape id = .declared (predefinedClasses.length + k)

namespace Lists

variable {s s' : TypeStore} {ids : List TypeId}

/-- The declared classes of a store without further classes. -/
theorem grows (h : Lists s ids) (hg : s.Grows s') (count : s'.classes.size = s.classes.size) : Lists s' ids where
  count := count.trans h.count
  places k id hid := by
    have hshape := h.places k id hid
    rw [hg.shape (knows_of_shape (by simp [hshape])), hshape]

/-- A listed class is new. -/
theorem isNewClass (h : Lists s ids) {id : TypeId} (hid : id ∈ ids) : IsNewClass .basic s id := by
  obtain ⟨k, hk⟩ := List.mem_iff_getElem?.mp hid
  exact ⟨_, Nat.le_add_right _ _, h.places k id hk⟩

/-- No class is listed twice. -/
theorem nodup (h : Lists s ids) : ids.Nodup := by
  refine List.nodup_iff_getElem?_ne_getElem?.mpr fun i j hij hj heq => ?_
  have hi := h.places i _ (heq.trans (List.getElem?_eq_getElem hj))
  have hj := h.places j _ (List.getElem?_eq_getElem hj)
  simp only [hi, TypeShape.declared.injEq] at hj
  omega

/-- A class that is not predefined is listed. -/
theorem mem (h : Lists s ids) (hs : s.WellFormed) {t : TypeId} {slot : Nat} (hshape : s.shape t = .declared slot)
    (hslot : predefinedClasses.length ≤ slot) : t ∈ ids := by
  have hlt : slot < s.classes.size := hs.refers hshape (by simp)
  have hk : slot - predefinedClasses.length < ids.length := by
    have := h.count
    omega
  have hplace := h.places _ _ (List.getElem?_eq_getElem hk)
  rw [Nat.add_sub_cancel' hslot] at hplace
  have heq := hs.eq_of_shape (hplace.trans hshape.symm) (by simp [hplace])
  exact heq ▸ List.getElem_mem hk

/-- One more class is listed. -/
theorem push (h : Lists s ids) (hg : s.Grows s') {t : TypeId} (count : s'.classes.size = s.classes.size + 1)
    (place : s'.shape t = .declared s.classes.size) : Lists s' (ids ++ [t]) where
  count := by
    rw [count, h.count, List.length_append]
    rfl
  places k id hid := by
    rcases Nat.lt_trichotomy k ids.length with hk | rfl | hk
    · rw [List.getElem?_append_left hk] at hid
      have hshape := h.places k id hid
      rw [hg.shape (knows_of_shape (by simp [hshape])), hshape]
    · obtain rfl : t = id := by simpa using hid
      rw [place, h.count]
    · rw [List.getElem?_eq_none (by simp; omega)] at hid
      cases hid

end Lists

/-- What holds of loaders before members are declared: only predefined classes have members,
and the others are listed. -/
structure Laid (l : Loader) : Prop extends l.world.Untouched where
  /-- The classes that are not predefined are listed. -/
  listed : Lists l.world.types (l.classes.map (·.id))

/-- A listed class is new. -/
theorem Laid.isNewClass (hl : Laid l) {c : DeclaredClass} (hc : c ∈ l.classes) : IsNewClass .basic l.world.types c.id :=
  hl.listed.isNewClass (List.mem_map_of_mem hc)

/-- The cycles that were reported. -/
def circles (l : Loader) : List Diagnostic :=
  l.world.reports.toList.filter (·.code = .cyclicHierarchy)

/-- What a loader leads to in a stage before members are declared. The list of classes is
followed beside the types, since it is what the next stage goes through. -/
structure Lays (st : Stage) (l l' : Loader) : Prop where
  /-- Loaders stay as they have to be. -/
  laid : Laid l → Laid l'
  /-- Types grow as the stage allows. -/
  steps : (growth st.guard).Leads l.world.types l'.world.types
  /-- No cycle is reported. -/
  circles : l'.circles = l.circles
  /-- The file stays the same. -/
  file : l'.file = l.file
  /-- In a stage that declares no classes, the list stays the same. -/
  classes : (∀ info, ¬ st.guard.declares info) → l'.classes = l.classes

/-- The growth of loaders in a stage before members are declared. Each stage is an evolution
of its own; what works in every stage is proved once and told of each. -/
def laying (st : Stage) : Evolution Loader where
  Sound := Laid
  Leads := Lays st
  refl _ := ⟨id, .refl, rfl, rfl, fun _ => rfl⟩
  trans h h' := ⟨fun hs => h'.laid (h.laid hs), h.steps.trans h'.steps, h'.circles.trans h.circles, h'.file.trans h.file,
    fun closed => (h'.classes closed).trans (h.classes closed)⟩
  sound h := h.laid

/-- What a loader leads to once all headers are set. No table is made and no body finished, so
the universe that a run starts with has neither. -/
structure Fills (l l' : Loader) : Prop where
  /-- Universes stay well formed. -/
  wellFormed : l.world.WellFormed → l'.world.WellFormed
  /-- Universes keep what they have. -/
  keeps : l.world.Keeps l'.world
  /-- No body is finished. -/
  moves : Universe.Moves Universe.nothing l.world l'.world
  /-- No table is made. -/
  tables : ∀ cls, (l'.world.outline cls).2 = (l.world.outline cls).2
  /-- No constructor is marked, and no accessor made. -/
  marks : l'.world.placeholders = l.world.placeholders ∧ l'.world.accessors = l.world.accessors
  /-- No cycle is reported. -/
  circles : l'.circles = l.circles
  /-- The list of classes stays the same. -/
  classes : l'.classes = l.classes
  /-- No class is added. -/
  makes : (growth texting).Leads l.world.types l'.world.types

/-- The growth of loaders once all headers are set: no body is finished. -/
def filling : Evolution Loader where
  Sound l := l.world.WellFormed ∧ l.world.Unfinished
  Leads := Fills
  refl l := ⟨id, .refl l.world, .refl, fun _ => rfl, ⟨rfl, rfl⟩, rfl, rfl, .refl⟩
  trans h h' := ⟨fun hs => h'.wellFormed (h.wellFormed hs), h.keeps.trans h'.keeps, h.moves.trans h'.moves,
    fun cls => (h'.tables cls).trans (h.tables cls), ⟨h'.marks.1.trans h.marks.1, h'.marks.2.trans h.marks.2⟩,
    h'.circles.trans h.circles, h'.classes.trans h.classes, h.makes.trans h'.makes⟩
  sound h hl := ⟨h.wellFormed hl.1, h.moves.unfinished hl.2⟩

/-- A loader whose types grew as they may before members are declared. -/
theorem Laid.withTypes (hl : Laid l) {s : TypeStore} (hlead : (growth .basic).Leads l.world.types s) {classes : List DeclaredClass}
    (listed : Lists s (classes.map (·.id))) : Laid { l with world := { l.world with types := s }, classes } := by
  have hgrows := growth_grows hlead
  have hplain : Universe.Plain { l.world with types := s } :=
    ⟨(growth .basic).sound hlead hl.plain.types, fun i m hm => (hl.plain.methods i m hm).grows hgrows,
      fun p hp => hgrows.knows (hl.plain.keys p hp), hl.plain.declared, hl.plain.tables, hl.plain.arrayTables,
      hl.plain.arrayClone, hl.plain.placeholders⟩
  exact ⟨⟨hplain, hgrows.nested hl.nested, hl.grown.trans hgrows, hl.members, hl.methods, hl.links, hl.accessors, hl.reports⟩,
    listed⟩

/-- What is done in one stage may be done in all of them. -/
theorem Lays.any {st : Stage} (h : Lays st l l') : Lays .any l l' :=
  ⟨h.laid, growth_widen h.steps st.guard_within, h.circles, h.file, fun closed => absurd trivial (closed default)⟩

/-- What is done in a stage that declares no classes may be done with anything else that is
declared. -/
theorem Lays.free {st : Stage} (h : Lays st l l') (closed : ∀ info, ¬ st.guard.declares info) : Lays .free l l' := by
  refine ⟨h.laid, growth_widen h.steps ?_, h.circles, h.file, fun _ => h.classes closed⟩
  have hany := st.guard_within
  exact ⟨hany.classes, hany.vars, fun info => closed info, hany.embodies, hany.anyBounds, fun _ _ _ _ => trivial⟩

/-- What works in one stage works where anything is declared. -/
theorem works_any {st : Stage} {α : Type} {x : LoadM α} {P : α → Loader → Prop} (h : Works (laying st) x l P) :
    Works (laying .any) x l fun a l' => P a l' ∧ Lays st l l' :=
  fun hl => ⟨(h hl).1.any, (h hl).2, (h hl).1⟩

/-- What works in a stage that declares no classes works where anything else is declared. -/
theorem works_free {st : Stage} {α : Type} {x : LoadM α} {P : α → Loader → Prop} (closed : ∀ info, ¬ st.guard.declares info)
    (h : Works (laying st) x l P) : Works (laying .free) x l fun a l' => P a l' ∧ Lays st l l' :=
  fun hl => ⟨(h hl).1.free closed, (h hl).2, (h hl).1⟩

/-- In a stage that declares no classes, those that are there stay all there are. -/
theorem Lays.lists {st : Stage} (h : Lays st l l') (closed : ∀ info, ¬ st.guard.declares info) {ids : List TypeId}
    (hids : Lists l.world.types ids) : Lists l'.world.types ids :=
  hids.grows (growth_grows h.steps) (growth_count closed st.not_embodies h.steps)

/-- A loader with types that grew as a stage allows, without a further class. -/
theorem Laid.lays {st : Stage} (hl : Laid l) {s : TypeStore} (steps : (growth st.guard).Leads l.world.types s)
    (count : s.classes.size = l.world.types.classes.size) : Lays st l { l with world := { l.world with types := s } } :=
  ⟨fun _ => hl.withTypes (growth_widen steps st.guard_within) (hl.listed.grows (growth_grows steps) count), steps, rfl, rfl,
    fun _ => rfl⟩

/-- A step on the types of a plain universe, also one that sets headers and bounds. -/
theorem onTypes_lays {st : Stage} {α : Type} {x : TypeM α} {P : α → TypeStore → Prop}
    (closed : ∀ info, ¬ st.guard.declares info) (h : Works (growth st.guard) x l.world.types P) :
    Works (laying st) (onTypes x) l fun a l' => P a l'.world.types ∧ l'.classes = l.classes := by
  intro hl
  obtain ⟨hlead, hp⟩ := h (st.sound hl.plain.types)
  exact ⟨hl.lays hlead (growth_count closed st.not_embodies hlead), hp, rfl⟩

/-- A step on a universe that extends it, makes neither a table nor an accessor, reports
nothing and adds no class. -/
theorem onUniverse_extends {α : Type} {x : UniverseM α} {P : α → Universe → Prop} (h : Works Universe.moving x l.world P)
    (tables : ∀ cls, ((x l.world).2.outline cls).2 = (l.world.outline cls).2)
    (marks : (x l.world).2.placeholders = l.world.placeholders ∧ (x l.world).2.accessors = l.world.accessors)
    (quiet : (x l.world).2.reports = l.world.reports)
    (makes : l.world.types.WellFormed → (growth texting).Leads l.world.types (x l.world).2.types) :
    Works filling (onUniverse x) l fun a l' => P a l'.world := by
  intro hl
  obtain ⟨hlead, hp⟩ := h hl.1
  refine ⟨⟨hlead.1, hlead.2.toKeeps, hlead.2.moves, tables, marks, ?_, rfl, makes hl.1.types⟩, hp⟩
  show (x l.world).2.reports.toList.filter _ = l.world.reports.toList.filter _
  rw [quiet]

/-! ## What both stages allow

Reading a text makes types and may report a problem, before headers are set as well as behind.
-/

/-- An evolution of loaders in which types can be made and problems reported. Whatever reads
texts is treated under this assumption, and so once for all stages. -/
structure Loads (e : Evolution Loader) : Prop where
  /-- The types are well formed. -/
  wellFormed : ∀ {l}, e.Sound l → l.world.types.WellFormed
  /-- The types grow. -/
  grows : ∀ {l l'}, e.Leads l l' → l.world.types.Grows l'.world.types
  /-- Types can be made. -/
  types : ∀ {α : Type} {x : TypeM α} {P : α → TypeStore → Prop} {l : Loader},
    (∀ g, Works (growth g) x l.world.types P) → Works e (onTypes x) l fun a l' => P a l'.world.types
  /-- Problems can be reported. -/
  report : ∀ (d : Diagnostic) (l : Loader), d.code.IsOrdinary →
    Works e (onUniverse (Universe.report d)) l fun _ l' => l'.world.types = l.world.types

/-- What is reported beside cycles adds no cycle. -/
theorem circles_report {d : Diagnostic} (hd : d.code.IsOrdinary) :
    circles { l with world := { l.world with reports := l.world.reports.push d } } = l.circles := by
  simp [circles, hd.2]

/-- Problems other than broken signatures are reported before members are declared. -/
theorem Laid.report (hl : Laid l) {ds : Array Diagnostic} (hds : ∀ d ∈ ds, d.code ≠ .unresolvedSignature) :
    Laid { l with world := { l.world with reports := l.world.reports ++ ds } } := by
  refine ⟨⟨?_, hl.nested, hl.grown, hl.members, hl.methods, hl.links, hl.accessors, fun d hd => ?_⟩, hl.listed⟩
  · exact hl.plain.of_same rfl (Nat.le_refl _) hl.plain.methods rfl rfl rfl rfl
  · exact (Array.mem_append.mp hd).elim (hl.reports d) (hds d)

theorem loads_laying {st : Stage} : Loads (laying st) where
  wellFormed h := h.plain.types.1
  grows h := growth_grows h.steps
  types h hl := by
    obtain ⟨hlead, hp⟩ := h texting hl.plain.types
    exact ⟨hl.lays (growth_widen hlead (texting_within st)) (growth_count (fun _ => id) id hlead), hp⟩
  report d l other hl := by
    refine ⟨⟨fun _ => ?_, .refl, circles_report other, rfl, fun _ => rfl⟩, rfl⟩
    have hcode : ∀ e ∈ #[d], e.code ≠ .unresolvedSignature := by simpa using other.1
    have h := hl.report hcode
    rwa [Array.append_singleton] at h

theorem loads_filling : Loads filling where
  wellFormed h := h.1.types
  grows h := h.keeps.types.toGrows
  types h := (onUniverse_extends (Universe.works_moving (Universe.onTypes_works (extending fun _ => h _))) (fun _ => rfl) ⟨rfl, rfl⟩ rfl
    fun hs => (h texting (texting_sound hs)).1).mono fun _ _ _ _ h => h.1
  report d _ other hl :=
    ⟨⟨fun _ => Session.wellFormed_report hl.1 d, Session.keeps_report _ d, .single ⟨hl.1, .report d other.1⟩, fun _ => rfl, ⟨rfl, rfl⟩,
      circles_report other, rfl, .refl⟩, rfl⟩

/-! ## Problems

A problem is reported under a code and with a place. It is never the end of loading.
-/

section

variable {α : Type} {e : Evolution Loader} {P : α → Loader → Prop}

/-- Reading the types. -/
theorem works_getTypes {f : TypeStore → LoadM α} (h : Works e (f l.world.types) l P) : Works e (getTypes >>= f) l P :=
  h

/-- The span of a text depends on nothing but the file. -/
theorem works_span {p : Place} {about : String} {f : Source.Span → LoadM α}
    (h : Works e (f (spanAt l.file p about)) l P) : Works e (span p about >>= f) l P :=
  h

variable (he : Loads e)
include he

/-- A problem is reported. -/
theorem fault_works (code : Code) (p : Place) (about msg : String) (other : code.IsOrdinary) :
    Works e (fault code p about msg) l fun _ l' => l'.world.types = l.world.types :=
  works_span (he.report _ l other)

/-- A problem is reported before something that does not depend on it. -/
theorem fault_then {code : Code} {p : Place} {about msg : String} {x : LoadM α} (other : code.IsOrdinary)
    (h : ∀ l', l'.world.types = l.world.types → Works e x l' P) :
    Works e (fault code p about msg >>= fun _ => x) l P :=
  (fault_works he code p about msg other).bind fun _ l' _ _ hl' => h l' hl'

/-- A text that denotes no type is reported before something that does not depend on it. -/
theorem typeFault_then {f : TypeFault} {src : String} {p : Place} {x : LoadM α}
    (h : ∀ l', l'.world.types = l.world.types → Works e x l' P) : Works e (typeFault f src p >>= fun _ => x) l P :=
  fault_then he (by cases f <;> simp only [TypeFault.code] <;> decide) h

/-! ## Types of texts

A text denotes a known type, or a problem is reported and the bad type takes its place.
-/

/-- The type that an expression denotes can be written down. -/
theorem typeOfExpr_works {sc : Scope} (hsc : l.world.types.KnowsScope sc) (t : TypeExpr) (src : String) (p : Place) :
    Works e (typeOfExpr t sc src p) l fun r l' => ∀ id ∈ r, l'.world.types.Denotes id := by
  have htype := he.types (l := l) fun g => resolveType_tries (g := g) hsc t
  refine Works.bind htype fun r l' _ _ hr => ?_
  cases r with
  | ok id => exact Works.ret (by simpa using hr.1)
  | error f => exact typeFault_then he fun l'' _ => Works.ret (by simp)

/-- The type that a text denotes is known. A text that denotes none is reported and stands for
the bad type, which is known as well. -/
theorem typeOf_works {sc : Scope} (hsc : l.world.types.KnowsScope sc) (src : String) (p : Place) :
    Works e (typeOf src sc p) l fun id l' => l'.world.types.Knows id := by
  have htype := he.types (l := l) fun g => typeOfText_tries (g := g) hsc src
  refine Works.bind htype fun r l' hl' _ hr => ?_
  cases r with
  | ok id => exact Works.ret (Denotes.knows hr)
  | error f =>
    refine typeFault_then he fun l'' hl'' => Works.ret ?_
    rw [hl'']
    exact (he.wellFormed hl').knows_predefined (by decide)

/-- The class that a text denotes is known, and is a class. A text that denotes something else
is reported, and the class is missing. -/
theorem classOf?_works {sc : Scope} (hsc : l.world.types.KnowsScope sc) (src : String) (p : Place) :
    Works e (classOf? src sc p) l fun r l' =>
      ∀ id ∈ r, l'.world.types.Knows id ∧ (l'.world.types.classInfo? id).isSome := by
  refine (typeOf_works he hsc src p).bind fun id l' _ _ hid => works_getTypes ?_
  split
  · exact Works.ret (by simp)
  · split
    · rename_i hclass
      exact Works.ret (by simpa using ⟨hid, hclass⟩)
    · exact fault_then he (by decide) fun _ _ => Works.ret (by simp)

/-- A modifier is read. -/
theorem accessOf_works (modifier : String) (p : Place) (about msg : String) :
    Works e (accessOf modifier p about msg) l fun _ l' => l'.world.types = l.world.types := by
  unfold accessOf
  split
  · exact Works.ret rfl
  · exact fault_then he (by decide) fun _ h => Works.ret h

/-- A local variable has a known type. -/
theorem localOf_works {sc : Scope} (hsc : l.world.types.KnowsScope sc) (src : String) (p : Place) :
    Works e (localOf src sc p) l fun r l' => ∀ v ∈ r, l'.world.types.Knows v.2 := by
  unfold localOf
  split
  · exact typeFault_then he fun _ _ => Works.ret (by simp)
  · refine (typeOfExpr_works he hsc _ _ _).bind fun r l' hl' _ hr => Works.ret ?_
    cases r with
    | none => simpa using (he.wellFormed hl').knows_predefined (t := .bad) (by decide)
    | some id => simpa using (hr id rfl).knows

/-- The options are read. -/
theorem options_works (d : Option OptionsDecl) : Works e (options d) l fun _ l' => l'.world.types = l.world.types := by
  unfold options
  split
  · exact Works.ret rfl
  · refine Works.bind (P := fun _ l' => l'.world.types = l.world.types) ?_ fun _ _ _ _ h => Works.ret h
    unfold sourceLevel
    split
    · exact Works.ret rfl
    · split
      · exact Works.ret rfl
      · exact fault_then he (by decide) fun _ h => Works.ret h

end

end Loader

end CallResolution
