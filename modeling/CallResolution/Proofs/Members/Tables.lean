import CallResolution.Proofs.Members.Merging

/-!
# Member tables are sound

A method that a class inherits keeps as conflicts only abstract methods with its own erased
parameter types. This holds of the table of every class and array, however tables are merged:
an overload is joined with another one only when their signatures agree, and agreement is
passed on to the conflicts that come along. The table of a class tells its overloads apart,
provided that what classes list was in order before.

A table is made from those of the supertypes, which are made when they are asked for, so the
function recurs through the universe that it changes. The recursion is cut by a mark on the
table that is being made and bounded by the number of classes. `mergeTables_works` is stated
for any way to get single tables that gives what is recorded, `classTable_works` ties the knot
by induction on the bound, and a class on a cycle of supertypes finds a mark instead of a
table: it has none.

Whether a type has a table in the end is settled from the beginning (`Tableless`), although
the table is only made on demand. What a type lists under a name is `listed`, which stays once
it is there; later modules speak of lists in this way and never of the making of tables again.

Main statements: `gatherTable_works` (what is merged into the table of a class) and
`memberTable_works` (every table that is given out is sound).
-/

namespace CallResolution.Universe

variable {u : Universe}

/-- The overloads in a sound table are sound. -/
theorem SoundTable.overloads {t : MemberTable} (ht : u.SoundTable t) {name : String} {s : Shadow}
    (hs : s ∈ t.overloads name) : u.SoundShadow s :=
  ht.shadows.overloads hs

/-! ## Overloads of listed methods

What is in a table is listed somewhere, which is what invariants of callables are stated for.
-/

/-- A sound overload whose methods are listed somewhere. -/
structure ListedShadow (u : Universe) (s : Shadow) : Prop extends SoundShadow u s where
  /-- The methods are listed. -/
  listed : ∀ id, s.Names id → u.Listed id

/-- The overloads in a table are sound and stand under their names, and their methods are
listed somewhere. -/
structure ListedTable (u : Universe) (t : MemberTable) : Prop where
  /-- The overloads. -/
  shadows : t.All u.ListedShadow
  /-- The names. -/
  filed : u.Filed t

theorem ListedTable.sound {t : MemberTable} (ht : u.ListedTable t) : u.SoundTable t where
  shadows p hp s hs := (ht.shadows p hp s hs).toSoundShadow
  filed := ht.filed

theorem ListedTable.listed {t : MemberTable} (ht : u.ListedTable t) {id : MethodId} (hid : t.Lists id) : u.Listed id := by
  obtain ⟨p, hp, s, hs, hnames⟩ := hid
  exact (ht.shadows p hp s hs).listed id hnames

/-- A sound table that lists what is listed somewhere. -/
theorem SoundTable.listedTable {t : MemberTable} (ht : u.SoundTable t) (h : ∀ id, t.Lists id → u.Listed id) : u.ListedTable t where
  shadows p hp s hs := ⟨ht.shadows p hp s hs, fun id hid => h id ⟨p, hp, s, hs, hid⟩⟩
  filed := ht.filed

/-- What is listed stays so while a universe is extended by moves. -/
theorem Gathers.listedTable {u' : Universe} (h : u.Gathers u') (hu : u.WellFormed) {t : MemberTable} (ht : u.ListedTable t) :
    u'.ListedTable t := by
  refine ⟨fun p hp s hs => ?_, (h.soundTable hu ht.sound).filed⟩
  have hs := ht.shadows p hp s hs
  exact ⟨h.soundShadow hu hs.toSoundShadow, fun id hid => h.moves.listed (hs.listed id hid)⟩

/-- Overloads of listed methods are merged. -/
theorem merges_listedShadow : u.Merges u.ListedShadow :=
  fun _ _ _ hi he hsame => ⟨mergeShadow_sound hi.toSoundShadow he.toSoundShadow hsame,
    fun id hid => (names_mergeShadow hid).elim (hi.listed id) (he.listed id)⟩

/-- An overload without conflicts of a listed method that exists. -/
theorem listedShadow_single {id : MethodId} (hhas : u.Has id) (hlisted : u.Listed id) : u.ListedShadow ⟨id, []⟩ :=
  ⟨⟨hhas, by simp⟩, fun id' h => by
    obtain rfl : id' = id := by simpa [Shadow.Names] using h
    exact hlisted⟩

/-- A declared method is listed. -/
theorem listed_of_declared {cls : TypeId} {id : MethodId} (h : id ∈ (u.membersOf cls).methods) : u.Listed id :=
  .declared (lookup_of_entry rfl (.inl (List.ne_nil_of_mem h))) h

/-- The table of declared methods. -/
theorem WellFormed.declaredTable (hu : u.WellFormed) (cls : TypeId) : u.ListedTable (u.declaredTable cls) where
  shadows := declaredTable_all fun _ hid => listedShadow_single (hu.has_of_declared hid) (listed_of_declared hid)
  filed := declaredTable_filed fun _ hid => hu.has_of_declared hid

/-- A table of listed methods is merged into another one. -/
theorem ListedTable.inherit {t up : MemberTable} (ht : u.ListedTable t) (hup : u.ListedTable up) : u.ListedTable (u.inherit t up) where
  shadows := inherit_all merges_listedShadow ht.shadows hup.shadows
  filed := ht.filed.inherit hup.filed

/-- The table of a class, once it is made. -/
theorem WellFormed.listedTable (hu : u.WellFormed) {cls : TypeId} {table : MemberTable}
    (h : (u.membersOf cls).table = .built table) : u.ListedTable table :=
  (hu.soundTable h).listedTable fun _ hid => .table (lookup_of_entry rfl (.inr ⟨_, h⟩)) h hid

/-! ## What signatures leave alone

Processing a signature adds types and changes one callable. So a table that is gathered does
not change what classes declare.
-/

/-- The members of classes and the tables of arrays. -/
def recorded (u : Universe) : List (TypeId × ClassMembers) × List (TypeId × MemberTable) :=
  (u.members, u.arrayTables)

section

variable {β : Type} {part : Universe → β}

/-- Processing a signature changes callables and reports, apart from the types that its text
needs. -/
theorem signature_leaves (hpart : ∀ u methods reports, part { u with methods, reports } = part u)
    (htext : ∀ id kind owner text, Leaves part (onTypes (SignatureDraft.ofText id kind owner text))) (id : MethodId) :
    Leaves part (signature id) := by
  refine .read fun u => ?_
  split
  · exact .ret _
  · split
    · exact .ret _
    · exact .ret _
    · exact .ret _
    · refine Leaves.bind (fun u => hpart u _ _) fun _ => (htext _ _ _ _).bind fun d => ?_
      split
      · exact fun u => hpart u _ _
      · exact fun u => hpart u (u.methods.modify (id.index - 1) _) (u.reports.push _)

variable (hsignature : ∀ id, Leaves part (signature id))
include hsignature

theorem withSignature_leaves (ids : List MethodId) : Leaves part (withSignature ids) := by
  induction ids with
  | nil => exact .ret _
  | cons id ids ih =>
    unfold withSignature
    exact (hsignature id).bind fun _ => ih.bind fun _ => .ret _

/-- Making the table of a class processes signatures, and marks the tables of classes. -/
theorem classTable_leaves (hmark : ∀ cls st, Leaves part (setTable cls st)) (fuel : Nat) (cls : TypeId) :
    Leaves part (classTable fuel cls) := by
  have merge {tableOf : TypeId → UniverseM (Except TableFault MemberTable)} (htable : ∀ cls, Leaves part (tableOf cls))
      (t : MemberTable) (ps : List TypeId) : Leaves part (mergeTables tableOf t ps) := by
    induction ps generalizing t with
    | nil => exact .ret _
    | cons p ps ih =>
      unfold mergeTables
      refine (htable p).bind fun r => ?_
      cases r with
      | error f => exact ih t
      | ok up => exact .read fun _ => ih _
  induction fuel generalizing cls with
  | zero => exact .ret _
  | succ fuel ih =>
    unfold classTable
    refine .read fun u => ?_
    split
    · exact .ret _
    · exact .ret _
    · refine (hmark cls .building).bind fun _ => Leaves.bind ?_ fun t => (hmark cls (.built t)).bind fun _ => .ret _
      exact .read fun u => (withSignature_leaves hsignature _).bind fun _ => .read fun u => merge ih _ _

end

/-- The signatures of what a class declares are looked at, which leaves its methods and its
supertypes alone. -/
theorem withSignature_declared {cls : TypeId} (hcls : u.types.Knows cls) :
    Works binding (withSignature (u.membersOf cls).methods) u fun _ u' =>
      (∀ id ∈ (u.membersOf cls).methods, u'.Processed id) ∧
        (u'.membersOf cls).methods = (u.membersOf cls).methods ∧ u'.tableParents cls = u.tableParents cls := by
  refine Works.of_sound fun hu => (withSignature_works _).self.mono fun _ u' _ hl h => ?_
  obtain ⟨hread, hrun⟩ := h
  have hrecorded : u'.recorded = u.recorded := by
    have hleaves : Leaves recorded (withSignature (u.membersOf cls).methods) :=
      withSignature_leaves (signature_leaves (fun _ _ _ => rfl) fun _ _ _ _ _ => rfl) _
    have hafter := hleaves u
    rwa [hrun] at hafter
  have hmembers : u'.members = u.members := congrArg Prod.fst hrecorded
  refine ⟨fun id hid => hread id hid (hu.has_of_declared hid), ?_, ?_⟩
  · unfold membersOf
    dsimp only
    rw [hl.2.types.classOf hcls, hmembers]
    cases u.members.lookup (u.types.classOf cls) <;> rfl
  · unfold tableParents
    rw [hl.2.types.parents hu.types hcls, hl.2.types.classInfo hu.types hcls]

/-! ## Classes whose tables are merged

These are the direct supertypes, and for an interface the root class as well.
-/

/-- The class of a type is declared. -/
theorem isDeclared_classOf {s : TypeStore} (hs : s.WellFormed) {t : TypeId} (h : (s.classOf t).isSome) :
    (s.shape (s.classOf t)).isDeclared := by
  unfold TypeStore.classOf at h ⊢
  split
  · rename_i slot hshape
    simp [hshape, TypeShape.isDeclared]
  · rename_i base args hshape
    exact hs.base hshape
  · rename_i h₁ h₂
    split at h <;> simp_all [TypeId.isSome]

/-- The tables that are merged into that of a class are those of declared classes. -/
theorem WellFormed.isDeclared_tableParent (hu : u.WellFormed) {cls p : TypeId} (hp : p ∈ u.tableParents cls) :
    (u.types.shape p).isDeclared := by
  have hparent {p : TypeId} (hp : p ∈ u.types.parents cls) : (u.types.shape p).isDeclared := by
    obtain ⟨hmem, hsome⟩ := List.mem_filter.mp hp
    obtain ⟨t, -, rfl⟩ := List.mem_map.mp hmem
    exact isDeclared_classOf hu.types hsome
  have hp := List.mem_of_mem_filter hp
  split at hp
  · rcases List.mem_append.mp hp with hp | hp
    · exact hparent hp
    · rw [List.mem_singleton.mp hp, hu.types.shape_object]
      rfl
  · exact hparent hp

theorem classOf_of_isDeclared {s : TypeStore} {t : TypeId} (h : (s.shape t).isDeclared) : s.classOf t = t := by
  cases hshape : s.shape t with
  | declared slot => simp [TypeStore.classOf, hshape]
  | _ => simp [hshape, TypeShape.isDeclared] at h

theorem not_isArray_of_isDeclared {s : TypeStore} {t : TypeId} (h : (s.shape t).isDeclared) : s.isArray t = false := by
  cases hshape : s.shape t with
  | declared slot => simp [TypeStore.isArray, hshape, TypeShape.isArray]
  | _ => simp [hshape, TypeShape.isDeclared] at h

/-! ## Tables on demand

The functions that make tables, in the order in which they call one another, and the knot
between them.
-/

/-- Sound tables are merged on demand, given that the tables of single classes are those that
are recorded. A table that tells its overloads apart goes on to do so. By induction on the
list of supertypes; those whose tables are being made are passed over. -/
theorem mergeTables_works {tableOf : TypeId → UniverseM (Except TableFault MemberTable)}
    (htable : ∀ {u : Universe} {cls : TypeId}, (u.types.shape cls).isDeclared →
      Works gathering (tableOf cls) u fun r u' => ∀ t, r = .ok t → (u'.membersOf cls).table = .built t)
    {t : MemberTable} {ps : List TypeId} (ht : u.ListedTable t) (hps : ∀ p ∈ ps, (u.types.shape p).isDeclared) :
    Works gathering (mergeTables tableOf t ps) u fun t' u' =>
      u'.ListedTable t' ∧ (u.Tidy → u.Distinct t.owner t → u'.Distinct t.owner t') := by
  induction ps generalizing u t with
  | nil =>
    unfold mergeTables
    exact Works.ret ⟨ht, fun _ hd => hd⟩
  | cons p ps ih =>
    unfold mergeTables
    refine Works.of_sound fun hu => (htable (hps p (by simp))).bind fun r u₁ hu₁ hl hr => ?_
    have hps₁ : ∀ q ∈ ps, (u₁.types.shape q).isDeclared := fun q hq => hl.2.types.isDeclared (hps q (by simp [hq]))
    have ht₁ := hl.2.listedTable hu ht
    cases r with
    | error f =>
      refine (ih ht₁ hps₁).mono fun t' u' _ _ h => ⟨h.1, fun htidy hd => ?_⟩
      exact h.2 (hl.2.tidy htidy) (hd.later hl.2.toRetains htidy)
    | ok up =>
      have hup := hr up rfl
      refine Works.read ((ih (ht₁.inherit (WellFormed.listedTable hu₁ hup)) hps₁).mono
        fun t' u' _ _ h => ⟨h.1, fun htidy hd => ?_⟩)
      have htidy₁ := hl.2.tidy htidy
      have hmerged := (hd.later hl.2.toRetains htidy).inherit rfl ((htidy₁.membersOf p).table up hup).processed
      rw [inherit_owner] at h
      exact h.2 htidy₁ hmerged

/-- The members of a class are gathered: what it declares, all of which is looked at first,
and what it inherits. -/
theorem gatherTable_works {tableOf : TypeId → UniverseM (Except TableFault MemberTable)}
    (htable : ∀ {u : Universe} {cls : TypeId}, (u.types.shape cls).isDeclared →
      Works gathering (tableOf cls) u fun r u' => ∀ t, r = .ok t → (u'.membersOf cls).table = .built t)
    {cls : TypeId} (hcls : (u.types.shape cls).isDeclared) :
    Works gathering (gatherTable tableOf cls) u fun t u' => u'.ListedTable t ∧ (u.Tidy → u'.Distinct cls t) := by
  have hknown := TypeStore.knows_of_isDeclared hcls
  refine Works.read ((works_gathering (withSignature_declared hknown)).bind fun _ u₁ hu₁ hl₁ h₁ => Works.read ?_)
  obtain ⟨hread, hmethods, -⟩ := h₁
  refine (mergeTables_works htable (hu₁.declaredTable cls) fun p hp => hu₁.isDeclared_tableParent hp).mono
    fun t u' _ _ h => ⟨h.1, fun htidy => ?_⟩
  have htidy₁ := hl₁.2.tidy htidy
  have hc := htidy₁.membersOf cls
  rw [classOf_of_isDeclared (hl₁.2.types.isDeclared hcls)] at hc
  rw [declaredTable_owner] at h
  exact h.2 htidy₁ (hc.declaredTable fun id hid => hread id (hmethods ▸ hid))

/-- The table of a class is sound, and kept; there is none only while it is being made. By
induction on the bound on requests: each of them marks one more table. -/
theorem classTable_works (fuel : Nat) {cls : TypeId} (hcls : (u.types.shape cls).isDeclared) :
    Works gathering (classTable fuel cls) u fun r u' => match r with
      | .ok t => u'.SoundTable t ∧ (u'.membersOf cls).table = .built t
      | .error _ => (fuel = 0 ∨ (u.membersOf cls).table = .building) ∧ u' = u := by
  induction fuel generalizing u cls with
  | zero =>
    unfold classTable
    exact Works.ret ⟨.inl rfl, rfl⟩
  | succ fuel ih =>
    unfold classTable
    have hknown := TypeStore.knows_of_isDeclared hcls
    refine Works.of_sound fun hu => Works.read ?_
    split
    · rename_i t ht
      exact Works.ret ⟨hu.soundTable ht, ht⟩
    · rename_i ht
      exact Works.ret ⟨.inr ht, rfl⟩
    · rename_i hnone
      have hmade {u : Universe} {cls : TypeId} (hcls : (u.types.shape cls).isDeclared) :
          Works gathering (classTable fuel cls) u fun r u' => ∀ t, r = .ok t → (u'.membersOf cls).table = .built t :=
        (ih hcls).mono fun r u' hu' _ h t ht => by
          subst ht
          exact h.2
      -- while the members are gathered the table is marked, so the universe is extended only once the table is there
      have hmarked : (u.withTable cls .building).WellFormed := hu.withTable hknown (by simp)
      obtain ⟨hl, ht, hdistinct⟩ := gatherTable_works hmade (u := u.withTable cls .building) hcls hmarked
      refine fun _ => ⟨withTable_leads hu hknown hnone hl ht.sound (fun _ hid => ht.listed hid) fun htidy => ?_,
        ht.sound.of_same rfl rfl, congrArg ClassMembers.table (membersOf_put_self rfl)⟩
      rw [classOf_of_isDeclared (hl.2.types.isDeclared hcls)]
      have hc := htidy.membersOf cls
      exact hdistinct (htidy.put ⟨hc.nodup, hc.own, fun t hbuilt => by cases hbuilt⟩)

/-- The table of a class that is asked for is sound, and kept, unless it is being made. -/
theorem request_works {cls : TypeId} (hcls : (u.types.shape cls).isDeclared) :
    Works binding (classTable u.tableFuel cls) u fun r u' => match r with
      | .ok t => u'.SoundTable t ∧ (u'.membersOf cls).table = .built t
      | .error _ => (u.membersOf cls).table = .building ∧ u' = u := by
  refine Works.of_sound fun hu => ?_
  have hrequest : Works binding (classTable u.tableFuel cls) u fun r u' => classTable u.tableFuel cls u = (r, u') :=
    have hl := (classTable_works u.tableFuel hcls hu).1
    fun _ => ⟨⟨hl.1, hl.2, .single ⟨hu, .request hcls⟩⟩, rfl⟩
  refine hrequest.mono fun r u' _ _ hrun => ?_
  have hmade := (classTable_works u.tableFuel hcls hu).2
  rw [hrun] at hmade
  cases r with
  | ok t => exact hmade
  | error f => exact hmade.imp_left (·.resolve_left (Nat.succ_ne_zero _))

/-- The members of arrays are made. -/
theorem arrayMembers_works : Works binding arrayMembers u fun p u' => u'.IsNamed p.1 "clone" ∧ u'.Listed p.1 := by
  have houtlines (cls : TypeId) : (arrayMembers u).2.outline cls = u.outline cls := by
    unfold outline
    rw [u.arrayMembers_same.2]
  have hbounded (hb : u.Bounded) : (arrayMembers u).2.Bounded := by
    unfold arrayMembers
    rw [get_bind_apply]
    split
    · exact hb
    · exact hb.push rfl rfl (by simp)
  have hmarks : (arrayMembers u).2.placeholders = u.placeholders ∧ (arrayMembers u).2.accessors = u.accessors := by
    unfold arrayMembers
    rw [get_bind_apply]
    split <;> exact ⟨rfl, rfl⟩
  refine works_of_move (Works.of_sound fun hu => Works.read ?_) (fun _ => .arrayMembers) houtlines (fun _ => hbounded)
    fun hu hk hm => hm.keeps hu hk hmarks.1 hmarks.2
  split
  · rename_i hmade
    exact Works.ret ⟨hu.arrayClone hmade, .clone hmade rfl⟩
  · refine (allocMethod_extends (fun hs => ?_) (by simp)).bind fun clone u₁ _ _ h₁ =>
      allocField_extends.bind fun _ u₂ _ hl₂ _ => ?_
    · exact ⟨hs.knows_predefined (t := .object) (by decide), by simp,
        hs.knows_predefined (t := .object) (by decide), by simp, by simp⟩
    · have hclone : u₂.IsNamed clone "clone" := hl₂.2.isNamed ⟨_, h₁.1, rfl⟩
      have hsome : clone.isSome := by
        refine bne_iff_ne.mpr ?_
        rintro rfl
        simp [IsNamed, method?] at hclone
      refine (Works.change (R := fun _ u' => u'.IsNamed clone "clone" ∧ u'.Listed clone) (extends_of_same rfl rfl rfl rfl ?_ ?_
        (.inr hclone) ?_) ⟨hclone, .clone hsome rfl⟩).bind fun _ _ _ _ h => Works.ret h
      · exact fun _ => .refl _
      · exact fun _ h => .inl h
      · exact fun _ h => .inl h

/-! ## What classes leave alone

Arrays have tables of their own, with members that no class has.
-/

/-- Making the table of a class leaves the tables of arrays alone. -/
theorem classTable_arrayTables (fuel : Nat) (cls : TypeId) : Leaves arrayTables (classTable fuel cls) :=
  classTable_leaves (signature_leaves (fun _ _ _ => rfl) fun _ _ _ _ _ => rfl) (fun _ _ _ => rfl) fuel cls

/-- The members of arrays are a callable and a field that no class has. -/
theorem arrayMembers_leaves {β : Type} {part : Universe → β}
    (hpart : ∀ u methods fields arrayClone arrayLength, part { u with methods, fields, arrayClone, arrayLength } = part u) :
    Leaves part arrayMembers := by
  refine .read fun u => ?_
  split
  · exact .ret _
  · exact fun u => hpart u _ _ _ _

/-! ## Tables that are made

What a type lists, once its table is there.
-/

/-- Whether a type can have members at all. -/
def hasMembers (u : Universe) (t : TypeId) : Bool :=
  u.types.isArray t || (u.types.classOf t).isSome

/-- The member table of a type, once it is made. -/
def table? (u : Universe) (t : TypeId) : Option MemberTable :=
  match u.hasMembers t, u.tableState t with
  | true, .built table => some table
  | _, _ => none

/-- There is no member table of a type and there will be none: the type has no members, or its
table is marked for good. The second case does not come up in a run, since no table is left
half made there. -/
def Tableless (u : Universe) (t : TypeId) : Prop :=
  u.hasMembers t = false ∨ u.tableState t = .building

theorem table?_eq_some_iff {t : TypeId} {table : MemberTable} :
    u.table? t = some table ↔ u.hasMembers t ∧ u.tableState t = .built table := by
  unfold table?
  cases u.hasMembers t <;> cases u.tableState t <;> simp

theorem Tableless.table? {t : TypeId} (h : u.Tableless t) : u.table? t = none := by
  refine Option.eq_none_iff_forall_ne_some.mpr fun table htable => ?_
  obtain ⟨hmembers, hbuilt⟩ := table?_eq_some_iff.mp htable
  rcases h with h | h
  · simp [h] at hmembers
  · simp [h] at hbuilt

variable {u' : Universe}

theorem Keeps.hasMembers (h : u.Keeps u') {t : TypeId} (ht : u.types.Knows t) : u'.hasMembers t = u.hasMembers t := by
  unfold Universe.hasMembers TypeStore.isArray
  rw [h.types.shape ht, h.types.classOf ht]

/-- A table that was made stays. -/
theorem Keeps.table? (h : u.Keeps u') {t : TypeId} (ht : u.types.Knows t) {table : MemberTable}
    (htable : u.table? t = some table) : u'.table? t = some table := by
  obtain ⟨hmembers, hbuilt⟩ := table?_eq_some_iff.mp htable
  refine table?_eq_some_iff.mpr ⟨(h.hasMembers ht).trans hmembers, ?_⟩
  rw [(h.tables t ht).eq_of_ne (by simp [hbuilt]), hbuilt]

/-- Whether a type can have a table never changes. -/
theorem Keeps.tableless_iff (h : u.Keeps u') {t : TypeId} (ht : u.types.Knows t) : u'.Tableless t ↔ u.Tableless t := by
  unfold Tableless
  rw [h.hasMembers ht]
  refine or_congr_right ⟨(h.tables t ht).eq_building, fun hm => ?_⟩
  rw [(h.tables t ht).eq_of_ne (by simp [hm]), hm]

/-- The root class is no array. -/
theorem WellFormed.tableState_object (hu : u.WellFormed) : u.tableState .object = (u.membersOf .object).table := by
  have hcls : u.types.classOf .object = .object := hu.types.classOf_arraySupertype (by decide)
  rw [tableState_of_not_isArray (by simp [TypeStore.isArray, hu.types.shape_object, TypeShape.isArray]), hcls]

/-- A further table of an array changes no other one, once the root class has its table. -/
theorem tableState_append {t : TypeId} {table root : MemberTable} (hroot : (u.membersOf .object).table = .built root)
    (t' : TypeId) : (u.tableState t').Later ({ u with arrayTables := u.arrayTables ++ [(t, table)] }.tableState t') := by
  cases harray : u.types.isArray t' with
  | false =>
    rw [tableState_of_not_isArray harray, tableState_of_not_isArray (by exact harray)]
    exact .refl _
  | true =>
    rw [tableState_of_isArray harray, tableState_of_isArray (by exact harray), List.lookup_append, hroot]
    show (arrayState _ _).Later (arrayState _ (u.membersOf .object).table)
    rw [hroot]
    cases u.arrayTables.lookup t' with
    | some other => exact .refl _
    | none =>
      cases List.lookup t' [(t, table)] with
      | none => exact .refl _
      | some made => exact .inr ⟨rfl, made, rfl⟩

/-- The table of a class. -/
theorem classTable_table? {cls t : TypeId} (hcls : u.types.classOf t = cls) (harray : u.types.isArray t = false)
    (hsome : cls.isSome) {table : MemberTable} (h : (u.membersOf cls).table = .built table) : u.table? t = some table := by
  refine table?_eq_some_iff.mpr ⟨by simp [Universe.hasMembers, hcls, hsome], ?_⟩
  rw [tableState_of_not_isArray harray, hcls, h]

/-- The table of an array is kept from when it is made. Everything in it is in the table of
the root class or one of the two members of arrays, so it is as sound as these are. -/
theorem keepArrayTable_works {t : TypeId} (harray : u.types.isArray t) {root : MemberTable}
    (hroot : (u.membersOf .object).table = .built root) {clone : MethodId} (hclone : u.IsNamed clone "clone" ∧ u.Listed clone)
    (length : FieldId) (hnone : u.arrayTables.lookup t = none) :
    Works binding (modify fun u' => { u' with arrayTables := u'.arrayTables ++ [(t, u.arrayTableFrom t clone length root)] }) u
      fun _ u' => u'.SoundTable (u.arrayTableFrom t clone length root) ∧
        u'.table? t = some (u.arrayTableFrom t clone length root) := by
  refine Works.of_sound fun hu => ?_
  have hlisted : u.ListedTable (u.arrayTableFrom t clone length root) := by
    have hlisted := WellFormed.listedTable hu hroot
    refine ⟨arrayTableFrom_all t (listedShadow_single hclone.1.has hclone.2) length fun p hp s hs => ?_,
      arrayTableFrom_filed t hclone.1 length hlisted.filed⟩
    have hs' := hlisted.shadows p hp s hs
    exact listedShadow_single hs'.has (hs'.listed _ (.inl rfl))
  have hsound := hlisted.sound
  have hplain : (u.arrayTableFrom t clone length root).All fun s => s.conflicts = [] :=
    arrayTableFrom_all (P := fun s => s.conflicts = []) t rfl length fun _ _ _ _ => rfl
  refine Works.change (Move.leads hu (extends_of_same rfl rfl rfl rfl (tableState_append hroot) ?_ (.inl rfl) fun _ h => .inl h)
    (.arrayTable (fun _ hid => hlisted.listed hid) hplain) (fun _ => rfl) (fun hb => hb.of_same rfl rfl)
    fun hm => hm.of_same rfl rfl rfl rfl) ⟨hsound.of_same rfl rfl, table?_eq_some_iff.mpr ⟨by simp [hasMembers, harray], ?_⟩⟩
  · intro p hp
    rcases List.mem_append.mp hp with hp | hp
    · exact .inl hp
    · rw [List.mem_singleton.mp hp]
      exact .inr hsound
  · rw [tableState_of_isArray (by exact harray)]
    simp [List.lookup_append, hnone, arrayState]

/-- Every member table that is given out is sound, and kept. That of an array is made from
that of the root class and the members that arrays have; that of a class is the recorded one.
-/
theorem memberTable_works {t : TypeId} (ht : u.types.Knows t) :
    Works binding (memberTable t) u fun r u' => match r with
      | .ok table => u'.SoundTable table ∧ u'.table? t = some table
      | .error _ => u'.Tableless t := by
  refine Works.of_sound fun hu => Works.read ?_
  have hroot : u.types.Knows .object := hu.types.knows_predefined (by decide)
  have hrootDeclared : (u.types.shape .object).isDeclared := by rw [hu.types.shape_object]; rfl
  dsimp only
  split
  · rename_i harray
    split
    · rename_i table h
      refine Works.ret ⟨hu.arrayTables _ (TypeStore.mem_of_lookup h), table?_eq_some_iff.mpr ⟨by simp [hasMembers, harray], ?_⟩⟩
      rw [tableState_of_isArray harray, h]
      rfl
    · rename_i hnone
      refine (request_works hrootDeclared).self.bind fun r u₁ hu₁ hl₁ h₁ => ?_
      obtain ⟨h₁, heq₁⟩ := h₁
      cases r with
      | error f =>
        obtain ⟨hbuilding, rfl⟩ := h₁
        refine Works.ret (.inr ?_)
        rw [tableState_of_isArray harray, hnone, hbuilding]
        rfl
      | ok root =>
        refine arrayMembers_works.self.bind fun cl u₂ hu₂ hl₂ h₂ => Works.read ?_
        obtain ⟨hclone, heq₂⟩ := h₂
        -- no table of an array was made meanwhile, and that of the root class is still there
        have harrays : u₂.arrayTables = u.arrayTables := by
          have hcls := classTable_arrayTables u.tableFuel .object u
          have hleaves : Leaves arrayTables arrayMembers := arrayMembers_leaves fun _ _ _ _ _ => rfl
          have hmembers := hleaves u₁
          rw [heq₁] at hcls
          rw [heq₂] at hmembers
          exact hmembers.trans hcls
        have hroot₂ : (u₂.membersOf .object).table = .built root := by
          have hkept := hl₂.2.tables .object (hl₁.2.types.knows hroot)
          rw [hu₁.tableState_object, hu₂.tableState_object, h₁.2] at hkept
          exact hkept.eq_of_ne (by simp)
        have harray₂ : u₂.types.isArray t := by
          rw [TypeStore.isArray, (hl₁.2.types.trans hl₂.2.types).shape ht]
          exact harray
        exact (keepArrayTable_works harray₂ hroot₂ hclone cl.2 (harrays ▸ hnone)).bind fun _ _ _ _ h => Works.ret h
  · rename_i harray
    split
    · rename_i hsome
      refine (request_works (isDeclared_classOf hu.types hsome)).mono fun r u' _ hl h => ?_
      cases r with
      | ok table =>
        refine ⟨h.1, classTable_table? (hl.2.types.classOf ht) ?_ hsome h.2⟩
        rw [TypeStore.isArray, hl.2.types.shape ht]
        simpa [TypeStore.isArray] using harray
      | error f =>
        obtain ⟨hbuilding, rfl⟩ := h
        refine .inr ?_
        rw [tableState_of_not_isArray (by simpa using harray)]
        exact hbuilding
    · rename_i hnone
      exact Works.ret (.inl (by simp_all [hasMembers]))

/-- The table of a declared class is the recorded one. -/
theorem tableState_of_isDeclared {p : TypeId} (h : (u.types.shape p).isDeclared) :
    u.tableState p = (u.membersOf p).table := by
  rw [tableState_of_not_isArray (not_isArray_of_isDeclared h), classOf_of_isDeclared h]

/-- A declared class has members. -/
theorem hasMembers_of_isDeclared {cls : TypeId} (h : (u.types.shape cls).isDeclared) : u.hasMembers cls := by
  have hsome : cls.isSome := by
    refine bne_iff_ne.mpr ?_
    rintro rfl
    simp [TypeStore.shape, TypeShape.isDeclared] at h
  simp [hasMembers, classOf_of_isDeclared h, hsome]

/-- Unless the table of a declared class is being made, it is there on request, and tells its
overloads apart. -/
theorem memberTable_distinct (hu : u.WellFormed) (ht : u.Tidy) {cls : TypeId} (hcls : (u.types.shape cls).isDeclared)
    (hmaking : ¬ u.IsMaking cls) :
    ∃ table u', memberTable cls u = (.ok table, u') ∧ binding.Leads u u' ∧ u'.Distinct cls table := by
  obtain ⟨hl, h⟩ := memberTable_works (TypeStore.knows_of_isDeclared hcls) hu
  obtain ⟨r, u', hrun⟩ : ∃ r u', memberTable cls u = (r, u') := ⟨_, _, rfl⟩
  rw [hrun] at hl h
  have hcls' : (u'.types.shape cls).isDeclared := hl.2.types.isDeclared hcls
  have hstate := tableState_of_isDeclared hcls'
  cases r with
  | error e =>
    refine absurd (hl.2.making cls ?_) hmaking
    rw [← classOf_of_isDeclared hcls', isMaking_iff, ← hstate]
    exact h.resolve_left (by simp [hasMembers_of_isDeclared hcls'])
  | ok table =>
    refine ⟨table, u', hrun, hl, ?_⟩
    have hbuilt := (table?_eq_some_iff.mp h.2).2
    have hc := (hl.2.tidy ht).membersOf cls
    rw [classOf_of_isDeclared hcls'] at hc
    exact hc.table table (hstate ▸ hbuilt)

/-- The overloads of a name that the member table of a type lists, once the table is made. -/
def listed (u : Universe) (t : TypeId) (name : String) : Option (List Shadow) :=
  (u.table? t).map (·.overloads name)

theorem Keeps.listed (h : u.Keeps u') {t : TypeId} (ht : u.types.Knows t) {name : String} {ss : List Shadow}
    (hss : u.listed t name = some ss) : u'.listed t name = some ss := by
  obtain ⟨table, htable, rfl⟩ := Option.map_eq_some_iff.mp hss
  simp [Universe.listed, h.table? ht htable]

/-- A type that lists methods has members. -/
theorem hasMembers_of_listed {t : TypeId} {name : String} {ss : List Shadow} (h : u.listed t name = some ss) :
    u.hasMembers t = true := by
  obtain ⟨table, htable, -⟩ := Option.map_eq_some_iff.mp h
  exact (table?_eq_some_iff.mp htable).1

/-- The bad type lists nothing. -/
theorem not_isBad_of_listed {t : TypeId} {name : String} {ss : List Shadow} (h : u.listed t name = some ss) :
    ¬ u.types.isBad t := by
  intro hbad
  have hshape : u.types.shape t = .bad := by simpa [TypeStore.isBad] using hbad
  have hmembers := hasMembers_of_listed h
  simp [hasMembers, TypeStore.isArray, TypeShape.isArray, TypeStore.classOf, hshape, TypeId.isSome] at hmembers

/-- A type that lists methods is known. -/
theorem knows_of_listed {t : TypeId} {name : String} {ss : List Shadow} (h : u.listed t name = some ss) : u.types.Knows t := by
  refine TypeStore.knows_of_shape fun habsent => ?_
  have hmembers := hasMembers_of_listed h
  simp [hasMembers, TypeStore.isArray, TypeShape.isArray, TypeStore.classOf, habsent, TypeId.isSome] at hmembers

theorem Tableless.listed {t : TypeId} (h : u.Tableless t) (name : String) : u.listed t name = none := by
  simp [Universe.listed, h.table?]

/-- A table that was made is recorded for a class or an array. -/
theorem recorded_of_table? {t : TypeId} {table : MemberTable} (h : u.table? t = some table) :
    (∃ cls c, u.members.lookup cls = some c ∧ c.table = .built table) ∨ ∃ p ∈ u.arrayTables, p.2 = table := by
  obtain ⟨-, hbuilt⟩ := table?_eq_some_iff.mp h
  cases harray : u.types.isArray t with
  | false =>
    rw [tableState_of_not_isArray harray] at hbuilt
    exact .inl ⟨_, _, lookup_of_entry rfl (.inr ⟨_, hbuilt⟩), hbuilt⟩
  | true =>
    rw [tableState_of_isArray harray] at hbuilt
    cases hlookup : u.arrayTables.lookup t with
    | none =>
      rw [hlookup] at hbuilt
      cases hroot : (u.membersOf .object).table <;> simp [hroot, arrayState] at hbuilt
    | some made =>
      rw [hlookup] at hbuilt
      cases hbuilt
      exact .inr ⟨_, TypeStore.mem_of_lookup hlookup, rfl⟩

/-- While tables are made one after another, type variables go on to have proper bounds, and
constructors proper marks. -/
theorem TableSteps.proper {u u' : Universe} (h : TableSteps u u') (hu : u.Proper) : u'.Proper := by
  induction h with
  | refl => exact hu
  | tail _ h ih =>
    obtain ⟨hwf, step⟩ := h
    cases step with
    | aside aside => exact aside.proper ih
    | request declared => exact (classTable_works _ declared hwf).1.2.proper ih

/-- The overloads of a name, and the methods in conflict with them, are listed. -/
theorem Listed.of_overloads {t : TypeId} {name : String} {ss : List Shadow} (h : u.listed t name = some ss) {s : Shadow}
    (hs : s ∈ ss) {id : MethodId} (hid : s.Names id) : u.Listed id := by
  obtain ⟨table, htable, rfl⟩ := Option.map_eq_some_iff.mp h
  have hlists : table.Lists id :=
    MemberTable.All.overloads (P := fun s => s.Names id → table.Lists id) (fun p hp s hs hid => ⟨p, hp, s, hs, hid⟩) hs hid
  rcases recorded_of_table? htable with ⟨cls, c, hfound, hbuilt⟩ | ⟨p, hp, rfl⟩
  · exact .table hfound hbuilt hlists
  · exact .array hp hlists

/-- The overloads of a name that are given out are those that are listed, and sound. -/
theorem overloadsIn_works {t : TypeId} (ht : u.types.Knows t) (name : String) :
    Works binding (overloadsIn t name) u fun ss u' => (∀ s ∈ ss, u'.SoundShadow s) ∧
      (u'.listed t name = some ss ∨ ss = [] ∧ u'.Tableless t) := by
  refine (memberTable_works ht).bind fun r u' _ _ hr => ?_
  cases r with
  | error f => exact Works.ret ⟨by simp, .inr ⟨rfl, hr⟩⟩
  | ok table => exact Works.ret ⟨fun s hs => hr.1.overloads hs, .inl (by simp [Universe.listed, hr.2])⟩

end CallResolution.Universe
