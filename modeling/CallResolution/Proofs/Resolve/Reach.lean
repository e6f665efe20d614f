import CallResolution.Proofs.Resolve.Lexical

/-!
# What is within reach

A method that is found by searching a type competes for a call when it is within reach, or
when it has conflicts. So the callable that a call is bound to is within reach, or conflicts
have let it in. For a protected instance method of another package and another outermost class
to be within reach some class around the call has to inherit from its owner, and the searched
type from some class around the call; the two are looked for one by one, and one class need
not be both.

When nothing that a type lists competes, the methods of the name in its table are all out of
reach. The tables of its superclasses may list others, which it does not inherit, and of these
nothing is known.

Main statements: `permits_of_reach`, `Keeps.picks`, `Picks.found`, `ForeignProtected.halves`
and `NoneCompetes.outOfReach`.
-/

namespace CallResolution

/-! ## Protected methods of other packages

The rule as it is applied: both halves are existential, and each may be met by another class
around the call.
-/

/-- A protected instance method of another package and another outermost class than those of a
call. For no other methods does access depend on what the method is called on. -/
structure ForeignProtected (s : TypeStore) (env : Env) (m : Method) : Prop where
  /-- The method is protected. -/
  access : m.access = .prot
  /-- It is an instance method. -/
  dynamic : m.flags.isStatic = false
  /-- The outermost classes differ. -/
  outermost : env.sharesOutermost s m.owner = false
  /-- The packages differ. -/
  package : s.samePackage env.this m.owner = false

/-- What the rule for protected methods asks of the classes around a call, in two halves. The
frames of the two need not be the same one. -/
structure Halves (s : TypeStore) (env : Env) (owner search : TypeId) : Prop where
  /-- Some class around the call inherits from the owner of the method. -/
  inherits : ∃ f ∈ env.frames, s.isSubclass f.type owner
  /-- The searched type inherits from some class around the call. -/
  covers : ∃ f ∈ env.frames, s.isSubclass search f.type

/-- A protected instance method of another package is within reach, other than through super,
by both halves of the rule. Through super neither half is asked for. -/
theorem ForeignProtected.halves {s : TypeStore} {env : Env} {m : Method} (h : ForeignProtected s env m) {search : TypeId}
    {q : Option Qualifier} (hsuper : q.any (·.isSuper) = false) (hreach : memberAccessible s env m search q = true) :
    Halves s env m.owner search := by
  have hprot : protectedAccessible s env m search q = true := by
    simpa [memberAccessible, h.outermost, h.access] using hreach
  unfold protectedAccessible at hprot
  split at hprot
  · cases hprot
  · rw [h.package, hsuper, Bool.or_self, if_neg Bool.false_ne_true, h.dynamic, Bool.false_or] at hprot
    split at hprot
    · cases hprot
    · rename_i hinherits
      exact ⟨by simpa [Env.inherits] using hinherits, by simpa using hprot⟩

/-! ## What lets a call use a method

The part of access that does not depend on what the method is called on.
-/

/-- What lets the classes around a call use a method, whatever it is called on. For a
protected method this is only one half of the rule; the other half is about the searched type.
-/
inductive Permits (s : TypeStore) (env : Env) (m : Method) : Prop where
  /-- The method is public. -/
  | everyone (access : m.access = .pub)
  /-- The call has the same outermost class as the method. -/
  | outermost (same : env.sharesOutermost s m.owner)
  /-- The call is in the package of the method. -/
  | package (access : m.access = .pkg ∨ m.access = .prot) (same : s.samePackage env.this m.owner)
  /-- A class around the call inherits a protected method. -/
  | heir (access : m.access = .prot) (inherits : ∃ f ∈ env.frames, s.isSubclass f.type m.owner)

instance (s : TypeStore) (env : Env) (m : Method) : Decidable (Permits s env m) :=
  decidable_of_iff (m.access = .pub ∨ env.sharesOutermost s m.owner ∨
      (m.access = .pkg ∨ m.access = .prot) ∧ s.samePackage env.this m.owner ∨
      m.access = .prot ∧ ∃ f ∈ env.frames, s.isSubclass f.type m.owner)
    ⟨fun h => h.elim .everyone fun h => h.elim .outermost fun h => h.elim (fun h => .package h.1 h.2) fun h => .heir h.1 h.2,
      fun h => match h with
      | .everyone access => .inl access
      | .outermost same => .inr (.inl same)
      | .package access same => .inr (.inr (.inl ⟨access, same⟩))
      | .heir access inherits => .inr (.inr (.inr ⟨access, inherits⟩))⟩

/-- A method is within reach when the classes around the call may use it, or through super
when it is protected. The second case says nothing of the classes around the call. -/
theorem permits_of_reach {s : TypeStore} {env : Env} {m : Method} {search : TypeId} {q : Option Qualifier}
    (h : memberAccessible s env m search q = true) : Permits s env m ∨ m.access = .prot ∧ q.any (·.isSuper) = true := by
  rcases (Bool.or_eq_true _ _).mp h with hsame | h
  · exact .inl (.outermost hsame)
  cases haccess : m.access with
  | priv => simp [haccess] at h
  | pub => exact .inl (.everyone haccess)
  | pkg => exact .inl (.package (.inl haccess) (by simpa [haccess] using h))
  | prot =>
    replace h : protectedAccessible s env m search q = true := by simpa [haccess] using h
    unfold protectedAccessible at h
    split at h
    · cases h
    split at h
    · rename_i hnear
      exact ((Bool.or_eq_true _ _).mp hnear).imp (.package (.inr haccess)) fun hsuper => ⟨rfl, hsuper⟩
    split at h
    · cases h
    · rename_i hinherits
      exact .inl (.heir haccess (by simpa [Env.inherits] using hinherits))

namespace Universe

variable {u u' : Universe} {env : Env} {search : TypeId} {q : Option Qualifier} {name : String} {id : MethodId}

/-! ## What calls are bound to

A bound callable is a listed method within reach, or one that conflicts have let in.
-/

/-- A method that a type lists is out of reach but has conflicts, and a callable is the method
or one of these. It is said of the callable that a call is bound to, which may be either. -/
def Admitted (u : Universe) (env : Env) (search : TypeId) (q : Option Qualifier) (name : String) (c : MethodId) : Prop :=
  ∃ ss, u.listed search name = some ss ∧ ∃ s ∈ ss, (u.method s.method).isResolved ∧
    memberAccessible u.types env (u.method s.method) search q = false ∧ s.conflicts ≠ [] ∧ s.Names c

/-- A callable that a call is bound to by searching the methods of a name that a type lists.
The third case is there because tables are not asked to list a method once; in a complete
table it does not arise. -/
inductive Found (u : Universe) (env : Env) (search : TypeId) (q : Option Qualifier) (name : String) : MethodId → Prop
  /-- A listed method is within reach. -/
  | reached {ss : List Shadow} {s : Shadow} (listed : u.listed search name = some ss) (mem : s ∈ ss)
      (resolved : (u.method s.method).isResolved) (reach : memberAccessible u.types env (u.method s.method) search q = true) :
      Found u env search q name s.method
  /-- A conflict takes the place of a listed method out of reach. -/
  | conflict {ss : List Shadow} {s : Shadow} {c : MethodId} (listed : u.listed search name = some ss) (mem : s ∈ ss)
      (resolved : (u.method s.method).isResolved) (outOfReach : memberAccessible u.types env (u.method s.method) search q = false)
      (conflict : c ∈ s.conflicts) : Found u env search q name c
  /-- A method out of reach is listed twice, with and without conflicts. -/
  | doubled {ss : List Shadow} {s s' : Shadow} (listed : u.listed search name = some ss) (mem : s ∈ ss) (mem' : s' ∈ ss)
      (same : s'.method = s.method) (resolved : (u.method s.method).isResolved)
      (outOfReach : memberAccessible u.types env (u.method s.method) search q = false) (conflicts : s.conflicts ≠ [])
      (plain : s'.conflicts = []) : Found u env search q name s.method

/-- Whether a method with a sound signature is within reach stays. -/
theorem Keeps.memberAccessible (h : u.Keeps u') (hu : u.WellFormed) (henv : KnowsEnv u.types env)
    (hsearch : u.types.Knows search) (hq : KnowsQualifier u.types q) (hid : (u.method id).isResolved) :
    memberAccessible u'.types env (u'.method id) search q = memberAccessible u.types env (u.method id) search q := by
  rw [memberAccessible_later (h.later hid), h.types.memberAccessible hu.types henv (hu.method id).owner hsearch hq]

/-- A protected instance method of another package is found, other than through super, by both
halves of the rule, or conflicts let it in. Which of the two depends on whether a conflict
took the place of an overload. -/
theorem Found.halves (h : u.Found env search q name id) (hforeign : ForeignProtected u.types env (u.method id))
    (hsuper : q.any (·.isSuper) = false) :
    Halves u.types env (u.method id).owner search ∨ u.Admitted env search q name id := by
  cases h with
  | reached listed mem resolved reach => exact .inl (hforeign.halves hsuper reach)
  | conflict listed mem resolved outOfReach conflict =>
    exact .inr ⟨_, listed, _, mem, resolved, outOfReach, List.ne_nil_of_mem conflict, .inr conflict⟩
  | doubled listed mem mem' same resolved outOfReach conflicts plain =>
    exact .inr ⟨_, listed, _, mem, resolved, outOfReach, conflicts, .inl rfl⟩

/-- The conflicts that a listed method meets are those of an overload that is bound to it. -/
theorem exists_of_conflictsOf {shadows : List Shadow} {s : Shadow} (hs : s ∈ shadows) :
    ∃ s' ∈ shadows, s'.method = s.method ∧ s'.conflicts = conflictsOf shadows s.method := by
  unfold conflictsOf
  cases hfind : shadows.find? (·.method = s.method) with
  | none => exact absurd (decide_eq_true rfl) (List.find?_eq_none.mp hfind s hs)
  | some s' => exact ⟨s', List.mem_of_find?_eq_some hfind, by simpa using List.find?_some hfind, rfl⟩

/-- The overload that is selected among those of a name that a type lists. It competes, and
accepts the arguments in the phase; and no other overload that competes accepts them in an
earlier one. The last part is about calls with a receiver and calls whose name some class
around them lists: for a static import each imported class is asked for one method, and only
this one is tried. -/
structure SelectedFrom (u : Universe) (env : Env) (typeArgs args : List TypeId) (search : TypeId) (q : Option Qualifier)
    (name : String) (shadows : List Shadow) (ph : Phase) (wrapped : Bool) (id : MethodId) : Prop where
  /-- The overloads are those that the type lists. -/
  listed : u.listed search name = some shadows
  /-- The selected one competes. -/
  competes : ∃ s ∈ shadows, s.method = id ∧ u.competes env search q s
  /-- It accepts the arguments. -/
  accepts : u.Accepts typeArgs args ph wrapped id
  /-- None that competes accepts the arguments in an earlier phase. -/
  first : q.isSome ∨ (∃ f ∈ env.frames, u.listed f.type name ≠ some []) → ∀ s ∈ shadows, u.Processed s.method ∧
    (u.competes env search q s → u.Settled typeArgs s.method ∧
      ∀ ph' ∈ ph.earlier, u.acceptance typeArgs args ph' s.method = none)

/-- A method call was bound by searching the methods of a name that a type lists: one of them
was selected, in the recorded phase and packing trailing arguments as recorded, and the
callable is what is bound for it. -/
def Picks (u : Universe) (env : Env) (typeArgs args : List TypeId) (search : TypeId) (q : Option Qualifier) (name : String)
    (r : Resolution) : Prop :=
  ∃ shadows id, u.SelectedFrom env typeArgs args search q name shadows r.phase r.wrapped id ∧
    u.BoundFor env search q shadows id r.callable

/-- A selection among the overloads that compete. -/
theorem Decides.selectedFrom {level : SourceLevel} {typeArgs args : List TypeId} {ss : List Shadow} {sel : Selection}
    (h : u.Decides level.phases typeArgs args ((ss.filter (u.competes env search q)).map (·.method)) (some sel))
    (hlisted : u.listed search name = some ss) (hprocessed : ∀ s ∈ ss, u.Processed s.method) :
    u.SelectedFrom env typeArgs args search q name ss sel.phase sel.wrapped sel.first where
  listed := hlisted
  competes := by
    obtain ⟨s, hs, hid⟩ := List.mem_map.mp h.accepts.1
    obtain ⟨hmem, hcompetes⟩ := List.mem_filter.mp hs
    exact ⟨s, hmem, hid, hcompetes⟩
  accepts := h.accepts.2
  first _ s hs := by
    refine ⟨hprocessed s hs, fun hcompetes => ?_⟩
    have hmem : s.method ∈ (ss.filter (u.competes env search q)).map (·.method) :=
      List.mem_map_of_mem (List.mem_filter.mpr ⟨hs, hcompetes⟩)
    exact ⟨h.settled _ hmem, h.earlier _ hmem⟩

/-- An overload that was selected stays so. -/
theorem Keeps.selectedFrom (h : u.Keeps u') (hu : u.WellFormed) (henv : KnowsEnv u.types env) {typeArgs args : List TypeId}
    (htypes : ∀ t ∈ typeArgs, u.types.Knows t) (hargs : ∀ t ∈ args, u.types.Knows t) (hq : KnowsQualifier u.types q)
    {ss : List Shadow} {ph : Phase} {wrapped : Bool}
    (hsel : u.SelectedFrom env typeArgs args search q name ss ph wrapped id) :
    u'.SelectedFrom env typeArgs args search q name ss ph wrapped id := by
  have hsearch := knows_of_listed hsel.listed
  have competes {s : Shadow} (hs : u.Processed s.method) := h.competes hu henv hsearch hq hs
  refine ⟨h.listed hsearch hsel.listed, ?_, h.accepts hu htypes hargs hsel.accepts, fun hwhere s hs => ?_⟩
  · obtain ⟨s, hs, rfl, hcompetes⟩ := hsel.competes
    exact ⟨s, hs, rfl, (competes (processed_of_isResolved hsel.accepts.resolved)).trans hcompetes⟩
  · have hbefore : q.isSome ∨ ∃ f ∈ env.frames, u.listed f.type name ≠ some [] := by
      refine hwhere.imp_right fun ⟨f, hf, hnonempty⟩ => ⟨f, hf, fun hempty => hnonempty ?_⟩
      exact h.listed (henv f hf) hempty
    obtain ⟨hprocessed, hfirst⟩ := hsel.first hbefore s hs
    refine ⟨h.processed hprocessed, fun hcompetes => ?_⟩
    rw [competes hprocessed] at hcompetes
    have hresolved := (Bool.and_eq_true_iff.mp hcompetes).1
    obtain ⟨hsettled, hnone⟩ := hfirst hcompetes
    obtain ⟨f, -, -, hf⟩ := h.settled_formals hu htypes hresolved hsettled
    refine ⟨by rw [Settled, hf], fun ph' hph' => ?_⟩
    rw [h.acceptance hu htypes hargs hresolved hsettled]
    exact hnone ph' hph'

/-- What was bound for an overload stays so. -/
theorem Keeps.boundFor (h : u.Keeps u') (hu : u.WellFormed) (henv : KnowsEnv u.types env) (hsearch : u.types.Knows search)
    (hq : KnowsQualifier u.types q) {ss : List Shadow} {c : MethodId} (hid : (u.method id).isResolved)
    (hbound : u.BoundFor env search q ss id c) : u'.BoundFor env search q ss id c := by
  have access := h.memberAccessible hu henv hsearch hq hid
  cases hbound with
  | self why => exact .self (why.imp_right access.trans)
  | standIn mem selected conflict same outOfReach =>
    exact .standIn mem selected conflict (h.sameSignature hu same) (access.trans outOfReach)

/-- What a call was bound to by a search stays so. The table, the signatures and the
parameters were made for the search, and none of them changes any more. -/
theorem Keeps.picks (h : u.Keeps u') (hu : u.WellFormed) (henv : KnowsEnv u.types env) {typeArgs args : List TypeId}
    (htypes : ∀ t ∈ typeArgs, u.types.Knows t) (hargs : ∀ t ∈ args, u.types.Knows t) (hq : KnowsQualifier u.types q)
    {r : Resolution} (hpicks : u.Picks env typeArgs args search q name r) : u'.Picks env typeArgs args search q name r := by
  obtain ⟨ss, id, hsel, hbound⟩ := hpicks
  exact ⟨ss, id, h.selectedFrom hu henv htypes hargs hq hsel,
    h.boundFor hu henv (knows_of_listed hsel.listed) hq hsel.accepts.resolved hbound⟩

/-- The callable of a call that was bound by a search is found by it. This forgets which
overload was selected, and keeps how the callable came to stand in for it. -/
theorem Picks.found {typeArgs args : List TypeId} {r : Resolution} (h : u.Picks env typeArgs args search q name r) :
    u.Found env search q name r.callable := by
  obtain ⟨ss, id, ⟨hlisted, ⟨s, hmem, hid, hcompetes⟩, -, -⟩, hbound⟩ := h
  obtain ⟨hresolved, hwhy⟩ := Bool.and_eq_true_iff.mp hcompetes
  generalize r.callable = c at hbound
  cases hbound with
  | self why =>
    subst hid
    cases hreach : memberAccessible u.types env (u.method s.method) search q with
    | true => exact .reached hlisted hmem hresolved hreach
    | false =>
      have hnone : conflictsOf ss s.method = [] := by simpa [hreach] using why
      have hconflicts : s.conflicts ≠ [] := by simpa [hreach] using hwhy
      obtain ⟨s', hmem', hsame, hmet⟩ := exists_of_conflictsOf hmem
      exact .doubled hlisted hmem hmem' hsame hresolved hreach hconflicts (hmet.trans hnone)
  | @standIn s' _ hmem' selected conflict same outOfReach =>
    subst selected
    rw [hid] at hresolved
    exact .conflict hlisted hmem' hresolved outOfReach (List.mem_of_mem_head? conflict)

/-! ## When nothing competes

What is left to say of the methods that a type lists when the selection among them is empty.
-/

/-- No method of a name that a type lists competes for a call: its table is made or will never
be, and the signatures of what it lists have been looked at. So no later table and no later
signature can make one compete. -/
def NoneCompetes (u : Universe) (env : Env) (q : Option Qualifier) (name : String) (t : TypeId) : Prop :=
  u.Tableless t ∨ ∃ ss, u.listed t name = some ss ∧ ∀ s ∈ ss, u.Processed s.method ∧ u.competes env t q s = false

/-- What does not compete will not. -/
theorem Keeps.noneCompetes (h : u.Keeps u') (hu : u.WellFormed) (henv : KnowsEnv u.types env) (hsearch : u.types.Knows search)
    (hq : KnowsQualifier u.types q) (hnone : u.NoneCompetes env q name search) : u'.NoneCompetes env q name search := by
  rcases hnone with hnone | ⟨ss, hlisted, hss⟩
  · exact .inl ((h.tableless_iff hsearch).mpr hnone)
  · refine .inr ⟨ss, h.listed hsearch hlisted, fun s hs => ?_⟩
    obtain ⟨hprocessed, hidle⟩ := hss s hs
    exact ⟨h.processed hprocessed, by rw [h.competes hu henv hsearch hq hprocessed, hidle]⟩

/-- A method that a type lists is out of reach when it has a sound signature and does not
compete. It has no conflicts, either, but that plays no part where this is used. -/
theorem NoneCompetes.outOfReach (h : u.NoneCompetes env q name search) {ss : List Shadow}
    (hlisted : u.listed search name = some ss) {s : Shadow} (hs : s ∈ ss) (hresolved : (u.method s.method).isResolved) :
    memberAccessible u.types env (u.method s.method) search q = false := by
  rcases h with hnone | ⟨ss', hlisted', hss⟩
  · rw [hnone.listed] at hlisted
    cases hlisted
  · cases hlisted.symm.trans hlisted'
    have hidle := (hss s hs).2
    unfold competes at hidle
    simp only [hresolved, Bool.true_and, Bool.or_eq_false_iff] at hidle
    exact hidle.1

end Universe

namespace Session

/-- The superclass of a known class is known. -/
theorem knows_superClass {s : TypeStore} (hs : s.WellFormed) (t : TypeId) : s.Knows (s.superClass t) := by
  unfold TypeStore.superClass
  cases hi : s.classInfo? t with
  | none => exact hs.knows_none
  | some info => exact hs.knows_classOf (hs.knows_classInfo hi).super.1

/-- The superclasses of a known class are known. -/
theorem knows_superChain {s : TypeStore} (hs : s.WellFormed) (n : Nat) {t : TypeId} (ht : s.Knows t) :
    ∀ c ∈ superChain s n t, s.Knows c := by
  induction n generalizing t with
  | zero => simp [superChain]
  | succ n ih =>
    intro c hc
    unfold superChain at hc
    split at hc
    · rcases List.mem_cons.mp hc with rfl | hc
      · exact ht
      · exact ih (knows_superClass hs t) c hc
    · simp at hc

/-- The superclass of a known class stays. -/
theorem superClass_extends {s s' : TypeStore} (h : s.Extends s') (hs : s.WellFormed) {t : TypeId} (ht : s.Knows t) :
    s'.superClass t = s.superClass t := by
  unfold TypeStore.superClass
  rw [h.classInfo hs ht]
  cases hi : s.classInfo? t with
  | none => rfl
  | some info => exact h.classOf (hs.knows_classInfo hi).super.1

/-- The superclasses of a known class stay. -/
theorem superChain_extends {s s' : TypeStore} (h : s.Extends s') (hs : s.WellFormed) (n : Nat) {t : TypeId} (ht : s.Knows t) :
    superChain s' n t = superChain s n t := by
  induction n generalizing t with
  | zero => rfl
  | succ n ih =>
    unfold superChain
    rw [superClass_extends h hs ht, ih (knows_superClass hs t)]

end Session

end CallResolution
