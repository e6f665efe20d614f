import CallResolution.Proofs.Resolve.Session
import CallResolution.Resolve.NotFound

/-!
# Selections in sessions

Letting callables compete processes their signatures and makes the types of their parameters,
and is quiet otherwise. What comes out is a selection among the callables that compete in the
state that is left behind.

The statements about selections in `Selection` speak of a universe that is not changed. Here
they are told of sessions: `Decides` is a selection among callables that have been settled,
and `selectMethod_works` says that a session selects in this way, with the listed callables
that compete. What is selected is not yet what is called: `BoundFor` says which callable is
bound for an overload, the overload itself or, when it is out of reach, the first one that it
is in conflict with.

Main statements: `selectMethod_works`, `selectCtor_works`, `pick_works` and
`bindTarget_boundFor`.
-/

namespace CallResolution

namespace Universe

variable {u : Universe}

/-- The methods that compete for a call do so after their signatures are processed. -/
theorem competingMethods_works (env : Env) (search : TypeId) (q : Option Qualifier) (shadows : List Shadow) :
    Works binding (competingMethods env search q shadows) u fun ss u' =>
      ss = shadows.filter (u'.competes env search q) ∧
        ∀ s ∈ shadows, u.Has s.method → u'.Processed s.method := by
  unfold competingMethods
  refine (withSignature_works _).bind fun _ u₁ _ _ h => Works.read (Works.ret ⟨rfl, fun s hs => ?_⟩)
  exact h s.method (List.mem_map_of_mem hs)

/-- The constructors that compete for a call do so after their signatures are processed. -/
theorem competingCtors_works (env : Env) (cls : TypeId) (isExplicit : Bool) :
    Works binding (competingCtors env cls isExplicit) u fun ids u' =>
      ids = (u.constructors cls).filter (u'.ctorCompetes env isExplicit) ∧
        ∀ id ∈ u.constructors cls, u.Has id → u'.Processed id := by
  refine Works.read ?_
  dsimp only
  exact (withSignature_works _).bind fun _ u₁ _ _ h => Works.read (Works.ret ⟨rfl, h⟩)

/-- What selecting among callables gives: nothing when none of them accepts the arguments in
any phase, and else a selection of the first phase in which one does. -/
def Chooses (u : Universe) (phases : List Phase) (typeArgs args : List TypeId) (ids : List MethodId) :
    Option Selection → Prop
  | none => ∀ ph ∈ phases, ∀ id ∈ ids, u.acceptance typeArgs args ph id = none
  | some sel => u.Selects phases typeArgs args ids sel

/-- A choice among callables that have processed signatures and made parameters. So the choice
is the same in every later universe, whoever asks for it. -/
structure Decides (u : Universe) (phases : List Phase) (typeArgs args : List TypeId) (ids : List MethodId)
    (sel : Option Selection) : Prop where
  /-- The signatures have been processed. -/
  resolved : ∀ id ∈ ids, (u.method id).isResolved
  /-- The parameters have been made. -/
  settled : ∀ id ∈ ids, u.Settled typeArgs id
  /-- The choice. -/
  chooses : u.Chooses phases typeArgs args ids sel

/-- None of the callables accepts the arguments before the phase of the selection. -/
theorem Decides.earlier {level : SourceLevel} {typeArgs args : List TypeId} {ids : List MethodId} {sel : Selection}
    (h : u.Decides level.phases typeArgs args ids (some sel)) :
    ∀ id ∈ ids, ∀ ph ∈ sel.phase.earlier, u.acceptance typeArgs args ph id = none := by
  obtain ⟨before, after, hphases, hnone⟩ := h.chooses.first
  intro id hid ph hph
  exact hnone ph (by rwa [SourceLevel.eq_earlier hphases]) id hid

/-- The first selected callable accepts the arguments. -/
theorem Decides.accepts {level : SourceLevel} {typeArgs args : List TypeId} {ids : List MethodId} {sel : Selection}
    (h : u.Decides level.phases typeArgs args ids (some sel)) :
    sel.first ∈ ids ∧ u.Accepts typeArgs args sel.phase sel.wrapped sel.first := by
  have hmem := (h.chooses.accepted sel.first (by simp)).1
  exact ⟨hmem, h.resolved _ hmem, h.settled _ hmem, h.chooses.wrapped, h.earlier _ hmem⟩

/-- Something is selected when and only when some callable accepts the arguments in some
phase. -/
theorem Chooses.isSome_iff {phases : List Phase} {typeArgs args : List TypeId} {ids : List MethodId}
    {sel : Option Selection} (h : u.Chooses phases typeArgs args ids sel) :
    sel.isSome ↔ ∃ ph ∈ phases, ∃ id ∈ ids, (u.acceptance typeArgs args ph id).isSome := by
  cases sel with
  | none =>
    simp only [Option.isSome_none, Bool.false_eq_true, false_iff, not_exists, not_and]
    intro ph hph id hid
    simp [h ph hph id hid]
  | some sel =>
    obtain ⟨before, after, hphases, -⟩ := h.first
    obtain ⟨hmem, hacc⟩ := h.accepted sel.first (by simp)
    exact ⟨fun _ => ⟨sel.phase, by simp [hphases], sel.first, hmem, hacc⟩, fun _ => rfl⟩

end Universe

namespace Session

open Universe

variable {st : Session}

/-- Noting the phases that were tried is quiet. -/
theorem notePhases_works (l : List (Phase × Nat)) :
    Works quietly (notePhases l) st fun _ st' => st'.world = st.world := by
  induction l generalizing st with
  | nil => exact Works.ret rfl
  | cons p l ih =>
    unfold notePhases
    exact (note_works _).bind fun _ st₁ _ _ h₁ => ih.mono fun _ _ _ _ h => h.trans h₁

/-- What candidates select their callables select. -/
theorem selectAmong_works {cands : List Candidate} {typeArgs args : List TypeId}
    (hoffers : ∀ c ∈ cands, st.world.OffersIn typeArgs st.world.types c)
    (hresolved : ∀ c ∈ cands, (st.world.method c.method).isResolved) :
    Works quietly (selectAmong cands args) st fun sel st' => st'.world = st.world ∧
      st'.world.Decides st.options.source.phases typeArgs args (cands.map (·.method)) sel := by
  refine Works.of_sound fun hst => Works.read ((notePhases_works _).bind fun _ st₁ _ _ h₁ => Works.ret ⟨h₁, ?_⟩)
  rw [h₁]
  refine ⟨fun id hid => ?_, fun id hid => ?_, ?_⟩
  · obtain ⟨c, hc, rfl⟩ := List.mem_map.mp hid
    exact hresolved c hc
  · obtain ⟨c, hc, rfl⟩ := List.mem_map.mp hid
    exact (hoffers c hc).settled
  cases hsel : select st.world.types cands args st.options.source.phases with
  | none => exact fun ph hph => acceptance_eq_none hoffers (select_eq_none_iff.mp hsel ph hph)
  | some sel => exact selects_of_select hst.world hoffers hresolved hsel

/-- Selecting among callables that compete in the present state. -/
theorem selectFrom_works {ids : List MethodId} {typeArgs args : List TypeId}
    (htypes : ∀ t ∈ typeArgs, st.world.types.Knows t) (hresolved : ∀ id ∈ ids, (st.world.method id).isResolved) :
    Works quietly (do
      let cands ← onUniverse (candidates typeArgs ids)
      selectAmong cands args) st fun sel st' =>
        st'.world = { st.world with types := st'.world.types } ∧
          st'.world.Decides st.options.source.phases typeArgs args ids sel := by
  refine (onUniverse_works (candidates_works htypes ids)).bind fun cands st₁ _ hl₁ h₁ => ?_
  obtain ⟨⟨hids, hoffers, hworld⟩, -⟩ := h₁
  refine (selectAmong_works hoffers fun c hc => ?_).mono fun sel st₂ _ _ h₂ => ?_
  · have hmem : c.method ∈ ids := hids ▸ List.mem_map_of_mem hc
    exact hl₁.2.world.isResolved (hresolved _ hmem)
  · rw [hids, hl₁.2.options] at h₂
    rw [h₂.1]
    exact ⟨hworld, h₂.1 ▸ h₂.2⟩

variable {env : Env} {args : List TypeId}

/-- The overloads of a name compete. The signatures of all of them are processed for it, also
of those that turn out not to compete; what competes is judged in the session that is left
behind. -/
theorem selectMethod_works (henv : KnowsEnv st.world.types env) {site : Site}
    (htypes : ∀ t ∈ site.typeArgs, st.world.types.Knows t) {search : TypeId} (hsearch : st.world.types.Knows search)
    {q : Option Qualifier} (hq : KnowsQualifier st.world.types q) (shadows : List Shadow) :
    Works quietly (selectMethod env site search q shadows args) st fun sel st' =>
      (∀ s ∈ shadows, st.world.Has s.method → st'.world.Processed s.method) ∧
        st'.world.Decides st.options.source.phases site.typeArgs args
          ((shadows.filter (st'.world.competes env search q)).map (·.method)) sel := by
  unfold selectMethod
  refine (onUniverse_works (competingMethods_works env search q shadows)).bind fun ss st₁ hst₁ hl₁ h₁ => ?_
  obtain ⟨⟨rfl, hprocessed⟩, -⟩ := h₁
  have hg := hl₁.2.world.types.toGrows
  refine (selectFrom_works (fun t ht => hg.knows (htypes t ht)) fun id hid => ?_).mono fun sel st₂ _ hl₂ h₂ => ?_
  · obtain ⟨s, hs, rfl⟩ := List.mem_map.mp hid
    exact (Bool.and_eq_true_iff.mp (List.mem_filter.mp hs).2).1
  · have hcompetes (s : Shadow) : st₂.world.competes env search q s = st₁.world.competes env search q s := by
      rw [h₂.1]
      exact competes_extends hst₁.world hl₂.2.world.types (henv.grows hg) (hg.knows hsearch)
        (fun x hx => hg.knows (hq x hx)) s
    refine ⟨fun s hs hsome => hl₂.2.world.processed (hprocessed s hs hsome), ?_⟩
    rw [List.filter_congr fun s _ => hcompetes s, ← hl₁.2.options]
    exact h₂.2

/-- The constructors of a class compete. Explicit type arguments are for methods, so there are
none, and no conflicts let a constructor in. -/
theorem selectCtor_works (henv : KnowsEnv st.world.types env) (cls : TypeId) (isExplicit : Bool) :
    Works quietly (selectCtor env cls args isExplicit) st fun sel st' =>
      (∀ id ∈ st.world.constructors cls, st.world.Has id → st'.world.Processed id) ∧
        st'.world.Decides st.options.source.phases [] args
          ((st.world.constructors cls).filter (st'.world.ctorCompetes env isExplicit)) sel := by
  unfold selectCtor
  refine (onUniverse_works (competingCtors_works env cls isExplicit)).bind fun ids st₁ hst₁ hl₁ h₁ => ?_
  obtain ⟨⟨rfl, hprocessed⟩, -⟩ := h₁
  have hg := hl₁.2.world.types.toGrows
  refine (selectFrom_works (by simp) fun id hid => ?_).mono fun sel st₂ _ hl₂ h₂ => ?_
  · exact (Bool.and_eq_true_iff.mp (List.mem_filter.mp hid).2).1
  · have hcompetes (id : MethodId) : st₂.world.ctorCompetes env isExplicit id = st₁.world.ctorCompetes env isExplicit id := by
      rw [h₂.1]
      exact ctorCompetes_extends hst₁.world hl₂.2.world.types (henv.grows hg) isExplicit id
    refine ⟨fun id hid hsome => hl₂.2.world.processed (hprocessed id hid hsome), ?_⟩
    rw [List.filter_congr fun id _ => hcompetes id, ← hl₁.2.options]
    exact h₂.2

/-- The report about a selection: nothing when a callable was selected alone, and one code
when there are others, however many they are. -/
def ambiguity (code : Code) (sel : Selection) : List Code :=
  if sel.others.isEmpty then [] else [code]

/-- The first selected callable is taken, and others beside it are reported. -/
theorem pick_works {id : SiteId} (site : Site) (sel : Selection) {code : Code} (hcode : code ≠ .unresolvedSignature) :
    Works (resolving id) (pick site sel code) st fun m st' => m = sel.first ∧ Reports (ambiguity code sel) st st' := by
  unfold pick ambiguity
  cases hothers : sel.others with
  | nil => exact Works.ret ⟨rfl, (Quiet.refl st).reports⟩
  | cons other rest =>
    refine works_getUniverse ?_
    dsimp only
    refine Works.bind (reportFault_works ?_) fun _ _ _ _ h => Works.ret ⟨rfl, ?_⟩
    · simp only [isFault_withCandidate]
      exact isFault_error hcode _ _
    · rw [withCandidate_code, withCandidate_code] at h
      exact h

end Session

/-! ## Stand-ins

An overload out of reach competes when it has conflicts, and one of these is bound in its
place.
-/

namespace Universe

variable {u u' : Universe}

/-- A method stands in for another one that is out of reach and has the same erased parameter
types. Whatever converts to the parameters of the one converts to those of the other, but
whether trailing arguments are packed may differ. -/
structure Replaces (u : Universe) (env : Env) (id c : MethodId) : Prop where
  /-- The signatures agree. -/
  same : u.sameSignature id c
  /-- The first method is out of reach. -/
  outOfReach : ∃ search q, u.types.Knows search ∧ KnowsQualifier u.types q ∧
    memberAccessible u.types env (u.method id) search q = false

/-- Access is judged by what never changes of a method. -/
theorem memberAccessible_later {s : TypeStore} {env : Env} {m m' : Method} (h : m.Later m') (search : TypeId)
    (q : Option Qualifier) : memberAccessible s env m' search q = memberAccessible s env m search q := by
  unfold memberAccessible protectedAccessible
  rw [h.owner, h.access, h.flags]

/-- A stand-in remains one. -/
theorem Keeps.replaces (h : u.Keeps u') (hu : u.WellFormed) {env : Env} (henv : KnowsEnv u.types env) {id c : MethodId}
    (hr : u.Replaces env id c) : u'.Replaces env id c := by
  obtain ⟨hsame, search, q, hsearch, hq, hacc⟩ := hr
  refine ⟨h.sameSignature hu hsame, search, q, h.types.knows hsearch, fun x hx => h.types.knows (hq x hx), ?_⟩
  rw [memberAccessible_later (h.later (isResolved_of_sameSignature hsame).1),
    h.types.memberAccessible hu.types henv (hu.method id).owner hsearch hq, hacc]

/-- The method that a call is bound to is a listed one or a conflict of one, and meets the
conflicts of the selected one. -/
theorem bindTarget_listed (env : Env) {shadows : List Shadow} {id : MethodId} (hid : ∃ s ∈ shadows, s.method = id)
    (search : TypeId) (q : Option Qualifier) :
    ∃ s ∈ shadows, s.Names (bindTarget u env shadows id search q) ∧ s.conflicts = conflictsOf shadows id := by
  obtain ⟨s, hfind⟩ : ∃ s, shadows.find? (·.method = id) = some s := by
    obtain ⟨s, hs, rfl⟩ := hid
    exact Option.isSome_iff_exists.mp (List.find?_isSome.mpr ⟨s, hs, by simp⟩)
  have hmethod : s.method = id := by simpa using List.find?_some hfind
  have hconflicts : conflictsOf shadows id = s.conflicts := by simp [conflictsOf, hfind]
  refine ⟨s, List.mem_of_find?_eq_some hfind, ?_, hconflicts.symm⟩
  unfold bindTarget Shadow.Names
  rw [hconflicts]
  split
  · exact .inl hmethod.symm
  · rename_i c rest h
    split
    · exact .inl hmethod.symm
    · exact .inr (by simp [h])

/-- What a call is bound to when one of the overloads that a search turned up is selected:
this overload, or when it is out of reach the first method that it is in conflict with, which
has the same erased parameter types. Nothing is asked of the one that stands in: it is not
looked at whether it is within reach, and it may accept fewer arguments. -/
inductive BoundFor (u : Universe) (env : Env) (search : TypeId) (q : Option Qualifier) (shadows : List Shadow) (id : MethodId) :
    MethodId → Prop
  /-- The overload has no conflicts, or is within reach. -/
  | self (why : conflictsOf shadows id = [] ∨ memberAccessible u.types env (u.method id) search q = true) :
      BoundFor u env search q shadows id id
  /-- The overload is out of reach, and its first conflict stands in for it. -/
  | standIn {s : Shadow} {c : MethodId} (mem : s ∈ shadows) (selected : s.method = id) (conflict : s.conflicts.head? = some c)
      (same : u.sameSignature id c) (outOfReach : memberAccessible u.types env (u.method id) search q = false) :
      BoundFor u env search q shadows id c

/-- What stands in for an overload that is out of reach replaces it. -/
theorem BoundFor.replaces {env : Env} {search : TypeId} {q : Option Qualifier} {shadows : List Shadow} {id c : MethodId}
    (h : u.BoundFor env search q shadows id c) (hsearch : u.types.Knows search) (hq : KnowsQualifier u.types q) :
    c = id ∨ u.Replaces env id c := by
  cases h with
  | self why => exact .inl rfl
  | standIn mem selected conflict same outOfReach => exact .inr ⟨same, search, q, hsearch, hq, outOfReach⟩

/-- What a call is bound to when an overload is selected: the overload itself, unless it is
out of reach and the table has a conflict for it. -/
theorem bindTarget_boundFor (env : Env) {shadows : List Shadow} (hsound : ∀ s ∈ shadows, u.SoundShadow s) (id : MethodId)
    (search : TypeId) (q : Option Qualifier) : u.BoundFor env search q shadows id (bindTarget u env shadows id search q) := by
  unfold bindTarget
  split
  · rename_i hnone
    exact .self (.inl hnone)
  · rename_i c rest hconflicts
    split
    · rename_i hreach
      exact .self (.inr hreach)
    · rename_i hacc
      unfold conflictsOf at hconflicts
      cases hfind : shadows.find? (·.method = id) with
      | none => simp [hfind] at hconflicts
      | some s =>
        simp only [hfind, Option.map_some, Option.getD_some] at hconflicts
        have hmem := List.mem_of_find?_eq_some hfind
        have hid : s.method = id := by simpa using List.find?_some hfind
        have hsame := (hsound s hmem).conflicts c (by simp [hconflicts])
        exact .standIn hmem hid (by simp [hconflicts]) (hid ▸ hsame) (by simpa using hacc)

end Universe

end CallResolution
