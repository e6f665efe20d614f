import CallResolution.Proofs.Resolve.Reach

/-!
# One report for a call that nothing matches

Each explanation either fits, and then reports one fault under a code of its own, or looks
around quietly. So the first one that fits is the only one that is heard, and the code it
gives is the one that was reported. A call by name alone is reported as hidden when and only
when a frame further out than the one that sees the name offers a method. A report of a method
out of reach names a method that accepts the arguments; it is only looked for when nothing
that the searched types list competes for the call, so that it is out of reach when the
searched type lists it. The method that a misspelled call may have meant is looked for after
that, so that it has another name.

An explanation `Explains` with some codes when it fits and reports one of them, or does not
fit and is quiet. `firstFitting_works` follows a list of explanations by this alone, so each
is looked at once, for itself. What a report says of another method is a second matter, and it
needs more: that the explanations in front did not fit. `laterExplanations_justifies` goes
through the list a second time and keeps what their failing shows, namely that nothing that
the searched types list competes for the call. Both times the universe moves on while tables
and signatures are made, so what was found is told of the universe at the time of the report.

Main statements: `methodNotFound_works`, `explainInaccessible_blames`,
`explainMisspelling_suggests`, `methodNotFound_hidden_iff` and `ctorNotFound_works`.
-/

namespace CallResolution.Session

open Universe

variable {st : Session} {id : SiteId} {env : Env} {args : List TypeId} {codes : List Code}

/-! ## Explanations

The list of explanations is followed without regard to what they are.
-/

/-- An explanation that fits reports one of its codes and nothing else; one that does not fit
is quiet. It is a statement about one state, so the state in which an explanation is looked at
is part of what has to be shown. -/
def Explains (id : SiteId) (codes : List Code) (x : SessionM (Option Code)) (st : Session) : Prop :=
  Works (resolving id) x st fun code st' => Reports code.toList st st' ∧ ∀ c ∈ code, c ∈ codes

/-- An explanation may be said to have more codes. -/
theorem Explains.widen {codes' : List Code} {x : SessionM (Option Code)} (h : Explains id codes x st) (hcodes : codes ⊆ codes') :
    Explains id codes' x st :=
  Works.mono h fun _ _ _ _ h => ⟨h.1, fun c hc => hcodes (h.2 c hc)⟩

/-- An explanation looks around quietly before it fits or not. -/
theorem Explains.bind {α : Type} {x : SessionM α} {f : α → SessionM (Option Code)} {P : α → Session → Prop}
    (hx : Works quietly x st P) (hf : ∀ a st', st'.WellFormed → Quiet st st' → P a st' → Explains id codes (f a) st') :
    Explains id codes (x >>= f) st := by
  refine (works_of_quietly hx).bind fun a st₁ hst₁ _ h₁ => ?_
  exact (hf a st₁ hst₁ h₁.2 h₁.1).mono fun _ _ _ _ h => ⟨h.1.after h₁.2, h.2⟩

/-- An explanation reads the universe. -/
theorem Explains.universe {f : Universe → SessionM (Option Code)} (h : Explains id codes (f st.world) st) :
    Explains id codes (getUniverse >>= f) st :=
  h

/-- An explanation reads the types. -/
theorem Explains.types {f : TypeStore → SessionM (Option Code)} (h : Explains id codes (f st.world.types) st) :
    Explains id codes (getTypes >>= f) st :=
  h

/-- An explanation that does not fit. -/
theorem Explains.none : Explains id codes (pure none) st :=
  Works.ret ⟨(Quiet.refl st).reports, by simp⟩

/-- An explanation that fits. -/
theorem Explains.error {code : Code} (hcode : code ≠ .unresolvedSignature ∧ code ∈ codes) (site : Site)
    (msg : String) : Explains id codes (do reportError code site msg; return some code) st :=
  (reportError_works hcode.1 site msg).bind fun _ _ _ _ h => Works.ret ⟨h, by simp [hcode.2]⟩

/-- An explanation that fits and names a candidate. -/
theorem Explains.candidate {code : Code} (hcode : code ≠ .unresolvedSignature ∧ code ∈ codes) (site : Site)
    (msg : String) (decl : Source.Span) (head : String) :
    Explains id codes (do
      report ((Diagnostic.error code site.span msg).withCandidate decl head)
      return some code) st := by
  have hfault : isFault ((Diagnostic.error code site.span msg).withCandidate decl head) := by
    rw [isFault_withCandidate]
    exact isFault_error hcode.1 site.span msg
  refine (reportFault_works hfault).bind fun _ _ _ _ h => Works.ret ⟨?_, by simp [hcode.2]⟩
  rw [withCandidate_code] at h
  exact h

/-- The first explanation that fits is the only one that reports. The explanations in front
may have moved the universe on, so each has to explain from wherever the binding of the call
may have come to. -/
theorem firstFitting_works {xs : List (SessionM (Option Code))} {last : SessionM Code}
    (hxs : ∀ x ∈ xs, ∀ st', st'.WellFormed → Continues id st st' → Explains id codes x st')
    (hlast : ∀ st', st'.WellFormed → Continues id st st' →
      Works (resolving id) last st' fun code st'' => Reports [code] st' st'' ∧ code ∈ codes) :
    Works (resolving id) (firstFitting xs last) st fun code st' => Reports [code] st st' ∧ code ∈ codes := by
  induction xs generalizing st with
  | nil => exact Works.of_sound fun hst => hlast st hst ((Quiet.refl st).continues id)
  | cons x xs ih =>
    refine Works.of_sound fun hst => ?_
    refine Works.bind (hxs x (by simp) st hst ((Quiet.refl st).continues id)) fun code st₁ _ hl₁ h₁ => ?_
    cases code with
    | some code => exact Works.ret ⟨h₁.1, h₁.2 code rfl⟩
    | none =>
      refine (ih (fun y hy st' hst' h' => ?_) (fun st' hst' h' => ?_)).mono fun _ _ _ _ h => ⟨h₁.1.trans h.1, h.2⟩
      · exact hxs y (by simp [hy]) st' hst' (hl₁.2.trans h')
      · exact hlast st' hst' (hl₁.2.trans h')

/-! ## Methods

Each explanation for a method that was not found, with the codes that it has. All of them are
quiet until they report, though some make tables and signatures on the way.
-/

/-- A call that nothing matches mentions known types. -/
structure Unmatched.Known (s : TypeStore) (x : Unmatched) : Prop where
  /-- The classes around the call. -/
  env : KnowsEnv s x.env
  /-- The explicit type arguments. -/
  typeArgs : ∀ t ∈ x.site.typeArgs, s.Knows t
  /-- The argument types. -/
  args : ∀ t ∈ x.args, s.Knows t
  /-- The receiver. -/
  qualifier : KnowsQualifier s x.qualifier
  /-- The type that was searched. -/
  search : s.Knows x.search

variable {x : Unmatched}

theorem Unmatched.Known.grows {s s' : TypeStore} (hx : x.Known s) (h : s.Grows s') : x.Known s' where
  env := hx.env.grows h
  typeArgs t ht := h.knows (hx.typeArgs t ht)
  args t ht := h.knows (hx.args t ht)
  qualifier q hq := h.knows (hx.qualifier q hq)
  search := h.knows hx.search

/-- The types that were searched are known. -/
theorem Unmatched.Known.scopes {s : TypeStore} (hx : x.Known s) : ∀ t ∈ x.scopes, s.Knows t := by
  intro t ht
  unfold Unmatched.scopes at ht
  split at ht
  · rw [List.mem_singleton.mp ht]
    exact hx.search
  · obtain ⟨f, hf, rfl⟩ := List.mem_map.mp ht
    exact hx.env f hf

theorem explainHidden_explains (hx : x.Known st.world.types) : Explains id [.hiddenByEnclosing] (explainHidden x) st := by
  unfold explainHidden
  split
  · exact .none
  · have hf := knowsFrames_zipIdx hx.env
    refine .bind (onUniverse_works (innermostSeeing_works x.name hf)) fun r st₁ _ h₁ _ => ?_
    have hg := h₁.world.types.toGrows
    match r with
    | none => exact .none
    | some (inner, i) =>
      have hrest : KnowsFrames st₁.world.types (x.env.frames.zipIdx.drop (i + 1)) :=
        fun p hp => hg.knows (hf p (List.mem_of_mem_drop hp))
      have hx₁ := hx.grows hg
      refine .bind (hiddenBehind_works hx₁.env hx₁.typeArgs hx₁.args hrest) fun r st₂ _ _ _ => ?_
      match r with
      | none => exact .none
      | some (f, m) => exact Explains.universe (.error (by decide) x.site _)

theorem explainOverload_explains {scope : TypeId} (hscope : st.world.types.Knows scope) :
    Explains id [.methodOverloadNotFound] (explainOverload x scope) st := by
  refine .bind (onUniverse_works (overloadsIn_works hscope x.name)) fun shadows st₁ _ _ _ => ?_
  refine .bind (onUniverse_works (competingMethods_works x.env scope x.qualifier shadows)) fun ss st₂ _ _ _ => ?_
  refine Explains.universe ?_
  dsimp only
  split
  · exact .none
  · exact .candidate (by decide) x.site _ _ _

theorem explainField_explains {scope : TypeId} (hscope : st.world.types.Knows scope) :
    Explains id [.fieldNotMethod] (explainField x scope) st := by
  unfold explainField
  split
  · exact .none
  · refine .bind (onUniverse_works (memberTable_works hscope)) fun r st₁ _ _ _ => ?_
    cases r with
    | error e => exact .none
    | ok table =>
      refine Explains.universe ?_
      split
      · exact .none
      · split
        · exact .error (by decide) x.site _
        · exact .none

/-- A method of a name that one of some types lists, and that accepts arguments. Whether it
may be called is not looked at. -/
structure Accepting (u : Universe) (name : String) (args ts : List TypeId) (m : MethodId) : Prop where
  /-- The signature is sound. -/
  resolved : (u.method m).isResolved
  /-- The arguments convert to the parameters. -/
  converts : u.types.convertsAll args (u.method m).params
  /-- A type lists the method. -/
  listed : ∃ t ∈ ts, ∃ ss, u.listed t name = some ss ∧ ∃ s ∈ ss, s.method = m

/-- Searching several classes for a method that accepts arguments. -/
theorem firstAccepting_works {u : Universe} (name : String) {ts : List TypeId} (hts : ∀ t ∈ ts, u.types.Knows t) :
    Works binding (firstAccepting name args ts) u fun r u' => ∀ m ∈ r, Accepting u' name args ts m := by
  induction ts generalizing u with
  | nil => exact Works.ret (by simp)
  | cons t ts ih =>
    unfold firstAccepting
    refine (overloadsIn_works (hts t (by simp)) name).bind fun ss u₁ _ hl₁ h₁ => ?_
    refine (withSignature_works _).bind fun _ u₂ _ hl₂ _ => Works.read ?_
    have hts₁ : ∀ t' ∈ t :: ts, u₁.types.Knows t' := fun t' ht' => hl₁.2.types.knows (hts t' ht')
    split
    · rename_i m hfind
      have haccepts := List.find?_some hfind
      obtain ⟨hresolved, hconverts⟩ := Bool.and_eq_true_iff.mp haccepts
      obtain ⟨s, hs, heq⟩ := List.mem_map.mp (List.mem_of_find?_eq_some hfind)
      refine Works.ret fun m' hm' => ?_
      cases hm'
      rcases h₁.2 with hlisted | ⟨rfl, -⟩
      · exact ⟨hresolved, hconverts, t, by simp, ss, hl₂.2.toKeeps.listed (hts₁ t (by simp)) hlisted, s, hs, heq⟩
      · cases hs
    · refine (ih fun t' ht' => hl₂.2.types.knows (hts₁ t' (by simp [ht']))).mono fun r u₃ _ _ h₃ m hm => ?_
      obtain ⟨hresolved, hconverts, t', ht', hlists⟩ := h₃ m hm
      exact ⟨hresolved, hconverts, t', by simp [ht'], hlists⟩

theorem explainInaccessible_explains (hst : st.WellFormed) {scope : TypeId} (hscope : st.world.types.Knows scope) :
    Explains id [.protectedInterfaceMethod, .protectedWrongQualifier, .methodNotAccessible] (explainInaccessible x scope) st := by
  refine Explains.types ?_
  dsimp only
  refine .bind (onUniverse_works (firstAccepting_works x.name (knows_superChain hst.world.types 32 hscope)))
    fun r st₁ _ _ _ => ?_
  cases r with
  | none => exact .none
  | some m =>
    refine Explains.universe ?_
    split
    · exact .error (by decide) x.site _
    · split
      · exact .error (by decide) x.site _
      · exact .error (by decide) x.site _

/-- Scoring the methods of a type: each of them competes for the call and accepts the
arguments. -/
theorem scoredMethods_works {u : Universe} (hx : x.Known u.types) {scope : TypeId} (hscope : u.types.Knows scope)
    {table : List (String × List Shadow)} (htable : ∀ p ∈ table, ∀ s ∈ p.2, u.Has s.method) :
    Works binding (scoredMethods x scope table) u fun scored u' => ∀ q ∈ scored, ∃ p ∈ table, ∃ s ∈ p.2, s.method = q.1 ∧
      u'.competes x.env scope x.qualifier s ∧ u'.types.convertsAll x.args (u'.method s.method).params := by
  induction table generalizing u with
  | nil => exact Works.ret (by simp)
  | cons p rest ih =>
    unfold scoredMethods
    refine (competingMethods_works x.env scope x.qualifier p.2).bind fun ss u₁ hu₁ hl₁ h₁ => Works.read ?_
    obtain ⟨rfl, hprocessed⟩ := h₁
    have hg₁ := hl₁.2.types.toGrows
    have hx₁ := hx.grows hg₁
    have hrest : ∀ q ∈ rest, ∀ s ∈ q.2, u₁.Has s.method := fun q hq s hs => hl₁.2.has (htable q (by simp [hq]) s hs)
    refine (ih hx₁ (hg₁.knows hscope) hrest).bind fun later u₂ _ hl₂ h₂ => Works.ret fun q hq => ?_
    rcases List.mem_append.mp hq with hq | hq
    · obtain ⟨s, hs, rfl⟩ := List.mem_map.mp hq
      obtain ⟨hcompeting, hconverts⟩ := List.mem_filter.mp hs
      obtain ⟨hmem, hcompetes⟩ := List.mem_filter.mp hcompeting
      have hread := hprocessed s hmem (htable p (by simp) s hmem)
      refine ⟨p, by simp, s, hmem, rfl, ?_, ?_⟩
      · rwa [hl₂.2.toKeeps.competes hu₁ hx₁.env (hg₁.knows hscope) hx₁.qualifier hread]
      · rwa [hl₂.2.toKeeps.convertsAll hu₁ hx₁.args (Bool.and_eq_true_iff.mp hcompetes).1]
    · obtain ⟨p', hp', hscored⟩ := h₂ q hq
      exact ⟨p', by simp [hp'], hscored⟩

theorem explainMisspelling_explains (hx : x.Known st.world.types) {scope : TypeId} (hscope : scope ∈ x.scopes) :
    Explains id [.methodNameMisspelled] (explainMisspelling x scope) st := by
  have hknown := hx.scopes scope hscope
  refine .bind (onUniverse_works (memberTable_works hknown)) fun r st₁ _ h₁ hr => ?_
  cases r with
  | error e => exact .none
  | ok table =>
    have hg := h₁.world.types.toGrows
    have hhas : ∀ p ∈ table.methods, ∀ s ∈ p.2, st₁.world.Has s.method := fun p hp s hs => (hr.1.1.shadows p hp s hs).has
    refine .bind (onUniverse_works (scoredMethods_works (hx.grows hg) (hg.knows hknown) hhas)) fun scored st₂ _ _ _ => ?_
    split
    · exact .none
    · split
      · exact Explains.universe (.error (by decide) x.site _)
      · exact .none

theorem explainType_explains : Explains id [.typeNotMethod] (explainType x) st := by
  refine Explains.types ?_
  split
  · exact .none
  · exact .error (by decide) x.site _

/-- When nothing else fits, it is reported that there is no such method. -/
theorem explainMissing_works : Works (resolving id) (explainMissing x) st fun code st' =>
    Reports [code] st st' ∧ code = .methodNotFound :=
  works_getTypes ((reportError_works (by decide) x.site _).bind fun _ _ _ _ h => Works.ret ⟨h, rfl⟩)

/-- The explanations after the first one. Each kind is tried for all scopes before the next
kind, so a better explanation in an outer scope is preferred to a worse one further in. -/
def laterExplanations (x : Unmatched) : List (SessionM (Option Code)) :=
  x.scopes.map (explainOverload x) ++ x.scopes.map (explainField x) ++ x.scopes.map (explainInaccessible x)
    ++ x.scopes.map (explainMisspelling x) ++ [explainType x]

/-- The codes of these explanations. -/
def laterCodes : List Code :=
  [.methodOverloadNotFound, .fieldNotMethod, .protectedInterfaceMethod, .protectedWrongQualifier, .methodNotAccessible,
    .methodNameMisspelled, .typeNotMethod, .methodNotFound]

/-- What is reported when nothing is hidden. -/
theorem laterExplanations_works (hx : x.Known st.world.types) :
    Works (resolving id) (firstFitting (laterExplanations x) (explainMissing x)) st fun code st' =>
      Reports [code] st st' ∧ code ∈ laterCodes := by
  refine firstFitting_works (fun e he st' hst' h' => ?_) fun st' _ _ => ?_
  · have hscopes : ∀ t ∈ x.scopes, st'.world.types.Knows t := (hx.grows h'.world.types.toGrows).scopes
    simp only [laterExplanations, List.mem_append, List.mem_singleton, List.mem_map] at he
    rcases he with (((⟨t, ht, rfl⟩ | ⟨t, ht, rfl⟩) | ⟨t, ht, rfl⟩) | ⟨t, ht, rfl⟩) | rfl
    · exact (explainOverload_explains (hscopes t ht)).widen (by decide)
    · exact (explainField_explains (hscopes t ht)).widen (by decide)
    · exact (explainInaccessible_explains hst' (hscopes t ht)).widen (by decide)
    · exact (explainMisspelling_explains (hx.grows h'.world.types.toGrows) ht).widen (by decide)
    · exact explainType_explains.widen (by decide)
  · exact explainMissing_works.mono fun _ _ _ _ h => ⟨h.1, by rw [h.2]; decide⟩

/-! ## Methods out of reach

That a report names a method out of reach needs more than the search for it shows. The
explanation by an overload comes first; when it does not fit, nothing that the searched types
list competes for the call, and a listed method with a sound signature that does not compete
is out of reach.
-/

/-- The codes under which a method out of reach is reported. -/
def unreachedCodes : List Code :=
  [.protectedInterfaceMethod, .protectedWrongQualifier, .methodNotAccessible]

/-- The report that a method is out of reach: its code, and what it says. Which of the three
it is depends on the receiver and on the classes around the call, and nothing else about the
call does. -/
def Unmatched.unreached (x : Unmatched) (scope : TypeId) (u : Universe) (m : MethodId) : Code × String :=
  let head := u.header m
  let owner := u.className (u.method m).owner
  if x.qualifier.isSome && (u.method m).access = .prot && u.types.isInterface x.receiver then
    (.protectedInterfaceMethod,
      s!"protected method {head} of {owner} cannot be invoked through the interface {u.types.name x.receiver}")
  else if (u.method m).access = .prot && !(u.method m).flags.isStatic && x.env.inherits u.types (u.method m).owner then
    (.protectedWrongQualifier,
      s!"protected method {head} of {owner} cannot be invoked through a qualifier of type {u.types.name scope}")
  else
    (.methodNotAccessible,
      s!"method {head} in {owner} is {(u.method m).access.name} and not accessible from {u.className x.env.this}")

/-- A method that a call does not reach by searching a type: it accepts the arguments, the
type or a superclass lists it, and when it is the type itself, the method is out of reach. Of
a method that only a superclass lists nothing more is known, since the type does not inherit
it. -/
structure Unmatched.Misses (x : Unmatched) (scope : TypeId) (u : Universe) (m : MethodId) : Prop extends
    Accepting u x.name x.args (superChain u.types 32 scope) m where
  /-- The searched type lists the method only when it is out of reach. -/
  outOfReach : ∀ ss, u.listed scope x.name = some ss → (∃ s ∈ ss, s.method = m) →
    memberAccessible u.types x.env (u.method m) scope x.qualifier = false

/-- The last report is that of a method that the call does not reach, word for word. -/
def Unmatched.Blames (x : Unmatched) (code : Code) (st : Session) : Prop :=
  ∃ scope ∈ x.scopes, ∃ m, x.Misses scope st.world m ∧ (x.unreached scope st.world m).1 = code ∧
    st.world.faults.getLast? = some (.error code x.site.span (x.unreached scope st.world m).2)

/-- An error that is reported is the last fault, and nothing else in the universe changes. -/
theorem reportError_last {code : Code} (hcode : code ≠ .unresolvedSignature) (site : Site) (msg : String) :
    Works (resolving id) (reportError code site msg) st fun _ st' => ∃ reports, st'.world = { st.world with reports } ∧
      st'.world.faults.getLast? = some (.error code site.span msg) := by
  refine (reportError_works hcode site msg).self.mono fun _ st₁ _ _ h₁ => ?_
  obtain rfl : st₁ = (reportError code site msg st).2 := by rw [h₁.2]
  refine ⟨st.world.reports.push (.error code site.span msg), rfl, ?_⟩
  show (Universe.faults { st.world with reports := st.world.reports.push (.error code site.span msg) }).getLast? = _
  simp [faults, isFault_error hcode]

/-- The report of a method out of reach is the last one. -/
theorem reportUnreached_blames {scope : TypeId} (hscope : scope ∈ x.scopes) {m : MethodId} (hm : x.Misses scope st.world m)
    {code : Code} {msg : String} (hreport : x.unreached scope st.world m = (code, msg)) (hcode : code ≠ .unresolvedSignature) :
    Works (resolving id) (do reportError code x.site msg; return some code) st fun code st' => ∀ c ∈ code, x.Blames c st' := by
  refine (reportError_last hcode x.site msg).bind fun _ st₁ _ _ h₁ => Works.ret fun c hc => ?_
  cases hc
  obtain ⟨reports, hworld, hlast⟩ := h₁
  rw [show msg = (x.unreached scope st.world m).2 from (congrArg Prod.snd hreport).symm] at hlast
  refine ⟨scope, hscope, m, ?_, ?_, hlast.trans ?_⟩
  · rw [hworld]
    exact ⟨⟨hm.resolved, hm.converts, hm.listed⟩, hm.outOfReach⟩
  · rw [hworld]
    exact congrArg Prod.fst hreport
  · rw [hworld]
    rfl

/-- An explanation by a method out of reach names one, when nothing that the searched type
lists competes for the call. The condition is what the explanations in front have shown by not
fitting. -/
theorem explainInaccessible_blames (hx : x.Known st.world.types) {scope : TypeId} (hscope : scope ∈ x.scopes)
    (hnone : st.world.NoneCompetes x.env x.qualifier x.name scope) :
    Works (resolving id) (explainInaccessible x scope) st fun code st' => ∀ c ∈ code, x.Blames c st' := by
  refine Works.of_sound fun hst => works_getTypes ?_
  have hknown := hx.scopes scope hscope
  refine (works_of_quietly (onUniverse_works (firstAccepting_works x.name (knows_superChain hst.world.types 32 hknown)))).bind
    fun r st₁ _ _ h₁ => ?_
  obtain ⟨⟨hfound, -⟩, hquiet⟩ := h₁
  cases r with
  | none => exact Works.ret (by simp)
  | some m =>
    have hm : x.Misses scope st₁.world m := by
      have haccepting := hfound m rfl
      rw [← superChain_extends hquiet.world.types hst.world.types 32 hknown] at haccepting
      refine ⟨haccepting, fun ss hlisted ⟨s, hs, heq⟩ => ?_⟩
      subst heq
      exact (hquiet.world.toKeeps.noneCompetes hst.world hx.env hknown hx.qualifier hnone).outOfReach hlisted hs
        haccepting.resolved
    refine works_getUniverse ?_
    dsimp only
    split
    · rename_i hinterface
      exact reportUnreached_blames hscope hm (if_pos hinterface) (by decide)
    · rename_i hinterface
      split
      · rename_i hqualifier
        exact reportUnreached_blames hscope hm ((if_neg hinterface).trans (if_pos hqualifier)) (by decide)
      · rename_i hqualifier
        exact reportUnreached_blames hscope hm ((if_neg hinterface).trans (if_neg hqualifier)) (by decide)

theorem nearestArity_eq_none_iff {u : Universe} {argc : Nat} {ids : List MethodId} : nearestArity u argc ids = none ↔ ids = [] := by
  cases ids with
  | nil => simp [nearestArity]
  | cons id ids =>
    unfold nearestArity
    simp only [reduceCtorEq, iff_false]
    split
    · simp
    · split <;> simp

/-- Nothing that a type lists competes when it offers no explanation by an overload. -/
theorem explainOverload_none {scope : TypeId} (hscope : st.world.types.Knows scope) :
    Works (resolving id) (explainOverload x scope) st fun code st' =>
      code = none → st'.world.NoneCompetes x.env x.qualifier x.name scope := by
  refine (works_of_quietly (onUniverse_works (overloadsIn_works hscope x.name))).bind fun ss st₁ _ _ h₁ => ?_
  refine (works_of_quietly (onUniverse_works (competingMethods_works x.env scope x.qualifier ss))).bind
    fun competing st₂ _ _ h₂ => works_getUniverse ?_
  obtain ⟨⟨⟨hsound, hlisted⟩, -⟩, hquiet₁⟩ := h₁
  obtain ⟨⟨⟨rfl, hprocessed⟩, -⟩, hquiet₂⟩ := h₂
  dsimp only
  split
  · rename_i hnearest
    refine Works.ret fun _ => ?_
    have hidle := List.map_eq_nil_iff.mp (nearestArity_eq_none_iff.mp hnearest)
    have hknown := hquiet₁.world.types.knows hscope
    rcases hlisted with hlisted | ⟨-, hnone⟩
    · refine .inr ⟨ss, hquiet₂.world.toKeeps.listed hknown hlisted, fun s hs => ⟨hprocessed s hs (hsound s hs).has, ?_⟩⟩
      simpa using List.filter_eq_nil_iff.mp hidle s hs
    · exact .inl ((hquiet₂.world.toKeeps.tableless_iff hknown).mpr hnone)
  · refine (report_works ?_).bind fun _ _ _ _ _ => Works.ret (by simp)
    rw [withCandidate_code]
    show Code.methodOverloadNotFound ≠ .unresolvedSignature
    decide

/-- Explanations in two groups. -/
theorem firstFitting_append (xs ys : List (SessionM (Option Code))) (last : SessionM Code) :
    firstFitting (xs ++ ys) last = firstFitting xs (firstFitting ys last) := by
  induction xs with
  | nil => rfl
  | cons x xs ih =>
    rw [List.cons_append, firstFitting, firstFitting, ih]

/-- One explanation for each of some types. What is found out of a type when its explanation
does not fit is known when all of them have been tried. -/
theorem firstFitting_map {f : TypeId → SessionM (Option Code)} {ts : List TypeId} {last : SessionM Code}
    {R : TypeId → Session → Prop} {Q : Code → Session → Prop}
    (hkeeps : ∀ t ∈ ts, ∀ st' st'', st'.WellFormed → Continues id st st' → Continues id st' st'' → R t st' → R t st'')
    (hf : ∀ t ∈ ts, ∀ st', st'.WellFormed → Continues id st st' →
      Works (resolving id) (f t) st' fun code st'' => (code = none → R t st'') ∧ ∀ c ∈ code, Q c st'')
    (hlast : ∀ st', st'.WellFormed → Continues id st st' → (∀ t ∈ ts, R t st') → Works (resolving id) last st' Q) :
    Works (resolving id) (firstFitting (ts.map f) last) st Q := by
  induction ts generalizing st with
  | nil => exact Works.of_sound fun hst => hlast st hst ((Quiet.refl st).continues id) (by simp)
  | cons t ts ih =>
    refine Works.of_sound fun hst => ?_
    refine Works.bind (hf t (by simp) st hst ((Quiet.refl st).continues id)) fun code st₁ hst₁ hl₁ h₁ => ?_
    have hl := hl₁.2.toContinues
    cases code with
    | some code => exact Works.ret (h₁.2 code rfl)
    | none =>
      refine ih (fun t' ht' st' st'' hst' h' => ?_) (fun t' ht' st' hst' h' => ?_) fun st' hst' h' hts => ?_
      · exact hkeeps t' (by simp [ht']) st' st'' hst' (hl.trans h')
      · exact hf t' (by simp [ht']) st' hst' (hl.trans h')
      · refine hlast st' hst' (hl.trans h') fun t' ht' => ?_
        rcases List.mem_cons.mp ht' with rfl | ht'
        · exact hkeeps t' (by simp) st₁ st' hst₁ hl h' (h₁.1 rfl)
        · exact hts t' ht'

/-! ## Names that were meant

The candidates are scored by the distance of their names. Nothing here depends on how the
distance is worked out: the search keeps some of the candidates, and all of them are methods
that can be called with the arguments.
-/

/-- The report that another method may have been meant. -/
def Unmatched.suggestion (x : Unmatched) (scope : TypeId) (u : Universe) (m : MethodId) : String :=
  s!"method {x.header u.types} was not found in {u.types.name scope};" ++ s!" did you mean {u.header m}?"

/-- A method that a misspelled call may have meant: the searched type lists it under another
name, it is within reach or has conflicts, and it takes the arguments, one for each parameter.
-/
structure Unmatched.Means (x : Unmatched) (scope : TypeId) (u : Universe) (s : Shadow) : Prop where
  /-- It has another name. -/
  renamed : (u.method s.method).name ≠ x.name
  /-- The searched type lists it. -/
  listed : ∃ ss, u.listed scope (u.method s.method).name = some ss ∧ s ∈ ss
  /-- Its signature is sound. -/
  resolved : (u.method s.method).isResolved
  /-- It is within reach, or has conflicts. -/
  visible : memberAccessible u.types x.env (u.method s.method) scope x.qualifier = true ∨ s.conflicts ≠ []
  /-- It has as many parameters as there are arguments. -/
  arity : (u.method s.method).params.length = x.args.length
  /-- The arguments convert to the parameters. -/
  converts : x.args.Forall₂ (fun a p => u.types.invocationConverts a p = true) (u.method s.method).params

/-- Nothing that the searched types list competes for the call, and the last report names a
method that may have been meant. The two together say that the suggestion is a better one than
the name that was written. -/
structure Unmatched.Suggests (x : Unmatched) (st : Session) : Prop where
  /-- Nothing competes. -/
  idle : ∀ scope ∈ x.scopes, st.world.NoneCompetes x.env x.qualifier x.name scope
  /-- The method that is named. -/
  names : ∃ scope ∈ x.scopes, ∃ s, x.Means scope st.world s ∧
    st.world.faults.getLast? = some (.error .methodNameMisspelled x.site.span (x.suggestion scope st.world s.method))

theorem mem_of_bestScored {l : List (MethodId × Nat)} {q : MethodId × Nat} (h : bestScored l = some q) : q ∈ l := by
  induction l with
  | nil => cases h
  | cons p rest ih =>
    unfold bestScored at h
    split at h
    · rename_i best n hbest
      split at h
      · cases h
        exact List.mem_cons_of_mem p (ih hbest)
      · cases h
        exact List.mem_cons_self
    · cases h
      exact List.mem_cons_self

/-- A method of the table of a searched type that competes for the call and accepts the
arguments may have been meant, when nothing of the called name competes. -/
theorem means_of_competes {u : Universe} {scope : TypeId} (hnone : u.NoneCompetes x.env x.qualifier x.name scope) {table : MemberTable}
    (htable : u.table? scope = some table) (hfiled : u.Filed table) {p : String × List Shadow} (hp : p ∈ table.methods) {s : Shadow}
    (hs : s ∈ p.2) (hcompetes : u.competes x.env scope x.qualifier s)
    (hconverts : u.types.convertsAll x.args (u.method s.method).params) : x.Means scope u s := by
  have hname := (hfiled.names p hp s hs).name_eq
  have hlisted : u.listed scope p.1 = some p.2 := by
    unfold Universe.listed MemberTable.overloads
    rw [htable, Option.map_some, Assoc.lookup_of_mem hfiled.nodup hp]
    rfl
  have hall := TypeStore.allConvert_iff.mp hconverts
  obtain ⟨hresolved, hvisible⟩ := Bool.and_eq_true_iff.mp hcompetes
  refine ⟨?_, ⟨p.2, by rw [hname, hlisted], hs⟩, hresolved, by simpa using hvisible, hall.length_eq.symm, hall⟩
  rintro hcalled
  rw [hname] at hcalled
  rw [hcalled] at hlisted
  rcases hnone with hnone | ⟨ss, hss, hidle⟩
  · rw [hnone.listed] at hlisted
    cases hlisted
  · cases hss.symm.trans hlisted
    rw [(hidle s hs).2] at hcompetes
    cases hcompetes

/-- An explanation by a misspelled name names a method that may have been meant, when nothing
of the called name competes. That the names differ follows from the condition: the suggested
method competes. -/
theorem explainMisspelling_suggests (hx : x.Known st.world.types)
    (hnone : ∀ t ∈ x.scopes, st.world.NoneCompetes x.env x.qualifier x.name t) {scope : TypeId} (hscope : scope ∈ x.scopes) :
    Works (resolving id) (explainMisspelling x scope) st fun code st' => code.isSome → x.Suggests st' := by
  have hknown := hx.scopes scope hscope
  refine Works.of_sound fun hst => ?_
  refine (works_of_quietly (onUniverse_works (memberTable_works hknown))).bind fun r st₁ hst₁ hl₁ h₁ => ?_
  cases r with
  | error e => exact Works.ret (by simp)
  | ok table =>
    obtain ⟨⟨⟨hsound, htable⟩, -⟩, -⟩ := h₁
    have hg₁ := hl₁.2.world.types.toGrows
    have hx₁ := hx.grows hg₁
    have hhas : ∀ p ∈ table.methods, ∀ s ∈ p.2, st₁.world.Has s.method := fun p hp s hs => (hsound.shadows p hp s hs).has
    refine (works_of_quietly (onUniverse_works (scoredMethods_works hx₁ (hg₁.knows hknown) hhas))).bind fun scored st₂ _ hl₂ h₂ => ?_
    obtain ⟨⟨hscored, -⟩, -⟩ := h₂
    have hidle : ∀ t ∈ x.scopes, st₂.world.NoneCompetes x.env x.qualifier x.name t := fun t ht =>
      (hl₁.2.world.trans hl₂.2.world).noneCompetes hst.world hx.env (hx.scopes t ht) hx.qualifier (hnone t ht)
    split
    · exact Works.ret (by simp)
    · rename_i m score hbest
      split
      · obtain ⟨p, hp, s, hs, rfl, hcompetes, hconverts⟩ := hscored _ (mem_of_bestScored hbest)
        have hmeans := means_of_competes (hidle scope hscope) (hl₂.2.world.table? (hg₁.knows hknown) htable)
          (hl₂.2.world.soundTable hst₁.world hsound).filed hp hs hcompetes hconverts
        refine works_getUniverse ((reportError_last (by decide) x.site _).bind fun _ st₃ _ _ h₃ => Works.ret fun _ => ?_)
        obtain ⟨reports, hworld, hlast⟩ := h₃
        refine ⟨fun t ht => ?_, scope, hscope, s, ?_, hlast.trans ?_⟩
        · rw [hworld]
          exact hidle t ht
        · rw [hworld]
          exact ⟨hmeans.renamed, hmeans.listed, hmeans.resolved, hmeans.visible, hmeans.arity, hmeans.converts⟩
        · rw [hworld]
          rfl
      · exact Works.ret (by simp)

/-! ## What reports name

Both kinds of reports together, as they come out of the list of explanations.
-/

/-- The codes of reports that name another method than the called one. -/
def namingCodes : List Code :=
  .methodNameMisspelled :: unreachedCodes

/-- What a report that names another method says is so. Other reports have nothing to be
justified by. -/
structure Unmatched.Justifies (x : Unmatched) (code : Code) (st : Session) : Prop where
  /-- A method out of reach. -/
  blames : code ∈ unreachedCodes → x.Blames code st
  /-- A method that may have been meant. -/
  suggests : code = .methodNameMisspelled → x.Suggests st

/-- A report that names no other method says nothing of one. -/
theorem justifies_of_not_mem {code : Code} (h : code ∉ namingCodes) : x.Justifies code st where
  blames hunreached := absurd (List.mem_cons_of_mem _ hunreached) h
  suggests hmisspelled := absurd (hmisspelled ▸ List.mem_cons_self) h

/-- What a report says is judged by the universe. -/
theorem Unmatched.Justifies.congr {st' : Session} {code : Code} (h : x.Justifies code st) (hworld : st'.world = st.world) :
    x.Justifies code st' := by
  refine ⟨fun hunreached => ?_, fun hmisspelled => ?_⟩
  · have hblames := h.blames hunreached
    unfold Unmatched.Blames at *
    rwa [hworld]
  · obtain ⟨hidle, hnames⟩ := h.suggests hmisspelled
    rw [← hworld] at hidle hnames
    exact ⟨hidle, hnames⟩

/-- When a report names another method, nothing that the searched types list competes for the
call, and what the report says is so. The list is followed kind by kind, and what one kind
shows by not fitting is kept for the next. -/
theorem laterExplanations_justifies (hx : x.Known st.world.types) :
    Works (resolving id) (firstFitting (laterExplanations x) (explainMissing x)) st fun code st' => x.Justifies code st' := by
  have known {st' : Session} (h : Continues id st st') : x.Known st'.world.types := hx.grows h.world.types.toGrows
  have keeps : ∀ t ∈ x.scopes, ∀ st' st'', st'.WellFormed → Continues id st st' → Continues id st' st'' →
      st'.world.NoneCompetes x.env x.qualifier x.name t → st''.world.NoneCompetes x.env x.qualifier x.name t := by
    intro t ht st' st'' hst' h h'
    exact h'.world.noneCompetes hst'.world (known h).env ((known h).scopes t ht) (known h).qualifier
  have other {codes : List Code} {y : SessionM (Option Code)} {st' : Session} (h : Explains id codes y st')
      (hcodes : ∀ c ∈ codes, c ∉ namingCodes) :
      Works (resolving id) y st' fun code st'' => ∀ c ∈ code, x.Justifies c st'' :=
    h.mono fun _ _ _ _ h c hc => justifies_of_not_mem (hcodes c (h.2 c hc))
  unfold laterExplanations
  simp only [List.append_assoc, firstFitting_append]
  refine firstFitting_map keeps (fun t ht st' _ h => ?_) fun st₁ hst₁ h₁ hnone => ?_
  · have hscope := (known h).scopes t ht
    exact (explainOverload_none hscope).and (other (explainOverload_explains hscope) (by decide))
  refine firstFitting_map (R := fun _ _ => True) (fun _ _ _ _ _ _ _ _ => trivial) (fun t ht st' _ h => ?_)
    fun st₂ _ h₂ _ => ?_
  · have hscope := (known (h₁.trans h)).scopes t ht
    exact (other (explainField_explains hscope) (by decide)).mono fun _ _ _ _ h => ⟨fun _ => trivial, h⟩
  refine firstFitting_map (R := fun _ _ => True) (fun _ _ _ _ _ _ _ _ => trivial) (fun t ht st' hst' h => ?_)
    fun st₃ _ h₃ _ => ?_
  · have hx' := known (h₁.trans (h₂.trans h))
    have hidle := keeps t ht st₁ st' hst₁ h₁ (h₂.trans h) (hnone t ht)
    refine ((explainInaccessible_explains hst' (hx'.scopes t ht)).and (explainInaccessible_blames hx' ht hidle)).mono
      fun _ _ _ _ h => ⟨fun _ => trivial, fun c hc => ⟨fun _ => h.2 c hc, ?_⟩⟩
    rintro rfl
    exact absurd (h.1.2 _ hc) (by decide)
  refine firstFitting_map (R := fun _ _ => True) (fun _ _ _ _ _ _ _ _ => trivial) (fun t ht st' _ h => ?_)
    fun st₄ _ h₄ _ => ?_
  · have hlater := h₂.trans (h₃.trans h)
    have hx' := known (h₁.trans hlater)
    have hidle : ∀ t ∈ x.scopes, st'.world.NoneCompetes x.env x.qualifier x.name t := fun t ht =>
      keeps t ht st₁ st' hst₁ h₁ hlater (hnone t ht)
    refine ((explainMisspelling_explains hx' ht).and (explainMisspelling_suggests hx' hidle ht)).mono
      fun _ _ _ _ h => ⟨fun _ => trivial, fun c hc => ⟨fun hunreached => ?_, fun _ => h.2 (Option.isSome_of_mem hc)⟩⟩
    rw [List.mem_singleton.mp (h.1.2 c hc)] at hunreached
    exact absurd hunreached (by decide)
  refine Works.bind (other explainType_explains (by decide)) fun code st₅ _ _ h₅ => ?_
  cases code with
  | some c => exact Works.ret (h₅ c rfl)
  | none => exact explainMissing_works.mono fun _ _ _ _ h => justifies_of_not_mem (by rw [h.2]; decide)

/-- A call that no method matches is reported once, under a code that is given early. What the
report says of another method is so. -/
theorem methodNotFound_works (hx : x.Known st.world.types) :
    Works (resolving id) (methodNotFound x) st fun code st' =>
      Reports [code] st st' ∧ code.isLate = false ∧ x.Justifies code st' := by
  have hlate : ∀ c ∈ Code.hiddenByEnclosing :: laterCodes, c.isLate = false := by decide
  refine Works.bind (explainHidden_explains hx) fun code st₁ _ hl₁ h₁ => ?_
  cases code with
  | some code =>
    obtain rfl := List.mem_singleton.mp (h₁.2 code rfl)
    exact Works.ret ⟨h₁.1, hlate _ (by simp), justifies_of_not_mem (by decide)⟩
  | none =>
    have hx₁ := hx.grows hl₁.2.world.types.toGrows
    refine ((laterExplanations_works hx₁).and (laterExplanations_justifies hx₁)).mono fun code st₂ _ _ h₂ => ?_
    exact ⟨h₁.1.trans h₂.1.1, hlate code (List.mem_cons_of_mem _ h₂.1.2), h₂.2⟩

section Hidden

variable {i : Nat} {f : Frame} {shadows : List Shadow}

/-- Something is hidden when and only when a frame further out than the one that sees the name
offers a method. -/
theorem explainHidden_weighs (hx : x.Known st.world.types) (hsearch : x.search = .none)
    (hsees : st.world.Sees x.name x.env.frames.zipIdx i f shadows) :
    Works (resolving id) (explainHidden x) st fun code st' =>
      (∀ c ∈ code, c = .hiddenByEnclosing ∧ ∃ p ∈ x.env.frames.zipIdx.drop (i + 1),
        st'.world.Weighs st.options.source.phases x.env x.site.typeArgs x.args x.name p.1.type True) ∧
      (code = none → ∀ p ∈ x.env.frames.zipIdx.drop (i + 1),
        st'.world.Weighs st.options.source.phases x.env x.site.typeArgs x.args x.name p.1.type False) := by
  have hf := knowsFrames_zipIdx hx.env
  unfold explainHidden
  rw [if_neg (by simp [hsearch, TypeId.isSome])]
  refine (works_of_quietly (onUniverse_works (innermostSeeing_of_sees hf hsees))).bind fun r st₁ _ hl₁ h₁ => ?_
  obtain ⟨⟨rfl, -⟩, -⟩ := h₁
  have hg := hl₁.2.world.types.toGrows
  have hx₁ := hx.grows hg
  dsimp only
  refine (works_of_quietly (hiddenBehind_works hx₁.env hx₁.typeArgs hx₁.args
    fun p hp => hg.knows (hf p (List.mem_of_mem_drop hp)))).bind fun r st₂ hst₂ hl₂ h₂ => ?_
  obtain ⟨⟨hsome, hnone⟩, -⟩ := h₂
  rw [hl₁.2.options] at hsome hnone
  cases r with
  | none => exact Works.ret ⟨by simp, fun _ => hnone rfl⟩
  | some gm =>
    obtain ⟨p, hp, hw⟩ := hsome rfl
    refine works_getUniverse ((reportError_works (by decide) x.site _).bind fun _ st₃ _ hl₃ _ => Works.ret ⟨?_, by simp⟩)
    intro c hc
    obtain rfl := Option.some.inj hc
    have hx₂ := hx₁.grows hl₂.2.world.types.toGrows
    exact ⟨rfl, p, hp, hl₃.2.world.weighs hst₂.world hx₂.env hx₂.typeArgs hx₂.args
      (hl₂.2.world.types.knows (hg.knows (hf p (List.mem_of_mem_drop hp)))) hw⟩

/-- A call by name alone that nothing matches is reported as hidden when and only when a frame
further out than the one that sees the name offers a method. What is offered is judged in the
session behind the report. -/
theorem methodNotFound_hidden_iff (hx : x.Known st.world.types) (hsearch : x.search = .none)
    (hsees : st.world.Sees x.name x.env.frames.zipIdx i f shadows) :
    Works (resolving id) (methodNotFound x) st fun code st' => code = .hiddenByEnclosing ↔
      ∃ p ∈ x.env.frames.zipIdx.drop (i + 1),
        st'.world.Offers st.options.source.phases x.env x.site.typeArgs x.args x.name p.1.type := by
  refine Works.bind (explainHidden_weighs hx hsearch hsees) fun code st₁ hst₁ hl₁ h₁ => ?_
  have hx₁ := hx.grows hl₁.2.world.types.toGrows
  cases code with
  | some code =>
    obtain ⟨rfl, p, hp, hw⟩ := h₁.1 code rfl
    exact Works.ret (iff_of_true rfl ⟨p, hp, hw.offers_iff.mpr trivial⟩)
  | none =>
    refine (laterExplanations_works hx₁).mono fun code st₂ _ hl₂ h₂ => iff_of_false ?_ ?_
    · rintro rfl
      exact absurd h₂.2 (by decide)
    · rintro ⟨p, hp, hoffers⟩
      have hknown := hl₁.2.world.types.knows (knowsFrames_zipIdx hx.env p (List.mem_of_mem_drop hp))
      exact (hl₂.2.world.weighs hst₁.world hx₁.env hx₁.typeArgs hx₁.args hknown (h₁.2 rfl p hp)).offers_iff.mp hoffers

end Hidden

/-! ## Constructors

Constructor calls have a shorter list of explanations, and no report about them names a method
that would have to be justified.
-/

theorem explainCtorOverload_explains (x : UnmatchedCtor) : Explains id [.constructorOverloadNotFound] (explainCtorOverload x) st := by
  refine .bind (onUniverse_works (competingCtors_works x.env x.cls x.isExplicit)) fun ids st₁ _ _ _ => ?_
  refine Explains.universe ?_
  dsimp only
  split
  · exact .none
  · exact .candidate (by decide) x.site _ _ _

theorem explainCtorInaccessible_explains (x : UnmatchedCtor) : Explains id [.constructorNotAccessible] (explainCtorInaccessible x) st := by
  refine Explains.universe ?_
  refine .bind (onUniverse_works (withSignature_works _)) fun _ st₁ _ _ _ => Explains.universe ?_
  split
  · exact .none
  · exact .error (by decide) x.site _

/-- Searching for a callable that accepts arguments. -/
theorem firstFit_works {u : Universe} (ids : List MethodId) : Works binding (firstFit args ids) u fun _ _ => True := by
  induction ids generalizing u with
  | nil => exact Works.ret trivial
  | cons m ids ih =>
    unfold firstFit
    refine (signature_works m).bind fun ok u₁ _ _ _ => ?_
    split
    · refine Works.read ?_
      split
      · exact Works.ret trivial
      · exact ih
    · exact ih

theorem explainCtorMethod_explains (x : UnmatchedCtor) : Explains id [.methodFoundForConstructor] (explainCtorMethod x) st := by
  refine Explains.universe ?_
  refine .bind (onUniverse_works (firstFit_works _)) fun r st₁ _ _ _ => ?_
  cases r with
  | none => exact .none
  | some m => exact Explains.universe (.error (by decide) x.site _)

/-- The codes of constructor calls that nothing matches. -/
def missingCtorCodes : List Code :=
  [.constructorOverloadNotFound, .constructorNotAccessible, .methodFoundForConstructor, .constructorNotFound]

/-- A call that no constructor matches is reported once. -/
theorem ctorNotFound_works (x : UnmatchedCtor) :
    Works (resolving id) (ctorNotFound x) st fun code st' =>
      Reports [code] st st' ∧ code.isLate = false := by
  have hlate : ∀ c ∈ missingCtorCodes, c.isLate = false := by decide
  refine (firstFitting_works (fun e he st' _ _ => ?_) fun st' _ _ => ?_).mono fun code _ _ _ h => ⟨h.1, hlate code h.2⟩
  · simp only [List.mem_cons, List.not_mem_nil, or_false] at he
    rcases he with rfl | rfl | rfl
    · exact (explainCtorOverload_explains x).widen (by decide)
    · exact (explainCtorInaccessible_explains x).widen (by decide)
    · exact (explainCtorMethod_explains x).widen (by decide)
  · refine works_getUniverse ?_
    exact (reportError_works (by decide) x.site _).bind fun _ _ _ _ h => Works.ret ⟨h, by decide⟩

end CallResolution.Session
