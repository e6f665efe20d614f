import CallResolution.Proofs.Members.Forwarding
import CallResolution.Resolve.Competing

/-!
# What is selected

The phases are tried in order and the first one in which a competing callable accepts the
arguments decides. The fold that keeps the most specific callables loses none without keeping
one that is more specific, because specificity is transitive; so a callable that is left alone
is more specific than all others that accept the arguments in its phase.

Selecting works on candidates, which are callables with the parameters that they offer to the
arguments of the call. The first three sections are about lists of candidates and need no
universe. A candidate is made from a callable by instantiating its parameters, which makes
types; so the store in which the last candidate is made is not the one of the first.
`Universe.acceptance` says, of a universe that is not changed, what a callable does with
arguments, and `candidates_works` that a candidate does what its callable does in the universe
at the end. `Universe.Selects` is the statement about callables that comes of it; it speaks of
no candidates any more, and stays true later on (`Keeps.accepts`).

Main statements: `mostSpecific_covers`, `select_eq_none_iff`, `select_eq_some`,
`candidates_works` and `selects_of_select`.
-/

namespace CallResolution

/-! ## The most specific candidates

What the fold loses it loses to something better. This needs transitivity among the candidates
at hand only, so it is asked of a list.
-/

section MostSpecific

variable {α : Type} {beats : α → α → Bool}

/-- The best candidates after one more are among those before and the new one. -/
theorem mem_addSpecific {best : List α} {c x : α} (h : x ∈ addSpecific beats best c) : x ∈ best ∨ x = c := by
  unfold addSpecific at h
  split at h
  · exact .inr (List.mem_singleton.mp h)
  · split at h
    · exact .inl h
    · simpa using h

/-- Among some candidates, what beats a candidate that beats another one beats that one, too.
It is asked of a list because candidates with broken signatures are in the way of it
elsewhere. -/
def TransOn (beats : α → α → Bool) (cs : List α) : Prop :=
  ∀ a ∈ cs, ∀ b ∈ cs, ∀ c ∈ cs, beats a b → beats b c → beats a c

theorem TransOn.mono {cs cs' : List α} (h : TransOn beats cs) (hsub : ∀ a ∈ cs', a ∈ cs) : TransOn beats cs' :=
  fun a ha b hb c hc => h a (hsub a ha) b (hsub b hb) c (hsub c hc)

/-- Adding a candidate keeps for each one that was covered another one that covers it. -/
theorem addSpecific_covers {cs best : List α} {c d : α} (trans : TransOn beats cs) (hbest : ∀ a ∈ best, a ∈ cs) (hc : c ∈ cs)
    (hd : d ∈ cs) (h : (∃ x ∈ best, x = d ∨ beats x d) ∨ d = c) : ∃ x ∈ addSpecific beats best c, x = d ∨ beats x d := by
  unfold addSpecific
  split
  · rename_i hall
    rcases h with ⟨x, hx, hxd⟩ | rfl
    · have hcx := List.all_eq_true.mp hall x hx
      refine ⟨c, by simp, .inr ?_⟩
      rcases hxd with rfl | hxd
      · exact hcx
      · exact trans c hc x (hbest x hx) d hd hcx hxd
    · exact ⟨d, by simp, .inl rfl⟩
  · split
    · rename_i hany
      rcases h with h | rfl
      · exact h
      · obtain ⟨x, hx, hxd⟩ := List.any_eq_true.mp hany
        exact ⟨x, hx, .inr hxd⟩
    · rcases h with ⟨x, hx, hxd⟩ | rfl
      · exact ⟨x, by simp [hx], hxd⟩
      · exact ⟨d, by simp, .inl rfl⟩

/-- The most specific candidates are candidates. -/
theorem mem_of_mem_mostSpecific {cs : List α} {x : α} (h : x ∈ mostSpecific beats cs) : x ∈ cs := by
  have run (cs best : List α) (h : x ∈ cs.foldl (addSpecific beats) best) : x ∈ best ∨ x ∈ cs := by
    induction cs generalizing best with
    | nil => exact .inl h
    | cons c cs ih =>
      rcases ih _ h with h | h
      · rcases mem_addSpecific h with h | rfl
        · exact .inl h
        · exact .inr (by simp)
      · exact .inr (by simp [h])
  simpa using run cs [] h

/-- None is kept when there are no candidates, and not otherwise. -/
theorem mostSpecific_eq_nil_iff {cs : List α} : mostSpecific beats cs = [] ↔ cs = [] := by
  refine ⟨fun h => ?_, fun h => by rw [h]; rfl⟩
  cases cs with
  | nil => rfl
  | cons c cs =>
    obtain ⟨init, last, heq⟩ : ∃ init last, c :: cs = init ++ [last] :=
      ⟨(c :: cs).dropLast, (c :: cs).getLast (by simp), (List.dropLast_append_getLast _).symm⟩
    rw [heq, mostSpecific, List.foldl_append] at h
    exact absurd h (addSpecific_ne_nil _ _ _)

/-- For each candidate a most specific one is kept that it is or that beats it. So a candidate
that is kept alone beats all the others. -/
theorem mostSpecific_covers {cs : List α} {d : α} (trans : TransOn beats cs) (hd : d ∈ cs) :
    ∃ x ∈ mostSpecific beats cs, x = d ∨ beats x d := by
  have run (rest best : List α) (hrest : ∀ a ∈ rest, a ∈ cs) (hbest : ∀ a ∈ best, a ∈ cs)
      (h : (∃ x ∈ best, x = d ∨ beats x d) ∨ d ∈ rest) : ∃ x ∈ rest.foldl (addSpecific beats) best, x = d ∨ beats x d := by
    induction rest generalizing best with
    | nil => simpa using h
    | cons c rest ih =>
      have hc := hrest c (by simp)
      refine ih _ (fun a ha => hrest a (by simp [ha])) (fun a ha => ?_) ?_
      · rcases mem_addSpecific ha with ha | rfl
        · exact hbest a ha
        · exact hc
      · rcases h with h | h
        · exact .inl (addSpecific_covers trans hbest hc hd (.inl h))
        · rcases List.mem_cons.mp h with rfl | h
          · exact .inl (addSpecific_covers trans hbest hc hd (.inr rfl))
          · exact .inr h
  exact run cs [] (fun _ => id) (by simp) (.inr hd)

end MostSpecific

/-! ## Specificity is transitive

For a number of arguments, since callables of variable arity are compared by as many
parameters as there are arguments.
-/

/-- Being more specific for a number of arguments is transitive. -/
theorem Formals.moreSpecific_trans {s : TypeStore} (hs : s.WellFormed) {a b c : Formals} {argc : Nat}
    (hab : a.moreSpecific s b argc) (hbc : b.moreSpecific s c argc) : a.moreSpecific s c argc := by
  unfold moreSpecific at *
  simp only [Nat.all_eq_finRange_all, List.all_eq_true, List.mem_finRange, forall_const] at *
  intro k
  have hab := hab k
  have hbc := hbc k
  cases ha : a.paramAt? k <;> cases hb : b.paramAt? k <;> cases hc : c.paramAt? k <;> simp_all
  exact hs.subtypeConverts_trans hab hbc

/-- Candidates beat each other transitively. -/
theorem Candidate.beats_trans {s : TypeStore} (hs : s.WellFormed) {argc : Nat} {a b c : Candidate}
    (hab : a.beats s argc b) (hbc : b.beats s argc c) : a.beats s argc c :=
  Formals.moreSpecific_trans hs hab hbc

/-! ## Phases

A phase selects something when some candidate applies in it. The phases are tried in order, so
the first one with such a candidate decides, whatever the others would have given.
-/

variable {s : TypeStore} {cands : List Candidate} {args : List TypeId}

/-- In a phase something is selected unless no candidate applies. -/
theorem selectIn_eq_none_iff {ph : Phase} :
    selectIn s cands args ph = none ↔ ∀ c ∈ cands, c.applies s args ph = false := by
  have hnil : mostSpecific (Candidate.beats s args.length) (cands.filter (·.applies s args ph)) = [] ↔ _ :=
    mostSpecific_eq_nil_iff
  unfold selectIn
  split
  · rename_i h
    simpa using hnil.mp h
  · rename_i c cs h
    have hne : cands.filter (·.applies s args ph) ≠ [] := fun h' => by simp [hnil.mpr h'] at h
    simpa [List.filter_eq_nil_iff] using hne

/-- What is selected in a phase. When several are left none of them is said to be better than
the others; they are all reported, and the first one is taken. -/
structure Selection.BestIn (s : TypeStore) (cands : List Candidate) (args : List TypeId) (sel : Selection) : Prop where
  /-- All selected candidates apply in the phase. -/
  applies : ∀ id ∈ sel.first :: sel.others, ∃ c ∈ cands, c.method = id ∧ c.applies s args sel.phase
  /-- The first one packs arguments as the selection says. -/
  packs : ∃ c ∈ cands, c.method = sel.first ∧ c.formals.applicable s args sel.phase = some sel.wrapped
  /-- One that was selected alone beats all others that apply. -/
  beats : sel.others = [] → ∀ d ∈ cands, d.applies s args sel.phase →
    ∃ c ∈ cands, c.method = sel.first ∧ (c = d ∨ c.beats s args.length d)

/-- What a phase selects is best in it. -/
theorem selectIn_best (hs : s.WellFormed) {ph : Phase} {sel : Selection} (h : selectIn s cands args ph = some sel) :
    sel.phase = ph ∧ sel.BestIn s cands args := by
  unfold selectIn at h
  split at h
  · cases h
  · rename_i c cs hbest
    cases h
    have hmem : ∀ x ∈ c :: cs, x ∈ cands ∧ x.applies s args ph := by
      intro x hx
      rw [← hbest] at hx
      exact List.mem_filter.mp (mem_of_mem_mostSpecific hx)
    refine ⟨rfl, ?_, ?_, ?_⟩
    · intro id hid
      rcases List.mem_cons.mp hid with rfl | hid
      · exact ⟨c, (hmem c (by simp)).1, rfl, (hmem c (by simp)).2⟩
      · obtain ⟨x, hx, rfl⟩ := List.mem_map.mp hid
        exact ⟨x, (hmem x (by simp [hx])).1, rfl, (hmem x (by simp [hx])).2⟩
    · refine ⟨c, (hmem c (by simp)).1, rfl, ?_⟩
      have happ := (hmem c (by simp)).2
      unfold Candidate.applies at happ
      obtain ⟨b, hb⟩ := Option.isSome_iff_exists.mp happ
      simp only [Candidate.packs, hb]
      cases b <;> rfl
    · intro hothers d hd happ
      have hcs : cs = [] := by simpa using hothers
      subst hcs
      have trans : TransOn (Candidate.beats s args.length) (cands.filter (·.applies s args ph)) :=
        fun _ _ _ _ _ _ => Candidate.beats_trans hs
      obtain ⟨x, hx, hxd⟩ := mostSpecific_covers trans (List.mem_filter.mpr ⟨hd, happ⟩)
      rw [hbest] at hx
      rw [List.mem_singleton.mp hx] at hxd
      exact ⟨c, (hmem c (by simp)).1, rfl, hxd⟩

/-- Nothing is selected when no candidate applies in any phase. -/
theorem select_eq_none_iff {phases : List Phase} :
    select s cands args phases = none ↔ ∀ ph ∈ phases, ∀ c ∈ cands, c.applies s args ph = false := by
  unfold select
  rw [List.findSome?_eq_none_iff]
  exact forall₂_congr fun ph _ => selectIn_eq_none_iff

/-- The first phase in which a candidate applies decides, and what it selects is best in it.
No candidate applies in a phase that was tried before. -/
theorem select_eq_some (hs : s.WellFormed) {phases : List Phase} {sel : Selection}
    (h : select s cands args phases = some sel) : sel.BestIn s cands args ∧
      ∃ before after, phases = before ++ sel.phase :: after ∧
        ∀ ph ∈ before, ∀ c ∈ cands, c.applies s args ph = false := by
  obtain ⟨before, ph, after, rfl, hsel, hnone⟩ := List.findSome?_eq_some_iff.mp h
  obtain ⟨rfl, hbest⟩ := selectIn_best hs hsel
  exact ⟨hbest, before, after, rfl, fun ph hph => selectIn_eq_none_iff.mp (hnone ph hph)⟩

/-- The phases that come before a phase. -/
def Phase.earlier : Phase → List Phase
  | .none | .strict => []
  | .loose => [.strict]
  | .variadic => [.strict, .loose]

/-- What a language level tries before a phase is all that comes before it. -/
theorem SourceLevel.eq_earlier {level : SourceLevel} {before after : List Phase} {ph : Phase}
    (h : level.phases = before ++ ph :: after) : before = ph.earlier := by
  cases level <;> rcases before with _ | ⟨a, _ | ⟨b, _ | ⟨c, rest⟩⟩⟩ <;>
    grind [phases, Phase.earlier, List.append_eq_nil_iff]

namespace Universe

variable {u : Universe}

/-! ## Acceptance

From candidates to callables. A candidate is a callable with the parameters that it offers;
when those are made again in a later universe they are the same ones, since the interner gives
a shape the number that it has.
-/

/-- Whether a callable accepts arguments in a phase when it is called with explicit type
arguments, and if so whether trailing ones are packed. The parameters are made for the
question and thrown away, so it can be asked of a universe without changing it. -/
def acceptance (u : Universe) (typeArgs args : List TypeId) (ph : Phase) (id : MethodId) : Option Bool :=
  let (f, s) := (u.method id).formals typeArgs u.types
  f.applicable s args ph

/-- A candidate offers what its callable offers in a store. Both are functions of the store
that may make types; that the store is the same afterwards says that the types were there
already. -/
structure OffersIn (u : Universe) (typeArgs : List TypeId) (s : TypeStore) (c : Candidate) : Prop where
  /-- The parameters as declared. -/
  declared : (u.method c.method).declaredFormals s = (c.declared, s)
  /-- The parameters as the call sees them. -/
  formals : (u.method c.method).formals typeArgs s = (c.formals, s)
  /-- The parameters as the call sees them are known. -/
  known : c.formals.Known s

/-- A callable as a candidate offers what it offers from then on. -/
theorem candidate_works {typeArgs : List TypeId} {id : MethodId} {s : TypeStore} (hm : (u.method id).Known s)
    (ht : ∀ t ∈ typeArgs, s.Knows t) : Works TypeStore.extension (u.candidate typeArgs id) s fun c s' =>
      c.method = id ∧ ∀ s'', s'.Extends s'' → u.OffersIn typeArgs s'' c := by
  unfold candidate
  refine Works.bind (TypeStore.Settles.works (fun hs => Method.declaredFormals_settles hs hm.params)
    fun g => Method.declaredFormals_works hm.params) fun d s₁ _ hl₁ hd => ?_
  have hm₁ := hm.grows hl₁.2.toGrows
  have ht₁ : ∀ t ∈ typeArgs, s₁.Knows t := fun t h => hl₁.2.knows (ht t h)
  refine Works.bind (TypeStore.Settles.works (fun hs => Method.formals_settles hs hm₁.params ht₁)
    fun g => Method.formals_works hm₁.params ht₁) fun f s₂ _ hl₂ hf => Works.ret ⟨rfl, fun s₃ h₃ => ?_⟩
  exact ⟨hd.2 s₃ (hl₂.2.trans h₃), hf.2 s₃ h₃, hf.1.1.grows h₃.toGrows⟩

/-- The candidates stand for the callables in their order. -/
theorem map_method_mapM (u : Universe) (typeArgs : List TypeId) (ids : List MethodId) (s : TypeStore) :
    ((ids.mapM (u.candidate typeArgs)) s).1.map (·.method) = ids := by
  induction ids generalizing s with
  | nil => rfl
  | cons id ids ih =>
    rw [List.mapM_cons]
    exact congrArg (id :: ·) (ih _)

/-- Callables as candidates offer what they offer, and nothing but types is made for them. The
candidates are made one after another; each offers the same in the last store as in the one
that it was made in. -/
theorem candidates_works {typeArgs : List TypeId} (ht : ∀ t ∈ typeArgs, u.types.Knows t) (ids : List MethodId) :
    Works binding (candidates typeArgs ids) u fun cs u' =>
      cs.map (·.method) = ids ∧ (∀ c ∈ cs, u'.OffersIn typeArgs u'.types c) ∧ u' = { u with types := u'.types } := by
  refine Works.of_sound fun hu => Works.read ?_
  have keep : ∀ (c : Candidate) (s s' : TypeStore), TypeStore.extension.Leads s s' →
      (∀ s'', s.Extends s'' → u.OffersIn typeArgs s'' c) → ∀ s'', s'.Extends s'' → u.OffersIn typeArgs s'' c :=
    fun c s s' hl h s'' h'' => h s'' (hl.2.trans h'')
  have hmapM := Works.mapM (s := u.types) ids keep fun id _ s _ hl =>
    (candidate_works ((hu.method id).grows hl.2.toGrows) fun t h => hl.2.knows (ht t h)).mono fun c s' _ _ h => h.2
  have hrun : Works TypeStore.extension (ids.mapM (u.candidate typeArgs)) u.types fun cs s =>
      cs.map (·.method) = ids ∧ ∀ c ∈ cs, u.OffersIn typeArgs s c := fun hs =>
    ⟨(hmapM hs).1, map_method_mapM u typeArgs ids u.types, fun c hc => (hmapM hs).2.2 c hc _ (.refl _)⟩
  refine (onTypes_works hrun).mono fun cs u' _ _ h => ?_
  obtain ⟨⟨hids, hoffers⟩, heq⟩ := h
  have hmethod (id : MethodId) : u'.method id = u.method id := by
    rw [heq]
    rfl
  refine ⟨hids, fun c hc => ?_, heq⟩
  obtain ⟨hd, hf, hk⟩ := hoffers c hc
  exact ⟨by rw [hmethod, hd], by rw [hmethod, hf], hk⟩

/-- What a candidate does with arguments is what its callable does. -/
theorem OffersIn.acceptance {typeArgs : List TypeId} {c : Candidate} (h : u.OffersIn typeArgs u.types c)
    (args : List TypeId) (ph : Phase) :
    u.acceptance typeArgs args ph c.method = c.formals.applicable u.types args ph := by
  unfold Universe.acceptance
  rw [h.formals]

/-- The parameters that a callable offers to a call have been made. From then on whether it
accepts arguments does not depend on when it is asked. -/
def Settled (u : Universe) (typeArgs : List TypeId) (id : MethodId) : Prop :=
  ((u.method id).formals typeArgs u.types).2 = u.types

/-- The callable of a candidate offers parameters that have been made. -/
theorem OffersIn.settled {typeArgs : List TypeId} {c : Candidate} (h : u.OffersIn typeArgs u.types c) :
    u.Settled typeArgs c.method := by
  unfold Settled
  rw [h.formals]

/-- What a callable with a processed signature offers to a call stays. -/
theorem Keeps.formals {u' : Universe} (h : u.Keeps u') {id : MethodId} (hr : (u.method id).isResolved)
    (typeArgs : List TypeId) : (u'.method id).formals typeArgs = (u.method id).formals typeArgs := by
  have hl := h.later hr
  obtain ⟨-, hparams, -, -, hvars⟩ := hl.resolved hr
  unfold Method.formals Method.declaredFormals
  rw [hparams, hvars, hl.flags]

/-- Parameters that have been made are made again under the same numbers. -/
theorem Keeps.settled_formals {u' : Universe} (h : u.Keeps u') (hu : u.WellFormed) {typeArgs : List TypeId}
    (ht : ∀ t ∈ typeArgs, u.types.Knows t) {id : MethodId} (hr : (u.method id).isResolved)
    (hset : u.Settled typeArgs id) : ∃ f, (u.method id).formals typeArgs u.types = (f, u.types) ∧ f.Known u.types ∧
      (u'.method id).formals typeArgs u'.types = (f, u'.types) := by
  have hparams := (hu.method id).params
  have hknown := (hu.types.run fun g => Method.formals_works (g := g) hparams ht).2.2.1
  have hlater := (Method.formals_settles hu.types hparams ht).2 u'.types
  rw [h.formals hr]
  unfold Settled at hset
  generalize (u.method id).formals typeArgs u.types = made at *
  obtain ⟨f, s⟩ := made
  cases hset
  exact ⟨f, rfl, hknown, hlater h.types⟩

/-- What a callable does with known arguments stays once its parameters have been made. -/
theorem Keeps.acceptance {u' : Universe} (h : u.Keeps u') (hu : u.WellFormed) {typeArgs args : List TypeId}
    (ht : ∀ t ∈ typeArgs, u.types.Knows t) (hargs : ∀ t ∈ args, u.types.Knows t) {id : MethodId}
    (hr : (u.method id).isResolved) (hset : u.Settled typeArgs id) (ph : Phase) :
    u'.acceptance typeArgs args ph id = u.acceptance typeArgs args ph id := by
  obtain ⟨f, hf, hknown, hf'⟩ := h.settled_formals hu ht hr hset
  unfold Universe.acceptance
  rw [hf, hf']
  exact h.types.applicable hu.types hknown hargs ph

/-- A callable with a processed signature, whose parameters have been made, accepts arguments
in a phase and in none before it, and trailing ones are packed or not. Every part of this
stays. -/
structure Accepts (u : Universe) (typeArgs args : List TypeId) (ph : Phase) (wrapped : Bool) (id : MethodId) : Prop where
  /-- The signature has been processed. -/
  resolved : (u.method id).isResolved
  /-- The parameters have been made. -/
  settled : u.Settled typeArgs id
  /-- The arguments are accepted. -/
  acceptance : u.acceptance typeArgs args ph id = some wrapped
  /-- They are not accepted before that. -/
  earlier : ∀ ph' ∈ ph.earlier, u.acceptance typeArgs args ph' id = none

/-- What was accepted is still accepted later. -/
theorem Keeps.accepts {u' : Universe} (h : u.Keeps u') (hu : u.WellFormed) {typeArgs args : List TypeId}
    (ht : ∀ t ∈ typeArgs, u.types.Knows t) (hargs : ∀ t ∈ args, u.types.Knows t) {ph : Phase} {wrapped : Bool}
    {id : MethodId} (ha : u.Accepts typeArgs args ph wrapped id) : u'.Accepts typeArgs args ph wrapped id where
  resolved := h.isResolved ha.resolved
  settled := by
    obtain ⟨f, -, -, hf'⟩ := h.settled_formals hu ht ha.resolved ha.settled
    unfold Settled
    rw [hf']
  acceptance := by
    rw [h.acceptance hu ht hargs ha.resolved ha.settled]
    exact ha.acceptance
  earlier ph' hph' := by
    rw [h.acceptance hu ht hargs ha.resolved ha.settled]
    exact ha.earlier ph' hph'

/-! ## Comparing callables

Two callables are compared by making candidates of both.
-/

/-- Signatures that were processed are left alone. -/
theorem withSignature_of_isResolved {ids : List MethodId} (h : ∀ id ∈ ids, (u.method id).isResolved) :
    withSignature ids u = (ids, u) := by
  induction ids with
  | nil => rfl
  | cons id ids ih =>
    show (do
      let ok ← signature id
      let rest ← withSignature ids
      return if ok then id :: rest else rest : UniverseM (List MethodId)) u = _
    have hid := signature_of_isResolved (h id (by simp))
    have hrest := ih fun id' hid' => h id' (by simp [hid'])
    simp only [bind, StateT.bind, hid, hrest]
    rfl

/-- A callable whose parameters are settled is a candidate without further ado. -/
theorem candidate_of_declared {id : MethodId} {f : Formals} (h : (u.method id).declaredFormals u.types = (f, u.types)) :
    u.candidate [] id u.types = (⟨id, f, f⟩, u.types) := by
  have hf : (u.method id).formals [] = (u.method id).declaredFormals := rfl
  unfold candidate
  simp only [hf, bind, StateT.bind, h]
  rfl

/-- A candidate that beats another one stands for a more specific callable. -/
theorem isMoreSpecific_of_beats {typeArgs : List TypeId} {a b : Candidate} {argc : Nat}
    (ha : u.OffersIn typeArgs u.types a) (hb : u.OffersIn typeArgs u.types b) (hra : (u.method a.method).isResolved)
    (hrb : (u.method b.method).isResolved) (h : a.beats u.types argc b) :
    (isMoreSpecific a.method b.method argc u).1 := by
  have hsig : withSignature [a.method, b.method] u = ([a.method, b.method], u) :=
    withSignature_of_isResolved (by simp [hra, hrb])
  have hcands : candidates [] [a.method, b.method] u
      = ([⟨a.method, a.declared, a.declared⟩, ⟨b.method, b.declared, b.declared⟩], u) := by
    show onTypes ([a.method, b.method].mapM (u.candidate [])) u = _
    have hmapM : ([a.method, b.method].mapM (u.candidate [])) u.types
        = ([⟨a.method, a.declared, a.declared⟩, ⟨b.method, b.declared, b.declared⟩], u.types) := by
      simp only [List.mapM_cons, List.mapM_nil, bind, StateT.bind, candidate_of_declared ha.declared,
        candidate_of_declared hb.declared]
      rfl
    unfold onTypes
    rw [hmapM]
  unfold isMoreSpecific
  simp only [bind, StateT.bind, hsig, hcands]
  show u.candidateBeats argc ⟨a.method, a.declared, a.declared⟩ ⟨b.method, b.declared, b.declared⟩ = true
  simp only [candidateBeats, hra, hrb, Bool.true_and]
  exact h

/-! ## Selections among callables

What a call is told about the selection.
-/

/-- A selection among callables: it is made in the first phase in which one of them accepts
the arguments, all that are selected do so, and one that is selected alone is more specific
than every other one that does. -/
structure Selects (u : Universe) (phases : List Phase) (typeArgs args : List TypeId) (ids : List MethodId)
    (sel : Selection) : Prop where
  /-- No callable accepts the arguments in an earlier phase. -/
  first : ∃ before after, phases = before ++ sel.phase :: after ∧
    ∀ ph ∈ before, ∀ id ∈ ids, u.acceptance typeArgs args ph id = none
  /-- All selected callables accept the arguments in the phase. -/
  accepted : ∀ id ∈ sel.first :: sel.others, id ∈ ids ∧ (u.acceptance typeArgs args sel.phase id).isSome
  /-- Trailing arguments are packed as the first one packs them. -/
  wrapped : u.acceptance typeArgs args sel.phase sel.first = some sel.wrapped
  /-- A callable that was selected alone is more specific than the others. -/
  best : sel.others = [] → ∀ id ∈ ids, id ≠ sel.first → (u.acceptance typeArgs args sel.phase id).isSome →
    (isMoreSpecific sel.first id args.length u).1

variable {typeArgs args : List TypeId} {phases : List Phase} {cands : List Candidate}

/-- Where no candidate applies no callable accepts the arguments. -/
theorem acceptance_eq_none (hoffers : ∀ c ∈ cands, u.OffersIn typeArgs u.types c) {ph : Phase}
    (h : ∀ c ∈ cands, c.applies u.types args ph = false) :
    ∀ id ∈ cands.map (·.method), u.acceptance typeArgs args ph id = none := by
  intro id hid
  obtain ⟨c, hc, rfl⟩ := List.mem_map.mp hid
  rw [(hoffers c hc).acceptance]
  simpa [Candidate.applies] using h c hc

/-- What is selected among candidates is selected among their callables. From here on nothing
is said of candidates. -/
theorem selects_of_select (hu : u.WellFormed) (hoffers : ∀ c ∈ cands, u.OffersIn typeArgs u.types c)
    (hresolved : ∀ c ∈ cands, (u.method c.method).isResolved) {sel : Selection}
    (h : select u.types cands args phases = some sel) :
    u.Selects phases typeArgs args (cands.map (·.method)) sel := by
  obtain ⟨hbest, before, after, hphases, hnone⟩ := select_eq_some hu.types h
  refine ⟨⟨before, after, hphases, fun ph hph => acceptance_eq_none hoffers (hnone ph hph)⟩, ?_, ?_, ?_⟩
  · intro id hid
    obtain ⟨c, hc, rfl, happ⟩ := hbest.applies id hid
    refine ⟨List.mem_map_of_mem hc, ?_⟩
    rw [(hoffers c hc).acceptance]
    exact happ
  · obtain ⟨c, hc, hfirst, hpacks⟩ := hbest.packs
    rw [← hfirst, (hoffers c hc).acceptance, hpacks]
  · intro hothers id hid hne hacc
    obtain ⟨d, hd, rfl⟩ := List.mem_map.mp hid
    rw [(hoffers d hd).acceptance] at hacc
    obtain ⟨c, hc, hfirst, heq | hbeats⟩ := hbest.beats hothers d hd hacc
    · exact absurd (heq ▸ hfirst) hne
    · rw [← hfirst]
      exact isMoreSpecific_of_beats (hoffers c hc) (hoffers d hd) (hresolved c hc) (hresolved d hd) hbeats

end Universe

/-! ## Access stays

Access is judged by classes, packages and modifiers, all of which are settled when a class is
declared. So whether a callable competes does not depend on when it is asked.
-/

/-- The receiver of a call is known, as far as access is concerned. -/
def KnowsQualifier (s : TypeStore) (q : Option Qualifier) : Prop :=
  ∀ x ∈ q, s.Knows x.type

namespace TypeStore.Extends

variable {s s' : TypeStore} (h : s.Extends s') (hs : s.WellFormed) {env : Env} (henv : Universe.KnowsEnv s env)
  {m : Method} (hm : s.Knows m.owner)
include h hs

/-- Whether a known type is an interface stays. -/
theorem isInterface {t : TypeId} (ht : s.Knows t) : s'.isInterface t = s.isInterface t := by
  have hbare : s.Knows (bare (s.erased t)) := hs.knows_bare boundLimit ht
  unfold TypeStore.isInterface
  rw [h.erased hs ht, h.shape ht, h.classInfo hs ht]
  cases he : s.erased t with
  | plain u =>
    rw [he, bare_plain] at hbare
    cases s.shape t <;> simp only [h.classInfo hs hbare]
  | array u d => cases s.shape t <;> rfl

include henv hm

/-- Whether some class around a call inherits from the class of a method stays. -/
theorem envInherits : env.inherits s' m.owner = env.inherits s m.owner := by
  unfold Env.inherits
  rw [Bool.eq_iff_iff, List.any_eq_true, List.any_eq_true]
  exact exists_congr fun f => and_congr_right fun hf => by rw [h.isSubclass hs (henv f hf) hm]

/-- Whether a call shares its outermost class with that of a method stays. -/
theorem sharesOutermost : env.sharesOutermost s' m.owner = env.sharesOutermost s m.owner := by
  unfold Env.sharesOutermost
  rw [h.outermost hs (henv.this hs), h.outermost hs hm]

/-- Whether a protected method may be called stays. -/
theorem protectedAccessible {search : TypeId} {q : Option Qualifier} (hsearch : s.Knows search)
    (hq : KnowsQualifier s q) : protectedAccessible s' env m search q = protectedAccessible s env m search q := by
  have hinterface : (q.any fun q => s'.isInterface q.type) = q.any fun q => s.isInterface q.type := by
    cases q with
    | none => rfl
    | some q => simp only [Option.any_some, h.isInterface hs (hq q rfl)]
  have hsub : (env.frames.any fun f => s'.isSubclass search f.type)
      = env.frames.any fun f => s.isSubclass search f.type := by
    rw [Bool.eq_iff_iff, List.any_eq_true, List.any_eq_true]
    exact exists_congr fun f => and_congr_right fun hf => by rw [h.isSubclass hs hsearch (henv f hf)]
  unfold CallResolution.protectedAccessible
  rw [hinterface, hsub, h.samePackage hs (henv.this hs) hm, h.envInherits hs henv hm]

/-- Whether a method may be called stays. -/
theorem memberAccessible {search : TypeId} {q : Option Qualifier} (hsearch : s.Knows search)
    (hq : KnowsQualifier s q) : memberAccessible s' env m search q = memberAccessible s env m search q := by
  unfold CallResolution.memberAccessible
  rw [h.sharesOutermost hs henv hm, h.samePackage hs (henv.this hs) hm,
    h.protectedAccessible hs henv hm hsearch hq]

/-- Whether a constructor may be called stays. -/
theorem ctorAccessible (isExplicit : Bool) : ctorAccessible s' env m isExplicit = ctorAccessible s env m isExplicit := by
  unfold CallResolution.ctorAccessible
  rw [h.sharesOutermost hs henv hm, h.samePackage hs (henv.this hs) hm]

end TypeStore.Extends

namespace Universe

variable {u : Universe}

/-- Competing for a call is not changed by types that are made. -/
theorem competes_extends (hu : u.WellFormed) {types : TypeStore} (he : u.types.Extends types) {env : Env}
    (henv : KnowsEnv u.types env) {search : TypeId} (hsearch : u.types.Knows search) {q : Option Qualifier}
    (hq : KnowsQualifier u.types q) (s : Shadow) :
    { u with types }.competes env search q s = u.competes env search q s := by
  unfold competes
  show ((u.method s.method).isResolved && (memberAccessible types env (u.method s.method) search q || _)) = _
  rw [he.memberAccessible hu.types henv (hu.method _).owner hsearch hq]

/-- Competing for a constructor call is not changed by types that are made. -/
theorem ctorCompetes_extends (hu : u.WellFormed) {types : TypeStore} (he : u.types.Extends types) {env : Env}
    (henv : KnowsEnv u.types env) (isExplicit : Bool) (id : MethodId) :
    { u with types }.ctorCompetes env isExplicit id = u.ctorCompetes env isExplicit id := by
  unfold ctorCompetes
  show ((u.method id).isResolved && ctorAccessible types env (u.method id) isExplicit) = _
  rw [he.ctorAccessible hu.types henv (hu.method _).owner]

end Universe

end CallResolution
