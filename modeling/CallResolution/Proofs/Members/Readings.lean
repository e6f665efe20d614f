import CallResolution.Proofs.Members.Texts

/-!
# Signatures at other times

A signature is processed when it is first asked for, and names are looked up at that moment.
The types that come of it have numbers that depend on the moment, so it is described by what
can be said of them without their numbers: their names, say, or their erasures. Such a
description is `Steady`: it stays while the store grows, and it is the same for two readings
of one text that differ in their numbers only. What it says of a signature does not depend on
the moment, as long as no class was registered in between under a qualified name that is tried
for one of the names in the text (`Universe.consultedBy`).

The names of the types are what `Universe.signatureOutcome` is about. The erased parameter
types are what member tables compare, and `Keeps.sameSignature_apart` says that two universes
that came from one compare the callables of that one alike.

Main statements: `Keeps.outcomeBy` for any steady description, `Keeps.signatureOutcome` for
the names, and `Keeps.sameSignature_apart`.
-/

namespace CallResolution

open TypeStore
open List (Forall₂)

/-- A processed signature, by the names of its types. -/
structure SignatureNames where
  /-- The type variables, each with its bounds. -/
  typeParams : List (String × List String)
  /-- The parameter types. -/
  params : List String
  /-- The result type. -/
  returns : String
  /-- The exceptions. -/
  throws : List String
  deriving DecidableEq, Repr

namespace TypeStore

variable {s s' : TypeStore}

/-- The names of the bounds of a type variable. -/
def boundNames (s : TypeStore) (v : TypeId) : List String :=
  ((s.typeVariable? v).elim [] (·.bounds)).map s.name

/-- The names of the types of a signature. -/
def signatureNames (s : TypeStore) (typeParams params : List TypeId) (returns : TypeId) (throws : List TypeId) :
    SignatureNames where
  typeParams := typeParams.map fun v => (s.name v, s.boundNames v)
  params := params.map s.name
  returns := s.name returns
  throws := throws.map s.name

/-- The names of the types of a signature stay. -/
theorem Extends.signatureNames (h : s.Extends s') (hs : s.WellFormed) (hn : s.Nested) {typeParams params throws : List TypeId}
    {returns : TypeId} (htypeParams : ∀ t ∈ typeParams, s.Knows t) (hparams : ∀ t ∈ params, s.Knows t)
    (hreturns : s.Knows returns) (hthrows : ∀ t ∈ throws, s.Knows t) :
    s'.signatureNames typeParams params returns throws = s.signatureNames typeParams params returns throws := by
  have hnames {l : List TypeId} (hl : ∀ t ∈ l, s.Knows t) : l.map s'.name = l.map s.name :=
    List.map_congr_left fun t ht => h.name hs hn (hl t ht)
  have hbounds (v : TypeId) (hv : s.Knows v) : s'.boundNames v = s.boundNames v := by
    unfold boundNames
    rw [h.typeVariable hs hv]
    refine hnames fun b hb => ?_
    cases hvar : s.typeVariable? v with
    | none => simp [hvar] at hb
    | some x =>
      rw [hvar] at hb
      exact (hs.denotes_bound hvar hb).knows
  have hvars : typeParams.map (fun v => (s'.name v, s'.boundNames v)) = typeParams.map fun v => (s.name v, s.boundNames v) :=
    List.map_congr_left fun v hv => by rw [h.name hs hn (htypeParams v hv), hbounds v (htypeParams v hv)]
  unfold TypeStore.signatureNames
  rw [hvars, hnames hparams, h.name hs hn hreturns, hnames hthrows]

end TypeStore

/-! ## Descriptions of signatures

What can be said of a signature without the numbers of its types.
-/

/-- The types of a signature. -/
structure SignatureTypes where
  /-- The type variables. -/
  typeParams : List TypeId
  /-- The parameter types. -/
  params : List TypeId
  /-- The result type. -/
  returns : TypeId
  /-- The exceptions. -/
  throws : List TypeId

/-- The types of a signature are in a store. -/
structure SignatureTypes.Known (s : TypeStore) (ts : SignatureTypes) : Prop where
  /-- The type variables. -/
  typeParams : ∀ t ∈ ts.typeParams, s.Knows t
  /-- The parameter types. -/
  params : ∀ t ∈ ts.params, s.Knows t
  /-- The result type. -/
  returns : s.Knows ts.returns
  /-- The exceptions. -/
  throws : ∀ t ∈ ts.throws, s.Knows t

/-- The types that a callable has. -/
def Method.types (m : Method) : SignatureTypes :=
  ⟨m.typeParams, m.params, m.returns, m.throws⟩

/-- The types of a known callable are known. -/
theorem Method.Known.types {s : TypeStore} {m : Method} (h : m.Known s) : m.types.Known s :=
  ⟨h.typeParams, h.params, h.returns, h.throws⟩

/-- The types that a draft has. -/
def SignatureDraft.types (d : SignatureDraft) : SignatureTypes :=
  ⟨d.typeVars.map (·.1), d.params, d.returns, d.throws⟩

/-- The types of a known draft are known. -/
theorem SignatureDraft.Known.types {g : Guard} {s : TypeStore} {d : SignatureDraft} (h : d.Known g s) : d.types.Known s where
  typeParams t ht := by
    obtain ⟨x, hx, rfl⟩ := List.mem_map.mp ht
    exact knows_of_isVariable (h.typeVars x hx).isVariable
  params t ht := (h.params t ht).1
  returns := h.returns
  throws := h.throws

/-- What a draft says by some description in the store that it ends in: nothing when there was
a fault. -/
def SignatureDraft.described {α : Type} (f : TypeStore → SignatureTypes → α) (d : SignatureDraft) (s : TypeStore) : Option α :=
  if d.faults.isEmpty then some (f s d.types) else none

/-- A description of signatures that does not depend on the numbers of types. It stays while a
store grows, and says the same of alike types; the names of types and their erasures are such
descriptions. -/
structure Steady {α : Type} (f : TypeStore → SignatureTypes → α) : Prop where
  /-- It stays while the store grows. -/
  stays : ∀ {s s' : TypeStore} {ts : SignatureTypes}, s.Extends s' → s.WellFormed → s.Nested → ts.Known s → f s' ts = f s ts
  /-- It is the same for two readings of a text. -/
  alike : ∀ {o : Outset} {q : TypeStore × TypeStore} {cls : TypeId} {own : List String} {d d' : SignatureDraft},
    o.Drafts q cls own d d' → o.Parallel q → f q.1 d.types = f q.2 d'.types

/-- Two readings of a text say the same by such a description. -/
theorem Outset.Drafts.described {α : Type} {f : TypeStore → SignatureTypes → α} (hf : Steady f) {o : Outset} {q : TypeStore × TypeStore}
    {cls : TypeId} {own : List String} {d d' : SignatureDraft} (h : o.Drafts q cls own d d') (hq : o.Parallel q) :
    d.described f q.1 = d'.described f q.2 := by
  unfold SignatureDraft.described
  rw [h.faults, hf.alike h hq]

/-- The names of the types of a signature. -/
def SignatureTypes.names (s : TypeStore) (ts : SignatureTypes) : SignatureNames :=
  s.signatureNames ts.typeParams ts.params ts.returns ts.throws

/-- The names are the same whichever numbers the types have. -/
theorem steady_names : Steady SignatureTypes.names where
  stays h hs hn ht := h.signatureNames hs hn ht.typeParams ht.params ht.returns ht.throws
  alike {o q cls own d d'} h hq := by
    have hnames {l l' : List TypeId} (hl : Forall₂ (o.Alike q) l l') : l.map q.1.name = l'.map q.2.name :=
      Outset.Alike.map_eq hl fun _ _ ht => ht.name hq
    have hparams : (d.typeVars.map (·.1)).map (fun v => (q.1.name v, q.1.boundNames v)) =
        (d'.typeVars.map (·.1)).map fun v => (q.2.name v, q.2.boundNames v) := by
      rw [List.map_map, List.map_map]
      refine Outset.Alike.map_eq h.typeVars fun x y hxy => ?_
      obtain ⟨i, hx, hy⟩ := id hxy.2
      obtain ⟨v, w, hv, hw, -, hbounds⟩ := hq.typeVariable hx hy
      simp only [Function.comp_apply, boundNames, hv, hw, Option.elim_some, hxy.2.alike.name hq, hnames hbounds]
    unfold SignatureTypes.names signatureNames SignatureDraft.types
    rw [hparams, hnames h.params, h.returns.name hq, hnames h.throws]

/-- The erased parameter types of a signature. -/
def SignatureTypes.erased (s : TypeStore) (ts : SignatureTypes) : List Erased :=
  ts.params.map s.erased

/-- The erased parameter types are the same whichever numbers the types have. -/
theorem steady_erased : Steady SignatureTypes.erased where
  stays h hs _ ht := List.map_congr_left fun t hmem => h.erased hs (ht.params t hmem)
  alike h hq := Outset.Alike.map_eq h.params fun _ _ ht => (ht.erasedWithin hq boundLimit).1

namespace Universe

variable {u u' : Universe} {id : MethodId} {m : Method} {text : SignatureText} {α : Type} {f : TypeStore → SignatureTypes → α}

/-! ## Requests for signatures

What a request gives, and on which names it depends.
-/

/-- What is answered to a request for the signature of a callable. -/
def answer (id : MethodId) (r : Bool × Universe) : Option SignatureNames :=
  let m := r.2.method id
  if r.1 then some (r.2.types.signatureNames m.typeParams m.params m.returns m.throws) else none

/-- What comes of a request for the signature of a callable: the names of its types, or
nothing when it is broken. -/
def signatureOutcome (u : Universe) (id : MethodId) : Option SignatureNames :=
  answer id (signature id u)

/-- What is answered to a request for the signature of a callable, by some description. -/
def answerBy (f : TypeStore → SignatureTypes → α) (id : MethodId) (r : Bool × Universe) : Option α :=
  if r.1 then some (f r.2.types (r.2.method id).types) else none

/-- What comes of a request for the signature of a callable, by some description. -/
def outcomeBy (f : TypeStore → SignatureTypes → α) (u : Universe) (id : MethodId) : Option α :=
  answerBy f id (signature id u)

/-- By the names of its types it is the outcome. -/
theorem outcomeBy_names (u : Universe) (id : MethodId) : u.outcomeBy SignatureTypes.names id = u.signatureOutcome id := rfl

/-- The qualified names that are tried when the signature of a callable is processed. For each
name in the text these are the candidates up to the first one that is taken, as they are at
that moment. -/
def consultedBy (u : Universe) (id : MethodId) : List String :=
  (u.method? id).elim [] fun m =>
    match m.signature with
    | .pending text => text.names.flatMap (u.types.consulted m.owner text.own)
    | _ => []

/-- A step on the types, before another one. -/
theorem onTypes_bind_apply {α β : Type} (x : TypeM α) (f : α → UniverseM β) (u : Universe) :
    (onTypes x >>= f) u = f (x u.types).1 { u with types := (x u.types).2 } := rfl

/-- What is answered once a text was processed is what its draft says. -/
theorem answerBy_settle (f : TypeStore → SignatureTypes → α) (hm : u.method? id = some m) (text : SignatureText) (d : SignatureDraft)
    (types : TypeStore) : answerBy f id (settle id m text d { u with types }) = d.described f types := by
  unfold settle SignatureDraft.described
  split
  · have hfound := method_eq (method?_modify (u := { u with types }) (f := (·.withDraft d)) hm)
    show answerBy f id (true, { u with types, methods := u.methods.modify (id.index - 1) (·.withDraft d) }) = _
    unfold answerBy
    dsimp only at hfound ⊢
    rw [hfound]
    rfl
  · rfl

/-- The outcome for a signature that is still a text is what its draft says. -/
theorem outcomeBy_of_pending (f : TypeStore → SignatureTypes → α) (hm : u.method? id = some m) (hsig : m.signature = .pending text) :
    u.outcomeBy f id = (SignatureDraft.ofText id m.kind m.owner text u.types).1.described f
      (SignatureDraft.ofText id m.kind m.owner text u.types).2 := by
  unfold outcomeBy
  rw [signature_of_pending hm hsig, onTypes_bind_apply, answerBy_settle f hm]

/-- A signature that was processed is not processed again. -/
theorem signature_of_not_isPending (hm : u.method? id = some m) (h : ¬ m.isPending) : signature id u = (m.isResolved, u) := by
  unfold signature
  rw [get_bind_apply, hm]
  cases hsig : m.signature with
  | pending text => exact absurd (by simp [Method.isPending, hsig]) h
  | resolving => simp [Method.isResolved, hsig, pure_apply]
  | resolved => simp [Method.isResolved, hsig, pure_apply]
  | broken => simp [Method.isResolved, hsig, pure_apply]

/-- The outcome for a signature that was processed is what is recorded of it. -/
theorem outcomeBy_of_not_isPending (f : TypeStore → SignatureTypes → α) (hm : u.method? id = some m) (h : ¬ m.isPending) :
    u.outcomeBy f id = if m.isResolved then some (f u.types m.types) else none := by
  unfold outcomeBy answerBy
  rw [signature_of_not_isPending hm h]
  dsimp only
  rw [method_eq hm]

/-- A callable with a signature exists. -/
theorem has_of_signatureOutcome {names : SignatureNames} (h : u.signatureOutcome id = some names) : u.Has id := by
  by_contra hnot
  have hnone : u.method? id = none := by simpa [Has] using hnot
  have hfalse : signature id u = (false, u) := by
    unfold signature
    rw [get_bind_apply, hnone]
    rfl
  simp [signatureOutcome, answer, hfalse] at h

/-! ## Signatures at other times

The outcome of a request at two moments of a run.
-/

/-- A text that was processed says what its draft said. -/
theorem outcomeBy_of_shows (hf : Steady f) {d : SignatureDraft} {s : TypeStore} (hm : u.method? id = some m) (hshows : m.Shows d)
    (hs : s.WellFormed) (hn : s.Nested) (hext : s.Extends u.types) {g : Guard} (hd : d.Known g s) :
    u.outcomeBy f id = d.described f s := by
  unfold Method.Shows at hshows
  unfold SignatureDraft.described
  by_cases hfaults : d.faults.isEmpty
  · rw [if_pos hfaults] at hshows ⊢
    obtain ⟨hresolved, hparams, hreturns, hthrows, htypeParams⟩ := hshows
    have hpending : ¬ m.isPending := by
      simp [Method.isPending, of_decide_eq_true hresolved]
    have htypes : m.types = d.types := by
      rw [Method.types, hparams, hreturns, hthrows, htypeParams, SignatureDraft.types]
    rw [outcomeBy_of_not_isPending f hm hpending, if_pos hresolved, htypes, hf.stays hext hs hn hd.types]
  · rw [if_neg hfaults] at hshows ⊢
    rw [outcomeBy_of_not_isPending f hm (by simp [Method.isPending, hshows])]
    simp [Method.isResolved, hshows]

/-- What comes of the text of a signature is the same in a later store, as long as no class
was registered under a name that is tried. The two readings are compared side by side, and
what they give is alike. -/
theorem described_stays (hf : Steady f) {s s' : TypeStore} (h : s.Extends s') (hs : s.WellFormed) (hn : s.Nested) (hs' : s'.WellFormed)
    (id : MethodId) (kind : CallableKind) {owner : TypeId} (howner : s.Knows owner)
    (text : SignatureText) (hfree : ∀ q ∈ text.names.flatMap (s.consulted owner text.own), s'.classNamed? q = s.classNamed? q) :
    (SignatureDraft.ofText id kind owner text s).1.described f (SignatureDraft.ofText id kind owner text s).2 =
      (SignatureDraft.ofText id kind owner text s').1.described f (SignatureDraft.ofText id kind owner text s').2 := by
  let o : Outset := ⟨s, s', hs, hn, hs', h⟩
  have hstart : o.Parallel (s, s') :=
    ⟨.refl, .refl, rfl, rfl, Nat.add_comm _ _, fun i v w hv => by simp [o] at hv⟩
  have hread := SignatureDraft.ofText_beside o id kind howner text fun name hname q hq =>
    hfree q (List.mem_flatMap.mpr ⟨name, hname, hq⟩)
  obtain ⟨hl, hdrafts⟩ := hread hstart
  exact hdrafts.described hf (hl.1 hstart)

/-- No class was registered meanwhile under a qualified name that is tried for a name in the
text of a callable. A signature that was processed before has no such names, since no text is
left of it. -/
def Undisturbed (u u' : Universe) (id : MethodId) : Prop :=
  ∀ p ∈ u'.types.names, ¬ u.types.Knows p.2 → p.1 ∉ u.consultedBy id

/-- What is asked of every callable can be checked by going through their numbers. -/
theorem forall_has_of_range {P : MethodId → Prop} (h : ∀ i ∈ List.range u.methods.size, P ⟨i + 1⟩) (hid : u.Has id) : P id := by
  obtain ⟨m, hm⟩ := Option.isSome_iff_exists.mp hid
  unfold Universe.method? at hm
  split at hm
  · cases hm
  · rename_i hne
    have hindex : id.index ≠ 0 := fun hzero => hne (congrArg MethodId.mk hzero)
    have hlt := (Array.getElem?_eq_some_iff.mp hm).1
    have hP := h (id.index - 1) (List.mem_range.mpr hlt)
    rwa [show (⟨id.index - 1 + 1⟩ : MethodId) = id from congrArg MethodId.mk (by omega)] at hP

/-- When a single name is new, it is enough that no callable looks it up. -/
theorem undisturbed_of_names [DecidablePred u.types.Knows] {name : String}
    (hnames : (u'.types.names.filter fun p => ¬ u.types.Knows p.2).map (·.1) = [name])
    (hfree : ∀ i ∈ List.range u.methods.size, name ∉ u.consultedBy ⟨i + 1⟩) {id : MethodId} (hid : u.Has id) :
    u.Undisturbed u' id := by
  intro p hp hnew
  have hname : p.1 ∈ [name] := hnames ▸ List.mem_map_of_mem (List.mem_filter.mpr ⟨hp, decide_eq_true hnew⟩)
  rw [List.mem_singleton.mp hname]
  exact forall_has_of_range (P := fun id => name ∉ u.consultedBy id) hfree hid

/-- A request for the signature of a callable gives at a later time what it gives now, by any
description that does not depend on the numbers of types, as long as no class is registered
meanwhile under a qualified name that is tried for a name in its text. The signature may have
been processed before both times, between them, or not at all, and in the second case it was
read in a store between the two. -/
theorem Keeps.outcomeBy (hf : Steady f) (h : u.Keeps u') (hu : u.WellFormed) (hn : u.types.Nested) (hu' : u'.WellFormed)
    (hid : u.Has id) (hfree : u.Undisturbed u' id) : u'.outcomeBy f id = u.outcomeBy f id := by
  obtain ⟨m, hm⟩ := Option.isSome_iff_exists.mp hid
  obtain ⟨m', hm', hl⟩ := h.method? hm
  have hknown := hu.method? hm
  by_cases hpending : m.isPending
  · obtain ⟨text, hsig⟩ : ∃ text, m.signature = .pending text := by
      unfold Method.isPending at hpending
      split at hpending
      · exact ⟨_, ‹_›⟩
      · cases hpending
    have hconsulted : u.consultedBy id = text.names.flatMap (u.types.consulted m.owner text.own) := by
      simp [consultedBy, hm, hsig]
    -- Nothing that is tried was registered on the way, wherever on it the text was processed.
    have hread {s : TypeStore} (hs : s.WellFormed) (hto : u.types.Extends s) (hfrom : s.Grows u'.types) :=
      described_stays hf hto hu.types hn hs id m.kind hknown.owner text fun q hq => by
        refine hto.names.classNamed fun p hp hnew heq => ?_
        obtain ⟨new, hnames, -⟩ := hfrom.names
        refine hfree p (hnames ▸ List.mem_append_right _ hp) hnew ?_
        rw [hconsulted, heq]
        exact hq
    rw [outcomeBy_of_pending f hm hsig]
    rcases h.texts id m text m' hm hsig hm' with hpending' | ⟨s, hs, hto, hfrom, hshows⟩
    · rw [outcomeBy_of_pending f hm' hpending', hl.kind, hl.owner]
      exact (hread hu'.types h.types (.refl _)).symm
    · obtain ⟨hlead, hd⟩ := SignatureDraft.ofText_works (g := hs.reading) id m.kind m.owner text (.inl trivial) hs.sound
      have hs' := ((growth hs.reading).sound hlead hs.sound).1
      have hn' := (growth_grows hlead).nested (hto.nested hn)
      rw [outcomeBy_of_shows hf hm' hshows hs' hn' hfrom hd]
      exact (hread hs hto ((growth_grows hlead).trans hfrom.toGrows)).symm
  · have hsig := hl.signature hpending
    rw [outcomeBy_of_not_isPending f hm hpending, outcomeBy_of_not_isPending f hm' (hl.not_isPending hpending)]
    have hresolved : m'.isResolved = m.isResolved := by
      unfold Method.isResolved
      rw [hsig]
    rw [hresolved]
    split
    · rename_i hr
      obtain ⟨-, hparams, hreturns, hthrows, htypeParams⟩ := hl.resolved hr
      have htypes : m'.types = m.types := by
        rw [Method.types, hparams, hreturns, hthrows, htypeParams, Method.types]
      rw [htypes, hf.stays h.types hu.types hn hknown.types]
    · rfl

/-- A request for the signature of a callable gives types with the same names at a later time,
as long as no class is registered meanwhile under a qualified name that is tried for a name in
its text. -/
theorem Keeps.signatureOutcome (h : u.Keeps u') (hu : u.WellFormed) (hn : u.types.Nested) (hu' : u'.WellFormed)
    (hid : u.Has id) (hfree : u.Undisturbed u' id) : u'.signatureOutcome id = u.signatureOutcome id := by
  rw [← outcomeBy_names, ← outcomeBy_names]
  exact h.outcomeBy steady_names hu hn hu' hid hfree

/-! ## Comparing signatures

Tables compare signatures by the erasures of their parameters, which is one of the
descriptions.
-/

/-- Of callables that have been looked at, those have the same signature that come out with
the same erased parameter types. -/
theorem sameSignature_iff {a b : MethodId} (ha : u.Processed a) (hb : u.Processed b) :
    u.sameSignature a b ↔ ∃ es, u.outcomeBy SignatureTypes.erased a = some es ∧ u.outcomeBy SignatureTypes.erased b = some es := by
  obtain ⟨m, hm, hpending⟩ := ha
  obtain ⟨m', hm', hpending'⟩ := hb
  rw [outcomeBy_of_not_isPending _ hm hpending, outcomeBy_of_not_isPending _ hm' hpending']
  unfold sameSignature
  rw [method_eq hm, method_eq hm']
  simp only [Bool.and_eq_true, decide_eq_true_eq, Option.ite_none_right_eq_some, Option.some.injEq]
  constructor
  · rintro ⟨⟨hr, hr'⟩, heq⟩
    exact ⟨_, ⟨hr, rfl⟩, hr', heq.symm⟩
  · rintro ⟨es, ⟨hr, heq⟩, hr', heq'⟩
    exact ⟨⟨hr, hr'⟩, heq.trans heq'.symm⟩

/-- Two universes that came from one compare two callables of it alike, when both have looked
at them and neither has registered a class under a name that is tried for them. -/
theorem Keeps.sameSignature_apart {u₀ : Universe} (h : u₀.Keeps u) (h' : u₀.Keeps u') (h₀ : u₀.WellFormed) (hn : u₀.types.Nested)
    (hu : u.WellFormed) (hu' : u'.WellFormed) {a b : MethodId}
    (ha : u₀.Has a ∧ u.Processed a ∧ u'.Processed a) (hb : u₀.Has b ∧ u.Processed b ∧ u'.Processed b)
    (hfree : ∀ id, u₀.Has id → u₀.Undisturbed u id ∧ u₀.Undisturbed u' id) : u'.sameSignature a b = u.sameSignature a b := by
  have houtcome {id : MethodId} (hid : u₀.Has id) :
      u'.outcomeBy SignatureTypes.erased id = u.outcomeBy SignatureTypes.erased id :=
    (h'.outcomeBy steady_erased h₀ hn hu' hid (hfree id hid).2).trans (h.outcomeBy steady_erased h₀ hn hu hid (hfree id hid).1).symm
  rw [Bool.eq_iff_iff, sameSignature_iff ha.2.2 hb.2.2, sameSignature_iff ha.2.1 hb.2.1, houtcome ha.1, houtcome hb.1]

end Universe

end CallResolution
