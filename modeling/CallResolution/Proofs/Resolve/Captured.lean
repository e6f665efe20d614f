import CallResolution.Proofs.Members.Captures
import CallResolution.Proofs.Resolve.MethodCall

/-!
# Captures in sessions

Capture arguments are made without anything starting to wait, and finishing the body of a
class keeps what the universe has. A constructor call of an open local class waits, and is
deferred then.

A local class takes copies of the variables that its body captures, in fields of its own, and
its constructors have a parameter for each of them. What a call passes for such a parameter is
looked up through the frames around the call (`captureArg_works`): the frame that declares the
variable, or a local class on the way to it that holds a copy. An open class on the way
captures the variable as well, so looking an argument up may add to classes; none of them is
finished by it.

`Supplied` is what is known of a bound call: it passes an argument for each capture of a
finished class, or waits for one that is open. It is kept by everything that happens later,
because a finished class captures nothing more.

Main statements: `completeClass_works`, `captureArgs_works` and `attachLocalArgs_works`;
`captureArg_nearest` says which copy of a variable is read.
-/

namespace CallResolution

namespace Universe

variable {u : Universe}

/-- Well-formed universes, which keep what they have. -/
def keeping : Evolution Universe where
  Sound := WellFormed
  Leads u u' := (u.WellFormed → u'.WellFormed) ∧ u.Keeps u'
  refl u := ⟨id, .refl u⟩
  trans h h' := ⟨fun hs => h'.1 (h.1 hs), h.2.trans h'.2⟩
  sound h := h.1

/-- Finishing the body of a class leaves its table alone. -/
theorem finishBody_works {t : TypeId} (ht : u.types.Knows t) :
    Works keeping (modifyMembers t ({ · with complete := true })) u fun _ u' => u'.methods = u.methods := by
  refine Works.of_sound fun hu => Works.change ⟨fun _ => ?_, Keeps.put rfl fun h => (h.membersOf t).of_same rfl rfl⟩ rfl
  exact hu.put ht (fun _ hid => hu.has_of_declared hid) fun _ h => hu.soundTable h

/-- Giving a callable the parameters for captures says nothing else of it. -/
theorem setCaptureParams_leads (captureParams : List TypeId) (ids : List MethodId) (methods : Array Method)
    (h : keeping.Leads u { u with methods }) :
    keeping.Leads u { u with
      methods := ids.foldl (fun ms id => ms.modify (id.index - 1) ({ · with captureParams })) methods } := by
  induction ids generalizing methods with
  | nil => exact h
  | cons c ids ih =>
    have hl : extension.Leads { u with methods }
        { u with methods := methods.modify (c.index - 1) ({ · with captureParams }) } :=
      modifyMethod_extends (u := { u with methods })
        (fun m _ => ⟨rfl, rfl, rfl, rfl, rfl, fun _ => rfl, fun h => ⟨h, rfl, rfl, rfl, rfl⟩⟩)
        (fun m _ hm => ⟨hm.owner, hm.params, hm.returns, hm.throws, hm.typeParams⟩) (fun _ => rfl) (fun _ => rfl)
    exact ih _ (keeping.trans h ⟨hl.1, hl.2.toKeeps⟩)

/-- A universe that another one leads to while bodies of some classes may be finished. Which
classes is a parameter: none while a callable is looked for, anonymous ones while a call is
bound, and all of them when a step completes one. -/
structure Finishes (mayFinish : Universe → TypeId → Prop) (u u' : Universe) : Prop extends Keeps u u' where
  /-- It was changed by moves. -/
  moves : Moves mayFinish u u'
  /-- Tables were made one after another. -/
  steps : TableSteps u u'

/-- Well-formed universes, in which bodies of some classes may be finished. -/
def finishing (mayFinish : Universe → TypeId → Prop) : Evolution Universe where
  Sound := WellFormed
  Leads u u' := (u.WellFormed → u'.WellFormed) ∧ u.Finishes mayFinish u'
  refl u := ⟨id, .refl u, .refl, .refl⟩
  trans h h' := ⟨fun hs => h'.1 (h.1 hs), h.2.toKeeps.trans h'.2.toKeeps, h.2.moves.trans h'.2.moves, h.2.steps.trans h'.2.steps⟩
  sound h := h.1

/-- A class that was finished is complete. -/
theorem isComplete_completeClass (t : TypeId) (u : Universe) : (completeClass t u).2.isComplete t := by
  rcases completeClass_cases t u with ⟨hcomplete, h⟩ | ⟨-, h⟩
  · rwa [h]
  · rw [h]
    exact congrArg ClassMembers.complete (membersOf_put_self (u := { u with methods := _ }) rfl)

/-- Callables that are still texts were so before they were given the parameters for captures.
-/
theorem exists_of_setCaptureParams (captureParams : List TypeId) (ids : List MethodId) (methods : Array Method) {m : Method}
    (hm : m ∈ ids.foldl (fun ms id => ms.modify (id.index - 1) ({ · with captureParams })) methods) :
    ∃ m₀ ∈ methods, m₀.signature = m.signature := by
  induction ids generalizing methods with
  | nil => exact ⟨m, hm, rfl⟩
  | cons id ids ih =>
    obtain ⟨m₁, hm₁, hsig⟩ := ih _ hm
    obtain ⟨i, hi⟩ := Array.mem_iff_getElem?.mp hm₁
    rcases TypeStore.getElem?_modify_cases hi with hi | ⟨-, m₀, hm₀, rfl⟩
    · exact ⟨m₁, Array.mem_of_getElem? hi, hsig⟩
    · exact ⟨m₀, Array.mem_of_getElem? hm₀, hsig⟩

/-- Finishing a class touches no type variable, no text and no mark. -/
theorem proper_completeClass (t : TypeId) (hu : u.WellFormed) (hk : u.Keeps (completeClass t u).2) (hp : u.Proper) :
    (completeClass t u).2.Proper := by
  rcases completeClass_cases t u with ⟨-, h⟩ | ⟨-, h⟩ <;> rw [h] at hk ⊢
  · exact hp
  · refine ⟨hp.toBounded.evolve hp.types fun m hm text hsig => ?_, hp.toMarked.keeps hu hk rfl rfl⟩
    obtain ⟨m₀, hm₀, hsame⟩ := exists_of_setCaptureParams _ _ _ hm
    exact ⟨m₀, hm₀, hsame.trans hsig⟩

/-- Finishing a class keeps what the universe has. The constructors of the class get a
parameter for each capture, which is the only change to a signature that was processed. -/
theorem completeClass_works {mayFinish : Universe → TypeId → Prop} {t : TypeId} (ht : u.types.Knows t)
    (hmay : mayFinish u t) : Works (finishing mayFinish) (completeClass t) u fun _ u' => u'.isComplete t := by
  refine Works.of_sound fun hu => ?_
  suffices h : Works keeping (completeClass t) u fun _ _ => True from
    have moves : Moves mayFinish u (completeClass t u).2 := .single ⟨hu, .finish ht hmay⟩
    have aside : u.Aside (completeClass t u).2 :=
      ⟨(h hu).1.2, moves.toAnything, proper_completeClass t hu (h hu).1.2, outline_completeClass t u⟩
    fun _ => ⟨⟨(h hu).1.1, (h hu).1.2, moves, .single ⟨hu, .aside aside⟩⟩, isComplete_completeClass t u⟩
  refine Works.read ?_
  dsimp only
  split
  · exact Works.ret trivial
  · refine (finishBody_works ht).bind fun _ u₁ _ _ _ => ?_
    exact (Works.change (R := fun _ _ => True) (setCaptureParams_leads _ _ u₁.methods (keeping.refl u₁)) trivial).bind
      fun _ _ _ _ _ => Works.ret trivial

end Universe

namespace Session

open Universe

variable {st : Session} {id : SiteId} {env : Env} {site : Site}

/-- A step on the universe that keeps what it has, and finishes only anonymous classes. -/
theorem onUniverse_finishing {α : Type} {x : UniverseM α} {P : α → Universe → Prop}
    (h : Works (finishing isAnonymous) x st.world P) :
    Works (resolving id) (onUniverse x) st fun a st' => P a st'.world ∧ st' = { st with world := st'.world } := by
  intro hst
  obtain ⟨⟨hw, hk⟩, hp⟩ := h hst.world
  refine ⟨⟨fun _ => ?_, ⟨hk.toKeeps, rfl, rfl, fun p hp w hw => .inl ⟨p, hp, rfl, hw⟩⟩, .of_moves hk.moves hk.steps rfl⟩, hp, rfl⟩
  exact hst.world_only hk.toKeeps (hw hst.world) rfl rfl

/-! ## Arguments

What reads a captured variable, and that looking it up leaves everything else as it is.
-/

/-- An expression reads a captured variable: under its name, or from the field that holds the
copy of a class. A variable that is not in view was reported, and its argument is of the bad
type. -/
structure Reads (u : Universe) (c : Capture) (e : Expr) : Prop where
  /-- It has the type of the variable, unless this is not in view. -/
  type : e.type = c.type ∨ e.type = .bad
  /-- What is read. The class that holds the copy is the last one on the way. -/
  form : (∃ via, e.form = .localVar c.name via) ∨
    ∃ via t made, via.getLast? = some t ∧ u.types.Knows t ∧ made ∈ u.captures t ∧ made.name = c.name ∧
      e.form = .field (captureFieldName c.name) made.field via

/-- What reads a variable goes on to do so. -/
theorem Reads.moves {u u' : Universe} {mayFinish : Universe → TypeId → Prop} (h : Moves mayFinish u u')
    {c : Capture} {e : Expr} (he : Reads u c e) : Reads u' c e where
  type := he.type
  form := he.form.imp_right fun ⟨via, t, made, hlast, ht, hmade, hname, hform⟩ =>
    ⟨via, t, made, hlast, h.types_extends.knows ht, h.mem_captures ht hmade, hname, hform⟩

/-- The variable itself is read. -/
theorem reads_localRead {u : Universe} (c : Capture) (via : List TypeId) : Reads u c (localRead site c.name c.type via) :=
  ⟨.inl rfl, .inl ⟨via, rfl⟩⟩

/-- The way to a frame ends with its class. -/
theorem getLast?_via {k : Nat} {f : Frame} (h : env.frames[k]? = some f) : (env.via k).getLast? = some f.type := by
  unfold Env.via
  rw [List.getLast?_map, List.getLast?_take, if_neg (Nat.succ_ne_zero k)]
  simp [h]

/-- The copy that the class of a frame holds is read. -/
theorem reads_captureRead {u : Universe} (henv : KnowsEnv u.types env) {c made : Capture} {f : Frame} {k : Nat}
    (hf : env.frames[k]? = some f) (hmade : made ∈ u.captures f.type) (hname : made.name = c.name) :
    Reads u c (captureRead site c.name c.type made.field (env.via k)) :=
  ⟨.inl rfl, .inr ⟨env.via k, f.type, made, getLast?_via hf, henv f (List.mem_of_getElem? hf), hmade, hname, rfl⟩⟩

/-- Open classes on the way to a variable capture it. -/
theorem captureAlong_works {u : Universe} (c : Capture) {frames : List (Frame × Nat)} (hf : KnowsFrames u.types frames) :
    Works binding (captureAlong c frames) u fun r u' =>
      ∀ p ∈ r, ∃ q ∈ frames, q.2 = p.1 ∧ ∃ made ∈ u'.captures q.1.type, made.name = c.name ∧ made.field = p.2 := by
  induction frames generalizing u with
  | nil => exact Works.ret (by simp)
  | cons p rest ih =>
    obtain ⟨f, k⟩ := p
    have hrest : KnowsFrames u.types rest := fun p hp => hf p (by simp [hp])
    unfold captureAlong
    refine Works.read ?_
    split
    · refine (addCapture_works (hf (f, k) (by simp)) c.name c.type).bind fun made u₁ hu₁ hl₁ h₁ => ?_
      have next := ih (hrest.grows hl₁.2.types.toGrows)
      cases made with
      | some made =>
        refine next.bind fun r u₂ _ hl₂ h₂ => Works.ret fun p hp => ?_
        rcases List.mem_cons.mp hp with rfl | hp
        · obtain ⟨hmade, hname⟩ := h₁.2 made rfl
          refine ⟨(f, k), by simp, rfl, made, ?_, hname, rfl⟩
          exact hl₂.2.moves.mem_captures (hl₁.2.types.knows (hf (f, k) (by simp))) hmade
        · obtain ⟨q, hq, h⟩ := h₂ p hp
          exact ⟨q, by simp [hq], h⟩
      | none => exact next.mono fun r _ _ _ h p hp => (h p hp).imp fun q h => ⟨by simp [h.1], h.2⟩
    · exact (ih hrest).mono fun r _ _ _ h p hp => (h p hp).imp fun q h => ⟨by simp [h.1], h.2⟩

/-- A variable that a frame declares is read. -/
theorem readDeclared_works {u : Universe} (henv : KnowsEnv u.types env) (c : Capture) (j : Nat) :
    Works binding (readDeclared env site c j) u fun a u' => Reads u' c a := by
  unfold readDeclared
  split
  · exact Works.ret (reads_localRead c _)
  · have hf : KnowsFrames u.types (env.frames.zipIdx.take j) :=
      fun p hp => knowsFrames_zipIdx henv p (List.mem_of_mem_take hp)
    refine (captureAlong_works c hf).bind fun r u₁ _ hl₁ h₁ => ?_
    cases r with
    | nil => exact Works.ret (reads_localRead c _)
    | cons p _ =>
      obtain ⟨q, hq, hk, made, hmade, hname, hfield⟩ := h₁ p (by simp)
      have hframe : env.frames[p.1]? = some q.1 := hk ▸ List.mem_zipIdx_iff_getElem?.mp (List.mem_of_mem_take hq)
      refine Works.ret ?_
      rw [← hfield]
      exact reads_captureRead (henv.grows hl₁.2.types.toGrows) hframe hmade hname

/-- The capture that is nearest to a call is one of the class of a frame. -/
theorem nearestCapture?_mem {u : Universe} {name : String} {k : Nat} {made : Capture}
    (h : nearestCapture? u env name = some (k, made)) :
    ∃ f, env.frames[k]? = some f ∧ made ∈ u.captures f.type ∧ made.name = name := by
  obtain ⟨q, hq, hfound⟩ := List.exists_of_findSome?_eq_some h
  obtain ⟨c, hc, heq⟩ := Option.map_eq_some_iff.mp hfound
  cases heq
  exact ⟨q.1, List.mem_zipIdx_iff_getElem?.mp hq, captureOf?_mem hc⟩

/-- The argument for a capture is made, and nothing starts to wait. Open classes on the way to
the variable capture it for this. -/
theorem captureArg_works (henv : KnowsEnv st.world.types env) (c : Capture) :
    Works (resolving id) (captureArg env site c) st fun a st' => st'.waiting = st.waiting ∧ Reads st'.world c a := by
  unfold captureArg
  split
  · exact (works_of_quietly (onUniverse_works (readDeclared_works henv c _))).mono fun _ _ _ _ h => ⟨h.2.waiting, h.1.1⟩
  · refine works_getUniverse ?_
    split
    · rename_i k made hnearest
      obtain ⟨f, hf, hmade, hname⟩ := nearestCapture?_mem hnearest
      exact Works.ret ⟨rfl, reads_captureRead henv hf hmade hname⟩
    · refine Works.bind (reportError_works (by decide) site _).self fun _ st₁ _ _ h => Works.ret ⟨?_, .inr rfl, .inl ⟨[], rfl⟩⟩
      exact (congrArg (·.2.waiting) h.2).symm

/-- The arguments for the captures of a class are made, and nothing starts to wait. -/
theorem captureArgs_works (henv : KnowsEnv st.world.types env) (cls : TypeId) :
    Works (resolving id) (captureArgs env site cls) st fun as st' => st'.waiting = st.waiting ∧
      List.Forall₂ (Reads st'.world) (st.world.captures cls) as := by
  refine works_getUniverse ?_
  generalize st.world.captures cls = cs
  induction cs generalizing st with
  | nil =>
    rw [List.mapM_nil]
    exact Works.ret ⟨rfl, .nil⟩
  | cons c cs ih =>
    rw [List.mapM_cons]
    refine (captureArg_works henv c).bind fun a st₁ hst₁ hl₁ h₁ => ?_
    refine (ih (henv.grows hl₁.2.world.types.toGrows)).bind fun as st₂ _ hl₂ h₂ => Works.ret ⟨h₂.1.trans h₁.1, ?_⟩
    exact .cons (h₁.2.moves hl₂.2.moves) h₂.2

/-! ## Waiting

A call that constructs an open class is put on the list of those that wait for it.
-/

/-- A call starts to wait for a known class. -/
theorem wait_works {cls : TypeId} (hcls : st.world.types.Knows cls) (hopen : st.world.isComplete cls = false)
    {w : WaitingSite} (hw : w.site = id) (henv : KnowsEnv st.world.types w.env) :
    Works (resolving id) (wait cls w) st fun _ st' =>
      st'.world = st.world ∧ w ∈ (st'.waiting.lookup cls).getD [] ∧
        ∀ p ∈ st'.waiting, ∀ v ∈ p.2, (∃ p' ∈ st.waiting, p'.1 = p.1 ∧ v ∈ p'.2) ∨ v = w ∧ p.1 = cls := by
  have hentries : ∀ p ∈ Assoc.put cls ((st.waiting.lookup cls).getD [] ++ [w]) st.waiting, ∀ v ∈ p.2,
      (∃ p' ∈ st.waiting, p'.1 = p.1 ∧ v ∈ p'.2) ∨ v = w ∧ p.1 = cls := by
    intro p hp v hv
    rcases mem_put hp with hp | rfl
    · exact .inl ⟨p, hp, rfl, hv⟩
    · rcases List.mem_append.mp hv with hv | hv
      · cases hlookup : st.waiting.lookup cls with
        | none => simp [hlookup] at hv
        | some ws =>
          rw [hlookup] at hv
          exact .inl ⟨(cls, ws), TypeStore.mem_of_lookup hlookup, rfl, hv⟩
      · exact .inr ⟨List.mem_singleton.mp hv, rfl⟩
  refine Works.change ⟨fun hst => ?_, ⟨.refl _, rfl, rfl, fun p hp v hv => ?_⟩,
    ⟨.refl, .refl, fun cls' id' ⟨v, hv, hid⟩ => ⟨v, ?_, hid⟩, fun cls' hknown hdone ⟨p, hp, hkey⟩ => ?_⟩⟩
    ⟨rfl, by rw [Assoc.lookup_put_self]; simp, hentries⟩
  · refine hst.evolve (.refl _) hst.world rfl fun p hp => ⟨?_, fun v hv => ?_⟩
    · rcases mem_put hp with hp | rfl
      · exact (hst.waiting p hp).1
      · exact hcls
    · refine (hentries p hp v hv).imp_right ?_
      rintro ⟨rfl, -⟩
      exact henv
  · refine (hentries p hp v hv).imp_right ?_
    rintro ⟨rfl, -⟩
    exact hw
  · by_cases hkey : cls' = cls
    · subst hkey
      rw [Assoc.lookup_put_self]
      exact List.mem_append_left _ hv
    · rwa [Assoc.lookup_put_of_ne hkey]
  · rcases mem_put hp with hp | rfl
    · exact ⟨p, hp, hkey⟩
    · rw [← hkey, hopen] at hdone
      cases hdone

/-! ## What bound calls pass for captures

The two cases that a constructor call of a local class may end in.
-/

/-- What a resolved call passes for captures: an argument for each capture of the class that
it constructs. A finished class captures nothing more, so the arguments stay as many as the
captures. -/
inductive Passes (u : Universe) (r : Resolution) : Prop
  /-- A method has no captures. -/
  | method (callable : u.IsMethod r.callable)
  /-- The class is finished, and the arguments read what it captures. -/
  | captured {cls : TypeId} (callable : u.Constructs cls r.callable) (finished : u.isComplete cls)
      (reads : List.Forall₂ (Reads u) (u.captures cls) r.localArgs)

/-- What a call passes for captures stays. -/
theorem Passes.moves {u u' : Universe} {mayFinish : Universe → TypeId → Prop} (h : Moves mayFinish u u') (hu : u.WellFormed)
    (hs : u.SoundBodies) {r : Resolution} (hr : Passes u r) : Passes u' r := by
  have hkinds := h.sameKinds hs
  have hknows {cls : TypeId} (hc : u.Constructs cls r.callable) : u.types.Knows cls :=
    hc.owner ▸ hu.types.knows_classOf (hu.method _).owner
  cases hr with
  | method hm => exact .method (hkinds.isMethod hm)
  | captured hc hf hr =>
    obtain ⟨hf', hsame⟩ := h.finished (hknows hc) hf
    refine .captured (hkinds.constructs hu h.types_extends hc) hf' ?_
    rw [hsame]
    exact hr.imp fun _ _ h' => h'.moves h

/-- A call is bound that passes what it has to, or waits for the class to be finished, and
what takes its place reaches what it is bound to. This is said of the session right behind the
binding, compared with that in front of it. -/
structure Supplied (id : SiteId) (r : Resolution) (st st' : Session) : Prop where
  /-- A resolved call passes an argument for each capture. -/
  resolved : r.state = .resolved → Passes st'.world r
  /-- A deferred call constructs an open local class, and waits for it. -/
  deferred : r.state = .deferred → ∃ cls, st'.world.Constructs cls r.callable ∧ st'.world.types.isLocalClass cls ∧
    st'.world.isComplete cls = false ∧ st'.Awaits cls id
  /-- What starts to wait itself does so for the class that it constructs. -/
  waiting : ∀ p ∈ st'.waiting, ∀ w ∈ p.2, (∃ p' ∈ st.waiting, p'.1 = p.1 ∧ w ∈ p'.2) ∨ w.isSuper ∨
    st'.world.Constructs p.1 r.callable
  /-- What takes the place of the call. -/
  lowers : Lowers st'.world r

/-- Whether a call is supplied depends on the universe and on the calls that wait. -/
theorem Supplied.congr {r : Resolution} {st' st'' : Session} (h : Supplied id r st st') (world : st''.world = st'.world)
    (waiting : st''.waiting = st'.waiting) : Supplied id r st st'' where
  resolved := world ▸ h.resolved
  deferred hd := by
    obtain ⟨cls, hc, hlocal, hopen, hawaits⟩ := h.deferred hd
    exact ⟨cls, world ▸ hc, world ▸ hlocal, world ▸ hopen, by rwa [Awaits, waiting]⟩
  waiting p hp := world ▸ h.waiting p (waiting ▸ hp)
  lowers := world ▸ h.lowers

/-- A bound constructor call of a local class gets its arguments or waits for them. Nothing
else of what it is bound to changes. -/
theorem attachLocalArgs_works (henv : KnowsEnv st.world.types env) {cls : TypeId} (hcls : st.world.types.Knows cls)
    (r : Resolution) : Works (resolving site.id) (attachLocalArgs env site cls r) st fun r' st' =>
      (∃ state localArgs, r' = { r with state, localArgs } ∧ (state = r.state ∨ state = .deferred)) ∧
        (st.world.SoundBodies → st.world.Constructs cls r.callable → st.world.types.isLocalClass cls →
          r.state = .resolved → Lowers st.world r → Supplied site.id r' st st') := by
  refine Works.of_sound fun hst => works_getUniverse ?_
  split
  · rename_i hcomplete
    refine (captureArgs_works henv cls).bind fun as st₁ _ hl₁ h₁ => Works.ret ⟨⟨r.state, as, rfl, .inl rfl⟩, ?_⟩
    intro hs hc _ hstate hlowers
    obtain ⟨hcomplete₁, hsame⟩ := hl₁.2.moves.finished hcls hcomplete
    have hlowers₁ := hlowers.moves hl₁.2.moves hst.world
    refine ⟨fun _ => .captured ?_ hcomplete₁ ?_, fun hd => ?_, fun p hp w hw => .inl ⟨p, h₁.1 ▸ hp, rfl, hw⟩,
      hlowers₁.call, hlowers₁.super⟩
    · exact (hl₁.2.moves.sameKinds hs).constructs hst.world hl₁.2.moves.types_extends hc
    · rw [hsame]
      exact h₁.2
    · exact absurd (hstate.symm.trans hd) (by decide)
  · rename_i hopen
    refine (wait_works (w := { site := site.id, env }) hcls (by simpa using hopen) rfl henv).bind fun _ st₁ _ _ h₁ =>
      Works.ret ⟨⟨.deferred, r.localArgs, rfl, .inr rfl⟩, fun _ hc hlocal _ hlowers => ?_⟩
    obtain ⟨hworld, hmem, hentries⟩ := h₁
    refine ⟨fun h => ?_, fun _ => ⟨cls, ?_⟩, fun p hp w hw => ?_, hworld ▸ ⟨hlowers.call, hlowers.super⟩⟩
    · cases h
    · rw [hworld]
      exact ⟨hc, hlocal, by simpa using hopen, _, hmem, rfl, rfl⟩
    · refine (hentries p hp w hw).imp_right ?_
      rintro ⟨-, rfl⟩
      exact .inr (hworld ▸ hc)

/-! ## Reading variables across classes

A captured variable that an outer frame declares is read from the copy of the nearest class
inside that frame which can hold one: a local class that has captured it, or whose body is
open and which captures it now. Classes that are finished without the variable are passed
over, and when there are no others the variable itself is read, although local classes lie
between.
-/

/-- Of the classes inside the `j`-th frame of a call, that of the `k`-th is the innermost that
can hold a copy of a variable. -/
structure NearestHolder (u : Universe) (env : Env) (name : String) (j k : Nat) (f : Frame) : Prop where
  /-- The frame is inside the other one. -/
  inside : k < j
  /-- The frame. -/
  frame : env.frames[k]? = some f
  /-- Its class can hold a copy. -/
  holds : u.CanHold f.type name
  /-- The classes inside it can hold none. -/
  nearest : ∀ k' < k, ∀ f', env.frames[k']? = some f' → ¬ u.CanHold f'.type name

/-- No class inside the `j`-th frame of a call can hold a copy of a variable. With this the
variable is read as it is, across whatever classes lie between. -/
def NoHolder (u : Universe) (env : Env) (name : String) (j : Nat) : Prop :=
  ∀ k < j, ∀ f, env.frames[k]? = some f → ¬ u.CanHold f.type name

/-- An expression reads the copy of a variable from the field that the class of the `k`-th
frame has for it. -/
def ReadsCopy (u : Universe) (env : Env) (site : Site) (c : Capture) (k : Nat) (f : Frame) (e : Expr) : Prop :=
  ∃ made ∈ u.captures f.type, made.name = c.name ∧ e = captureRead site c.name c.type made.field (env.via k)

/-- The first class that captures a variable on the way is the first that can. -/
theorem captureAlong_nearest {u : Universe} (hs : u.SoundBodies) (c : Capture) {frames : List (Frame × Nat)}
    (hf : KnowsFrames u.types frames) :
    Works binding (captureAlong c frames) u fun r u' =>
      (∀ p ∈ frames, ¬ u.CanHold p.1.type c.name) ∧ r = [] ∨
      ∃ inner p outer rest, frames = inner ++ p :: outer ∧ (∀ q ∈ inner, ¬ u.CanHold q.1.type c.name) ∧
        u.CanHold p.1.type c.name ∧ ∃ made ∈ u'.captures p.1.type, made.name = c.name ∧ r = (p.2, made.field) :: rest := by
  refine Works.of_sound fun hu => ?_
  induction frames with
  | nil => exact Works.ret (.inl ⟨by simp, rfl⟩)
  | cons p rest ih =>
    obtain ⟨f, k⟩ := p
    have hknown : u.types.Knows f.type := hf (f, k) (by simp)
    have hrest : KnowsFrames u.types rest := fun p hp => hf p (by simp [hp])
    by_cases hcan : u.CanHold f.type c.name
    · -- This is the first one, whatever the classes around it capture then.
      unfold captureAlong
      refine Works.read ?_
      rw [if_pos (hcan.isLocalClass hs hu.types)]
      refine (addCapture_works hknown c.name c.type).self.bind fun made u₁ _ hl₁ h₁ => ?_
      obtain ⟨made, rfl⟩ : ∃ c, made = some c := by
        have hsome := addCapture_some hcan c.type
        rwa [h₁.2] at hsome
      obtain ⟨hmem, hname⟩ := h₁.1.2 made rfl
      refine (captureAlong_works c (hrest.grows hl₁.2.types.toGrows)).bind fun r u₂ _ hl₂ _ => Works.ret (.inr ?_)
      exact ⟨[], (f, k), rest, r, rfl, by simp, hcan, made,
        hl₂.2.moves.mem_captures (hl₁.2.types.knows hknown) hmem, hname, rfl⟩
    · have hskip : captureAlong c ((f, k) :: rest) u = captureAlong c rest u := by
        conv_lhs => unfold captureAlong
        rw [get_bind_apply]
        split
        · show (addCapture f.type c.name c.type >>= _) u = _
          simp only [bind, StateT.bind, addCapture_none hcan]
        · rfl
      refine Works.congr hskip ((ih hrest).mono fun r u' _ _ h => ?_)
      rcases h with ⟨hnone, hr⟩ | ⟨inner, p, outer, r', hsplit, hnone, hp⟩
      · exact .inl ⟨by simpa [hcan] using hnone, hr⟩
      · exact .inr ⟨(f, k) :: inner, p, outer, r', by rw [hsplit]; rfl, by simpa [hcan] using hnone, hp⟩

/-- The frames inside the `j`-th one, with their places. -/
theorem mem_take_zipIdx {j : Nat} {p : Frame × Nat} :
    p ∈ env.frames.zipIdx.take j ↔ p.2 < j ∧ env.frames[p.2]? = some p.1 := by
  rw [List.mem_take_iff_getElem]
  constructor
  · rintro ⟨k, hk, rfl⟩
    simp only [List.getElem_zipIdx, Nat.zero_add]
    exact ⟨by omega, List.getElem?_eq_getElem _⟩
  · rintro ⟨hlt, hget⟩
    obtain ⟨hlength, hget⟩ := List.getElem?_eq_some_iff.mp hget
    refine ⟨p.2, by simpa using ⟨hlt, hlength⟩, ?_⟩
    simp [hget]

/-- A variable that a frame declares is read from the nearest copy, or itself when no class on
the way can hold one. -/
theorem readDeclared_nearest {u : Universe} (hs : u.SoundBodies) (henv : KnowsEnv u.types env) (c : Capture) (j : Nat) :
    Works binding (readDeclared env site c j) u fun e u' =>
      NoHolder u env c.name j ∧ e = localRead site c.name c.type (if j = 0 then [] else env.via (j - 1)) ∨
      ∃ k f, NearestHolder u env c.name j k f ∧ ReadsCopy u' env site c k f e := by
  unfold readDeclared
  split
  · rename_i hj
    exact Works.ret (.inl ⟨fun k hk => absurd hk (by omega), rfl⟩)
  · have hf : KnowsFrames u.types (env.frames.zipIdx.take j) :=
      fun p hp => knowsFrames_zipIdx henv p (List.mem_of_mem_take hp)
    refine (captureAlong_nearest hs c hf).bind fun r u₁ _ _ h₁ => ?_
    rcases h₁ with ⟨hnone, rfl⟩ | ⟨inner, p, outer, rest, hsplit, hnone, hcan, made, hmade, hname, rfl⟩
    · exact Works.ret (.inl ⟨fun k hk f hframe => hnone (f, k) (mem_take_zipIdx.mpr ⟨hk, hframe⟩), rfl⟩)
    · obtain ⟨hlt, hframe⟩ := mem_take_zipIdx.mp (hsplit ▸ List.mem_append_right inner (List.mem_cons_self ..))
      refine Works.ret (.inr ⟨p.2, p.1, ⟨hlt, hframe, hcan, fun k' hk' f' hf' => ?_⟩, made, hmade, hname, rfl⟩)
      -- A frame further inside comes before this one in the list of all frames.
      have hplace : ∀ q ∈ outer, p.2 < q.2 := by
        have hsorted : (env.frames.zipIdx.take j).Pairwise fun q q' => q.2 < q'.2 := by
          refine List.Pairwise.sublist (List.take_sublist _ _) ?_
          simp [List.pairwise_iff_getElem]
        rw [hsplit, List.pairwise_append] at hsorted
        exact (List.pairwise_cons.mp hsorted.2.1).1
      have hmem : (f', k') ∈ env.frames.zipIdx.take j := mem_take_zipIdx.mpr ⟨by omega, hf'⟩
      rw [hsplit, List.mem_append, List.mem_cons] at hmem
      rcases hmem with hmem | rfl | hmem
      · exact hnone _ hmem
      · exact absurd hk' (by simp)
      · exact absurd (hplace _ hmem) (by simp only; omega)

/-- What passes a captured variable that a frame declares reads the nearest copy, or the
variable itself when no class on the way can hold one. -/
theorem captureArg_nearest (hs : st.world.SoundBodies) (henv : KnowsEnv st.world.types env) (c : Capture) {j : Nat}
    (hj : env.frames.findIdx? (·.hasLocal c.name) = some j) :
    Works (resolving id) (captureArg env site c) st fun e st' =>
      NoHolder st.world env c.name j ∧ e = localRead site c.name c.type (if j = 0 then [] else env.via (j - 1)) ∨
      ∃ k f, NearestHolder st.world env c.name j k f ∧ ReadsCopy st'.world env site c k f e := by
  unfold captureArg
  rw [hj]
  exact (works_of_quietly (onUniverse_works (readDeclared_nearest hs henv c j))).mono fun _ _ _ _ h => h.1.1

end Session

end CallResolution
