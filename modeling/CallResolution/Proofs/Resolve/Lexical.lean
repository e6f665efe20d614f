import CallResolution.Proofs.Resolve.Competing

/-!
# The classes around a call

The search for a method by name alone goes outward through the frames around the call. The
first frame whose class lists methods of the name decides, and its methods compete. Whether a
frame offers a method that the call could be bound to is judged by what never changes once the
frame has been weighed: its table stays, and so do the signatures of what the table lists. So
what the search has seen on the way holds in every later session.

The frames are searched twice when nothing is selected: once for the frame that sees the name,
and once behind it for a method that is hidden. The second search makes tables that the first
one did not need, and may process signatures. `Weighs` is what such a search has found out
about a type, without saying when; that it stays is `Keeps.weighs`, and it is what makes the
report about a hidden method a statement about the session that the call leaves behind.

Main statements: `selectLexically_works`, `hiddenBehind_works` and `Keeps.weighs`.
-/

namespace CallResolution

namespace Universe

variable {u u' : Universe} {env : Env} {typeArgs args : List TypeId} {phases : List Phase} {name : String}

/-! ## Weighing what a class lists

A type offers a method when one that it lists competes and accepts the arguments. The three
parts of this are settled at different moments, and stay settled.
-/

/-- Whether a method competes for a call is settled once its signature has been looked at. -/
theorem Keeps.competes (h : u.Keeps u') (hu : u.WellFormed) (henv : KnowsEnv u.types env) {search : TypeId}
    (hsearch : u.types.Knows search) {q : Option Qualifier} (hq : KnowsQualifier u.types q) {s : Shadow}
    (hs : u.Processed s.method) : u'.competes env search q s = u.competes env search q s := by
  obtain ⟨m, hm, hpending⟩ := hs
  obtain ⟨m', hm', hlater⟩ := h.method? hm
  have hresolved : m'.isResolved = m.isResolved := by
    unfold Method.isResolved
    rw [hlater.signature hpending]
  unfold Universe.competes
  dsimp only
  rw [method_eq hm, method_eq hm', hresolved, memberAccessible_later hlater,
    h.types.memberAccessible hu.types henv (hu.method? hm).owner hsearch hq]

/-- Whether arguments convert to the parameters of a method is settled once its signature is
sound. -/
theorem Keeps.convertsAll (h : u.Keeps u') (hu : u.WellFormed) (hargs : ∀ t ∈ args, u.types.Knows t) {id : MethodId}
    (hid : (u.method id).isResolved) :
    u'.types.convertsAll args (u'.method id).params = u.types.convertsAll args (u.method id).params := by
  rw [((h.later hid).resolved hid).2.1]
  exact TypeStore.allConvert_congr fun a ha p hp => h.types.invocationConverts hu.types (hargs a ha) ((hu.method id).params p hp)

/-- The methods of a name that a type lists and that compete for a call by name alone. There
is no receiver, so access is judged by the classes around the call and the type of the frame.
-/
def rivals (u : Universe) (env : Env) (t : TypeId) (shadows : List Shadow) : List MethodId :=
  (shadows.filter (u.competes env t none)).map (·.method)

/-- A type offers a method of a name to a call: a listed one competes and accepts the
arguments in an enabled phase. A type without a table offers nothing. -/
def Offers (u : Universe) (phases : List Phase) (env : Env) (typeArgs args : List TypeId) (name : String) (t : TypeId) : Prop :=
  ∃ shadows, u.listed t name = some shadows ∧
    ∃ ph ∈ phases, ∃ id ∈ u.rivals env t shadows, (u.acceptance typeArgs args ph id).isSome

/-- Whether a type offers a method has been found out: its table is made or will never be, and
the signatures and parameters of what it lists are settled. The answer is a parameter, so that
both answers are covered by one statement. -/
structure Weighs (u : Universe) (phases : List Phase) (env : Env) (typeArgs args : List TypeId) (name : String) (t : TypeId)
    (offers : Prop) : Prop where
  /-- Whether there is an offer. -/
  offers_iff : u.Offers phases env typeArgs args name t ↔ offers
  /-- What the table lists. -/
  listed : u.Tableless t ∨ ∃ shadows, u.listed t name = some shadows ∧ (∀ s ∈ shadows, u.Processed s.method) ∧
    ∀ id ∈ u.rivals env t shadows, (u.method id).isResolved ∧ u.Settled typeArgs id

/-- A type without a table offers nothing. -/
theorem Tableless.weighs {t : TypeId} (h : u.Tableless t) : u.Weighs phases env typeArgs args name t False where
  offers_iff := by simp [Offers, h.listed]
  listed := .inl h

/-- A type whose table lists no method of the name offers nothing. -/
theorem weighs_of_listed_nil {t : TypeId} (h : u.listed t name = some []) :
    u.Weighs phases env typeArgs args name t False where
  offers_iff := by simp [Offers, h, rivals]
  listed := .inr ⟨[], h, by simp, by simp [rivals]⟩

/-- A selection among what a type lists tells whether it offers something. Nothing selected
means that every listed method was looked at in every phase. -/
theorem Decides.weighs {t : TypeId} {shadows : List Shadow} {sel : Option Selection} (hlisted : u.listed t name = some shadows)
    (hprocessed : ∀ s ∈ shadows, u.Processed s.method)
    (h : u.Decides phases typeArgs args (u.rivals env t shadows) sel) :
    u.Weighs phases env typeArgs args name t sel.isSome where
  offers_iff := by
    unfold Offers
    simp only [hlisted, Option.some.injEq, exists_eq_left']
    exact h.chooses.isSome_iff.symm
  listed := .inr ⟨shadows, hlisted, hprocessed, fun id hid => ⟨h.resolved id hid, h.settled id hid⟩⟩

/-- What has been weighed keeps its weight. So the answers that the search and the report have
come to, at different times, may be put together in the last session. -/
theorem Keeps.weighs (h : u.Keeps u') (hu : u.WellFormed) (henv : KnowsEnv u.types env)
    (htypes : ∀ t ∈ typeArgs, u.types.Knows t) (hargs : ∀ t ∈ args, u.types.Knows t) {t : TypeId} (ht : u.types.Knows t)
    {offers : Prop} (hw : u.Weighs phases env typeArgs args name t offers) :
    u'.Weighs phases env typeArgs args name t offers := by
  obtain ⟨hiff, hnone | ⟨shadows, hlisted, hprocessed, hrivals⟩⟩ := hw
  · have hno : ¬ offers := by simp [← hiff, Offers, hnone.listed]
    have hlater : u'.Weighs phases env typeArgs args name t False := ((h.tableless_iff ht).mpr hnone).weighs
    exact ⟨hlater.offers_iff.trans (by simp [hno]), hlater.listed⟩
  · have hlisted' := h.listed ht hlisted
    have hsame : u'.rivals env t shadows = u.rivals env t shadows := by
      unfold rivals
      rw [List.filter_congr fun s hs => h.competes hu henv ht (fun q hq => by simp at hq) (hprocessed s hs)]
    refine ⟨?_, .inr ⟨shadows, hlisted', fun s hs => h.processed (hprocessed s hs), fun id hid => ?_⟩⟩
    · rw [← hiff]
      unfold Offers
      simp only [hlisted, hlisted', Option.some.injEq, exists_eq_left', hsame]
      refine exists_congr fun ph => and_congr_right fun _ => exists_congr fun id => and_congr_right fun hid => ?_
      rw [h.acceptance hu htypes hargs (hrivals id hid).1 (hrivals id hid).2]
    · rw [hsame] at hid
      obtain ⟨hresolved, hsettled⟩ := hrivals id hid
      obtain ⟨f, -, -, hf⟩ := h.settled_formals hu htypes hresolved hsettled
      refine ⟨h.isResolved hresolved, ?_⟩
      unfold Settled
      rw [hf]

/-! ## The frame that sees a name

A frame without a table, like one of a bad class, lists nothing and is passed by. The frames
keep their places when the search goes through a part of them, so they are numbered first.
-/

/-- The first of some frames whose class lists methods of a name, and these methods. Whether
one of them competes plays no part: a name is seen by being listed. -/
structure Sees (u : Universe) (name : String) (frames : List (Frame × Nat)) (i : Nat) (f : Frame) (shadows : List Shadow) :
    Prop where
  /-- The frames before it list no such method. -/
  first : ∃ inner outer, frames = inner ++ (f, i) :: outer ∧ ∀ p ∈ inner, u.listed p.1.type name = some []
  /-- The methods that the frame lists. -/
  listed : u.listed f.type name = some shadows
  /-- There is one. -/
  ne_nil : shadows ≠ []

/-- Frames of known classes, each with its place. -/
def KnowsFrames (s : TypeStore) (frames : List (Frame × Nat)) : Prop :=
  ∀ p ∈ frames, s.Knows p.1.type

/-- The frames around a call, numbered. -/
theorem knowsFrames_zipIdx {s : TypeStore} (henv : KnowsEnv s env) : KnowsFrames s env.frames.zipIdx :=
  fun p hp => henv p.1 (List.mem_of_getElem? (List.mem_zipIdx_iff_getElem?.mp hp))

theorem KnowsFrames.grows {s s' : TypeStore} {frames : List (Frame × Nat)} (hf : KnowsFrames s frames) (h : s.Grows s') :
    KnowsFrames s' frames :=
  fun p hp => h.knows (hf p hp)

/-- The frame that sees a name is one of the frames. -/
theorem Sees.mem {frames : List (Frame × Nat)} {i : Nat} {f : Frame} {shadows : List Shadow}
    (h : u.Sees name frames i f shadows) : (f, i) ∈ frames := by
  obtain ⟨inner, outer, rfl, -⟩ := h.first
  simp

/-- A frame that sees a name stands at its place, and its class is not bad. -/
theorem Sees.frame {i : Nat} {f : Frame} {shadows : List Shadow} (h : u.Sees name env.frames.zipIdx i f shadows)
    (henv : KnowsEnv u.types env) : u.types.Genuine f.type ∧ env.frame i = f :=
  ⟨⟨knowsFrames_zipIdx henv _ h.mem, not_isBad_of_listed h.listed⟩,
    by simp [Env.frame, List.mem_zipIdx_iff_getElem?.mp h.mem]⟩

/-- A frame that sees a name has a class. -/
theorem Sees.isSome {frames : List (Frame × Nat)} {i : Nat} {f : Frame} {shadows : List Shadow}
    (h : u.Sees name frames i f shadows) : f.type.isSome := by
  have hmembers := hasMembers_of_listed h.listed
  refine bne_iff_ne.mpr fun hnone => ?_
  simp [hasMembers, TypeStore.isArray, TypeShape.isArray, TypeStore.classOf, TypeStore.shape, hnone, TypeId.isSome] at hmembers

/-- The methods that a frame sees are listed. -/
theorem Sees.listedShadow {frames : List (Frame × Nat)} {i : Nat} {f : Frame} {shadows : List Shadow}
    (h : u.Sees name frames i f shadows) (hsound : ∀ s ∈ shadows, u.SoundShadow s) : ∀ s ∈ shadows, u.ListedShadow s :=
  fun s hs => ⟨hsound s hs, fun _ hid => .of_overloads h.listed hs hid⟩

/-- A frame that sees a name still does later. -/
theorem Keeps.sees (h : u.Keeps u') {frames : List (Frame × Nat)}
    (hf : KnowsFrames u.types frames) {i : Nat} {f : Frame} {shadows : List Shadow} (hsees : u.Sees name frames i f shadows) :
    u'.Sees name frames i f shadows := by
  have hmem := hsees.mem
  obtain ⟨⟨inner, outer, rfl, hinner⟩, hlisted, hne⟩ := hsees
  refine ⟨⟨inner, outer, rfl, fun p hp => h.listed (hf p (by simp [hp])) (hinner p hp)⟩, ?_, hne⟩
  exact h.listed (hf _ hmem) hlisted

/-- What the search for the first frame that sees a name finds. It stops at a frame whose
class has no table, as at one that sees the name. -/
def Finds (u : Universe) (name : String) (frames : List (Frame × Nat)) :
    Except TableFault (Option (Nat × Frame × List Shadow)) → Prop
  | .error _ => ∃ inner p outer, frames = inner ++ p :: outer ∧ (∀ q ∈ inner, u.listed q.1.type name = some []) ∧
      u.Tableless p.1.type
  | .ok none => ∀ p ∈ frames, u.listed p.1.type name = some []
  | .ok (some (i, f, shadows)) => u.Sees name frames i f shadows

/-- A frame that lists no method of the name is passed by. -/
theorem Finds.cons {p : Frame × Nat} {frames : List (Frame × Nat)}
    {r : Except TableFault (Option (Nat × Frame × List Shadow))} (hp : u.listed p.1.type name = some [])
    (h : u.Finds name frames r) : u.Finds name (p :: frames) r := by
  match r with
  | .error e =>
    obtain ⟨inner, q, outer, rfl, hinner, hq⟩ := h
    exact ⟨p :: inner, q, outer, rfl, by simpa [hp] using hinner, hq⟩
  | .ok none => simpa [Finds, hp] using h
  | .ok (some (i, f, shadows)) =>
    obtain ⟨⟨inner, outer, rfl, hinner⟩, hlisted, hne⟩ := h
    exact ⟨⟨p :: inner, outer, rfl, by simpa [hp] using hinner⟩, hlisted, hne⟩

/-- What letting the methods of the first frame that sees a name compete gives. The selection
may be empty, and the frames further out are not asked then. -/
def FindsChoice (u : Universe) (phases : List Phase) (env : Env) (typeArgs args : List TypeId) (name : String)
    (frames : List (Frame × Nat)) : Except TableFault (Option (Nat × Frame × List Shadow × Option Selection)) → Prop
  | .error e => u.Finds name frames (.error e)
  | .ok none => u.Finds name frames (.ok none)
  | .ok (some (i, f, shadows, sel)) => u.Sees name frames i f shadows ∧ (∀ s ∈ shadows, u.SoundShadow s) ∧
      (∀ s ∈ shadows, u.Processed s.method) ∧ u.Decides phases typeArgs args (u.rivals env f.type shadows) sel

end Universe

namespace Session

open Universe

variable {st : Session} {env : Env} {args : List TypeId}

/-- The first frame that sees a name is found, with sound overloads. -/
theorem seeing_works {u : Universe} (name : String) {frames : List (Frame × Nat)} (hf : KnowsFrames u.types frames) :
    Works binding (seeing name frames) u fun r u' => u'.Finds name frames r ∧
      ∀ i f shadows, r = .ok (some (i, f, shadows)) → ∀ s ∈ shadows, u'.SoundShadow s := by
  induction frames generalizing u with
  | nil => exact Works.ret ⟨by simp [Finds], by simp⟩
  | cons p rest ih =>
    obtain ⟨f, i⟩ := p
    unfold seeing
    have hknown := hf (f, i) (by simp)
    refine (memberTable_works hknown).bind fun r u₁ _ hl₁ hr => ?_
    cases r with
    | error e => exact Works.ret ⟨⟨[], (f, i), rest, rfl, by simp, hr⟩, by simp⟩
    | ok table =>
      have hlisted : u₁.listed f.type name = some (table.overloads name) := by simp [listed, hr.2]
      dsimp only
      split
      · rename_i hnil
        rw [hnil] at hlisted
        have hrest : KnowsFrames u₁.types rest :=
          fun p hp => hl₁.2.types.knows (hf p (by simp [hp]))
        refine (ih hrest).mono fun r u₂ _ hl₂ h => ⟨h.1.cons ?_, h.2⟩
        exact hl₂.2.listed (hl₁.2.types.knows hknown) hlisted
      · rename_i hne
        refine Works.ret ⟨⟨⟨[], rest, rfl, by simp⟩, hlisted, hne⟩, ?_⟩
        rintro i' f' shadows heq s hs
        cases heq
        exact hr.1.overloads hs

/-- Searching for the innermost frame that sees a name. -/
theorem innermostSeeing_works {u : Universe} (name : String) {frames : List (Frame × Nat)}
    (hf : KnowsFrames u.types frames) : Works binding (innermostSeeing name frames) u fun _ _ => True := by
  induction frames generalizing u with
  | nil => exact Works.ret trivial
  | cons p rest ih =>
    unfold innermostSeeing
    refine (overloadsIn_works (hf p (by simp)) name).bind fun r u₁ _ hl₁ _ => ?_
    cases r with
    | nil => exact ih fun p hp => hl₁.2.types.knows (hf p (by simp [hp]))
    | cons _ _ => exact Works.ret trivial

/-- The frame that sees a name is found again, although tables that are missing count as empty
here. -/
theorem innermostSeeing_of_sees {u : Universe} {name : String} {frames : List (Frame × Nat)}
    (hf : KnowsFrames u.types frames) {i : Nat} {f : Frame} {shadows : List Shadow} (h : u.Sees name frames i f shadows) :
    Works binding (innermostSeeing name frames) u fun r _ => r = some (f, i) := by
  obtain ⟨⟨inner, outer, rfl, hinner⟩, hlisted, hne⟩ := h
  induction inner generalizing u with
  | nil =>
    have hknown := hf (f, i) (by simp)
    refine (overloadsIn_works hknown name).bind fun ss u₁ _ hl₁ h₁ => ?_
    have hlisted₁ := hl₁.2.listed hknown hlisted
    obtain rfl : ss = shadows := by
      rcases h₁.2 with h | ⟨-, hnone⟩
      · exact Option.some.inj (h.symm.trans hlisted₁)
      · simp [hnone.listed] at hlisted₁
    cases ss with
    | nil => exact absurd rfl hne
    | cons _ _ => exact Works.ret rfl
  | cons p inner ih =>
    have hknown := hf p (by simp)
    refine (overloadsIn_works hknown name).bind fun ss u₁ _ hl₁ h₁ => ?_
    have hnil₁ := hl₁.2.listed hknown (hinner p (by simp))
    obtain rfl : ss = [] := by
      rcases h₁.2 with h | ⟨h, -⟩
      · exact Option.some.inj (h.symm.trans hnil₁)
      · exact h
    refine ih (hl₁.2.listed (hf (f, i) (by simp)) hlisted) (fun q hq => ?_) fun q hq => ?_
    · exact hl₁.2.listed (hf q (by simp [hq])) (hinner q (by simp [hq]))
    · exact hl₁.2.types.knows (hf q (List.mem_cons_of_mem _ hq))

/-- The first frame that sees the name decides, and its methods compete. -/
theorem selectLexically_works (henv : KnowsEnv st.world.types env) {site : Site}
    (htypes : ∀ t ∈ site.typeArgs, st.world.types.Knows t) (name : String) {frames : List (Frame × Nat)}
    (hf : KnowsFrames st.world.types frames) :
    Works quietly (selectLexically env site name args frames) st fun r st' =>
      st'.world.FindsChoice st.options.source.phases env site.typeArgs args name frames r := by
  unfold selectLexically
  refine (onUniverse_works (seeing_works name hf)).bind fun r st₁ hst₁ hl₁ hr => ?_
  obtain ⟨⟨hfinds, hsound⟩, -⟩ := hr
  match r with
  | .error e => exact Works.ret hfinds
  | .ok none => exact Works.ret hfinds
  | .ok (some (i, f, shadows)) =>
    have hg := hl₁.2.world.types.toGrows
    have hsound := hsound i f shadows rfl
    refine (selectMethod_works (henv.grows hg) (fun t ht => hg.knows (htypes t ht)) (hg.knows (hf _ (Sees.mem hfinds)))
      (fun x hx => by simp at hx) shadows).bind fun sel st₂ _ hl₂ h₂ => Works.ret ?_
    refine ⟨hl₂.2.world.sees (hf.grows hg) hfinds, fun s hs => hl₂.2.world.soundShadow hst₁.world (hsound s hs),
      fun s hs => h₂.1 s hs (hsound s hs).has, ?_⟩
    rw [← hl₁.2.options]
    exact h₂.2

/-! ## Frames further out

The search behind the frame that sees the name ends at the first frame that offers a method.
-/

/-- A search that selects nothing has weighed the first frame. -/
theorem FindsChoice.weighs {u : Universe} {phases : List Phase} {typeArgs : List TypeId} {name : String} {p : Frame × Nat}
    {frames : List (Frame × Nat)} {r : Except TableFault (Option (Nat × Frame × List Shadow × Option Selection))}
    (h : u.FindsChoice phases env typeArgs args name (p :: frames) r)
    (hnone : ∀ i f shadows sel, r ≠ .ok (some (i, f, shadows, some sel))) :
    u.Weighs phases env typeArgs args name p.1.type False := by
  match r with
  | .error e =>
    obtain ⟨inner, q, outer, heq, hinner, hq⟩ := h
    cases inner with
    | nil =>
      cases heq
      exact hq.weighs
    | cons p' inner =>
      cases heq
      exact weighs_of_listed_nil (hinner p (by simp))
  | .ok none => exact weighs_of_listed_nil (h p (by simp))
  | .ok (some (i, f, shadows, some sel)) => exact absurd rfl (hnone i f shadows sel)
  | .ok (some (i, f, shadows, none)) =>
    obtain ⟨⟨⟨inner, outer, heq, hinner⟩, hlisted, -⟩, -, hprocessed, hdecides⟩ := h
    cases inner with
    | nil =>
      cases heq
      simpa using hdecides.weighs hlisted hprocessed
    | cons p' inner =>
      cases heq
      exact weighs_of_listed_nil (hinner p (by simp))

/-- Searching behind the frame that sees the name weighs the frames until one offers a method.
When none does all of them have been weighed. -/
theorem hiddenBehind_works {x : Unmatched} (henv : KnowsEnv st.world.types x.env)
    (htypes : ∀ t ∈ x.site.typeArgs, st.world.types.Knows t) (hargs : ∀ t ∈ x.args, st.world.types.Knows t)
    {frames : List (Frame × Nat)} (hf : KnowsFrames st.world.types frames) :
    Works quietly (hiddenBehind x frames) st fun r st' =>
      (r.isSome → ∃ p ∈ frames,
        st'.world.Weighs st.options.source.phases x.env x.site.typeArgs x.args x.name p.1.type True) ∧
      (r = none → ∀ p ∈ frames,
        st'.world.Weighs st.options.source.phases x.env x.site.typeArgs x.args x.name p.1.type False) := by
  induction frames generalizing st with
  | nil => exact Works.ret ⟨by simp, by simp⟩
  | cons p rest ih =>
    unfold hiddenBehind
    refine (selectLexically_works henv htypes x.name hf).bind fun r st₁ hst₁ hl₁ h₁ => ?_
    have hg := hl₁.2.world.types.toGrows
    have hargs₁ : ∀ t ∈ x.args, st₁.world.types.Knows t := fun t ht => hg.knows (hargs t ht)
    have htypes₁ : ∀ t ∈ x.site.typeArgs, st₁.world.types.Knows t := fun t ht => hg.knows (htypes t ht)
    have next (hnone : ∀ i f shadows sel, r ≠ .ok (some (i, f, shadows, some sel))) :
        Works quietly (hiddenBehind x rest) st₁ fun r st' =>
          (r.isSome → ∃ q ∈ p :: rest,
            st'.world.Weighs st.options.source.phases x.env x.site.typeArgs x.args x.name q.1.type True) ∧
          (r = none → ∀ q ∈ p :: rest,
            st'.world.Weighs st.options.source.phases x.env x.site.typeArgs x.args x.name q.1.type False) := by
      have hhead := FindsChoice.weighs h₁ hnone
      refine (ih (henv.grows hg) htypes₁ hargs₁ fun q hq => hg.knows (hf q (by simp [hq]))).mono fun r st₂ _ hl₂ h₂ => ?_
      rw [← hl₁.2.options]
      refine ⟨fun hr => ?_, fun hr q hq => ?_⟩
      · obtain ⟨q, hq, hw⟩ := h₂.1 hr
        exact ⟨q, by simp [hq], hw⟩
      · rcases List.mem_cons.mp hq with rfl | hq
        · rw [hl₁.2.options]
          exact hl₂.2.world.weighs hst₁.world (henv.grows hg) htypes₁ hargs₁ (hg.knows (hf q (by simp))) hhead
        · exact h₂.2 hr q hq
    match r with
    | .ok (some (i, f, shadows, some sel)) =>
      obtain ⟨hsees, -, hprocessed, hdecides⟩ := h₁
      refine Works.ret ⟨fun _ => ⟨(f, i), hsees.mem, ?_⟩, by simp⟩
      simpa using hdecides.weighs hsees.listed hprocessed
    | .ok (some (i, f, shadows, none)) => exact next (by simp)
    | .ok none => exact next (by simp)
    | .error e => exact next (by simp)

end Session

end CallResolution
