import CallResolution.Proofs.Members.Accessors
import CallResolution.Proofs.Members.Broken

/-!
# What callables take

A callable is marked as of variable arity when the text of its last parameter ends in three
dots. A text that ends so is read as an array, if it is read at all, so the last parameter of
a callable with a processed signature is an array. The accessor of a method drops the mark.
The accessor of a constructor keeps it, but takes one more parameter of a placeholder class,
so that its last parameter is none of variable arity.

Callables that are made beside the declared ones take what they were made with for good: the
accessor of a method takes the receiver, unless the method is static, and then what the method
takes; the accessor of a constructor takes one more at the end; the cloning method of arrays
takes nothing. All sites that share an accessor rely on this.

Main statements: `Populated.spreads`, `Populated.accessorTakes` and `Populated.cloneTakes`.
-/

namespace CallResolution

open TypeStore

/-- The last one of some types is an array. -/
def TypeStore.EndsInArray (s : TypeStore) (ts : List TypeId) : Prop :=
  ∃ t, ts.getLast? = some t ∧ s.isArray t

/-- An array stays one. -/
theorem TypeStore.EndsInArray.grows {s s' : TypeStore} {ts : List TypeId} (h : s.EndsInArray ts) (hg : s.Grows s') :
    s'.EndsInArray ts := by
  obtain ⟨t, ht, harray⟩ := h
  refine ⟨t, ht, ?_⟩
  rw [isArray, hg.shape (denotes_of_isArray harray).knows]
  exact harray

/-! ## Drafts

The last parameter of a draft, as the parts of a signature are added.
-/

namespace SignatureDraft

variable {g : Guard} {s s' : TypeStore} {d : SignatureDraft}

/-- Unless there was a fault, the last parameter of a draft is an array. -/
def EndsInArray (s : TypeStore) (d : SignatureDraft) : Prop :=
  d.faults = [] → s.EndsInArray d.params

theorem EndsInArray.grows (h : d.EndsInArray s) (hg : s.Grows s') : d.EndsInArray s' :=
  fun hd => (h hd).grows hg

/-- Nothing is said of a draft with a fault. -/
theorem endsInArray_fault (s : TypeStore) (d : SignatureDraft) (src : String) (f : SignatureFault) :
    (d.fault src f).EndsInArray s :=
  fun h => absurd h (by simp [fault])

/-- A parameter that ends in three dots is an array. It is resolved like the type without the
dots, and a dimension is put on top; a dimension of a type that can be written down makes an
array. -/
theorem addParam_endsInArray (hd : d.Known g s) {src : String} (hdots : (Text.trimBlanks src).endsWith "...") (isLast : Bool) :
    Works (growth g) (d.addParam src isLast) s fun d' s' => d'.EndsInArray s' := by
  unfold addParam
  split
  · exact Works.ret (endsInArray_fault _ _ _ _)
  · split
    · exact Works.ret (endsInArray_fault _ _ _ _)
    · rename_i t hparse _
      refine Works.bind (resolveType_tries hd.scope t) fun r s' _ _ hr => ?_
      cases r with
      | error f => exact Works.ret (endsInArray_fault _ _ _ _)
      | ok p =>
        dsimp only
        split
        · exact Works.ret (endsInArray_fault _ _ _ _)
        · exact Works.ret fun _ => ⟨p, by simp, hr.2.1 (TypeExpr.endsInDots_of_endsWith hparse hdots)⟩

/-- When the last parameter ends in three dots it is an array. -/
theorem addParams_endsInArray (hd : d.Known g s) {srcs : List String} (hdots : Loader.endsVariadic srcs) :
    Works (growth g) (d.addParams srcs) s fun d' s' => d'.EndsInArray s' := by
  induction srcs generalizing s d with
  | nil => cases hdots
  | cons src rest ih =>
    cases rest with
    | nil => exact (addParam_endsInArray hd hdots true).bind fun d' s' _ _ hd' => Works.ret hd'
    | cons src' rest => exact (addParam_works hd src false).bind fun d' s' _ _ hd' => ih hd' hdots

/-- The result leaves the parameters alone. -/
theorem setReturns_endsInArray (hd : d.Known g s) (h : d.EndsInArray s) (kind : CallableKind) (src : String) :
    Works (growth g) (d.setReturns kind src) s fun d' s' => d'.EndsInArray s' := by
  unfold setReturns
  split
  · exact Works.ret h
  · refine Works.bind (typeOfText_tries hd.scope src) fun r s' _ hl _ => ?_
    cases r with
    | error f => exact Works.ret (endsInArray_fault _ _ _ _)
    | ok t => exact Works.ret (h.grows (growth_grows hl))

/-- An exception leaves the parameters alone. -/
theorem addThrown_endsInArray (hd : d.Known g s) (h : d.EndsInArray s) (src : String) :
    Works (growth g) (d.addThrown src) s fun d' s' => d'.EndsInArray s' := by
  unfold addThrown
  refine Works.bind (typeOfText_tries hd.scope src) fun r s' _ hl _ => ?_
  cases r with
  | error f => exact Works.ret (endsInArray_fault _ _ _ _)
  | ok t =>
    refine Works.read ?_
    split
    · exact Works.ret (h.grows (growth_grows hl))
    · exact Works.ret (endsInArray_fault _ _ _ _)

/-- A signature whose last parameter ends in three dots is processed to one whose last
parameter is an array. -/
theorem ofText_endsInArray (id : MethodId) (kind : CallableKind) (owner : TypeId) {text : SignatureText} (hany : g.anyBounds)
    (hdots : Loader.endsVariadic text.params) : Works (growth g) (ofText id kind owner text) s fun d s' => d.EndsInArray s' := by
  refine Works.of_sound fun hs => ?_
  have h0 : Known g s { scope := { cls := owner } } :=
    ⟨by simp [KnowsScope], by simp, by simp, hs.1.knows_predefined (t := .void) (by decide), by simp⟩
  unfold ofText
  refine (declareVariables_works h0 id 0 text.typeParams).bind fun d s₁ _ _ hd => ?_
  refine (setBounds_works hd d.typeVars hd.typeVars (.inl hany)).bind fun d s₂ _ _ hd => ?_
  refine ((addParams_works hd text.params).and (addParams_endsInArray hd hdots)).bind fun d s₃ _ _ hd => ?_
  refine ((setReturns_works hd.1 kind text.returns).and (setReturns_endsInArray hd.1 hd.2 kind text.returns)).bind
    fun d s₄ _ _ hd => ?_
  have hthrown : Works (growth g) (text.throws.foldlM addThrown d) s₄ fun d s' => d.Known g s' ∧ d.EndsInArray s' :=
    Works.foldlM text.throws hd fun src _ d s₅ _ _ hd => (addThrown_works hd.1 src).and (addThrown_endsInArray hd.1 hd.2 src)
  exact hthrown.mono fun _ _ _ _ h => h.2

end SignatureDraft

namespace Universe

variable {mayFinish : Universe → TypeId → Prop} {u u' : Universe} {id : MethodId} {m m' : Method}

/-! ## Callables

What the mark for variable arity says of a callable with a processed signature.
-/

/-- A callable is the accessor of a constructor of variable arity: it takes what the
constructor takes, and one parameter more. -/
structure ForwardsVariadic (u : Universe) (m : Method) : Prop where
  /-- It is a constructor. -/
  isConstructor : m.isConstructor
  /-- It is an accessor. -/
  isAccessor : m.flags.isAccessor
  /-- What it forwards to has a processed signature. -/
  resolved : (u.method m.target).isResolved
  /-- What it forwards to is of variable arity. -/
  variadic : (u.method m.target).flags.isVariadic
  /-- The parameters. -/
  params : ∃ mark, m.params = (u.method m.target).params ++ [mark]

/-- What goes with the mark for variable arity: three dots in the text of the signature, and
once that was processed an array as the last parameter, unless the callable is the accessor of
a constructor. So packing trailing arguments always has an element type to pack them for, with
this exception. -/
structure Spreads (u : Universe) (m : Method) : Prop where
  /-- The text. -/
  text : ∀ text, m.signature = .pending text → Loader.endsVariadic text.params
  /-- The processed signature. -/
  resolved : m.signature = .resolved → u.types.EndsInArray m.params ∨ u.ForwardsVariadic m

/-- The flags, parameters and type variables of a callable with a processed signature stay. -/
theorem Move.later_of_resolved (hs : u.SoundBodies) (hu : u.WellFormed) (h : Move mayFinish u u') (hid : (u.method id).isResolved) :
    (u'.method id).flags = (u.method id).flags ∧ (u'.method id).params = (u.method id).params ∧
      (u'.method id).typeParams = (u.method id).typeParams := by
  have hm := method?_of_isResolved hid
  obtain ⟨m', hm', hsame⟩ := h.sameDeclaration hs hu hm
  rw [method_eq hm']
  refine ⟨hsame.flags, ?_⟩
  rcases (h.origin hs hm').of_old hm with ⟨ps, rfl⟩ | ⟨text, d, hpending, -⟩
  · exact ⟨rfl, rfl⟩
  · have hsignature : (u.method id).signature = .resolved := of_decide_eq_true hid
    rw [hsignature] at hpending
    cases hpending

/-- The accessor of a constructor of variable arity stays one. -/
theorem ForwardsVariadic.move (hs : u.SoundBodies) (hu : u.WellFormed) (h : Move mayFinish u u') (hm : u.ForwardsVariadic m) :
    u'.ForwardsVariadic m := by
  obtain ⟨hflags, hparams, -⟩ := h.later_of_resolved hs hu hm.resolved
  exact ⟨hm.isConstructor, hm.isAccessor, h.isResolved hs hu hm.resolved, hflags ▸ hm.variadic, hparams ▸ hm.params⟩

/-- An accessor that is marked is that of a constructor that is. -/
theorem MakesAccessor.forwardsVariadic {key : AccessorKey} (h : u.MakesAccessor key m) (hm : m.flags.isVariadic) :
    u.ForwardsVariadic m := by
  rcases h.made with ⟨-, rfl⟩ | ⟨-, mark, -, rfl⟩
  · cases hm
  · exact ⟨rfl, rfl, h.resolved, hm, mark, rfl⟩

/-- What goes with the mark for variable arity stays so. -/
theorem Move.spreads (hs : u.SoundBodies) (hu : u.WellFormed) (h : Move mayFinish u u')
    (hi : ∀ id m, u.method? id = some m → m.flags.isVariadic → u.Spreads m) (hm : u'.method? id = some m')
    (hvariadic : m'.flags.isVariadic) : u'.Spreads m' := by
  cases h.origin hs hm with
  | @kept m ps old eq =>
    subst eq
    obtain ⟨htext, hresolved⟩ := hi id m old hvariadic
    refine ⟨htext, fun hsignature => (hresolved hsignature).imp (·.grows h.types_extends.toGrows) fun hforwards => ?_⟩
    obtain ⟨hctor, haccessor, hfinal, hmark, hparams⟩ := hforwards.move hs hu h
    exact ⟨hctor, haccessor, hfinal, hmark, hparams⟩
  | read old reads move eq =>
    obtain ⟨m, text, d, hm, hpending, hdraft, ⟨hfaults, rfl, -⟩ | ⟨-, rfl, -⟩⟩ := reads
    · obtain rfl := Option.some.inj (hm.symm.trans old)
      rw [eq] at hvariadic
      have hdots := (hi id m hm hvariadic).text text hpending
      have hdrafted := (SignatureDraft.ofText_endsInArray (g := hu.types.reading) id m.kind m.owner trivial hdots hu.types.sound).2
      rw [hdraft] at hdrafted
      rw [eq, move]
      exact ⟨fun text' hpending' => (by cases hpending'), fun _ => .inl (hdrafted (by simpa using hfaults))⟩
    · rw [eq]
      exact ⟨fun text' hpending' => (by cases hpending'), fun hresolved => (by cases hresolved)⟩
  | declared new declared =>
    rcases declared.signature with ⟨text, hpending, hmark⟩ | ⟨-, hplain⟩
    · refine ⟨fun text' hpending' => ?_, fun hresolved => ?_⟩
      · rw [hpending] at hpending'
        cases hpending'
        exact hmark ▸ hvariadic
      · rw [hpending] at hresolved
        cases hresolved
    · rw [hplain] at hvariadic
      cases hvariadic
  | accessor new made move =>
    have hforwards := (made.forwardsVariadic hvariadic).move hs hu h
    refine ⟨fun text hpending => ?_, fun _ => .inr hforwards⟩
    rw [made.made_eq.2.2] at hpending
    cases hpending

/-- What goes with the mark for variable arity in an untouched universe. -/
theorem Untouched.spreads (h : u.Untouched) (hm : u.method? id = some m) (hvariadic : m.flags.isVariadic) : u.Spreads m := by
  rw [h.method?] at hm
  have hdeclares := initial_declares.2.1 m (Array.mem_toList_iff.mpr (Array.mem_of_getElem? (getElem?_of_method? hm)))
  refine ⟨fun text hpending => ?_, fun _ => .inl ?_⟩
  · rw [hdeclares.1.2.2] at hpending
    cases hpending
  · obtain ⟨t, ht, harray⟩ := hdeclares.2 hvariadic
    exact EndsInArray.grows ⟨t, ht, harray⟩ h.grown

/-- What goes with the mark for variable arity along a run. -/
theorem Populated.spreads (h : u.Populated) (hm : u.method? id = some m) (hvariadic : m.flags.isVariadic) : u.Spreads m :=
  h.callables (I := fun v _ m => m.flags.isVariadic → v.Spreads m)
    (fun _ hv _ _ hm hvariadic => hv.spreads hm hvariadic)
    (fun hs hv hmove hi _ _ hm hvariadic => hmove.spreads hs hv hi hm hvariadic) hm hvariadic

end Universe

end CallResolution

namespace CallResolution.Universe

variable {mayFinish : Universe → TypeId → Prop} {u u' : Universe} {key : AccessorKey} {acc : Method}

/-! ## Accessors

What accessors take is settled when they are made.
-/

/-- What the accessor for a key takes, once the signature of its member is processed. -/
structure AccessorTakes (u : Universe) (key : AccessorKey) (acc : MethodId) : Prop where
  /-- The signature of the member. -/
  member : (u.method key.member).isResolved
  /-- The signature of the accessor. -/
  resolved : (u.method acc).isResolved
  /-- An accessor of a method takes what the method takes, behind the receiver. -/
  method : key.kind = .method → (u.method acc).params =
    (if (u.method key.member).flags.isStatic then [] else [key.base]) ++ (u.method key.member).params
  /-- An accessor of a constructor takes a mark behind what the constructor takes. -/
  constructor : key.kind = .constructor → ∃ mark, (u.method acc).params = (u.method key.member).params ++ [mark]

/-- What an accessor takes stays. -/
theorem AccessorTakes.move {id : MethodId} (h : u.AccessorTakes key id) (hs : u.SoundBodies) (hu : u.WellFormed)
    (hmove : Move mayFinish u u') : u'.AccessorTakes key id := by
  obtain ⟨hflags, hparams, -⟩ := hmove.later_of_resolved hs hu h.member
  obtain ⟨-, htakes, -⟩ := hmove.later_of_resolved hs hu h.resolved
  refine ⟨hmove.isResolved hs hu h.member, hmove.isResolved hs hu h.resolved, fun hkind => ?_, fun hkind => ?_⟩
  · rw [htakes, hparams, hflags]
    exact h.method hkind
  · rw [htakes, hparams]
    exact h.constructor hkind

/-- What an accessor takes when it is made: the parameters of its member as they are declared,
with the type of the key before them or the mark behind them. -/
theorem MakesAccessor.takes (h : u.MakesAccessor key acc) (hs : u.SoundBodies) (hu : u.WellFormed)
    (hmove : Move mayFinish u (u.withAccessor key acc)) :
    (u.withAccessor key acc).AccessorTakes key ⟨u.methods.size + 1⟩ := by
  obtain ⟨hflags, hparams, -⟩ := hmove.later_of_resolved hs hu h.resolved
  have hnew : (u.withAccessor key acc).method ⟨u.methods.size + 1⟩ = acc := method_eq (method?_withAccessor_self u key acc)
  refine ⟨hmove.isResolved hs hu h.resolved, ?_, fun hkind => ?_, fun hkind => ?_⟩
  · rw [hnew, Method.isResolved, h.made_eq.2.2]
    rfl
  · rw [hnew, hparams, hflags]
    rcases h.made with ⟨-, rfl⟩ | ⟨hctor, -⟩
    · rfl
    · rw [hkind] at hctor
      cases hctor
  · rw [hnew, hparams]
    rcases h.made with ⟨hmethod, -⟩ | ⟨-, mark, -, rfl⟩
    · rw [hkind] at hmethod
      cases hmethod
    · exact ⟨mark, rfl⟩

/-- What the accessors of a run take. -/
theorem Populated.accessorTakes (h : u.Populated) : ∀ p ∈ u.accessors, u.AccessorTakes p.1 p.2 := by
  suffices hboth : u.SoundBodies ∧ ∀ p ∈ u.accessors, u.AccessorTakes p.1 p.2 from hboth.2
  refine h.keeps (I := fun v => v.SoundBodies ∧ ∀ p ∈ v.accessors, v.AccessorTakes p.1 p.2)
    (fun v hv => ⟨hv.soundBodies.1, by simp [hv.accessors]⟩)
    fun {v w} hv hmove hi => ⟨Moves.soundBodies (.single ⟨hv, hmove⟩) hi.1, fun p hp => ?_⟩
  rcases hmove.accessors_cases with ⟨hsame, -⟩ | ⟨key, acc, -, made, rfl⟩
  · exact (hi.2 p (hsame ▸ hp)).move hi.1 hv hmove
  · rcases mem_put hp with hp | rfl
    · exact (hi.2 p hp).move hi.1 hv hmove
    · exact made.takes hi.1 hv hmove

/-! ## The cloning method of arrays

It is made once, and takes nothing; so no call of it packs arguments or has type arguments
that count.
-/

/-- The cloning method of arrays takes nothing and has no type variables, once it is made. -/
def CloneTakesNothing (u : Universe) : Prop :=
  u.arrayClone.isSome → (u.method u.arrayClone).isResolved ∧ (u.method u.arrayClone).params = [] ∧
    (u.method u.arrayClone).typeParams = []

/-- The cloning method of arrays is made with the members of arrays, and then it stays. -/
theorem Move.arrayClone_made (h : Move mayFinish u u') : u'.arrayClone = u.arrayClone ∨
    u'.method u'.arrayClone =
      { name := "clone", owner := .object, access := .pub, flags := { isFinal := true }, returns := .object } := by
  cases h with
  | method => exact .inl (by rw [addMethod_eq])
  | arrayMembers =>
    unfold Universe.arrayMembers
    rw [get_bind_apply]
    split
    · exact .inl rfl
    · have hmade : ∀ v : Universe, v.methods = u.methods.push
          { name := "clone", owner := .object, access := .pub, flags := { isFinal := true }, returns := .object } →
          v.method ⟨u.methods.size + 1⟩ =
            { name := "clone", owner := .object, access := .pub, flags := { isFinal := true }, returns := .object } := by
        intro v hv
        exact method_eq (by simp [method?, hv, MethodId.none])
      exact .inr (hmade _ rfl)
  | @capture t name type _ =>
    rcases addCapture_cases t name type u with ⟨c, -, h⟩ | ⟨-, -, h⟩ | ⟨-, -, h⟩ <;> rw [h] <;> exact .inl rfl
  | @finish t _ _ =>
    rcases completeClass_cases t u with ⟨-, h⟩ | ⟨-, h⟩ <;> rw [h] <;> exact .inl rfl
  | _ => exact .inl rfl

/-- The cloning method of arrays takes nothing along a run. -/
theorem Populated.cloneTakes (h : u.Populated) : u.CloneTakesNothing := by
  suffices hboth : u.SoundBodies ∧ u.CloneTakesNothing from hboth.2
  refine h.keeps (I := fun v => v.SoundBodies ∧ v.CloneTakesNothing)
    (fun v hv => ⟨hv.soundBodies.1, fun hsome => ?_⟩)
    fun {v w} hv hmove hi => ⟨Moves.soundBodies (.single ⟨hv, hmove⟩) hi.1, fun hsome => ?_⟩
  · simp [hv.plain.arrayClone, MethodId.isSome] at hsome
  · rcases hmove.arrayClone_made with hsame | hmade
    · rw [hsame] at hsome ⊢
      obtain ⟨hresolved, hparams, htypeParams⟩ := hi.2 hsome
      obtain ⟨-, htakes, hvariables⟩ := hmove.later_of_resolved hi.1 hv hresolved
      exact ⟨hmove.isResolved hi.1 hv hresolved, htakes.trans hparams, hvariables.trans htypeParams⟩
    · rw [hmade]
      exact ⟨rfl, rfl, rfl⟩

/-- The cloning method of arrays stays once it is made. -/
theorem Moves.arrayClone (h : Moves mayFinish u u') (hsome : u.arrayClone.isSome) : u'.arrayClone = u.arrayClone := by
  refine h.keeps (I := fun v => v.arrayClone = u.arrayClone) (fun _ hmove hv => ?_) rfl
  exact (hmove.arrayClone (hv ▸ hsome)).trans hv

/-- A callable with type variables was no cloning method of arrays at any time. -/
theorem Populated.ne_arrayClone {u₀ : Universe} (h : u.Populated) (hmoves : Moves mayFinish u₀ u) {id : MethodId}
    (htypeParams : (u.method id).typeParams ≠ []) : (id.isSome && id = u₀.arrayClone) = false := by
  by_contra hclone
  obtain ⟨hsome, heq⟩ : id.isSome ∧ id = u₀.arrayClone := by simpa using hclone
  have hsame := hmoves.arrayClone (heq ▸ hsome)
  exact htypeParams (by rw [heq, ← hsame, (h.cloneTakes (hsame ▸ heq ▸ hsome)).2.2])

end CallResolution.Universe
