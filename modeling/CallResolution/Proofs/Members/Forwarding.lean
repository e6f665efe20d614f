import CallResolution.Proofs.Members.Tables
import CallResolution.Resolve.Forwarded

/-!
# Accessors and captures

Accessors, placeholder classes and capture fields are made while calls are bound. Making them
moves the universe along its evolution, and an open class takes every capture it is asked to.

The accessor of a constructor takes a mark behind the arguments: a class that is made once for
each outermost class, under its name with a dollar sign behind it. When that name is taken,
the class that has it is the mark. It is found when what lies outermost is a top-level class,
since the name that is looked for is then the one that was taken (`qualifiedOf_placeholder`);
so the mark is a class, and the accessor takes it (`MakesAccessor.takesMark`).

Main statements: `accessor_works`, `forwardCtor_works` and `addCapture_works`.
-/

namespace CallResolution.Universe

variable {u : Universe}

/-! ## Accessors

Making them, and the calls that go through them.
-/

/-- A declaration without surroundings whose superclass is the root class mentions known types
only. -/
theorem knowsClass_placeholder {s : TypeStore} (hs : s.WellFormed) {name package : String} {flags : ClassFlags} :
    s.KnowsClass { name, package, flags, super := .object } :=
  ⟨hs.knows_none, hs.inheritable_object, by simp, by simp, by simp⟩

/-- A declaration without surroundings whose name ends in a dollar sign is one of a
placeholder. -/
theorem isPlaceholder_placeholder (info : Option ClassInfo) {package : String} {flags : ClassFlags} :
    ClassInfo.IsPlaceholder { name := info.elim "$" (·.name ++ "$"), package, flags, super := .object } := by
  refine ⟨rfl, ?_⟩
  cases info with
  | none => exact ⟨"", rfl⟩
  | some info => exact ⟨info.name, rfl⟩

/-- The placeholder of a top-level class is declared under the name of the class with a dollar
sign behind it. -/
theorem qualifiedOf_placeholder {s : TypeStore} {top : TypeId} (htop : s.TopLevel top) {flags : ClassFlags} :
    let info := s.classInfo? top
    s.qualifiedOf { name := info.elim "$" (·.name ++ "$"), package := info.elim "" (·.package), flags, super := .object } =
      s.qualifiedName top ++ "$" := by
  obtain ⟨info, hinfo, houter⟩ := htop
  have hnone : TypeId.none.isSome = false := rfl
  simp only [hinfo, Option.elim_some]
  rw [TypeStore.qualifiedName, TypeStore.qualifiedWithin, hinfo]
  unfold TypeStore.qualifiedOf
  simp only [TypeStore.joinName, houter, hnone, Bool.false_eq_true, if_false]
  split <;> simp [String.append_assoc]

/-- A declaration of a class that lists no interface fits its kind. -/
theorem fitsKind_placeholder {s : TypeStore} {name package : String} {flags : ClassFlags} (hflags : flags.isInterface = false) :
    s.FitsKind { name, package, flags, super := .object } :=
  ⟨by simp, by simp [hflags]⟩

/-- The placeholder of a class is registered, unless the name of the class with a dollar sign
behind it is taken. In that case nothing is changed, and a top-level class leads to the class
that has the name; a nested class may lead to none, as its qualified name is another one. -/
theorem registerPlaceholder_works {s : TypeStore} (top : TypeId) {flags : ClassFlags} (hflags : flags.isInterface = false) :
    let info := s.classInfo? top
    Works TypeStore.extension (TypeStore.registerClass
      { name := info.elim "$" (·.name ++ "$"), package := info.elim "" (·.package), flags, super := .object }) s fun r s' =>
      match r with
      | .ok t => (s'.shape t).isDeclared
      | .error _ => s' = s ∧ (s.TopLevel top → (s.classNamed? (s.qualifiedName top ++ "$")).isSome) := by
  intro info
  refine Works.of_sound fun hs => TypeStore.extending fun _ => (Works.self <| TypeStore.registerClass_works
    (isPlaceholder_placeholder _) (knowsClass_placeholder hs) hs.genuine_none (fitsKind_placeholder hflags)).mono
      fun r s' _ _ h => ?_
  obtain ⟨hmade, hrun⟩ := h
  cases r with
  | ok t => exact hmade.isDeclared
  | error prev =>
    cases hfree : s.classNamed? (s.qualifiedOf
      { name := info.elim "$" (·.name ++ "$"), package := info.elim "" (·.package), flags, super := .object }) with
    | none =>
      rw [TypeStore.registerClass_eq hfree] at hrun
      cases hrun
    | some taken =>
      rw [TypeStore.registerClass_of_taken hfree] at hrun
      cases hrun
      refine ⟨rfl, fun htop => ?_⟩
      rw [← qualifiedOf_placeholder htop, hfree]
      rfl

/-- A mark that is not bad is remembered. -/
theorem putPlaceholder_works {top t : TypeId} (ht : u.types.Genuine t) (hmark : u.IsMark top t) :
    Works binding (do
      modify fun u => { u with placeholders := Assoc.put top t u.placeholders }
      return t) u fun t' u' => t' = t ∧ u' = { u with placeholders := Assoc.put top t u.placeholders } := by
  refine works_of_move ((Works.change (R := fun _ u' => u' = { u with placeholders := Assoc.put top t u.placeholders })
    (extends_of_same rfl rfl rfl rfl ?_ ?_ (.inl rfl) ?_) rfl).bind fun _ _ _ _ h => Works.ret ⟨rfl, h⟩) (fun _ => .placeholder top t) (fun _ => rfl)
    (fun _ hb => hb.of_same rfl rfl) fun hu hk hm => hm.evolve hu hk (fun p hp => ?_) fun _ hp => .inl hp
  · exact fun _ => .refl _
  · exact fun _ h => .inl h
  · intro p hp
    rcases mem_put hp with hp | rfl
    · exact .inl hp
    · exact .inr ht
  · rcases mem_put hp with hp | rfl
    · exact .inl hp
    · exact .inr (hmark.keeps hu hk)

/-- The placeholder class around a class is known, and nothing but types and placeholders was
touched to get it. -/
structure Marks (u : Universe) (of t : TypeId) (u' : Universe) : Prop where
  /-- The placeholder is known. -/
  known : u'.types.Knows t
  /-- It is remembered. -/
  found : u'.placeholders.lookup (u'.types.outermost of) = some t
  /-- The rest is left alone. -/
  same : u' = { u with types := u'.types, placeholders := u'.placeholders }

/-- The placeholder class around a class is made on first use. -/
theorem placeholder_works {of : TypeId} (hof : u.types.Knows of) :
    Works binding (placeholder of) u fun t u' => u.Marks of t u' := by
  refine Works.of_sound fun hu => Works.read ?_
  dsimp only
  split
  · rename_i t h
    exact Works.ret ⟨hu.placeholders _ (TypeStore.mem_of_lookup h), h, rfl⟩
  · refine (onTypes_works (registerPlaceholder_works (u.types.outermost of) rfl)).bind fun made u₁ hu₁ hl₁ h₁ => Works.read ?_
    obtain ⟨hmade, hsame⟩ := h₁
    have htop := hl₁.2.types.knows (hu.types.knows_outermost hof)
    have remember {t : TypeId} (ht : u₁.types.Genuine t)
        (hmark : u₁.types.TopLevel (u.types.outermost of) → u₁.types.isReference t) : Works binding (do
          modify fun v => { v with placeholders := Assoc.put (u.types.outermost of) t v.placeholders }
          return t) u₁ fun t u' => u.Marks of t u' := by
      refine (putPlaceholder_works ht ⟨htop, hmark⟩).mono fun t' u' _ _ h => ?_
      obtain ⟨rfl, rfl⟩ := h
      refine ⟨ht.1, ?_, ?_⟩
      · rw [show TypeStore.outermost _ of = u.types.outermost of from hl₁.2.types.outermost hu.types hof]
        exact Assoc.lookup_put_self _ _ _
      · rw [hsame]
    cases made with
    | ok id =>
      exact remember (TypeStore.genuine_of_isDeclared hmade) fun _ => TypeStore.isReference_of_isDeclared hmade
    | error prev =>
      cases hn : u₁.types.classNamed? (u₁.types.qualifiedName (u.types.outermost of) ++ "$") with
      | none =>
        refine remember hu₁.types.genuine_none fun htop => ?_
        -- the name that a top-level class calls for is the one that was found to be taken
        obtain ⟨hstays, htaken⟩ := hmade
        rw [hstays] at hn htop
        simpa [hn] using htaken htop
      | some t =>
        have hdeclared := hu₁.types.isDeclared_of_classNamed hn
        exact remember (TypeStore.genuine_of_isDeclared hdeclared) fun _ => TypeStore.isReference_of_isDeclared hdeclared

/-- The accessor of a method mentions known types. -/
theorem methodAccessor_known {s : TypeStore} {key : AccessorKey} {member : Method} (hkey : KnowsKey s key)
    (hm : member.Known s) : (u.methodAccessor key member).Known s where
  owner := hkey.1
  params t ht := by
    simp only [methodAccessor] at ht
    rcases List.mem_append.mp ht with ht | ht
    · split at ht
      · simp at ht
      · rw [List.mem_singleton.mp ht]
        exact hkey.2
    · exact hm.params t ht
  returns := hm.returns
  throws := hm.throws
  typeParams := by simp [methodAccessor]

/-- The accessor of a constructor mentions known types. -/
theorem ctorAccessor_known {s : TypeStore} {key : AccessorKey} {member : Method} {mark : TypeId} (hm : member.Known s)
    (hmark : s.Knows mark) : (ctorAccessor key member mark).Known s where
  owner := hm.owner
  params t ht := by
    simp only [ctorAccessor] at ht
    rcases List.mem_append.mp ht with ht | ht
    · exact hm.params t ht
    · rwa [List.mem_singleton.mp ht]
  returns := hm.returns
  throws := hm.throws
  typeParams := by simp [ctorAccessor]

/-- The accessor of a method has no parameter of the bad type. -/
theorem methodAccessor_genuine {key : AccessorKey} (hbase : u.types.Genuine key.base) (hu : u.Genuine) :
    ∀ t ∈ (u.methodAccessor key (u.method key.member)).params, u.types.Genuine t := by
  intro t ht
  simp only [methodAccessor] at ht
  rcases List.mem_append.mp ht with ht | ht
  · split at ht
    · simp at ht
    · rwa [List.mem_singleton.mp ht]
  · exact hu.method _ t ht

/-- The accessor of a constructor has no parameter of the bad type. -/
theorem ctorAccessor_genuine {key : AccessorKey} {mark : TypeId} (hmark : u.types.Genuine mark) (hu : u.Genuine) :
    ∀ t ∈ (ctorAccessor key (u.method key.member) mark).params, u.types.Genuine t := by
  intro t ht
  simp only [ctorAccessor] at ht
  rcases List.mem_append.mp ht with ht | ht
  · exact hu.method _ t ht
  · rwa [List.mem_singleton.mp ht]

/-- An accessor is added to its class and remembered. -/
theorem addAccessor_extends {key : AccessorKey} {acc : Method} (hacc : acc.Known u.types)
    (genuine : u.Genuine → ∀ t ∈ acc.params, u.types.Genuine t) :
    Works extension (do
      let id ← allocMethod acc
      modifyMembers acc.owner fun c => { c with accessors := c.accessors ++ [id] }
      modify fun u => { u with accessors := Assoc.put key id u.accessors }
      return (id, true)) u fun r u' => r.1 = ⟨u.methods.size + 1⟩ ∧ u' = u.withAccessor key acc := by
  refine Works.mono (P := fun r u' => (r, u') = ((⟨u.methods.size + 1⟩, true), u.withAccessor key acc)) ?_ fun r u' _ _ h => ?_
  · refine Works.mono (Works.self (P := fun _ _ => True) ?_) fun _ _ _ _ h => h.2.symm
    refine (allocMethod_extends (fun _ => hacc) genuine).bind fun id u₁ _ _ h₁ => ?_
    refine (modifyMembers_extends (h₁.2.1 ▸ hacc.owner) ?_ ?_ ?_ ?_).bind fun _ u₂ _ _ _ => ?_
    · exact fun _ => rfl
    · exact fun _ => rfl
    · exact fun _ _ h => .inl h
    · exact fun hc => hc.of_same rfl rfl
    · refine (Works.change (R := fun _ _ => True) (extends_of_same rfl rfl rfl rfl ?_ ?_ (.inl rfl) ?_) trivial).bind
        fun _ _ _ _ _ => Works.ret trivial
      · exact fun _ => .refl _
      · exact fun _ h => .inl h
      · exact fun _ h => .inl h
  · cases h
    exact ⟨rfl, rfl⟩

/-- An accessor that is made takes the mark that its key calls for. -/
theorem MakesAccessor.takesMark {key : AccessorKey} {acc : Method} (made : u.MakesAccessor key acc) (hm : u.Marked)
    (hk : u.Keeps (u.withAccessor key acc)) (hkind : key.kind = .constructor) :
    (u.withAccessor key acc).TakesMark key ⟨u.methods.size + 1⟩ := by
  obtain ⟨hmethod, -⟩ | ⟨-, mark, hlookup, hacc⟩ := made.made
  · cases hkind.symm.trans hmethod
  have hnew : (u.withAccessor key acc).method ⟨u.methods.size + 1⟩ = acc :=
    method_eq (by simp [method?, MethodId.none, withAccessor])
  refine ⟨hk.isResolved made.resolved, ?_, fun htop t ht => ?_⟩
  · rw [hnew, hacc]
    rfl
  · rw [(hk.later made.resolved).owner] at htop
    rw [hnew, hacc] at ht
    obtain rfl : mark = t := by simpa [ctorAccessor] using ht
    exact (hm.placeholders _ (TypeStore.mem_of_lookup hlookup)).2 htop

/-- A made accessor is added to its class and remembered. -/
theorem addAccessor_works {key : AccessorKey} {acc : Method} (hacc : acc.Known u.types)
    (genuine : u.Genuine → ∀ t ∈ acc.params, u.types.Genuine t) (made : u.MakesAccessor key acc) :
    Works binding (do
      let id ← allocMethod acc
      modifyMembers acc.owner fun c => { c with accessors := c.accessors ++ [id] }
      modify fun u => { u with accessors := Assoc.put key id u.accessors }
      return (id, true)) u fun r u' => u'.accessors = Assoc.put key r.1 u.accessors := by
  refine (works_of_move (addAccessor_extends hacc genuine) (fun _ => .accessor hacc.owner made)
    (outline_withAccessor u key acc) (fun _ hb => hb.push rfl rfl made.settled) fun hu hk hm =>
      hm.evolve hu hk (fun _ hp => .inl hp) fun p hp => ?_).mono fun r u' _ _ h => ?_
  · rcases mem_put hp with hp | rfl
    · exact .inl hp
    · exact .inr (made.takesMark hm hk)
  · rw [h.1, h.2]
    rfl

/-- An accessor is made on first use, and is remembered; the other ones stay. A later request
for the same key finds it, whatever receiver the call has that it is made for. -/
theorem accessor_works {key : AccessorKey} (hkey : KnowsKey u.types key) (hbase : ¬ u.types.isBad key.base) :
    Works binding (accessor key) u fun r u' => (r.1.isSome → u'.accessors.lookup key = some r.1) ∧
      (u'.accessors = u.accessors ∨ u'.accessors = Assoc.put key r.1 u.accessors) := by
  refine Works.read ?_
  split
  · rename_i id hfound
    exact Works.ret ⟨fun _ => hfound, .inl rfl⟩
  · rename_i hunmade
    -- processing the member makes no accessors, so the key has none behind it either
    refine (signature_works key.member).self.bind fun ok u₁ hu₁ hl₁ h₁ => ?_
    obtain ⟨⟨hok, -⟩, hrun⟩ := h₁
    have hsame : u₁.accessors = u.accessors := by
      have hleaves : Leaves accessors (signature key.member) :=
        signature_leaves (fun _ _ _ => rfl) (fun _ _ _ _ _ => rfl) key.member
      have hafter := hleaves u
      rw [hrun] at hafter
      exact hafter
    have hunmade₁ : u₁.accessors.lookup key = none := hsame ▸ hunmade
    have hkey₁ : KnowsKey u₁.types key := hkey.grows hl₁.2.types.toGrows
    have hbase₁ : u₁.types.Genuine key.base := hl₁.2.types.toGrows.genuine ⟨hkey.2, hbase⟩
    split
    · rename_i hresolved
      have hresolved₁ : (u₁.method key.member).isResolved := hok ▸ hresolved
      have put {v u' : Universe} {r : MethodId × Bool} (hv : v.accessors = u₁.accessors)
          (h : u'.accessors = Assoc.put key r.1 v.accessors) : (r.1.isSome → u'.accessors.lookup key = some r.1) ∧
            (u'.accessors = u.accessors ∨ u'.accessors = Assoc.put key r.1 u.accessors) := by
        rw [h, hv, hsame]
        exact ⟨fun _ => Assoc.lookup_put_self _ _ _, .inr rfl⟩
      refine Works.read ?_
      cases hkind : key.kind with
      | constructor =>
        refine (placeholder_works (hu₁.method key.member).owner).bind fun mark u₂ _ hl₂ hmark => ?_
        have hmethod : u₂.method key.member = u₁.method key.member := by
          rw [hmark.same]
          rfl
        have haccessors : u₂.accessors = u₁.accessors := by rw [hmark.same]
        have hknown : (ctorAccessor key (u₁.method key.member) mark).Known u₂.types :=
          ctorAccessor_known ((hu₁.method _).grows hl₂.2.types.toGrows) hmark.known
        have hgenuine (hu₂ : u₂.Genuine) : ∀ t ∈ (ctorAccessor key (u₁.method key.member) mark).params, u₂.types.Genuine t := by
          rw [← hmethod]
          exact ctorAccessor_genuine (hu₂.placeholders _ (TypeStore.mem_of_lookup hmark.found)) hu₂
        refine (addAccessor_works hknown hgenuine ⟨?_, ?_, ?_, ?_⟩).mono fun _ _ _ _ h => put haccessors h
        · exact hkey₁.grows hl₂.2.types.toGrows
        · rw [haccessors]
          exact hunmade₁
        · rwa [hmethod]
        · exact .inr ⟨hkind, mark, hmethod ▸ hmark.found, hmethod ▸ rfl⟩
      | method =>
        refine Works.read ?_
        have hmade : u₁.MakesAccessor key _ := ⟨hkey₁, hunmade₁, hresolved₁, .inl ⟨hkind, rfl⟩⟩
        exact (addAccessor_works (methodAccessor_known hkey₁ (hu₁.method _)) (methodAccessor_genuine hbase₁) hmade).mono
          fun _ _ _ _ h => put rfl h
    · exact Works.ret ⟨fun h => (by cases h), .inl hsame⟩

/-- A callable is the accessor that was made for a member. The key says more than the member,
so a member may have several accessors. -/
def Forwards (u : Universe) (acc member : MethodId) : Prop :=
  ∃ key, u.accessors.lookup key = some acc ∧ key.member = member

/-- An accessor stays that of its member. -/
theorem Forwards.moves {mayFinish : Universe → TypeId → Prop} {u' : Universe} {acc member : MethodId} (h : u.Forwards acc member)
    (hmoves : Moves mayFinish u u') : u'.Forwards acc member :=
  h.imp fun _ h => ⟨hmoves.accessor h.1, h.2⟩

/-- A callable is another one, or the accessor that was made for it. -/
def Reaches (u : Universe) (acc member : MethodId) : Prop :=
  acc = member ∨ u.Forwards acc member

/-- What a callable reaches stays. -/
theorem Reaches.moves {mayFinish : Universe → TypeId → Prop} {u' : Universe} {acc member : MethodId} (h : u.Reaches acc member)
    (hmoves : Moves mayFinish u u') : u'.Reaches acc member :=
  h.imp_right (·.moves hmoves)

/-- How the call of an accessor passes arguments on, where expressions have given types. A
static method takes nothing more, any other one the receiver first, and a constructor the
placeholder last. The receiver is passed as what it is, or as its erasure. -/
inductive Passing (u : Universe) (typeOf : Expr → TypeId) (key : AccessorKey) : List Expr → List Expr → Prop
  /-- A static method. -/
  | plain (kind : key.kind = .method) (static : (u.method key.member).flags.isStatic = true) : Passing u typeOf key [] []
  /-- A method that has a receiver. -/
  | receiver {e : Expr} (kind : key.kind = .method) (static : (u.method key.member).flags.isStatic = false)
      (known : u.types.Genuine (typeOf e))
      (base : key.base = typeOf e ∨ TypeStore.erasure (typeOf e) u.types = (key.base, u.types)) : Passing u typeOf key [e] []
  /-- A constructor. -/
  | mark {e : Expr} (kind : key.kind = .constructor) (form : e.form = .placeholder) : Passing u typeOf key [] [e]

/-- The call of an accessor takes the place of the call of a callable of a kind. It passes on
the arguments as they are, with the receiver before them or the mark behind them. -/
def StandsIn (u : Universe) (typeOf : Expr → TypeId) (kind : CallableKind) (args : List Expr) (target : MethodId)
    (call : LoweredCall) : Prop :=
  ∃ key front back, u.accessors.lookup key = some call.callable ∧ key.kind = kind ∧ key.member = target ∧
    call.args = front ++ args ++ back ∧ u.Passing typeOf key front back

/-- What takes the place of a call forwards to what is called. -/
theorem StandsIn.forwards {typeOf : Expr → TypeId} {kind : CallableKind} {args : List Expr} {target : MethodId} {call : LoweredCall}
    (h : u.StandsIn typeOf kind args target call) : u.Forwards call.callable target :=
  h.imp fun _ ⟨_, _, hlookup, _, hmember, _⟩ => ⟨hlookup, hmember⟩

/-- What takes the place of a call goes on to do so. -/
theorem StandsIn.moves {mayFinish : Universe → TypeId → Prop} {u' : Universe} {typeOf : Expr → TypeId} {kind : CallableKind}
    {args : List Expr} {target : MethodId} {call : LoweredCall} (h : u.StandsIn typeOf kind args target call) (hu : u.WellFormed)
    (hkeeps : u.Keeps u') (hmoves : Moves mayFinish u u') (htarget : (u.method target).isResolved) :
    u'.StandsIn typeOf kind args target call := by
  obtain ⟨key, front, back, hlookup, hkind, rfl, hargs, hpassing⟩ := h
  have hstatic : (u'.method key.member).flags = (u.method key.member).flags := (hkeeps.later htarget).flags
  refine ⟨key, front, back, hmoves.accessor hlookup, hkind, rfl, hargs, ?_⟩
  cases hpassing with
  | plain kind static => exact .plain kind (hstatic ▸ static)
  | receiver kind static known base =>
    refine .receiver kind (hstatic ▸ static) (hkeeps.types.toGrows.genuine known) (base.imp_right fun h => ?_)
    have hsettles := (TypeStore.erasure_settles hu.types known.1).2
    rw [h] at hsettles
    exact hsettles _ hkeeps.types
  | mark kind form => exact .mark kind form

/-- A call of an accessor is made. -/
theorem forwarded_works {key : AccessorKey} (args : List Expr) (hkey : KnowsKey u.types key)
    (hbase : ¬ u.types.isBad key.base) :
    Works binding (forwarded key args) u fun r u' =>
      ∀ call ∈ r, u'.accessors.lookup key = some call.callable ∧ call.args = args := by
  refine (accessor_works hkey hbase).bind fun r u₁ _ _ h₁ => Works.ret fun call hcall => ?_
  rw [Option.mem_def, Option.ite_none_right_eq_some] at hcall
  obtain ⟨hsome, hcall⟩ := hcall
  cases hcall
  exact ⟨h₁.1 hsome, rfl⟩

/-- The classes around a call are known. -/
def KnowsEnv (s : TypeStore) (env : Env) : Prop :=
  ∀ f ∈ env.frames, s.Knows f.type

/-- The classes around a call stay known. -/
theorem KnowsEnv.grows {s s' : TypeStore} {env : Env} (henv : KnowsEnv s env) (h : s.Grows s') : KnowsEnv s' env :=
  fun f hf => h.knows (henv f hf)

/-- The class of a frame is known. -/
theorem KnowsEnv.frame {s : TypeStore} (hs : s.WellFormed) {env : Env} (henv : KnowsEnv s env) (i : Nat) :
    s.Knows (env.frame i).type := by
  unfold Env.frame
  cases h : env.frames[i]? with
  | none => simpa [h] using hs.knows_none
  | some f => simpa [h] using henv f (List.mem_of_getElem? h)

/-- The innermost class is known. -/
theorem KnowsEnv.this {s : TypeStore} (hs : s.WellFormed) {env : Env} (henv : KnowsEnv s env) : s.Knows env.this := by
  unfold Env.this
  cases h : env.frames.head? with
  | none => exact hs.knows_none
  | some f => exact henv f (List.mem_of_head? h)

/-- An unqualified call is lowered. -/
theorem forwardUnqualified_works {env : Env} (henv : KnowsEnv u.types env) (site : Site) {id : MethodId} {frame : Nat}
    (hframe : ¬ u.types.isBad (env.frame frame).type) (hid : (u.method id).isResolved) {typeOf : Expr → TypeId}
    (hthis : typeOf { form := .this (env.via frame), type := (env.frame frame).type, span := site.span } = (env.frame frame).type) :
    Works binding (forwardUnqualified env site id frame) u fun r u' =>
      ∀ call ∈ r, u'.StandsIn typeOf .method site.args id call := by
  refine Works.of_sound fun hu => Works.read ?_
  dsimp only
  split
  · exact Works.ret (by simp)
  · rename_i host h
    have hf : u.types.Genuine (env.frame frame).type := ⟨henv.frame hu.types frame, hframe⟩
    have hhost : host = (env.frame frame).type := by
      unfold lexicalHost? at h
      split at h
      · cases h
      · split at h
        · cases h
          rfl
        · split at h
          · cases h
          · cases h
            rfl
        · cases h
    subst hhost
    split
    · rename_i hstatic
      refine (forwarded_works _ ⟨hf.1, hu.types.knows_none⟩ hu.types.genuine_none.2).mono fun r u' _ hl h call hcall => ?_
      obtain ⟨hlookup, hargs⟩ := h call hcall
      refine ⟨_, [], [], hlookup, rfl, rfl, by simp [hargs], .plain rfl ?_⟩
      rw [(hl.2.later hid).flags, hstatic]
    · rename_i hinstance
      refine (forwarded_works _ ⟨hf.1, hf.1⟩ hf.2).mono fun r u' _ hl h call hcall => ?_
      obtain ⟨hlookup, hargs⟩ := h call hcall
      refine ⟨_, [_], [], hlookup, rfl, rfl, by simp [hargs], .receiver rfl ?_ ?_ (.inl hthis.symm)⟩
      · rw [(hl.2.later hid).flags]
        simpa using hinstance
      · rw [hthis]
        exact hl.2.types.toGrows.genuine hf

/-- A call with a receiver is lowered. The accessor takes the type of the receiver or its
erasure, and that is a part of its key. -/
theorem forwardQualified_works {env : Env} (henv : KnowsEnv u.types env) (site : Site) {id : MethodId} (recv : Expr)
    {recvType : TypeId} (hrecv : u.types.Genuine recvType) (hid : (u.method id).isResolved) {typeOf : Expr → TypeId}
    (htype : typeOf recv = recvType) : Works binding (forwardQualified env site id recv recvType) u fun r u' =>
      ∀ call ∈ r, u'.StandsIn typeOf .method site.args id call := by
  refine Works.of_sound fun hu => Works.read ?_
  dsimp only
  split
  · exact Works.ret (by simp)
  · rename_i host h
    have hhost : u.types.Knows host := by
      unfold qualifiedHost? at h
      dsimp only at h
      split at h
      · cases h
      · split at h
        · split at h
          · cases h
            exact (hu.method id).owner
          · cases h
        · split at h
          · cases h
          · obtain ⟨f, hf, rfl⟩ := Option.map_eq_some_iff.mp h
            exact henv f (List.mem_of_find?_eq_some hf)
        · cases h
    split
    · rename_i hstatic
      refine (forwarded_works _ ⟨hhost, hu.types.knows_none⟩ hu.types.genuine_none.2).mono fun r u' _ hl h call hcall => ?_
      obtain ⟨hlookup, hargs⟩ := h call hcall
      refine ⟨_, [], [], hlookup, rfl, rfl, by simp [hargs], .plain rfl ?_⟩
      rw [(hl.2.later hid).flags, hstatic]
    · rename_i hinstance
      refine (onTypes_works <| TypeStore.Settles.works (fun hs => TypeStore.erasure_settles hs hrecv.1)
        fun g => TypeStore.erasure_genuine hrecv).bind fun base u₁ _ hl₁ h₁ => ?_
      obtain ⟨⟨hbase, hsame⟩, -⟩ := h₁
      refine (forwarded_works _ ⟨hl₁.2.types.knows hhost, hbase.1⟩ hbase.2).mono fun r u' _ hl h call hcall => ?_
      obtain ⟨hlookup, hargs⟩ := h call hcall
      have hid₁ := hl₁.2.isResolved hid
      refine ⟨_, [recv], [], hlookup, rfl, rfl, by simp [hargs], .receiver rfl ?_ ?_ (.inr ?_)⟩
      · rw [(hl.2.later hid₁).flags, (hl₁.2.later hid).flags]
        simpa using hinstance
      · rw [htype]
        exact (hl₁.2.types.toGrows.trans hl.2.types.toGrows).genuine hrecv
      · rw [htype]
        exact hsame _ hl.2.types

/-- A constructor call is lowered. -/
theorem forwardCtor_works (cls : TypeId) {id : MethodId} (args : List Expr) (typeOf : Expr → TypeId) :
    Works binding (forwardCtor cls id args) u fun r u' => ∀ call ∈ r, u'.StandsIn typeOf .constructor args id call := by
  refine Works.of_sound fun hu => Works.read ?_
  dsimp only
  split
  · exact Works.ret (by simp)
  · refine (forwarded_works args ⟨(hu.method id).owner, hu.types.knows_none⟩ hu.types.genuine_none.2).bind
      fun r u₁ _ hl₁ h₁ => ?_
    cases r with
    | none => exact Works.ret (by simp)
    | some call =>
      refine (placeholder_works (hl₁.2.types.knows (hu.method id).owner)).bind fun mark u₂ _ _ h₂ =>
        Works.ret fun call' hcall => ?_
      cases hcall
      obtain ⟨hlookup, hargs⟩ := h₁ call rfl
      have hlater : u₂.accessors = u₁.accessors := by rw [h₂.same]
      exact ⟨_, [], [{ form := .placeholder, type := mark }], hlater ▸ hlookup, rfl, rfl, by simp [hargs], .mark rfl rfl⟩

/-- The call of an accessor passes the arguments. -/
theorem args_of_forwarded {key : AccessorKey} {args : List Expr} {call : LoweredCall}
    (h : (forwarded key args u).1 = some call) : call.args = args := by
  have hfst : (forwarded key args u).1 =
      if (accessor key u).1.1.isSome then some ⟨(accessor key u).1.1, args⟩ else none := rfl
  rw [hfst, Option.ite_none_right_eq_some] at h
  rw [← Option.some.inj h.2]

/-- A lowered constructor call passes the arguments, and one more behind them. -/
theorem prefix_of_forwardCtor {cls : TypeId} {id : MethodId} {args : List Expr} {call : LoweredCall}
    (h : (forwardCtor cls id args u).1 = some call) : args <+: call.args := by
  unfold forwardCtor at h
  rw [get_bind_apply] at h
  dsimp only at h
  split at h
  · cases h
  · simp only [bind, StateT.bind] at h
    split at h
    rename_i made u₁ hmade
    cases made with
    | none => cases h
    | some inner =>
      have hinner := args_of_forwarded (congrArg Prod.fst hmade)
      cases h
      simp [hinner]

/-! ## Captures

A class that captures a variable gets a field for it, once.
-/

/-- A class has at most one capture of each name, which is the one that is found. -/
theorem captureOf?_mem {t : TypeId} {name : String} {c : Capture} (h : u.captureOf? t name = some c) :
    c ∈ u.captures t ∧ c.name = name :=
  ⟨List.mem_of_find?_eq_some h, by simpa using List.find?_some h⟩

/-- A capture is no matter of types, callables and marks, and nothing is reported of it. -/
theorem addCapture_same (t : TypeId) (name : String) (type : TypeId) (u : Universe) :
    let u' := (addCapture t name type u).2
    u'.types = u.types ∧ u'.methods = u.methods ∧ u'.placeholders = u.placeholders ∧ u'.accessors = u.accessors ∧
      u'.reports = u.reports := by
  rcases addCapture_cases t name type u with ⟨c, -, h⟩ | ⟨-, -, h⟩ | ⟨-, -, h⟩ <;> rw [h] <;> exact ⟨rfl, rfl, rfl, rfl, rfl⟩

/-- An open class takes every capture, and a capture that is given out is one of the class. -/
theorem addCapture_works {t : TypeId} (ht : u.types.Knows t) (name : String) (type : TypeId) :
    Works binding (addCapture t name type) u fun c u' =>
      (u.isComplete t = false → c.isSome) ∧ ∀ c' ∈ c, c' ∈ u'.captures t ∧ c'.name = name := by
  obtain ⟨htypes, hmethods, hplaceholders, haccessors, -⟩ := addCapture_same t name type u
  refine works_of_move (Works.read ?_) (fun _ => .capture name type ht) (outline_addCapture t name type u)
    (fun _ hb => hb.of_same htypes hmethods) fun hu hk hm => hm.keeps hu hk hplaceholders haccessors
  split
  · rename_i found
    exact Works.ret ⟨fun _ => rfl, fun c' hc => by cases hc; exact captureOf?_mem found⟩
  · split
    · rename_i hcomplete
      exact Works.ret ⟨fun h => by simp [h] at hcomplete, by simp⟩
    · refine (addField_extends ht).bind fun field u₁ _ _ h₁ => ?_
      refine (modifyMembers_extends (h₁ ▸ ht) ?_ ?_ ?_ ?_).bind fun _ u₂ _ _ h₂ => Works.ret ⟨fun _ => rfl, fun c' hc => ?_⟩
      · exact fun _ => rfl
      · exact fun _ => rfl
      · exact fun _ _ h => .inl h
      · exact fun hc => hc.of_same rfl rfl
      · cases hc
        refine ⟨?_, rfl⟩
        unfold captures
        rw [h₂.2.2]
        simp

end CallResolution.Universe
