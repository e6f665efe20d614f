import CallResolution.Document.Program
import CallResolution.Proofs.Document.Classes
import CallResolution.Proofs.Resolve.Progress
import CallResolution.Proofs.Types.Naming

/-!
# Programs of documents

The program that is read from a document mentions known types only, has a class around every
call, and looks at every site once, in the order of their numbers. `Drafted` says so of a
program that is still being read.

A call is read in its surroundings: the classes around it are put together first
(`Surrounds`), then its arguments and its receiver are read among them (`ReadIn`), and last
the site and the step are added (`Drafted.addSite`). What cannot be read becomes an expression
of the bad type or leaves the step out, and is reported; so every document has a program, and
the statements hold of every document.

The last section puts the loading of classes and of the program together. It is where the
invariants of other modules get their start: each says what is so before anything is declared,
or of what is predefined, and loading is shown to lead from there to the universe of the
document, by moves and with headers set first. A run begins with what `load_drafted` says, and
a theorem about all stages of all runs is the one for an arbitrary start applied to
`Loaded.fresh`.

Main statements: `Document.load_drafted` for what is loaded, with `load_populated`,
`load_genuine`, `load_tidy` and the others beside it for the single invariants, and
`Loaded.fresh`, by which a session on a loaded document is fresh.
-/

namespace CallResolution

open TypeStore Universe

/-! ## Classes around a call

The surroundings of a call are a list of frames, the innermost one first, each with a class
and local variables. The list is made from the class that the call stands in and changed frame
by frame.
-/

/-- A class is among the classes around it. -/
theorem TypeStore.enclosing_ne_nil {s : TypeStore} {t : TypeId} (ht : t.isSome) : s.enclosing t ≠ [] := by
  simp [enclosing, enclosingChain, ht]

/-- A class is the innermost of the classes around it. -/
theorem TypeStore.head?_enclosing {s : TypeStore} {t : TypeId} (ht : t.isSome) : (s.enclosing t).head? = some t := by
  simp [enclosing, enclosingChain, ht]

/-- There is a class behind what is declared as one. -/
theorem TypeStore.isSome_classOf {s : TypeStore} {t : TypeId} (h : (s.classInfo? t).isSome) : (s.classOf t).isSome := by
  have hne {c : TypeId} (hc : s.shape c ≠ .absent) : c.isSome := by
    refine bne_iff_ne.mpr ?_
    rintro rfl
    exact hc (by simp [TypeStore.shape])
  cases hshape : s.shape t with
  | declared slot =>
    rw [classOf, hshape]
    exact hne (by simp [hshape])
  | applied base args =>
    rw [classOf, hshape]
    refine hne fun hbase => ?_
    simp [classInfo?, classSlot?, hshape, hbase] at h
  | _ => simp [classInfo?, classSlot?, hshape] at h

namespace Loader

variable {l l' : Loader}

/-- The class of a frame and the types of its local variables are known. -/
def KnowsFrame (s : TypeStore) (f : Frame) : Prop :=
  s.Knows f.type ∧ ∀ v ∈ f.locals, s.Knows v.type

theorem KnowsFrame.grows {s s' : TypeStore} {f : Frame} (hf : KnowsFrame s f) (h : s.Grows s') : KnowsFrame s' f :=
  ⟨h.knows hf.1, fun v hv => h.knows (hf.2 v hv)⟩

/-- The surroundings of a call as they are read: there is a class, and all types are known.
The frames are changed one by one while locals and handled exceptions are read, and this
stays. -/
structure Surrounds (s : TypeStore) (frames : List Frame) : Prop where
  /-- There is a class around the call. -/
  nonempty : frames ≠ []
  /-- The innermost class is declared. -/
  this : ∀ f ∈ frames.head?, (s.shape f.type).isDeclared
  /-- The frames are known. -/
  known : ∀ f ∈ frames, KnowsFrame s f

theorem Surrounds.grows {s s' : TypeStore} {frames : List Frame} (hf : Surrounds s frames) (h : s.Grows s') :
    Surrounds s' frames :=
  ⟨hf.nonempty, fun f hmem => h.isDeclared (hf.this f hmem), fun f hmem => (hf.known f hmem).grows h⟩

/-- The types that the surroundings of a call mention are known. -/
theorem Surrounds.knowsEnv {s : TypeStore} {env : Env} (h : Surrounds s env.frames) : KnowsEnv s env :=
  fun f hf => (h.known f hf).1

/-- The innermost class around a call is declared. -/
theorem Surrounds.isDeclared_this {s : TypeStore} {env : Env} (h : Surrounds s env.frames) : (s.shape env.this).isDeclared := by
  obtain ⟨f, rest, hframes⟩ := List.exists_cons_of_ne_nil h.nonempty
  have hf := h.this f (by simp [hframes])
  simpa [Env.this, hframes] using hf

/-- Changing one frame keeps the surroundings in order. -/
theorem Surrounds.modify {s : TypeStore} {frames : List Frame} (h : Surrounds s frames) (i : Nat) {f : Frame → Frame}
    (hf : ∀ x, KnowsFrame s x → KnowsFrame s (f x)) (htype : ∀ x, (f x).type = x.type) : Surrounds s (frames.modify i f) := by
  refine ⟨fun hnil => h.nonempty ?_, fun x hx => ?_, fun x hx => ?_⟩
  · rw [← List.length_eq_zero_iff, ← List.length_modify f, hnil]
    rfl
  · rw [List.head?_eq_getElem?, List.getElem?_modify] at hx
    obtain ⟨y, hy, rfl⟩ := Option.map_eq_some_iff.mp hx
    have hdeclared := h.this y (List.head?_eq_getElem? ▸ hy)
    split
    · exact (htype y).symm ▸ hdeclared
    · exact hdeclared
  · obtain ⟨j, hj⟩ := List.mem_iff_getElem?.mp hx
    rw [List.getElem?_modify] at hj
    obtain ⟨y, hy, rfl⟩ := Option.map_eq_some_iff.mp hj
    have hknown := h.known y (List.mem_of_getElem? hy)
    split
    · exact hf y hknown
    · exact hknown

/-- Adding local variables of known types keeps the surroundings in order. -/
theorem Surrounds.addLocals {s : TypeStore} {frames : List Frame} (h : Surrounds s frames) (i : Nat) {vs : List Local}
    (hvs : ∀ v ∈ vs, s.Knows v.type) : Surrounds s (addLocals frames i vs) := by
  refine h.modify i (fun x hx => ⟨hx.1, fun v hv => ?_⟩) fun _ => rfl
  rcases List.mem_append.mp hv with hv | hv
  · exact hx.2 v hv
  · exact hvs v hv

/-- Local variables have known types. -/
theorem localsOf_works {sc : Scope} (hsc : l.world.types.KnowsScope sc) (p : Place) (srcs : List String) :
    Works filling (localsOf sc p srcs) l fun vs l' => ∀ v ∈ vs, l'.world.types.Knows v.type := by
  induction srcs generalizing l with
  | nil => exact Works.ret (by simp)
  | cons src rest ih =>
    unfold localsOf
    refine (localOf_works loads_filling hsc src p).bind fun r l₁ _ hl₁ hr => ?_
    have next := ih (hsc.grows (loads_filling.grows hl₁))
    cases r with
    | none => exact next
    | some v =>
      obtain ⟨name, type⟩ := v
      refine next.bind fun vs l₂ _ hl₂ hvs => Works.ret fun v hv => ?_
      rcases List.mem_cons.mp hv with rfl | hv
      · exact (loads_filling.grows hl₂).knows (hr (name, type) rfl)
      · exact hvs v hv

/-- Exceptions are read. -/
theorem handledOf_works {sc : Scope} (hsc : l.world.types.KnowsScope sc) (p : Place) (srcs : List String) :
    Works filling (handledOf sc p srcs) l fun _ _ => True := by
  induction srcs generalizing l with
  | nil => exact Works.ret trivial
  | cons src rest ih =>
    unfold handledOf
    refine (typeOf_works loads_filling hsc src p).bind fun t l₁ _ hl₁ _ => ?_
    refine (ih (hsc.grows (loads_filling.grows hl₁))).bind fun more l₂ _ _ _ => ?_
    exact works_getTypes (Works.ret trivial)

/-- Local variables are added to the frames of several classes. -/
theorem frameLocals_works (st : StepDecl) {sc : Scope} (hsc : l.world.types.KnowsScope sc) {frames : List Frame}
    (hframes : Surrounds l.world.types frames) (fls : List FrameLocals) :
    Works filling (frameLocals st sc frames fls) l fun frames' l' => Surrounds l'.world.types frames' := by
  induction fls generalizing l frames with
  | nil => exact Works.ret hframes
  | cons fl rest ih =>
    unfold frameLocals
    refine (classOf?_works loads_filling hsc fl.frame fl.place).bind fun r l₁ _ hl₁ _ => ?_
    have hg₁ := loads_filling.grows hl₁
    cases r with
    | none => exact ih (hsc.grows hg₁) (hframes.grows hg₁)
    | some t =>
      refine works_getTypes ?_
      dsimp only
      split
      · exact fault_then loads_filling (by decide) fun l₂ h₂ => ih (h₂ ▸ hsc.grows hg₁) (h₂ ▸ hframes.grows hg₁)
      · rename_i i _
        refine (localsOf_works (knowsScope_cls _ _) _ _).bind fun vs l₂ _ hl₂ hvs => ?_
        have hg₂ := hg₁.trans (loads_filling.grows hl₂)
        exact ih (hsc.grows hg₂) ((hframes.grows hg₂).addLocals i hvs)

/-- The classes around a call are known, and there is one. -/
theorem envOf_works (st : StepDecl) :
    Works filling (envOf st) l fun r l' => ∀ env ∈ r, Surrounds l'.world.types env.frames := by
  unfold envOf
  dsimp only
  split
  · exact fault_then loads_filling (by decide) fun _ _ => Works.ret (by simp)
  · refine (classOf?_works loads_filling (knowsScope_cls _ _) st.cls st.place).bind fun r l₁ hl₁ _ hr => ?_
    cases r with
    | none => exact Works.ret (by simp)
    | some t =>
      refine works_getTypes ((handledOf_works (knowsScope_cls _ _) _ _).bind fun handled l₂ _ hl₂ _ => ?_)
      obtain ⟨hknown, hclass⟩ := hr t rfl
      have hs₁ := loads_filling.wellFormed hl₁
      have houter : Surrounds l₁.world.types
          ((l₁.world.types.enclosing (l₁.world.types.classOf t)).map fun type => ({ type } : Frame)) := by
        refine ⟨by simpa using enclosing_ne_nil (isSome_classOf hclass), fun f hf => ?_, fun f hf => ?_⟩
        · rw [List.head?_map, head?_enclosing (isSome_classOf hclass)] at hf
          cases hf
          exact isDeclared_classOf hs₁ (isSome_classOf hclass)
        obtain ⟨c, hc, rfl⟩ := List.mem_map.mp hf
        exact ⟨hs₁.knows_enclosingChain _ (hs₁.knows_classOf hknown) hc, by simp⟩
      have hframes := houter.modify 0 (f := fun f => { f with
        isStatic := st.isStatic, inExplicitCtor := st.inExplicitCtor, isDeprecated := st.isDeprecated, handled })
        (fun x hx => ⟨hx.1, hx.2⟩) fun _ => rfl
      have hframes₂ := hframes.grows (loads_filling.grows hl₂)
      split
      · refine (localsOf_works (knowsScope_cls _ _) _ _).bind fun vs l₃ _ hl₃ hvs => Works.ret ?_
        simpa using (hframes₂.grows (loads_filling.grows hl₃)).addLocals 0 hvs
      · refine (frameLocals_works st (knowsScope_cls _ _) hframes₂ _).bind fun frames l₃ _ _ h₃ => Works.ret ?_
        simpa using h₃

/-! ## Expressions

What is read as an argument or a receiver has a type that is known. An expression that refers
to an earlier call has the type of that call, which is not known before the run, so nothing is
said of it here.
-/

/-- The current instance as one of its superclass has the type that the innermost class around
it inherits from. -/
def SuperOf (s : TypeStore) (cls : TypeId) (e : Expr) : Prop :=
  e.form.isSuper → ∃ info, s.classInfo? cls = some info ∧ info.super.isSome ∧ e.type = info.super

/-- An expression as it is read in a class. -/
structure ReadIn (s : TypeStore) (cls : TypeId) (e : Expr) : Prop where
  /-- The types that it mentions are known. -/
  known : KnowsExpr s e
  /-- The type of the current instance as one of its superclass. -/
  super : SuperOf s cls e

/-- Most expressions are not the current instance as one of its superclass. -/
theorem ReadIn.of_plain {s : TypeStore} {cls : TypeId} {e : Expr} (h : KnowsExpr s e) (hform : e.form.isSuper = false) :
    ReadIn s cls e :=
  ⟨h, fun hsuper => absurd (hsuper.symm.trans hform) (by decide)⟩

/-- An expression of the bad type is read anywhere. -/
theorem badExpr_read {s : TypeStore} (hs : s.WellFormed) (cls : TypeId) (span : Source.Span) : ReadIn s cls (badExpr span) :=
  .of_plain ⟨hs.knows_predefined (t := .bad) (by decide), hs.knows_none⟩ rfl

/-- The argument of the type of a class literal is known. -/
theorem literalArg_works {g : Guard} {s s₀ : TypeStore} {t : TypeId} (hs₀ : s₀.Grows s) (hwf : s₀.WellFormed)
    (ht : s.Knows t) : Works (growth g) (literalArg s₀ t) s fun a s' => s'.Knows a.type := by
  refine Works.of_sound fun hs => ?_
  unfold literalArg
  split
  · refine Works.ret ?_
    cases hvoid : s₀.classNamed? (langPackage ++ ".Void") with
    | none => exact hs.1.knows_none
    | some v => exact hs₀.knows (knows_of_isDeclared (hwf.isDeclared_of_classNamed hvoid))
  · split
    · refine Works.ret ?_
      change s.Knows (s₀.box t)
      unfold box
      split
      · rename_i p _
        have hbox : ∀ p ∈ Primitive.all, (TypeId.boxOf p).index < predefinedShapes.length := by decide
        exact hs.1.knows_predefined (hbox p (by cases p <;> decide))
      · exact hs.1.knows_none
    · split
      · exact (erasure_works ht).bind fun e _ _ _ he => Works.ret he
      · exact Works.ret hs.1.knows_none

variable (inner : TypeId)

/-- A class literal is read. -/
theorem classLiteral_works (d : ExprDecl) {sc : Scope} (hsc : l.world.types.KnowsScope sc) :
    Works filling (classLiteral d sc) l fun e l' => ReadIn l'.world.types inner e := by
  refine works_span ((typeOf_works loads_filling hsc d.classLiteral d.place).bind fun t l₁ hl₁ _ ht => works_getTypes ?_)
  have hs₁ := loads_filling.wellFormed hl₁
  split
  · exact Works.ret (.of_plain ⟨ht, hs₁.knows_none⟩ rfl)
  · have hliteral (g : Guard) : Works (growth g) (do TypeStore.apply .class_ [← literalArg l₁.world.types t])
        l₁.world.types fun u s' => s'.Knows u := by
      refine (literalArg_works (.refl _) hs₁ ht).bind fun a s₂ hs₂ _ ha => ?_
      have hclass : (s₂.shape .class_).isDeclared := by
        rw [hs₂.1.shape_class]
        rfl
      exact (apply_works hclass (by simpa using ha)).mono fun _ _ _ _ h => h.1.knows
    refine (loads_filling.types hliteral).bind fun type l₂ _ hl₂ htype => Works.ret ?_
    exact .of_plain ⟨htype, (loads_filling.grows hl₂).knows ht⟩ rfl

/-- A local variable in view is read. -/
theorem localExpr_works {env : Env} (henv : Surrounds l.world.types env.frames) (d : ExprDecl) (span : Source.Span) :
    Works filling (localExpr env d span) l fun e l' => ReadIn l'.world.types inner e := by
  refine Works.of_sound fun hl => ?_
  unfold localExpr
  dsimp only
  split
  · rename_i v j hfound
    obtain ⟨⟨f, k⟩, hmem, hfind⟩ := List.exists_of_findSome?_eq_some hfound
    obtain ⟨v', hv', heq⟩ := Option.map_eq_some_iff.mp hfind
    cases heq
    have hf := henv.known f (List.fst_mem_of_mem_zipIdx hmem)
    exact Works.ret (.of_plain ⟨hf.2 v (List.mem_of_find?_eq_some hv'), hl.1.types.knows_none⟩ rfl)
  · refine fault_then loads_filling (by decide) fun l₁ h₁ => Works.ret (.of_plain ⟨?_, ?_⟩ rfl)
    · exact h₁ ▸ hl.1.types.knows_predefined (t := .bad) (by decide)
    · exact h₁ ▸ hl.1.types.knows_none

/-- The value of an earlier call site is read. -/
theorem callExpr_works (prog : Program) (d : ExprDecl) (span : Source.Span) :
    Works filling (callExpr prog d span) l fun e l' => ReadIn l'.world.types inner e := by
  refine Works.of_sound fun hl => ?_
  unfold callExpr
  split
  · exact works_span (Works.ret (.of_plain ⟨hl.1.types.knows_none, hl.1.types.knows_none⟩ rfl))
  · exact fault_then loads_filling (by decide) fun l₁ h₁ => Works.ret (h₁ ▸ badExpr_read hl.1.types inner span)

/-- The current instance as one of its superclass is read. -/
theorem superExpr_works (d : ExprDecl) (span : Source.Span) :
    Works filling (superExpr inner d span) l fun e l' => ReadIn l'.world.types inner e := by
  refine Works.of_sound fun hl => works_getTypes ?_
  split
  · rename_i info hinfo
    obtain ⟨hinfo, hsuper⟩ := Option.filter_eq_some_iff.mp hinfo
    exact Works.ret ⟨⟨(hl.1.types.knows_classInfo hinfo).super.1, hl.1.types.knows_none⟩, fun _ => ⟨info, hinfo, hsuper, rfl⟩⟩
  · exact fault_then loads_filling (by decide) fun l₁ h₁ => Works.ret (h₁ ▸ badExpr_read hl.1.types inner span)

/-- An argument, receiver or enclosing instance is read. -/
theorem exprOf_works (prog : Program) {env : Env} (henv : Surrounds l.world.types env.frames) (d : ExprDecl) :
    Works filling (exprOf prog env d) l fun e l' => ReadIn l'.world.types env.this e := by
  refine Works.of_sound fun hl => ?_
  have hnone := hl.1.types.knows_none
  refine works_span ?_
  dsimp only
  split
  · exact fault_then loads_filling (by decide) fun l₁ h₁ => Works.ret (h₁ ▸ badExpr_read hl.1.types _ _)
  split
  · exact Works.ret (.of_plain ⟨hl.1.types.knows_predefined (t := .null) (by decide), hnone⟩ rfl)
  split
  · refine (typeOf_works loads_filling (knowsScope_cls _ _) d.type d.place).bind fun type l₁ hl₁ _ htype => works_span ?_
    refine Works.ret (.of_plain ⟨htype, ?_⟩ ?_)
    · split <;> exact (loads_filling.wellFormed hl₁).knows_none
    · split <;> rfl
  split
  · exact classLiteral_works _ d (knowsScope_cls _ _)
  split
  · refine (typeOf_works loads_filling (knowsScope_cls _ _) d.new d.place).bind fun type l₁ hl₁ _ htype => ?_
    refine works_getTypes (works_span (Works.ret (.of_plain ⟨htype, ?_⟩ rfl)))
    exact (loads_filling.wellFormed hl₁).knows_classOf htype
  split
  · exact callExpr_works _ prog d _
  split
  · refine (classOf?_works loads_filling (knowsScope_cls _ _) d.typeName d.place).bind fun r l₁ hl₁ _ hr => ?_
    cases r with
    | none => exact Works.ret (badExpr_read (loads_filling.wellFormed hl₁) _ _)
    | some t => exact works_span (Works.ret (.of_plain ⟨(hr t rfl).1, (hr t rfl).1⟩ rfl))
  split
  · exact localExpr_works _ henv d _
  split
  · exact Works.ret (.of_plain ⟨henv.knowsEnv.this hl.1.types, hnone⟩ rfl)
  · exact superExpr_works env.this d _

/-- Arguments are known. -/
theorem exprsOf_works (prog : Program) {env : Env} (henv : Surrounds l.world.types env.frames) (ds : List ExprDecl) :
    Works filling (exprsOf prog env ds) l fun es l' => ∀ e ∈ es, KnowsExpr l'.world.types e := by
  induction ds generalizing l with
  | nil => exact Works.ret (by simp)
  | cons d ds ih =>
    unfold exprsOf
    refine (exprOf_works prog henv d).bind fun e l₁ _ hl₁ he => ?_
    refine (ih (henv.grows (loads_filling.grows hl₁))).bind fun es l₂ _ hl₂ hes => Works.ret fun e' he' => ?_
    rcases List.mem_cons.mp he' with rfl | he'
    · exact he.known.grows (loads_filling.grows hl₂)
    · exact hes e' he'

/-- A receiver or enclosing instance that is there is read. -/
theorem exprOf?_works (prog : Program) {env : Env} (henv : Surrounds l.world.types env.frames) (d : Option ExprDecl) :
    Works filling (exprOf? prog env d) l fun r l' => ∀ e ∈ r, ReadIn l'.world.types env.this e := by
  cases d with
  | none => exact Works.ret (by simp)
  | some d =>
    refine (exprOf_works prog henv d).bind fun e l₁ _ _ he => Works.ret ?_
    simpa using he

/-! ## Steps

Imports, calls and completions, in the order of the document.
-/

/-- The receiver of a method call as it is read in a class. -/
def CallReadIn (s : TypeStore) (cls : TypeId) (call : Call) : Prop :=
  ∀ name recv, call = .method name (some recv) → SuperOf s cls recv

/-- A program that is being read. The numbers of its sites are those of their places, and its
steps bind them in this order, so that no later step finds a site that was bound before. It is
the invariant of reading the program, and what a fresh session asks of it. -/
structure Drafted (s : TypeStore) (p : Program) : Prop where
  /-- The types that it mentions are known. -/
  known : KnowsProgram s p
  /-- The sites are numbered. -/
  numbered : p.Numbered
  /-- Nothing is recorded at the sites. -/
  unbound : ∀ site ∈ p.sites, site.result = {}
  /-- Every site is bound by one step, in the order of their numbers. -/
  called : called p.steps = List.range' 1 p.sites.size
  /-- There is a class around every call. -/
  frames : ∀ id env, .call id env ∈ p.steps → env.frames ≠ []
  /-- The innermost class around a call is declared. -/
  this : ∀ id env, .call id env ∈ p.steps → (s.shape env.this).isDeclared
  /-- The type of the current instance as one of its superclass. -/
  super : ∀ id env site, .call id env ∈ p.steps → p.site? id = some site → CallReadIn s env.this site.call

namespace Drafted

variable {s s' : TypeStore} {p : Program}

/-- A program without steps. -/
theorem empty (s : TypeStore) (path : String) : Drafted s { path } :=
  ⟨⟨by simp, by simp, by simp, by simp, by simp⟩, by simp [Program.Numbered, Program.site?], by simp, rfl, by simp,
    by simp, by simp⟩

theorem later (hp : Drafted s p) (h : s.Extends s') (hs : s.WellFormed) : Drafted s' p :=
  have hg := h.toGrows
  ⟨hp.known.grows hg, hp.numbered, hp.unbound, hp.called, hp.frames, fun id env hmem => hg.isDeclared (hp.this id env hmem),
    fun id env site hmem hsite name recv hcall hsuper => by
      obtain ⟨info, hinfo, htype⟩ := hp.super id env site hmem hsite name recv hcall hsuper
      exact ⟨info, (h.classInfo hs (knows_of_isDeclared (hp.this id env hmem))).trans hinfo, htype⟩⟩

/-- The import of a single member of a known class. -/
theorem addSingle (hp : Drafted s p) {type : TypeId} (ht : s.Knows type) (name : String) :
    Drafted s { p with singleImports := p.singleImports ++ [{ type, name }] } := by
  refine ⟨⟨hp.known.sites, hp.known.results, hp.known.steps, fun i hi => ?_, hp.known.classImports⟩, hp.numbered,
    hp.unbound, hp.called, hp.frames, hp.this, hp.super⟩
  rcases List.mem_append.mp hi with hi | hi
  · exact hp.known.singleImports i hi
  · rw [List.mem_singleton.mp hi]
    exact ht

/-- The import of a known class. -/
theorem addClass (hp : Drafted s p) {type : TypeId} (ht : s.Knows type) :
    Drafted s { p with classImports := p.classImports ++ [{ type }] } := by
  refine ⟨⟨hp.known.sites, hp.known.results, hp.known.steps, hp.known.singleImports, fun i hi => ?_⟩, hp.numbered,
    hp.unbound, hp.called, hp.frames, hp.this, hp.super⟩
  rcases List.mem_append.mp hi with hi | hi
  · exact hp.known.classImports i hi
  · rw [List.mem_singleton.mp hi]
    exact ht

/-- The completion of a known class. -/
theorem addComplete (hp : Drafted s p) {cls : TypeId} (hcls : s.Knows cls) (span : Source.Span) :
    Drafted s (p.addComplete cls span) := by
  have hsteps {step : Step} (h : step ∈ p.steps ++ [.complete cls span]) : step ∈ p.steps ∨ step = .complete cls span :=
    (List.mem_append.mp h).imp_right List.mem_singleton.mp
  refine ⟨⟨hp.known.sites, hp.known.results, fun step hstep => ?_, hp.known.singleImports, hp.known.classImports⟩,
    hp.numbered, hp.unbound, ?_, fun id env h => ?_, fun id env h => ?_, fun id env site h => ?_⟩
  · rcases hsteps hstep with h | rfl
    · exact hp.known.steps step h
    · exact hcls
  · rw [Program.addComplete, called_append, hp.called]
    exact List.append_nil _
  · rcases hsteps h with h | h
    · exact hp.frames id env h
    · cases h
  · rcases hsteps h with h | h
    · exact hp.this id env h
    · cases h
  · rcases hsteps h with h | h
    · exact hp.super id env site h
    · cases h

/-- The site with a number, after one was added. -/
theorem site?_addSite {env : Env} {make : SiteId → Site} {id : Nat} {site : Site}
    (h : (p.addSite env make).site? id = some site) :
    p.site? id = some site ∨ id = p.sites.size + 1 ∧ site = make (p.sites.size + 1) := by
  unfold Program.site? Program.addSite at *
  split at h
  · cases h
  · rename_i hne
    rw [if_neg hne]
    refine (getElem?_push_cases h).imp_right fun h' => ⟨?_, h'.2⟩
    have hlast : id - 1 = p.sites.size := h'.1
    have hpos : id ≠ 0 := hne
    omega

/-- The sites are those up to the number of sites. -/
theorem le_of_site? {id : Nat} {site : Site} (h : p.site? id = some site) : id ≤ p.sites.size := by
  unfold Program.site? at h
  split at h
  · cases h
  · have hlt := (Array.getElem?_eq_some_iff.mp h).1
    omega

/-- A number that a step has is that of a site. -/
theorem le_of_step (hp : Drafted s p) {id : SiteId} {env : Env} (h : .call id env ∈ p.steps) : id ≤ p.sites.size := by
  have hmem : id ∈ CallResolution.called p.steps := List.mem_filterMap.mpr ⟨_, h, rfl⟩
  rw [hp.called, List.mem_range'_1] at hmem
  exact Nat.lt_one_add_iff.mp hmem.2

/-- A call of known types among known classes. -/
theorem addSite (hp : Drafted s p) {env : Env} (henv : Surrounds s env.frames) {make : SiteId → Site}
    (hknown : ∀ id, KnowsSite s (make id)) (hid : ∀ id, (make id).id = id) (hnew : ∀ id, (make id).result = {})
    (hread : ∀ id, CallReadIn s env.this (make id).call) (hs : s.WellFormed) : Drafted s (p.addSite env make) := by
  have hsites {site : Site} (h : site ∈ p.sites.push (make (p.sites.size + 1))) :
      site ∈ p.sites ∨ site = make (p.sites.size + 1) := Array.mem_push.mp h
  have hsteps {step : Step} (h : step ∈ p.steps ++ [.call (p.sites.size + 1) env]) :
      step ∈ p.steps ∨ step = .call (p.sites.size + 1) env := (List.mem_append.mp h).imp_right List.mem_singleton.mp
  refine ⟨⟨fun site h => ?_, fun site h => ?_, fun step h => ?_, hp.known.singleImports, hp.known.classImports⟩,
    fun id site h => ?_, fun site h => ?_, ?_, fun id env' h => ?_, fun id env' h => ?_, fun id env' site h hsite => ?_⟩
  · rcases hsites h with h | rfl
    · exact hp.known.sites site h
    · exact hknown _
  · rcases hsites h with h | rfl
    · exact hp.known.results site h
    · rw [hnew]
      exact hs.knows_none
  · rcases hsteps h with h | rfl
    · exact hp.known.steps step h
    · exact henv.knowsEnv
  · rcases site?_addSite h with h | ⟨rfl, rfl⟩
    · exact hp.numbered id site h
    · exact hid _
  · rcases hsites h with h | rfl
    · exact hp.unbound site h
    · exact hnew _
  · have hlast : CallResolution.called [.call (p.sites.size + 1) env] = [p.sites.size + 1] := rfl
    rw [Program.addSite, called_append, hp.called, hlast, Array.size_push, List.range'_1_concat, Nat.add_comm 1]
  · rcases hsteps h with h | h
    · exact hp.frames id env' h
    · cases h
      exact henv.nonempty
  · rcases hsteps h with h | h
    · exact hp.this id env' h
    · cases h
      exact henv.isDeclared_this
  · rcases hsteps h with h | h
    · rcases site?_addSite hsite with hsite | ⟨rfl, -⟩
      · exact hp.super id env' site h hsite
      · exact absurd (hp.le_of_step h) (Nat.not_succ_le_self _)
    · cases h
      rcases site?_addSite hsite with hsite | ⟨-, rfl⟩
      · exact absurd (le_of_site? hsite) (Nat.not_succ_le_self _)
      · exact hread _

/-- A program that is in order stays so while others are read. -/
theorem leads (hp : Drafted l.world.types p) (hl : filling.Sound l) (h : filling.Leads l l') : Drafted l'.world.types p :=
  hp.later h.keeps.types hl.1.types

end Drafted

/-- The import of a single member is read. -/
theorem importSingle_works (p : Place) {prog : Program} (hprog : Drafted l.world.types prog) (src : String) :
    Works filling (importSingle p prog src) l fun prog' l' => Drafted l'.world.types prog' := by
  refine Works.of_sound fun hl => ?_
  unfold importSingle
  split
  · exact fault_then loads_filling (by decide) fun l₁ h₁ => Works.ret (h₁ ▸ hprog)
  · refine (classOf?_works loads_filling (knowsScope_cls _ _) _ p).bind fun r l₁ _ hl₁ hr => ?_
    have hprog₁ := hprog.leads hl hl₁
    cases r with
    | none => exact Works.ret hprog₁
    | some type => exact Works.ret (hprog₁.addSingle (hr type rfl).1 _)

/-- The import of a class is read. -/
theorem importAll_works (p : Place) {prog : Program} (hprog : Drafted l.world.types prog) (src : String) :
    Works filling (importAll p prog src) l fun prog' l' => Drafted l'.world.types prog' := by
  refine Works.of_sound fun hl => ?_
  unfold importAll
  refine (classOf?_works loads_filling (knowsScope_cls _ _) _ p).bind fun r l₁ _ hl₁ hr => ?_
  have hprog₁ := hprog.leads hl hl₁
  cases r with
  | none => exact Works.ret hprog₁
  | some type => exact Works.ret (hprog₁.addClass (hr type rfl).1)

/-- The imports are read. -/
theorem imports_works (d : ImportDecls) {prog : Program} (hprog : Drafted l.world.types prog) :
    Works filling (imports d prog) l fun prog' l' => Drafted l'.world.types prog' := by
  unfold imports
  have hsingle : Works filling (d.single.foldlM (importSingle d.place) prog) l fun prog' l' =>
      Drafted l'.world.types prog' :=
    Works.foldlM d.single hprog fun src _ prog' l' _ _ hprog' => importSingle_works d.place hprog' src
  refine hsingle.bind fun prog₁ l₁ _ _ hprog₁ => ?_
  exact Works.foldlM d.onDemand hprog₁ fun src _ prog' l' _ _ hprog' => importAll_works d.place hprog' src

/-- Explicit type arguments are known. -/
theorem typeArgsOf_works {sc : Scope} (hsc : l.world.types.KnowsScope sc) (p : Place) (srcs : List String) :
    Works filling (typeArgsOf sc p srcs) l fun ts l' => ∀ t ∈ ts, l'.world.types.Knows t := by
  induction srcs generalizing l with
  | nil => exact Works.ret (by simp)
  | cons src rest ih =>
    have next {l₁ : Loader} {t : TypeId} (hl₁ : filling.Leads l l₁) (ht : l₁.world.types.Knows t) :
        Works filling (do return t :: (← typeArgsOf sc p rest)) l₁ fun ts l' => ∀ u ∈ ts, l'.world.types.Knows u := by
      refine (ih (hsc.grows (loads_filling.grows hl₁))).bind fun ts l₂ _ hl₂ hts => Works.ret fun u hu => ?_
      rcases List.mem_cons.mp hu with rfl | hu
      · exact (loads_filling.grows hl₂).knows ht
      · exact hts u hu
    unfold typeArgsOf
    refine (typeOf_works loads_filling hsc src p).bind fun t l₁ hs₁ hl₁ ht => works_getTypes ?_
    split
    · exact next hl₁ ht
    · refine (fault_works loads_filling _ _ _ _ (by decide)).bind fun _ l₂ hs₂ hl₂ _ => next (filling.trans hl₁ hl₂) ?_
      exact (loads_filling.wellFormed hs₂).knows_predefined (t := .bad) (by decide)

/-- What a step calls is read. -/
theorem callOf_works (prog : Program) {env : Env} (henv : Surrounds l.world.types env.frames) (st : StepDecl) :
    Works filling (callOf prog env st) l fun c l' => KnowsCall l'.world.types c ∧ CallReadIn l'.world.types env.this c := by
  have plain {s : TypeStore} {c : Call} (h : KnowsCall s c) (hplain : ∀ name recv, c ≠ .method name recv) :
      KnowsCall s c ∧ CallReadIn s env.this c :=
    ⟨h, fun name recv hcall => absurd hcall (hplain name _)⟩
  unfold callOf
  split
  · refine (exprOf?_works prog henv st.receiver).bind fun recv l₁ _ _ hrecv => Works.ret ?_
    refine ⟨fun e he => (hrecv e he).known, fun name e hcall => ?_⟩
    obtain ⟨-, rfl⟩ := Call.method.inj hcall
    exact (hrecv e rfl).super
  split
  · refine (typeOf_works loads_filling (knowsScope_cls _ _) st.new st.place).bind fun cls l₁ _ hl₁ hcls => ?_
    refine (exprOf?_works prog (henv.grows (loads_filling.grows hl₁)) st.outer).bind fun outer l₂ _ hl₂ houter => ?_
    have hnew : l₂.world.types.Knows cls ∧ ∀ e ∈ outer, KnowsExpr l₂.world.types e :=
      ⟨(loads_filling.grows hl₂).knows hcls, fun e he => (houter e he).known⟩
    split
    · exact Works.ret (plain hnew nofun)
    · exact works_span (Works.ret (plain hnew nofun))
  split
  · exact Works.ret (plain trivial nofun)
  · exact (exprOf?_works prog henv st.outer).bind fun outer l₁ _ _ houter =>
      Works.ret (plain (fun e he => (houter e he).known) nofun)

/-- A call is added. -/
theorem addCall_works {prog : Program} (hprog : Drafted l.world.types prog) {env : Env}
    (henv : Surrounds l.world.types env.frames) (st : StepDecl) :
    Works filling (addCall prog env st) l fun prog' l' => Drafted l'.world.types prog' := by
  refine Works.of_sound fun hl => works_span ?_
  refine (typeArgsOf_works (knowsScope_cls _ _) _ _).bind fun typeArgs l₁ _ hl₁ htypeArgs => ?_
  have henv₁ := henv.grows (loads_filling.grows hl₁)
  refine (exprsOf_works prog henv₁ st.args).bind fun args l₂ _ hl₂ hargs => ?_
  have hg₂ := loads_filling.grows hl₂
  refine (callOf_works prog (henv₁.grows hg₂) st).bind fun call l₃ hs₃ hl₃ ⟨hcall, hread⟩ => Works.ret ?_
  have hg₃ := loads_filling.grows hl₃
  have hknown (id : SiteId) (span : Source.Span) : KnowsSite l₃.world.types { id, label := st.id, call, typeArgs, args, span } :=
    ⟨⟨fun t ht => (hg₂.trans hg₃).knows (htypeArgs t ht), fun e he => (hargs e he).grows hg₃⟩, hcall⟩
  have hall := filling.trans hl₁ (filling.trans hl₂ hl₃)
  exact (hprog.leads hl hall).addSite (henv.grows (loads_filling.grows hall)) (fun id => hknown id _) (fun _ => rfl)
    (fun _ => rfl) (fun _ => hread) (loads_filling.wellFormed hs₃)

/-- A call is read. -/
theorem callStep_works {prog : Program} (hprog : Drafted l.world.types prog) (st : StepDecl) :
    Works filling (callStep prog st) l fun prog' l' => Drafted l'.world.types prog' := by
  have refuse (msg : String) {l₁ : Loader} (h : Drafted l₁.world.types prog) : Works filling (do
      fault .badStep st.place (shownCall st) msg
      return prog) l₁ fun prog' l' => Drafted l'.world.types prog' :=
    fault_then loads_filling (by decide) fun l₂ h₂ => Works.ret (h₂ ▸ h)
  refine Works.of_sound fun hl => ?_
  unfold callStep
  dsimp only
  split
  · exact refuse _ hprog
  split
  · exact refuse _ hprog
  · refine (envOf_works st).bind fun r l₁ _ hl₁ hr => ?_
    have hprog₁ := hprog.leads hl hl₁
    cases r with
    | none => exact Works.ret hprog₁
    | some env =>
      dsimp only
      split
      · exact refuse _ hprog₁
      · exact addCall_works hprog₁ (hr env rfl) st

/-- The completion of a local class is read. -/
theorem completeStep_works {prog : Program} (hprog : Drafted l.world.types prog) (st : StepDecl) :
    Works filling (completeStep prog st) l fun prog' l' => Drafted l'.world.types prog' := by
  refine Works.of_sound fun hl => ?_
  unfold completeStep
  refine (classOf?_works loads_filling (knowsScope_cls _ _) _ st.place).bind fun r l₁ _ hl₁ hr => ?_
  have hprog₁ := hprog.leads hl hl₁
  cases r with
  | none => exact Works.ret hprog₁
  | some cls =>
    refine works_getTypes ?_
    split
    · exact works_span (Works.ret (hprog₁.addComplete (hr cls rfl).1 _))
    · exact fault_then loads_filling (by decide) fun l₂ h₂ => Works.ret (h₂ ▸ hprog₁)

/-- A step is read. -/
theorem addStep_works {prog : Program} (hprog : Drafted l.world.types prog) (st : StepDecl) :
    Works filling (addStep prog st) l fun prog' l' => Drafted l'.world.types prog' := by
  unfold addStep
  split
  · exact completeStep_works hprog st
  · exact callStep_works hprog st

end Loader

/-! ## Documents

What is loaded, and what holds of it. The lemmas are short: each is an invariant of loading,
applied to the predefined universe.
-/

namespace Document

open Loader

/-- The program of a document is in order. -/
theorem programM_works (d : Document) {l : Loader} :
    Works filling (programM d) l fun prog l' => Drafted l'.world.types prog := by
  refine Works.read ((imports_works d.imports (.empty _ _)).bind fun prog l₁ _ _ hprog => ?_)
  exact Works.foldlM d.program hprog fun st _ prog' l' _ _ hprog' => addStep_works hprog' st

/-- What is read from a document is a well-formed universe without finished bodies, to which
types were added, and a program that is in order. -/
theorem loadM_drafted (d : Document) {l : Loader} (hl : Laid l) :
    filling.Sound (loadM d l).2 ∧ (loadM d l).2.world.Populated ∧ l.world.types.Grows (loadM d l).2.world.types ∧
      Drafted (loadM d l).2.world.types (loadM d l).1.1 ∧
      (loadM d l).2.world.placeholders = [] ∧ (loadM d l).2.world.accessors = [] ∧
      ∃ v : Universe, v.Untouched ∧ v.Keeps (loadM d l).2.world ∧
        ∀ cls, ((loadM d l).2.world.outline cls).2 = (v.outline cls).2 := by
  have hoptions := options_works (loads_laying : Loads (laying .any)) d.options hl
  obtain ⟨hbuilt, hpopulated, hgrows, hplaceholders, haccessors, v, huntouched, hkept, htables⟩ := buildUniverse_grows d.classes (hoptions.1.laid hl)
  obtain ⟨hlead, hdrafted⟩ := programM_works d hbuilt
  exact ⟨filling.sound hlead hbuilt, hpopulated.moves hlead.moves,
    ((loads_laying.grows hoptions.1).trans hgrows).trans (loads_filling.grows hlead), hdrafted,
    hlead.marks.1.trans hplaceholders, hlead.marks.2.trans haccessors, v, huntouched, hkept.trans hlead.keeps, fun cls => (hlead.tables cls).trans (htables cls)⟩

/-- Loading can start from an untouched universe without classes of its own. -/
theorem laid_of_untouched {u : Universe} (hu : u.Untouched) (count : u.types.classes.size = TypeStore.predefinedClasses.length)
    (f : Source.File) : Laid { file := f, world := u } :=
  ⟨hu, count, by simp⟩

/-- There are no classes but the predefined ones before anything is declared. -/
theorem initial_size : Universe.initial.types.classes.size = TypeStore.predefinedClasses.length := by
  decide +kernel

/-- Loading can start from what is predefined. -/
theorem laid_initial (f : Source.File) : Laid { file := f, world := Universe.initial } :=
  laid_of_untouched initial_untouched initial_size f

/-- What is loaded from a document is a well-formed universe, whose classes lie in earlier
ones, and a program that is in order. There is no condition on the document. -/
theorem load_drafted (d : Document) (f : Source.File) :
    (d.load f).world.WellFormed ∧ (d.load f).world.types.Nested ∧ Drafted (d.load f).world.types (d.load f).program := by
  obtain ⟨hsound, -, hgrows, hdrafted, -⟩ := loadM_drafted d (laid_initial f)
  unfold load
  exact ⟨hsound.1, hgrows.nested initial_plain.2, hdrafted⟩

/-- What the classes of a document inherit from fits their kinds. -/
theorem load_kinded (d : Document) (f : Source.File) : (d.load f).world.types.Kinded := by
  obtain ⟨-, -, hgrows, -, -⟩ := loadM_drafted d (laid_initial f)
  exact hgrows.kinded Universe.initial_kinded

/-- What is loaded from a document was added to what is predefined. So predefined classes and
callables are what they were. -/
theorem load_populated (d : Document) (f : Source.File) : (d.load f).world.Populated := by
  obtain ⟨-, hpopulated, -⟩ := loadM_drafted d (laid_initial f)
  exact hpopulated

/-- What is loaded from a document keeps a universe in which headers are set and nothing is
declared. -/
theorem load_keeps (d : Document) (f : Source.File) : ∃ v : Universe, v.Untouched ∧ v.Keeps (d.load f).world := by
  obtain ⟨-, -, -, -, -, -, v, huntouched, hkept, -⟩ := loadM_drafted d (laid_initial f)
  exact ⟨v, huntouched, hkept⟩

/-- Neither marks of constructors nor accessors are made while a document is loaded. -/
theorem load_unmarked (d : Document) (f : Source.File) : (d.load f).world.placeholders = [] ∧ (d.load f).world.accessors = [] := by
  obtain ⟨-, -, -, -, hplaceholders, haccessors, -⟩ := loadM_drafted d (laid_initial f)
  exact ⟨hplaceholders, haccessors⟩

/-- No table is made while a document is loaded. -/
theorem load_unbuilt (d : Document) (f : Source.File) (cls : TypeId) : ((d.load f).world.outline cls).2 = .unbuilt := by
  obtain ⟨-, -, -, -, -, -, v, huntouched, -, htables⟩ := loadM_drafted d (laid_initial f)
  exact (htables cls).trans (huntouched.unbuilt cls)

/-- No callable that is loaded from a document has a parameter of the bad type. -/
theorem load_genuine (d : Document) (f : Source.File) : (d.load f).world.Genuine := by
  obtain ⟨v, huntouched, hkept⟩ := d.load_keeps f
  exact hkept.genuine huntouched.genuine

/-- What the classes of a document list is in order. -/
theorem load_tidy (d : Document) (f : Source.File) : (d.load f).world.Tidy := by
  obtain ⟨v, huntouched, hkept⟩ := d.load_keeps f
  exact hkept.tidy huntouched.tidy

/-- No table is being made when a document was loaded. -/
theorem load_not_isMaking (d : Document) (f : Source.File) (cls : TypeId) : ¬ (d.load f).world.IsMaking cls := by
  obtain ⟨v, huntouched, hkept⟩ := d.load_keeps f
  exact fun h => huntouched.not_isMaking cls (hkept.making cls h)

/-- No body is finished in what is loaded from a document. -/
theorem load_unfinished (d : Document) (f : Source.File) : (d.load f).world.Unfinished :=
  (loadM_drafted d (laid_initial f)).1.2

end Document

/-- A session on a loaded document is fresh, whatever the document and the options are. So
what is known of the runs of fresh sessions is known of the runs of all documents. -/
theorem Loaded.fresh (d : Document) (f : Source.File) (base : Options) : ((d.load f).session base).Fresh := by
  obtain ⟨hworld, -, hprogram⟩ := d.load_drafted f
  refine ⟨⟨hworld, hprogram.known, by simp [Loaded.session]⟩, hprogram.numbered, rfl, fun id site h => ?_, hprogram.called,
    hprogram.frames, hprogram.this⟩
  exact hprogram.unbound site (Program.mem_of_site? h)

/-- A session starts in the universe of the loaded document. -/
theorem Loaded.session_world (l : Loaded) (base : Options) : (l.session base).world = l.world :=
  rfl

/-- A run of a loaded document starts with what is declared added to what is predefined. -/
theorem Loaded.populated (d : Document) (f : Source.File) (base : Options) :
    ((d.load f).session base).begun.world.Populated := by
  rw [Session.begun_world, Loaded.session_world]
  exact d.load_populated f

/-- A run of a loaded document starts with sound bodies. -/
theorem Loaded.bodies (d : Document) (f : Source.File) (base : Options) :
    ((d.load f).session base).begun.world.SoundBodies :=
  (populated d f base).soundBodies

/-- A file in memory for documents that were never read from a text. -/
def blankFile : Source.File :=
  { id := 0, path := "", content := [], flags := .fromMemory }

/-- A document without classes and calls adds no class to the predefined ones. -/
example : (({} : Document).load blankFile).world.types.classes.size = TypeStore.predefinedClasses.length := by
  decide +kernel

end CallResolution
