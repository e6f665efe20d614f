import CallResolution.Proofs.Document.Program
import CallResolution.Proofs.Resolve.Stages
import CallResolution.Proofs.Types.Naming

/-!
# Parts of types

A type is registered after the types it is made of: the elements of an array, the class and
the arguments of a parameterized type and the class around a class have smaller numbers.
Supertypes and bounds are set later and may stand anywhere, even form cycles, but what can be
done to a store never turns round a link from a type to its parts.

So whatever follows these links alone ends, however it is bounded. Each recursion along them
is stated here once more as it is without a bound, with no result where it would go on for
ever: the classes around a class, qualified names, the lookup of a simple name and the match
of an argument against a formal type. On every store that is passed while a document is loaded
and run, each of them has a result, and it is that of the function with a bound.

Main statement: `types_wellFounded`.
-/

namespace CallResolution

open TypeStore Universe

/-! ## Recursion without bounds

Each function is the one of the model without its bound, as a least fixed point: where the
recursion does not end there is no result, so writing it down claims nothing.
-/

/-- A step that always ends. The parts of a recursion that are bounded by themselves are taken
over in this form. -/
def ending {σ α : Type} (x : StateM σ α) : StateT σ Option α :=
  fun s => some (x s)

/-- Reads what the type of an argument supplies for a variable inside a formal type, with
formal type arguments followed to any depth. Where they were followed for ever there would be
no result. -/
def TypeId.seekArg? (var formal arg : TypeId) : StateT TypeStore Option (Option TypeId) := do
  match (← get).shape formal with
  | .applied base want =>
    match ← ending (parameterizationOf arg base) with
    | .none => return .none
    | some p =>
      (want.zip ((← get).argsOf p)).findSomeM? fun (w, g) => do
        if w.wildcard ≠ .none && w.wildcard ≠ .extends then return .none
        else if w.type = var then return g.supplied?
        else if (← get).mentions w.type var && g.type.isSome then var |>.seekArg? w.type g.type
        else return .none
  | _ => return .none
partial_fixpoint

namespace TypeStore

variable {s s' : TypeStore}

/-- The class and the classes around it, from the inside out, with no bound on their number.
-/
def seekEnclosing? (s : TypeStore) (t : TypeId) : Option (List TypeId) :=
  if t.isSome then
    match s.classInfo? t with
    | some info => do
      let around ← s |>.seekEnclosing? info.outer
      return t :: around
    | none => some [t]
  else some []
partial_fixpoint

/-- Asks the class and the classes around it, from the inside out, until one of them has an
answer. An answer may itself be missing, when what is asked does not end. -/
def seekAround? {α : Type} (s : TypeStore) (ask : TypeId → Option (Option α)) (t : TypeId) : Option (Option α) :=
  if t.isSome then do
    match ← ask t with
    | some a => return some a
    | none =>
      match s.classInfo? t with
      | some info => s |>.seekAround? ask info.outer
      | none => return none
  else some none
partial_fixpoint

mutual

/-- The qualified name of a class, or the name of a type that has none, with no bound on the
number of classes around it. -/
def seekQualified? (s : TypeStore) (t : TypeId) : Option String :=
  match s.classInfo? t with
  | some info =>
    if info.outer.isSome then do
      let around ← s |>.seekQualified? info.outer
      return joinName info around
    else some (joinName info "")
  | none => s |>.seekName? termDepth t
partial_fixpoint

/-- The name of a type, in which classes have their qualified names. Arguments are followed to
a depth. -/
def seekName? (s : TypeStore) (depth : Nat) (t : TypeId) : Option String :=
  match depth with
  | 0 => some (if s.contains t then "..." else "<none>")
  | depth + 1 =>
    match s.shape t with
    | .absent => some "<none>"
    | .declared _ => s |>.seekQualified? t
    | .array e d => do
      let elem ← s |>.seekName? depth e
      return elem ++ TypeExpr.brackets d.toNat
    | .typeVar _ => some ((s.typeVariable? t).elim "" (·.name))
    | .applied base args => do
      let head ← s |>.seekName? depth base
      let texts ← args.mapM fun a => do
        let inner ← if a.wildcard = .unbounded then some "" else s |>.seekName? depth a.type
        return argText (fun _ => inner) a
      return head ++ "<" ++ ",".intercalate texts ++ ">"
    | shape => some shape.kindName
partial_fixpoint

end

/-- What a simple name denotes, where the classes around the scope are asked one after
another. -/
def seekSimple? (s : TypeStore) (name : String) (sc : Scope) : Option (Option TypeId) :=
  match sc.params.lookup name with
  | some t => some (some t)
  | none => do
    match ← s.seekAround? (fun c => some (s.classVariable? name c)) sc.cls with
    | some t => return some t
    | none =>
      let member ← s.seekAround? (fun c => do
        let outer ← s.seekQualified? c
        return s.classNamed? (outer ++ "." ++ name)) sc.cls
      return member
        <|> (if sc.cls.isSome && s.packageOf sc.cls ≠ "" then s.classNamed? (s.packageOf sc.cls ++ "." ++ name) else none)
        <|> s.classNamed? name
        <|> s.classNamed? (langPackage ++ "." ++ name)

/-! ## Parts come first

On a store whose parts have smaller numbers, every recursion along parts ends, by induction on
the number of the type.
-/

/-- The types that a type is made of have smaller numbers than the type. Supertypes and bounds
are no parts: they may have any number. -/
structure PartsFirst (s : TypeStore) : Prop where
  /-- The elements of an array. -/
  elem : ∀ t e d, s.shape t = .array e d → e.index < t.index
  /-- The class of a parameterized type. -/
  base : ∀ t base args, s.shape t = .applied base args → base.index < t.index
  /-- The arguments of a parameterized type. -/
  args : ∀ t base args, s.shape t = .applied base args → ∀ a ∈ args, a.type.index < t.index
  /-- The class around the class behind a type. -/
  outer : ∀ t info, s.classInfo? t = some info → info.outer.index < t.index

/-- On a well-formed store whose classes lie in earlier ones, parts come first. -/
theorem WellFormed.partsFirst (hs : s.WellFormed) (hn : s.Nested) : s.PartsFirst where
  elem _ _ _ h := (hs.refers h (by simp)).1
  base _ _ _ h := (hs.refers h (by simp)).1
  args _ _ _ h := (hs.refers h (by simp)).2.2
  outer _ _ h := hn.outer_lt hs h

/-- The classes around a class are followed to the last one. -/
theorem PartsFirst.seekEnclosing_eq (h : s.PartsFirst) {fuel : Nat} {t : TypeId} (hfuel : t.index < fuel) :
    s.seekEnclosing? t = some (s.enclosingChain fuel t) := by
  induction fuel generalizing t with
  | zero => omega
  | succ fuel ih =>
    rw [seekEnclosing?.eq_def, enclosingChain]
    split
    · cases hinfo : s.classInfo? t with
      | none => rfl
      | some info =>
        have hlt := h.outer t info hinfo
        simp only [ih (by omega : info.outer.index < fuel)]
        rfl
    · rfl

/-- A number that was not handed out stands for no type, and for no class. -/
theorem of_not_knows {t : TypeId} (ht : ¬ s.Knows t) : s.shape t = .absent ∧ s.classInfo? t = none :=
  ⟨by_contra fun h => ht (knows_of_shape h), Option.eq_none_iff_forall_not_mem.mpr fun _ h =>
    ht (knows_of_classInfo (Option.isSome_of_mem h))⟩

/-- All classes around a class are found. -/
theorem PartsFirst.seekEnclosing (h : s.PartsFirst) (t : TypeId) : s.seekEnclosing? t = some (s.enclosing t) := by
  by_cases ht : s.Knows t
  · exact h.seekEnclosing_eq (Nat.lt_succ_of_lt ht)
  · rw [seekEnclosing?.eq_def, enclosing, enclosingChain, (of_not_knows ht).2]
    split <;> rfl

/-- The classes around a class are asked until one of them answers. -/
theorem PartsFirst.seekAround_eq (h : s.PartsFirst) {α : Type} {ask : TypeId → Option (Option α)} {answer : TypeId → Option α}
    (hask : ∀ c, ask c = some (answer c)) {fuel : Nat} {t : TypeId} (hfuel : t.index < fuel) :
    s.seekAround? ask t = some ((s.enclosingChain fuel t).findSome? answer) := by
  induction fuel generalizing t with
  | zero => omega
  | succ fuel ih =>
    rw [seekAround?.eq_def, enclosingChain]
    split
    · rw [hask, List.findSome?_cons]
      cases answer t with
      | some a => rfl
      | none =>
        cases hinfo : s.classInfo? t with
        | none => rfl
        | some info =>
          have hlt := h.outer t info hinfo
          exact ih (by omega)
    · rfl

/-- All classes around a class may be asked. -/
theorem PartsFirst.seekAround (h : s.PartsFirst) {α : Type} {ask : TypeId → Option (Option α)} {answer : TypeId → Option α}
    (hask : ∀ c, ask c = some (answer c)) (t : TypeId) : s.seekAround? ask t = some ((s.enclosing t).findSome? answer) := by
  by_cases ht : s.Knows t
  · exact h.seekAround_eq hask (Nat.lt_succ_of_lt ht)
  · rw [seekAround?.eq_def, enclosing, enclosingChain, (of_not_knows ht).2]
    split
    · rw [hask]
      cases hanswer : answer t <;> simp [hanswer]
    · rfl

/-! ## Names

The name of a class is put together from those of the classes around it, and a simple name is
asked of one after another.
-/

/-- Where there is a result for each element of a list, they make up the result for the list.
-/
theorem mapM_some {α β : Type} {f : α → Option β} {g : α → β} {l : List α} (h : ∀ a ∈ l, f a = some (g a)) :
    l.mapM f = some (l.map g) := by
  induction l with
  | nil => rfl
  | cons a l ih =>
    rw [List.mapM_cons, h a List.mem_cons_self, ih fun b hb => h b (List.mem_cons_of_mem a hb)]
    rfl

/-- The name of a type is found where the qualified names of the classes in it are. -/
theorem PartsFirst.seekName_eq (h : s.PartsFirst) {q : TypeId → String} {depth : Nat} {t : TypeId}
    (hq : ∀ c, c.index ≤ t.index → (s.shape c).isDeclared → s.seekQualified? c = some (q c)) :
    s.seekName? depth t = some (s.nameWith q depth t) := by
  induction depth generalizing t with
  | zero =>
    rw [seekName?.eq_def, nameWith]
  | succ depth ih =>
    have inner {u : TypeId} (hu : u.index < t.index) : s.seekName? depth u = some (s.nameWith q depth u) :=
      ih fun c hc => hq c (Nat.le_trans hc (Nat.le_of_lt hu))
    rw [seekName?.eq_def]
    unfold nameWith
    cases hshape : s.shape t with
    | declared slot => exact hq t (Nat.le_refl _) (by simp [hshape, TypeShape.isDeclared])
    | array e d =>
      simp only [inner (h.elem t e d hshape)]
      rfl
    | applied base args =>
      have htexts : (args.mapM fun a => do
          let inner ← if a.wildcard = .unbounded then some "" else s.seekName? depth a.type
          return argText (fun _ => inner) a) = some (args.map (argText (s.nameWith q depth))) := by
        refine mapM_some fun a ha => ?_
        rw [inner (h.args t base args hshape a ha)]
        unfold argText
        cases a.wildcard <;> rfl
      simp only [inner (h.base t base args hshape), htexts]
      rfl
    | _ => rfl

/-- A qualified name is found: the classes around a class come to an end. -/
theorem PartsFirst.seekQualified_eq (h : s.PartsFirst) (hn : s.Nested) {fuel : Nat} {t : TypeId} (hfuel : t.index < fuel) :
    s.seekQualified? t = some (s.qualifiedWithin fuel t) := by
  induction fuel generalizing t with
  | zero => omega
  | succ fuel ih =>
    rw [seekQualified?.eq_def, qualifiedWithin]
    cases hinfo : s.classInfo? t with
    | some info =>
      have hlt := h.outer t info hinfo
      dsimp only
      split
      · rw [ih (by omega : info.outer.index < fuel)]
        rfl
      · rename_i hnone
        simp [joinName, hnone]
    | none =>
      refine h.seekName_eq fun c hc hdecl => ih ?_
      -- A type without a class is no class itself, so the classes in its name come before it.
      have hne : c ≠ t := by
        rintro rfl
        obtain ⟨info, hc, -⟩ := hn.classInfo hdecl
        cases hc.symm.trans hinfo
      have hindex : c.index ≠ t.index := fun heq => hne (by cases c; cases t; exact congrArg _ heq)
      omega

/-- Every qualified name is found. -/
theorem PartsFirst.seekQualified (h : s.PartsFirst) (hn : s.Nested) (t : TypeId) : s.seekQualified? t = some (s.qualifiedName t) := by
  by_cases ht : s.Knows t
  · exact h.seekQualified_eq hn (Nat.lt_succ_of_lt ht)
  · obtain ⟨hshape, hinfo⟩ := of_not_knows ht
    rw [seekQualified?.eq_def, qualifiedName, qualifiedWithin, hinfo]
    show s.seekName? (32 + 1) t = some (s.nameWith _ (32 + 1) t)
    rw [seekName?.eq_def, nameWith, hshape]

/-- What a simple name denotes is found. -/
theorem PartsFirst.seekSimple (h : s.PartsFirst) (hn : s.Nested) (name : String) (sc : Scope) :
    s.seekSimple? name sc = some (s.lookupSimple? name sc) := by
  have hvariable := h.seekAround (fun c => (rfl : some (s.classVariable? name c) = _)) sc.cls
  have hmember : s.seekAround? (fun c => do
      let outer ← s.seekQualified? c
      return s.classNamed? (outer ++ "." ++ name)) sc.cls =
        some ((s.enclosing sc.cls).findSome? fun c => s.classNamed? (s.qualifiedName c ++ "." ++ name)) :=
    h.seekAround (fun c => by rw [h.seekQualified hn c]; rfl) sc.cls
  unfold seekSimple? lookupSimple?
  rw [hvariable, hmember]
  cases sc.params.lookup name with
  | some t => rfl
  | none =>
    dsimp only
    cases (s.enclosing sc.cls).findSome? (s.classVariable? name) with
    | some t => rfl
    | none => simp

/-! ## Runs that end

The match of an argument makes types and changes the store, so it is a step. `EndsAs` compares
a step without a bound to one that has a bound.
-/

/-- Without a bound, a step ends as another one does: in the same state and with the same
value. -/
def EndsAs {σ α : Type} (x' : StateT σ Option α) (x : StateM σ α) (s : σ) : Prop :=
  x' s = some (x s)

namespace EndsAs

variable {σ α β γ : Type} {x : StateM σ α} {x' : StateT σ Option α} {s : σ}

/-- One step after another. -/
theorem bind {k : α → StateM σ β} {k' : α → StateT σ Option β} (hx : EndsAs x' x s)
    (hk : EndsAs (k' (x s).1) (k (x s).1) (x s).2) : EndsAs (x' >>= k') (x >>= k) s := by
  show (x' s).bind (fun p => k' p.1 p.2) = some (k (x s).1 (x s).2)
  rw [hx]
  exact hk

/-- A value alone. -/
theorem ret (a : α) : EndsAs (pure a) (pure a) s :=
  rfl

/-- Reading the state. -/
theorem read {k : σ → StateM σ β} {k' : σ → StateT σ Option β} (h : EndsAs (k' s) (k s) s) : EndsAs (get >>= k') (get >>= k) s :=
  h

/-- A step that always ends, before another one. -/
theorem ending_bind {k : α → StateM σ β} {k' : α → StateT σ Option β} (h : EndsAs (k' (x s).1) (k (x s).1) (x s).2) :
    EndsAs (ending x >>= k') (x >>= k) s :=
  h

/-- The first element of a list for which a step finds something. -/
theorem findSomeM? {e : Evolution σ} {f : γ → StateM σ (Option α)} {f' : γ → StateT σ Option (Option α)} (l : List γ)
    (hs : e.Sound s) (hf : ∀ c ∈ l, ∀ t, e.Sound t → e.Leads s t → EndsAs (f' c) (f c) t ∧ e.Leads t (f c t).2) :
    EndsAs (l.findSomeM? f') (l.findSomeM? f) s := by
  induction l generalizing s with
  | nil => rfl
  | cons c l ih =>
    obtain ⟨hend, hlead⟩ := hf c List.mem_cons_self s hs (e.refl s)
    rw [List.findSomeM?_cons, List.findSomeM?_cons]
    refine hend.bind ?_
    cases (f c s).1 with
    | some b => rfl
    | none =>
      exact ih (e.sound hlead hs) fun c' hc' t ht hl => hf c' (List.mem_cons_of_mem c hc') t ht (e.trans hlead hl)

end EndsAs

/-! ## Arguments of generic calls

The match follows type arguments of the formal type. It makes types on the way, but it does
not follow them.
-/

variable {g : Guard}

/-- An argument that is no type supplies nothing. -/
theorem parameterizationOf_unknown {t : TypeId} (ht : ¬ s.Knows t) (owner : TypeId) : parameterizationOf t owner s = (none, s) := by
  unfold parameterizationOf supertypeDepth parameterizationWithin
  rw [get_bind_apply]
  simp only [(of_not_knows ht).1, classOf]
  rfl

/-- The match of an argument against a formal type ends: it goes on with type arguments of the
formal type, which have smaller numbers. -/
theorem seekArg_eq (var : TypeId) {fuel : Nat} {formal arg : TypeId} (hs : (growth g).Sound s) (hformal : s.Knows formal)
    (harg : s.Knows arg) (hfuel : formal.index < fuel) : EndsAs (TypeId.seekArg? var formal arg) (matchWithin var fuel formal arg) s := by
  induction fuel generalizing s formal arg with
  | zero => omega
  | succ fuel ih =>
    rw [TypeId.seekArg?.eq_def, matchWithin]
    refine EndsAs.read ?_
    cases hshape : s.shape formal with
    | applied base want =>
      obtain ⟨hlead, hp⟩ := parameterizationOf_works base harg hs
      have hs₁ := (growth g).sound hlead hs
      refine EndsAs.ending_bind ?_
      generalize parameterizationOf arg base s = r at hlead hp hs₁ ⊢
      obtain ⟨p, s₁⟩ := r
      cases p with
      | none => exact EndsAs.ret none
      | some p =>
        refine EndsAs.read (EndsAs.findSomeM? _ hs₁ fun wa hwa t ht hl => ?_)
        obtain ⟨w, a⟩ := wa
        obtain ⟨hw, ha⟩ := List.of_mem_zip hwa
        have hlt : w.type.index < fuel := by
          have := (hs.1.refers hshape (by simp)).2.2 w hw
          omega
        have hw' : t.Knows w.type := (growth_grows hl).knows ((growth_grows hlead).knows (hs.1.knows_arg hshape hw))
        have ha' : t.Knows a.type := (growth_grows hl).knows (hs₁.1.knows_argsOf ha)
        dsimp only
        split
        · exact ⟨EndsAs.ret none, .refl⟩
        · split
          · exact ⟨EndsAs.ret _, .refl⟩
          · refine ⟨EndsAs.read ?_, ?_⟩
            · split
              · exact ih ht hw' ha' hlt
              · exact EndsAs.ret none
            · rw [get_bind_apply]
              split
              · exact (matchWithin_works var fuel hw' ha' ht).1
              · exact .refl
    | _ => exact EndsAs.ret none

/-- Every match of an argument against a formal type ends. -/
theorem seekArg (var formal arg : TypeId) (hs : (growth g).Sound s) : EndsAs (TypeId.seekArg? var formal arg) (matchArg var formal arg) s := by
  by_cases hformal : s.Knows formal
  · by_cases harg : s.Knows arg
    · exact seekArg_eq var hs hformal harg (Nat.lt_succ_self _)
    · rw [TypeId.seekArg?.eq_def, matchArg, matchWithin]
      refine EndsAs.read ?_
      cases s.shape formal with
      | applied base want =>
        refine EndsAs.ending_bind ?_
        rw [parameterizationOf_unknown harg]
        exact EndsAs.ret none
      | _ => exact EndsAs.ret none
  · rw [TypeId.seekArg?.eq_def, matchArg, matchWithin]
    refine EndsAs.read ?_
    rw [(of_not_knows hformal).1]
    exact EndsAs.ret none

end TypeStore

/-! ## Stores on the way through a document

All stores that loading and running pass through are reached by single steps, each of which
keeps parts in front.
-/

/-- All that can be done to a store may be done, but to the headers of the predefined classes.
-/
def Guard.anything : Guard where
  classes := TypeStore.predefinedClasses.length
  vars := 0
  predefined := Guard.running.predefined
  declares _ := True
  embodies := True
  anyBounds := True
  heads _ _ _ := True

/-- What may be done before members are declared may be done. -/
theorem Guard.basic_within : Guard.basic.Within .anything :=
  ⟨Nat.le_refl _, Nat.le_refl _, fun _ => id, fun h => h.elim, id, fun _ _ _ => id⟩

/-- What may be done in a run may be done. -/
theorem Guard.running_within : Guard.running.Within .anything :=
  ⟨Nat.le_refl _, Nat.le_refl _, fun _ _ => trivial, id, id, fun _ _ _ h => h.elim⟩

/-- A store that is passed while a document is loaded and run: single steps lead to it from
the predefined types, and from it to the types of a stage of the run. This includes stores in
the middle of a step of the program. -/
def Document.Passes (d : Document) (f : Source.File) (base : Options) (s : TypeStore) : Prop :=
  ∃ k, (growth .anything).Leads TypeStore.initial s ∧
    (growth .anything).Leads s (((d.load f).session base).stage k).world.types

namespace Document

variable (d : Document) (f : Source.File) (base : Options)

/-- What is loaded from a document was added to the predefined types step by step, and no
anonymous class was. -/
theorem load_steps : (growth .basic).Leads TypeStore.initial (d.load f).world.types := by
  have hlaid := laid_initial f
  have hoptions := (Loader.options_works (Loader.loads_laying : Loader.Loads (Loader.laying .any)) d.options hlaid).1
  obtain ⟨-, hsound, hfills, hheaders⟩ := Loader.buildUniverse_fills d.classes (hoptions.laid hlaid)
  have hprogram := (programM_works d (Loader.filling.sound hfills hsound)).1
  have hdeclared := (Universe.initial_leads.2.trans hoptions.steps).trans hheaders
  exact hdeclared.trans (growth_widen (hfills.makes.trans hprogram.makes) (Loader.texting_within .any))

/-- What a stage of a run has was added to the predefined types step by step. -/
theorem stage_steps (k : Nat) :
    (growth .anything).Leads TypeStore.initial (((d.load f).session base).stage k).world.types := by
  have hleads := (Loaded.fresh d f base).stage_leads (Nat.zero_le k)
  rw [Session.stage_zero] at hleads
  exact (growth_widen (d.load_steps f) Guard.basic_within).trans (growth_widen hleads.2.world.types.steps Guard.running_within)

end Document

/-- While a document is loaded and run, every store has the parts of a type before the type:
the elements of an array, the class and the arguments of a parameterized type and the class
around a class. On each of them the match of an argument, the collection of the classes around
a class, the lookup of a simple name and the search for a qualified name end without a bound,
for whatever they are asked, and with the results of the functions that have one. The types of
every stage are among these stores. -/
theorem types_wellFounded (d : Document) (f : Source.File) (base : Options) :
    (∀ k, d.Passes f base (((d.load f).session base).stage k).world.types) ∧
      ∀ s, d.Passes f base s →
        s.PartsFirst ∧
        (∀ var formal arg, TypeId.seekArg? var formal arg s = some (matchArg var formal arg s)) ∧
        (∀ cls, s.seekEnclosing? cls = some (s.enclosing cls)) ∧
        (∀ name sc, s.seekSimple? name sc = some (s.lookupSimple? name sc)) ∧
        ∀ t, s.seekQualified? t = some (s.qualifiedName t) := by
  refine ⟨fun k => ⟨k, d.stage_steps f base k, .refl⟩, fun s ⟨k, hlead, _⟩ => ?_⟩
  have hs : (growth .anything).Sound s :=
    (growth .anything).sound hlead ⟨TypeStore.initial_wellFormed, by decide, Nat.zero_le _⟩
  have hn : s.Nested := (growth_grows hlead).nested TypeStore.initial_nested
  have hparts := hs.1.partsFirst hn
  exact ⟨hparts, fun var formal arg => seekArg var formal arg hs, hparts.seekEnclosing, hparts.seekSimple hn, hparts.seekQualified hn⟩

end CallResolution
