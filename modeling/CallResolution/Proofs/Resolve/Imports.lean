import CallResolution.Proofs.Evolution
import CallResolution.Resolve.MethodCall

/-!
# Static imports are not looked at before they are needed

Selecting among the methods that frames list, explaining why nothing was found and binding a
call to what was selected read the universe and the options of a session, never its program,
and so none of the static imports in it. Such steps are `Blind`: with any other program in its
place they do the same.

Blindness is an equation between two runs of a step, and composes without conditions: reading
the universe is blind, so are reports and whatever works on universes or types, and a sequence
of blind steps is blind. So the proofs follow the text of the functions. Not blind are the
steps that read static imports, and those that read what became of other sites.

Main statements: `selectLexically_blind`, `methodNotFound_blind` and `bindLexical_blind`.
-/

namespace CallResolution.Session

/-- A session with another program. -/
def withProgram (st : Session) (p : Program) : Session :=
  { st with program := p }

/-- A step that does not depend on the program, and leaves it alone. -/
def Blind {α : Type} (x : SessionM α) : Prop :=
  ∀ p st, x (withProgram st p) = ((x st).1, (x st).2.withProgram p)

variable {α β : Type} {x : SessionM α}

namespace Blind

theorem ret {a : α} : Blind (pure a) :=
  fun _ _ => rfl

theorem bind {f : α → SessionM β} (hx : Blind x) (hf : ∀ a, Blind (f a)) : Blind (x >>= f) := by
  intro p st
  show f (x (withProgram st p)).1 (x (withProgram st p)).2 = _
  rw [hx p st]
  exact hf _ p _

/-- Reading what is not of the program. -/
theorem read {f : Session → SessionM β} (hf : ∀ st, Blind (f st)) (hsame : ∀ p st, f (withProgram st p) = f st) :
    Blind (get >>= f) := by
  intro p st
  show f (withProgram st p) (withProgram st p) = _
  rw [hsame p st]
  exact hf st p st

theorem world {y : UniverseM α} : Blind (onUniverse y) :=
  fun _ _ => rfl

theorem types {y : TypeM α} : Blind (onTypes y) :=
  fun _ _ => rfl

theorem getUniverse : Blind getUniverse :=
  fun _ _ => rfl

theorem getTypes : Blind getTypes :=
  fun _ _ => rfl

theorem report {d : Diagnostic} : Blind (report d) :=
  fun _ _ => rfl

theorem forM {γ : Type} {f : γ → SessionM PUnit} (l : List γ) (hf : ∀ c, Blind (f c)) : Blind (l.forM f) := by
  induction l with
  | nil => exact ret
  | cons c l ih => exact (hf c).bind fun _ => ih

/-! ## Steps that may fail

A failure is a value of such a step, so nothing changes but the form of the equations.
-/

theorem throw {f : Failure} : Blind (throw f : ResolveM α).run :=
  fun _ _ => rfl

theorem pure {a : α} : Blind (pure a : ResolveM α).run :=
  fun _ _ => rfl

theorem tries {x : ResolveM α} {f : α → ResolveM β} (hx : Blind x.run) (hf : ∀ a, Blind (f a).run) : Blind (x >>= f).run := by
  refine bind (f := ExceptT.bindCont f) hx fun r => ?_
  cases r with
  | ok a => exact hf a
  | error e => exact ret

theorem lift {f : α → ResolveM β} (hx : Blind x) (hf : ∀ a, Blind (f a).run) : Blind (ExceptT.lift x >>= f).run :=
  tries (fun p st => by
    show (Except.ok (x (withProgram st p)).1, (x (withProgram st p)).2) = _
    rw [hx p st]
    rfl) hf

end Blind

/-! ## Selecting -/

theorem notePhases_blind (l : List (Phase × Nat)) : Blind (notePhases l) := by
  induction l with
  | nil => exact .ret
  | cons p l ih => exact .bind (fun _ _ => rfl) fun _ => ih

theorem selectAmong_blind (cands : List Candidate) (args : List TypeId) : Blind (selectAmong cands args) :=
  .read (fun _ => (notePhases_blind _).bind fun _ => .ret) fun _ _ => rfl

theorem selectLexically_blind (env : Env) (site : Site) (name : String) (args : List TypeId) (frames : List (Frame × Nat)) :
    Blind (selectLexically env site name args frames) := by
  refine .bind .world fun r => ?_
  match r with
  | .error e => exact .ret
  | .ok none => exact .ret
  | .ok (some (i, f, shadows)) =>
    exact .bind (.bind .world fun _ => .bind .world fun _ => selectAmong_blind _ _) fun _ => .ret

/-! ## Explaining -/

theorem hiddenBehind_blind (x : Unmatched) (frames : List (Frame × Nat)) : Blind (hiddenBehind x frames) := by
  induction frames with
  | nil => exact .ret
  | cons p rest ih =>
    refine (selectLexically_blind _ _ _ _ _).bind fun r => ?_
    match r with
    | .ok (some (_, f, _, some sel)) => exact .ret
    | .ok (some (_, _, _, none)) => exact ih
    | .ok none => exact ih
    | .error e => exact ih

theorem explainHidden_blind (x : Unmatched) : Blind (explainHidden x) := by
  unfold explainHidden
  split
  · exact .ret
  · refine .bind .world fun r => ?_
    match r with
    | none => exact .ret
    | some (inner, i) =>
      refine (hiddenBehind_blind x _).bind fun r => ?_
      match r with
      | none => exact .ret
      | some (f, id) => exact .bind .getUniverse fun _ => .bind .report fun _ => .ret

theorem explainOverload_blind (x : Unmatched) (scope : TypeId) : Blind (explainOverload x scope) := by
  refine .bind .world fun _ => .bind .world fun _ => .bind .getUniverse fun u => ?_
  dsimp only
  split
  · exact .ret
  · exact .bind .report fun _ => .ret

theorem explainField_blind (x : Unmatched) (scope : TypeId) : Blind (explainField x scope) := by
  unfold explainField
  split
  · exact .ret
  · refine .bind .world fun r => ?_
    cases r with
    | error e => exact .ret
    | ok table =>
      refine .bind .getUniverse fun u => ?_
      split
      · exact .ret
      · split
        · exact .bind .report fun _ => .ret
        · exact .ret

theorem explainInaccessible_blind (x : Unmatched) (scope : TypeId) : Blind (explainInaccessible x scope) := by
  refine .bind .getTypes fun s => .bind .world fun r => ?_
  cases r with
  | none => exact .ret
  | some m =>
    refine .bind .getUniverse fun u => ?_
    dsimp only
    split
    · exact .bind .report fun _ => .ret
    · split
      · exact .bind .report fun _ => .ret
      · exact .bind .report fun _ => .ret

theorem explainMisspelling_blind (x : Unmatched) (scope : TypeId) : Blind (explainMisspelling x scope) := by
  refine .bind .world fun r => ?_
  cases r with
  | error e => exact .ret
  | ok table =>
    refine .bind .world fun scored => ?_
    split
    · exact .ret
    · split
      · exact .bind .getUniverse fun _ => .bind .report fun _ => .ret
      · exact .ret

theorem explainType_blind (x : Unmatched) : Blind (explainType x) := by
  refine .bind .getTypes fun s => ?_
  split
  · exact .ret
  · exact .bind .report fun _ => .ret

theorem firstFitting_blind {xs : List (SessionM (Option Code))} {last : SessionM Code} (hxs : ∀ x ∈ xs, Blind x)
    (hlast : Blind last) : Blind (firstFitting xs last) := by
  induction xs with
  | nil => exact hlast
  | cons x xs ih =>
    refine (hxs x (by simp)).bind fun code => ?_
    cases code with
    | some code => exact .ret
    | none => exact ih fun y hy => hxs y (by simp [hy])

theorem methodNotFound_blind (x : Unmatched) : Blind (methodNotFound x) := by
  refine firstFitting_blind (fun e he => ?_) (.bind .getTypes fun _ => .bind .report fun _ => .ret)
  simp only [List.mem_append, List.mem_singleton, List.mem_map] at he
  rcases he with ((((rfl | ⟨t, -, rfl⟩) | ⟨t, -, rfl⟩) | ⟨t, -, rfl⟩) | ⟨t, -, rfl⟩) | rfl
  · exact explainHidden_blind x
  · exact explainOverload_blind x t
  · exact explainField_blind x t
  · exact explainInaccessible_blind x t
  · exact explainMisspelling_blind x t
  · exact explainType_blind x

/-! ## Binding -/

theorem pick_blind (site : Site) (sel : Selection) (code : Code) : Blind (pick site sel code) := by
  unfold pick
  split
  · exact .ret
  · exact .bind .getUniverse fun _ => .bind .report fun _ => .ret

theorem reject_blind (site : Site) (kind : FailureKind) (code : Code) (msg : String) :
    Blind (reject site kind code msg : ResolveM α).run :=
  .lift .report fun _ => .throw

theorem checkInstance_blind (env : Env) (site : Site) (id : MethodId) (frame : Nat) :
    Blind (checkInstance env site id frame).run := by
  refine .lift .getUniverse fun u => ?_
  split
  · exact .pure
  · dsimp only
    split
    · exact .tries (reject_blind _ _ _ _) fun _ => by
        split
        · exact reject_blind _ _ _ _
        · exact .pure
    · split
      · exact reject_blind _ _ _ _
      · exact .pure

theorem checkScopingConflict_blind (env : Env) (site : Site) (name : String) (id : MethodId) (frame : Nat) :
    Blind (checkScopingConflict env site name id frame) := by
  refine .read (fun st => ?_) fun _ _ => rfl
  dsimp only
  split
  · split
    · exact .ret
    · exact .report
  · exact .ret

theorem checkCallable_blind (env : Env) (site : Site) (id : MethodId) : Blind (checkCallable env site id) := by
  refine .read (fun st => ?_) fun _ _ => rfl
  dsimp only
  split
  · refine .bind .report fun _ => ?_
    split
    · exact .report
    · exact .ret
  · split
    · exact .report
    · exact .ret

theorem callThrows_blind (env : Env) (site : Site) (conflicts : List MethodId) (target : MethodId) (args : List TypeId) :
    Blind (callThrows env site conflicts target args) := by
  refine .bind .getUniverse fun u => .bind .types fun thrown => .bind .world fun _ => .bind .getUniverse fun u => ?_
  exact .bind (.bind .getTypes fun _ => .forM _ fun _ => .report) fun _ => .ret

theorem callType_blind (id : MethodId) (recv : TypeId) (qualified : Bool) (site : Site) (args : List TypeId) :
    Blind (callType id recv qualified site args) :=
  .bind .getUniverse fun _ => .types

theorem bindLexical_blind (env : Env) (site : Site) (name : String) (args : List TypeId) (frame : Nat) (f : Frame)
    (shadows : List Shadow) (sel : Selection) : Blind (bindLexical env site name args frame f shadows sel).run := by
  refine .lift (pick_blind _ _ _) fun id => .tries (checkInstance_blind _ _ _ _) fun _ => ?_
  refine .lift (checkScopingConflict_blind _ _ _ _ _) fun _ => .lift .getUniverse fun u => ?_
  refine .lift (checkCallable_blind _ _ _) fun _ => .lift (callType_blind _ _ _ _ _) fun type => ?_
  exact .lift .world fun lowered => .lift (callThrows_blind _ _ _ _ _) fun throws => .pure

end CallResolution.Session
