import CallResolution.Proofs.Members.Bodies

/-!
# Where callables come from

A move leaves a callable as it is, gives it parameters for captures, or processes its text;
what is new was declared, or is an accessor. `Origin` lists these cases. What holds of all
callables along a run is shown by going through them.

Main statements: `Move.origin`, and `Moves.sameDeclaration`, which says that nothing of a
declaration changes.
-/

namespace CallResolution

/-- What a callable is declared as stays; its signature may be processed, and it may get
parameters for captures. -/
structure Method.SameDeclaration (m m' : Method) : Prop where
  /-- The name. -/
  name : m'.name = m.name
  /-- The declaring class. -/
  owner : m'.owner = m.owner
  /-- Method or constructor. -/
  kind : m'.kind = m.kind
  /-- Who may call it. -/
  access : m'.access = m.access
  /-- The marks. -/
  flags : m'.flags = m.flags
  /-- Where it is declared. -/
  decl : m'.decl = m.decl
  /-- What it forwards to. -/
  target : m'.target = m.target

namespace Method.SameDeclaration

theorem refl (m : Method) : SameDeclaration m m :=
  ⟨rfl, rfl, rfl, rfl, rfl, rfl, rfl⟩

theorem trans {m m' m'' : Method} (h : SameDeclaration m m') (h' : SameDeclaration m' m'') : SameDeclaration m m'' :=
  ⟨h'.name.trans h.name, h'.owner.trans h.owner, h'.kind.trans h.kind, h'.access.trans h.access, h'.flags.trans h.flags,
    h'.decl.trans h.decl, h'.target.trans h.target⟩

end Method.SameDeclaration

namespace Universe

variable {mayFinish : Universe → TypeId → Prop} {u u' : Universe} {id : MethodId} {m m' : Method}

/-- How a callable of a universe came about in the move that led there: it was there, perhaps
without parameters for captures; its text was processed; it was declared; or it was made as an
accessor. In the cases in which the move did nothing else this is said as well. -/
inductive Origin (u u' : Universe) (id : MethodId) (m' : Method) : Prop
  /-- It was there, and at most got parameters for captures. -/
  | kept {m : Method} (ps : List TypeId) (old : u.method? id = some m) (eq : m' = { m with captureParams := ps })
  /-- Its text was processed, and that is all that the move did. -/
  | read {m : Method} {types : TypeStore} {f : Method → Method} {reports : Array Diagnostic} (old : u.method? id = some m)
      (reads : u.ReadsText id types f reports)
      (move : u' = { u with types, methods := u.methods.modify (id.index - 1) f, reports }) (eq : m' = f m)
  /-- It was declared just now. -/
  | declared (new : u.method? id = none) (declared : m'.AsDeclared)
  /-- It was just made as the accessor of a key, and that is all that the move did. -/
  | accessor {key : AccessorKey} (new : u.method? id = none) (made : u.MakesAccessor key m') (move : u' = u.withAccessor key m')

/-- A callable that is left alone. -/
theorem Origin.of_same (h : u'.methods = u.methods) (hm : u'.method? id = some m') : Origin u u' id m' := by
  rw [method?, h] at hm
  exact .kept m'.captureParams hm rfl

/-- Nothing stands behind the last callable. -/
theorem method?_fresh (u : Universe) : u.method? ⟨u.methods.size + 1⟩ = none := by
  simp [method?, MethodId.none]

/-- A callable beside one that was added, or the one that was added. -/
theorem method?_push_cases (methods : u'.methods = u.methods.push m) (hm : u'.method? id = some m') :
    u.method? id = some m' ∨ id = ⟨u.methods.size + 1⟩ ∧ m' = m := by
  obtain ⟨hid, hm⟩ := method?_eq_some_iff.mp hm
  rw [methods, Array.getElem?_push] at hm
  split at hm
  · rename_i hplace
    refine .inr ⟨?_, by simpa using hm.symm⟩
    obtain ⟨i⟩ := id
    simp only [MethodId.none, ne_eq, MethodId.mk.injEq] at hid hplace ⊢
    omega
  · exact .inl (method?_eq_some_iff.mpr ⟨hid, hm⟩)

/-- What its class declares a callable as is as good as the callable. -/
theorem asDeclared_declaredAs (h : m.AsDeclared) : (declaredAs m).AsDeclared := by
  unfold declaredAs
  split
  · exact ⟨h.bare, h.notAccessor, h.direct, h.signature⟩
  · exact h

/-- Callables that stand at the same place are the same. -/
theorem eq_of_place {id' : MethodId} (hm : u.method? id = some m) (hm' : u'.method? id' = some m')
    (hplace : id.index - 1 = id'.index - 1) : id = id' := by
  obtain ⟨hid, -⟩ := method?_eq_some_iff.mp hm
  obtain ⟨hid', -⟩ := method?_eq_some_iff.mp hm'
  obtain ⟨i⟩ := id
  obtain ⟨j⟩ := id'
  simp only [MethodId.none, ne_eq, MethodId.mk.injEq] at hid hid' hplace ⊢
  omega

/-- Where the callables of a universe come from in which the text of one was processed. -/
theorem ReadsText.origin {read : MethodId} {f : Method → Method} {types : TypeStore} {reports : Array Diagnostic}
    (h : u.ReadsText read types f reports) (move : u' = { u with types, methods := u.methods.modify (read.index - 1) f, reports })
    (hm : u'.method? id = some m') : Origin u u' id m' := by
  obtain ⟨m, hread⟩ : ∃ m, u.method? read = some m := by
    obtain ⟨m, _, _, hread, -⟩ := h
    exact ⟨m, hread⟩
  obtain ⟨hid, hplace⟩ := method?_eq_some_iff.mp hm
  rw [show u'.methods = _ from congrArg Universe.methods move, Array.getElem?_modify] at hplace
  split at hplace
  · rename_i hindex
    obtain rfl := eq_of_place hread hm hindex
    rw [getElem?_of_method? hread] at hplace
    exact .read hread h move (Option.some.inj hplace).symm
  · exact .kept m'.captureParams (method?_eq_some_iff.mpr ⟨hid, hplace⟩) rfl

/-- Where the callables come from that there are after a move. Every kind of move is one of
these cases or leaves all callables alone. -/
theorem Move.origin (hs : u.SoundBodies) (h : Move mayFinish u u') (hm : u'.method? id = some m') : Origin u u' id m' := by
  have pushed {made : Method} (methods : u'.methods = u.methods.push made) (hmade : made.AsDeclared) : Origin u u' id m' := by
    rcases method?_push_cases methods hm with hold | ⟨rfl, rfl⟩
    · exact .kept m'.captureParams hold rfl
    · exact .declared (method?_fresh u) hmade
  cases h with
  | read made reads => exact reads.origin rfl hm
  | method known first declared _ => exact pushed (by rw [addMethod_eq]) (asDeclared_declaredAs declared)
  | accessor known made =>
    rcases method?_push_cases rfl hm with hold | ⟨rfl, rfl⟩
    · exact .kept m'.captureParams hold rfl
    · exact .accessor (method?_fresh u) made rfl
  | arrayMembers =>
    unfold Universe.arrayMembers at hm pushed ⊢
    rw [get_bind_apply] at hm pushed ⊢
    split at hm
    · rename_i hmade
      rw [if_pos hmade]
      exact .of_same rfl hm
    · rename_i hmade
      rw [if_neg hmade] at pushed ⊢
      exact pushed rfl ⟨rfl, rfl, rfl, .inr ⟨rfl, rfl⟩⟩
  | @capture t name type _ =>
    rcases addCapture_cases t name type u with ⟨c, -, h⟩ | ⟨-, -, h⟩ | ⟨-, -, h⟩ <;> rw [h] at hm ⊢ <;> exact .of_same rfl hm
  | @finish t _ _ =>
    rcases completeClass_cases t u with ⟨-, h⟩ | ⟨hopen, -⟩
    · rw [h] at hm ⊢
      exact .of_same rfl hm
    · rw [method?_completeClass hs hopen] at hm
      obtain ⟨m, hold, heq⟩ := Option.map_eq_some_iff.mp hm
      split at heq
      · exact .kept _ hold heq.symm
      · exact .kept m.captureParams hold heq.symm
  | _ => exact .of_same rfl hm

/-- What a callable that was there is after a move. -/
theorem Origin.of_old (h : Origin u u' id m') (hm : u.method? id = some m) :
    (∃ ps, m' = { m with captureParams := ps }) ∨
    ∃ text d, m.signature = .pending text ∧ SignatureDraft.ofText id m.kind m.owner text u.types = (d, u'.types) ∧
      (d.faults.isEmpty ∧ m' = m.withDraft d ∨ ¬ d.faults.isEmpty ∧ m' = { m with signature := .broken }) := by
  cases h with
  | kept ps old eq =>
    cases hm.symm.trans old
    exact .inl ⟨ps, eq⟩
  | read old reads move eq =>
    obtain ⟨_, text, d, hread, hpending, hdraft, hcases⟩ := reads
    cases hm.symm.trans old
    cases hm.symm.trans hread
    rw [move, eq]
    refine .inr ⟨text, d, hpending, hdraft, hcases.imp (fun hc => ⟨hc.1, ?_⟩) fun hc => ⟨hc.1, ?_⟩⟩
    · rw [hc.2.1]
    · rw [hc.2.1]
  | declared new _ => cases hm.symm.trans new
  | accessor new _ _ => cases hm.symm.trans new

/-- Nothing of the declaration of a callable changes by a move. -/
theorem Move.sameDeclaration (hs : u.SoundBodies) (hu : u.WellFormed) (h : Move mayFinish u u') (hm : u.method? id = some m) :
    ∃ m', u'.method? id = some m' ∧ m.SameDeclaration m' := by
  obtain ⟨m', hm', -⟩ := Moves.sameKinds (.single ⟨hu, h⟩) hs id m hm
  refine ⟨m', hm', ?_⟩
  rcases (h.origin hs hm').of_old hm with ⟨ps, rfl⟩ | ⟨text, d, -, -, ⟨-, rfl⟩ | ⟨-, rfl⟩⟩
  · exact ⟨rfl, rfl, rfl, rfl, rfl, rfl, rfl⟩
  · exact ⟨rfl, rfl, rfl, rfl, rfl, rfl, rfl⟩
  · exact ⟨rfl, rfl, rfl, rfl, rfl, rfl, rfl⟩

/-- Nothing of the declaration of a callable changes by moves. -/
theorem Moves.sameDeclaration (h : Moves mayFinish u u') (hs : u.SoundBodies) (hm : u.method? id = some m) :
    ∃ m', u'.method? id = some m' ∧ m.SameDeclaration m' := by
  suffices hboth : u'.SoundBodies ∧ ∃ m', u'.method? id = some m' ∧ m.SameDeclaration m' from hboth.2
  refine h.keeps (I := fun v => v.SoundBodies ∧ ∃ m', v.method? id = some m' ∧ m.SameDeclaration m')
    (fun {v w} hv hmove hi => ?_) ⟨hs, m, hm, .refl m⟩
  obtain ⟨hsv, m₁, hm₁, hsame₁⟩ := hi
  obtain ⟨m₂, hm₂, hsame₂⟩ := hmove.sameDeclaration hsv hv hm₁
  exact ⟨Moves.soundBodies (.single ⟨hv, hmove⟩) hsv, m₂, hm₂, hsame₁.trans hsame₂⟩

end Universe

end CallResolution
