import CallResolution.Proofs.Members.Origins
import CallResolution.Proofs.Types.Naming

/-!
# Broken signatures

The text of a signature is processed at most once. When it has a fault the callable is broken
from then on, and this is reported right away; nothing else is reported under the same code.
So the reports of broken signatures and the broken callables go together one by one. A
callable that something was made of, an accessor or an entry of a member table with conflicts,
has a processed signature, and keeps it.

Main statements: `Moves.goesOn` (how signatures change), `Populated.reportsOnce`,
`Populated.forwards` and `SoundTable.isResolved_of_conflict`.
-/

namespace CallResolution

/-! ## States of signatures

How the signature of a callable may go on.
-/

/-- The text of a signature is taken up, and found to denote types or to have a fault. -/
inductive SignatureState.Next : SignatureState → SignatureState → Prop
  /-- The text is taken up. -/
  | start (text : SignatureText) : Next (.pending text) .resolving
  /-- The types are known. -/
  | resolve : Next .resolving .resolved
  /-- There is a fault. -/
  | fail : Next .resolving .broken

/-- A signature goes on as it can: from a text to one that is being processed, and from there
to types or to a fault. It never goes back, so what was found of it stays. -/
def SignatureState.GoesOn : SignatureState → SignatureState → Prop :=
  Relation.ReflTransGen SignatureState.Next

/-- A signature that was processed goes no further. -/
theorem SignatureState.GoesOn.eq_of_settled {s s' : SignatureState} (h : s.GoesOn s') (hs : s = .resolved ∨ s = .broken) : s' = s := by
  rcases Relation.ReflTransGen.cases_head h with rfl | ⟨next, hnext, -⟩
  · rfl
  · rcases hs with rfl | rfl <;> cases hnext

namespace Universe

variable {mayFinish : Universe → TypeId → Prop} {u u' : Universe} {id : MethodId} {m m' : Method}

/-- The signature of a callable that was there goes on. -/
theorem Origin.goesOn (h : Origin u u' id m') (hm : u.method? id = some m) : m.signature.GoesOn m'.signature := by
  rcases h.of_old hm with ⟨ps, rfl⟩ | ⟨text, d, hpending, -, ⟨-, rfl⟩ | ⟨-, rfl⟩⟩
  · exact .refl
  · rw [hpending]
    exact .tail (.single (.start text)) .resolve
  · rw [hpending]
    exact .tail (.single (.start text)) .fail

/-- Signatures go on along moves. -/
theorem Moves.goesOn (h : Moves mayFinish u u') (hs : u.SoundBodies) (hm : u.method? id = some m) :
    ∃ m', u'.method? id = some m' ∧ m.signature.GoesOn m'.signature := by
  suffices hboth : u'.SoundBodies ∧ ∃ m', u'.method? id = some m' ∧ m.signature.GoesOn m'.signature from hboth.2
  refine h.keeps (I := fun v => v.SoundBodies ∧ ∃ m', v.method? id = some m' ∧ m.signature.GoesOn m'.signature)
    (fun {v w} hv hmove hi => ?_) ⟨hs, m, hm, .refl⟩
  obtain ⟨hsv, m₁, hm₁, hgoes₁⟩ := hi
  obtain ⟨m₂, hm₂, -⟩ := hmove.sameDeclaration hsv hv hm₁
  exact ⟨Moves.soundBodies (.single ⟨hv, hmove⟩) hsv, m₂, hm₂, hgoes₁.trans ((hmove.origin hsv hm₂).goesOn hm₁)⟩

/-- A processed signature stays processed by a move. -/
theorem Move.isResolved (hs : u.SoundBodies) (hu : u.WellFormed) (h : Move mayFinish u u') (hid : (u.method id).isResolved) :
    (u'.method id).isResolved := by
  obtain ⟨m', hm', hgoes⟩ := Moves.goesOn (.single ⟨hu, h⟩) hs (method?_of_isResolved hid)
  have hsignature : (u.method id).signature = .resolved := of_decide_eq_true hid
  rw [method_eq hm']
  exact decide_eq_true ((hgoes.eq_of_settled (.inl hsignature)).trans hsignature)

/-! ## What is made of callables

Accessors and conflicts are made of callables with processed signatures only.
-/

/-- What a callable forwards to: nothing, or a member with a processed signature when it is an
accessor. So a broken callable is never called through an accessor. -/
def ForwardsWell (u : Universe) (m : Method) : Prop :=
  m.flags.isAccessor = false ∧ m.target = .none ∨ m.flags.isAccessor ∧ (u.method m.target).isResolved

/-- What an accessor is made as. -/
theorem MakesAccessor.made_eq {key : AccessorKey} {acc : Method} (h : u.MakesAccessor key acc) :
    acc.flags.isAccessor ∧ acc.target = key.member ∧ acc.signature = .resolved := by
  rcases h.made with ⟨-, rfl⟩ | ⟨-, mark, -, rfl⟩ <;> exact ⟨rfl, rfl, rfl⟩

/-- What a new callable forwards to has a processed signature, and so has still what an old
one does. -/
theorem Move.forwards (hs : u.SoundBodies) (hu : u.WellFormed) (h : Move mayFinish u u')
    (hi : ∀ id m, u.method? id = some m → u.ForwardsWell m) (hm : u'.method? id = some m') : u'.ForwardsWell m' := by
  have old {m : Method} (hold : u.method? id = some m) (hflags : m'.flags = m.flags) (htarget : m'.target = m.target) :
      u'.ForwardsWell m' := by
    unfold ForwardsWell
    rw [hflags, htarget]
    exact (hi id m hold).imp_right fun hfwd => ⟨hfwd.1, h.isResolved hs hu hfwd.2⟩
  cases h.origin hs hm with
  | kept _ hold eq => exact old hold (by rw [eq]) (by rw [eq])
  | read hold reads move eq =>
    obtain ⟨params, returns, throws, typeParams, signature, hframe⟩ := reads.frame _
    rw [hframe] at eq
    exact old hold (by rw [eq]) (by rw [eq])
  | declared new declared => exact .inl ⟨declared.notAccessor, declared.direct⟩
  | accessor new made _ =>
    obtain ⟨haccessor, htarget, -⟩ := made.made_eq
    exact .inr ⟨haccessor, htarget ▸ h.isResolved hs hu made.resolved⟩

/-- The callables of an untouched universe forward to nothing, and their signatures have been
processed. -/
theorem Untouched.direct (h : u.Untouched) (hm : u.method? id = some m) :
    m.flags.isAccessor = false ∧ m.target = .none ∧ m.signature = .resolved := by
  rw [h.method?] at hm
  exact (initial_declares.2.1 m (Array.mem_toList_iff.mpr (Array.mem_of_getElem? (getElem?_of_method? hm)))).1

/-- What holds of every callable before anything is declared, and is kept by every move, holds
of every callable. -/
theorem Populated.callables {I : Universe → MethodId → Method → Prop} (h : u.Populated)
    (start : ∀ v : Universe, v.Untouched → ∀ id m, v.method? id = some m → I v id m)
    (step : ∀ {v w : Universe}, v.SoundBodies → v.WellFormed → Move anything v w →
      (∀ id m, v.method? id = some m → I v id m) → ∀ id m, w.method? id = some m → I w id m)
    (hm : u.method? id = some m) : I u id m := by
  suffices hboth : u.SoundBodies ∧ ∀ id m, u.method? id = some m → I u id m from hboth.2 id m hm
  refine h.keeps (I := fun v => v.SoundBodies ∧ ∀ id m, v.method? id = some m → I v id m)
    (fun v hv => ⟨hv.soundBodies.1, start v hv⟩) fun {v w} hv hmove hi => ?_
  exact ⟨Moves.soundBodies (.single ⟨hv, hmove⟩) hi.1, step hi.1 hv hmove hi.2⟩

/-- Accessors forward to members with processed signatures, and nothing else forwards. -/
theorem Populated.forwards (h : u.Populated) (hm : u.method? id = some m) : u.ForwardsWell m :=
  h.callables (I := fun v _ m => v.ForwardsWell m)
    (fun _ hv _ _ hm => .inl ⟨(hv.direct hm).1, (hv.direct hm).2.1⟩)
    (fun hs hv hmove hi _ _ hm => hmove.forwards hs hv hi hm) hm

/-- No signature is being processed between two moves. -/
theorem Populated.not_resolving (h : u.Populated) (hm : u.method? id = some m) : m.signature ≠ .resolving := by
  refine h.callables (I := fun _ _ m => m.signature ≠ .resolving) (fun v hv id m hm => ?_)
    (fun {v w} hs hv hmove hi id m hm => ?_) hm
  · simp [(hv.direct hm).2.2]
  · cases hmove.origin hs hm with
    | kept _ old eq =>
      rw [eq]
      exact fun hresolving => hi id _ old hresolving
    | read old reads move eq =>
      obtain ⟨_, text, d, -, -, -, ⟨-, rfl, -⟩ | ⟨-, rfl, -⟩⟩ := reads
      · rw [eq]
        simp [Method.withDraft]
      · rw [eq]
        simp
    | declared new declared =>
      rcases declared.signature with ⟨text, hpending, -⟩ | ⟨hresolved, -⟩
      · simp [hpending]
      · simp [hresolved]
    | accessor new made _ => simp [made.made_eq.2.2]

/-! ## Reports

Each broken signature is reported once, at the moment at which it is found to be broken.
-/

/-- The signature of a callable has a fault. -/
def IsBroken (u : Universe) (id : MethodId) : Prop :=
  ∃ m, u.method? id = some m ∧ m.signature = .broken

/-- What was reported of broken signatures, in order. -/
def brokenReports (u : Universe) : List Diagnostic :=
  u.reports.toList.filter fun d => d.code = .unresolvedSignature

/-- A diagnostic is the report of the broken signature of a callable. -/
def ReportsBroken (u : Universe) (d : Diagnostic) (id : MethodId) : Prop :=
  ∃ m text faults, u.method? id = some m ∧ d = brokenReport u.types m text faults

/-- The broken callables and the reports of broken signatures go together one by one: as many
reports as broken callables, each report about one of them, and none about another. -/
def ReportsOnce (u : Universe) : Prop :=
  ∃ ids : List MethodId, ids.Nodup ∧ (∀ id, id ∈ ids ↔ u.IsBroken id) ∧ List.Forall₂ u.ReportsBroken u.brokenReports ids

/-- What is reported of a callable does not depend on what happened since. -/
theorem ReportsBroken.move (hs : u.SoundBodies) (hu : u.WellFormed) (hn : u.types.Nested) (h : Move mayFinish u u')
    {d : Diagnostic} (hd : u.ReportsBroken d id) : u'.ReportsBroken d id := by
  obtain ⟨m, text, faults, hm, rfl⟩ := hd
  obtain ⟨m', hm', hsame⟩ := h.sameDeclaration hs hu hm
  have howner : u.types.Knows m.owner := method_eq hm ▸ (hu.method id).owner
  refine ⟨m', text, faults, hm', ?_⟩
  unfold brokenReport
  rw [Method.isConstructor, Method.isConstructor, hsame.kind, hsame.owner, hsame.decl,
    h.types_extends.qualifiedName hu.types hn howner, h.types_extends.classInfo hu.types howner]

/-- Reports under other codes do not count. -/
theorem brokenReports_push {d : Diagnostic} (reports : u'.reports = u.reports.push d) :
    u'.brokenReports = u.brokenReports ++ if d.code = .unresolvedSignature then [d] else [] := by
  unfold brokenReports
  rw [reports, Array.toList_push, List.filter_append]
  by_cases h : d.code = .unresolvedSignature <;> simp [h]

/-- A callable that was changed. -/
theorem method?_modify_self {f : Method → Method} (methods : u'.methods = u.methods.modify (id.index - 1) f)
    (hm : u.method? id = some m) : u'.method? id = some (f m) := by
  obtain ⟨hid, hplace⟩ := method?_eq_some_iff.mp hm
  refine method?_eq_some_iff.mpr ⟨hid, ?_⟩
  rw [methods, Array.getElem?_modify, if_pos rfl, hplace]
  rfl

/-- Changing a callable makes no new one. -/
theorem exists_of_modify {i : Nat} {f : Method → Method} (methods : u'.methods = u.methods.modify i f)
    (hm' : u'.method? id = some m') : ∃ m, u.method? id = some m := by
  obtain ⟨hid, hplace⟩ := method?_eq_some_iff.mp hm'
  rw [methods, Array.getElem?_modify] at hplace
  split at hplace
  · obtain ⟨m, hm, -⟩ := Option.map_eq_some_iff.mp hplace
    exact ⟨m, method?_eq_some_iff.mpr ⟨hid, hm⟩⟩
  · exact ⟨m', method?_eq_some_iff.mpr ⟨hid, hplace⟩⟩

/-- The report of the text that a move finds to have a fault, and no other move reports a
broken signature. -/
theorem Move.brokenReports_cases (h : Move mayFinish u u') : u'.brokenReports = u.brokenReports ∨
    ∃ id m text faults, u.method? id = some m ∧ m.signature = .pending text ∧
      u'.methods = u.methods.modify (id.index - 1) ({ · with signature := .broken }) ∧
      u'.reports = u.reports.push (brokenReport u'.types m text faults) := by
  have same (hsame : u'.reports = u.reports) : u'.brokenReports = u.brokenReports := by rw [brokenReports, brokenReports, hsame]
  cases h with
  | report d other =>
    have hpush : brokenReports { u with reports := u.reports.push d } = _ := brokenReports_push (u := u) rfl
    rw [if_neg other, List.append_nil] at hpush
    exact .inl hpush
  | read made reads =>
    obtain ⟨m, text, d, hm, hpending, -, ⟨-, -, rfl⟩ | ⟨-, rfl, rfl⟩⟩ := reads
    · exact .inl (same rfl)
    · exact .inr ⟨_, m, text, d.faults, hm, hpending, rfl, rfl⟩
  | method => exact .inl (same (by rw [addMethod_eq]))
  | arrayMembers =>
    refine .inl (same ?_)
    unfold Universe.arrayMembers
    rw [get_bind_apply]
    split <;> rfl
  | @capture t name type _ =>
    refine .inl (same ?_)
    rcases addCapture_cases t name type u with ⟨c, -, h⟩ | ⟨-, -, h⟩ | ⟨-, -, h⟩
    · rw [h]
    · rw [h]
    · rw [h]
      rfl
  | @finish t _ _ =>
    refine .inl (same ?_)
    rcases completeClass_cases t u with ⟨-, h⟩ | ⟨-, h⟩ <;> rw [h]
  | _ => exact .inl (same rfl)

/-- A broken callable was broken before a move, unless the move found its text to have a
fault. -/
theorem Move.isBroken_cases (hs : u.SoundBodies) (h : Move mayFinish u u') (hid : u'.IsBroken id) :
    u.IsBroken id ∨ u'.brokenReports ≠ u.brokenReports := by
  obtain ⟨m', hm', hbroken⟩ := hid
  cases h.origin hs hm' with
  | kept _ old eq => exact .inl ⟨_, old, by rw [eq] at hbroken; exact hbroken⟩
  | @read _ types _ _ old reads move eq =>
    obtain ⟨m, text, d, hm, -, -, ⟨-, rfl, -⟩ | ⟨-, rfl, hreports⟩⟩ := reads
    · rw [eq] at hbroken
      cases hbroken
    · refine .inr ?_
      have hpush : u'.reports = u.reports.push (brokenReport types m text d.faults) := by rw [move]; exact hreports
      rw [brokenReports_push hpush, if_pos (brokenReport_code _ _ _ _)]
      simp
  | declared new declared =>
    rcases declared.signature with ⟨text, hpending, -⟩ | ⟨hresolved, -⟩
    · rw [hbroken] at hpending
      cases hpending
    · rw [hbroken] at hresolved
      cases hresolved
  | accessor new made _ =>
    rw [made.made_eq.2.2] at hbroken
    cases hbroken

/-- Broken callables stay broken. -/
theorem Move.isBroken (hs : u.SoundBodies) (hu : u.WellFormed) (h : Move mayFinish u u') (hid : u.IsBroken id) : u'.IsBroken id := by
  obtain ⟨m, hm, hbroken⟩ := hid
  obtain ⟨m', hm', hgoes⟩ := Moves.goesOn (.single ⟨hu, h⟩) hs hm
  exact ⟨m', hm', (hgoes.eq_of_settled (.inr hbroken)).trans hbroken⟩

/-- Reports and broken callables still go together after a move. The move that finds a fault
in a text adds one of each; every other move adds neither. -/
theorem ReportsOnce.move (hs : u.SoundBodies) (hu : u.WellFormed) (hn : u.types.Nested) (h : Move mayFinish u u')
    (hi : u.ReportsOnce) : u'.ReportsOnce := by
  obtain ⟨ids, hnodup, hbroken, hreports⟩ := hi
  have hkept : List.Forall₂ u'.ReportsBroken u.brokenReports ids := hreports.imp fun _ _ hd => hd.move hs hu hn h
  rcases h.brokenReports_cases with hsame | ⟨id, m, text, faults, hm, hpending, hmethods, hpush⟩
  · refine ⟨ids, hnodup, fun id => (hbroken id).trans ⟨h.isBroken hs hu, fun hid => ?_⟩, hsame ▸ hkept⟩
    exact (h.isBroken_cases hs hid).resolve_right (not_not_intro hsame)
  · -- The callable was no broken one, for its text was not taken up before.
    have hnew : id ∉ ids := fun hmem => by
      obtain ⟨m₀, hm₀, hbroken₀⟩ := (hbroken id).mp hmem
      cases hm.symm.trans hm₀
      rw [hpending] at hbroken₀
      cases hbroken₀
    have hmade := method?_modify_self hmethods hm
    have hreport : u'.brokenReports = u.brokenReports ++ [brokenReport u'.types m text faults] := by
      rw [brokenReports_push hpush, if_pos (brokenReport_code _ _ _ _)]
    refine ⟨ids ++ [id], ?_, fun id' => ⟨fun hmem => ?_, fun hid => ?_⟩, ?_⟩
    · exact List.nodup_append.mpr ⟨hnodup, List.nodup_singleton id, by simpa using fun a ha (heq : a = id) => hnew (heq ▸ ha)⟩
    · rcases List.mem_append.mp hmem with hmem | hmem
      · exact h.isBroken hs hu ((hbroken id').mp hmem)
      · rw [List.mem_singleton.mp hmem]
        exact ⟨_, hmade, rfl⟩
    · obtain ⟨m', hm', hbroken'⟩ := hid
      obtain ⟨m₁, hm₁⟩ := exists_of_modify hmethods hm'
      rcases method?_modify_cases hmethods hm₁ hm' with ⟨-, rfl⟩ | ⟨hplace, -⟩
      · exact List.mem_append_left _ ((hbroken id').mpr ⟨_, hm₁, hbroken'⟩)
      · exact List.mem_append_right _ (List.mem_singleton.mpr (eq_of_place hm₁ hm hplace))
    · rw [hreport]
      exact List.rel_append hkept (.cons ⟨_, text, faults, hmade, rfl⟩ .nil)

/-- What was reported of broken signatures, and the callables that are broken. -/
theorem Populated.reportsOnce (h : u.Populated) : u.ReportsOnce := by
  suffices hall : u.SoundBodies ∧ u.types.Nested ∧ u.ReportsOnce from hall.2.2
  refine h.keeps (I := fun v => v.SoundBodies ∧ v.types.Nested ∧ v.ReportsOnce) (fun v hv => ?_) fun {v w} hv hmove hi => ?_
  · refine ⟨hv.soundBodies.1, hv.nested, [], List.nodup_nil, fun id => ?_, ?_⟩
    · refine iff_of_false List.not_mem_nil ?_
      rintro ⟨m, hm, hbroken⟩
      rw [(hv.direct hm).2.2] at hbroken
      cases hbroken
    · have hnone : v.brokenReports = [] := by
        refine List.filter_eq_nil_iff.mpr fun d hd => ?_
        simpa using hv.reports d (Array.mem_toList_iff.mp hd)
      rw [hnone]
      exact .nil
  · obtain ⟨hs, hn, hi⟩ := hi
    exact ⟨Moves.soundBodies (.single ⟨hv, hmove⟩) hs, hmove.types_extends.toGrows.nested hn, hi.move hs hv hn hmove⟩

/-! ## Conflicts

An overload with conflicts was compared with them, which takes a processed signature.
-/

/-- A member table was made, of a class or of an array. -/
inductive HasTable (u : Universe) (table : MemberTable) : Prop
  /-- The table of a class. -/
  | ofClass {cls : TypeId} {c : ClassMembers} (found : u.members.lookup cls = some c) (built : c.table = .built table)
  /-- The table of an array. -/
  | ofArray {t : TypeId} (mem : (t, table) ∈ u.arrayTables)

/-- The overloads in a table that was made are sound. -/
theorem HasTable.sound {table : MemberTable} (h : u.HasTable table) (hu : u.WellFormed) : u.SoundTable table := by
  cases h with
  | ofClass found built => exact hu.tables _ (TypeStore.mem_of_lookup found) table built
  | ofArray mem => exact hu.arrayTables _ mem

/-- A callable is in conflict with what a table lists only when its signature was processed.
-/
theorem SoundTable.isResolved_of_conflict {table : MemberTable} (h : u.SoundTable table) {p : String × List Shadow}
    (hp : p ∈ table.methods) {s : Shadow} (hs : s ∈ p.2) (hid : id ∈ s.conflicts) : (u.method id).isResolved :=
  (isResolved_of_sameSignature ((h.shadows p hp s hs).conflicts id hid)).2

end Universe

end CallResolution
