import CallResolution.Proofs.Document.Inference
import CallResolution.Proofs.Resolve.Instantiated

/-!
# Exceptions of the type that a call has

A method may return a value of one of its type variables and declare the variable as an
exception. What stands for the variable in a call is looked up for the type of the call, and
once more for its exceptions. Both give the same without type arguments, unless the type is a
type variable of the declaring class: in the type of the call it is replaced once more by what
the receiver supplies. Type arguments are for the type alone; what the call raises is still
taken from its arguments. All this is about methods without conflicts, since conflicts take
exceptions away and add others.

Main statements: `raised_as_returned` and `raised_otherwise`.
-/

namespace CallResolution

open Session Universe

/-- What a method call searches lists the method without conflicts. The type that is searched
is one that the call may be called on, as told by `CalledOn`. -/
def Session.Undisputed (st : Session) (u : Universe) (env : Env) (name : String) (recv : Option Expr) (id : MethodId) : Prop :=
  ∀ search x qualified, CalledOn st u env name recv search x qualified →
    ∀ shadows, u.listed search name = some shadows → ∀ s ∈ shadows, s.Names id → s.conflicts = []

/-- The table of a class, if it is made. -/
def TableState.made? : TableState → Option MemberTable
  | .built table => some table
  | _ => none

/-- Whether a table lists a method with conflicts. -/
def MemberTable.disputes (t : MemberTable) (id : MethodId) : Bool :=
  t.methods.any fun p => p.2.any fun s => (id = s.method || id ∈ s.conflicts) && !s.conflicts.isEmpty

/-- Whether a class or an array lists a method with conflicts. -/
def Universe.disputes (u : Universe) (id : MethodId) : Bool :=
  u.members.any (fun p => p.2.table.made?.any (·.disputes id)) || u.arrayTables.any fun p => p.2.disputes id

/-- A method that no table lists with conflicts is listed without conflicts wherever a call
searches. -/
theorem Session.undisputed_of_disputes {u : Universe} {id : MethodId} (h : u.disputes id = false) (st : Session) (env : Env)
    (name : String) (recv : Option Expr) : st.Undisputed u env name recv id := by
  intro search x qualified _ shadows hlisted s hs hnames
  obtain ⟨table, htable, rfl⟩ := Option.map_eq_some_iff.mp hlisted
  have hdisputes : s.conflicts ≠ [] → table.disputes id := fun hne => by
    refine MemberTable.All.overloads (P := fun s => s.Names id → s.conflicts ≠ [] → table.disputes id)
      (fun p hp s hs hid hne => ?_) hs hnames hne
    exact List.any_eq_true.mpr ⟨p, hp, List.any_eq_true.mpr ⟨s, hs, by simpa [Shadow.Names, hne] using hid⟩⟩
  by_contra hne
  refine absurd h (Bool.not_eq_false _ ▸ Bool.or_eq_true_iff.mpr ?_)
  rcases recorded_of_table? htable with ⟨cls, c, hfound, hbuilt⟩ | ⟨p, hp, rfl⟩
  · refine .inl (List.any_eq_true.mpr ⟨(cls, c), TypeStore.mem_of_lookup hfound, ?_⟩)
    simpa [hbuilt, TableState.made?] using hdisputes hne
  · exact .inr (List.any_eq_true.mpr ⟨p, hp, hdisputes hne⟩)

namespace Method

variable {m m' : Method} {s s' : TypeStore} {v : TypeId}

/-- What is said of a method that returns a value of a type variable was so before. -/
theorem Returns.of_later (h : m'.Returns s' v) (hlater : m.Later m') (hm : m.isResolved) (hext : s.Extends s') (hs : s.WellFormed)
    (hknown : m.Known s) : m.Returns s v := by
  obtain ⟨-, hparams, hreturns, -, htypeParams⟩ := hlater.resolved hm
  have hown : v ∈ m.typeParams := htypeParams ▸ h.own
  refine ⟨?_, ?_, hown, ?_, hreturns ▸ h.returns⟩
  · rw [← h.notConstructor, isConstructor, isConstructor, hlater.kind]
  · rw [← h.notGetClass, isGetClass, isGetClass, hlater.name, hlater.owner, hparams]
  · rw [← hext.typeVariable hs (hknown.typeParams v hown)]
    exact h.isVariable

/-- What stands for a type variable depends on the parameters. -/
theorem inferOrErase_congr (hparams : m'.params = m.params) (hflags : m'.flags = m.flags) (exprs : List Expr) (args : List TypeId) :
    m'.inferOrErase exprs args v = m.inferOrErase exprs args v := by
  simp only [inferOrErase, infer, declaredFormals, hparams, hflags]

end Method

namespace Session

variable {u₀ u : Universe} {site : Site} {args : List TypeId} {r : Resolution} {name : String} {v search recv : TypeId}
  {qualified : Bool}

/-- What a call without type arguments raises for a type variable that the method returns a
value of is the type of the call, unless it is a type variable of the declaring class. -/
theorem TypesCall.raised (h : TypesCall u₀ u site args r name search recv qualified) (hu : u.Populated)
    (hm : (u.method r.callable).Returns u.types v) (hcount : site.typeArgs.length ≠ (u.method r.callable).typeParams.length)
    (hundisputed : ∀ shadows, u.listed search name = some shadows → ∀ s ∈ shadows, s.Names r.callable → s.conflicts = []) {i : Nat}
    (hi : (u.method r.callable).throws[i]? = some v) :
    ∃ T, r.throws[i]? = some T ∧ (T.isSome → ¬ u.types.HasVariableOf (u.method r.callable).owner T → r.type = T) := by
  have hlater := h.keeps.later h.resolved
  have hs := h.wellFormed.types
  have hknown := h.wellFormed.method r.callable
  have hm₀ := hm.of_later hlater h.resolved h.keeps.types hs hknown
  have hclone := hu.ne_arrayClone h.moves (List.ne_nil_of_mem hm.own)
  rw [(hlater.resolved h.resolved).2.2.2.2] at hcount
  obtain ⟨conflicts, ⟨-, shadows, hlisted, s, hmem, hnames, rfl⟩, hraises⟩ := h.raises
  obtain ⟨u₁, hafter, hbetween, hthrows⟩ := hraises (hundisputed shadows hlisted s hmem hnames)
  rw [hclone] at hafter
  obtain ⟨T, hT, hstays, htype⟩ := hm₀.callType hs hknown h.knowsSite h.knowsArgs hcount h.knows qualified
  -- the callable as the exceptions find it
  have hlater₁ := hbetween.later h.resolved
  obtain ⟨hresolved₁, hparams₁, -⟩ := hlater₁.resolved h.resolved
  have hs₁ := hthrows.wellFormed.types
  have hknown₁ := hthrows.wellFormed.method r.callable
  have hm₁ := hm.of_later (hthrows.keeps.later hresolved₁) hresolved₁ hthrows.keeps.types hs₁ hknown₁
  rw [((hthrows.keeps.later hresolved₁).resolved hresolved₁).2.2.2.1] at hi
  refine ⟨T, ?_, fun hsome hforeign => ?_⟩
  · have hg := hbetween.types.toGrows
    rw [hthrows.throws]
    refine Method.getElem?_mapM_thrownType hs₁ hknown₁ (h.knowsSite.grows hg) (fun t ht => hg.knows (h.knowsArgs t ht)) hi
      fun w hw => hm₁.thrownType hs₁ hknown₁ hw ?_
    rw [Method.inferOrErase_congr hparams₁ hlater₁.flags]
    exact hstays w (hafter.trans hw)
  · obtain ⟨hwellFormed, -⟩ := hs.run fun g =>
      Method.callType_works (g := g) hknown false h.knows qualified h.knowsSite h.knowsArgs
    rw [(hafter.trans hthrows.keeps.types).hasVariableOf hwellFormed hT, hlater.owner] at hforeign
    rw [h.type, hclone, htype hsome hforeign]

end Session

/-! ## Along a run

What is raised and what is returned are worked out at the turn of the call and recorded
together.
-/

/-- A method call without type arguments raises what it returns: where the method declares a
type variable as an exception that it returns a value of, the call has the exception as its
type. This is so when the method is listed without conflicts where the call searches, and the
exception is no type variable of the declaring class. -/
theorem raised_as_returned (d : Document) (f : Source.File) (base : Options) (t : Turn ((d.load f).session base)) {m : Nat}
    (hm : t.place < m) {site : Site} (hsite : (((d.load f).session base).begun.before m).program.site? t.id = some site)
    (hresolved : site.result.state = .resolved) {name : String} {recv : Option Expr} (hcall : site.call = .method name recv) :
    let u := (((d.load f).session base).begun.before m).world
    let callable := u.method site.result.callable
    ∀ v : TypeId, callable.Returns u.types v → site.typeArgs.length ≠ callable.typeParams.length →
      t.start.Undisputed u t.env name recv site.result.callable → ∀ i : Nat, callable.throws[i]? = some v →
        ∃ T, site.result.throws[i]? = some T ∧
          (T.isSome → ¬ u.types.HasVariableOf callable.owner T → site.result.type = T) := by
  intro u callable v hreturns hcount hundisputed i hi
  have hfresh := Loaded.fresh d f base
  have hpopulated : u.Populated := (Loaded.populated d f base).moves (hfresh.begun.reached m).leads.2.moves
  obtain ⟨u₀, y, x, q, htypes, hcalled⟩ := t.typed hfresh hm hsite (.inl hresolved) hcall
  exact htypes.raised hpopulated hreturns hcount (hundisputed y x q hcalled) hi

/-- A class with a method that raises what it returns, and calls of it: without type
arguments, and with one. All exceptions are handled, so nothing is reported. -/
def raisingDocument : Document where
  classes := [
    .mk { name := "p.A", methods := [
      { name := "raise", typeParams := ["E extends Throwable"], params := ["E"], returns := "E", throws := ["E"] }] } []]
  program := [
    { id := "a", cls := "p.A", call := "raise", args := [{ type := "RuntimeException" }], handled := ["Throwable"] },
    { id := "b", cls := "p.A", call := "raise", typeArgs := ["Exception"], args := [{ type := "RuntimeException" }],
      handled := ["Throwable"] }]

instance (m : Method) (s : TypeStore) (v : TypeId) : Decidable (m.Returns s v) :=
  decidable_of_iff (m.isConstructor = false ∧ m.isGetClass = false ∧ v ∈ m.typeParams ∧
      ((s.typeVariable? v).any fun x => x.method ≠ 0) ∧ m.returns = v)
    ⟨fun h => ⟨h.1, h.2.1, h.2.2.1, by simpa [Option.any_eq_true] using h.2.2.2.1, h.2.2.2.2⟩,
      fun h => ⟨h.notConstructor, h.notGetClass, h.own, by simpa [Option.any_eq_true] using h.isVariable, h.returns⟩⟩

/-- Whether the call of a turn is a method call that is resolved by then, of a method that is
nowhere listed with conflicts and returns a value of a type variable that it declares as an
exception; what is to be found out of it may be added. -/
def Session.Turn.raisesReturned {st : Session} (t : Turn st) (m : Nat) (p : Universe → Site → Nat → Bool) : Bool :=
  let u := (st.begun.before m).world
  ((st.begun.before m).program.site? t.id).any fun site =>
    let callable := u.method site.result.callable
    decide (t.place < m ∧ site.result.state = .resolved ∧ site.call.isMethod ∧ u.disputes site.result.callable = false) &&
      callable.throws.zipIdx.any fun q => decide (callable.Returns u.types q.1) && p u site q.2

/-- The call of such a turn. -/
theorem Session.Turn.exists_of_raisesReturned {st : Session} {t : Turn st} {m : Nat} {p : Universe → Site → Nat → Bool}
    (h : t.raisesReturned m p) : ∃ site name recv, (st.begun.before m).program.site? t.id = some site ∧
      let u := (st.begun.before m).world
      let callable := u.method site.result.callable
      (t.place < m ∧ site.result.state = .resolved ∧ site.call = .method name recv ∧
        t.start.Undisputed u t.env name recv site.result.callable) ∧
          ∃ (v : TypeId) (i : Nat), callable.Returns u.types v ∧ callable.throws[i]? = some v ∧ p u site i := by
  obtain ⟨site, hsite, h⟩ := (Option.any_eq_true _ _).mp h
  obtain ⟨hbound, h⟩ := Bool.and_eq_true_iff.mp h
  obtain ⟨hm, hresolved, hmethod, hdisputes⟩ := of_decide_eq_true hbound
  obtain ⟨name, recv, hcall⟩ := Call.exists_of_isMethod hmethod
  obtain ⟨q, hq, h⟩ := List.any_eq_true.mp h
  obtain ⟨hreturns, h⟩ := Bool.and_eq_true_iff.mp h
  exact ⟨site, name, recv, hsite, ⟨hm, hresolved, hcall, undisputed_of_disputes hdisputes _ _ _ _⟩, q.1, q.2,
    of_decide_eq_true hreturns, List.mem_zipIdx_iff_getElem?.mp hq, h⟩

theorem raisingDocument_raises :
    let st := (raisingDocument.load blankFile).session {}
    (st.turnAt? 0).any (fun t => t.raisesReturned 2 fun u site i =>
      let callable := u.method site.result.callable
      decide (site.typeArgs.length ≠ callable.typeParams.length) && site.result.throws[i]?.any fun T =>
        T.isSome && !decide (u.types.HasVariableOf callable.owner T)) ∧
    (st.turnAt? 1).any (fun t => t.raisesReturned 2 fun _ site i =>
      decide (site.result.throws[i]? ≠ some site.result.type)) := by
  decide +kernel

/-- What is returned is raised by a call without type arguments. -/
theorem raised_without_type_arguments :
    let st := (raisingDocument.load blankFile).session {}
    let u := (st.begun.before 2).world
    ∃ (t : Turn st) (site : Site) (v : TypeId) (i : Nat), (st.begun.before 2).program.site? t.id = some site ∧
      (u.method site.result.callable).Returns u.types v ∧ (u.method site.result.callable).throws[i]? = some v ∧
        site.result.throws[i]? = some site.result.type := by
  obtain ⟨hraises, -⟩ := raisingDocument_raises
  have hraised := raised_as_returned raisingDocument blankFile {}
  generalize (raisingDocument.load blankFile).session {} = st at hraises hraised ⊢
  obtain ⟨t, -, ht⟩ := (Option.any_eq_true _ _).mp hraises
  obtain ⟨site, name, recv, hsite, ⟨hm, hresolved, hcall, hundisputed⟩, v, i, hreturns, hi, h⟩ := Turn.exists_of_raisesReturned ht
  obtain ⟨hcount, h⟩ := Bool.and_eq_true_iff.mp h
  obtain ⟨T, hT, h⟩ := (Option.any_eq_true _ _).mp h
  simp only [Bool.and_eq_true, Bool.not_eq_true', decide_eq_false_iff_not] at h
  obtain ⟨T', hT', htype⟩ := hraised t hm hsite hresolved hcall v hreturns (of_decide_eq_true hcount) hundisputed i hi
  obtain rfl : T = T' := Option.some.inj (hT.symm.trans hT')
  exact ⟨t, site, v, i, hsite, hreturns, hi, by rw [htype h.1 h.2, hT]⟩

/-- A type argument is returned, but it is not raised. The type of the call takes explicit
type arguments into account, and the exceptions do not. -/
theorem raised_otherwise : ¬ ∀ (d : Document) (f : Source.File) (base : Options) (t : Turn ((d.load f).session base)) (m : Nat)
    (site : Site) (name : String) (recv : Option Expr), t.place < m →
      (((d.load f).session base).begun.before m).program.site? t.id = some site → site.result.state = .resolved →
        site.call = .method name recv → let u := (((d.load f).session base).begun.before m).world
        let callable := u.method site.result.callable
        t.start.Undisputed u t.env name recv site.result.callable → ∀ v : TypeId, callable.Returns u.types v →
          ∀ i : Nat, callable.throws[i]? = some v → site.result.throws[i]? = some site.result.type := by
  intro h
  obtain ⟨-, hraises⟩ := raisingDocument_raises
  have hraised := h raisingDocument blankFile {}
  generalize (raisingDocument.load blankFile).session {} = st at hraises hraised
  obtain ⟨t, -, ht⟩ := (Option.any_eq_true _ _).mp hraises
  obtain ⟨site, name, recv, hsite, ⟨hm, hresolved, hcall, hundisputed⟩, v, i, hreturns, hi, hother⟩ :=
    Turn.exists_of_raisesReturned ht
  exact of_decide_eq_true hother (hraised t 2 site name recv hm hsite hresolved hcall hundisputed v hreturns i hi)

end CallResolution
