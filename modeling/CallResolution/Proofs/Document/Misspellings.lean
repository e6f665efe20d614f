import CallResolution.Proofs.Document.Program
import CallResolution.Proofs.Resolve.Stages

/-!
# Misspelled calls of documents

A call that is refused as misspelled is told of another method that it may have meant. The
method can be used as it is named: it has another name than the one that was called, the
searched type lists it within reach or with conflicts, and it takes the arguments. There was
no way to call a method of the called name: every type that was searched has been looked
through, and none lists an overload of this name that is within reach, or has conflicts, and
has a processed signature.

Main statement: `misspelling_usable`.
-/

namespace CallResolution

open Session Universe

/-- Where no table is being made, a type without a table has no members. -/
theorem Universe.Tableless.not_hasMembers {u : Universe} {t : TypeId} (h : u.Tableless t) (hmaking : ∀ cls, ¬ u.IsMaking cls) :
    u.hasMembers t = false := by
  refine h.resolve_right fun hbuilding => ?_
  cases harray : u.types.isArray t with
  | false =>
    rw [tableState_of_not_isArray harray, ← isMaking_iff] at hbuilding
    exact hmaking _ hbuilding
  | true =>
    rw [tableState_of_isArray harray] at hbuilding
    have hroot : (u.membersOf .object).table = .building := by
      unfold arrayState at hbuilding
      split at hbuilding
      · cases hbuilding
      · assumption
      · cases hbuilding
    exact hmaking _ (isMaking_iff.mpr hroot)

/-- A type was looked through for overloads of a name, and none competes for a call: the type
has no members, or its table lists no overload with a processed signature that is within reach
or has conflicts. Overloads that are out of reach may be there. -/
def Universe.LacksOverload (u : Universe) (env : Env) (q : Option Qualifier) (name : String) (t : TypeId) : Prop :=
  u.hasMembers t = false ∨ ∃ ss, u.listed t name = some ss ∧ ∀ s ∈ ss, (u.method s.method).isResolved →
    memberAccessible u.types env (u.method s.method) t q = false ∧ s.conflicts = []

theorem Universe.NoneCompetes.lacksOverload {u : Universe} {env : Env} {q : Option Qualifier} {name : String} {t : TypeId}
    (h : u.NoneCompetes env q name t) (hmaking : ∀ cls, ¬ u.IsMaking cls) : u.LacksOverload env q name t := by
  rcases h with hnone | ⟨ss, hlisted, hidle⟩
  · exact .inl (hnone.not_hasMembers hmaking)
  · refine .inr ⟨ss, hlisted, fun s hs hresolved => ?_⟩
    have hcompetes := (hidle s hs).2
    unfold competes at hcompetes
    simpa [hresolved] using hcompetes

/-- No table is half made when the binding of a call has ended. -/
theorem Session.Turn.not_isMaking {st : Session} (t : Turn st) (h : Fresh st) (hloaded : ∀ cls, ¬ st.world.IsMaking cls)
    (cls : TypeId) : ¬ t.outcome.2.world.IsMaking cls := by
  rw [← t.before_succ]
  exact fun hmaking => hloaded cls ((h.begun.reached (t.place + 1)).leads.2.world.making cls hmaking)

/-- A method call that is refused as misspelled. The last report names a method that the call
may have meant: it has another name, a searched type lists it within reach or with conflicts,
and the arguments convert to its parameters, one for each. And no searched type lists an
overload of the called name with a processed signature that is within reach or has conflicts.
What is searched is the type of the receiver; without one it is the classes around the call,
or a class that a static import names. -/
theorem misspelling_usable (d : Document) (f : Source.File) (base : Options) (t : Turn ((d.load f).session base)) {name : String}
    {recv : Option Expr} (hcall : t.site.call = .method name recv) {e : Failure} (he : t.outcome.1 = some e)
    (hcode : e.code = some .methodNameMisspelled) :
    ∃ place, (recv = none → place = .none ∨ place ∈ t.start.importedClasses) ∧
      let x := unmatchedMethod t.start t.env t.site name recv place
      let u := t.outcome.2.world
      (∃ scope ∈ x.scopes, ∃ s, x.Means scope u s ∧
        u.faults.getLast? = some (.error .methodNameMisspelled t.site.span (x.suggestion scope u s.method))) ∧
      ∀ scope ∈ x.scopes, u.LacksOverload t.env x.qualifier name scope := by
  have hfresh : Fresh ((d.load f).session base) := Loaded.fresh d f base
  obtain ⟨place, hplaced, hjustifies⟩ := t.justified hfresh hcall he _ hcode (by decide)
  obtain ⟨hidle, hnames⟩ := hjustifies.suggests rfl
  have hmaking := t.not_isMaking hfresh (d.load_not_isMaking f)
  obtain ⟨r, hprogram, -⟩ := (t.resolves hfresh).result
  have himports : t.outcome.2.importedClasses = t.start.importedClasses := by
    rw [importedClasses, hprogram]
    rfl
  cases recv with
  | none =>
    exact ⟨place, fun _ => himports ▸ hplaced rfl, hnames, fun scope hscope => (hidle scope hscope).lacksOverload hmaking⟩
  | some recv =>
    exact ⟨place, by simp, hnames, fun scope hscope => (hidle scope hscope).lacksOverload hmaking⟩

/-- A class with a method that takes any instance, and a call with a text in which two letters
of its name are swapped. -/
def swappedDocument : Document where
  classes := [
    .mk { name := "p.A", methods := [{ name := "fetch", params := ["Object"], returns := "void" }] } []]
  program := [{ id := "a", cls := "p.A", call := "fecth", args := [{ type := "String" }] }]

/-- Whether the call of a turn is a method call that is refused as misspelled. -/
def Session.Turn.isMisspelled {st : Session} (t : Turn st) : Bool :=
  t.outcome.1.any (·.code = some .methodNameMisspelled) && t.site.call.isMethod

theorem swappedDocument_misspells : (((swappedDocument.load blankFile).session {}).turnAt? 0).any (·.isMisspelled) = true := by
  decide +kernel

/-- What such a turn refuses. -/
theorem Session.Turn.exists_of_isMisspelled {st : Session} {t : Turn st} (h : t.isMisspelled) :
    ∃ e name recv, t.outcome.1 = some e ∧ e.code = some .methodNameMisspelled ∧ t.site.call = .method name recv := by
  obtain ⟨hcode, hcall⟩ := Bool.and_eq_true_iff.mp h
  obtain ⟨e, he, hcode⟩ := (Option.any_eq_true _ _).mp hcode
  obtain ⟨name, recv, hsame⟩ := Call.exists_of_isMethod hcall
  exact ⟨e, name, recv, he, of_decide_eq_true hcode, hsame⟩

/-- The method with the letters in order is suggested. -/
theorem swapped_usable : ∃ (t : Turn ((swappedDocument.load blankFile).session {})) (name : String) (recv : Option Expr)
    (place scope : TypeId) (s : Shadow), t.site.call = .method name recv ∧
      (unmatchedMethod t.start t.env t.site name recv place).Means scope t.outcome.2.world s ∧
      t.outcome.2.world.LacksOverload t.env (unmatchedMethod t.start t.env t.site name recv place).qualifier name scope := by
  obtain ⟨t, -, ht⟩ := (Option.any_eq_true _ _).mp swappedDocument_misspells
  obtain ⟨e, name, recv, he, hcode, hcall⟩ := Session.Turn.exists_of_isMisspelled ht
  obtain ⟨place, -, ⟨scope, hscope, s, hmeans, -⟩, hlacks⟩ := misspelling_usable _ _ _ t hcall he hcode
  exact ⟨t, name, recv, place, scope, s, hcall, hmeans, hlacks scope hscope⟩

end CallResolution
