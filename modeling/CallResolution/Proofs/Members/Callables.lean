import CallResolution.Members.Expanded
import CallResolution.Members.Capture
import CallResolution.Proofs.Types.Settled

/-!
# Callables

What a callable mentions is known, and what was said of it stays said: its declaration never
changes, and its signature is looked at once. `Universe.Retains` is the part of the growth of
universes that types and callables take: types are extended, and every callable is a later
state of what it was.

Main statements: `Method.Later.trans` and `Universe.Retains.processed`.
-/

namespace CallResolution

/-! ## Callables

What becomes of one callable.
-/

namespace Method

/-- The types that a callable mentions are known. -/
structure Known (s : TypeStore) (m : Method) : Prop where
  /-- The declaring class. -/
  owner : s.Knows m.owner
  /-- The parameter types. -/
  params : ∀ t ∈ m.params, s.Knows t
  /-- The result type. -/
  returns : s.Knows m.returns
  /-- The exceptions. -/
  throws : ∀ t ∈ m.throws, s.Knows t
  /-- The type variables. -/
  typeParams : ∀ t ∈ m.typeParams, s.Knows t

theorem Known.grows {s s' : TypeStore} {m : Method} (hm : m.Known s) (h : s.Grows s') : m.Known s' where
  owner := h.knows hm.owner
  params t ht := h.knows (hm.params t ht)
  returns := h.knows hm.returns
  throws t ht := h.knows (hm.throws t ht)
  typeParams t ht := h.knows (hm.typeParams t ht)

/-- Whether the signature is still a text. -/
def isPending (m : Method) : Bool :=
  match m.signature with
  | .pending _ => true
  | _ => false

/-- What a callable may become: its declaration stays, and so does a signature that has been
looked at. Parameters for captures are no part of either, and come in when the body of its
class is finished. -/
structure Later (m m' : Method) : Prop where
  /-- The name stays. -/
  name : m'.name = m.name
  /-- The declaring class stays. -/
  owner : m'.owner = m.owner
  /-- A method stays a method. -/
  kind : m'.kind = m.kind
  /-- The access stays. -/
  access : m'.access = m.access
  /-- The marks stay. -/
  flags : m'.flags = m.flags
  /-- A signature is looked at once. -/
  signature : ¬ m.isPending → m'.signature = m.signature
  /-- A processed signature stays. -/
  resolved : m.isResolved → m'.isResolved ∧ m'.params = m.params ∧ m'.returns = m.returns ∧ m'.throws = m.throws ∧
    m'.typeParams = m.typeParams

theorem Later.refl (m : Method) : Later m m :=
  ⟨rfl, rfl, rfl, rfl, rfl, fun _ => rfl, fun h => ⟨h, rfl, rfl, rfl, rfl⟩⟩

/-- No signature becomes a text again. -/
theorem Later.not_isPending {m m' : Method} (h : Later m m') (hm : ¬ m.isPending) : ¬ m'.isPending := by
  unfold isPending at *
  rwa [h.signature hm]

theorem Later.trans {m m' m'' : Method} (h : Later m m') (h' : Later m' m'') : Later m m'' where
  name := h'.name.trans h.name
  owner := h'.owner.trans h.owner
  kind := h'.kind.trans h.kind
  access := h'.access.trans h.access
  flags := h'.flags.trans h.flags
  signature hm := (h'.signature (h.not_isPending hm)).trans (h.signature hm)
  resolved hr := by
    obtain ⟨h1, h2, h3, h4, h5⟩ := h.resolved hr
    obtain ⟨k1, k2, k3, k4, k5⟩ := h'.resolved h1
    exact ⟨k1, k2.trans h2, k3.trans h3, k4.trans h4, k5.trans h5⟩

/-- What a callable says after its text was processed: the types of a draft without faults, or
that there were faults. -/
def Shows (m : Method) (d : SignatureDraft) : Prop :=
  if d.faults.isEmpty then
    m.isResolved ∧ m.params = d.params ∧ m.returns = d.returns ∧ m.throws = d.throws ∧ m.typeParams = d.typeVars.map (·.1)
  else m.signature = .broken

/-- What was said once a text was processed stays said. -/
theorem Shows.later {m m' : Method} {d : SignatureDraft} (hm : m.Shows d) (h : m.Later m') : m'.Shows d := by
  unfold Shows at *
  split
  · rename_i hd
    rw [if_pos hd] at hm
    obtain ⟨hr, h2, h3, h4, h5⟩ := hm
    obtain ⟨k1, k2, k3, k4, k5⟩ := h.resolved hr
    exact ⟨k1, k2.trans h2, k3.trans h3, k4.trans h4, k5.trans h5⟩
  · rename_i hd
    rw [if_neg hd] at hm
    exact (h.signature (by simp [isPending, hm])).trans hm

/-- The text of a callable was processed in a store on the way from one to another. Names may
denote more in the later one, so it matters when the text was read. -/
def ReadBetween (s s' : TypeStore) (id : MethodId) (text : SignatureText) (m m' : Method) : Prop :=
  ∃ s₁ : TypeStore, s₁.WellFormed ∧ s.Extends s₁ ∧ (SignatureDraft.ofText id m.kind m.owner text s₁).2.Extends s' ∧
    m'.Shows (SignatureDraft.ofText id m.kind m.owner text s₁).1

end Method

/-! ## Callables and members of a universe

How callables and members are found in a universe.
-/

namespace Universe

/-- The callable with a number that exists stands at its place. -/
theorem getElem?_of_method? {u : Universe} {id : MethodId} {m : Method} (h : u.method? id = some m) :
    u.methods[id.index - 1]? = some m := by
  unfold Universe.method? at h
  split at h
  · cases h
  · exact h

/-- A callable that was found is the one with the number. -/
theorem method_eq {u : Universe} {id : MethodId} {m : Method} (h : u.method? id = some m) : u.method id = m := by
  simp [method, h]

/-- A callable with a processed signature exists. -/
theorem method?_of_isResolved {u : Universe} {id : MethodId} (h : (u.method id).isResolved) :
    u.method? id = some (u.method id) := by
  unfold method at *
  cases hm : u.method? id with
  | none =>
    rw [hm] at h
    exact absurd h (by decide)
  | some m => rfl

/-- What is in an association list after a key was set. -/
theorem mem_put {κ α : Type} [DecidableEq κ] {k : κ} {a : α} {l : List (κ × α)} {p : κ × α}
    (h : p ∈ Assoc.put k a l) : p ∈ l ∨ p = (k, a) := by
  induction l with
  | nil => exact .inr (by simpa [Assoc.put] using h)
  | cons q l ih =>
    unfold Assoc.put at h
    split at h
    · rcases List.mem_cons.mp h with h | h
      · exact .inr h
      · exact .inl (List.mem_cons_of_mem _ h)
    · rcases List.mem_cons.mp h with rfl | h
      · exact .inl (by simp)
      · exact (ih h).imp_left (List.mem_cons_of_mem _)

/-- The members of a class are recorded, or those of a class of which nothing is known. -/
theorem membersOf_cases (u : Universe) (t : TypeId) :
    (u.types.classOf t, u.membersOf t) ∈ u.members ∨ u.membersOf t = u.freshMembers (u.types.classOf t) := by
  unfold membersOf
  cases h : u.members.lookup (u.types.classOf t) with
  | none => exact .inr (by simp [h])
  | some c => exact .inl (by simpa [h] using TypeStore.mem_of_lookup h)

variable {u u' u'' : Universe} {id : MethodId}

/-- Types are extended, and callables keep what was said of them. It is the part of `Keeps`
that speaks neither of members nor of tables, and the lemmas about comparing methods need no
more. -/
structure Retains (u u' : Universe) : Prop where
  /-- The types are extended. -/
  types : u.types.Extends u'.types
  /-- Callables keep what was said of them. -/
  methods : ∀ (i : Nat) m, u.methods[i]? = some m → ∃ m', u'.methods[i]? = some m' ∧ m.Later m'

namespace Retains

/-- Types and callables are the same. -/
theorem of_same (types : u'.types = u.types) (methods : u'.methods = u.methods) : Retains u u' :=
  ⟨types ▸ .refl _, fun _ m h => ⟨m, methods ▸ h, .refl m⟩⟩

theorem trans (h : Retains u u') (h' : Retains u' u'') : Retains u u'' where
  types := h.types.trans h'.types
  methods i m hm := by
    obtain ⟨m', hm', hl⟩ := h.methods i m hm
    obtain ⟨m'', hm'', hl'⟩ := h'.methods i m' hm'
    exact ⟨m'', hm'', hl.trans hl'⟩

/-- A callable that exists stays. -/
theorem method? (h : Retains u u') {m : Method} (hm : u.method? id = some m) : ∃ m', u'.method? id = some m' ∧ m.Later m' := by
  unfold Universe.method? at hm ⊢
  split at hm
  · cases hm
  · rename_i hid
    rw [if_neg hid]
    exact h.methods _ m hm

end Retains

/-- A callable exists and its signature has been looked at. -/
def Processed (u : Universe) (id : MethodId) : Prop :=
  ∃ m, u.method? id = some m ∧ ¬ m.isPending

/-- A signature that was resolved has been looked at. -/
theorem processed_of_isResolved (h : (u.method id).isResolved) : u.Processed id := by
  refine ⟨u.method id, method?_of_isResolved h, ?_⟩
  unfold Method.isResolved at h
  unfold Method.isPending
  cases hsig : (u.method id).signature <;> simp_all

/-- What has been looked at stays so. -/
theorem Retains.processed (h : u.Retains u') (hp : u.Processed id) : u'.Processed id := by
  obtain ⟨m, hm, hpending⟩ := hp
  obtain ⟨m', hm', hl⟩ := h.method? hm
  exact ⟨m', hm', hl.not_isPending hpending⟩

end Universe

end CallResolution
