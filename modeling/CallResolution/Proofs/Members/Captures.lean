import CallResolution.Proofs.Members.Bodies

/-!
# Fields of captures

A class that captures a variable gets a field for the copy together with the record of the
capture. Fields and captures are never taken away, so that in every universe on the way each
capture has the field that was made for it.

Main statements: `Populated.backed` (each recorded capture has its field), `addCapture_some`
and `addCapture_none` (which classes can be made to hold a copy).
-/

namespace CallResolution

namespace Universe

variable {mayFinish : Universe → TypeId → Prop} {u u' : Universe}

/-! ## Fields

Fields are numbered and never change.
-/

/-- The field with a number, by its place. -/
theorem field?_eq_some_iff {id : FieldId} {f : Field} :
    u.field? id = some f ↔ id ≠ .none ∧ u.fields[id.index - 1]? = some f := by
  unfold field?
  split <;> simp_all

/-- A field stays when another one is added. -/
theorem field?_push {f g : Field} {id : FieldId} (fields : u'.fields = u.fields.push g) (h : u.field? id = some f) :
    u'.field? id = some f := by
  obtain ⟨hid, hget⟩ := field?_eq_some_iff.mp h
  refine field?_eq_some_iff.mpr ⟨hid, ?_⟩
  rw [fields, Array.getElem?_push, if_neg (Nat.ne_of_lt (Array.getElem?_eq_some_iff.mp hget).1)]
  exact hget

/-- The field that was added last. -/
theorem field?_push_self {g : Field} (fields : u'.fields = u.fields.push g) : u'.field? ⟨u.fields.size + 1⟩ = some g :=
  field?_eq_some_iff.mpr ⟨by simp [FieldId.none], by simp [fields]⟩

/-- Fields stay. -/
theorem Move.field? (h : Move mayFinish u u') {id : FieldId} {f : Field} (hf : u.field? id = some f) :
    u'.field? id = some f := by
  cases h with
  | method => rwa [addMethod_eq]
  | field => exact field?_push rfl hf
  | arrayMembers =>
    unfold Universe.arrayMembers
    rw [get_bind_apply]
    split
    · exact hf
    · exact field?_push rfl hf
  | @capture t name type _ =>
    rcases addCapture_cases t name type u with ⟨c, -, h⟩ | ⟨-, -, h⟩ | ⟨-, -, h⟩ <;> rw [h]
    · exact hf
    · exact hf
    · exact field?_push rfl hf
  | @finish t _ _ =>
    rcases completeClass_cases t u with ⟨-, h⟩ | ⟨-, h⟩ <;> rw [h] <;> exact hf
  | _ => exact hf

/-! ## Captures have fields

The record of a capture and its field are made together.
-/

/-- A capture of a class has a field of this class, which is named for the variable and has
its type. The body of the class reads the copy from this field. -/
def Backed (u : Universe) (cls : TypeId) (c : Capture) : Prop :=
  ∃ t, u.types.Knows t ∧ u.types.classOf t = cls ∧ u.field? c.field = some (captureField t c.name c.type)

/-- What a capture is backed by stays. -/
theorem Backed.move (h : Move mayFinish u u') {cls : TypeId} {c : Capture} (hc : u.Backed cls c) : u'.Backed cls c := by
  obtain ⟨t, ht, hcls, hfield⟩ := hc
  exact ⟨t, h.types_extends.knows ht, (h.types_extends.classOf ht).trans hcls, h.field? hfield⟩

/-- A capture that the members of a class list is recorded. -/
theorem lookup_of_mem_captures {cls : TypeId} {c : Capture} (h : c ∈ (u.entry cls).captures) :
    u.members.lookup cls = some (u.entry cls) := by
  unfold entry at *
  cases hlookup : u.members.lookup cls with
  | some c => rfl
  | none => simp [hlookup, freshMembers] at h

/-- What classes capture after the members of one were set without a further capture. -/
theorem mem_captures_put {t cls : TypeId} {c c' : ClassMembers} {k : Capture}
    (members : u'.members = Assoc.put (u.types.classOf t) c u.members) (h : u'.members.lookup cls = some c')
    (hk : k ∈ c'.captures) (captures : c.captures = (u.membersOf t).captures) : k ∈ (u.entry cls).captures := by
  rcases lookup_put_cases members h with ⟨rfl, rfl⟩ | h
  · rwa [captures, membersOf_eq_entry] at hk
  · rwa [entry_of_lookup h]

/-- A capture that is recorded after a move was recorded before, or its field was made just
now. Both are made by one function, and no other move records a capture. -/
theorem Move.captures_cases (h : Move mayFinish u u') {cls : TypeId} {c' : ClassMembers} {k : Capture}
    (hc' : u'.members.lookup cls = some c') (hk : k ∈ c'.captures) : k ∈ (u.entry cls).captures ∨ u'.Backed cls k := by
  have same (hc : u.members.lookup cls = some c') : k ∈ (u.entry cls).captures := by rwa [entry_of_lookup hc]
  cases h with
  | @method m =>
    rw [addMethod_eq] at hc'
    refine .inl (mem_captures_put (t := m.owner) (by rfl) hc' hk ?_)
    unfold withMember
    split
    · rfl
    · split <;> rfl
  | @field f _ =>
    refine .inl (mem_captures_put (t := f.owner) (by rfl) hc' hk ?_)
    rfl
  | @accessor key acc _ _ =>
    refine .inl (mem_captures_put (t := acc.owner) (by rfl) hc' hk ?_)
    rfl
  | arrayMembers => exact .inl (same (u.arrayMembers_same.2 ▸ hc'))
  | @table t st _ _ _ =>
    refine .inl (mem_captures_put (t := t) (by rfl) hc' hk ?_)
    rfl
  | @capture t name type known =>
    rcases addCapture_cases t name type u with ⟨c, -, h⟩ | ⟨-, -, h⟩ | ⟨-, -, h⟩
    · rw [h] at hc'
      exact .inl (same hc')
    · rw [h] at hc'
      exact .inl (same hc')
    · -- The class gets the field first, and then the record of the capture.
      rw [h] at hc' ⊢
      have hfield := membersOf_addField (captureField t name type) u
      rcases lookup_put_cases rfl hc' with ⟨rfl, rfl⟩ | hc
      · rcases List.mem_append.mp hk with hk | hk
        · refine .inl ?_
          rw [show (addField (captureField t name type) u).2.membersOf t = _ from hfield] at hk
          exact membersOf_eq_entry u t ▸ hk
        · rw [List.mem_singleton.mp hk]
          exact .inr ⟨t, known, rfl, field?_push_self rfl⟩
      · refine .inl (mem_captures_put (u := u) (t := t) (by rfl) hc hk ?_)
        rfl
  | @finish t _ _ =>
    rcases completeClass_cases t u with ⟨-, h⟩ | ⟨-, h⟩
    · rw [h] at hc'
      exact .inl (same hc')
    · rw [h] at hc'
      refine .inl (mem_captures_put (t := t) (by rfl) hc' hk ?_)
      rfl
  | _ => exact .inl (same hc')

/-- Each capture of a class that was declared in a document has its field. -/
theorem Populated.backed (h : u.Populated) {t : TypeId} {c : Capture} (hc : c ∈ u.captures t) :
    u.Backed (u.types.classOf t) c := by
  suffices hall : ∀ cls c', u.members.lookup cls = some c' → ∀ k ∈ c'.captures, u.Backed cls k from
    hall _ _ (lookup_of_mem_captures hc) c hc
  refine h.keeps (I := fun v => ∀ cls c', v.members.lookup cls = some c' → ∀ k ∈ c'.captures, v.Backed cls k) ?_ ?_
  · intro v hv cls c' hc' k hk
    have hnone : c'.captures = [] := (initial_declares.1 (cls, c') (hv.members ▸ TypeStore.mem_of_lookup hc')).2.1.2
    simp [hnone] at hk
  · intro v w _ move hall cls c' hc' k hk
    rcases move.captures_cases hc' hk with hold | hnew
    · exact (hall cls _ (lookup_of_mem_captures hold) k hold).move move
    · exact hnew

/-! ## Which classes can hold a copy

Whether a class can be made to capture a variable can be told without trying.
-/

/-- A class can hold a copy of a variable: it has one already, or its body is open. A finished
class takes no further capture, since its constructors would lack a parameter for it. -/
def CanHold (u : Universe) (t : TypeId) (name : String) : Prop :=
  (u.captureOf? t name).isSome ∨ u.isComplete t = false

instance (u : Universe) (t : TypeId) (name : String) : Decidable (u.CanHold t name) :=
  inferInstanceAs (Decidable (_ ∨ _))

/-- A class that can hold no copy of a variable is left alone. -/
theorem addCapture_none {t : TypeId} {name : String} (h : ¬ u.CanHold t name) (type : TypeId) :
    addCapture t name type u = (none, u) := by
  rcases addCapture_cases t name type u with ⟨c, hc, -⟩ | ⟨-, -, heq⟩ | ⟨-, hopen, -⟩
  · exact absurd (.inl (by simp [hc])) h
  · exact heq
  · exact absurd (.inr hopen) h

/-- A class that can hold a copy of a variable is made to capture it. -/
theorem addCapture_some {t : TypeId} {name : String} (h : u.CanHold t name) (type : TypeId) :
    ∃ c, (addCapture t name type u).1 = some c := by
  rcases addCapture_cases t name type u with ⟨c, -, heq⟩ | ⟨hnone, hdone, -⟩ | ⟨-, -, heq⟩
  · exact ⟨c, by rw [heq]⟩
  · rcases h with h | h
    · simp [hnone] at h
    · simp [hdone] at h
  · exact ⟨_, by rw [heq]⟩

/-- Only a local class can hold a copy of a variable. -/
theorem CanHold.isLocalClass (hs : u.SoundBodies) (hu : u.types.WellFormed) {t : TypeId} {name : String}
    (h : u.CanHold t name) : u.types.isLocalClass t := by
  by_contra hforeign
  obtain ⟨hdone, hnone⟩ := hs.foreign_class hu (by simpa using hforeign)
  rcases h with h | h
  · simp [captureOf?, hnone] at h
  · simp [hdone] at h

end Universe

end CallResolution
