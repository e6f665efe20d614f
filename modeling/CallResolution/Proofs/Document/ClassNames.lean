import CallResolution.Proofs.Document.WellFounded
import CallResolution.Proofs.Text.Separators

/-!
# Names of classes

Every class is registered under its qualified name, and keeps that name. A class of a document
and a placeholder are registered only under a name that is free. An anonymous class is
registered under the next number of its outermost class, whether the name is free or not, and
takes it from a class that has it.

So the classes of a loaded document have names of their own. In a run, of two classes with one
name the later one is an anonymous class, and the last one is found. Numbers are not given out
twice, so this needs a class in the document that is named like an anonymous one.

Main statements: `class_names_shared` and `class_name_taken`.
-/

namespace CallResolution

open TypeStore

namespace TypeStore

variable {g : Guard} {s₀ s s' : TypeStore} {t t' o : TypeId} {info : ClassInfo} {n : Nat}

/-! ## What a step registers

A step of a store registers at most one class, and it is the kind of the class that decides
whether its name is looked up before.
-/

/-- How many anonymous classes were registered in the outermost class around a class. The next
one gets the number behind this. -/
def countAt (s : TypeStore) (t : TypeId) : Nat :=
  (s.anonymous.lookup (s.outermost t)).getD 0

/-- A class that is added to a store. Its name is put in front of the names that there are, so
it is found before any other class of the name. -/
structure Adds (s s' : TypeStore) (t : TypeId) (info : ClassInfo) : Prop where
  /-- It has the next number. -/
  next : t = ⟨s.shapes.size⟩
  /-- It is a class. -/
  declared : (s'.shape t).isDeclared
  /-- What is declared of it. -/
  info : s'.classInfo? t = some info
  /-- It is registered under its name. -/
  names : s'.names = (s'.qualifiedName t, t) :: s.names
  /-- There is no other new class. -/
  others : ∀ c, (s'.shape c).isDeclared → c = t ∨ (s.shape c).isDeclared

/-- What a step registers: nothing, a class under a name that is free, or an anonymous class
under the next number. Whether the name of an anonymous class is free is not asked. -/
inductive Registers (g : Guard) (s s' : TypeStore) : Prop
  /-- Nothing is registered. -/
  | nothing (names : s'.names = s.names) (counts : s'.anonymous = s.anonymous)
      (others : ∀ c, (s'.shape c).isDeclared → (s.shape c).isDeclared)
  /-- A class is registered. -/
  | declared {t : TypeId} {info : ClassInfo} (added : Adds s s' t info) (may : g.declares info)
      (free : s.classNamed? (s'.qualifiedName t) = none) (counts : s'.anonymous = s.anonymous)
  /-- An anonymous class is registered. -/
  | anonymous {t : TypeId} {info : ClassInfo} (added : Adds s s' t info) (may : g.embodies)
      (around : (s.shape info.outer).isDeclared) (mark : info.flags.isAnonymous)
      (name : info.name = toString (s.countAt info.outer + 1))
      (counts : s'.anonymous =
        (s.outermost info.outer, s.countAt info.outer + 1) :: s.anonymous.filter (·.1 ≠ s.outermost info.outer))

/-- What was a class before a shape was added at the end, or is the new number. -/
theorem isDeclared_push {shape : TypeShape} (shapes : s'.shapes = s.shapes.push shape) (c : TypeId)
    (hc : (s'.shape c).isDeclared) : c = ⟨s.shapes.size⟩ ∧ shape.isDeclared ∨ (s.shape c).isDeclared := by
  cases hshape : s'.shape c with
  | declared slot =>
    have hi := getElem?_of_shape hshape (by simp)
    rw [shapes] at hi
    rcases getElem?_push_cases hi with hold | ⟨hnew, rfl⟩
    · have hne : c ≠ .none := by
        rintro rfl
        simp [TypeStore.shape] at hshape
      exact .inr (by simp [TypeStore.shape, hne, Array.getD_eq_getD_getElem?, hold, TypeShape.isDeclared])
    · exact .inl ⟨congrArg TypeId.mk hnew, rfl⟩
  | _ => simp [hshape, TypeShape.isDeclared] at hc

/-- What is declared of the class that gets the next number. -/
theorem classInfo_push (hs : s.WellFormed) (shapes : s'.shapes = s.shapes.push (.declared s.classes.size))
    (classes : s'.classes = s.classes.push info) : s'.classInfo? ⟨s.shapes.size⟩ = some info := by
  simp [classInfo?, classSlot?, shape_push hs.pos shapes, classes]

/-- A class under the next number that is registered under its name is added. -/
theorem Adds.of_push (hs : s.WellFormed) (shapes : s'.shapes = s.shapes.push (.declared s.classes.size))
    (classes : s'.classes = s.classes.push info)
    (names : s'.names = (s'.qualifiedName ⟨s.shapes.size⟩, ⟨s.shapes.size⟩) :: s.names) : Adds s s' ⟨s.shapes.size⟩ info where
  next := rfl
  declared := by
    rw [shape_push hs.pos shapes]
    rfl
  info := classInfo_push hs shapes classes
  names := names
  others c hc := (isDeclared_push shapes c hc).imp_left (·.1)

/-- An anonymous class is registered under its name, and counted. -/
theorem registerAnonymous_registers (outer : TypeId) (info : ClassInfo) (s : TypeStore) :
    let s' := (registerAnonymous outer info s).2
    s'.names = (s'.qualifiedName ⟨s.shapes.size⟩, ⟨s.shapes.size⟩) :: s.names ∧
      s'.anonymous = (s.outermost outer, s.countAt outer + 1) :: s.anonymous.filter (·.1 ≠ s.outermost outer) := by
  unfold registerAnonymous
  rw [get_bind_apply]
  -- The name is read before it is entered, and qualified names do not depend on what is entered.
  have entered (s₁ : TypeStore) (names) : { s₁ with names }.qualifiedName ⟨s.shapes.size⟩ = s₁.qualifiedName ⟨s.shapes.size⟩ :=
    (⟨rfl, fun _ => rfl, fun _ => rfl⟩ : SameNames s₁ { s₁ with names }).qualifiedName _
  exact ⟨congrArg (fun name => (name, (⟨s.shapes.size⟩ : TypeId)) :: s.names) (entered _ _).symm, rfl⟩

/-- What a step registers. -/
theorem Step.registers (h : Step g s s') (hs : s.WellFormed) (hn : s.Nested) : Registers g s s' := by
  have hs' := hs.step h
  have hn' := h.grows.nested hn
  have hqualified := fun t ht => h.qualifiedName (t := t) hs hn ht
  cases h with
  | @derived shape made =>
    refine .nothing rfl rfl fun c hc => (isDeclared_push rfl c hc).resolve_left ?_
    rintro ⟨-, hdecl⟩
    cases shape with
    | declared slot => simp [TypeShape.isArray] at made
    | _ => cases hdecl
  | @fresh v =>
    rw [registerVariable_eq]
    refine .nothing rfl rfl fun c hc => (isDeclared_push rfl c hc).resolve_left ?_
    rintro ⟨-, hdecl⟩
    cases hdecl
  | @declared info may known _ _ free =>
    have hclass : (registerClass info s).2.classInfo? ⟨s.shapes.size⟩ = some info :=
      classInfo_push hs (by rw [registerClass_eq free]; rfl) (by rw [registerClass_eq free])
    have hname : (registerClass info s).2.qualifiedName ⟨s.shapes.size⟩ = s.qualifiedOf info := by
      rw [hn'.qualifiedName hs' hclass, hqualified _ known.outer]
      rfl
    refine .declared (.of_push hs ?_ ?_ ?_) may (hname ▸ free) ?_
    · rw [registerClass_eq free]
      rfl
    · rw [registerClass_eq free]
    · rw [hname, registerClass_eq free]
    · rw [registerClass_eq free]
      rfl
  | @anonymous outer info may around known =>
    obtain ⟨hnames, hcounts⟩ := registerAnonymous_registers outer info s
    obtain ⟨name, anonymous, h⟩ := registerAnonymous_eq outer info s
    have added : Adds s (registerAnonymous outer info s).2 ⟨s.shapes.size⟩ (s.anonymousInfo outer info) := by
      refine .of_push hs ?_ ?_ hnames
      · rw [h]
        rfl
      · rw [h]
    exact .anonymous added may around rfl rfl hcounts
  | bounds shape =>
    simp only [setBounds, shape]
    exact .nothing rfl rfl fun _ hc => hc
  | header place =>
    simp only [modifyClass, place]
    exact .nothing rfl rfl fun _ hc => hc

/-! ## Classes and their names

`Names` is the invariant: it is stated with the classes that may have lost their names to
others, so that it holds of loading, where there are none, and of a run, where those with a
number may be behind it.
-/

/-- Classes are found under their names, but for those that made ones with the same name took
the place of. Which classes count as made is a parameter: none while a document is loaded, and
the anonymous ones of a run. -/
structure Names (Made : TypeId → Prop) (s : TypeStore) : Prop where
  /-- A name stands for a class that has it. -/
  named : ∀ p ∈ s.names, s.qualifiedName p.2 = p.1
  /-- Under the name of a class that class is found, or one that was made. -/
  found : ∀ c, (s.shape c).isDeclared → ∃ t, s.classNamed? (s.qualifiedName c) = some t ∧ (t = c ∨ Made t)
  /-- Of two classes with one name, one was made. -/
  shared : ∀ c c', (s.shape c).isDeclared → (s.shape c').isDeclared → s.qualifiedName c = s.qualifiedName c' →
    c = c' ∨ Made c ∨ Made c'

namespace Names

variable {Made Made' : TypeId → Prop}

/-- Where nothing is registered, names stand for what they stood for. -/
theorem same (h : Names Made s) (hs : s.WellFormed) (kept : ∀ c, s.Knows c → s'.qualifiedName c = s.qualifiedName c)
    (names : s'.names = s.names) (others : ∀ c, (s'.shape c).isDeclared → (s.shape c).isDeclared)
    (keeps : ∀ c, Made c → Made' c) : Names Made' s' where
  named p hp := by
    rw [names] at hp
    rw [kept _ (knows_of_isDeclared (hs.names p hp)), h.named p hp]
  found c hc := by
    obtain ⟨t, hfound, hmade⟩ := h.found c (others c hc)
    refine ⟨t, ?_, hmade.imp_right (keeps t)⟩
    unfold classNamed?
    rwa [names, kept c (knows_of_isDeclared (others c hc))]
  shared c c' hc hc' heq := by
    rw [kept c (knows_of_isDeclared (others c hc)), kept c' (knows_of_isDeclared (others c' hc'))] at heq
    exact (h.shared c c' (others c hc) (others c' hc') heq).imp_right (.imp (keeps c) (keeps c'))

/-- A class is added under a name that is free, or it counts as made. -/
theorem adds (h : Names Made s) (hs : s.WellFormed) (kept : ∀ c, s.Knows c → s'.qualifiedName c = s.qualifiedName c)
    (added : Adds s s' t info) (keeps : ∀ c, Made c → Made' c)
    (free : s.classNamed? (s'.qualifiedName t) = none ∨ Made' t) : Names Made' s' := by
  have taken {c : TypeId} (hc : (s.shape c).isDeclared) (heq : s'.qualifiedName c = s'.qualifiedName t) : Made' t := by
    refine free.resolve_left fun hfree => ?_
    obtain ⟨_, hfound, -⟩ := h.found c hc
    rw [← heq, kept c (knows_of_isDeclared hc), hfound] at hfree
    cases hfree
  have look (name : String) : s'.classNamed? name = if name = s'.qualifiedName t then some t else s.classNamed? name := by
    unfold classNamed?
    rw [added.names, List.lookup_cons]
    split <;> simp_all
  refine ⟨fun p hp => ?_, fun c hc => ?_, fun c c' hc hc' heq => ?_⟩
  · rcases List.mem_cons.mp (added.names ▸ hp) with rfl | hp
    · rfl
    · rw [kept _ (knows_of_isDeclared (hs.names p hp)), h.named p hp]
  · rw [look]
    split
    · rename_i heq
      exact ⟨t, rfl, (added.others c hc).imp .symm fun hold => taken hold heq⟩
    · rename_i hne
      have hold := (added.others c hc).resolve_left fun heq => hne (heq ▸ rfl)
      rw [kept c (knows_of_isDeclared hold)]
      obtain ⟨u, hfound, hmade⟩ := h.found c hold
      exact ⟨u, hfound, hmade.imp_right (keeps u)⟩
  · rcases added.others c hc with rfl | hold <;> rcases added.others c' hc' with rfl | hold'
    · exact .inl rfl
    · exact .inr (.inl (taken hold' heq.symm))
    · exact .inr (.inr (taken hold heq))
    · rw [kept c (knows_of_isDeclared hold), kept c' (knows_of_isDeclared hold')] at heq
      exact (h.shared c c' hold hold' heq).imp_right (.imp (keeps c) (keeps c'))

/-- What is found under a name has that name. -/
theorem qualifiedName (h : Names Made s) {name : String} (hfound : s.classNamed? name = some t) : s.qualifiedName t = name :=
  h.named (name, t) (mem_of_lookup hfound)

/-- Names after a step. -/
theorem step (h : Names Made s) (hs : s.WellFormed) (hn : s.Nested) (hstep : Step g s s') (keeps : ∀ c, Made c → Made' c)
    (makes : ∀ t info, Adds s s' t info → g.embodies → (s.shape info.outer).isDeclared → info.flags.isAnonymous →
      info.name = toString (s.countAt info.outer + 1) → Made' t) : Names Made' s' := by
  have kept (c : TypeId) (hc : s.Knows c) := hstep.qualifiedName hs hn hc
  cases hstep.registers hs hn with
  | nothing names _ others => exact h.same hs kept names others keeps
  | declared added _ free => exact h.adds hs kept added keeps (.inl free)
  | anonymous added may around mark name => exact h.adds hs kept added keeps (.inr (makes _ _ added may around mark name))

/-- Where no class counts as made, every class is found under its name. -/
theorem own (h : Names (fun _ => False) s) {c : TypeId} (hc : (s.shape c).isDeclared) :
    s.classNamed? (s.qualifiedName c) = some c := by
  obtain ⟨t, hfound, rfl | hmade⟩ := h.found c hc
  · exact hfound
  · exact hmade.elim

end Names

/-- The predefined classes are found under their names. -/
theorem initial_names : Names (fun _ => False) initial := by
  have named : ∀ p ∈ predefinedNames, initial.qualifiedName p.2 = p.1 := by decide +kernel
  have own : ∀ i < initial.shapes.size, (initial.shape ⟨i⟩).isDeclared →
      initial.classNamed? (initial.qualifiedName ⟨i⟩) = some ⟨i⟩ := by
    decide +kernel
  refine ⟨named, fun c hc => ⟨c, own _ (knows_of_isDeclared hc) hc, .inl rfl⟩, fun c c' hc hc' heq => .inl ?_⟩
  exact Option.some.inj ((own _ (knows_of_isDeclared hc) hc).symm.trans (heq ▸ own _ (knows_of_isDeclared hc') hc'))

/-- While a document is loaded, every class has a name of its own. -/
theorem names_of_steps (h : (growth .basic).Leads initial s) : Names (fun _ => False) s := by
  induction h with
  | refl => exact initial_names
  | @tail s s' hsteps hstep ih =>
    have hs : s.WellFormed := ((growth .basic).sound hsteps ⟨initial_wellFormed, by decide, Nat.zero_le _⟩).1
    exact ih.step hs ((growth_grows hsteps).nested initial_nested) hstep (fun _ => id) fun _ _ _ may => may.elim

/-! ## Numbers of anonymous classes

Numbers are counted for each outermost class and only go up, so two anonymous classes of a run
have different names. The name of an anonymous class may still be that of a class of the
document.
-/

/-- A class that is not in an earlier store: an anonymous class in another one, with a number.
Numbers are given for the outermost class, so two classes in one outermost class have
different numbers. -/
structure Numbered (s₀ s : TypeStore) (t o : TypeId) (n : Nat) : Prop where
  /-- It was not there. -/
  new : ¬ s₀.Knows t
  /-- It is a class. -/
  declared : (s.shape t).isDeclared
  /-- It lies in a class. -/
  around : (s.shape o).isDeclared
  /-- It is declared there, as an anonymous class with the number. -/
  info : ∃ info, s.classInfo? t = some info ∧ info.outer = o ∧ info.flags.isAnonymous ∧ info.name = toString (n + 1)

/-- A class is named like an anonymous one: its name ends in a dollar sign and a number. A
class of a document may be called so. -/
def NamedAsAnonymous (s : TypeStore) (c : TypeId) : Prop :=
  ∃ around n, s.qualifiedName c = around ++ "$" ++ toString (n + 1 : Nat)

/-- The classes that a store has got since an earlier one, and their numbers. It is the
invariant of a run, compared with the store that was loaded. -/
structure Counted (s₀ s : TypeStore) : Prop where
  /-- It has grown. -/
  grows : Grows s₀ s
  /-- Names stay. -/
  kept : ∀ c, s₀.Knows c → s.qualifiedName c = s₀.qualifiedName c
  /-- What is new is a placeholder, or an anonymous class with a number. -/
  kinds : ∀ c, (s.shape c).isDeclared → s₀.Knows c ∨ (∃ x, s.qualifiedName c = x ++ "$") ∨ ∃ o n, Numbered s₀ s c o n
  /-- Numbers that were given out are counted. -/
  bound : ∀ c o n, Numbered s₀ s c o n → n < s.countAt o
  /-- No number is given out twice. -/
  distinct : ∀ c c' o n, Numbered s₀ s c o n → Numbered s₀ s c' o n → c = c'

/-- A class with a number has the name of the class around it and the number in its name. -/
theorem Numbered.qualifiedName (h : Numbered s₀ s t o n) (hs : s.WellFormed) (hn : s.Nested) :
    s.qualifiedName t = s.qualifiedName o ++ "$" ++ toString (n + 1) := by
  obtain ⟨info, hinfo, rfl, hmark, hname⟩ := h.info
  rw [hn.qualifiedName hs hinfo, joinName, if_pos (isSome_of_isDeclared h.around), hmark, hname]
  rfl

/-- A step of a run keeps known classes and what lies around them. -/
theorem Step.keeps (h : Step .running s s') (hs : s.WellFormed) (ht : s.Knows t) :
    s'.classInfo? t = s.classInfo? t ∧ s'.outermost t = s.outermost t := by
  rcases h.retains hs with h | ⟨u, slot, bs, shape, rfl⟩ | ⟨_, _, ⟨_, _, hheads⟩, -⟩
  · exact ⟨h.classInfo hs ht, h.outermost hs ht⟩
  · refine ⟨?_, (sameNames_setBounds shape bs).outermost t⟩
    simp only [setBounds, shape]
    rfl
  · exact hheads.elim

namespace Numbered

/-- A class with a number keeps it. -/
theorem later (h : Numbered s₀ s t o n) (hs : s.WellFormed) (hstep : Step .running s s') : Numbered s₀ s' t o n := by
  obtain ⟨info, hinfo, hrest⟩ := h.info
  have hkept := (hstep.keeps hs (knows_of_isDeclared h.declared)).1
  exact ⟨h.new, hstep.grows.isDeclared h.declared, hstep.grows.isDeclared h.around, info, hkept.trans hinfo, hrest⟩

/-- It comes after the class that it lies in. -/
theorem outer_lt (h : Numbered s₀ s t o n) (hs : s.WellFormed) (hn : s.Nested) : o.index < t.index := by
  obtain ⟨info, hinfo, rfl, -⟩ := h.info
  exact hn.outer_lt hs hinfo

/-- A class that was there before a step had its number. -/
theorem before (h : Numbered s₀ s' t o n) (hs : s.WellFormed) (hn : s.Nested) (hstep : Step .running s s') (ht : s.Knows t) :
    Numbered s₀ s t o n := by
  obtain ⟨info, hinfo, rfl, hrest⟩ := h.info
  rw [(hstep.keeps hs ht).1] at hinfo
  refine ⟨h.new, hstep.grows.shape ht ▸ h.declared, ?_, info, hinfo, rfl, hrest⟩
  rw [← hstep.grows.shape (knows_of_lt ht (hn.outer_lt hs hinfo))]
  exact h.around

/-- An anonymous class that was added has a number. -/
theorem of_anonymous (h : Grows s₀ s) (h' : Grows s s') (added : Adds s s' t info) (around : (s.shape info.outer).isDeclared)
    (mark : info.flags.isAnonymous) (name : info.name = toString (n + 1)) : Numbered s₀ s' t info.outer n where
  new hknown := Nat.lt_irrefl s.shapes.size (h.knows (added.next ▸ hknown))
  declared := added.declared
  around := h'.isDeclared around
  info := ⟨info, added.info, rfl, mark, name⟩

/-- The number of a class that was added. -/
theorem of_added (h : Numbered s₀ s' t o n) (added : Adds s s' t info) : info.outer = o ∧ info.name = toString (n + 1) := by
  obtain ⟨info', hinfo, houter, -, hname⟩ := h.info
  cases added.info.symm.trans hinfo
  exact ⟨houter, hname⟩

end Numbered

/-- The name of a placeholder ends in a dollar sign. -/
theorem qualifiedName_placeholder (hs : s.WellFormed) (hn : s.Nested) (hinfo : s.classInfo? t = some info)
    (may : info.IsPlaceholder) : ∃ x, s.qualifiedName t = x ++ "$" := by
  obtain ⟨houter, name, hname⟩ := may
  rw [hn.qualifiedName hs hinfo, joinName, houter, hname]
  split
  · contradiction
  · split
    · exact ⟨name, rfl⟩
    · exact ⟨info.package ++ "." ++ name, by simp [String.append_assoc]⟩

namespace Registers

/-- No number is taken back. -/
theorem countAt_le (h : Registers .running s s') (hs : s.WellFormed) (hstep : Step .running s s') (ho : s.Knows o) :
    s.countAt o ≤ s'.countAt o := by
  unfold countAt
  rw [(hstep.keeps hs ho).2]
  cases h with
  | nothing _ counts => rw [counts]
  | declared _ _ _ counts => rw [counts]
  | @anonymous t info _ _ _ _ _ counts =>
    rw [counts]
    by_cases htop : s.outermost o = s.outermost info.outer
    · rw [htop, List.lookup_cons_self]
      exact Nat.le_succ _
    · rw [List.lookup_cons, beq_false_of_ne htop, Assoc.lookup_filter_of_ne htop]

/-- A class with a number was there before, or it got the next one. -/
theorem numbers (h : Registers .running s s') (hs : s.WellFormed) (hstep : Step .running s s')
    (hnumber : Numbered s₀ s' t o n) : s.Knows t ∨ t = ⟨s.shapes.size⟩ ∧ n = s.countAt o ∧ n < s'.countAt o := by
  cases h with
  | nothing _ _ others => exact .inl (knows_of_isDeclared (others t hnumber.declared))
  | declared added may =>
    rcases added.others t hnumber.declared with rfl | hold
    · obtain ⟨rfl, -⟩ := hnumber.of_added added
      have := isSome_of_isDeclared hnumber.around
      rw [may.1] at this
      cases this
    · exact .inl (knows_of_isDeclared hold)
  | @anonymous _ info added _ around _ name counts =>
    rcases added.others t hnumber.declared with rfl | hold
    · obtain ⟨rfl, hname⟩ := hnumber.of_added added
      have hn : n = s.countAt info.outer := by
        have := Text.toString_inj (congrArg String.toList (hname.symm.trans name))
        omega
      refine .inr ⟨added.next, hn, ?_⟩
      rw [hn]
      unfold countAt
      rw [(hstep.keeps hs (knows_of_isDeclared around)).2, counts, List.lookup_cons_self]
      exact Nat.lt_succ_self _
    · exact .inl (knows_of_isDeclared hold)

end Registers

namespace Counted

/-- At the start nothing is new. -/
theorem refl (s : TypeStore) : Counted s s where
  grows := .refl s
  kept _ _ := rfl
  kinds _ hc := .inl (knows_of_isDeclared hc)
  bound _ _ _ h := absurd (knows_of_isDeclared h.declared) h.new
  distinct _ _ _ _ h := absurd (knows_of_isDeclared h.declared) h.new

/-- A step of a run numbers its anonymous class. -/
theorem step (h : Counted s₀ s) (hs : s.WellFormed) (hn : s.Nested) (hstep : Step .running s s') : Counted s₀ s' := by
  have hs' := hs.step hstep
  have hn' := hstep.grows.nested hn
  have registers := hstep.registers hs hn
  have outermost {o : TypeId} (ho : s.Knows o) := (hstep.keeps hs ho).2
  have kept {c : TypeId} (hc : s.Knows c) := hstep.qualifiedName hs hn hc
  have numbers {c o : TypeId} {n : Nat} (hnumber : Numbered s₀ s' c o n) : Numbered s₀ s c o n ∨
      c = ⟨s.shapes.size⟩ ∧ n = s.countAt o ∧ n < s'.countAt o :=
    (registers.numbers hs hstep hnumber).imp_left fun hknown => hnumber.before hs hn hstep hknown
  refine ⟨h.grows.trans hstep.grows, fun c hc => ?_, fun c hc => ?_, fun c o n hnumber => ?_, fun c c' o n hnumber hnumber' => ?_⟩
  · exact (kept (h.grows.knows hc)).trans (h.kept c hc)
  · have old (hold : (s.shape c).isDeclared) :
        s₀.Knows c ∨ (∃ x, s'.qualifiedName c = x ++ "$") ∨ ∃ o n, Numbered s₀ s' c o n := by
      rw [kept (knows_of_isDeclared hold)]
      exact (h.kinds c hold).imp_right (.imp_right fun ⟨o, n, hnumber⟩ => ⟨o, n, hnumber.later hs hstep⟩)
    cases registers with
    | nothing _ _ others => exact old (others c hc)
    | declared added may =>
      rcases added.others c hc with rfl | hold
      · exact .inr (.inl (qualifiedName_placeholder hs' hn' added.info may))
      · exact old hold
    | anonymous added _ around mark name =>
      rcases added.others c hc with rfl | hold
      · exact .inr (.inr ⟨_, _, .of_anonymous h.grows hstep.grows added around mark name⟩)
      · exact old hold
  · rcases numbers hnumber with hold | ⟨-, -, hlt⟩
    · exact Nat.lt_of_lt_of_le (h.bound c o n hold) (registers.countAt_le hs hstep (knows_of_isDeclared hold.around))
    · exact hlt
  · rcases numbers hnumber with hold | ⟨rfl, hn, -⟩ <;> rcases numbers hnumber' with hold' | ⟨rfl, hn', -⟩
    · exact h.distinct c c' o n hold hold'
    · exact absurd (h.bound c o n hold) (hn' ▸ Nat.lt_irrefl _)
    · exact absurd (h.bound c' o n hold') (hn ▸ Nat.lt_irrefl _)
    · rfl

/-- Where no class of the earlier store is named like an anonymous one, every class has a name
of its own. -/
theorem inj (h : Counted s₀ s) (hs : s.WellFormed) (hn : s.Nested) (names : Names (fun c => ∃ o n, Numbered s₀ s c o n) s)
    (hfree : ∀ c, (s₀.shape c).isDeclared → ¬ s₀.NamedAsAnonymous c) (c c' : TypeId) (hc : (s.shape c).isDeclared)
    (hc' : (s.shape c').isDeclared) (heq : s.qualifiedName c = s.qualifiedName c') : c = c' := by
  -- Two classes with one name lie in classes with one name, which come before them.
  induction hsize : c.index + c'.index using Nat.strong_induction_on generalizing c c' with
  | _ size ih =>
  have numbered {c c' o : TypeId} {n : Nat} (hsize : c.index + c'.index = size) (hnumber : Numbered s₀ s c o n)
      (hc' : (s.shape c').isDeclared) (heq : s.qualifiedName c = s.qualifiedName c') : c = c' := by
    have hname := hnumber.qualifiedName hs hn
    rcases h.kinds c' hc' with hknown | ⟨x, hx⟩ | ⟨o', n', hnumber'⟩
    · refine absurd ⟨s.qualifiedName o, n, ?_⟩ (hfree c' (h.grows.shape hknown ▸ hc'))
      rw [← h.kept c' hknown, ← heq, hname]
    · exact absurd (hname.symm.trans (heq.trans hx)) (Text.number_ne_dollar _ _ _)
    · obtain ⟨houter, rfl⟩ := Text.numbered_inj (hname.symm.trans (heq.trans (hnumber'.qualifiedName hs hn)))
      have hlt := hnumber.outer_lt hs hn
      have hlt' := hnumber'.outer_lt hs hn
      obtain rfl := ih (o.index + o'.index) (by omega) o o' hnumber.around hnumber'.around houter rfl
      exact h.distinct c c' o n hnumber hnumber'
  rcases names.shared c c' hc hc' heq with heq | ⟨o, n, hnumber⟩ | ⟨o, n, hnumber⟩
  · exact heq
  · exact numbered hsize hnumber hc' heq
  · exact (numbered (by omega) hnumber hc heq.symm).symm

end Counted

/-- In a run every class is found under its name, but for those that numbered ones took the
place of. -/
theorem names_of_run (hs : s₀.WellFormed) (hn : s₀.Nested) (hnames : Names (fun _ => False) s₀)
    (h : (growth .running).Leads s₀ s) :
    s.WellFormed ∧ s.Nested ∧ Counted s₀ s ∧ Names (fun c => ∃ o n, Numbered s₀ s c o n) s := by
  induction h with
  | refl => exact ⟨hs, hn, .refl _, hnames.named, fun c hc => ⟨c, hnames.own hc, .inl rfl⟩, fun c c' hc hc' heq =>
      (hnames.shared c c' hc hc' heq).imp_right fun h => (or_self_iff.mp h).elim⟩
  | @tail s s' _ hstep ih =>
    obtain ⟨hs, hn, hcounted, hnames⟩ := ih
    have hcounted' := hcounted.step hs hn hstep
    refine ⟨hs.step hstep, hstep.grows.nested hn, hcounted', hnames.step hs hn hstep ?_ ?_⟩
    · exact fun c ⟨o, n, hnumber⟩ => ⟨o, n, hnumber.later hs hstep⟩
    · exact fun t info added _ around mark name => ⟨_, _, .of_anonymous hcounted.grows hstep.grows added around mark name⟩

/-- Where no name has a dollar sign and every class is found under its own name, no class is
named like an anonymous one. -/
theorem not_namedAsAnonymous {s : TypeStore} (plain : ∀ p ∈ s.names, '$' ∉ p.1.toList)
    (own : ∀ c, (s.shape c).isDeclared → s.classNamed? (s.qualifiedName c) = some c) (c : TypeId) (hc : (s.shape c).isDeclared) :
    ¬ s.NamedAsAnonymous c := by
  rintro ⟨around, n, hname⟩
  exact plain _ (mem_of_lookup (own c hc)) (by simp [hname])

end TypeStore

/-! ## Classes of a document and of its run

The two parts put together, for the universe that was loaded and the stages of the run.
-/

/-- When a document is loaded, every class is found under its qualified name. At every stage
of the run, what is found under the name of a class is that class or an anonymous one with
that name that was made in the run, and of two classes with one name one was made so. Where no
class of the document is named like an anonymous one, every class is found under its name at
every stage. -/
theorem class_names_shared (d : Document) (f : Source.File) (base : Options) (k : Nat) :
    let loaded := (d.load f).world.types
    let s := (((d.load f).session base).stage k).world.types
    (∀ c, (loaded.shape c).isDeclared → loaded.classNamed? (loaded.qualifiedName c) = some c) ∧
      Names (fun c => ∃ o n, loaded.Numbered s c o n) s ∧
      ((∀ c, (loaded.shape c).isDeclared → ¬ loaded.NamedAsAnonymous c) →
        ∀ c, (s.shape c).isDeclared → s.classNamed? (s.qualifiedName c) = some c) := by
  intro loaded s
  have hload := d.load_steps f
  have hnames := names_of_steps hload
  have hloaded : loaded.WellFormed := ((growth .basic).sound hload ⟨initial_wellFormed, by decide, Nat.zero_le _⟩).1
  have hleads := (Loaded.fresh d f base).stage_leads (Nat.zero_le k)
  rw [Session.stage_zero] at hleads
  obtain ⟨hs, hn, hcounted, hrun⟩ :=
    names_of_run hloaded ((growth_grows hload).nested initial_nested) hnames hleads.2.world.types.steps
  refine ⟨fun c hc => hnames.own hc, hrun, fun hfree c hc => ?_⟩
  obtain ⟨t, hfound, -⟩ := hrun.found c hc
  have ht := hs.names _ (mem_of_lookup hfound)
  rwa [hcounted.inj hs hn hrun hfree t c ht hc (hrun.qualifiedName hfound)] at hfound

/-- A document in whose run two anonymous classes are created. -/
def freeNameDocument : Document where
  classes := [.mk { name := "p.A" } []]
  program := [
    { id := "n", cls := "p.A", new := "Object", body := some {} },
    { id := "m", cls := "p.A", new := "Object", body := some {} }]

theorem freeNameDocument_names :
    (∀ p ∈ (freeNameDocument.load blankFile).world.types.names, '$' ∉ p.1.toList) ∧
      ∀ name ∈ ["p.A$1", "p.A$2"], ((((freeNameDocument.load blankFile).session {}).stage 2).world.types.classNamed? name).isSome := by
  decide +kernel

/-- No class of the document is named like an anonymous one, so after its run every class is
found under its own name, the anonymous classes among them. -/
theorem free_names_found :
    let loaded := (freeNameDocument.load blankFile).world.types
    let s := (((freeNameDocument.load blankFile).session {}).stage 2).world.types
    (∀ c, (loaded.shape c).isDeclared → ¬ loaded.NamedAsAnonymous c) ∧
      (∀ c, (s.shape c).isDeclared → s.classNamed? (s.qualifiedName c) = some c) ∧
      ∀ name ∈ ["p.A$1", "p.A$2"], (s.classNamed? name).isSome := by
  obtain ⟨hplain, hfound⟩ := freeNameDocument_names
  obtain ⟨hown, -, hfree⟩ := class_names_shared freeNameDocument blankFile {} 2
  have hnone := not_namedAsAnonymous hplain hown
  exact ⟨hnone, hfree hnone, hfound⟩
/-- A document with a class that is named like the first anonymous class of another one, which
is created in its run. Nothing is reported of it. -/
def takenNameDocument : Document where
  classes := [.mk { name := "p.A" } [], .mk { name := "p.A$1" } []]
  program := [{ id := "n", cls := "p.A", new := "Object", body := some {} }]

/-- After the creation the class of the document is not found under its name: it shares it
with the anonymous class. -/
theorem class_name_taken :
    let s := (((takenNameDocument.load blankFile).session {}).stage 1).world.types
    ∃ c c', c ≠ c' ∧ (s.shape c).isDeclared ∧ (s.shape c').isDeclared ∧ s.qualifiedName c = s.qualifiedName c' ∧
      s.classNamed? (s.qualifiedName c) = some c' := by
  intro s
  have h : ((takenNameDocument.load blankFile).world.types.classNamed? "p.A$1").any fun c =>
      (s.classNamed? "p.A$1").any fun c' => c ≠ c' ∧ (s.shape c).isDeclared ∧ (s.shape c').isDeclared ∧
        s.qualifiedName c = "p.A$1" ∧ s.qualifiedName c' = "p.A$1" := by
    decide +kernel
  obtain ⟨c, -, h⟩ := (Option.any_eq_true _ _).mp h
  obtain ⟨c', hfound, h⟩ := (Option.any_eq_true _ _).mp h
  obtain ⟨hne, hc, hc', hname, hname'⟩ := of_decide_eq_true h
  exact ⟨c, c', hne, hc, hc', hname.trans hname'.symm, hname ▸ hfound⟩

end CallResolution
